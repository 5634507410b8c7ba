import Mathlib.Data.List.Induction
import PeerLink.Proofs.Metadata.Acceptance
import PeerLink.Proofs.Text.LetterCase

/-!
# Finding properties by name

A block becomes a table exactly if it reads and no two of its names are alike but for the case of
the ASCII letters, and otherwise the first name that is alike to one before it is reported
(`Properties.malformed_of_ofBlock`). The table has all properties of the block in order, and each is
found under every casing of its name, since no other has that name (`Properties.finds`,
`Properties.lookup_lossless`).
-/

set_option autoImplicit false

namespace PeerLink.Properties

open Letters (Alike)

variable {ps : Properties} {data : Bytes} {name : String}

/-! ## Names in any case -/

theorem apart_iff {p q : Property} : Apart p q ↔ ¬ Alike p.name q.name :=
  Letters.sameIgnoringCase_eq_false_iff

/-- What a table answers about names. -/
structure Finds (ps : Properties) : Prop where
  /-- Each property is found under every casing of its name, -/
  value : ∀ p ∈ ps.entries, ∀ name, Alike p.name name →
    ps.get? name = some p.value ∧ ps.contains name = true
  /-- and it is the only one that has the name. -/
  unique : ∀ front p back, ps.entries = front ++ p :: back → ∀ name, Alike p.name name →
    ∀ q ∈ front ++ back, ¬ Alike q.name name
  /-- No other name is found. -/
  missing : ∀ name, (∀ p ∈ ps.entries, ¬ Alike p.name name) →
    ps.get? name = none ∧ ps.contains name = false

/-- A name that no property has is not found. -/
theorem get?_eq_none (h : ∀ p ∈ ps.entries, ¬ Alike p.name name) : ps.get? name = none := by
  cases hget : ps.get? name with
  | none => rfl
  | some value =>
    obtain ⟨p, hp, hname, -⟩ := get?_eq_some_iff.1 hget
    exact absurd (Letters.sameIgnoringCase_iff.1 hname) (h p hp)

/-- The names before and behind a property are others. -/
theorem not_alike_of_entries_eq {front back : List Property} {p q : Property}
    (hentries : ps.entries = front ++ p :: back) (hname : Alike p.name name)
    (hq : q ∈ front ++ back) : ¬ Alike q.name name := by
  intro hsame
  rw [← Letters.sameIgnoringCase_iff] at hname hsame
  have hdistinct : (front ++ p :: back).Pairwise Apart := hentries ▸ ps.distinct
  rw [List.pairwise_middle fun hpq => (Letters.sameIgnoringCase_comm _ _).trans hpq] at hdistinct
  have hapart := (List.pairwise_cons.1 hdistinct).1 q hq
  rw [Letters.sameIgnoringCase_comm] at hsame
  cases (Letters.sameIgnoringCase_trans hname hsame).symm.trans hapart

/-- Every table finds what it has, and nothing else. -/
theorem finds (ps : Properties) : Finds ps := by
  refine ⟨fun p hp name hname => ?_, fun front p back hentries name hname q hq => ?_,
    fun name hmissing => ?_⟩
  · have hget := get?_of_mem hp (Letters.sameIgnoringCase_iff.2 hname)
    rw [contains, hget]
    exact ⟨rfl, rfl⟩
  · exact not_alike_of_entries_eq hentries hname hq
  · rw [contains, get?_eq_none hmissing]
    exact ⟨rfl, rfl⟩

/-! ## Tables of blocks -/

/-- A list with a pair that is not related has a first member with such a partner before it. -/
theorem exists_first_unrelated {α : Type} {r : α → α → Prop} {xs : List α} (h : ¬ xs.Pairwise r) :
    ∃ front x back, xs = front ++ x :: back ∧ front.Pairwise r ∧ ∃ y ∈ front, ¬ r y x := by
  -- by the last member: the first such member is before it, or it is that member
  induction xs using List.reverseRecOn with
  | nil => exact absurd .nil h
  | append_singleton xs x ih =>
    by_cases hxs : xs.Pairwise r
    · refine ⟨xs, x, [], rfl, hxs, ?_⟩
      by_contra hnone
      refine h (List.pairwise_append.2 ⟨hxs, List.pairwise_singleton _ _, fun y hy z hz => ?_⟩)
      rw [List.mem_singleton.1 hz]
      exact by_contra fun hr => hnone ⟨y, hy, hr⟩
    · obtain ⟨front, y, back, rfl, hfront, hpartner⟩ := ih hxs
      exact ⟨front, y, back ++ [x], by simp, hfront, hpartner⟩

/-- Properties are taken up to the first whose name is taken, and that one is refused. -/
theorem pushAll_of_taken {front back : List Property} {p : Property}
    (hfront : (ps.entries ++ front).Pairwise Apart)
    (htaken : ¬ ∀ q ∈ ps.entries ++ front, Apart q p) :
    ps.pushAll (front ++ p :: back) = .error (.malformed (.duplicateProperty p.name)) := by
  -- the table grows by what stands in front, so the two together stay the same
  induction front generalizing ps with
  | nil =>
    rw [List.append_nil] at htaken
    rw [List.nil_append, pushAll, push_of_not_apart htaken]
  | cons q front ih =>
    have hq : ∀ r ∈ ps.entries, Apart r q := fun r hr =>
      (List.pairwise_append.1 hfront).2.2 r hr q List.mem_cons_self
    obtain ⟨longer, hpush, hentries⟩ := push_eq_ok hq
    rw [List.append_cons, ← hentries] at hfront htaken
    rw [List.cons_append, pushAll, hpush]
    exact ih hfront htaken

/-- Why a block is malformed: it does not read, or a name is alike to one before it. The first such
name is reported. -/
inductive Malformed (data : Bytes) : MalformedFault → Prop
  | unreadable : (∀ entries, Metadata.parseBlock data ≠ .ok entries) → Malformed data .metadata
  | repeated {front back : List Property} {p : Property} :
      Metadata.parseBlock data = .ok (front ++ p :: back) →
      (front.Pairwise fun q r => ¬ Alike q.name r.name) → (∃ q ∈ front, Alike q.name p.name) →
      Malformed data (.duplicateProperty p.name)

theorem malformed_of_ofBlock {fault : Fault} (h : ofBlock data = .error fault) :
    ∃ cause, fault = .malformed cause ∧ Malformed data cause := by
  rw [ofBlock] at h
  cases hparse : Metadata.parseBlock data with
  | error refusal =>
    rw [hparse] at h
    cases h
    refine ⟨.metadata, Metadata.parseBlock_eq_error hparse, .unreadable fun entries hread => ?_⟩
    cases hread.symm.trans hparse
  | ok entries =>
    rw [hparse] at h
    dsimp only at h
    by_cases hapart : entries.Pairwise Apart
    · obtain ⟨table, hall, -⟩ := @pushAll_eq_ok .empty entries hapart
      cases hall.symm.trans h
    · obtain ⟨front, p, back, rfl, hfront, q, hq, hsame⟩ := exists_first_unrelated hapart
      have hall := @pushAll_of_taken .empty front back p hfront fun hfree => hsame (hfree q hq)
      rw [apart_iff, not_not] at hsame
      refine ⟨_, Except.error.inj (h.symm.trans hall), .repeated hparse ?_ ⟨q, hq, hsame⟩⟩
      exact hfront.imp apart_iff.1

theorem entries_of_ofBlock (h : ofBlock data = .ok ps) :
    Metadata.parseBlock data = .ok ps.entries :=
  (exists_ofBlock_iff.1 ⟨ps, h, rfl⟩).1

/-- A block becomes a table exactly if it reads and no two of its names are alike, and is malformed
otherwise. The table has the properties that the block reads as, in order, and finds each of them
under every casing of its name. -/
theorem lookup_lossless (data : Bytes) :
    ((∃ ps, ofBlock data = .ok ps) ↔ ∃ entries, Metadata.parseBlock data = .ok entries ∧
      entries.Pairwise fun p q => ¬ Alike p.name q.name) ∧
    (∀ fault, ofBlock data = .error fault →
      ∃ cause, fault = .malformed cause ∧ Malformed data cause) ∧
    ∀ ps, ofBlock data = .ok ps → Metadata.parseBlock data = .ok ps.entries ∧ Finds ps := by
  refine ⟨?_, fun fault => malformed_of_ofBlock, fun ps hps => ⟨entries_of_ofBlock hps, finds ps⟩⟩
  simp only [← apart_iff]
  constructor
  · rintro ⟨ps, hps⟩
    exact ⟨ps.entries, entries_of_ofBlock hps, ps.distinct⟩
  · rintro ⟨entries, hparse, hapart⟩
    obtain ⟨ps, hps, -⟩ := exists_ofBlock_iff.2 ⟨hparse, hapart⟩
    exact ⟨ps, hps⟩

/-- Two names that differ in the case of a letter beyond ASCII, behind one of ASCII letters. -/
def accentedBlock : Bytes :=
  [⟨"Id", [1]⟩, ⟨"\u00C9", [2]⟩, ⟨"\u00E9", [3]⟩].flatMap Property.encoded

/-- The accented names are told apart, and the other is found in capitals. Repeated in capitals it
is refused. -/
theorem lookup_lossless_accented :
    (∃ ps, ofBlock accentedBlock = .ok ps ∧ ps.get? "ID" = some [1] ∧
      ps.get? "\u00C9" = some [2] ∧ ps.get? "\u00E9" = some [3] ∧ ps.contains "E" = false) ∧
    ∃ cause, ofBlock (accentedBlock ++ Property.encoded ⟨"ID", []⟩) = .error (.malformed cause) ∧
      Malformed (accentedBlock ++ Property.encoded ⟨"ID", []⟩) cause := by
  have hparse : Metadata.parseBlock accentedBlock =
      .ok [⟨"Id", [1]⟩, ⟨"\u00C9", [2]⟩, ⟨"\u00E9", [3]⟩] :=
    Metadata.parseBlock_flatMap_encoded (by decide)
  obtain ⟨hiff, -, hok⟩ := lookup_lossless accentedBlock
  constructor
  · obtain ⟨ps, hps⟩ := hiff.2 ⟨_, hparse, by simp only [← apart_iff]; decide⟩
    obtain ⟨hread, hfinds⟩ := hok ps hps
    have hentries := Except.ok.inj (hread.symm.trans hparse)
    have hvalue : ∀ p ∈ ps.entries, ∀ name, Alike p.name name → ps.get? name = some p.value :=
      fun p hp name hname => (hfinds.value p hp name hname).1
    rw [hentries] at hvalue
    have hmissing := hfinds.missing "E"
    rw [hentries] at hmissing
    simp only [← Letters.sameIgnoringCase_iff] at hvalue hmissing
    exact ⟨ps, hps, hvalue ⟨"Id", [1]⟩ (by decide) "ID" (by decide),
      hvalue ⟨"\u00C9", [2]⟩ (by decide) _ (by decide),
      hvalue ⟨"\u00E9", [3]⟩ (by decide) _ (by decide), (hmissing (by decide)).2⟩
  · have hrefused : ofBlock (accentedBlock ++ Property.encoded ⟨"ID", []⟩) =
        .error (.malformed (.duplicateProperty "ID")) := by decide +kernel
    obtain ⟨-, hmalformed, -⟩ := lookup_lossless (accentedBlock ++ Property.encoded ⟨"ID", []⟩)
    obtain ⟨cause, hcause, hwhy⟩ := hmalformed _ hrefused
    exact ⟨cause, hcause ▸ hrefused, hwhy⟩

end PeerLink.Properties
