import PeerLink.Proofs.Metadata.Interoperation
import PeerLink.Proofs.Text.Lossy

/-!
# Accepted blocks

A block of a peer is accepted exactly when it can be read, no two of its names are the same but for
ASCII case, and it names a socket type that ours may talk to
(`Announcement.accept_eq_ok_iff`). The socket type is read leniently, but no bytes other than those
of its name are taken for it (`SocketType.lossy_eq_name_iff`).
-/

set_option autoImplicit false

namespace PeerLink

/-! ## Socket types -/

theorem SocketType.isPlain_of_mem_name (t : SocketType) : ∀ c ∈ t.name.toList, Utf8.IsPlain c := by
  have hall : t.name.toList.all (fun c => decide (Utf8.IsPlain c)) = true := by
    cases t <;> decide
  intro c hc
  exact of_decide_eq_true (List.all_eq_true.1 hall c hc)

/-- Only the bytes of its name read as a socket type. -/
theorem SocketType.lossy_eq_name_iff {t : SocketType} {value : Bytes} :
    Utf8.lossy value = t.name ↔ value = Utf8.encode t.name := by
  constructor
  · intro h
    exact Utf8.eq_encode_of_lossy h t.isPlain_of_mem_name
  · rintro rfl
    exact t.lossy_encode_name

/-- A value suits a socket type if its bytes are the name of a partner. -/
theorem SocketType.isCompatible_lossy_iff {t : SocketType} {value : Bytes} :
    t.isCompatible (Utf8.lossy value) = true ↔ ∃ p ∈ t.partners, value = Utf8.encode p.name := by
  rw [isCompatible, List.any_eq_true]
  refine exists_congr fun p => and_congr_right fun _ => ?_
  rw [beq_iff_eq, eq_comm, lossy_eq_name_iff]

/-! ## Tables -/

namespace Properties

/-- A name is found where a property has it, in any case. -/
theorem get?_eq_some_iff {ps : Properties} {name : String} {value : Bytes} :
    ps.get? name = some value ↔
      ∃ p ∈ ps.entries, Letters.sameIgnoringCase p.name name = true ∧ p.value = value := by
  constructor
  · intro h
    obtain ⟨p, hp, hvalue⟩ := Option.map_eq_some_iff.1 h
    rw [lookup] at hp
    have hsame := List.find?_some hp
    exact ⟨p, List.mem_of_find?_eq_some hp, hsame, hvalue⟩
  · rintro ⟨p, hp, hname, rfl⟩
    exact get?_of_mem hp hname

/-- A block is taken if it can be read and its names differ by more than ASCII case. -/
theorem exists_ofBlock_iff {block : Bytes} {entries : List Property} :
    (∃ peer, ofBlock block = .ok peer ∧ peer.entries = entries) ↔
      Metadata.parseBlock block = .ok entries ∧ entries.Pairwise Apart := by
  rw [ofBlock]
  cases hparse : Metadata.parseBlock block with
  | error fault => simp
  | ok read =>
    dsimp only
    constructor
    · rintro ⟨peer, hpeer, rfl⟩
      by_cases hapart : (empty.entries ++ read).Pairwise Apart
      · obtain ⟨table, hall, htable⟩ := pushAll_eq_ok hapart
        cases hall.symm.trans hpeer
        exact ⟨congrArg _ htable.symm, peer.distinct⟩
      · obtain ⟨p, -, hall⟩ := pushAll_of_not_distinct hapart
        cases hall.symm.trans hpeer
    · rintro ⟨hread, hapart⟩
      cases hread
      exact @pushAll_eq_ok .empty _ hapart

end Properties

/-! ## Announcements -/

namespace Announcement

variable {a : Announcement} {block : Bytes}

/-- What a block says of a peer that may talk to us: the block can be read, its names differ by more
than ASCII case, and it names a socket type that ours may talk to. -/
structure Suits (a : Announcement) (block : Bytes) (entries : List Property) : Prop where
  parsed : Metadata.parseBlock block = .ok entries
  apart : entries.Pairwise Properties.Apart
  partner : ∃ p ∈ entries, Letters.sameIgnoringCase p.name Property.socketType = true ∧
    ∃ t ∈ a.socketType.partners, p.value = Utf8.encode t.name

/-- A table is accepted if the value of its socket type is the name of a partner of ours. -/
theorem accept_of_ofBlock {peer : Properties} (h : Properties.ofBlock block = .ok peer) :
    a.accept block = .ok peer ↔
      ∃ p ∈ peer.entries, Letters.sameIgnoringCase p.name Property.socketType = true ∧
        ∃ t ∈ a.socketType.partners, p.value = Utf8.encode t.name := by
  rw [accept, h]
  dsimp only
  cases hvalue : peer.get? Property.socketType with
  | none =>
    -- no property has the name
    simp only [reduceCtorEq, false_iff, not_exists, not_and]
    intro p hp hname
    cases hvalue.symm.trans (Properties.get?_of_mem hp hname)
  | some value =>
    obtain ⟨p, hp, hname, rfl⟩ := Properties.get?_eq_some_iff.1 hvalue
    dsimp only
    constructor
    · intro hpeer
      split at hpeer
      · next hcompatible => exact ⟨p, hp, hname, SocketType.isCompatible_lossy_iff.1 hcompatible⟩
      · cases hpeer
    · rintro ⟨q, hq, hsame, hsuited⟩
      -- both are the property that the name finds
      have heq := hvalue.symm.trans (Properties.get?_of_mem hq hsame)
      rw [← Option.some.inj heq] at hsuited
      exact if_pos (SocketType.isCompatible_lossy_iff.2 hsuited)

/-- A block is accepted exactly when it suits, and its properties are then known in order. -/
theorem accept_eq_ok_iff {entries : List Property} :
    (∃ peer, a.accept block = .ok peer ∧ peer.entries = entries) ↔ a.Suits block entries := by
  constructor
  · rintro ⟨peer, hpeer, rfl⟩
    cases hblock : Properties.ofBlock block with
    | error fault =>
      rw [accept, hblock] at hpeer
      cases hpeer
    | ok table =>
      have htable : table = peer := by
        rw [accept, hblock] at hpeer
        dsimp only at hpeer
        split at hpeer
        · cases hpeer
        · split at hpeer
          · exact Except.ok.inj hpeer
          · cases hpeer
      subst htable
      obtain ⟨hparse, hapart⟩ := Properties.exists_ofBlock_iff.1 ⟨table, hblock, rfl⟩
      exact ⟨hparse, hapart, (accept_of_ofBlock hblock).1 hpeer⟩
  · rintro ⟨hparse, hapart, hpartner⟩
    obtain ⟨peer, hblock, rfl⟩ := Properties.exists_ofBlock_iff.2 ⟨hparse, hapart⟩
    exact ⟨peer, (accept_of_ofBlock hblock).2 hpartner, rfl⟩

theorem suits_of_accept {peer : Properties} (h : a.accept block = .ok peer) :
    a.Suits block peer.entries :=
  accept_eq_ok_iff.1 ⟨peer, h, rfl⟩

end Announcement

/-! ## Options -/

namespace SecurityOptions

/-- The command with this name that announces these options. -/
def announced (options : SecurityOptions) (name : Bytes) : Frame :=
  (Announcement.ofOptions options).written name

/-- Whether a frame is a READY whose block suits these options. -/
def AcceptsReady (options : SecurityOptions) (f : Frame) : Prop :=
  ∃ block entries, f.data = Command.ready ++ block ∧
    (Announcement.ofOptions options).Suits block entries

/-- Whether every announced property fits its length fields. -/
def Announceable (options : SecurityOptions) : Prop :=
  ∀ p ∈ (Announcement.ofOptions options).properties, p.Fits

theorem acceptsReady_iff {options : SecurityOptions} {f : Frame} : options.AcceptsReady f ↔
    ∃ block peer, f.data = Command.ready ++ block ∧
      (Announcement.ofOptions options).accept block = .ok peer := by
  constructor
  · rintro ⟨block, entries, hdata, hsuits⟩
    obtain ⟨peer, haccept, -⟩ := Announcement.accept_eq_ok_iff.2 hsuits
    exact ⟨block, peer, hdata, haccept⟩
  · rintro ⟨block, peer, hdata, haccept⟩
    exact ⟨block, peer.entries, hdata, Announcement.suits_of_accept haccept⟩

end SecurityOptions

end PeerLink
