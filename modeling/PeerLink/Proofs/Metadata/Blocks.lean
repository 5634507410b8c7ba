import PeerLink.Mechanism.Announcement

/-!
# Written blocks read back

Properties can be written exactly when each fits its length fields, and the block is then their
encodings one after the other (`Metadata.appendAll_eq_ok_iff`). Reading that block gives the
properties back (`Metadata.parseBlock_flatMap_encoded`), and a table takes them exactly when their
names differ by more than ASCII case (`Properties.pushAll_eq_ok`,
`Properties.pushAll_of_not_distinct`). The refusals of writing and of reading are listed as well
(`Announcement.exists_of_command_eq_error`, `Properties.exists_of_ofBlock_eq_error`).
-/

set_option autoImplicit false

namespace PeerLink

/-! ## Writing -/

/-- Whether a property fits its length fields. -/
def Property.Fits (p : Property) : Prop :=
  p.name.utf8ByteSize ≤ 255 ∧ p.value.length < Bytes.wordLimit

instance (p : Property) : Decidable p.Fits := inferInstanceAs (Decidable (_ ∧ _))

theorem Property.encode_of_fits {p : Property} (h : p.Fits) : p.encode = .ok p.encoded := by
  rw [encode, if_neg (Nat.not_lt.2 h.1), if_neg (Nat.not_le.2 h.2)]

theorem Property.fits_of_encode {p : Property} {out : Bytes} (h : p.encode = .ok out) :
    p.Fits ∧ out = p.encoded := by
  rw [encode] at h
  split at h
  · cases h
  · next hname =>
    split at h
    · cases h
    · next hvalue =>
      exact ⟨⟨Nat.le_of_not_lt hname, Nat.lt_of_not_le hvalue⟩, (Except.ok.inj h).symm⟩

/-- A property that is not written has a name or a value that is too long. -/
theorem Property.encode_eq_error {p : Property} {fault : Fault} (h : p.encode = .error fault) :
    (255 < p.name.utf8ByteSize ∧
      fault = .malformed (.longPropertyName p.name.utf8ByteSize)) ∨
    (Bytes.wordLimit ≤ p.value.length ∧
      fault = .malformed (.longPropertyValue p.value.length)) := by
  rw [encode] at h
  split at h
  · next hname => exact .inl ⟨hname, (Except.error.inj h).symm⟩
  · split at h
    · next hvalue => exact .inr ⟨hvalue, (Except.error.inj h).symm⟩
    · cases h

namespace Metadata

theorem appendAll_cons (buffer : Bytes) (p : Property) (ps : List Property) :
    appendAll buffer (p :: ps) = match p.encode with
      | .error fault => .error fault
      | .ok written => appendAll (buffer ++ written) ps := by
  rw [appendAll, append]
  cases p.encode <;> rfl

theorem appendAll_of_fits {buffer : Bytes} {ps : List Property} (h : ∀ p ∈ ps, p.Fits) :
    appendAll buffer ps = .ok (buffer ++ ps.flatMap Property.encoded) := by
  induction ps generalizing buffer with
  | nil => simp [appendAll]
  | cons p ps ih =>
    obtain ⟨hp, hps⟩ := List.forall_mem_cons.1 h
    rw [appendAll_cons, Property.encode_of_fits hp]
    dsimp only
    rw [ih hps, List.flatMap_cons, List.append_assoc]

theorem fits_of_appendAll {buffer out : Bytes} {ps : List Property}
    (h : appendAll buffer ps = .ok out) : ∀ p ∈ ps, p.Fits := by
  induction ps generalizing buffer with
  | nil => simp
  | cons p ps ih =>
    rw [appendAll_cons] at h
    cases hp : p.encode with
    | error fault =>
      rw [hp] at h
      cases h
    | ok written =>
      rw [hp] at h
      intro q hq
      rcases List.mem_cons.1 hq with rfl | hq
      · exact (Property.fits_of_encode hp).1
      · exact ih h q hq

/-- Properties that fit are written one after the other, and no others are written. -/
theorem appendAll_eq_ok_iff {buffer out : Bytes} {ps : List Property} :
    appendAll buffer ps = .ok out ↔
      (∀ p ∈ ps, p.Fits) ∧ out = buffer ++ ps.flatMap Property.encoded := by
  constructor
  · intro h
    have hfits := fits_of_appendAll h
    rw [appendAll_of_fits hfits] at h
    exact ⟨hfits, (Except.ok.inj h).symm⟩
  · rintro ⟨hfits, rfl⟩
    exact appendAll_of_fits hfits

/-- Writing fails with the refusal of a property. -/
theorem exists_of_appendAll_eq_error {buffer : Bytes} {ps : List Property} {fault : Fault}
    (h : appendAll buffer ps = .error fault) : ∃ p ∈ ps, p.encode = .error fault := by
  induction ps generalizing buffer with
  | nil => cases h
  | cons p ps ih =>
    rw [appendAll_cons] at h
    cases hp : p.encode with
    | error refusal =>
      rw [hp] at h
      cases h
      exact ⟨p, List.mem_cons_self, hp⟩
    | ok written =>
      rw [hp] at h
      obtain ⟨q, hq, hrefused⟩ := ih h
      exact ⟨q, List.mem_cons_of_mem _ hq, hrefused⟩

/-! ## Reading -/

theorem parseBlock_of_readProperty? {data rest : Bytes} {p : Property}
    (h : readProperty? data = some (p, rest)) :
    parseBlock data = (parseBlock rest).map (p :: ·) := by
  cases data with
  | nil => cases h
  | cons first others =>
    rw [parseBlock]
    split
    · next hnone => cases hnone.symm.trans h
    · next p' rest' hsome =>
      obtain ⟨rfl, rfl⟩ := Prod.mk.inj (Option.some.inj (hsome.symm.trans h))
      rfl

/-- Properties that fit read back from their block. -/
theorem parseBlock_flatMap_encoded {ps : List Property} (h : ∀ p ∈ ps, p.Fits) :
    parseBlock (ps.flatMap Property.encoded) = .ok ps := by
  induction ps with
  | nil => rw [List.flatMap_nil, parseBlock]
  | cons p ps ih =>
    obtain ⟨⟨hname, hvalue⟩, hps⟩ := List.forall_mem_cons.1 h
    -- the block begins with this property, and reading goes on after it
    rw [List.flatMap_cons, parseBlock_of_readProperty? (readProperty?_encoded p _ hname hvalue),
      ih hps]
    rfl

/-- A block that cannot be read is malformed. -/
theorem parseBlock_eq_error {data : Bytes} {fault : Fault} (h : parseBlock data = .error fault) :
    fault = .malformed .metadata := by
  induction data using parseBlock.induct with
  | case1 =>
    rw [parseBlock] at h
    cases h
  | case2 first others hread =>
    rw [parseBlock] at h
    split at h
    · exact (Except.error.inj h).symm
    · next hsome => cases hread.symm.trans hsome
  | case3 first others p rest hread hshorter ih =>
    rw [parseBlock_of_readProperty? hread] at h
    cases hrest : parseBlock rest with
    | error refusal =>
      rw [hrest] at h
      cases h
      exact ih hrest
    | ok ps =>
      rw [hrest] at h
      cases h

end Metadata

/-! ## Tables -/

namespace Properties

/-- The names of two properties differ by more than ASCII case. -/
abbrev Apart (p q : Property) : Prop := Letters.sameIgnoringCase p.name q.name = false

theorem push_eq_ok {ps : Properties} {p : Property} (h : ∀ q ∈ ps.entries, Apart q p) :
    ∃ longer, ps.push p = .ok longer ∧ longer.entries = ps.entries ++ [p] := by
  have hlookup : lookup ps.entries p.name = none := by
    rw [lookup, List.find?_eq_none]
    exact fun q hq => ne_true_of_eq_false (h q hq)
  exact ⟨_, dif_pos hlookup, rfl⟩

theorem push_of_not_apart {ps : Properties} {p : Property} (h : ¬ ∀ q ∈ ps.entries, Apart q p) :
    ps.push p = .error (.malformed (.duplicateProperty p.name)) := by
  refine dif_neg fun hlookup => h fun q hq => ?_
  rw [lookup, List.find?_eq_none] at hlookup
  exact eq_false_of_ne_true (hlookup q hq)

/-- Properties whose names differ are all taken, in order. -/
theorem pushAll_eq_ok {ps : Properties} {more : List Property}
    (h : (ps.entries ++ more).Pairwise Apart) :
    ∃ longer, ps.pushAll more = .ok longer ∧ longer.entries = ps.entries ++ more := by
  induction more generalizing ps with
  | nil => exact ⟨ps, rfl, (List.append_nil _).symm⟩
  | cons p more ih =>
    have hp : ∀ q ∈ ps.entries, Apart q p := fun q hq =>
      (List.pairwise_append.1 h).2.2 q hq p List.mem_cons_self
    obtain ⟨longer, hpush, hentries⟩ := push_eq_ok hp
    rw [List.append_cons, ← hentries] at h ⊢
    obtain ⟨table, hall, htable⟩ := ih h
    exact ⟨table, by rw [pushAll, hpush]; exact hall, htable⟩

/-- The first property whose name is taken is refused. -/
theorem pushAll_of_not_distinct {ps : Properties} {more : List Property}
    (h : ¬ (ps.entries ++ more).Pairwise Apart) :
    ∃ p ∈ more, ps.pushAll more = .error (.malformed (.duplicateProperty p.name)) := by
  induction more generalizing ps with
  | nil => exact absurd ((List.append_nil _).symm ▸ ps.distinct) h
  | cons p more ih =>
    by_cases hp : ∀ q ∈ ps.entries, Apart q p
    · -- the name is free, so a later one is taken
      obtain ⟨longer, hpush, hentries⟩ := push_eq_ok hp
      rw [List.append_cons, ← hentries] at h
      obtain ⟨q, hq, hall⟩ := ih h
      exact ⟨q, List.mem_cons_of_mem _ hq, by rw [pushAll, hpush]; exact hall⟩
    · exact ⟨p, List.mem_cons_self, by rw [pushAll, push_of_not_apart hp]⟩

/-- A name in any case finds the property that has it. -/
theorem get?_of_mem {ps : Properties} {p : Property} {name : String} (hp : p ∈ ps.entries)
    (hname : Letters.sameIgnoringCase p.name name = true) : ps.get? name = some p.value := by
  obtain ⟨front, back, hentries⟩ := List.append_of_mem hp
  have hdistinct : (front ++ p :: back).Pairwise Apart := hentries ▸ ps.distinct
  have hfront : front.find? (fun q => Letters.sameIgnoringCase q.name name) = none := by
    refine List.find?_eq_none.2 fun q hq hsame => ?_
    -- the names before it are others
    have hapart := (List.pairwise_append.1 hdistinct).2.2 q hq p List.mem_cons_self
    rw [Letters.sameIgnoringCase_comm] at hname
    cases (Letters.sameIgnoringCase_trans hsame hname).symm.trans hapart
  rw [get?, lookup, hentries, List.find?_append, hfront, Option.none_or, List.find?_cons, hname]
  rfl

/-- A block is refused as malformed, or because a name repeats. -/
theorem exists_of_ofBlock_eq_error {data : Bytes} {fault : Fault}
    (h : ofBlock data = .error fault) : ∃ cause, fault = .malformed cause := by
  rw [ofBlock] at h
  cases hparse : Metadata.parseBlock data with
  | error refusal =>
    rw [hparse] at h
    cases h
    exact ⟨_, Metadata.parseBlock_eq_error hparse⟩
  | ok entries =>
    rw [hparse] at h
    dsimp only at h
    by_cases hapart : (empty.entries ++ entries).Pairwise Apart
    · obtain ⟨table, hall, -⟩ := pushAll_eq_ok hapart
      cases hall.symm.trans h
    · obtain ⟨p, -, hall⟩ := pushAll_of_not_distinct hapart
      exact ⟨_, Except.error.inj (h.symm.trans hall)⟩

end Properties

/-! ## Announcements -/

/-- A frame with the name READY passes the check of commands. -/
theorem Command.checkStructure_of_ready {f : Frame} {block : Bytes}
    (hdata : f.data = Command.ready ++ block) : Command.checkStructure f = .ok () :=
  Command.checkStructure_of_name hdata (by decide)

namespace Announcement

variable {a : Announcement} {name : Bytes} {f : Frame}

/-- A command that announces is its name and the written properties. -/
theorem command_eq_ok_iff : a.command name = .ok f ↔
    (∀ p ∈ a.properties, p.Fits) ∧
      f = .ofCommand (name ++ a.properties.flatMap Property.encoded) := by
  rw [command, appendTo]
  constructor
  · intro h
    cases hout : Metadata.appendAll name a.properties with
    | error fault =>
      rw [hout] at h
      cases h
    | ok out =>
      rw [hout] at h
      obtain ⟨hfits, rfl⟩ := Metadata.appendAll_eq_ok_iff.1 hout
      exact ⟨hfits, (Except.ok.inj h).symm⟩
  · rintro ⟨hfits, rfl⟩
    rw [Metadata.appendAll_of_fits hfits]
    rfl

/-- An announcement that cannot be written has a property that is too long. -/
theorem exists_of_command_eq_error {fault : Fault} (h : a.command name = .error fault) :
    ∃ p ∈ a.properties, p.encode = .error fault := by
  rw [command, appendTo] at h
  cases hout : Metadata.appendAll name a.properties with
  | error refusal =>
    rw [hout] at h
    cases h
    exact Metadata.exists_of_appendAll_eq_error hout
  | ok out =>
    rw [hout] at h
    cases h

/-- The command with a name that carries the announced properties as they are written. -/
def written (a : Announcement) (name : Bytes) : Frame :=
  .ofCommand (name ++ a.properties.flatMap Property.encoded)

/-- Only the application metadata can bring a long name into an announcement. -/
theorem exists_entry_of_long_name {p : Property} (hp : p ∈ a.properties)
    (hlong : 255 < p.name.utf8ByteSize) :
    ∃ entry ∈ a.metadata.entries, p = ⟨entry.1, Utf8.encode entry.2⟩ := by
  rcases List.mem_cons.1 hp with rfl | hp
  · exact absurd hlong (by decide : ¬ 255 < Property.socketType.utf8ByteSize)
  rcases List.mem_append.1 hp with hp | hp
  · rw [List.mem_ite_nil_right] at hp
    rw [List.mem_singleton.1 hp.2] at hlong
    exact absurd hlong (by decide : ¬ 255 < Property.identity.utf8ByteSize)
  · obtain ⟨entry, hentry, rfl⟩ := List.mem_map.1 hp
    exact ⟨entry, hentry, rfl⟩

/-- The names of an announcement fit if those of the application metadata do. -/
theorem names_of_metadata (h : ∀ entry ∈ a.metadata.entries, entry.1.utf8ByteSize ≤ 255) :
    ∀ p ∈ a.properties, p.name.utf8ByteSize ≤ 255 := by
  intro p hp
  refine Nat.le_of_not_lt fun hlong => ?_
  obtain ⟨entry, hentry, rfl⟩ := exists_entry_of_long_name hp hlong
  exact Nat.not_lt.2 (h entry hentry) hlong

/-- The values of an announcement fit if the routing id and those of the application metadata do. -/
theorem values_of_metadata (hid : a.routingId.length < Bytes.wordLimit)
    (h : ∀ entry ∈ a.metadata.entries, entry.2.utf8ByteSize < Bytes.wordLimit) :
    ∀ p ∈ a.properties, p.value.length < Bytes.wordLimit := by
  intro p hp
  rcases List.mem_cons.1 hp with rfl | hp
  · dsimp only
    cases a.socketType <;> decide
  rcases List.mem_append.1 hp with hp | hp
  · rw [List.mem_ite_nil_right] at hp
    rw [List.mem_singleton.1 hp.2]
    exact hid
  · obtain ⟨entry, hentry, rfl⟩ := List.mem_map.1 hp
    dsimp only
    rw [Utf8.length_encode]
    exact h entry hentry

/-- An announcement whose names fit is written, unless a value is too long for its length field. -/
theorem command_of_names (hnames : ∀ p ∈ a.properties, p.name.utf8ByteSize ≤ 255) :
    ((∀ p ∈ a.properties, p.value.length < Bytes.wordLimit) →
      a.command name = .ok (a.written name)) ∧
    ((¬ ∀ p ∈ a.properties, p.value.length < Bytes.wordLimit) → ∃ p ∈ a.properties,
      Bytes.wordLimit ≤ p.value.length ∧
        a.command name = .error (.malformed (.longPropertyValue p.value.length))) := by
  constructor
  · intro hvalues
    exact command_eq_ok_iff.2 ⟨fun p hp => ⟨hnames p hp, hvalues p hp⟩, rfl⟩
  · intro hlong
    cases hcmd : a.command name with
    | ok f => exact absurd (fun p hp => ((command_eq_ok_iff.1 hcmd).1 p hp).2) hlong
    | error fault =>
      -- the refusal is that of a property, and not of its name
      obtain ⟨p, hp, hrefused⟩ := exists_of_command_eq_error hcmd
      rcases Property.encode_eq_error hrefused with ⟨hname, -⟩ | ⟨hvalue, rfl⟩
      · exact absurd (hnames p hp) (Nat.not_le.2 hname)
      · exact ⟨p, hp, hvalue, rfl⟩

/-- A block of properties whose names differ is taken if it names a socket type that suits ours. -/
theorem accept_of_parseBlock {block : Bytes} {entries : List Property} {p : Property}
    (hparse : Metadata.parseBlock block = .ok entries) (hapart : entries.Pairwise Properties.Apart)
    (hp : p ∈ entries) (hname : Letters.sameIgnoringCase p.name Property.socketType = true)
    (hcompatible : a.socketType.isCompatible (Utf8.lossy p.value) = true) :
    ∃ peer, a.accept block = .ok peer ∧ peer.entries = entries := by
  obtain ⟨peer, hpeer, hentries⟩ := @Properties.pushAll_eq_ok .empty entries hapart
  have hblock : Properties.ofBlock block = .ok peer := by
    rw [Properties.ofBlock, hparse]
    exact hpeer
  have hmem : p ∈ peer.entries := by
    rw [hentries]
    exact hp
  refine ⟨peer, ?_, hentries⟩
  rw [accept, hblock]
  dsimp only
  rw [Properties.get?_of_mem hmem hname]
  exact if_pos hcompatible

end Announcement

end PeerLink
