import PeerLink.Config.Validation
import PeerLink.Proofs.Metadata.Blocks

/-!
# Validated configurations and their announcements

What a validated configuration announces can be written. A compatible peer takes the announcement
exactly when no two names of the application metadata differ in ASCII case only: the check of a
configuration compares names as they stand, a property table compares them without case
(`SecurityOptions.Validated.apart_iff`, `Announcement.accept_eq`).
-/

set_option autoImplicit false

namespace PeerLink

/-! ## What validation says -/

theorem metadataProblems_eq_nil_iff {name : String} :
    metadataProblems name = [] ↔ hasApplicationMark name = true ∧ name.utf8ByteSize ≤ 255 := by
  rw [metadataProblems]
  cases hasApplicationMark name with
  | false => simp
  | true => simp [problemIf]

/-- A configuration with no problem, or only with the warning that traffic is not protected. -/
def SecurityOptions.Validated (s : SecurityOptions) : Prop :=
  ∀ problem ∈ s.problems, problem = .plaintextWarning

namespace SecurityOptions

variable {s : SecurityOptions}

/-- Every name of validated metadata carries the mark and fits a property. -/
theorem Validated.metadata (h : s.Validated) {entry : String × String}
    (hentry : entry ∈ s.metadata.entries) :
    hasApplicationMark entry.1 = true ∧ entry.1.utf8ByteSize ≤ 255 := by
  -- the warning is not about names
  have hnames : ∀ problem ∈ metadataProblems entry.1, problem = .plaintextWarning := by
    intro problem hproblem
    apply h
    exact List.mem_append_left _ (List.mem_append_left _
      (List.mem_flatMap.2 ⟨entry, hentry, hproblem⟩))
  rw [← metadataProblems_eq_nil_iff]
  rw [metadataProblems, problemIf] at hnames ⊢
  split
  · next hmark => simp [hmark] at hnames
  · next hmark =>
    split
    · next hlen => simp [hmark, hlen] at hnames
    · rfl

/-- A validated routing id fits a property. -/
theorem Validated.routingId (h : s.Validated) {id : String} (hid : s.routingId = some id) :
    id.utf8ByteSize ≤ 255 := by
  have hproblems : ∀ problem ∈ routingIdProblems s.routingId, problem = .plaintextWarning := by
    intro problem hproblem
    apply h
    exact List.mem_append_left _ (List.mem_append_right _ hproblem)
  rw [hid] at hproblems
  by_cases hlen : 255 < id.utf8ByteSize
  · simp [routingIdProblems, problemIf, hlen] at hproblems
  · exact Nat.le_of_not_lt hlen

end SecurityOptions

/-! ## What is announced -/

section Announced

variable {a b : SecurityOptions}

/-- Whether the names of application metadata differ by more than ASCII case. -/
def Attributes.Distinct (as : Attributes) : Prop :=
  as.entries.Pairwise fun d e => Letters.sameIgnoringCase d.1 e.1 = false

instance (as : Attributes) : Decidable as.Distinct :=
  inferInstanceAs (Decidable (as.entries.Pairwise _))

theorem Announcement.ofOptions_routingId (a : SecurityOptions) :
    (Announcement.ofOptions a).routingId = Utf8.encode (a.routingId.getD "") := by
  rw [ofOptions]
  cases a.routingId <;> rfl

/-- The announcement of validated options can be written. -/
theorem SecurityOptions.Validated.fits (h : a.Validated)
    (hvalues : ∀ entry ∈ a.metadata.entries, entry.2.utf8ByteSize < Bytes.wordLimit) :
    ∀ p ∈ (Announcement.ofOptions a).properties, p.Fits := by
  have hid : (Announcement.ofOptions a).routingId.length < Bytes.wordLimit := by
    rw [Announcement.ofOptions_routingId, Utf8.length_encode]
    cases hid : a.routingId with
    | none => decide
    | some id =>
      -- a routing id fits a short field, so it fits a long one
      exact Nat.lt_of_le_of_lt (h.routingId hid) (by decide)
  intro p hp
  exact ⟨Announcement.names_of_metadata (fun entry hentry => (h.metadata hentry).2) p hp,
    Announcement.values_of_metadata hid hvalues p hp⟩

/-- A marked name begins alike in every case. -/
theorem folded_of_mark {name : String} (h : hasApplicationMark name = true) :
    ∃ rest, Letters.folded name = 'x' :: '-' :: rest := by
  rw [hasApplicationMark, List.isPrefixOf_iff_prefix] at h
  obtain ⟨rest, hrest⟩ := h
  refine ⟨rest.map Char.toLower, ?_⟩
  rw [Letters.folded, ← hrest]
  rfl

theorem socketType_apart {name : String} (h : hasApplicationMark name = true) :
    Letters.sameIgnoringCase Property.socketType name = false := by
  obtain ⟨rest, hrest⟩ := folded_of_mark h
  rw [Letters.sameIgnoringCase, hrest]
  rfl

theorem identity_apart {name : String} (h : hasApplicationMark name = true) :
    Letters.sameIgnoringCase Property.identity name = false := by
  obtain ⟨rest, hrest⟩ := folded_of_mark h
  rw [Letters.sameIgnoringCase, hrest]
  rfl

/-- Only names of application metadata can clash in an announcement. -/
theorem SecurityOptions.Validated.apart_iff (h : a.Validated) :
    (Announcement.ofOptions a).properties.Pairwise Properties.Apart ↔ a.metadata.Distinct := by
  have hmetadata : (a.metadata.entries.map fun entry =>
      (⟨entry.1, Utf8.encode entry.2⟩ : Property)).Pairwise Properties.Apart ↔
        a.metadata.Distinct := by
    rw [List.pairwise_map]
    rfl
  constructor
  · -- the metadata is the end of the announcement
    intro hall
    have htail := (List.pairwise_cons.1 hall).2
    exact hmetadata.1 (List.pairwise_append.1 htail).2.1
  · intro hdistinct
    refine List.pairwise_cons.2 ⟨?_, List.pairwise_append.2 ⟨?_, hmetadata.2 hdistinct, ?_⟩⟩
    · -- the socket type and what follows it
      intro p hp
      rcases List.mem_append.1 hp with hp | hp
      · rw [List.mem_ite_nil_right] at hp
        rw [List.mem_singleton.1 hp.2]
        show Letters.sameIgnoringCase Property.socketType Property.identity = false
        decide
      · obtain ⟨entry, hentry, rfl⟩ := List.mem_map.1 hp
        exact socketType_apart (h.metadata hentry).1
    · -- the identity alone
      split
      · exact List.pairwise_singleton _ _
      · exact .nil
    · -- the identity and the metadata
      intro p hp q hq
      rw [List.mem_ite_nil_right] at hp
      rw [List.mem_singleton.1 hp.2]
      obtain ⟨entry, hentry, rfl⟩ := List.mem_map.1 hq
      exact identity_apart (h.metadata hentry).1

/-- The name of a socket type survives the lossy reading. -/
theorem SocketType.lossy_encode_name (t : SocketType) : Utf8.lossy (Utf8.encode t.name) = t.name := by
  cases t <;> decide

/-- A peer that may talk to this socket type takes what its socket announces, unless two names of
the announcement differ in ASCII case at most. -/
theorem Announcement.accept_eq {own : Announcement}
    (hcompatible : b.socketType.isCompatible own.socketType.name = true)
    (hfits : ∀ p ∈ own.properties, p.Fits) :
    (own.properties.Pairwise Properties.Apart → ∃ peer,
      (Announcement.ofOptions b).accept (own.properties.flatMap Property.encoded) = .ok peer ∧
        peer.entries = own.properties) ∧
    (¬ own.properties.Pairwise Properties.Apart → ∃ p ∈ own.properties,
      (Announcement.ofOptions b).accept (own.properties.flatMap Property.encoded) =
        .error (.malformed (.duplicateProperty p.name))) := by
  constructor
  · -- the block reads back, and the socket type comes first
    intro hapart
    have hlossy := SocketType.lossy_encode_name own.socketType
    exact accept_of_parseBlock (Metadata.parseBlock_flatMap_encoded hfits) hapart
      List.mem_cons_self (Letters.sameIgnoringCase_refl _) (hlossy.symm ▸ hcompatible)
  · -- the table refuses a property, and so does the peer
    intro hclash
    obtain ⟨p, hp, hpeer⟩ := @Properties.pushAll_of_not_distinct .empty own.properties hclash
    have hblock : Properties.ofBlock (own.properties.flatMap Property.encoded) =
        Properties.empty.pushAll own.properties := by
      rw [Properties.ofBlock, Metadata.parseBlock_flatMap_encoded hfits]
    exact ⟨p, hp, by rw [accept, hblock, hpeer]⟩

/-- A validated configuration can be announced to every compatible peer. The peer learns the
socket type, the routing id where it is sent and the application metadata in name order, unless
two names of the metadata differ in ASCII case only: then the peer refuses the announcement. -/
theorem interoperate (ha : a.Validated)
    (hcompatible : b.socketType.isCompatible a.socketType.name = true)
    (hvalues : ∀ entry ∈ a.metadata.entries, entry.2.utf8ByteSize < Bytes.wordLimit) :
    ∃ block, (Announcement.ofOptions a).command Command.ready =
        .ok (.ofCommand (Command.ready ++ block)) ∧
      (a.metadata.Distinct →
        ∃ peer, (Announcement.ofOptions b).accept block = .ok peer ∧
          peer.entries = ⟨"Socket-Type", Utf8.encode a.socketType.name⟩ ::
            ((if a.socketType.sendsIdentity then
                [⟨"Identity", Utf8.encode (a.routingId.getD "")⟩] else []) ++
              a.metadata.entries.map fun entry => ⟨entry.1, Utf8.encode entry.2⟩)) ∧
      (¬ a.metadata.Distinct →
        ∃ p ∈ (Announcement.ofOptions a).properties, (Announcement.ofOptions b).accept block =
          .error (.malformed (.duplicateProperty p.name))) := by
  have hfits := ha.fits hvalues
  obtain ⟨haccepted, hrefused⟩ := @Announcement.accept_eq b (.ofOptions a) hcompatible hfits
  refine ⟨_, Announcement.command_eq_ok_iff.2 ⟨hfits, rfl⟩, ?_, ?_⟩
  · intro hdistinct
    obtain ⟨peer, hpeer, hentries⟩ := haccepted (ha.apart_iff.2 hdistinct)
    refine ⟨peer, hpeer, ?_⟩
    rw [hentries, Announcement.properties, Announcement.ofOptions_routingId]
    rfl
  · intro hclash
    exact hrefused fun hapart => hclash (ha.apart_iff.1 hapart)

/-- Options whose metadata has the given entries. -/
def optionsWith (entries : List (String × String)) : SecurityOptions :=
  { metadata := .ofList entries }

theorem interoperate_one_name :
    (optionsWith [("X-A", "1")]).problems = [] ∧ ∃ block peer,
      (Announcement.ofOptions (optionsWith [("X-A", "1")])).command Command.ready =
        .ok (.ofCommand (Command.ready ++ block)) ∧
      (Announcement.ofOptions {}).accept block = .ok peer := by
  have hproblems : (optionsWith [("X-A", "1")]).problems = [] := by decide
  have hvalidated : (optionsWith [("X-A", "1")]).Validated := by
    intro problem hproblem
    rw [hproblems] at hproblem
    cases hproblem
  obtain ⟨block, hcommand, haccepted, -⟩ :=
    interoperate (b := {}) hvalidated (by decide) (by decide)
  obtain ⟨peer, hpeer, -⟩ := haccepted (by decide)
  exact ⟨hproblems, block, peer, hcommand, hpeer⟩

/-- Names that differ in case only pass validation and are refused by the peer. -/
theorem refused_same_name_in_other_case :
    (optionsWith [("X-A", "1"), ("X-a", "2")]).problems = [] ∧ ∃ block,
      (Announcement.ofOptions (optionsWith [("X-A", "1"), ("X-a", "2")])).appendTo [] = .ok block ∧
      (Announcement.ofOptions {}).accept block =
        .error (.malformed (.duplicateProperty "X-a")) := by
  have hproblems : (optionsWith [("X-A", "1"), ("X-a", "2")]).problems = [] := by decide
  have hvalidated : (optionsWith [("X-A", "1"), ("X-a", "2")]).Validated := by
    intro problem hproblem
    rw [hproblems] at hproblem
    cases hproblem
  have hfits := hvalidated.fits (by decide)
  refine ⟨hproblems, _, Metadata.appendAll_of_fits hfits, ?_⟩
  rw [List.nil_append, Announcement.accept, Properties.ofBlock,
    Metadata.parseBlock_flatMap_encoded hfits]
  rfl

end Announced

end PeerLink
