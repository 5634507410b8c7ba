import PeerLink.Proofs.Metadata.RoundTrip
import PeerLink.Proofs.Metadata.Interoperation
import PeerLink.Proofs.Text.ByteOrder

/-!
# The announced block

Options are announced as one block, which does not depend on what a buffer already holds. Counting
its bytes without writing it gives its length (`Announcement.size_eq`), and it reads as the socket
type, the routing id where that is sent, and the application metadata in the order of the bytes of
its names (`SecurityOptions.Announces`). It can be written exactly if the names of the metadata fit
(`SecurityOptions.announced_exactly`).
-/

set_option autoImplicit false

namespace PeerLink

/-! ## Counting -/

/-- What is counted part by part is the size of the properties together. -/
theorem Announcement.size_eq (a : Announcement) :
    a.size = a.properties.foldr (fun p total => p.size + total) 0 := by
  rw [size, properties, List.foldr_cons, List.foldr_append, List.foldr_map]
  simp only [Property.size, Utf8.length_encode]
  cases a.socketType.sendsIdentity with
  | true => exact Nat.add_assoc _ _ _
  | false => rfl

/-! ## What is announced -/

/-- The routing id is sent by REQ, DEALER and ROUTER. -/
theorem SocketType.sendsIdentity_iff (t : SocketType) :
    t.sendsIdentity = true ↔ t = .req ∨ t = .dealer ∨ t = .router := by
  cases t <;> simp [sendsIdentity]

namespace SecurityOptions

variable {options : SecurityOptions} {block : Bytes}

/-- The block that announces options. -/
structure Announces (options : SecurityOptions) (block : Bytes) : Prop where
  /-- It is as long as is counted without writing it. -/
  length : block.length = (Announcement.ofOptions options).size
  /-- An unset routing id is announced as an empty one. -/
  parse : Metadata.parseBlock block = .ok
    (⟨"Socket-Type", Utf8.encode options.socketType.name⟩ ::
      ((if options.socketType = .req ∨ options.socketType = .dealer ∨
            options.socketType = .router then
          [⟨"Identity", Utf8.encode (options.routingId.getD "")⟩] else []) ++
        options.metadata.entries.map fun entry => ⟨entry.1, Utf8.encode entry.2⟩))
  /-- The metadata comes in the order of the bytes of its names. -/
  ordered : options.metadata.entries.Pairwise fun d e => Utf8.encode d.1 < Utf8.encode e.1

/-- The properties that fit are written as the block that announces them. -/
theorem announces_of_fits (h : ∀ p ∈ (Announcement.ofOptions options).properties, p.Fits) :
    options.Announces ((Announcement.ofOptions options).properties.flatMap Property.encoded) where
  length := by rw [Metadata.length_flatMap_encoded, Announcement.size_eq]
  parse := by
    rw [Metadata.parseBlock_flatMap_encoded h, Announcement.properties,
      Announcement.ofOptions_routingId]
    simp only [← SocketType.sendsIdentity_iff]
    rfl
  ordered := options.metadata.sorted.imp Utf8.encode_lt_encode

/-- Whether the values that are announced fit their length field. -/
structure ShortValues (options : SecurityOptions) : Prop where
  routingId : ∀ id, options.routingId = some id → id.utf8ByteSize < Bytes.wordLimit
  metadata : ∀ entry ∈ options.metadata.entries, entry.2.utf8ByteSize < Bytes.wordLimit

/-- Such values fit wherever they are announced. -/
theorem ShortValues.values (h : options.ShortValues) :
    ∀ p ∈ (Announcement.ofOptions options).properties, p.value.length < Bytes.wordLimit := by
  refine Announcement.values_of_metadata ?_ h.metadata
  rw [Announcement.ofOptions_routingId, Utf8.length_encode]
  cases hid : options.routingId with
  | none => decide
  | some id => exact h.routingId id hid

/-- With such values the announcement fits exactly if the names of the metadata do. -/
theorem ShortValues.fits_iff (h : options.ShortValues) :
    (∀ p ∈ (Announcement.ofOptions options).properties, p.Fits) ↔
      ∀ entry ∈ options.metadata.entries, entry.1.utf8ByteSize ≤ 255 := by
  constructor
  · intro hfits entry hentry
    have hmem : (⟨entry.1, Utf8.encode entry.2⟩ : Property) ∈
        (Announcement.ofOptions options).properties :=
      List.mem_cons_of_mem _ (List.mem_append_right _ (List.mem_map_of_mem hentry))
    exact (hfits _ hmem).1
  · intro hnames p hp
    exact ⟨Announcement.names_of_metadata hnames p hp, h.values p hp⟩

/-- What cannot be written is refused for a long name of the metadata. -/
theorem ShortValues.exists_long_name (h : options.ShortValues) {buffer : Bytes} {fault : Fault}
    (hrefused : (Announcement.ofOptions options).appendTo buffer = .error fault) :
    ∃ entry ∈ options.metadata.entries, 255 < entry.1.utf8ByteSize ∧
      fault = .malformed (.longPropertyName entry.1.utf8ByteSize) := by
  obtain ⟨p, hp, hencode⟩ := Metadata.exists_of_appendAll_eq_error hrefused
  -- the value is short, and only the metadata has names that are not fixed
  rcases Property.encode_eq_error hencode with ⟨hlong, rfl⟩ | ⟨hlong, -⟩
  · obtain ⟨entry, hentry, rfl⟩ := Announcement.exists_entry_of_long_name hp hlong
    exact ⟨entry, hentry, hlong, rfl⟩
  · exact absurd (h.values p hp) (Nat.not_lt.2 hlong)

/-! ## The announced block -/

/-- Options whose values fit are announced behind whatever a buffer holds, exactly if the names of
their metadata are at most 255 bytes long; otherwise a longer one is refused. What is written is
always the same block, which reads as the options say, also as the body of a command. -/
theorem announced_exactly (h : options.ShortValues) :
    (∀ buffer, (∃ out, (Announcement.ofOptions options).appendTo buffer = .ok out) ↔
      ∀ entry ∈ options.metadata.entries, entry.1.utf8ByteSize ≤ 255) ∧
    (∀ buffer fault, (Announcement.ofOptions options).appendTo buffer = .error fault →
      ∃ entry ∈ options.metadata.entries, 255 < entry.1.utf8ByteSize ∧
        fault = .malformed (.longPropertyName entry.1.utf8ByteSize)) ∧
    ((∀ entry ∈ options.metadata.entries, entry.1.utf8ByteSize ≤ 255) →
      ∃ block, options.Announces block ∧
        (∀ buffer, (Announcement.ofOptions options).appendTo buffer = .ok (buffer ++ block)) ∧
        ∀ name, (Announcement.ofOptions options).command name =
          .ok (.ofCommand (name ++ block))) := by
  refine ⟨fun buffer => ?_, fun buffer fault => h.exists_long_name, fun hnames => ?_⟩
  · rw [← h.fits_iff]
    constructor
    · rintro ⟨out, hout⟩
      exact Metadata.fits_of_appendAll hout
    · intro hfits
      exact ⟨_, Metadata.appendAll_of_fits hfits⟩
  · have hfits := h.fits_iff.2 hnames
    exact ⟨_, announces_of_fits hfits, fun buffer => Metadata.appendAll_of_fits hfits,
      fun name => Announcement.command_eq_ok_iff.2 ⟨hfits, rfl⟩⟩

/-- A DEALER with a routing id and two entries, the first of which was given last. -/
def describedOptions : SecurityOptions where
  routingId := some "d1"
  metadata := .ofList [("X-é", "2"), ("X-z", "1")]

/-- Its block is 56 bytes long and follows what a buffer holds. -/
theorem announced_exactly_dealer :
    describedOptions.ShortValues ∧ ∃ block, describedOptions.Announces block ∧
      block.length = 56 ∧
      (Announcement.ofOptions describedOptions).appendTo [1, 2] = .ok ([1, 2] ++ block) ∧
      Metadata.parseBlock block = .ok [⟨"Socket-Type", Utf8.encode "DEALER"⟩,
        ⟨"Identity", Utf8.encode "d1"⟩, ⟨"X-z", Utf8.encode "1"⟩, ⟨"X-é", Utf8.encode "2"⟩] := by
  have hvalues : describedOptions.ShortValues := by
    refine ⟨fun id hid => ?_, by decide⟩
    cases hid
    decide
  obtain ⟨-, -, hwritten⟩ := announced_exactly hvalues
  obtain ⟨block, hannounces, happend, -⟩ := hwritten (by decide)
  exact ⟨hvalues, block, hannounces, hannounces.length.trans (by decide), happend [1, 2],
    hannounces.parse.trans rfl⟩

end SecurityOptions

end PeerLink
