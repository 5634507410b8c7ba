import PeerLink.Config.File
import PeerLink.Proofs.Config.Records
import PeerLink.Proofs.Config.Standard

/-!
# A saved configuration is read back

What a configuration is written as is a document (`Configuration.isDocument_document`). Faithful
libraries print it, and what they parse is read as the configuration
(`Configuration.exists_toToml`). Hence a configuration is read back from its text and from the file
that it is saved in (`Configuration.saved_reads_back`).
-/

set_option autoImplicit false

namespace PeerLink.Configuration

open Config (Entries Libraries Value)

/-! ## The document of a configuration -/

theorem isGroup_transportEntries (t : TransportPolicy) :
    Entries.isGroup (transportEntries t) = true := by
  have hcid := Value.isLeaf_ofOption Value.isLeaf_word t.vmciLocalCid
  simp [transportEntries, Entries.isGroup, Entries.distinct, hcid]

theorem isGroup_metadataEntries (as : Attributes) :
    Entries.isGroup (metadataEntries as) = true := by
  have hnames := as.nodup_names
  simpa [metadataEntries, Entries.isGroup, Entries.distinct, Function.comp_def] using hnames

theorem isGroup_plainEntries (c : Credentials) : Entries.isGroup (plainEntries c) = true := by
  simp [plainEntries, Entries.isGroup, Entries.distinct]

theorem isGroup_gssapiEntries (g : GssapiOptions) : Entries.isGroup (gssapiEntries g) = true := by
  have hprincipal := Value.isLeaf_ofOption Value.isLeaf_text g.principal
  simp [gssapiEntries, Entries.isGroup, Entries.distinct, hprincipal]

theorem isGroup_loggingEntries (l : LoggingOptions) :
    Entries.isGroup (loggingEntries l) = true := by
  have hpath := Value.isLeaf_ofOption Value.isLeaf_text l.logFilePath
  simp [loggingEntries, Entries.isGroup, Entries.distinct, hpath]

theorem isSection_securityEntries (s : SecurityOptions) :
    (Value.table (securityEntries s)).isSection = true := by
  have htext := fun content => Value.isMember_of_isLeaf (Value.isLeaf_text content)
  have hid := Value.isMember_of_isLeaf (Value.isLeaf_ofOption Value.isLeaf_text s.routingId)
  simp [securityEntries, Value.isSection, Entries.distinct, htext, hid, isGroup_metadataEntries,
    isGroup_plainEntries, isGroup_gssapiEntries]

theorem isSection_of_isGroup {entries : Entries} (h : entries.isGroup = true) :
    (Value.table entries).isSection = true := by
  obtain ⟨hkeys, hleaves⟩ := Bool.and_eq_true_iff.1 h
  refine Bool.and_eq_true_iff.2 ⟨hkeys, List.all_eq_true.2 fun entry hentry => ?_⟩
  exact Value.isMember_of_isLeaf (List.all_eq_true.1 hleaves entry hentry)

/-- What a configuration is written as is a document. -/
theorem isDocument_document (c : Configuration) : c.document.isDocument = true := by
  have htransport := isSection_of_isGroup (isGroup_transportEntries c.transport)
  have hlogging := isSection_of_isGroup (isGroup_loggingEntries c.logging)
  simp [document, Entries.isDocument, Entries.distinct, htransport, hlogging,
    isSection_securityEntries]

/-! ## Texts and files -/

variable {libs : Libraries}

/-- Faithful libraries print a configuration, and it is read back from its text. -/
theorem exists_toToml (h : libs.Faithful) (c : Configuration) :
    ∃ text, c.toToml libs = some text ∧ ofToml text libs = .ok c := by
  have hdocument := c.isDocument_document
  obtain ⟨text, hprint⟩ := h.prints c.document hdocument
  obtain ⟨read, hparse, hread⟩ := h.reads_back c.document text hdocument hprint
  refine ⟨text, hprint, ?_⟩
  rw [ofToml, hparse]
  simp only [Config.reads_document h.reads_levels c read hread]

/-- A saved file holds the text of the configuration. -/
theorem read_of_save {files after : FileSystem} {path text : String} {c : Configuration}
    (htext : c.toToml libs = some text) (h : save files path c libs = .ok after) :
    after.read? path = some (some (Utf8.encode text)) := by
  simp only [save, htext] at h
  split at h
  · next hwritten =>
    cases h
    exact FileSystem.read?_write? hwritten
  · cases h

/-- A configuration is loaded from a file with its text. -/
theorem load_of_read {files : FileSystem} {path text : String} {c : Configuration}
    (hread : files.read? path = some (some (Utf8.encode text))) (h : ofToml text libs = .ok c) :
    load files path libs = .ok c := by
  rw [load, hread]
  simp only [Utf8.decode?_encode, h]

/-- Saving succeeds wherever a file can be opened or made. -/
theorem exists_save_of_canWrite {files : FileSystem} {path text : String}
    (h : files.canWrite path = true) {c : Configuration} (htext : c.toToml libs = some text) :
    ∃ after, save files path c libs = .ok after := by
  rw [FileSystem.canWrite] at h
  split at h
  · next place hplace =>
    refine ⟨files.put place (Utf8.encode text), ?_⟩
    rw [Bool.not_eq_true'] at h
    simp [save, htext, FileSystem.write?, hplace, h]
  · cases h

/-- Where the libraries are faithful, every configuration has a text, from which it is read back
with every field as it was. It can be saved wherever a file can be written; the file then holds
that text and loads as the configuration. -/
theorem saved_reads_back (h : libs.Faithful) (c : Configuration) :
    ∃ text, c.toToml libs = some text ∧ ofToml text libs = .ok c ∧
      ∀ (files : FileSystem) (path : String),
        (files.canWrite path = true → ∃ after, save files path c libs = .ok after) ∧
          ∀ after, save files path c libs = .ok after →
            after.read? path = some (some (Utf8.encode text)) ∧ load after path libs = .ok c := by
  obtain ⟨text, htext, hback⟩ := exists_toToml h c
  refine ⟨text, htext, hback, ?_⟩
  intro files path
  refine ⟨?_, ?_⟩
  · intro hpath
    exact exists_save_of_canWrite hpath htext
  · intro after hsave
    have hread := read_of_save htext hsave
    exact ⟨hread, load_of_read hread hback⟩

/-- A tree with nothing but its root. -/
def bareRoot : FileSystem where
  node? place := if place = [] then some .directory else none
  start := []

/-- A configuration with texts that need every kind of quotes, and without GSSAPI mechanisms. -/
def quoted : Configuration where
  security := {
    routingId := some ""
    metadata := .ofList [("X-a.b \"", "\x27"), ("X-\n", "\"\"\"\n\x00"), ("", "\x27\x27\x27\\")]
    gssapi := { principal := some "\\u0041\"", mechanisms := [] } }

theorem saved_reads_back_quoted :
    Libraries.standard.Faithful ∧ bareRoot.canWrite "/c.toml" = true ∧
      ∃ text after, quoted.toToml = some text ∧ ofToml text = .ok quoted ∧
        save bareRoot "/c.toml" quoted = .ok after ∧
          after.read? "/c.toml" = some (some (Utf8.encode text)) ∧
            load after "/c.toml" = .ok quoted := by
  have hpath : bareRoot.canWrite "/c.toml" = true := by decide
  obtain ⟨text, htext, hback, hfiles⟩ := saved_reads_back Config.standard_faithful quoted
  obtain ⟨hsave, hload⟩ := hfiles bareRoot "/c.toml"
  obtain ⟨after, hafter⟩ := hsave hpath
  exact ⟨Config.standard_faithful, hpath, text, after, htext, hback, hafter, hload after hafter⟩

end PeerLink.Configuration
