import Mathlib.Data.List.Pairwise
import Mathlib.Data.List.Perm.Basic
import Mathlib.Logic.Function.Conjugate
import PeerLink.Config.Document
import PeerLink.Config.Schema

/-!
# Records are read back from their tables

The entries that a record is written as change the fields that they name (`Config.Fills`), and the
changes of a table commute, since each of them has a field of its own. Hence it does not matter in
which order the entries come back (`Config.Fills.reads`): every record of a configuration is read
from the table that it is written as, and the configuration from its document
(`Config.reads_document`).
-/

set_option autoImplicit false

namespace PeerLink.Config

variable {α β : Type} {fields : List (Field α)} {start a : α} {key : String} {v w : Value}
  {entries kept read : Entries} {change : α → α} {changes : List (α → α)}

/-! ## Values -/

/-- A word is read as what it stands for. -/
theorem readWordOf_text {ofWord? : String → Option α} {word : String} (h : ofWord? word = some a) :
    readWordOf ofWord? (.text word) = .ok a := by
  rw [readWordOf, h]

theorem readLogLevel_text {level? : String → Option LogLevel} {text : String} {level : LogLevel}
    (h : level? text = some level) : readLogLevel level? (.text text) = .ok level := by
  simp only [readLogLevel, readText, h]

theorem readWord_toNat (n : UInt32) : readWord (.integer n.toNat) = .ok n := by
  have hbound : (n.toNat : Int) < UInt32.size := by exact_mod_cast n.toNat_lt
  rw [readWord, if_pos ⟨Int.natCast_nonneg _, hbound⟩, Int.toNat_natCast, UInt32.ofNat_toNat]

/-- Items that are read one by one. -/
theorem mapM_eq_ok {f : α → Fitted β} {as : List α} {bs : List β}
    (h : List.Forall₂ (fun a b => f a = .ok b) as bs) : as.mapM f = .ok bs := by
  induction h with
  | nil => rfl
  | cons ha _ ih =>
    rw [List.mapM_cons, ha, ih]
    rfl

/-- A list of texts is read back, the empty one too. -/
theorem readTexts_array (contents : List String) :
    readTexts (.array (contents.map .text)) = .ok contents := by
  rw [readTexts]
  apply mapM_eq_ok
  apply List.forall₂_map_left_iff.2
  apply List.forall₂_same.2
  intro content _
  rfl

/-- Items that are read one by one are read in every order. -/
theorem exists_mapM_of_perm {f : α → Fitted β} {as others : List α} {bs : List β}
    (h : List.Forall₂ (fun a b => f a = .ok b) as bs) (hperm : as.Perm others) :
    ∃ found, others.mapM f = .ok found ∧ found.Perm bs := by
  obtain ⟨found, hfound, hsame⟩ := List.perm_comp_forall₂ hperm.symm h
  exact ⟨found, mapM_eq_ok hfound, hsame⟩

/-! ## What is kept of a table -/

/-- Whether there is a value. -/
def Value.isPresent : Value → Bool
  | .absent => false
  | _ => true

/-- Whether there is a value and it is no table. -/
def Value.isAtom : Value → Bool
  | .absent | .table _ => false
  | _ => true

theorem Value.ReadAs.isPresent (h : v.ReadAs w) : v.isPresent = true := by
  cases h <;> rfl

theorem Value.ReadAs.eq_of_isAtom (h : v.ReadAs w) (hv : v.isAtom = true) : w = v := by
  cases h with
  | table => cases hv
  | _ => rfl

/-- The keys under which there is a value. -/
def presentKeys (entries : Entries) : List String :=
  (entries.filter fun entry => entry.2.isPresent).map Prod.fst

theorem Entries.KeptAs.map_fst (h : Entries.KeptAs entries kept) :
    kept.map Prod.fst = presentKeys entries := by
  induction entries generalizing kept with
  | nil =>
    cases h
    rfl
  | cons entry entries ih =>
    cases h with
    | absent hrest => exact ih hrest
    | entry hv hrest => simp [presentKeys, hv.isPresent, ih hrest]

/-- Entries that are no tables are kept as they are. -/
theorem Entries.KeptAs.eq_of_isAtom (h : Entries.KeptAs entries kept)
    (hatoms : ∀ entry ∈ entries, entry.2.isAtom = true) : kept = entries := by
  induction entries generalizing kept with
  | nil =>
    cases h
    rfl
  | cons entry entries ih =>
    obtain ⟨hown, hothers⟩ := List.forall_mem_cons.1 hatoms
    cases h with
    | absent => cases hown
    | entry hv hrest => rw [hv.eq_of_isAtom hown, ih hrest hothers]

/-! ## Records -/

/-- Entries with the changes that they make to a record when they come back. -/
inductive Fills (fields : List (Field α)) : Entries → List (α → α) → Prop where
  | nil : Fills fields [] []
  | absent {key : String} {entries : Entries} {changes : List (α → α)}
      (h : Fills fields entries changes) : Fills fields ((key, .absent) :: entries) changes
  | atom {key : String} {v : Value} {entries : Entries} {f : Field α} {change : α → α}
      {changes : List (α → α)} (hv : v.isAtom = true)
      (hfield : fields.find? (fun f => f.name == key) = some f) (hchange : f.change v = .ok change)
      (h : Fills fields entries changes) : Fills fields ((key, v) :: entries) (change :: changes)
  | table {key : String} {members entries : Entries} {f : Field α} {change : α → α}
      {changes : List (α → α)} (hfield : fields.find? (fun f => f.name == key) = some f)
      (hchange : ∀ read, (Value.table members).ReadAs (.table read) →
        f.change (.table read) = .ok change)
      (h : Fills fields entries changes) :
      Fills fields ((key, .table members) :: entries) (change :: changes)

/-- A table that is read as a record, in whichever order its entries come back. -/
def Reads (fields : List (Field α)) (start : α) (entries : Entries) (a : α) : Prop :=
  ∀ read, (Value.table entries).ReadAs (.table read) → readEntries fields start read = .ok a

theorem changeOf_eq {f : Field α} (hfield : fields.find? (fun f => f.name == key) = some f)
    (hchange : f.change v = .ok change) : changeOf fields (key, v) = .ok change := by
  simp only [changeOf, hfield, hchange]

/-- The entries that were kept make the changes. -/
theorem Fills.forall₂_changeOf (h : Fills fields entries changes)
    (hkept : Entries.KeptAs entries kept) :
    List.Forall₂ (fun entry change => changeOf fields entry = .ok change) kept changes := by
  induction h generalizing kept with
  | nil =>
    cases hkept
    exact .nil
  | absent _ ih =>
    cases hkept with
    | absent hrest => exact ih hrest
    | entry hread => cases hread
  | atom hv hfield hchange _ ih =>
    -- the entry comes back as it is
    cases hkept with
    | absent => cases hv
    | entry hread hrest =>
      rw [hread.eq_of_isAtom hv]
      exact .cons (changeOf_eq hfield hchange) (ih hrest)
  | table hfield hchange _ ih =>
    -- the table may come back in another order, which the field reads as well
    cases hkept with
    | entry hread hrest =>
      cases hread with
      | table hmembers hperm =>
        exact .cons (changeOf_eq hfield (hchange _ (.table hmembers hperm))) (ih hrest)

theorem commute_iff {change other : α → α} :
    Function.Commute change other ↔ ∀ a, change (other a) = other (change a) := .rfl

/-- Changes that commute in pairs give the same record in every order. -/
theorem applyAll_of_perm {others : List (α → α)} (hperm : others.Perm changes)
    (hcommute : changes.Pairwise Function.Commute) (a : α) :
    applyAll others a = applyAll changes a := by
  have hsymm : Std.Symm (@Function.Commute α) := ⟨fun _ _ h => h.symm⟩
  have hall := hcommute.forall_of_forall fun change _ => Function.Commute.refl change
  apply Eq.symm
  apply hperm.symm.foldl_eq'
  intro change hchange other hother b
  exact hall hother hchange b

/-- Entries that make changes are read as the changed record, if the changes commute and no field
is missing. -/
theorem Fills.reads (h : Fills fields entries changes)
    (hcommute : changes.Pairwise Function.Commute)
    (hfields : (fields.all fun f => !f.inTable || (presentKeys entries).contains f.name) = true)
    (hresult : applyAll changes start = a) : Reads fields start entries a := by
  intro read hread
  cases hread with
  | table hkept hperm =>
    -- the table as it comes back makes the same changes, in another order
    obtain ⟨others, hothers, hsame⟩ := exists_mapM_of_perm (h.forall₂_changeOf hkept) hperm
    have hkeys : ∀ name,
        (read.map Prod.fst).contains name = (presentKeys entries).contains name := by
      intro name
      rw [← hkept.map_fst]
      exact (hperm.map Prod.fst).symm.contains_eq
    simp only [readEntries, hothers, hkeys]
    rw [if_pos hfields, applyAll_of_perm hsame hcommute, hresult]

/-- A field takes the value that is read. -/
theorem change_optional {name : String} {read : Value → Fitted β} {put : β → α → α} {b : β}
    (h : read v = .ok b) : (Field.optional name read put).change v = .ok (put b) := by
  simp only [Field.optional, h]
  rfl

theorem change_required {name : String} {read : Value → Fitted β} {put : β → α → α} {b : β}
    (h : read v = .ok b) : (Field.required name read put).change v = .ok (put b) := by
  simp only [Field.required, Field.optional, h]
  rfl

/-- An optional value changes the record if it is there. -/
theorem Fills.optional {f : Field α} {write : β → Value} {put : β → α → α}
    (hfield : fields.find? (fun f => f.name == key) = some f)
    (hatom : ∀ b, (write b).isAtom = true) (hchange : ∀ b, f.change (write b) = .ok (put b))
    (value? : Option β) (h : Fills fields entries changes) :
    Fills fields ((key, .ofOption write value?) :: entries)
      (value?.toList.map put ++ changes) := by
  cases value? with
  | none => exact .absent h
  | some b => exact .atom (hatom b) hfield (hchange b) h

/-! ## The records of a configuration

Each record has a step for every entry that it is written as, in the order of the entries. -/

theorem reads_transportEntries (t : TransportPolicy) :
    Reads transportFields {} (Configuration.transportEntries t) t := by
  obtain ⟨ipv6, cid?⟩ := t
  have hfills : Fills transportFields (Configuration.transportEntries ⟨ipv6, cid?⟩) _ :=
    .atom rfl rfl rfl <|
    .optional rfl (fun _ => rfl) (fun cid => change_optional (readWord_toNat cid)) cid? .nil
  cases cid? with
  | none => exact hfills.reads (List.pairwise_singleton _ _) rfl rfl
  | some cid => exact hfills.reads (by simp [commute_iff]) rfl rfl

theorem reads_plainEntries (c : Credentials) :
    Reads plainFields {} (Configuration.plainEntries c) c := by
  have hfills : Fills plainFields (Configuration.plainEntries c) _ :=
    .atom rfl rfl rfl <|
    .atom rfl rfl rfl .nil
  exact hfills.reads (by simp [commute_iff]) rfl rfl

theorem reads_gssapiEntries (g : GssapiOptions) :
    Reads gssapiFields {} (Configuration.gssapiEntries g) g := by
  obtain ⟨principal, nameType, servicePrincipal, serviceNameType, plaintext, mechanisms⟩ := g
  have hnameType := readWordOf_text (Gssapi.NameType.ofWord?_word nameType)
  have hserviceNameType := readWordOf_text (Gssapi.NameType.ofWord?_word serviceNameType)
  have hfills : Fills gssapiFields (Configuration.gssapiEntries ⟨principal, nameType,
      servicePrincipal, serviceNameType, plaintext, mechanisms⟩) _ :=
    .optional rfl (fun _ => rfl) (fun _ => rfl) principal <|
    .atom rfl rfl (change_optional hnameType) <|
    .atom rfl rfl rfl <|
    .atom rfl rfl (change_optional hserviceNameType) <|
    .atom rfl rfl rfl <|
    .atom rfl rfl (change_optional (readTexts_array mechanisms)) .nil
  cases principal with
  | none => exact hfills.reads (by simp [commute_iff]) rfl rfl
  | some principal => exact hfills.reads (by simp [commute_iff]) rfl rfl

/-- Metadata is read back, since its names are its order. -/
theorem readAttributes_metadataEntries {as : Attributes}
    (h : (Value.table (Configuration.metadataEntries as)).ReadAs (.table read)) :
    readAttributes (.table read) = .ok as := by
  cases h with
  | table hkept hperm =>
    have hatoms : ∀ entry ∈ Configuration.metadataEntries as, entry.2.isAtom = true := by
      intro entry hentry
      obtain ⟨_, _, rfl⟩ := List.mem_map.1 hentry
      rfl
    have hown : List.Forall₂ (fun entry named => readAttribute entry = .ok named)
        (Configuration.metadataEntries as) as.entries := by
      apply List.forall₂_map_left_iff.2
      apply List.forall₂_same.2
      intro named _
      rfl
    rw [hkept.eq_of_isAtom hatoms] at hperm
    obtain ⟨found, hfound, hsame⟩ := exists_mapM_of_perm hown hperm
    rw [readAttributes, hfound, ← Attributes.ofList_of_perm hsame]
    rfl

theorem reads_securityEntries (s : SecurityOptions) :
    Reads securityFields {} (Configuration.securityEntries s) s := by
  obtain ⟨mechanism, socketType, routingId, metadata, plain, gssapi⟩ := s
  have hmechanism := readWordOf_text (MechanismName.ofWord?_word mechanism)
  have hsocketType := readWordOf_text (SocketType.ofName?_name socketType)
  have hfills : Fills securityFields (Configuration.securityEntries ⟨mechanism, socketType,
      routingId, metadata, plain, gssapi⟩) _ :=
    .atom rfl rfl (change_optional hmechanism) <|
    .atom rfl rfl (change_optional hsocketType) <|
    .optional rfl (fun _ => rfl) (fun _ => rfl) routingId <|
    .table rfl (fun _ h => change_optional (readAttributes_metadataEntries h)) <|
    .table rfl (fun _ h => change_optional (reads_plainEntries plain _ h)) <|
    .table rfl (fun _ h => change_optional (reads_gssapiEntries gssapi _ h)) .nil
  cases routingId with
  | none => exact hfills.reads (by simp [commute_iff]) rfl rfl
  | some id => exact hfills.reads (by simp [commute_iff]) rfl rfl

section Levels

variable {level? : String → Option LogLevel}

theorem reads_loggingEntries (h : ∀ level : LogLevel, level? level.word = some level)
    (l : LoggingOptions) :
    Reads (loggingFields level?) {} (Configuration.loggingEntries l) l := by
  obtain ⟨appName, logLevel, logToConsole, logToFile, logFilePath, jsonFormat⟩ := l
  have hfills : Fills (loggingFields level?) (Configuration.loggingEntries ⟨appName, logLevel,
      logToConsole, logToFile, logFilePath, jsonFormat⟩) _ :=
    .atom rfl rfl rfl <|
    .atom rfl rfl (change_required (readLogLevel_text (h logLevel))) <|
    .atom rfl rfl rfl <|
    .atom rfl rfl rfl <|
    .optional rfl (fun _ => rfl) (fun _ => rfl) logFilePath <|
    .atom rfl rfl rfl .nil
  cases logFilePath with
  | none => exact hfills.reads (by simp [commute_iff]) rfl rfl
  | some path => exact hfills.reads (by simp [commute_iff]) rfl rfl

/-- The document of a configuration is read as that configuration. -/
theorem reads_document (h : ∀ level : LogLevel, level? level.word = some level)
    (c : Configuration) : Reads (configurationFields level?) {} c.document c := by
  have hfills : Fills (configurationFields level?) c.document _ :=
    .table rfl (fun _ hread => change_optional (reads_transportEntries c.transport _ hread)) <|
    .table rfl (fun _ hread => change_optional (reads_securityEntries c.security _ hread)) <|
    .table rfl (fun _ hread => change_optional (reads_loggingEntries h c.logging _ hread)) .nil
  exact hfills.reads (by simp [commute_iff]) rfl rfl

end Levels

end PeerLink.Config
