import PeerLink.Config.Standard

/-!
# Reading a configuration document

A record is read from a table by the names of its fields, or from an array by their order. Every
entry changes the field that it names. Fields that a table does not name keep their values; names
that no field has are ignored. The first entry that does not fit is reported.
-/

set_option autoImplicit false

namespace PeerLink.Config

/-- Why a document is not a configuration. -/
inductive Misfit where
  /-- A value of the wrong kind, or one that is missing. -/
  | shape
  /-- A text that should be a log level. -/
  | logLevel (text : String)
  deriving DecidableEq, Repr

/-- What a reading yields. -/
abbrev Fitted (α : Type) := Except Misfit α

/-! ## Single values -/

/-- A text. -/
def readText : Value → Fitted String
  | .text content => .ok content
  | _ => .error .shape

/-- A truth value. -/
def readFlag : Value → Fitted Bool
  | .boolean flag => .ok flag
  | _ => .error .shape

/-- A 32-bit number. -/
def readWord : Value → Fitted UInt32
  | .integer n =>
      if 0 ≤ n ∧ n < UInt32.size then .ok (UInt32.ofNat n.toNat) else .error .shape
  | _ => .error .shape

/-- A list of texts. -/
def readTexts : Value → Fitted (List String)
  | .array items => items.mapM readText
  | _ => .error .shape

/-- Whether a value holds nothing. -/
def isVoid : Value → Bool
  | .array items => items.isEmpty
  | .table entries => entries.isEmpty
  | _ => false

/-- One of several words: the word itself, or a table with the word as its only key and nothing
under it. -/
def readWordOf {α : Type} (ofWord? : String → Option α) : Value → Fitted α
  | .text word =>
      match ofWord? word with
      | some a => .ok a
      | none => .error .shape
  | .table [(word, inner)] =>
      match ofWord? word with
      | some a => if isVoid inner then .ok a else .error .shape
      | none => .error .shape
  | _ => .error .shape

/-- A log level. -/
def readLogLevel (level? : String → Option LogLevel) (v : Value) : Fitted LogLevel :=
  match readText v with
  | .error misfit => .error misfit
  | .ok text =>
      match level? text with
      | some level => .ok level
      | none => .error (.logLevel text)

/-- A text under a name. -/
def readAttribute (entry : String × Value) : Fitted (String × String) :=
  (readText entry.2).map fun text => (entry.1, text)

/-- A table of texts. -/
def readAttributes : Value → Fitted Attributes
  | .table entries => (entries.mapM readAttribute).map Attributes.ofList
  | _ => .error .shape

/-! ## Records -/

/-- A field of a record: its name, the change that a value makes to the record, and whether it must
be there. -/
structure Field (α : Type) where
  name : String
  change : Value → Fitted (α → α)
  /-- A table must name the field. -/
  inTable : Bool
  /-- An array must be long enough for the field. -/
  inArray : Bool

/-- A field that may be missing. -/
def Field.optional {α β : Type} (name : String) (read : Value → Fitted β) (put : β → α → α) :
    Field α :=
  ⟨name, fun v => (read v).map put, false, false⟩

/-- A field that must be there. -/
def Field.required {α β : Type} (name : String) (read : Value → Fitted β) (put : β → α → α) :
    Field α :=
  { Field.optional name read put with inTable := true, inArray := true }

/-- The change that an entry of a table makes to a record. -/
def changeOf {α : Type} (fields : List (Field α)) (entry : String × Value) : Fitted (α → α) :=
  match fields.find? fun f => f.name == entry.1 with
  | some f => f.change entry.2
  | none => .ok id

/-- A record after changes. -/
def applyAll {α : Type} (changes : List (α → α)) (a : α) : α :=
  changes.foldl (fun a change => change a) a

/-- Reads a record from the entries of a table. -/
def readEntries {α : Type} (fields : List (Field α)) (start : α) (entries : Entries) : Fitted α :=
  -- entries that do not fit are reported before entries that are missing
  match entries.mapM (changeOf fields) with
  | .error misfit => .error misfit
  | .ok changes =>
      if fields.all fun f => !f.inTable || (entries.map Prod.fst).contains f.name then
        .ok (applyAll changes start)
      else .error .shape

/-- Reads a record from the items of an array. Surplus items are ignored. -/
def readItems {α : Type} : List (Field α) → α → List Value → Fitted α
  | [], a, _ => .ok a
  | f :: fields, a, [] => if f.inArray then .error .shape else readItems fields a []
  | f :: fields, a, v :: items =>
      match f.change v with
      | .ok change => readItems fields (change a) items
      | .error misfit => .error misfit

/-- Reads a record. -/
def readRecord {α : Type} (fields : List (Field α)) (start : α) : Value → Fitted α
  | .table entries => readEntries fields start entries
  | .array items => readItems fields start items
  | _ => .error .shape

/-! ## The records of a configuration -/

/-- The fields of `TransportPolicy`. -/
def transportFields : List (Field TransportPolicy) :=
  [.optional "ipv6" readFlag fun b t => { t with ipv6 := b },
    .optional "vmci_local_cid" readWord fun n t => { t with vmciLocalCid := some n }]

/-- The fields of `Credentials`. -/
def plainFields : List (Field Credentials) :=
  [.required "username" readText fun s c => { c with username := s },
    .required "password" readText fun s c => { c with password := s }]

/-- The fields of `GssapiOptions`. -/
def gssapiFields : List (Field GssapiOptions) :=
  [.optional "principal" readText fun s g => { g with principal := some s },
    .optional "principal_name_type" (readWordOf Gssapi.NameType.ofWord?) fun t g =>
      { g with principalNameType := t },
    .optional "service_principal" readText fun s g => { g with servicePrincipal := s },
    .optional "service_principal_name_type" (readWordOf Gssapi.NameType.ofWord?) fun t g =>
      { g with servicePrincipalNameType := t },
    .optional "plaintext" readFlag fun b g => { g with plaintext := b },
    .optional "mechanisms" readTexts fun ms g => { g with mechanisms := ms }]

/-- The fields of `SecurityOptions`. -/
def securityFields : List (Field SecurityOptions) :=
  [.optional "mechanism" (readWordOf MechanismName.ofWord?) fun m s => { s with mechanism := m },
    .optional "socket_type" (readWordOf SocketType.ofName?) fun t s => { s with socketType := t },
    .optional "routing_id" readText fun r s => { s with routingId := some r },
    .optional "metadata" readAttributes fun as s => { s with metadata := as },
    .optional "plain" (readRecord plainFields {}) fun c s => { s with plain := c },
    .optional "gssapi" (readRecord gssapiFields {}) fun g s => { s with gssapi := g }]

/-- The fields of `LoggingOptions`. -/
def loggingFields (level? : String → Option LogLevel) : List (Field LoggingOptions) :=
  [.required "app_name" readText fun s l => { l with appName := s },
    .required "log_level" (readLogLevel level?) fun level l => { l with logLevel := level },
    .required "log_to_console" readFlag fun b l => { l with logToConsole := b },
    .required "log_to_file" readFlag fun b l => { l with logToFile := b },
    { Field.required "log_file_path" readText fun s l => { l with logFilePath := some s } with
      inTable := false },
    .required "json_format" readFlag fun b l => { l with jsonFormat := b }]

/-- The fields of `Configuration`. -/
def configurationFields (level? : String → Option LogLevel) : List (Field Configuration) :=
  [.optional "transport" (readRecord transportFields {}) fun t c => { c with transport := t },
    .optional "security" (readRecord securityFields {}) fun s c => { c with security := s },
    .optional "logging" (readRecord (loggingFields level?) {}) fun l c => { c with logging := l }]

/-- The fault that a misfit is reported as. -/
def Misfit.fault : Misfit → Fault
  | shape => .config .unreadableToml
  | logLevel text => .config (.unknownLogLevel text)

end PeerLink.Config

namespace PeerLink.Configuration

/-- Reads a configuration from the text of a document. -/
def ofToml (text : String) (libs : Config.Libraries := .standard) : Except Fault Configuration :=
  match libs.parse? text with
  | none => .error (.config .unreadableToml)
  | some entries =>
      match Config.readEntries (Config.configurationFields libs.level?) {} entries with
      | .ok c => .ok c
      | .error misfit => .error misfit.fault

end PeerLink.Configuration
