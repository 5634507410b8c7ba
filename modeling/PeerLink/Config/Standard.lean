import PeerLink.Config.Libraries
import PeerLink.Toml.Printer

/-!
# The standard libraries

The libraries that are used unless others are given: `Toml.renderTables` prints, `Toml.parse?`
parses and `LogLevel.parse?` reads levels. A section is printed as its header and its own lines,
and after it the tables that stand in it.
-/

set_option autoImplicit false

/-! ## Levels -/

namespace PeerLink.LogLevel

/-- Every level, the quietest first. -/
def all : List LogLevel := [error, warn, info, debug, trace]

/-- The number of a level, from 1 for the quietest. -/
def number : LogLevel → Nat
  | error => 1
  | warn => 2
  | info => 3
  | debug => 4
  | trace => 5

/-- Reads a level: its number, or its word in any case. -/
def parse? (text : String) : Option LogLevel :=
  match Numeral.readNat? text.toList with
  | some n => all.find? fun level => level.number == n
  | none => all.find? fun level => Letters.sameIgnoringCase level.word text

theorem parse?_word (level : LogLevel) : parse? level.word = some level := by
  cases level <;> decide +kernel

end PeerLink.LogLevel

namespace PeerLink.Config

/-! ## Printing -/

/-- The item that a leaf is printed as. -/
def Value.item? : Value → Option Toml.Item
  | .text content => some (.text content)
  | .integer number => some (.number number.toNat)
  | .boolean flag => some (.flag flag)
  | .array items => some (.texts (items.filterMap Value.text?))
  | .float | .table _ | .absent => none

/-- The key-value lines of a table. -/
def Entries.lines (entries : Entries) : List (String × Toml.Item) :=
  entries.filterMap fun (key, v) => v.item?.map fun item => (key, item)

/-- The tables in a table. -/
def Entries.tables (entries : Entries) : List (String × Entries) :=
  entries.filterMap fun
    | (key, .table members) => some (key, members)
    | _ => none

/-- The printed sections of a document. -/
def Entries.sections (entries : Entries) : List Toml.Table :=
  entries.tables.flatMap fun (name, members) =>
    ⟨[name], members.lines⟩ ::
      members.tables.map fun (key, group) => ⟨[name, key], group.lines⟩

/-! ## Parsing -/

/-- The key under which a date or time shows itself where a table is expected. -/
def dateTimeKey : String := "$__toml_private_datetime"

mutual

/-- A parsed value, without the way in which its tables were opened. -/
def Value.ofToml : Toml.Value → Value
  | .text content => .text content
  | .integer number => .integer number
  | .float => .float
  | .boolean flag => .boolean flag
  | .dateTime content => .table [(dateTimeKey, .text content)]
  | .array items | .tables items => .array (Value.itemsOfToml items)
  | .table _ entries => .table (Entries.ofToml entries)

/-- Parsed items. -/
def Value.itemsOfToml : List Toml.Value → List Value
  | [] => []
  | v :: items => Value.ofToml v :: Value.itemsOfToml items

/-- Parsed entries. -/
def Entries.ofToml : List (String × Toml.Value) → List (String × Value)
  | [] => []
  | (key, v) :: entries => (key, Value.ofToml v) :: Entries.ofToml entries

end

/-! ## Libraries -/

/-- The libraries that are used unless others are given. -/
def Libraries.standard : Libraries where
  print? entries :=
    if entries.isDocument then some (String.ofList (Toml.renderTables entries.sections)) else none
  parse? text := (Toml.parse? text).map Entries.ofToml
  level? := LogLevel.parse?

end PeerLink.Config
