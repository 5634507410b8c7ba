import PeerLink.Config.Options

/-!
# Libraries

A configuration is written and read by a TOML library, and its log level by a logging library.
`Config.Libraries` is what the configuration calls of them, and `Libraries.Faithful` is what it
relies on: a document that is printed is parsed as the tables it was printed from, and a level is
read from its word. A table has no order, so the entries may come back in any
(`Config.Value.ReadAs`).
-/

set_option autoImplicit false

namespace PeerLink.Config

/-! ## Values -/

/-- A value of a document. -/
inductive Value where
  | text (content : String)
  | integer (number : Int)
  | float
  | boolean (flag : Bool)
  | array (items : List Value)
  | table (entries : List (String × Value))
  /-- What an optional field without a value is written as. -/
  | absent
  deriving Repr

/-- The entries of a table. -/
abbrev Entries := List (String × Value)

/-- The content of a text. -/
def Value.text? : Value → Option String
  | .text content => some content
  | _ => none

/-- An optional value. -/
def Value.ofOption {α : Type} (write : α → Value) : Option α → Value
  | some a => write a
  | none => .absent

/-- Whether a value can be written and holds no table. Numbers are between 0 and the largest that
64 bits hold with a sign, and arrays hold texts. -/
def Value.isLeaf : Value → Bool
  | .text _ | .boolean _ | .absent => true
  | .integer number => 0 ≤ number && number ≤ 9223372036854775807
  | .array items => items.all fun item => item.text?.isSome
  | .float | .table _ => false

namespace Value

@[simp] theorem isLeaf_text (content : String) : (text content).isLeaf = true := rfl

@[simp] theorem isLeaf_boolean (flag : Bool) : (boolean flag).isLeaf = true := rfl

@[simp] theorem isLeaf_texts (contents : List String) :
    (array (contents.map text)).isLeaf = true := by
  simp [isLeaf, text?]

/-- A number of 32 bits can be written. -/
@[simp] theorem isLeaf_word (n : UInt32) : (integer n.toNat).isLeaf = true := by
  have hbound : n.toNat < 4294967296 := n.toNat_lt
  simp only [isLeaf, Bool.and_eq_true, decide_eq_true_eq]
  omega

theorem isLeaf_ofOption {α : Type} {write : α → Value} (h : ∀ a, (write a).isLeaf = true)
    (value? : Option α) : (ofOption write value?).isLeaf = true := by
  cases value? with
  | none => rfl
  | some a => exact h a

end Value

/-- Whether no key comes twice. -/
def Entries.distinct (entries : Entries) : Bool := decide (entries.map Prod.fst).Nodup

/-- Whether entries make up a table without tables in it. -/
def Entries.isGroup (entries : Entries) : Bool :=
  entries.distinct && entries.all fun entry => entry.2.isLeaf

/-- Whether a value can stand in a section: a leaf, or a table without tables in it. -/
def Value.isMember : Value → Bool
  | .table entries => Entries.isGroup entries
  | v => v.isLeaf

@[simp] theorem Value.isMember_table (entries : Entries) :
    (Value.table entries).isMember = entries.isGroup := rfl

theorem Value.isMember_of_isLeaf {v : Value} (h : v.isLeaf = true) : v.isMember = true := by
  cases v with
  | table => cases h
  | _ => exact h

/-- Whether a value is a section. -/
def Value.isSection : Value → Bool
  | .table entries => Entries.distinct entries && entries.all fun entry => entry.2.isMember
  | _ => false

/-- Whether entries make up a document, in which everything belongs to a section. -/
def Entries.isDocument (entries : Entries) : Bool :=
  entries.distinct && entries.all fun entry => entry.2.isSection

mutual

/-- A value that is printed may be parsed as another one: a leaf as itself, a table as a table
with the entries that it kept, in some order. -/
inductive Value.ReadAs : Value → Value → Prop where
  | text {content : String} : Value.ReadAs (.text content) (.text content)
  | integer {number : Int} : Value.ReadAs (.integer number) (.integer number)
  | boolean {flag : Bool} : Value.ReadAs (.boolean flag) (.boolean flag)
  | array {items : List Value} (h : ∀ item ∈ items, item.text?.isSome = true) :
      Value.ReadAs (.array items) (.array items)
  | table {entries kept read : List (String × Value)} (h : Entries.KeptAs entries kept)
      (hperm : kept.Perm read) : Value.ReadAs (.table entries) (.table read)

/-- What a table keeps of its entries: all but those without a value. -/
inductive Entries.KeptAs : List (String × Value) → List (String × Value) → Prop where
  | nil : Entries.KeptAs [] []
  | absent {key : String} {entries kept : List (String × Value)}
      (h : Entries.KeptAs entries kept) : Entries.KeptAs ((key, .absent) :: entries) kept
  | entry {key : String} {v w : Value} {entries kept : List (String × Value)}
      (h : Value.ReadAs v w) (hrest : Entries.KeptAs entries kept) :
      Entries.KeptAs ((key, v) :: entries) ((key, w) :: kept)

end

/-! ## Libraries -/

/-- What a configuration calls of other libraries. -/
structure Libraries where
  /-- Prints a document, unless it holds something that cannot be written. -/
  print? : Entries → Option String
  /-- Parses the text of a document. -/
  parse? : String → Option Entries
  /-- Reads the text of a log level. -/
  level? : String → Option LogLevel

/-- Libraries that keep what they are documented to do, as far as a configuration relies on it.
Nothing is asked of texts that were not printed, nor of documents with negative numbers, floating
point numbers, arrays of anything but texts, or tables that nest any deeper. -/
structure Libraries.Faithful (libs : Libraries) : Prop where
  /-- A document is printed. -/
  prints : ∀ entries : Entries, entries.isDocument = true → ∃ text, libs.print? entries = some text
  /-- A printed document is parsed as the tables, texts, numbers, truth values and arrays that were
  printed. Optional values that are absent are left out. -/
  reads_back : ∀ (entries : Entries) (text : String), entries.isDocument = true →
    libs.print? entries = some text →
      ∃ read, libs.parse? text = some read ∧ (Value.table entries).ReadAs (.table read)
  /-- A level is read from its word in small letters. -/
  reads_levels : ∀ level : LogLevel, libs.level? level.word = some level

end PeerLink.Config
