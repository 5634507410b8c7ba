/-!
# TOML values

The values of a TOML document. A table knows how it was opened, because that decides whether a
later line may add to it. Floating-point numbers are read and then forgotten.
-/

set_option autoImplicit false

namespace PeerLink.Toml

/-- How a table was opened. -/
inductive Origin where
  /-- By its own header. -/
  | header
  /-- On the way to the table of a longer header. -/
  | path
  /-- On the way to the last part of a dotted key. -/
  | dotted
  /-- In braces; nothing can be added. -/
  | inline
  deriving DecidableEq, Repr

/-- A value. -/
inductive Value where
  | text (content : String)
  | integer (number : Int)
  | float
  | boolean (flag : Bool)
  /-- A date, a time or both, in normal form. -/
  | dateTime (content : String)
  | array (items : List Value)
  | table (origin : Origin) (entries : List (String × Value))
  /-- The tables of one double-bracketed header, in order. -/
  | tables (items : List Value)
  deriving Repr

/-- The entries of a table, in order. -/
abbrev Entries := List (String × Value)

/-- A reader of the front of a text: the value and the rest, if the front has the right form. -/
abbrev Reader (α : Type) := List Char → Option (α × List Char)

end PeerLink.Toml
