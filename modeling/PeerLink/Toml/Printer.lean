import PeerLink.Toml.Reader

/-!
# Writing TOML

A document is written as sections, each a header and its key-value lines, with one blank line
between sections. A text takes the first kind of quotes that needs no escape; only a text that no
kind can hold is escaped.
-/

set_option autoImplicit false

namespace PeerLink.Toml

/-! ## Texts -/

/-- Whether a character cannot stand in any text as it is. Tabs and line feeds can stand in some. -/
def isControl (c : Char) : Bool :=
  (c.toNat < 0x20 && c ≠ '\t' && c ≠ '\n') || c.toNat = 0x7F

/-- Whether three marks stand in a row. -/
def hasTriple (mark : Char) (cs : List Char) : Bool :=
  match cs with
  | a :: b :: c :: rest => (a = mark && b = mark && c = mark) || hasTriple mark (b :: c :: rest)
  | _ => false

/-- Four uppercase hexadecimal digits. -/
def fourDigits (n : Nat) : List Char :=
  let digits := (Numeral.hexChars n).map Char.toUpper
  List.replicate (4 - digits.length) '0' ++ digits

/-- The escape of a character that needs one wherever escapes are read. -/
def escapeOf? (c : Char) : Option (List Char) :=
  if c = '\x08' then some ['\\', 'b']
  else if c = '\t' then some ['\\', 't']
  else if c = '\x0c' then some ['\\', 'f']
  else if c = '\r' then some ['\\', 'r']
  else if c = '\\' then some ['\\', '\\']
  else if isControl c then some ('\\' :: 'u' :: fourDigits c.toNat)
  else none

/-- A text with escapes on one line. -/
def escapeLine : List Char → List Char
  | [] => []
  | c :: cs =>
      if c = '\n' then '\\' :: 'n' :: escapeLine cs
      else if c = quote then '\\' :: quote :: escapeLine cs
      else
        match escapeOf? c with
        | some escape => escape ++ escapeLine cs
        | none => c :: escapeLine cs

/-- A text with escapes on several lines; `run` quotes stand right before it. Of quotes in a row
each third one is escaped. -/
def escapeLines (run : Nat) : List Char → List Char
  | [] => []
  | c :: cs =>
      if c = quote then
        -- a third quote in a row would close the text
        if run < 2 then quote :: escapeLines (run + 1) cs
        else '\\' :: quote :: escapeLines 0 cs
      else
        match escapeOf? c with
        | some escape => escape ++ escapeLines 0 cs
        | none => c :: escapeLines 0 cs

/-- The line end after the opening marks of a text that holds line ends. -/
def openingNewline (cs : List Char) : List Char := if '\n' ∈ cs then ['\n'] else []

/-- A text between quotes, on one line. -/
def basicText (cs : List Char) : List Char := quote :: escapeLine cs ++ [quote]

/-- A text between apostrophes, on one line. -/
def literalText (cs : List Char) : List Char := apostrophe :: cs ++ [apostrophe]

/-- A text between triple quotes. -/
def basicLines (cs : List Char) : List Char :=
  [quote, quote, quote] ++ openingNewline cs ++ escapeLines 0 cs ++ [quote, quote, quote]

/-- A text between triple apostrophes. -/
def literalLines (cs : List Char) : List Char :=
  [apostrophe, apostrophe, apostrophe] ++ openingNewline cs ++ cs ++
    [apostrophe, apostrophe, apostrophe]

/-- A text value. -/
def renderText (cs : List Char) : List Char :=
  let controls := cs.any isControl
  let lines := decide ('\n' ∈ cs)
  if !controls && !lines && '\\' ∉ cs && quote ∉ cs then basicText cs
  else if !controls && !lines && apostrophe ∉ cs then literalText cs
  else if !controls && '\\' ∉ cs && !hasTriple quote cs then basicLines cs
  else if !controls && !hasTriple apostrophe cs then literalLines cs
  else if lines then basicLines cs
  else basicText cs

/-- A key: bare where possible, or quoted on one line. -/
def renderKey (cs : List Char) : List Char :=
  let controls := cs.any fun c => isControl c || c = '\n'
  if cs ≠ [] ∧ cs.all isBare then cs
  else if !controls && '\\' ∉ cs && quote ∉ cs then basicText cs
  else if !controls && apostrophe ∉ cs then literalText cs
  else basicText cs

/-! ## Documents -/

/-- A value that a section can hold. -/
inductive Item where
  | text (content : String)
  | number (n : Nat)
  | flag (b : Bool)
  | texts (contents : List String)
  deriving DecidableEq, Repr

/-- A header with its key-value lines. -/
structure Table where
  path : List String
  entries : List (String × Item)
  deriving DecidableEq, Repr

/-- The items of a list on lines of their own. -/
def renderItems : List String → List Char
  | [] => []
  | item :: items =>
      ' ' :: ' ' :: ' ' :: ' ' :: renderText item.toList ++ ',' :: '\n' :: renderItems items

/-- A value. A list with more than one item takes a line for each. -/
def renderItem : Item → List Char
  | .text content => renderText content.toList
  | .number n => Numeral.decimalChars n
  | .flag true => ['t', 'r', 'u', 'e']
  | .flag false => ['f', 'a', 'l', 's', 'e']
  | .texts [] => ['[', ']']
  | .texts [content] => '[' :: renderText content.toList ++ [']']
  | .texts contents => '[' :: '\n' :: renderItems contents ++ [']']

/-- Key-value lines. -/
def renderEntries : List (String × Item) → List Char
  | [] => []
  | (key, item) :: entries =>
      renderKey key.toList ++ ' ' :: '=' :: ' ' :: renderItem item ++ '\n' :: renderEntries entries

/-- The keys of a path between dots. -/
def renderPath : List String → List Char
  | [] => []
  | [key] => renderKey key.toList
  | key :: path => renderKey key.toList ++ '.' :: renderPath path

/-- A section. -/
def renderTable (t : Table) : List Char :=
  '[' :: renderPath t.path ++ ']' :: '\n' :: renderEntries t.entries

/-- Sections with a blank line between them. -/
def renderTables : List Table → List Char
  | [] => []
  | [t] => renderTable t
  | t :: ts => renderTable t ++ '\n' :: renderTables ts

end PeerLink.Toml
