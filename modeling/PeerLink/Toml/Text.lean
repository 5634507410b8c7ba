import PeerLink.Toml.Value
import PeerLink.Text.Numeral

/-!
# TOML texts

Blanks, line ends and comments, and the four kinds of quoted texts: with escapes or without, on one
line or on several. A text on several lines loses a line end right after its opening quotes, and
every line end in it is read as a line feed.
-/

set_option autoImplicit false

namespace PeerLink.Toml

/-- The quotation mark. -/
def quote : Char := '"'

/-- The apostrophe. -/
def apostrophe : Char := Char.ofNat 39

/-- A space or a tab. -/
def isBlank (c : Char) : Bool := c = ' ' || c = '\t'

/-- Skips spaces and tabs. -/
def skipBlanks (cs : List Char) : List Char := cs.dropWhile isBlank

/-- Whether a character is neither a control character nor beyond ASCII; a tab counts. -/
def isVisible (c : Char) : Bool := c = '\t' || (0x20 ≤ c.toNat && c.toNat ≠ 0x7F)

/-- What follows a line end: a line feed, perhaps after a carriage return. -/
def afterNewline? : List Char → Option (List Char)
  | '\n' :: cs => some cs
  | '\r' :: '\n' :: cs => some cs
  | _ => none

/-- Skips a comment up to its line end. -/
def skipComment : List Char → List Char
  | '#' :: cs => cs.dropWhile isVisible
  | cs => cs

/-- What follows the end of a line, which may hold blanks and a comment; the end of the text ends
the last line. -/
def afterLine? (cs : List Char) : Option (List Char) :=
  match skipComment (skipBlanks cs) with
  | [] => some []
  | rest => afterNewline? rest

/-! ## Escapes -/

/-- The character of a one-letter escape. -/
def escaped? : Char → Option Char
  | 'b' => some '\x08'
  | 't' => some '\t'
  | 'n' => some '\n'
  | 'f' => some '\x0c'
  | 'r' => some '\r'
  | '"' => some '"'
  | '\\' => some '\\'
  | _ => none

/-- The character with a hexadecimal number, which must be a scalar value. -/
def scalar? (digits : List Char) : Option Char :=
  match Numeral.readHexFrom? 0 digits with
  | some n => if n.isValidChar then some (Char.ofNat n) else none
  | none => none

/-- Puts a character before the text that a reader found. -/
def prepend (c : Char) : Option (List Char × List Char) → Option (List Char × List Char)
  | some (text, rest) => some (c :: text, rest)
  | none => none

/-! ## One line -/

/-- Reads the inside of a text with escapes on one line, and its closing quote. -/
def readBasic : Reader (List Char)
  | [] => none
  | '"' :: rest => some ([], rest)
  | '\\' :: 'u' :: a :: b :: c :: d :: rest =>
      match scalar? [a, b, c, d] with
      | some x => prepend x (readBasic rest)
      | none => none
  | '\\' :: 'U' :: a :: b :: c :: d :: e :: f :: g :: h :: rest =>
      match scalar? [a, b, c, d, e, f, g, h] with
      | some x => prepend x (readBasic rest)
      | none => none
  | '\\' :: c :: rest =>
      match escaped? c with
      | some x => prepend x (readBasic rest)
      | none => none
  | c :: rest => if isVisible c && c ≠ '\\' then prepend c (readBasic rest) else none

/-- Reads the inside of a text without escapes on one line, and its closing apostrophe. -/
def readLiteral : Reader (List Char)
  | [] => none
  | c :: rest =>
      if c = apostrophe then some ([], rest)
      else if isVisible c then prepend c (readLiteral rest)
      else none

/-! ## Several lines -/

/-- The text at the end of a run of closing marks: up to two of them belong to the text. -/
def closing? (mark : Char) (cs : List Char) : Option (List Char × List Char) :=
  let run := (cs.takeWhile (· = mark)).length
  if run < 3 then none
  else
    let extra := min (run - 3) 2
    some (List.replicate extra mark, cs.drop (extra + 3))

/-- What a backslash at the end of a line has led to: nothing, the search for that line end, or the
skipping of blanks and line ends after it. -/
inductive Folding where
  | off
  | seeking
  | skipping
  deriving DecidableEq, Repr

/-- Reads the inside of a text with escapes on several lines, and its closing quotes. -/
def readBasicLines (mode : Folding) : Reader (List Char)
  | [] => none
  | c :: rest =>
      -- after a folding backslash only blanks may come before the line end
      if mode ≠ .off ∧ isBlank c then readBasicLines mode rest
      else if c = '\n' then
        if mode = .off then prepend '\n' (readBasicLines .off rest)
        else readBasicLines .skipping rest
      else if c = '\r' then
        if rest.head? = some '\n' then readBasicLines mode rest else none
      else if mode = .seeking then none
      else
        match closing? quote (c :: rest) with
        | some found => some found
        | none =>
            if c = '\\' then
              match rest with
              | 'u' :: a :: b :: c :: d :: rest =>
                  match scalar? [a, b, c, d] with
                  | some x => prepend x (readBasicLines .off rest)
                  | none => none
              | 'U' :: a :: b :: c :: d :: e :: f :: g :: h :: rest =>
                  match scalar? [a, b, c, d, e, f, g, h] with
                  | some x => prepend x (readBasicLines .off rest)
                  | none => none
              | c :: after =>
                  match escaped? c with
                  | some x => prepend x (readBasicLines .off after)
                  | none => readBasicLines .seeking (c :: after)
              | [] => none
            else if isVisible c then prepend c (readBasicLines .off rest)
            else none
termination_by cs => cs.length
decreasing_by all_goals (simp_all <;> omega)

/-- Reads the inside of a text without escapes on several lines, and its closing apostrophes. -/
def readLiteralLines : Reader (List Char)
  | [] => none
  | c :: rest =>
      match closing? apostrophe (c :: rest) with
      | some found => some found
      | none =>
          if c = '\r' then
            if rest.head? = some '\n' then readLiteralLines rest else none
          else if c = '\n' ∨ isVisible c then prepend c (readLiteralLines rest)
          else none

/-- A text on several lines without the line end after its opening marks. -/
def skipFirstNewline (cs : List Char) : List Char := (afterNewline? cs).getD cs

/-- Reads a quoted text on one line. -/
def readLine : Reader (List Char)
  | c :: rest =>
      if c = quote then readBasic rest
      else if c = apostrophe then readLiteral rest
      else none
  | [] => none

/-- Reads a quoted text of any kind. -/
def readText : Reader (List Char)
  | a :: b :: c :: rest =>
      if a = quote ∧ b = quote ∧ c = quote then readBasicLines .off (skipFirstNewline rest)
      else if a = apostrophe ∧ b = apostrophe ∧ c = apostrophe then
        readLiteralLines (skipFirstNewline rest)
      else readLine (a :: b :: c :: rest)
  | cs => readLine cs

end PeerLink.Toml
