import PeerLink.Toml.DateTime
import PeerLink.Toml.Document
import PeerLink.Toml.Number

/-!
# Reading TOML

From a text to its lines and from the lines to the table of the document. Values may nest fewer
than eighty deep, and a dotted key has fewer than eighty parts.
-/

set_option autoImplicit false

namespace PeerLink.Toml

/-- Arrays, tables in braces and dotted keys stay below this depth. -/
def depthLimit : Nat := 80

/-! ## Keys -/

/-- Whether a character may stand in a key without quotes. -/
def isBare (c : Char) : Bool := c.isAlphanum || c = '-' || c = '_'

/-- Reads one part of a key. -/
def readPart (cs : List Char) : Option (String × List Char) :=
  match readLine cs with
  | some (text, rest) => some (String.ofList text, rest)
  | none =>
      match cs.takeWhile isBare with
      | [] => none
      | bare => some (String.ofList bare, cs.dropWhile isBare)

/-- Reads the parts of a dotted key, blanks around them ignored. -/
def readParts (cs : List Char) : Option (List String × List Char) :=
  match readPart (skipBlanks cs) with
  | none => none
  | some (part, rest) =>
      match skipBlanks rest with
      | '.' :: rest =>
          if rest.length < cs.length then
            match readParts rest with
            | some (parts, rest) => some (part :: parts, rest)
            | none => none
          else none
      | rest => some ([part], rest)
termination_by cs.length

/-- Reads a key: the parts before the last one, and the last one. -/
def readKey (cs : List Char) : Option ((List String × String) × List Char) :=
  match readParts cs with
  | none => none
  | some (parts, rest) =>
      match parts.getLast? with
      | some key => if parts.length < depthLimit then some ((parts.dropLast, key), rest) else none
      | none => none

/-! ## Values -/

/-- Skips blanks, comments and line ends. A comment must end with a line end. -/
def skipLines (cs : List Char) : Option (List Char) :=
  let rest := skipBlanks cs
  match afterNewline? rest with
  | some next => if next.length < cs.length then skipLines next else none
  | none =>
      match rest with
      | '#' :: comment =>
          match afterNewline? (comment.dropWhile isVisible) with
          | some next => if next.length < cs.length then skipLines next else none
          | none => none
      | _ => some rest
termination_by cs.length

/-- Reads the items of an array and its closing bracket. -/
def readItems (value : Reader Value) (cs : List Char) : Option (List Value × List Char) :=
  match skipLines cs with
  | none => none
  | some (']' :: rest) => some ([], rest)
  | some start =>
      match value start with
      | none => none
      | some (item, rest) =>
          match skipLines rest with
          | some (',' :: rest) =>
              if rest.length < cs.length then
                match readItems value rest with
                | some (items, rest) => some (item :: items, rest)
                | none => none
              else none
          | some (']' :: rest) => some ([item], rest)
          | _ => none
termination_by cs.length

/-- Reads key, equals sign and value. -/
def readAssignment (value : Reader Value) (cs : List Char) :
    Option ((List String × String × Value) × List Char) :=
  match readKey cs with
  | some ((path, key), '=' :: rest) =>
      match value (skipBlanks rest) with
      | some (v, rest) => some ((path, key, v), rest)
      | none => none
  | _ => none

/-- Reads the pairs of a table in braces, of which there is at least one, and the closing brace. -/
def readAssignments (value : Reader Value) (cs : List Char) :
    Option (List (List String × String × Value) × List Char) :=
  match readAssignment value cs with
  | none => none
  | some (pair, rest) =>
      match skipBlanks rest with
      | ',' :: rest =>
          if rest.length < cs.length then
            match readAssignments value rest with
            | some (pairs, rest) => some (pair :: pairs, rest)
            | none => none
          else none
      | '\x7d' :: rest => some ([pair], rest)
      | _ => none
termination_by cs.length

/-- Reads the inside of a table in braces. -/
def readInline (value : Reader Value) (cs : List Char) : Option (Value × List Char) :=
  match skipBlanks cs with
  | '\x7d' :: rest => some (.table .inline [], rest)
  | _ =>
      match readAssignments value cs with
      | some (pairs, rest) =>
          (Entries.ofPairs? pairs).map fun entries => (.table .inline entries, rest)
      | none => none

/-- Reads a date, a time or a number. -/
def readNumeric (cs : List Char) : Option (Value × List Char) :=
  match readDateTime cs with
  | some found => some found
  | none => readNumber cs

/-- Reads a value that holds no others. -/
def readScalar (cs : List Char) : Option (Value × List Char) :=
  match cs with
  | 't' :: 'r' :: 'u' :: 'e' :: rest => some (.boolean true, rest)
  | 'f' :: 'a' :: 'l' :: 's' :: 'e' :: rest => some (.boolean false, rest)
  | c :: _ =>
      if c = quote ∨ c = apostrophe then
        (readText cs).map fun (text, rest) => (.text (String.ofList text), rest)
      else readNumeric cs
  | [] => none

/-- Reads a value in which others nest at most `depth` deep. -/
def readValue : Nat → Reader Value
  | 0, cs =>
      match cs with
      | '[' :: _ => none
      | '\x7b' :: _ => none
      | _ => readScalar cs
  | depth + 1, cs =>
      match cs with
      | '[' :: rest =>
          (readItems (readValue depth) rest).map fun (items, rest) => (.array items, rest)
      | '\x7b' :: rest => readInline (readValue depth) rest
      | _ => readScalar cs

/-! ## Lines -/

/-- Reads a header up to its closing brackets. -/
def readHeader (cs : List Char) : Option (Line × List Char) :=
  match cs with
  | '[' :: rest =>
      match readKey rest with
      | some ((path, key), ']' :: ']' :: rest) => some (.arrayHeader path key, rest)
      | _ => none
  | _ =>
      match readKey cs with
      | some ((path, key), ']' :: rest) => some (.header path key, rest)
      | _ => none

/-- Reads a header or a key-value pair. -/
def readStatement (cs : List Char) : Option (Line × List Char) :=
  match cs with
  | '[' :: rest => readHeader rest
  | _ =>
      match readAssignment (readValue (depthLimit - 1)) cs with
      | some ((path, key, value), rest) => some (.entry path key value, rest)
      | none => none

/-- Reads all lines. -/
def readLines (cs : List Char) : Option (List Line) :=
  match skipBlanks cs with
  | [] => some []
  | start =>
      -- a line without a statement, or a statement and the end of its line
      match afterLine? start with
      | some rest => if rest.length < cs.length then readLines rest else none
      | none =>
          match readStatement start with
          | none => none
          | some (line, rest) =>
              match afterLine? rest with
              | some rest =>
                  if rest.length < cs.length then
                    match readLines rest with
                    | some lines => some (line :: lines)
                    | none => none
                  else none
              | none => none
termination_by cs.length

/-- A text without a byte order mark at its front. -/
def skipMark : List Char → List Char
  | '\uFEFF' :: cs => cs
  | cs => cs

/-- The table of a document. -/
def parse? (text : String) : Option Entries :=
  match readLines (skipMark text.toList) with
  | some lines => Document.ofLines? lines
  | none => none

end PeerLink.Toml
