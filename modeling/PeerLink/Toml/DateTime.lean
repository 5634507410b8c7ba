import PeerLink.Toml.Text

/-!
# TOML dates and times

A date, a time, or both with an optional offset. Readers return the normal form: `T` between date
and time, at most nine digits of a second without trailing zeros, `Z` for Greenwich.
-/

set_option autoImplicit false

namespace PeerLink.Toml

/-- Reads two digits: the number and the digits. -/
def readPair : Reader (Nat × List Char)
  | a :: b :: cs =>
      if a.isDigit ∧ b.isDigit then some ((Nat.ofDigitChars 10 [a, b] 0, [a, b]), cs) else none
  | _ => none

/-- Reads four digits: the number and the digits. -/
def readYear : Reader (Nat × List Char)
  | a :: b :: c :: d :: cs =>
      if [a, b, c, d].all Char.isDigit then
        some ((Nat.ofDigitChars 10 [a, b, c, d] 0, [a, b, c, d]), cs)
      else none
  | _ => none

/-- Whether a year has a 29th of February. -/
def isLeapYear (year : Nat) : Bool := year % 4 = 0 && (year % 100 ≠ 0 || year % 400 = 0)

/-- The number of days of a month. -/
def daysOf (year month : Nat) : Nat :=
  if month = 2 then if isLeapYear year then 29 else 28
  else if month = 4 ∨ month = 6 ∨ month = 9 ∨ month = 11 then 30
  else 31

/-- Reads a date. -/
def readDate (cs : List Char) : Option (List Char × List Char) := do
  let ((year, yearDigits), cs) ← readYear cs
  let '-' :: cs := cs | none
  let ((month, monthDigits), cs) ← readPair cs
  let '-' :: cs := cs | none
  let ((day, dayDigits), cs) ← readPair cs
  if 1 ≤ month ∧ month ≤ 12 ∧ 1 ≤ day ∧ day ≤ daysOf year month then
    return (yearDigits ++ '-' :: monthDigits ++ '-' :: dayDigits, cs)
  else none

/-- The fraction of a second with at most nine digits and no trailing zeros. -/
def fractionText (digits : List Char) : List Char :=
  match ((digits.take 9).reverse.dropWhile (· = '0')).reverse with
  | [] => []
  | kept => '.' :: kept

/-- Reads the fraction of a second, if there is one. -/
def readSecondFraction : List Char → List Char × List Char
  | '.' :: c :: cs =>
      if c.isDigit then
        (fractionText (c :: cs.takeWhile Char.isDigit), cs.dropWhile Char.isDigit)
      else ([], '.' :: c :: cs)
  | cs => ([], cs)

/-- Reads a time of day. -/
def readTime (cs : List Char) : Option (List Char × List Char) := do
  let ((hour, hourDigits), cs) ← readPair cs
  let ':' :: cs := cs | none
  let ((minute, minuteDigits), cs) ← readPair cs
  let ':' :: cs := cs | none
  let ((second, secondDigits), cs) ← readPair cs
  let (fraction, cs) := readSecondFraction cs
  if hour ≤ 23 ∧ minute ≤ 59 ∧ second ≤ 60 then
    return (hourDigits ++ ':' :: minuteDigits ++ ':' :: secondDigits ++ fraction, cs)
  else none

/-- Reads the hours and minutes of an offset after its sign. -/
def readOffsetAfter (sign : Char) (cs : List Char) : Option (List Char × List Char) := do
  let ((hour, hourDigits), cs) ← readPair cs
  let ':' :: cs := cs | none
  let ((minute, minuteDigits), cs) ← readPair cs
  if hour ≤ 23 ∧ minute ≤ 59 then
    let sign := if hour = 0 ∧ minute = 0 then '+' else sign
    return (sign :: hourDigits ++ ':' :: minuteDigits, cs)
  else none

/-- Reads an offset, if there is one. -/
def readOffset : Reader (List Char)
  | 'Z' :: cs => some (['Z'], cs)
  | 'z' :: cs => some (['Z'], cs)
  | '+' :: cs => readOffsetAfter '+' cs
  | '-' :: cs => readOffsetAfter '-' cs
  | cs => some ([], cs)

/-- Reads the time after a date, with its offset. -/
def readTimeAfterDate : Reader (List Char)
  | c :: cs =>
      if c = 'T' ∨ c = 't' ∨ c = ' ' then do
        let (time, cs) ← readTime cs
        let (offset, cs) ← readOffset cs
        return ('T' :: time ++ offset, cs)
      else none
  | [] => none

/-- Reads a date with or without a time, or a time. -/
def readDateTime (cs : List Char) : Option (Value × List Char) :=
  match readDate cs with
  | some (date, rest) =>
      match readTimeAfterDate rest with
      | some (time, rest) => some (.dateTime (String.ofList (date ++ time)), rest)
      | none => some (.dateTime (String.ofList date), rest)
  | none => (readTime cs).map fun (time, rest) => (.dateTime (String.ofList time), rest)

end PeerLink.Toml
