import PeerLink.Toml.Text

/-!
# TOML numbers

Integers in four bases, which must fit 64 bits, and floating-point numbers, of which only the form
and the overflow are checked. An underscore may stand between two digits.
-/

set_option autoImplicit false

namespace PeerLink.Toml

/-- Reads further digits; an underscore must be followed by one. -/
def readMoreDigits (isDigit : Char → Bool) : Reader (List Char)
  | [] => some ([], [])
  | '_' :: c :: cs => if isDigit c then prepend c (readMoreDigits isDigit cs) else none
  | c :: cs =>
      if isDigit c then prepend c (readMoreDigits isDigit cs)
      else if c = '_' then none
      else some ([], c :: cs)

/-- Reads one or more digits. -/
def readDigits (isDigit : Char → Bool) : Reader (List Char)
  | [] => none
  | c :: cs => if isDigit c then prepend c (readMoreDigits isDigit cs) else none

/-- Reads the digits of a decimal integer, which has no leading zero. -/
def readWhole : Reader (List Char)
  | '0' :: cs => some (['0'], cs)
  | cs => readDigits Char.isDigit cs

/-- An optional sign: whether it is a minus, and the rest. -/
def readSign : List Char → Bool × List Char
  | '+' :: cs => (false, cs)
  | '-' :: cs => (true, cs)
  | cs => (false, cs)

/-- A signed number that fits 64 bits. -/
def signed? (negative : Bool) (n : Nat) : Option Int :=
  if negative then if n ≤ 9223372036854775808 then some (-(n : Int)) else none
  else if n ≤ 9223372036854775807 then some n else none

/-- The least number that a double rounds to infinity. -/
def overflowBound : Nat := Nat.pow 2 1024 - Nat.pow 2 970

/-- Whether `m · 10 ^ e` overflows a double. -/
def overflows (m : Nat) (e : Int) : Bool :=
  let size : Int := (Nat.toDigits 10 m).length + e
  -- far from the bound the number of digits decides, and no power is computed
  if m = 0 ∨ size < 300 then false
  else if 320 < size then true
  else if 0 ≤ e then overflowBound ≤ m * Nat.pow 10 e.toNat
  else overflowBound * Nat.pow 10 (-e).toNat ≤ m

/-- Reads the exponent of a floating-point number, if there is one. -/
def readExponent (cs : List Char) : Option (Int × List Char) :=
  match cs with
  | c :: rest =>
      if c = 'e' ∨ c = 'E' then
        let (negative, digits) := readSign rest
        match readDigits Char.isDigit digits with
        | some (ds, rest) =>
            let n : Int := Nat.ofDigitChars 10 ds 0
            some (if negative then -n else n, rest)
        | none => none
      else some (0, cs)
  | [] => some (0, [])

/-- Reads what makes a number a floating-point number: a fraction, an exponent or both. -/
def readFraction : Reader (List Char × Int)
  | '.' :: cs =>
      match readDigits Char.isDigit cs with
      | some (ds, rest) =>
          match readExponent rest with
          | some (e, rest) => some ((ds, e), rest)
          | none => none
      | none => none
  | cs =>
      match readExponent cs with
      | some (e, rest) => some (([], e), rest)
      | none => none

/-- Whether a text goes on with a fraction or an exponent. -/
def goesOnAsFloat : List Char → Bool
  | c :: _ => c = '.' || c = 'e' || c = 'E'
  | [] => false

/-- Reads a decimal number. A positive number too large for a double is refused. -/
def readDecimal (cs : List Char) : Option (Value × List Char) :=
  let (negative, unsigned) := readSign cs
  match readWhole unsigned with
  | none => none
  | some (whole, rest) =>
      if goesOnAsFloat rest then
        match readFraction rest with
        | some ((fraction, e), rest) =>
            let m := Nat.ofDigitChars 10 (whole ++ fraction) 0
            if negative = false ∧ overflows m (e - fraction.length) then none
            else some (.float, rest)
        | none => none
      else
        match signed? negative (Nat.ofDigitChars 10 whole 0) with
        | some n => some (.integer n, rest)
        | none => none

/-- Reads the digits of an integer in another base. -/
def readInBase (base : Nat) (cs : List Char) : Option (Value × List Char) :=
  let value (c : Char) : Option Nat := (Numeral.hexValue? c).filter (· < base)
  match readDigits (fun c => (value c).isSome) cs with
  | some (ds, rest) =>
      let n := ds.foldl (fun n c => n * base + (value c).getD 0) 0
      (signed? false n).map fun i => (.integer i, rest)
  | none => none

/-- Reads a number of any kind. -/
def readNumber (cs : List Char) : Option (Value × List Char) :=
  match (readSign cs).2 with
  | 'i' :: 'n' :: 'f' :: rest => some (.float, rest)
  | 'n' :: 'a' :: 'n' :: rest => some (.float, rest)
  | _ =>
      match cs with
      | '0' :: 'x' :: rest => readInBase 16 rest
      | '0' :: 'o' :: rest => readInBase 8 rest
      | '0' :: 'b' :: rest => readInBase 2 rest
      | _ => readDecimal cs

end PeerLink.Toml
