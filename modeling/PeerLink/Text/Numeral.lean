/-!
# Numerals

Unsigned decimal numerals: one optional `+`, then at least one ASCII digit. Leading zeros are
allowed, blanks and separators are not. `readNat?_decimalChars` says that a printed number reads
back, and `readHexFrom?_hexChars` says it of hexadecimal digits.
-/

set_option autoImplicit false

namespace PeerLink.Numeral

/-- The decimal digits of a number, without leading zeros. -/
def decimalChars (n : Nat) : List Char := Nat.toDigits 10 n

/-- The decimal text of a number. -/
def decimal (n : Nat) : String := String.ofList (decimalChars n)

/-- The lowercase hexadecimal digits of a number, without leading zeros. -/
def hexChars (n : Nat) : List Char := Nat.toDigits 16 n

/-- The number that a non-empty run of ASCII digits writes. -/
def readDigits? (cs : List Char) : Option Nat :=
  if cs.isEmpty then none
  else if cs.all Char.isDigit then some (Nat.ofDigitChars 10 cs 0) else none

/-- The number that a numeral writes. -/
def readNat? : List Char → Option Nat
  | '+' :: cs => readDigits? cs
  | cs => readDigits? cs

/-- The number that a numeral writes, if it is below `limit`. -/
def readBelow? (limit : Nat) (cs : List Char) : Option Nat :=
  (readNat? cs).filter (· < limit)

/-- A numeral for an 8-bit word. -/
def readUInt8? (cs : List Char) : Option UInt8 := (readBelow? UInt8.size cs).map UInt8.ofNat

/-- A numeral for a 16-bit word. -/
def readUInt16? (cs : List Char) : Option UInt16 := (readBelow? UInt16.size cs).map UInt16.ofNat

/-- A numeral for a 32-bit word. -/
def readUInt32? (cs : List Char) : Option UInt32 := (readBelow? UInt32.size cs).map UInt32.ofNat

/-- The value of a hexadecimal digit in either case. -/
def hexValue? (c : Char) : Option Nat :=
  if '0' ≤ c ∧ c ≤ '9' then some (c.toNat - 48)
  else if 'a' ≤ c ∧ c ≤ 'f' then some (c.toNat - 87)
  else if 'A' ≤ c ∧ c ≤ 'F' then some (c.toNat - 55)
  else none

/-- The number that hexadecimal digits write after a number already read. -/
def readHexFrom? (value : Nat) : List Char → Option Nat
  | [] => some value
  | c :: cs =>
      match hexValue? c with
      | some digit => readHexFrom? (value * 16 + digit) cs
      | none => none

theorem decimalChars_ne_nil (n : Nat) : decimalChars n ≠ [] := by
  unfold decimalChars
  rw [Nat.toDigits_eq_if (by decide)]
  split <;> simp

theorem isDigit_of_mem_decimalChars {n : Nat} {c : Char} (h : c ∈ decimalChars n) :
    c.isDigit = true :=
  Nat.isDigit_of_mem_toDigits (by decide) (by decide) h

theorem readDigits?_decimalChars (n : Nat) : readDigits? (decimalChars n) = some n := by
  have hall : (decimalChars n).all Char.isDigit = true :=
    List.all_eq_true.2 fun _ hc => isDigit_of_mem_decimalChars hc
  have hne : (decimalChars n).isEmpty = false := by
    simp [decimalChars_ne_nil n]
  rw [readDigits?, hne, hall]
  simp [decimalChars, Nat.ofDigitChars_toDigits]

theorem readNat?_decimalChars (n : Nat) : readNat? (decimalChars n) = some n := by
  have h := readDigits?_decimalChars n
  unfold readNat?
  split
  · next cs heq =>
    have hp := isDigit_of_mem_decimalChars (n := n) (c := '+') (by rw [heq]; simp)
    exact absurd hp (by decide)
  · exact h

theorem readHexFrom?_append (value : Nat) (cs rest : List Char) :
    readHexFrom? value (cs ++ rest) = (readHexFrom? value cs).bind (readHexFrom? · rest) := by
  induction cs generalizing value with
  | nil => rfl
  | cons c cs ih =>
      rw [List.cons_append, readHexFrom?, readHexFrom?]
      cases hexValue? c with
      | none => rfl
      | some digit => exact ih _

theorem hexValue?_digitChar {d : Nat} (h : d < 16) : hexValue? d.digitChar = some d := by
  revert d
  decide

theorem readHexFrom?_hexChars (n : Nat) : readHexFrom? 0 (hexChars n) = some n := by
  induction n using Nat.strongRecOn with
  | _ n ih =>
      unfold hexChars
      rw [Nat.toDigits_eq_if (by decide)]
      split
      · next hn => simp [readHexFrom?, hexValue?_digitChar hn]
      · next hn =>
        -- the last digit is read after the number that the others write
        have hrest := ih (n / 16) (by omega)
        have hlast : n % 16 < 16 := Nat.mod_lt _ (by decide)
        rw [hexChars] at hrest
        rw [readHexFrom?_append, hrest, Option.bind_some, readHexFrom?, hexValue?_digitChar hlast]
        exact congrArg some (Nat.div_add_mod' n 16)

end PeerLink.Numeral
