/-!
# Byte strings

Everything that travels between two peers is a list of bytes. A length field is a 32-bit word
whose most significant byte comes first; `Bytes.readWord?_ofWord` says that a reader recovers every
length below `2 ^ 32`.
-/

set_option autoImplicit false

namespace PeerLink

/-- A byte string. -/
abbrev Bytes := List UInt8

namespace Bytes

/-- Lengths that fit a 32-bit length field are those below this bound. -/
def wordLimit : Nat := 4294967296

/-- The four bytes of a length field, most significant first. -/
def ofWord (n : Nat) : Bytes :=
  [UInt8.ofNat (n / 16777216), UInt8.ofNat (n / 65536), UInt8.ofNat (n / 256), UInt8.ofNat n]

/-- The number written in four bytes, most significant first. -/
def toWord (a b c d : UInt8) : Nat :=
  a.toNat * 16777216 + b.toNat * 65536 + c.toNat * 256 + d.toNat

/-- A length field and what follows it, when four bytes are there. -/
def readWord? : Bytes → Option (Nat × Bytes)
  | a :: b :: c :: d :: rest => some (toWord a b c d, rest)
  | _ => none

/-- The first `n` bytes and the rest, when `n` bytes are there. -/
def takeExact? : Nat → Bytes → Option (Bytes × Bytes)
  | 0, data => some ([], data)
  | _ + 1, [] => none
  | n + 1, b :: data =>
      match takeExact? n data with
      | some (front, rest) => some (b :: front, rest)
      | none => none

/-- What follows `front` in bytes that begin with it. -/
def after? : Bytes → Bytes → Option Bytes
  | [], data => some data
  | _ :: _, [] => none
  | a :: front, b :: data => if a = b then after? front data else none

@[simp] theorem length_ofWord (n : Nat) : (ofWord n).length = 4 := rfl

theorem readWord?_ofWord {n : Nat} (h : n < wordLimit) (rest : Bytes) :
    readWord? (ofWord n ++ rest) = some (n, rest) := by
  unfold wordLimit at h
  simp only [ofWord, List.cons_append, List.nil_append, readWord?, toWord, UInt8.toNat_ofNat',
    Option.some.injEq, Prod.mk.injEq, and_true]
  omega

theorem takeExact?_append (front rest : Bytes) :
    takeExact? front.length (front ++ rest) = some (front, rest) := by
  induction front with
  | nil => rfl
  | cons b front ih => simp [takeExact?, ih]

theorem takeExact?_eq_some {n : Nat} {data front rest : Bytes}
    (h : takeExact? n data = some (front, rest)) : data = front ++ rest ∧ front.length = n := by
  induction n generalizing data front with
  | zero =>
      obtain ⟨rfl, rfl⟩ := Prod.mk.inj (Option.some.inj h)
      exact ⟨rfl, rfl⟩
  | succ n ih =>
      cases data with
      | nil => cases h
      | cons b data =>
          simp only [takeExact?] at h
          split at h
          · next front' rest' hrec =>
            obtain ⟨rfl, rfl⟩ := Prod.mk.inj (Option.some.inj h)
            obtain ⟨rfl, rfl⟩ := ih hrec
            exact ⟨rfl, rfl⟩
          · cases h

theorem after?_eq_some_iff {front data rest : Bytes} :
    after? front data = some rest ↔ data = front ++ rest := by
  induction front generalizing data with
  | nil => simp [after?]
  | cons a front ih =>
      cases data with
      | nil => simp [after?]
      | cons b data =>
          by_cases h : a = b
          · simp [after?, h, ih]
          · simp [after?, h, Ne.symm h]

theorem readWord?_length {n : Nat} {data rest : Bytes} (h : readWord? data = some (n, rest)) :
    data.length = rest.length + 4 := by
  unfold readWord? at h
  split at h
  · obtain ⟨-, rfl⟩ := Prod.mk.inj (Option.some.inj h)
    rfl
  · cases h

end Bytes

end PeerLink
