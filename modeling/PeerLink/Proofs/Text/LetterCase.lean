import Mathlib.Data.List.Forall2
import PeerLink.Text.Letters

/-!
# The same text in another case

Two texts are alike if they have the same characters one by one, but for the case of the ASCII
letters (`Letters.Alike`). This is what the comparison of folded texts decides
(`Letters.sameIgnoringCase_iff`); no other character has a case.
-/

set_option autoImplicit false

namespace PeerLink.Letters

/-- The same character, or one ASCII letter in both cases. -/
inductive SameLetter : Char → Char → Prop
  | refl (c : Char) : SameLetter c c
  | small {c d : Char} : c.isUpper = true → d.toNat = c.toNat + 32 → SameLetter c d
  | capital {c d : Char} : d.isUpper = true → c.toNat = d.toNat + 32 → SameLetter c d

/-- Texts that differ at most in the case of ASCII letters. -/
def Alike (s t : String) : Prop := List.Forall₂ SameLetter s.toList t.toList

/-- The capitals of ASCII are the characters from 65 to 90. -/
theorem isUpper_iff (c : Char) : c.isUpper = true ↔ 65 ≤ c.toNat ∧ c.toNat ≤ 90 := by
  have hvalue : c.isUpper = true ↔ 'A'.val ≤ c.val ∧ c.val ≤ 'Z'.val := decide_eq_true_iff
  rw [hvalue, UInt32.le_iff_toNat_le, UInt32.le_iff_toNat_le]
  exact Iff.rfl

/-- A small letter stands 32 places behind its capital. -/
theorem toNat_toLower (c : Char) :
    c.toLower.toNat = if c.isUpper then c.toNat + 32 else c.toNat := by
  by_cases h : c.val ≥ 'A'.val ∧ c.val ≤ 'Z'.val
  · have hupper : c.isUpper = true := decide_eq_true h
    have hbound := ((isUpper_iff c).1 hupper).2
    have hstep : ('a'.val - 'A'.val).toNat = 32 := rfl
    have hlower : c.toLower.val = c.val + ('a'.val - 'A'.val) := congrArg Char.val (dif_pos h)
    rw [if_pos hupper]
    change c.toLower.val.toNat = c.val.toNat + 32
    change c.val.toNat ≤ 90 at hbound
    rw [hlower, UInt32.toNat_add, hstep]
    omega
  · have hupper : ¬ c.isUpper = true := fun hupper => h (of_decide_eq_true hupper)
    have hlower : c.toLower = c := dif_neg h
    rw [hlower, if_neg hupper]

/-- A capital and the character 32 places behind it, which is no capital, have one small letter. -/
theorem toLower_eq_of_isUpper {c d : Char} (hc : c.isUpper = true)
    (hd : d.toNat = c.toNat + 32) : c.toLower = d.toLower := by
  have hbounds := (isUpper_iff c).1 hc
  have hother : ¬ d.isUpper = true := by
    rw [isUpper_iff]
    omega
  rw [← Char.toNat_inj, toNat_toLower, toNat_toLower, if_pos hc, if_neg hother, hd]

theorem toLower_eq_iff (c d : Char) : c.toLower = d.toLower ↔ SameLetter c d := by
  constructor
  · intro h
    have hvalue := congrArg Char.toNat h
    rw [toNat_toLower, toNat_toLower] at hvalue
    split at hvalue
    · next hc =>
      split at hvalue
      · exact Char.toNat_inj.1 (Nat.add_right_cancel hvalue) ▸ .refl c
      · exact .small hc hvalue.symm
    · split at hvalue
      · next hd => exact .capital hd hvalue
      · exact Char.toNat_inj.1 hvalue ▸ .refl c
  · intro h
    cases h with
    | refl => rfl
    | small hc hd => exact toLower_eq_of_isUpper hc hd
    | capital hd hc => exact (toLower_eq_of_isUpper hd hc).symm

/-- Folded texts are equal exactly if the texts are alike. -/
theorem sameIgnoringCase_iff {s t : String} : sameIgnoringCase s t = true ↔ Alike s t := by
  rw [sameIgnoringCase, beq_iff_eq, folded, folded, Alike, ← List.forall₂_eq_eq_eq,
    List.forall₂_map_left_iff, List.forall₂_map_right_iff]
  simp only [toLower_eq_iff]

theorem sameIgnoringCase_eq_false_iff {s t : String} :
    sameIgnoringCase s t = false ↔ ¬ Alike s t := by
  rw [← sameIgnoringCase_iff, Bool.not_eq_true]

end PeerLink.Letters
