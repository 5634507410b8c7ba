/-!
# ASCII letter case

Comparisons that ignore the case of the ASCII letters. Every other character stands for itself.
-/

set_option autoImplicit false

namespace PeerLink.Letters

/-- The characters of a text, its ASCII capitals made small. -/
def folded (text : String) : List Char := text.toList.map Char.toLower

/-- Whether two texts differ at most in the case of ASCII letters. -/
def sameIgnoringCase (s t : String) : Bool := folded s == folded t

theorem sameIgnoringCase_refl (s : String) : sameIgnoringCase s s = true := by
  simp [sameIgnoringCase]

theorem sameIgnoringCase_comm (s t : String) : sameIgnoringCase s t = sameIgnoringCase t s := by
  rw [Bool.eq_iff_iff, sameIgnoringCase, sameIgnoringCase, beq_iff_eq, beq_iff_eq]
  exact eq_comm

theorem sameIgnoringCase_trans {s t u : String} (h : sameIgnoringCase s t = true)
    (h' : sameIgnoringCase t u = true) : sameIgnoringCase s u = true := by
  rw [sameIgnoringCase, beq_iff_eq] at h h' ⊢
  exact h.trans h'

end PeerLink.Letters
