import Mathlib.Tactic.SplitIfs
import PeerLink.Text.Utf8

/-!
# What the lossy reading says of the bytes

A text of ASCII characters other than NUL is read from no bytes but its own
(`Utf8.eq_encode_of_lossy`): an unreadable part leaves U+FFFD in the text, and a character of
several bytes is not an ASCII character.
-/

set_option autoImplicit false

namespace PeerLink.Utf8

/-- The bytes of a text are those of its characters. -/
theorem encode_eq_flatMap (text : String) :
    encode text = text.toList.flatMap String.utf8EncodeChar := by
  rw [encode, ← String.utf8Encode_toList, List.utf8Encode, List.data_toByteArray]

/-- An ASCII character other than NUL. -/
def IsPlain (c : Char) : Prop := 0 < c.toNat ∧ c.toNat < 0x80

instance (c : Char) : Decidable (IsPlain c) := inferInstanceAs (Decidable (_ ∧ _))

theorem not_isPlain_replacement : ¬ IsPlain replacement := by decide

theorem toNat_ofNat_of_valid {n : Nat} (h : n.isValidChar) : (Char.ofNat n).toNat = n := by
  rw [Char.ofNat, dif_pos h]
  rfl

/-- A value beyond ASCII names no plain character. A value that no character has reads as NUL. -/
theorem not_isPlain_ofNat {n : Nat} (h : 0x80 ≤ n) : ¬ IsPlain (Char.ofNat n) := by
  by_cases hvalid : n.isValidChar
  · rw [IsPlain, toNat_ofNat_of_valid hvalid]
    omega
  · rw [Char.ofNat, dif_neg hvalid]
    decide

/-- The value of a started character will be beyond ASCII: it is now, or the bytes to come make it
so. -/
def Partial.Long : Partial → Prop
  | .none => False
  | .more left value low _ =>
      0x80 ≤ low.toNat ∧ (2 ≤ value ∨ 2 ≤ left ∧ 2 ≤ value * 64 + (low.toNat - 0x80))

theorem start_of_ascii {b : UInt8} (h : b < 0x80) : start b = ([Char.ofNat b.toNat], .none) :=
  if_pos h

/-- A byte beyond ASCII starts no plain character. -/
theorem start_of_not_ascii {b : UInt8} (h : ¬ b < 0x80) :
    start b = ([replacement], .none) ∨ ∃ state : Partial, start b = ([], state) ∧ state.Long := by
  rw [start, if_neg h]
  split_ifs
  all_goals first | exact .inl rfl | refine .inr ⟨_, rfl, ?_⟩
  -- the first bytes of characters of two, three and four bytes
  all_goals
    simp only [UInt8.lt_iff_toNat_lt, ← UInt8.toNat_inj, UInt8.reduceToNat] at *
    simp only [Partial.Long, UInt8.reduceToNat]
    omega

/-- A started character that will be beyond ASCII leaves a character that is not plain. -/
theorem exists_not_isPlain {state : Partial} (h : state.Long) (data : Bytes) :
    ∃ c ∈ lossyFrom state data, ¬ IsPlain c := by
  induction data generalizing state with
  | nil =>
    cases state with
    | none => cases h
    | more left value low high =>
      exact ⟨replacement, List.mem_singleton_self _, not_isPlain_replacement⟩
  | cons b rest ih =>
    cases state with
    | none => cases h
    | more left value low high =>
      obtain ⟨hlow, hvalue⟩ := h
      by_cases hrange : low ≤ b ∧ b ≤ high
      · have hb : low.toNat ≤ b.toNat := UInt8.le_iff_toNat_le.1 hrange.1
        rw [lossyFrom, feed, if_pos hrange]
        by_cases hlast : left ≤ 1
        · rw [if_pos hlast]
          exact ⟨_, List.mem_cons_self, not_isPlain_ofNat (by omega)⟩
        · have hlong : (Partial.more (left - 1) (value * 64 + (b.toNat - 0x80)) 0x80 0xBF).Long :=
            ⟨by decide, by omega⟩
          rw [if_neg hlast]
          exact ih hlong
      · -- the byte breaks the character off
        rw [lossyFrom, feed, if_neg hrange]
        exact ⟨replacement, List.mem_cons_self, not_isPlain_replacement⟩

/-- An ASCII byte is the character with its value. -/
theorem utf8EncodeChar_ofNat {b : UInt8} (h : b < 0x80) :
    String.utf8EncodeChar (Char.ofNat b.toNat) = [b] := by
  rw [UInt8.lt_iff_toNat_lt] at h
  have hlt : b.toNat < 0x80 := h
  have hvalue : (Char.ofNat b.toNat).val.toNat = b.toNat :=
    toNat_ofNat_of_valid (.inl (by omega))
  rw [String.utf8EncodeChar, hvalue, if_pos (by omega), UInt8.ofNat_toNat]

/-- Plain characters are read from their own bytes. -/
theorem eq_flatMap_of_isPlain {data : Bytes} (h : ∀ c ∈ lossyFrom .none data, IsPlain c) :
    data = (lossyFrom .none data).flatMap String.utf8EncodeChar := by
  induction data with
  | nil => rfl
  | cons b rest ih =>
    rw [lossyFrom, feed] at h ⊢
    by_cases hb : b < 0x80
    · rw [start_of_ascii hb] at h ⊢
      have hrest := ih fun c hc => h c (List.mem_append_right _ hc)
      dsimp only
      rw [List.flatMap_append, ← hrest, List.flatMap_singleton, utf8EncodeChar_ofNat hb]
      rfl
    · exfalso
      rcases start_of_not_ascii hb with hstart | ⟨state, hstart, hlong⟩
      · rw [hstart] at h
        exact not_isPlain_replacement (h _ List.mem_cons_self)
      · rw [hstart] at h
        obtain ⟨c, hc, hplain⟩ := exists_not_isPlain hlong rest
        exact hplain (h c hc)

/-- A plain text is read from its own bytes. -/
theorem eq_encode_of_lossy {data : Bytes} {text : String} (h : lossy data = text)
    (hplain : ∀ c ∈ text.toList, IsPlain c) : data = encode text := by
  have hchars : text.toList = lossyFrom .none data := by
    rw [← h, lossy, String.toList_ofList]
  rw [hchars] at hplain
  rw [encode_eq_flatMap, hchars]
  exact eq_flatMap_of_isPlain hplain

end PeerLink.Utf8
