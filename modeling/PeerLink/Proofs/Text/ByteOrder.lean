import PeerLink.Proofs.Text.Lossy

/-!
# The order of texts and of their bytes

UTF-8 keeps the order of texts: a text that comes before another does so by its bytes as well
(`Utf8.encode_lt_encode`). Two characters are told apart by the first byte in which they differ,
whatever follows them (`Utf8.utf8EncodeChar_append_lt`).
-/

set_option autoImplicit false

namespace PeerLink.Utf8

/-- Of two numbers the smaller one has the smaller quotient, or the same and the smaller rest. -/
theorem div_lt_or_mod_lt {v w : Nat} (n : Nat) (h : v < w) :
    v / n < w / n ∨ v / n = w / n ∧ v % n < w % n := by
  rcases Nat.lt_or_ge (v / n) (w / n) with hlt | hge
  · exact .inl hlt
  · have heq : v / n = w / n := Nat.le_antisymm (Nat.div_le_div_right (Nat.le_of_lt h)) hge
    have hv := Nat.div_add_mod v n
    have hw := Nat.div_add_mod w n
    rw [heq] at hv
    exact .inr ⟨heq, by omega⟩

/-- The bytes of a character come before those of a later one, whatever follows. -/
theorem utf8EncodeChar_append_lt {c d : Char} (h : c < d) (xs ys : Bytes) :
    String.utf8EncodeChar c ++ xs < String.utf8EncodeChar d ++ ys := by
  have hlt : c.val.toNat < d.val.toNat := UInt32.lt_iff_toNat_lt.1 h
  have hd : d.val.toNat < 0x110000 := by
    rcases d.valid with hvalid | hvalid <;> omega
  rw [String.utf8EncodeChar, String.utf8EncodeChar]
  generalize c.val.toNat = v, d.val.toNat = w at hlt hd
  -- each byte after the first holds one digit to the base 64
  have hlast := div_lt_or_mod_lt 64 hlt
  have hthird : v / 64 < w / 64 →
      v / 4096 < w / 4096 ∨ v / 4096 = w / 4096 ∧ v / 64 % 64 < w / 64 % 64 := fun h => by
    simpa only [Nat.div_div_eq_div_mul] using div_lt_or_mod_lt 64 h
  have hsecond : v / 4096 < w / 4096 →
      v / 262144 < w / 262144 ∨ v / 262144 = w / 262144 ∧ v / 4096 % 64 < w / 4096 % 64 :=
    fun h => by simpa only [Nat.div_div_eq_div_mul] using div_lt_or_mod_lt 64 h
  -- by the number of bytes of either; a longer form has the larger first byte
  split_ifs
  all_goals
    simp only [List.cons_append, List.nil_append, List.cons_lt_cons_iff, UInt8.lt_iff_toNat_lt,
      ← UInt8.toNat_inj, UInt8.toNat_ofNat', Nat.reducePow]
    simp (disch := omega) only [Nat.mod_eq_of_lt]
    omega

theorem flatMap_utf8EncodeChar_lt {cs ds : List Char} (h : cs < ds) :
    cs.flatMap String.utf8EncodeChar < ds.flatMap String.utf8EncodeChar := by
  induction cs generalizing ds with
  | nil =>
    cases ds with
    | nil => exact absurd h (List.not_lt_nil _)
    | cons d ds =>
      obtain ⟨b, bs, hbytes⟩ := List.exists_cons_of_ne_nil (@String.utf8EncodeChar_ne_nil d)
      rw [List.flatMap_nil, List.flatMap_cons, hbytes, List.cons_append]
      exact List.nil_lt_cons _ _
  | cons c cs ih =>
    cases ds with
    | nil => exact absurd h (List.not_lt_nil _)
    | cons d ds =>
      rw [List.flatMap_cons, List.flatMap_cons]
      rcases List.cons_lt_cons_iff.1 h with hlt | ⟨rfl, hrest⟩
      · exact utf8EncodeChar_append_lt hlt _ _
      · exact List.append_left_lt (ih hrest)

/-- A text that comes before another comes before it by its bytes. -/
theorem encode_lt_encode {s t : String} (h : s < t) : encode s < encode t := by
  rw [encode_eq_flatMap, encode_eq_flatMap]
  exact flatMap_utf8EncodeChar_lt h

end PeerLink.Utf8
