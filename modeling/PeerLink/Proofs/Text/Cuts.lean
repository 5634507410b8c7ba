import PeerLink.Text.Split

/-!
# Characters of texts and of their parts

Every character of a text that is cut everywhere is a separator or stands in one of the parts. A
text without a character is cut after it, and does not begin with it.
-/

set_option autoImplicit false

namespace PeerLink.Split

variable {sep c : Char} {cs : List Char}

/-- A text without a character does not begin with it. -/
theorem ne_cons_of_notMem (h : c ∉ cs) (rest : List Char) : cs ≠ c :: rest := by
  rintro rfl
  exact h List.mem_cons_self

theorem exists_part_of_mem (sep : Char) (h : c ∈ cs) :
    c = sep ∨ ∃ part ∈ atEach sep cs, c ∈ part := by
  induction cs with
  | nil => cases h
  | cons d cs ih =>
    have hne := atEach_ne_nil sep cs
    rw [atEach]
    by_cases hd : d = sep
    · -- the parts are those of the rest, after an empty one
      rw [if_pos hd]
      rcases List.mem_cons.1 h with rfl | h
      · exact .inl hd
      · rcases ih h with hc | ⟨part, hpart, hc⟩
        · exact .inl hc
        · exact .inr ⟨part, List.mem_cons_of_mem _ hpart, hc⟩
    · -- the first part of the rest grows by the character
      rw [if_neg hd]
      cases hparts : atEach sep cs with
      | nil => exact absurd hparts hne
      | cons first parts =>
        dsimp only
        rcases List.mem_cons.1 h with rfl | h
        · exact .inr ⟨_, List.mem_cons_self, List.mem_cons_self⟩
        · rcases ih h with hc | ⟨part, hpart, hc⟩
          · exact .inl hc
          · rw [hparts] at hpart
            rcases List.mem_cons.1 hpart with rfl | hpart
            · exact .inr ⟨_, List.mem_cons_self, List.mem_cons_of_mem _ hc⟩
            · exact .inr ⟨part, List.mem_cons_of_mem _ hpart, hc⟩

/-- A cut at the first occurrence leaves out a text without the separator. -/
theorem atFirst?_append_cons (h : sep ∉ cs) (rest : List Char) :
    atFirst? sep (cs ++ sep :: rest) = some (cs, rest) :=
  atFirst?_eq_some_iff.2 ⟨rfl, h⟩

/-- A cut at the last occurrence leaves a text without the separator. -/
theorem atLast?_append_cons {rest : List Char} (h : sep ∉ rest) (front : List Char) :
    atLast? sep (front ++ sep :: rest) = some (front, rest) :=
  atLast?_eq_some_iff.2 ⟨rfl, h⟩

end PeerLink.Split
