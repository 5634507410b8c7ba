/-!
# Cutting texts

A text is cut at the first or at the last occurrence of a character, and a pair of enclosing
characters is taken off. The `iff` statements say exactly which cuts succeed, and
`Split.intercalate_atEach` and `Split.atEach_intercalate` say that cutting everywhere is undone by
joining the parts.
-/

set_option autoImplicit false

namespace PeerLink.Split

/-- The parts before and after the first `sep`. -/
def atFirst? (sep : Char) : List Char → Option (List Char × List Char)
  | [] => none
  | c :: cs =>
      if c = sep then some ([], cs)
      else (atFirst? sep cs).map fun (front, rest) => (c :: front, rest)

/-- The parts before and after the last `sep`. -/
def atLast? (sep : Char) : List Char → Option (List Char × List Char)
  | [] => none
  | c :: cs =>
      match atLast? sep cs with
      | some (front, rest) => some (c :: front, rest)
      | none => if c = sep then some ([], cs) else none

/-- All parts between the occurrences of `sep`; a text without one is a single part. -/
def atEach (sep : Char) : List Char → List (List Char)
  | [] => [[]]
  | c :: cs =>
      if c = sep then [] :: atEach sep cs
      else
        match atEach sep cs with
        | part :: parts => (c :: part) :: parts
        | [] => [[c]]

/-- What stands between a leading `opener` and a final `closer`. -/
def enclosed? (opener closer : Char) : List Char → Option (List Char)
  | [] => none
  | c :: cs => if c = opener ∧ cs.getLast? = some closer then some cs.dropLast else none

/-- What follows `front` in a text that begins with it. -/
def after? (front cs : List Char) : Option (List Char) :=
  if front.isPrefixOf cs then some (cs.drop front.length) else none

/-- The rest of a text from the first occurrence of `part`, which is not empty. -/
def fromFirst? (part : List Char) : List Char → Option (List Char)
  | [] => none
  | c :: cs => if part.isPrefixOf (c :: cs) then some (c :: cs) else fromFirst? part cs

/-- The text before the last occurrence of `part`, which is not empty. -/
def beforeLast? (part : List Char) : List Char → Option (List Char)
  | [] => none
  | c :: cs =>
      match beforeLast? part cs with
      | some front => some (c :: front)
      | none => if part.isPrefixOf (c :: cs) then some [] else none

theorem atFirst?_eq_some_iff {sep : Char} {cs front rest : List Char} :
    atFirst? sep cs = some (front, rest) ↔ cs = front ++ sep :: rest ∧ sep ∉ front := by
  induction cs generalizing front with
  | nil => simp [atFirst?]
  | cons c cs ih =>
      unfold atFirst?
      by_cases hc : c = sep
      · cases front with
        | nil => simp [hc]
        | cons d front => simp_all
      · rw [if_neg hc, Option.map_eq_some_iff]
        cases front with
        | nil => simp [hc]
        | cons d front =>
            constructor
            · rintro ⟨⟨a, b⟩, h, he⟩
              simp only [Prod.mk.injEq, List.cons.injEq] at he
              obtain ⟨⟨rfl, rfl⟩, rfl⟩ := he
              obtain ⟨rfl, hn⟩ := ih.1 h
              exact ⟨rfl, by simp [hn, Ne.symm hc]⟩
            · rintro ⟨h, hn⟩
              simp only [List.cons_append, List.cons.injEq] at h
              obtain ⟨rfl, h⟩ := h
              exact ⟨(front, rest), ih.2 ⟨h, fun hm => hn (List.mem_cons_of_mem _ hm)⟩, rfl⟩

theorem atFirst?_eq_none_iff {sep : Char} {cs : List Char} :
    atFirst? sep cs = none ↔ sep ∉ cs := by
  induction cs with
  | nil => simp [atFirst?]
  | cons c cs ih =>
      unfold atFirst?
      by_cases hc : c = sep
      · simp [hc]
      · simp [hc, ih, Ne.symm hc]

theorem atLast?_eq_none_iff {sep : Char} {cs : List Char} :
    atLast? sep cs = none ↔ sep ∉ cs := by
  induction cs with
  | nil => simp [atLast?]
  | cons c cs ih =>
      unfold atLast?
      cases h : atLast? sep cs with
      | none =>
          have hn := ih.1 h
          by_cases hc : c = sep
          · simp [hc]
          · simp [hc, hn, Ne.symm hc]
      | some p =>
          have hm : sep ∈ cs := by
            by_cases hm : sep ∈ cs
            · exact hm
            · rw [ih.2 hm] at h
              cases h
          simp [hm]

theorem atLast?_eq_some_iff {sep : Char} {cs front rest : List Char} :
    atLast? sep cs = some (front, rest) ↔ cs = front ++ sep :: rest ∧ sep ∉ rest := by
  induction cs generalizing front rest with
  | nil => simp [atLast?]
  | cons c cs ih =>
      unfold atLast?
      cases h : atLast? sep cs with
      | none =>
          have hn := atLast?_eq_none_iff.1 h
          cases front with
          | nil =>
              by_cases hc : c = sep
              · simp only [hc, ↓reduceIte, Option.some.injEq, Prod.mk.injEq, true_and,
                  List.nil_append, List.cons.injEq]
                exact ⟨fun he => ⟨he, he ▸ hn⟩, fun he => he.1⟩
              · simp [hc]
          | cons d front =>
              have hne : ¬ cs = front ++ sep :: rest := fun he => hn (he ▸ by simp)
              by_cases hc : c = sep <;> simp [hc, hne]
      | some p =>
          obtain ⟨a, b⟩ := p
          have hp := ih.1 h
          cases front with
          | nil =>
              simp only [Option.some.injEq, Prod.mk.injEq, reduceCtorEq, false_and,
                List.nil_append, List.cons.injEq, false_iff, not_and]
              rintro ⟨-, rfl⟩ hn
              exact hn (hp.1 ▸ by simp)
          | cons d front =>
              have hk := @ih front rest
              rw [h] at hk
              simp only [Option.some.injEq, Prod.mk.injEq] at hk
              simp only [Option.some.injEq, Prod.mk.injEq, List.cons.injEq, List.cons_append]
              constructor
              · rintro ⟨⟨rfl, rfl⟩, rfl⟩
                exact ⟨⟨rfl, hp.1⟩, hp.2⟩
              · rintro ⟨⟨rfl, he⟩, hr⟩
                obtain ⟨rfl, rfl⟩ := hk.2 ⟨he, hr⟩
                exact ⟨⟨rfl, rfl⟩, rfl⟩

theorem atEach_ne_nil (sep : Char) (cs : List Char) : atEach sep cs ≠ [] := by
  cases cs with
  | nil => exact List.cons_ne_nil _ _
  | cons c cs =>
      unfold atEach
      split
      · exact List.cons_ne_nil _ _
      · split <;> exact List.cons_ne_nil _ _

/-- Nothing is lost: the parts with `sep` between them are the text. -/
theorem intercalate_atEach (sep : Char) (cs : List Char) :
    List.intercalate [sep] (atEach sep cs) = cs := by
  induction cs with
  | nil => rfl
  | cons c cs ih =>
      have hne := atEach_ne_nil sep cs
      unfold atEach
      cases hparts : atEach sep cs with
      | nil => exact absurd hparts hne
      | cons part parts =>
          rw [hparts] at ih
          split
          · next hc =>
            rw [List.intercalate_cons_cons, ih, hc]
            rfl
          · next hc =>
            rw [← ih]
            cases parts with
            | nil => simp
            | cons next parts => simp [List.intercalate_cons_cons]

theorem atEach_eq_singleton {sep : Char} {cs : List Char} (h : sep ∉ cs) :
    atEach sep cs = [cs] := by
  induction cs with
  | nil => rfl
  | cons c cs ih =>
      have hc : ¬ c = sep := fun he => h (he ▸ List.mem_cons_self)
      rw [atEach, if_neg hc, ih fun hm => h (List.mem_cons_of_mem _ hm)]

theorem atEach_append_cons {sep : Char} {front : List Char} (h : sep ∉ front) (rest : List Char) :
    atEach sep (front ++ sep :: rest) = front :: atEach sep rest := by
  induction front with
  | nil => rw [List.nil_append, atEach, if_pos rfl]
  | cons c front ih =>
      have hc : ¬ c = sep := fun he => h (he ▸ List.mem_cons_self)
      rw [List.cons_append, atEach, if_neg hc, ih fun hm => h (List.mem_cons_of_mem _ hm)]

/-- Parts without `sep` are found again when they are written with `sep` between them. -/
theorem atEach_intercalate {sep : Char} {parts : List (List Char)} (hne : parts ≠ [])
    (h : ∀ part ∈ parts, sep ∉ part) : atEach sep (List.intercalate [sep] parts) = parts := by
  induction parts with
  | nil => exact absurd rfl hne
  | cons part parts ih =>
      have hpart : sep ∉ part := h part List.mem_cons_self
      cases parts with
      | nil => rw [List.intercalate_singleton, atEach_eq_singleton hpart]
      | cons next parts =>
          rw [List.intercalate_cons_cons, List.append_assoc, List.singleton_append,
            atEach_append_cons hpart,
            ih (List.cons_ne_nil _ _) fun p hp => h p (List.mem_cons_of_mem _ hp)]

theorem after?_eq_some_iff {front cs rest : List Char} :
    after? front cs = some rest ↔ cs = front ++ rest := by
  rw [after?, Option.ite_none_right_eq_some, List.isPrefixOf_iff_prefix]
  constructor
  · rintro ⟨⟨tail, rfl⟩, h⟩
    rw [← Option.some.inj h, List.drop_left]
  · rintro rfl
    exact ⟨List.prefix_append _ _, congrArg some List.drop_left⟩

theorem enclosed?_eq_some_iff {opener closer : Char} {cs inner : List Char} :
    enclosed? opener closer cs = some inner ↔ cs = opener :: (inner ++ [closer]) := by
  cases cs with
  | nil => simp [enclosed?]
  | cons c cs =>
      simp only [enclosed?, Option.ite_none_right_eq_some, Option.some.injEq, List.cons.injEq]
      constructor
      · rintro ⟨⟨rfl, hl⟩, rfl⟩
        obtain ⟨ys, rfl⟩ := List.getLast?_eq_some_iff.1 hl
        simp
      · rintro ⟨rfl, rfl⟩
        simp

end PeerLink.Split
