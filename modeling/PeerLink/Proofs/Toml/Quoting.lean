import PeerLink.Toml.Printer

/-!
# Quoted texts are read back

Whatever characters a text has, one of the four kinds of quotes is chosen so that the text is read
back and what follows it is left (`Toml.readText_renderText`), unless a mark that could close the
text follows it. The reader must not close a text on several lines too early: the marks right before
its end belong to it (`Toml.closing?_replicate`), and elsewhere no three of them come in a row
(`Toml.leads_escapeLines`, `Toml.leads_of_not_hasTriple`).
-/

set_option autoImplicit false

namespace PeerLink.Toml

variable {c mark : Char} {cs escape rest : List Char}

/-! ## Escapes -/

/-- An escape and the character that it stands for. -/
inductive Escapes : List Char → Char → Prop
  | letter {x c : Char} : escaped? x = some c → Escapes ['\\', x] c
  | number {x y z w c : Char} : scalar? [x, y, z, w] = some c → Escapes ['\\', 'u', x, y, z, w] c

/-- The number of an ASCII character has four digits and is read back. -/
theorem fourDigits_ascii : ∀ n : Fin 128,
    (fourDigits n).length = 4 ∧ scalar? (fourDigits n) = some (Char.ofNat n) := by
  decide +kernel

theorem toNat_lt_of_isControl (h : isControl c = true) : c.toNat < 128 := by
  simp only [isControl, Bool.or_eq_true, Bool.and_eq_true, decide_eq_true_eq] at h
  omega

/-- The escape of a control character is its number. -/
theorem escapes_fourDigits (h : isControl c = true) :
    Escapes ('\\' :: 'u' :: fourDigits c.toNat) c := by
  -- control characters are ASCII, where all numbers have been tried
  obtain ⟨hlength, hscalar⟩ := fourDigits_ascii ⟨c.toNat, toNat_lt_of_isControl h⟩
  rw [Char.ofNat_toNat] at hscalar
  dsimp only at hlength hscalar
  generalize fourDigits c.toNat = digits at hlength hscalar ⊢
  obtain _ | ⟨x, _ | ⟨y, _ | ⟨z, _ | ⟨w, _ | ⟨v, more⟩⟩⟩⟩⟩ := digits
  case cons.cons.cons.cons.nil => exact .number hscalar
  all_goals simp at hlength

theorem escapes_of_escapeOf? (h : escapeOf? c = some escape) : Escapes escape c := by
  unfold escapeOf? at h
  -- the characters with an escape of their own
  iterate 5
    split at h
    · next heq =>
      subst heq
      cases h
      exact .letter rfl
  split at h
  · next hcontrol => cases h; exact escapes_fourDigits hcontrol
  · cases h

/-- A character that is no control character is a line feed or can stand on a line as it is. -/
theorem visible_of_not_isControl (h : isControl c = false) :
    c ≠ '\r' ∧ (c = '\n' ∨ isVisible c = true) := by
  have hreturn : c ≠ '\r' := by rintro rfl; cases h
  refine ⟨hreturn, ?_⟩
  by_cases hfeed : c = '\n'
  · exact .inl hfeed
  · by_cases htab : c = '\t'
    · exact .inr (by simp [isVisible, htab])
    · have hbounds : 32 ≤ c.toNat ∧ c.toNat ≠ 127 := by simpa [isControl, htab, hfeed] using h
      exact .inr (by simp [isVisible, hbounds])

/-- So is a character without an escape. -/
theorem plain_of_escapeOf? (h : escapeOf? c = none) :
    c ≠ '\\' ∧ c ≠ '\r' ∧ (c = '\n' ∨ isVisible c = true) := by
  unfold escapeOf? at h
  repeat' split at h
  all_goals try contradiction
  next _ _ _ _ hbackslash hcontrol =>
    exact ⟨hbackslash, visible_of_not_isControl (Bool.eq_false_iff.2 hcontrol)⟩

theorem Escapes.exists_cons (h : Escapes escape c) : ∃ more, escape = '\\' :: more := by
  cases h with
  | letter _ | number _ => exact ⟨_, rfl⟩

/-! ## Texts on one line -/

theorem readBasic_plain (hquote : c ≠ quote) (hbackslash : c ≠ '\\') (hvisible : isVisible c = true)
    (rest : List Char) : readBasic (c :: rest) = prepend c (readBasic rest) := by
  rw [readBasic]
  · simp [hvisible, hbackslash]
  · exact hquote
  all_goals
    intros
    contradiction

theorem Escapes.readBasic_append (h : Escapes escape c) (rest : List Char) :
    readBasic (escape ++ rest) = prepend c (readBasic rest) := by
  cases h with
  | @letter x c hx =>
    -- the letters of numbers are no escapes of their own
    have hlong : x ≠ 'u' := by rintro rfl; cases hx
    have hlonger : x ≠ 'U' := by rintro rfl; cases hx
    rw [List.cons_append, List.cons_append, List.nil_append, readBasic]
    · rw [hx]
    · intro _ _ _ _ _ hu
      exact absurd hu hlong
    · intro _ _ _ _ _ _ _ _ _ hu
      exact absurd hu hlonger
  | number hscalar =>
    simp only [List.cons_append, List.nil_append]
    rw [readBasic, hscalar]

theorem readBasic_escapeLine (cs rest : List Char) :
    readBasic (escapeLine cs ++ quote :: rest) = some (cs, rest) := by
  induction cs with
  | nil => rfl
  | cons c cs ih =>
    have hread : ∀ escape, Escapes escape c →
        readBasic (escape ++ (escapeLine cs ++ quote :: rest)) = some (c :: cs, rest) := by
      intro escape hescape
      rw [hescape.readBasic_append, ih]
      rfl
    rw [escapeLine]
    split
    · next hfeed =>
      subst hfeed
      exact hread ['\\', 'n'] (.letter rfl)
    · next hfeed =>
      split
      · next hquote =>
        subst hquote
        exact hread ['\\', quote] (.letter rfl)
      · next hquote =>
        cases hescape : escapeOf? c with
        | some escape =>
          dsimp only
          rw [List.append_assoc]
          exact hread escape (escapes_of_escapeOf? hescape)
        | none =>
          obtain ⟨hbackslash, -, hvisible⟩ := plain_of_escapeOf? hescape
          dsimp only
          rw [List.cons_append,
            readBasic_plain hquote hbackslash (hvisible.resolve_left hfeed), ih]
          rfl

theorem readLiteral_append (hmark : apostrophe ∉ cs) (hvisible : ∀ c ∈ cs, isVisible c = true)
    (rest : List Char) : readLiteral (cs ++ apostrophe :: rest) = some (cs, rest) := by
  induction cs with
  | nil => simp [readLiteral]
  | cons c cs ih =>
    obtain ⟨hc, hcs⟩ := not_or.1 (mt List.mem_cons.2 hmark)
    obtain ⟨hown, hothers⟩ := List.forall_mem_cons.1 hvisible
    rw [List.cons_append, readLiteral, if_neg (Ne.symm hc), if_pos hown, ih hcs hothers]
    rfl

theorem basicText_append (cs rest : List Char) :
    basicText cs ++ rest = quote :: (escapeLine cs ++ quote :: rest) := by
  simp only [basicText, List.cons_append, List.append_assoc, List.nil_append]

theorem literalText_append (cs rest : List Char) :
    literalText cs ++ rest = apostrophe :: (cs ++ apostrophe :: rest) := by
  simp only [literalText, List.cons_append, List.append_assoc, List.nil_append]

theorem readLine_basicText (cs rest : List Char) :
    readLine (basicText cs ++ rest) = some (cs, rest) := by
  rw [basicText_append, readLine, if_pos rfl, readBasic_escapeLine]

theorem readLine_literalText (hmark : apostrophe ∉ cs) (hvisible : ∀ c ∈ cs, isVisible c = true)
    (rest : List Char) : readLine (literalText cs ++ rest) = some (cs, rest) := by
  rw [literalText_append, readLine, if_neg (by decide), if_pos rfl,
    readLiteral_append hmark hvisible]

/-! ## Marks in a row -/

theorem closing?_eq_none (h : (cs.takeWhile (· = mark)).length < 3) : closing? mark cs = none := by
  rw [closing?]
  exact if_pos h

theorem takeWhile_eq_nil (h : rest.head? ≠ some mark) : rest.takeWhile (· = mark) = [] := by
  cases rest with
  | nil => rfl
  | cons c rest =>
    have hc : c ≠ mark := by simpa using h
    simp [hc]

theorem closing?_of_ne (h : c ≠ mark) (rest : List Char) : closing? mark (c :: rest) = none := by
  apply closing?_eq_none
  rw [takeWhile_eq_nil (by simpa using h)]
  decide

/-- At most two marks before the three that close a text belong to it. -/
theorem closing?_replicate {n : Nat} (hn : n ≤ 2) (hrest : rest.head? ≠ some mark) :
    closing? mark (List.replicate n mark ++ ([mark, mark, mark] ++ rest)) =
      some (List.replicate n mark, rest) := by
  have hmarks : List.replicate n mark ++ ([mark, mark, mark] ++ rest) =
      List.replicate (n + 3) mark ++ rest := by
    change List.replicate n mark ++ (List.replicate 3 mark ++ rest) = _
    rw [← List.append_assoc, List.replicate_append_replicate]
  have hrun : ((List.replicate (n + 3) mark ++ rest).takeWhile (· = mark)).length = n + 3 := by
    rw [List.takeWhile_append_of_pos (by simp), takeWhile_eq_nil hrest]
    simp
  have hextra : min (n + 3 - 3) 2 = n := by omega
  rw [hmarks, closing?]
  simp only [hrun, hextra]
  rw [if_neg (by omega)]
  simp

/-- A text consists of few marks or begins with few, whatever follows it. -/
def Leads (mark : Char) (limit : Nat) (cs : List Char) : Prop :=
  (∃ n, n ≤ limit ∧ cs = List.replicate n mark) ∨
    ∀ rest, ((cs ++ rest).takeWhile (· = mark)).length ≤ limit

theorem Leads.cons {limit : Nat} (h : Leads mark limit cs) :
    Leads mark (limit + 1) (mark :: cs) := by
  rcases h with ⟨n, hn, rfl⟩ | h
  · exact .inl ⟨n + 1, by omega, rfl⟩
  · refine .inr fun rest => ?_
    have hrest := h rest
    simp only [List.cons_append, decide_true, List.takeWhile_cons_of_pos, List.length_cons]
    omega

theorem Leads.mono {limit more : Nat} (h : Leads mark limit cs) (hle : limit ≤ more) :
    Leads mark more cs := by
  rcases h with ⟨n, hn, hcs⟩ | h
  · exact .inl ⟨n, Nat.le_trans hn hle, hcs⟩
  · exact .inr fun rest => Nat.le_trans (h rest) hle

theorem leads_of_ne (h : c ≠ mark) (limit : Nat) (cs : List Char) : Leads mark limit (c :: cs) := by
  refine .inr fun rest => ?_
  simp [h]

/-- Without three marks in a row a text begins with two at most. -/
theorem leads_of_not_hasTriple (h : hasTriple mark cs = false) : Leads mark 2 cs := by
  -- a character that is no mark ends the run; each mark lowers the limit by one
  match cs with
  | [] => exact .inl ⟨0, by omega, rfl⟩
  | a :: cs =>
    by_cases ha : a = mark
    case neg => exact leads_of_ne ha 2 cs
    subst ha
    apply Leads.cons
    match cs with
    | [] => exact .inl ⟨0, by omega, rfl⟩
    | b :: cs =>
      by_cases hb : b = a
      case neg => exact leads_of_ne hb 1 cs
      subst hb
      apply Leads.cons
      match cs with
      | [] => exact .inl ⟨0, by omega, rfl⟩
      | d :: cs =>
        by_cases hd : d = b
        case neg => exact leads_of_ne hd 0 cs
        simp [hasTriple, hd] at h

theorem hasTriple_of_cons (h : hasTriple mark (c :: cs) = false) : hasTriple mark cs = false := by
  match cs with
  | [] | [_] => rfl
  | a :: b :: cs =>
    rw [hasTriple, Bool.or_eq_false_iff] at h
    exact h.2

/-- An escaped text begins with few quotes, counted with those right before it. -/
theorem leads_escapeLines {run : Nat} (hrun : run ≤ 2) (cs : List Char) :
    Leads quote (2 - run) (escapeLines run cs) := by
  -- a quote that is not escaped makes the run before the rest one longer
  induction cs generalizing run with
  | nil => exact .inl ⟨0, by omega, rfl⟩
  | cons c cs ih =>
    rw [escapeLines]
    split
    · split
      · next hless =>
        have hlimit : 2 - run = 2 - (run + 1) + 1 := by omega
        rw [hlimit]
        exact (ih (by omega)).cons
      · exact leads_of_ne (by decide) _ _
    · next hquote =>
      cases hescape : escapeOf? c with
      | some escape =>
        obtain ⟨more, rfl⟩ := (escapes_of_escapeOf? hescape).exists_cons
        exact leads_of_ne (by decide) _ _
      | none => exact leads_of_ne hquote _ _

/-- Escapes hold characters that are no quotes. -/
theorem eq_replicate_of_escapeLines {run n : Nat}
    (h : escapeLines run cs = List.replicate n quote) : cs = List.replicate n quote := by
  induction cs generalizing run n with
  | nil => exact h
  | cons c cs ih =>
    -- every escape, that of a third quote too, begins with a backslash
    have hbackslash : ∀ more, '\\' :: more ≠ List.replicate n quote := by
      intro more hmore
      have hmem : '\\' ∈ List.replicate n quote := hmore ▸ List.mem_cons_self
      exact absurd (List.eq_of_mem_replicate hmem) (by decide)
    rw [escapeLines] at h
    split at h
    · next hquote =>
      split at h
      · cases n with
        | zero => cases h
        | succ n => rw [List.replicate_succ, ih (List.cons.inj h).2, hquote]
      · exact absurd h (hbackslash _)
    · next hquote =>
      cases hescape : escapeOf? c with
      | some escape =>
        obtain ⟨more, rfl⟩ := (escapes_of_escapeOf? hescape).exists_cons
        rw [hescape] at h
        exact absurd h (hbackslash _)
      | none =>
        rw [hescape] at h
        have hmem : c ∈ List.replicate n quote := h ▸ List.mem_cons_self
        exact absurd (List.eq_of_mem_replicate hmem) hquote

/-! ## Texts on several lines -/

theorem readBasicLines_closing {text : List Char}
    (h : closing? quote (quote :: cs) = some (text, rest)) :
    readBasicLines .off (quote :: cs) = some (text, rest) := by
  have hfeed : quote ≠ '\n' := by decide
  have hreturn : quote ≠ '\r' := by decide
  rw [readBasicLines.eq_def]
  simp [hfeed, hreturn, h]

theorem readBasicLines_plain (hclosing : closing? quote (c :: rest) = none) (hbackslash : c ≠ '\\')
    (hreturn : c ≠ '\r') (hvisible : c = '\n' ∨ isVisible c = true) :
    readBasicLines .off (c :: rest) = prepend c (readBasicLines .off rest) := by
  rw [readBasicLines.eq_def]
  by_cases hfeed : c = '\n'
  · simp [hfeed]
  · simp [hfeed, hreturn, hclosing, hbackslash, hvisible.resolve_left hfeed]

theorem Escapes.readBasicLines_append (h : Escapes escape c) (rest : List Char) :
    readBasicLines .off (escape ++ rest) = prepend c (readBasicLines .off rest) := by
  have hnone : ∀ more, closing? quote ('\\' :: more) = none := closing?_of_ne (by decide)
  cases h with
  | @letter x c hx =>
    have hlong : x ≠ 'u' := by rintro rfl; cases hx
    have hlonger : x ≠ 'U' := by rintro rfl; cases hx
    rw [List.cons_append, List.cons_append, List.nil_append, readBasicLines.eq_def]
    simp only [ne_eq, not_true_eq_false, false_and, ↓reduceIte, Char.reduceEq, reduceCtorEq,
      hnone]
    split
    · next heq => exact absurd (List.cons.inj heq).1 hlong
    · next heq => exact absurd (List.cons.inj heq).1 hlonger
    · next heq =>
      obtain ⟨rfl, rfl⟩ := List.cons.inj heq
      rw [hx]
    · next heq => cases heq
  | number hscalar =>
    simp only [List.cons_append, List.nil_append]
    rw [readBasicLines.eq_def]
    simp [hnone, hscalar]

theorem readBasicLines_escapeLines {run : Nat} (hrun : run ≤ 2) (hrest : rest.head? ≠ some quote) :
    readBasicLines .off (escapeLines run cs ++ ([quote, quote, quote] ++ rest)) =
      some (cs, rest) := by
  -- the run changes from character to character, so the induction is over all runs
  induction cs generalizing run with
  | nil => exact readBasicLines_closing (closing?_replicate (n := 0) (by omega) hrest)
  | cons c cs ih =>
    rw [escapeLines]
    split
    · next hquote =>
      subst hquote
      split
      · next hless =>
        have hleads : Leads quote 2 (quote :: escapeLines (run + 1) cs) := by
          have hrun : run + 1 ≤ 2 := by omega
          exact (leads_escapeLines hrun cs).cons.mono (by omega)
        rcases hleads with ⟨n, hn, hmarks⟩ | hleads
        · -- nothing but quotes is left, and they are read with those that close the text
          have hclosing := closing?_replicate hn hrest
          obtain ⟨n, rfl⟩ : ∃ m, n = m + 1 := by
            cases n with
            | zero => cases hmarks
            | succ n => exact ⟨n, rfl⟩
          have hcs := eq_replicate_of_escapeLines (List.cons.inj hmarks).2
          rw [← hmarks, List.cons_append] at hclosing
          rw [List.cons_append, readBasicLines_closing hclosing, hmarks, hcs]
          rfl
        · -- too few quotes are in a row to close the text
          have hfew := Nat.lt_succ_of_le (hleads ([quote, quote, quote] ++ rest))
          have hclosing := closing?_eq_none hfew
          rw [List.cons_append] at hclosing ⊢
          rw [readBasicLines_plain hclosing (by decide) (by decide) (.inr (by decide)),
            ih (by omega)]
          rfl
      · have hescape : Escapes ['\\', quote] quote := .letter rfl
        have hread := hescape.readBasicLines_append
          (escapeLines 0 cs ++ ([quote, quote, quote] ++ rest))
        rw [ih (by omega)] at hread
        exact hread
    · next hquote =>
      cases hescape : escapeOf? c with
      | some escape =>
        dsimp only
        rw [List.append_assoc, (escapes_of_escapeOf? hescape).readBasicLines_append, ih (by omega)]
        rfl
      | none =>
        obtain ⟨hbackslash, hreturn, hvisible⟩ := plain_of_escapeOf? hescape
        dsimp only
        rw [List.cons_append, readBasicLines_plain (closing?_of_ne hquote _) hbackslash hreturn
          hvisible, ih (by omega)]
        rfl

theorem readLiteralLines_append (htriple : hasTriple apostrophe cs = false)
    (hcontrol : ∀ c ∈ cs, isControl c = false) (hrest : rest.head? ≠ some apostrophe) :
    readLiteralLines (cs ++ ([apostrophe, apostrophe, apostrophe] ++ rest)) = some (cs, rest) := by
  induction cs with
  | nil =>
    have hclosing := closing?_replicate (n := 0) (by omega) hrest
    rw [List.replicate_zero, List.nil_append] at hclosing
    rw [List.nil_append, List.cons_append, readLiteralLines]
    rw [List.cons_append] at hclosing
    rw [hclosing]
  | cons c cs ih =>
    obtain ⟨hown, hothers⟩ := List.forall_mem_cons.1 hcontrol
    obtain ⟨hreturn, hvisible⟩ := visible_of_not_isControl hown
    rcases leads_of_not_hasTriple htriple with ⟨n, hn, hmarks⟩ | hleads
    · -- nothing but apostrophes is left
      have hclosing := closing?_replicate hn hrest
      rw [← hmarks, List.cons_append] at hclosing
      rw [List.cons_append, readLiteralLines, hclosing]
    · have hclosing := closing?_eq_none
        (Nat.lt_succ_of_le (hleads ([apostrophe, apostrophe, apostrophe] ++ rest)))
      rw [List.cons_append] at hclosing ⊢
      rw [readLiteralLines, hclosing]
      dsimp only
      rw [if_neg hreturn, if_pos hvisible, ih (hasTriple_of_cons htriple) hothers]
      rfl

/-! ## The choice of quotes -/

/-- The line end after the opening marks is skipped, and nothing else. -/
theorem skipFirstNewline_openingNewline {body : List Char}
    (h : '\n' ∉ cs → ∀ c ∈ body.head?, c ≠ '\n' ∧ c ≠ '\r') :
    skipFirstNewline (openingNewline cs ++ body) = body := by
  unfold openingNewline
  split
  · rfl
  · next hfeed =>
    cases body with
    | nil => rfl
    | cons c body =>
      obtain ⟨hc, hreturn⟩ := h hfeed c rfl
      have hnone : afterNewline? (c :: body) = none := by
        rw [afterNewline?]
        · intro _ heq
          exact hc (List.cons.inj heq).1
        · intro _ heq
          exact hreturn (List.cons.inj heq).1
      rw [List.nil_append, skipFirstNewline, hnone]
      rfl

/-- A text with escapes begins with a line end only if it has one. -/
theorem head?_escapeLines {run : Nat} (hfeed : '\n' ∉ cs) :
    ∀ x ∈ (escapeLines run cs ++ quote :: rest).head?, x ≠ '\n' ∧ x ≠ '\r' := by
  cases cs with
  | nil =>
    intro x hx
    cases hx
    decide
  | cons c cs =>
    rw [escapeLines]
    split
    · split
      all_goals
        intro x hx
        cases hx
        decide
    · intro x hx
      cases hescape : escapeOf? c with
      | some escape =>
        obtain ⟨more, rfl⟩ := (escapes_of_escapeOf? hescape).exists_cons
        rw [hescape] at hx
        cases hx
        decide
      | none =>
        rw [hescape] at hx
        cases hx
        refine ⟨?_, (plain_of_escapeOf? hescape).2.1⟩
        rintro rfl
        exact hfeed List.mem_cons_self

/-- So does one without escapes. -/
theorem head?_of_not_isControl (hfeed : '\n' ∉ cs) (hcontrol : ∀ c ∈ cs, isControl c = false) :
    ∀ x ∈ (cs ++ apostrophe :: rest).head?, x ≠ '\n' ∧ x ≠ '\r' := by
  intro x hx
  cases cs with
  | nil =>
    cases hx
    decide
  | cons c cs =>
    cases hx
    refine ⟨?_, (visible_of_not_isControl (hcontrol x List.mem_cons_self)).1⟩
    rintro rfl
    exact hfeed List.mem_cons_self

/-- Marks open a text on one line unless there are three. -/
theorem readText_of_single (hmark : mark = quote ∨ mark = apostrophe)
    (hrun : (rest.takeWhile (· = mark)).length < 2) :
    readText (mark :: rest) = readLine (mark :: rest) := by
  match rest with
  | [] | [_] => rfl
  | b :: c :: rest =>
    have hne : ¬ (b = mark ∧ c = mark) := by
      rintro ⟨rfl, rfl⟩
      rw [List.takeWhile_cons_of_pos (by simp), List.takeWhile_cons_of_pos (by simp)] at hrun
      simp only [List.length_cons] at hrun
      omega
    have hother : quote ≠ apostrophe := by decide
    rw [readText]
    rcases hmark with rfl | rfl
    · rw [if_neg (fun h => hne h.2), if_neg (fun h => hother h.1)]
    · rw [if_neg (fun h => hother h.1.symm), if_neg (fun h => hne h.2)]

/-- A text between quotes does not seem to end at once unless it is empty. -/
theorem head?_escapeLine (c : Char) (cs : List Char) :
    (escapeLine (c :: cs)).head? ≠ some quote := by
  have hbackslash : '\\' ≠ quote := by decide
  rw [escapeLine]
  split
  · simp [hbackslash]
  · split
    · simp [hbackslash]
    · next hquote =>
      cases hescape : escapeOf? c with
      | some escape =>
        obtain ⟨more, rfl⟩ := (escapes_of_escapeOf? hescape).exists_cons
        simp [hbackslash]
      | none => simp [hquote]

theorem length_takeWhile_lt_two {body : List Char} (h : body ≠ [] → body.head? ≠ some mark)
    (hrest : rest.head? ≠ some mark) :
    ((body ++ mark :: rest).takeWhile (· = mark)).length < 2 := by
  cases body with
  | nil => simp [takeWhile_eq_nil hrest]
  | cons c body =>
    have hc : c ≠ mark := by simpa using h (by simp)
    simp [hc]

section Texts

variable (hquote : rest.head? ≠ some quote) (hapostrophe : rest.head? ≠ some apostrophe)

include hquote in
theorem readText_basicText : readText (basicText cs ++ rest) = some (cs, rest) := by
  have hbody : escapeLine cs ≠ [] → (escapeLine cs).head? ≠ some quote := by
    cases cs with
    | nil => exact fun h => absurd rfl h
    | cons c cs => exact fun _ => head?_escapeLine c cs
  have hline := readLine_basicText cs rest
  rw [basicText_append] at hline ⊢
  rw [readText_of_single (.inl rfl) (length_takeWhile_lt_two hbody hquote), hline]

include hapostrophe in
theorem readText_literalText (hmark : apostrophe ∉ cs) (hvisible : ∀ c ∈ cs, isVisible c = true) :
    readText (literalText cs ++ rest) = some (cs, rest) := by
  have hbody : cs ≠ [] → cs.head? ≠ some apostrophe :=
    fun _ h => hmark (List.mem_of_mem_head? h)
  have hline := readLine_literalText hmark hvisible rest
  rw [literalText_append] at hline ⊢
  rw [readText_of_single (.inr rfl) (length_takeWhile_lt_two hbody hapostrophe), hline]

include hquote in
theorem readText_basicLines : readText (basicLines cs ++ rest) = some (cs, rest) := by
  have hform : basicLines cs ++ rest = quote :: quote :: quote ::
      (openingNewline cs ++ (escapeLines 0 cs ++ ([quote, quote, quote] ++ rest))) := by
    simp [basicLines]
  rw [hform, readText, if_pos ⟨rfl, rfl, rfl⟩, skipFirstNewline_openingNewline,
    readBasicLines_escapeLines (by omega) hquote]
  exact head?_escapeLines

include hapostrophe in
theorem readText_literalLines (htriple : hasTriple apostrophe cs = false)
    (hcontrol : ∀ c ∈ cs, isControl c = false) :
    readText (literalLines cs ++ rest) = some (cs, rest) := by
  have hform : literalLines cs ++ rest = apostrophe :: apostrophe :: apostrophe ::
      (openingNewline cs ++ (cs ++ ([apostrophe, apostrophe, apostrophe] ++ rest))) := by
    simp [literalLines]
  rw [hform, readText, if_neg (by decide), if_pos ⟨rfl, rfl, rfl⟩, skipFirstNewline_openingNewline,
    readLiteralLines_append htriple hcontrol hapostrophe]
  exact fun hfeed => head?_of_not_isControl hfeed hcontrol

end Texts

/-- What follows a text does not begin with a mark. -/
structure Unmarked (rest : List Char) : Prop where
  quote : rest.head? ≠ some quote
  apostrophe : rest.head? ≠ some apostrophe

theorem unmarked_cons (hquote : c ≠ quote) (hapostrophe : c ≠ apostrophe) (rest : List Char) :
    Unmarked (c :: rest) :=
  ⟨by simpa using hquote, by simpa using hapostrophe⟩

/-- A written text is read back, and what follows it is left. -/
theorem readText_renderText (cs : List Char) (h : Unmarked rest) :
    readText (renderText cs ++ rest) = some (cs, rest) := by
  unfold renderText
  simp only [Bool.and_eq_true, Bool.not_eq_true', decide_eq_true_eq, decide_eq_false_iff_not]
  split
  · exact readText_basicText h.quote
  split
  · -- a literal text on one line: no controls, no line ends, no apostrophes
    next hplain =>
    obtain ⟨⟨hcontrol, hfeed⟩, hmark⟩ := hplain
    refine readText_literalText h.apostrophe hmark fun c hc => ?_
    have hown := List.any_eq_false.1 hcontrol c hc
    refine (visible_of_not_isControl (Bool.not_eq_true _ ▸ hown)).2.resolve_left ?_
    rintro rfl
    exact hfeed hc
  split
  · exact readText_basicLines h.quote
  split
  · -- a literal text on several lines: no controls and never three apostrophes
    next hplain =>
    obtain ⟨hcontrol, htriple⟩ := hplain
    refine readText_literalLines h.apostrophe htriple fun c hc => ?_
    exact Bool.not_eq_true _ ▸ List.any_eq_false.1 hcontrol c hc
  split
  · exact readText_basicLines h.quote
  · exact readText_basicText h.quote

end PeerLink.Toml
