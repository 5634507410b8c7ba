import PeerLink.Proofs.Text.Numerals
import PeerLink.Proofs.Toml.Quoting

/-!
# Written values are read back

A value that a section holds is read back as the value that it stands for
(`Toml.readValue_renderItem`). What must be excluded is that one kind is taken for another: a number
is no date, no time and has no fraction (`Toml.readNumeric_decimalChars`), and the items of a list
on lines of their own are told from its end (`Toml.readItems_renderItems`).
-/

set_option autoImplicit false

namespace PeerLink.Toml

variable {c : Char} {cs rest : List Char}

/-- The value that an item of a section stands for. -/
def Item.value : Item → Value
  | text content => .text content
  | number n => .integer n
  | flag b => .boolean b
  | texts contents => .array (contents.map .text)

/-- Numbers fit 64 bits. -/
def Item.Fits : Item → Prop
  | number n => n ≤ 9223372036854775807
  | _ => True

@[simp] theorem Item.fits_text (content : String) : (text content).Fits := trivial

@[simp] theorem Item.fits_number {n : Nat} : (number n).Fits ↔ n ≤ 9223372036854775807 := .rfl

@[simp] theorem Item.fits_flag (b : Bool) : (flag b).Fits := trivial

@[simp] theorem Item.fits_texts (contents : List String) : (texts contents).Fits := trivial

/-! ## Texts -/

/-- A written text begins with a mark. -/
theorem exists_cons_renderText (cs rest : List Char) : ∃ mark more,
    renderText cs ++ rest = mark :: more ∧ (mark = quote ∨ mark = apostrophe) := by
  unfold renderText
  simp only
  repeat' split
  all_goals first
    | exact ⟨quote, _, rfl, .inl rfl⟩
    | exact ⟨apostrophe, _, rfl, .inr rfl⟩

theorem readScalar_renderText (h : Unmarked rest) :
    readScalar (renderText cs ++ rest) = some (.text (String.ofList cs), rest) := by
  have hread := readText_renderText cs h
  obtain ⟨mark, more, hform, hmark⟩ := exists_cons_renderText cs rest
  rw [hform] at hread ⊢
  rw [readScalar]
  · rw [if_pos hmark, hread]
    rfl
  all_goals
    rintro _ rfl
    rcases hmark with hmark | hmark <;> cases hmark

theorem readValue_renderText (depth : Nat) (cs : List Char) (h : Unmarked rest) :
    readValue depth (renderText cs ++ rest) = some (.text (String.ofList cs), rest) := by
  rw [← readScalar_renderText h]
  obtain ⟨mark, more, hform, hmark⟩ := exists_cons_renderText cs rest
  rw [hform]
  cases depth
  all_goals
    rw [readValue]
    all_goals
      rintro _ heq
      rcases hmark with rfl | rfl <;> cases heq

/-! ## Lists -/

/-- A character that is not skipped between the items of a list, nor at the front of a line. -/
structure IsFront (c : Char) : Prop where
  not_isBlank : isBlank c = false
  ne_feed : c ≠ '\n'
  ne_return : c ≠ '\r'
  ne_hash : c ≠ '#'

theorem isFront_of_mark (h : c = quote ∨ c = apostrophe) : IsFront c := by
  rcases h with rfl | rfl
  all_goals exact ⟨by decide, by decide, by decide, by decide⟩

theorem skipBlanks_cons (h : isBlank c = false) (cs : List Char) :
    skipBlanks (c :: cs) = c :: cs := by
  rw [skipBlanks, List.dropWhile_cons_of_neg (by simp [h])]

theorem afterNewline?_of_isFront (h : IsFront c) (cs : List Char) :
    afterNewline? (c :: cs) = none := by
  rw [afterNewline?]
  · intro _ heq
    exact h.ne_feed (List.cons.inj heq).1
  · intro _ heq
    exact h.ne_return (List.cons.inj heq).1

theorem skipLines_of_skipBlanks {more : List Char} (hblanks : skipBlanks cs = c :: more)
    (h : IsFront c) : skipLines cs = some (c :: more) := by
  rw [skipLines, hblanks, afterNewline?_of_isFront h]
  dsimp only
  split
  · next heq => exact absurd (List.cons.inj heq).1 h.ne_hash
  · rfl

theorem skipLines_of_isFront (h : IsFront c) (cs : List Char) :
    skipLines (c :: cs) = some (c :: cs) :=
  skipLines_of_skipBlanks (skipBlanks_cons h.not_isBlank cs) h

theorem skipLines_feed (cs : List Char) : skipLines ('\n' :: cs) = skipLines cs := by
  rw [skipLines, skipBlanks_cons (by decide), afterNewline?]
  dsimp only
  rw [if_pos (by simp)]

theorem isFront_comma : IsFront ',' := ⟨by decide, by decide, by decide, by decide⟩

theorem isFront_bracket : IsFront ']' := ⟨by decide, by decide, by decide, by decide⟩

section Items

variable {value : Reader Value} {v : Value} {items : List Value} {text after more : List Char}

/-- An array ends at its bracket. -/
theorem readItems_bracket (h : skipLines cs = some (']' :: rest)) :
    readItems value cs = some ([], rest) := by
  rw [readItems, h]
  rfl

/-- The first item of an array, with a comma after it. -/
theorem readItems_comma (hstart : skipLines cs = some (c :: text)) (hbracket : c ≠ ']')
    (hvalue : value (c :: text) = some (v, after)) (hcomma : skipLines after = some (',' :: more))
    (hlength : more.length < cs.length) (hmore : readItems value more = some (items, rest)) :
    readItems value cs = some (v :: items, rest) := by
  rw [readItems, hstart]
  split
  · next heq => cases heq
  · next heq =>
    cases heq
    exact absurd rfl hbracket
  · next heq =>
    cases heq
    rw [hvalue]
    simp only [hcomma, if_pos hlength, hmore]

/-- The only item of an array. -/
theorem readItems_last (hstart : skipLines cs = some (c :: text)) (hbracket : c ≠ ']')
    (hvalue : value (c :: text) = some (v, after)) (hend : skipLines after = some (']' :: rest)) :
    readItems value cs = some ([v], rest) := by
  rw [readItems, hstart]
  split
  · next heq => cases heq
  · next heq =>
    cases heq
    exact absurd rfl hbracket
  · next heq =>
    cases heq
    rw [hvalue]
    simp only [hend]

end Items

theorem ne_bracket_of_mark (h : c = quote ∨ c = apostrophe) : c ≠ ']' := by
  rcases h with rfl | rfl
  all_goals decide

/-- The items of a list on lines of their own are read up to the closing bracket. -/
theorem readItems_renderItems (depth : Nat) (items : List String) (rest : List Char) :
    readItems (readValue depth) ('\n' :: (renderItems items ++ ']' :: rest)) =
      some (items.map .text, rest) := by
  induction items with
  | nil =>
    apply readItems_bracket
    rw [renderItems, List.nil_append, skipLines_feed]
    exact skipLines_of_isFront isFront_bracket rest
  | cons item items ih =>
    have hform : renderItems (item :: items) ++ ']' :: rest = ' ' :: ' ' :: ' ' :: ' ' ::
        (renderText item.toList ++ ',' :: '\n' :: (renderItems items ++ ']' :: rest)) := by
      simp only [renderItems, List.cons_append, List.append_assoc]
    rw [hform]
    -- the line end after the comma is where the next item is read from
    generalize '\n' :: (renderItems items ++ ']' :: rest) = more at ih ⊢
    have hvalue := readValue_renderText depth item.toList
      (unmarked_cons (c := ',') (by decide) (by decide) more)
    obtain ⟨mark, text, htext, hmark⟩ := exists_cons_renderText item.toList (',' :: more)
    have hlength := congrArg List.length htext
    rw [htext] at hvalue ⊢
    rw [String.ofList_toList] at hvalue
    have hfront := isFront_of_mark hmark
    have hstart : skipLines ('\n' :: ' ' :: ' ' :: ' ' :: ' ' :: mark :: text) =
        some (mark :: text) := by
      rw [skipLines_feed]
      exact skipLines_of_skipBlanks (skipBlanks_cons hfront.not_isBlank text) hfront
    refine readItems_comma hstart (ne_bracket_of_mark hmark) hvalue
      (skipLines_of_isFront isFront_comma more) ?_ ih
    simp only [List.length_append, List.length_cons] at hlength ⊢
    omega

theorem readValue_array {items : List Value} (depth : Nat)
    (h : readItems (readValue depth) cs = some (items, rest)) :
    readValue (depth + 1) ('[' :: cs) = some (.array items, rest) := by
  rw [readValue, h]
  rfl

theorem readValue_texts (depth : Nat) (contents : List String) (rest : List Char) :
    readValue (depth + 1) (renderItem (.texts contents) ++ rest) =
      some (.array (contents.map .text), rest) := by
  match contents with
  | [] =>
    apply readValue_array
    exact readItems_bracket (skipLines_of_isFront isFront_bracket rest)
  | [content] =>
    have hvalue := readValue_renderText depth content.toList
      (unmarked_cons (c := ']') (by decide) (by decide) rest)
    obtain ⟨mark, text, htext, hmark⟩ := exists_cons_renderText content.toList (']' :: rest)
    have hform : renderItem (.texts [content]) ++ rest = '[' :: mark :: text := by
      rw [← htext]
      simp only [renderItem, List.cons_append, List.append_assoc, List.nil_append]
    rw [htext, String.ofList_toList] at hvalue
    rw [hform]
    apply readValue_array
    exact readItems_last (skipLines_of_isFront (isFront_of_mark hmark) text)
      (ne_bracket_of_mark hmark) hvalue (skipLines_of_isFront isFront_bracket rest)
  | first :: second :: contents =>
    have hform : renderItem (.texts (first :: second :: contents)) ++ rest =
        '[' :: '\n' :: (renderItems (first :: second :: contents) ++ ']' :: rest) := by
      simp only [renderItem, List.cons_append, List.append_assoc, List.nil_append]
    rw [hform]
    apply readValue_array
    exact readItems_renderItems depth _ rest

/-! ## Numbers -/

section Numbers

variable {digits front after : List Char}

/-- What is read of a run of digits before a line end leaves the rest of the run. -/
theorem exists_digits_of_append (hdigits : ∀ c ∈ digits, c.isDigit = true)
    (hfront : ∀ c ∈ front, c.isDigit = true) (h : digits ++ '\n' :: rest = front ++ after) :
    ∃ more, digits = front ++ more ∧ after = more ++ '\n' :: rest := by
  rcases List.append_eq_append_iff.1 h with ⟨more, rfl, hmore⟩ | ⟨more, rfl, rfl⟩
  · cases more with
    | nil =>
      refine ⟨[], ?_, ?_⟩
      · rw [List.append_nil, List.append_nil]
      · exact hmore.symm
    | cons c more =>
      -- the line end is no digit
      obtain ⟨rfl, -⟩ := List.cons.inj hmore
      have hfeed := hfront '\n' (by simp)
      exact absurd hfeed (by decide)
  · exact ⟨more, rfl, rfl⟩

/-- Digits before a line end are followed by no other character. -/
theorem ne_cons_of_digits (hdigits : ∀ c ∈ digits, c.isDigit = true) (hc : c.isDigit = false)
    (hfeed : c ≠ '\n') (more : List Char) : digits ++ '\n' :: rest ≠ c :: more := by
  intro h
  cases digits with
  | nil => exact hfeed (List.cons.inj h).1.symm
  | cons d digits =>
    obtain ⟨rfl, -⟩ := List.cons.inj h
    rw [hdigits d List.mem_cons_self] at hc
    cases hc

/-- So are digits after some of them have been read. -/
theorem ne_cons_after_digits (hdigits : ∀ c ∈ digits, c.isDigit = true)
    (hfront : ∀ c ∈ front, c.isDigit = true) (h : digits ++ '\n' :: rest = front ++ after)
    (hc : c.isDigit = false) (hfeed : c ≠ '\n') (more : List Char) : after ≠ c :: more := by
  obtain ⟨others, rfl, rfl⟩ := exists_digits_of_append hdigits hfront h
  have hothers : ∀ d ∈ others, d.isDigit = true :=
    fun d hd => hdigits d (List.mem_append_right _ hd)
  exact ne_cons_of_digits hothers hc hfeed more

theorem exists_of_readPair {n : Nat} (h : readPair cs = some ((n, front), after)) :
    cs = front ++ after ∧ ∀ c ∈ front, c.isDigit = true := by
  unfold readPair at h
  split at h
  · split at h
    · next hdigits =>
      cases h
      refine ⟨rfl, ?_⟩
      simpa using hdigits
    · cases h
  · cases h

theorem exists_of_readYear {n : Nat} (h : readYear cs = some ((n, front), after)) :
    cs = front ++ after ∧ ∀ c ∈ front, c.isDigit = true := by
  unfold readYear at h
  split at h
  · split at h
    · next hdigits =>
      cases h
      exact ⟨rfl, List.all_eq_true.1 hdigits⟩
    · cases h
  · cases h

/-- Digits before a line end are no date: a date has dashes. -/
theorem readDate_digits (hdigits : ∀ c ∈ digits, c.isDigit = true) (rest : List Char) :
    readDate (digits ++ '\n' :: rest) = none := by
  rw [readDate]
  cases hyear : readYear (digits ++ '\n' :: rest) with
  | none => rfl
  | some found =>
    obtain ⟨⟨year, front⟩, after⟩ := found
    obtain ⟨hform, hfront⟩ := exists_of_readYear hyear
    -- no dash follows, so that reading goes no further
    have hdash := ne_cons_after_digits hdigits hfront hform (c := '-') (by decide) (by decide)
    simp only [Option.bind_eq_bind, Option.bind_some]

/-- They are no time either: a time has colons. -/
theorem readTime_digits (hdigits : ∀ c ∈ digits, c.isDigit = true) (rest : List Char) :
    readTime (digits ++ '\n' :: rest) = none := by
  rw [readTime]
  cases hhour : readPair (digits ++ '\n' :: rest) with
  | none => rfl
  | some found =>
    obtain ⟨⟨hour, front⟩, after⟩ := found
    obtain ⟨hform, hfront⟩ := exists_of_readPair hhour
    -- nor does a colon
    have hcolon := ne_cons_after_digits hdigits hfront hform (c := ':') (by decide) (by decide)
    simp only [Option.bind_eq_bind, Option.bind_some]

theorem readDateTime_digits (hdigits : ∀ c ∈ digits, c.isDigit = true) (rest : List Char) :
    readDateTime (digits ++ '\n' :: rest) = none := by
  rw [readDateTime, readDate_digits hdigits, readTime_digits hdigits]
  rfl

theorem ne_of_isDigit (h : c.isDigit = true) {d : Char} (hd : d.isDigit = false) : c ≠ d := by
  rintro rfl
  rw [h] at hd
  cases hd

theorem readMoreDigits_digits (hdigits : ∀ c ∈ digits, c.isDigit = true) (rest : List Char) :
    readMoreDigits Char.isDigit (digits ++ '\n' :: rest) = some (digits, '\n' :: rest) := by
  induction digits with
  | nil => simp [readMoreDigits]
  | cons c digits ih =>
    obtain ⟨hown, hothers⟩ := List.forall_mem_cons.1 hdigits
    have hunderscore : c ≠ '_' := ne_of_isDigit hown (by decide)
    rw [List.cons_append, readMoreDigits, if_pos hown, ih hothers]
    · rfl
    · exact fun _ _ h => absurd h hunderscore

/-- A printed number is read to the line end: zero by its own rule, any other by its digits. -/
theorem readWhole_decimalChars (n : Nat) (rest : List Char) :
    readWhole (Numeral.decimalChars n ++ '\n' :: rest) =
      some (Numeral.decimalChars n, '\n' :: rest) := by
  by_cases hzero : n = 0
  · rw [hzero]
    rfl
  · have hhead := Numeral.head?_decimalChars_of_pos (Nat.pos_of_ne_zero hzero)
    obtain ⟨c, digits, hform⟩ := List.exists_cons_of_ne_nil (Numeral.decimalChars_ne_nil n)
    have hdigits : ∀ d ∈ c :: digits, d.isDigit = true :=
      fun d hd => Numeral.isDigit_of_mem_decimalChars (hform ▸ hd)
    rw [hform] at hhead ⊢
    obtain ⟨hown, hothers⟩ := List.forall_mem_cons.1 hdigits
    rw [List.cons_append, readWhole, readDigits, if_pos hown, readMoreDigits_digits hothers]
    · rfl
    · intro _ heq
      exact hhead (congrArg some (List.cons.inj heq).1)

theorem exists_cons_decimalChars (n : Nat) :
    ∃ c digits, Numeral.decimalChars n = c :: digits ∧ c.isDigit = true := by
  obtain ⟨c, digits, hform⟩ := List.exists_cons_of_ne_nil (Numeral.decimalChars_ne_nil n)
  exact ⟨c, digits, hform, Numeral.isDigit_of_mem_decimalChars (hform ▸ List.mem_cons_self)⟩

/-- A number without a sign. -/
theorem readSign_decimalChars (n : Nat) (rest : List Char) :
    readSign (Numeral.decimalChars n ++ rest) = (false, Numeral.decimalChars n ++ rest) := by
  obtain ⟨c, digits, hform, hdigit⟩ := exists_cons_decimalChars n
  rw [hform, List.cons_append, readSign]
  all_goals
    intro _ heq
    exact ne_of_isDigit hdigit (by decide) (List.cons.inj heq).1

theorem readDecimal_decimalChars {n : Nat} (hn : n ≤ 9223372036854775807) (rest : List Char) :
    readDecimal (Numeral.decimalChars n ++ '\n' :: rest) = some (.integer n, '\n' :: rest) := by
  have hvalue : Nat.ofDigitChars 10 (Numeral.decimalChars n) 0 = n := by
    simp [Numeral.decimalChars, Nat.ofDigitChars_toDigits]
  have hfloat : goesOnAsFloat ('\n' :: rest) = false := rfl
  rw [readDecimal, readSign_decimalChars]
  simp only [readWhole_decimalChars, hfloat, hvalue, signed?, if_pos hn, Bool.false_eq_true,
    if_false]

/-- A printed number that fits is read as an integer. -/
theorem readNumber_decimalChars {n : Nat} (hn : n ≤ 9223372036854775807) (rest : List Char) :
    readNumber (Numeral.decimalChars n ++ '\n' :: rest) = some (.integer n, '\n' :: rest) := by
  have hdigits : ∀ c ∈ Numeral.decimalChars n, c.isDigit = true :=
    fun _ => Numeral.isDigit_of_mem_decimalChars
  have hletter : ∀ c more, c.isDigit = false → c ≠ '\n' →
      Numeral.decimalChars n ++ '\n' :: rest ≠ c :: more :=
    fun _ more hc hfeed => ne_cons_of_digits hdigits hc hfeed more
  -- a prefix of another base is no digit either
  have hbase : ∀ c more, c.isDigit = false → c ≠ '\n' →
      Numeral.decimalChars n ++ '\n' :: rest ≠ '0' :: c :: more := by
    intro c more hc hfeed heq
    have hzero : ∀ d ∈ ['0'], d.isDigit = true := List.forall_mem_singleton.2 (by decide)
    exact ne_cons_after_digits hdigits hzero heq hc hfeed more rfl
  rw [readNumber, readSign_decimalChars]
  · -- infinity and the number that is none begin with letters
    split
    · next heq => exact absurd heq (hletter _ _ (by decide) (by decide))
    · next heq => exact absurd heq (hletter _ _ (by decide) (by decide))
    · exact readDecimal_decimalChars hn rest
  · exact fun more => hbase 'x' more (by decide) (by decide)
  · exact fun more => hbase 'o' more (by decide) (by decide)
  · exact fun more => hbase 'b' more (by decide) (by decide)

theorem readNumeric_decimalChars {n : Nat} (hn : n ≤ 9223372036854775807) (rest : List Char) :
    readNumeric (Numeral.decimalChars n ++ '\n' :: rest) = some (.integer n, '\n' :: rest) := by
  have hdigits : ∀ c ∈ Numeral.decimalChars n, c.isDigit = true :=
    fun _ => Numeral.isDigit_of_mem_decimalChars
  rw [readNumeric, readDateTime_digits hdigits]
  exact readNumber_decimalChars hn rest

end Numbers

/-! ## Values -/

theorem readValue_number (depth : Nat) {n : Nat} (hn : n ≤ 9223372036854775807)
    (rest : List Char) : readValue (depth + 1) (Numeral.decimalChars n ++ '\n' :: rest) =
      some (.integer n, '\n' :: rest) := by
  have hread := readNumeric_decimalChars hn rest
  obtain ⟨c, digits, hform, hdigit⟩ := exists_cons_decimalChars n
  -- a digit opens neither a text nor one of the other values
  have hmarks : ¬ (c = quote ∨ c = apostrophe) := by
    rintro (h | h)
    all_goals exact ne_of_isDigit hdigit (by decide) h
  rw [hform, List.cons_append] at hread ⊢
  have hscalar : readScalar (c :: (digits ++ '\n' :: rest)) = some (.integer n, '\n' :: rest) := by
    rw [readScalar, if_neg hmarks, hread]
    all_goals
      intro _ heq
      exact absurd heq (ne_of_isDigit hdigit (by decide))
  rw [readValue, hscalar]
  all_goals
    intro _ heq
    exact ne_of_isDigit hdigit (by decide) (List.cons.inj heq).1

/-- An item is read back as the value that it stands for. -/
theorem readValue_renderItem (depth : Nat) {item : Item} (h : item.Fits) (rest : List Char) :
    readValue (depth + 1) (renderItem item ++ '\n' :: rest) =
      some (item.value, '\n' :: rest) := by
  cases item with
  | text content =>
    have hread := readValue_renderText (depth + 1) content.toList
      (unmarked_cons (c := '\n') (by decide) (by decide) rest)
    rw [String.ofList_toList] at hread
    exact hread
  | number n => exact readValue_number depth h rest
  | flag b => cases b <;> rfl
  | texts contents => exact readValue_texts depth contents ('\n' :: rest)

end PeerLink.Toml
