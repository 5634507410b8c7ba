import PeerLink.Proofs.Toml.Values

/-!
# Written sections are read back line by line

A key is read back bare or quoted (`Toml.readPart_renderKey`), so a path between brackets gives a
header and a key with its item gives a key-value line. The lines of sections are read in order, and
the blank lines between sections say nothing (`Toml.readLines_renderTables`).
-/

set_option autoImplicit false

namespace PeerLink.Toml

variable {c : Char} {cs rest : List Char} {key : String} {path : List String}

/-! ## Keys -/

/-- A character with which a written key begins. -/
def StartsKey (c : Char) : Prop := isBare c = true ∨ c = quote ∨ c = apostrophe

theorem StartsKey.ne (h : StartsKey c) {d : Char} (hbare : isBare d = false) (hquote : d ≠ quote)
    (hapostrophe : d ≠ apostrophe) : c ≠ d := by
  rintro rfl
  rcases h with h | h | h
  · rw [h] at hbare
    cases hbare
  · exact hquote h
  · exact hapostrophe h

theorem StartsKey.isFront (h : StartsKey c) : IsFront c := by
  refine ⟨?_, h.ne (by decide) (by decide) (by decide), h.ne (by decide) (by decide) (by decide),
    h.ne (by decide) (by decide) (by decide)⟩
  have hspace : c ≠ ' ' := h.ne (by decide) (by decide) (by decide)
  have htab : c ≠ '\t' := h.ne (by decide) (by decide) (by decide)
  simp [isBlank, hspace, htab]

theorem exists_cons_renderKey (cs rest : List Char) :
    ∃ c more, renderKey cs ++ rest = c :: more ∧ StartsKey c := by
  unfold renderKey
  simp only
  split
  · next hbare =>
    obtain ⟨c, more, rfl⟩ := List.exists_cons_of_ne_nil hbare.1
    exact ⟨c, _, rfl, .inl (List.all_eq_true.1 hbare.2 c List.mem_cons_self)⟩
  · repeat' split
    all_goals first
      | exact ⟨quote, _, rfl, .inr (.inl rfl)⟩
      | exact ⟨apostrophe, _, rfl, .inr (.inr rfl)⟩

/-- A run of bare characters is read as it stands. -/
theorem readPart_bare (hne : cs ≠ []) (hbare : ∀ c ∈ cs, isBare c = true)
    (hrest : ∀ c ∈ rest.head?, isBare c = false) :
    readPart (cs ++ rest) = some (String.ofList cs, rest) := by
  obtain ⟨c, more, rfl⟩ := List.exists_cons_of_ne_nil hne
  have hc := hbare c List.mem_cons_self
  have hquote : c ≠ quote := by
    rintro rfl
    exact absurd hc (by decide)
  have hapostrophe : c ≠ apostrophe := by
    rintro rfl
    exact absurd hc (by decide)
  have hend : rest.takeWhile isBare = [] ∧ rest.dropWhile isBare = rest := by
    cases rest with
    | nil => exact ⟨rfl, rfl⟩
    | cons d rest => simp [hrest d rfl]
  have htake : (c :: more ++ rest).takeWhile isBare = c :: more := by
    rw [List.takeWhile_append_of_pos hbare, hend.1, List.append_nil]
  have hdrop : (c :: more ++ rest).dropWhile isBare = rest := by
    rw [List.dropWhile_append_of_pos hbare, hend.2]
  rw [readPart, htake, hdrop, List.cons_append, readLine, if_neg hquote, if_neg hapostrophe]

/-- A written key is read back if what follows could not be part of it. -/
theorem readPart_renderKey (hrest : ∀ c ∈ rest.head?, isBare c = false) :
    readPart (renderKey cs ++ rest) = some (String.ofList cs, rest) := by
  unfold renderKey
  simp only [Bool.and_eq_true, Bool.not_eq_true', decide_eq_true_eq]
  split
  · next hbare => exact readPart_bare hbare.1 (List.all_eq_true.1 hbare.2) hrest
  split
  · rw [readPart, readLine_basicText]
  split
  · next hplain =>
    obtain ⟨hcontrol, hmark⟩ := hplain
    rw [readPart, readLine_literalText hmark]
    intro c hc
    have hown := List.any_eq_false.1 hcontrol c hc
    simp only [Bool.or_eq_true, decide_eq_true_eq, not_or, Bool.not_eq_true] at hown
    exact (visible_of_not_isControl hown.1).2.resolve_left hown.2
  · rw [readPart, readLine_basicText]

/-- The last part of a key. -/
theorem readParts_last (hpart : readPart cs = some (key, rest)) (hblanks : skipBlanks cs = cs)
    (hdot : (skipBlanks rest).head? ≠ some '.') :
    readParts cs = some ([key], skipBlanks rest) := by
  rw [readParts, hblanks, hpart]
  simp only
  split
  · next heq => exact absurd (congrArg List.head? heq) hdot
  · rfl

/-- A part of a key before a dot. -/
theorem readParts_dot {parts : List String} {more : List Char}
    (hpart : readPart cs = some (key, '.' :: more)) (hblanks : skipBlanks cs = cs)
    (hlength : more.length < cs.length) (hmore : readParts more = some (parts, rest)) :
    readParts cs = some (key :: parts, rest) := by
  rw [readParts, hblanks, hpart]
  simp only [skipBlanks_cons (c := '.') (by decide), if_pos hlength, hmore]

/-- A key is read back up to a character that no bare key holds. -/
theorem readPart_key (key : String) (hc : isBare c = false) (rest : List Char) :
    readPart (renderKey key.toList ++ c :: rest) = some (key, c :: rest) := by
  have hend : ∀ d ∈ (c :: rest).head?, isBare d = false := by
    intro d hd
    cases hd
    exact hc
  rw [readPart_renderKey hend, String.ofList_toList]

theorem skipBlanks_renderKey (cs rest : List Char) :
    skipBlanks (renderKey cs ++ rest) = renderKey cs ++ rest := by
  obtain ⟨c, more, hform, hstart⟩ := exists_cons_renderKey cs rest
  rw [hform]
  exact skipBlanks_cons hstart.isFront.not_isBlank more

/-- A written path is read back up to the closing bracket. -/
theorem readParts_renderPath (hne : path ≠ []) (rest : List Char) :
    readParts (renderPath path ++ ']' :: rest) = some (path, ']' :: rest) := by
  induction path with
  | nil => exact absurd rfl hne
  | cons key path ih =>
    cases path with
    | nil =>
      have hpart := readPart_key key (c := ']') (by decide) rest
      exact readParts_last hpart (skipBlanks_renderKey _ _) (by simp [skipBlanks, isBlank])
    | cons next path =>
      have hform : renderPath (key :: next :: path) ++ ']' :: rest =
          renderKey key.toList ++ '.' :: (renderPath (next :: path) ++ ']' :: rest) := by
        simp only [renderPath, List.append_assoc, List.cons_append]
      rw [hform]
      refine readParts_dot (readPart_key key (by decide) _) (skipBlanks_renderKey _ _) ?_
        (ih (by simp))
      simp only [List.length_append, List.length_cons]
      omega

theorem readKey_of_readParts (path : List String) (h : readParts cs = some (path ++ [key], rest))
    (hdepth : path.length + 1 < depthLimit) : readKey cs = some ((path, key), rest) := by
  rw [readKey, h]
  simp [hdepth]

/-! ## One line -/

/-- The values that key-value lines set. -/
def valuesOf (entries : List (String × Item)) : Entries :=
  entries.map fun (key, item) => (key, item.value)

/-- What key-value lines say. -/
def linesOf (entries : List (String × Item)) : List Line :=
  entries.map fun (key, item) => .entry [] key item.value

/-- The last key of a section's path. -/
def Table.name (t : Table) : String := t.path.getLastD ""

/-- The keys before it. -/
def Table.parents (t : Table) : List String := t.path.dropLast

/-- The lines of a section: its header and its key-value lines. -/
def Table.lines (t : Table) : List Line := .header t.parents t.name :: linesOf t.entries

/-- A section that can be written: it has a path that is not too long, and its items fit. -/
structure Table.Fits (t : Table) : Prop where
  path_ne_nil : t.path ≠ []
  depth : t.path.length < depthLimit
  items : ∀ entry ∈ t.entries, entry.2.Fits

/-- An item is written right behind the blank. -/
theorem skipBlanks_renderItem (item : Item) (rest : List Char) :
    skipBlanks (' ' :: (renderItem item ++ rest)) = renderItem item ++ rest := by
  have hfirst : ∃ c more, renderItem item ++ rest = c :: more ∧ isBlank c = false := by
    cases item with
    | text content =>
      obtain ⟨mark, more, hform, hmark⟩ := exists_cons_renderText content.toList rest
      exact ⟨mark, more, hform, (isFront_of_mark hmark).not_isBlank⟩
    | number n =>
      obtain ⟨c, digits, hform, hdigit⟩ := exists_cons_decimalChars n
      have hspace : c ≠ ' ' := ne_of_isDigit hdigit (by decide)
      have htab : c ≠ '\t' := ne_of_isDigit hdigit (by decide)
      refine ⟨c, digits ++ rest, by rw [renderItem, hform, List.cons_append], ?_⟩
      simp [isBlank, hspace, htab]
    | flag b => cases b <;> exact ⟨_, _, rfl, by decide⟩
    | texts contents =>
      rcases contents with _ | ⟨content, _ | ⟨next, contents⟩⟩
      all_goals exact ⟨'[', _, rfl, by decide⟩
  obtain ⟨c, more, hform, hblank⟩ := hfirst
  rw [hform]
  exact skipBlanks_cons hblank more

theorem readKey_entry (key : String) (rest : List Char) :
    readKey (renderKey key.toList ++ ' ' :: '=' :: rest) = some (([], key), '=' :: rest) := by
  have hpart := readPart_key key (c := ' ') (by decide) ('=' :: rest)
  have hparts := readParts_last hpart (skipBlanks_renderKey _ _) (by simp [skipBlanks, isBlank])
  exact readKey_of_readParts [] hparts (by decide)

theorem readStatement_entry (key : String) {item : Item} (h : item.Fits) (rest : List Char) :
    readStatement (renderKey key.toList ++ ' ' :: '=' :: ' ' :: (renderItem item ++ '\n' :: rest)) =
      some (.entry [] key item.value, '\n' :: rest) := by
  have hassignment : readAssignment (readValue (depthLimit - 1))
      (renderKey key.toList ++ ' ' :: '=' :: ' ' :: (renderItem item ++ '\n' :: rest)) =
      some (([], key, item.value), '\n' :: rest) := by
    have hvalue : readValue (depthLimit - 1) (renderItem item ++ '\n' :: rest) = _ :=
      readValue_renderItem 78 h rest
    rw [readAssignment, readKey_entry]
    simp only [skipBlanks_renderItem, hvalue]
  obtain ⟨c, more, hform, hstart⟩ := exists_cons_renderKey key.toList
    (' ' :: '=' :: ' ' :: (renderItem item ++ '\n' :: rest))
  rw [hform] at hassignment ⊢
  rw [readStatement, hassignment]
  intro _ heq
  exact hstart.ne (by decide) (by decide) (by decide) (List.cons.inj heq).1

theorem readStatement_header (hne : path ≠ []) (hdepth : path.length < depthLimit)
    (rest : List Char) : readStatement ('[' :: (renderPath path ++ ']' :: rest)) =
      some (.header path.dropLast (path.getLastD ""), rest) := by
  have hlast : path.getLastD "" = path.getLast hne := by
    rw [List.getLastD_eq_getLast?, List.getLast?_eq_some_getLast hne]
    rfl
  have hkey : readKey (renderPath path ++ ']' :: rest) =
      some ((path.dropLast, path.getLast hne), ']' :: rest) := by
    have hlength : path.dropLast.length + 1 < depthLimit := by
      have hpos := List.length_pos_iff.2 hne
      rw [List.length_dropLast]
      omega
    refine readKey_of_readParts _ ?_ hlength
    rw [List.dropLast_concat_getLast hne]
    exact readParts_renderPath hne rest
  -- a second bracket would open another kind of header
  have hfirst : ∃ c more, renderPath path ++ ']' :: rest = c :: more ∧ StartsKey c := by
    obtain ⟨key, others, rfl⟩ := List.exists_cons_of_ne_nil hne
    cases others with
    | nil => exact exists_cons_renderKey _ _
    | cons next others =>
      rw [renderPath, List.append_assoc]
      · exact exists_cons_renderKey _ _
      · simp
  obtain ⟨c, more, hform, hstart⟩ := hfirst
  rw [hlast]
  rw [hform] at hkey ⊢
  rw [readStatement, readHeader, hkey]
  · rfl
  · intro _ heq
    exact hstart.ne (by decide) (by decide) (by decide) (List.cons.inj heq).1

/-! ## All lines -/

theorem readLines_nil : readLines [] = some [] := by
  rw [readLines]
  rfl

/-- A blank line says nothing. -/
theorem readLines_feed (rest : List Char) : readLines ('\n' :: rest) = readLines rest := by
  have hline : afterLine? ('\n' :: rest) = some rest := rfl
  rw [readLines, skipBlanks_cons (by decide)]
  simp only [hline]
  rw [if_pos (by simp)]

theorem afterLine?_of_isFront (h : IsFront c) (cs : List Char) : afterLine? (c :: cs) = none := by
  have hcomment : skipComment (c :: cs) = c :: cs := by
    rw [skipComment]
    intro _ heq
    exact h.ne_hash (List.cons.inj heq).1
  rw [afterLine?, skipBlanks_cons h.not_isBlank, hcomment]
  exact afterNewline?_of_isFront h cs

/-- A line that says something, and the lines after it. -/
theorem readLines_cons {line : Line} {lines : List Line} {more : List Char} (hfront : IsFront c)
    (hline : readStatement (c :: more) = some (line, '\n' :: rest))
    (hlength : rest.length ≤ more.length) (hrest : readLines rest = some lines) :
    readLines (c :: more) = some (line :: lines) := by
  have hend : afterLine? ('\n' :: rest) = some rest := rfl
  have hshorter : rest.length < (c :: more).length := Nat.lt_succ_of_le hlength
  rw [readLines, skipBlanks_cons hfront.not_isBlank]
  simp only [afterLine?_of_isFront hfront, hline, hend, if_pos hshorter, hrest]

/-- Key-value lines are read in order. -/
theorem readLines_renderEntries {entries : List (String × Item)} {lines : List Line}
    (h : ∀ entry ∈ entries, entry.2.Fits) (hrest : readLines rest = some lines) :
    readLines (renderEntries entries ++ rest) = some (linesOf entries ++ lines) := by
  induction entries with
  | nil => exact hrest
  | cons entry entries ih =>
    obtain ⟨key, item⟩ := entry
    obtain ⟨hown, hothers⟩ := List.forall_mem_cons.1 h
    have hmore := ih hothers
    -- the line end of this line is what the statement leaves
    have hform : renderEntries ((key, item) :: entries) ++ rest = renderKey key.toList ++
        ' ' :: '=' :: ' ' :: (renderItem item ++ '\n' :: (renderEntries entries ++ rest)) := by
      simp only [renderEntries, List.append_assoc, List.cons_append]
    rw [hform]
    generalize renderEntries entries ++ rest = after at hmore ⊢
    have hline := readStatement_entry key hown after
    obtain ⟨c, more, hfirst, hstart⟩ := exists_cons_renderKey key.toList
      (' ' :: '=' :: ' ' :: (renderItem item ++ '\n' :: after))
    have hlength := congrArg List.length hfirst
    rw [hfirst] at hline ⊢
    refine readLines_cons hstart.isFront hline ?_ hmore
    simp only [List.length_append, List.length_cons] at hlength
    omega

/-- A section is read as its header and its lines. -/
theorem readLines_renderTable {t : Table} {lines : List Line} (h : t.Fits)
    (hrest : readLines rest = some lines) :
    readLines (renderTable t ++ rest) = some (t.lines ++ lines) := by
  have hmore := readLines_renderEntries h.items hrest
  have hform : renderTable t ++ rest =
      '[' :: (renderPath t.path ++ ']' :: '\n' :: (renderEntries t.entries ++ rest)) := by
    simp only [renderTable, List.append_assoc, List.cons_append]
  rw [hform]
  generalize renderEntries t.entries ++ rest = after at hmore ⊢
  have hline := readStatement_header h.path_ne_nil h.depth ('\n' :: after)
  refine readLines_cons ⟨by decide, by decide, by decide, by decide⟩ hline ?_ hmore
  simp only [List.length_append, List.length_cons]
  omega

/-- Sections are read in order. -/
theorem readLines_renderTables {ts : List Table} (h : ∀ t ∈ ts, t.Fits) :
    readLines (renderTables ts) = some (ts.flatMap Table.lines) := by
  induction ts with
  | nil => exact readLines_nil
  | cons t ts ih =>
    obtain ⟨hown, hothers⟩ := List.forall_mem_cons.1 h
    have hmore := ih hothers
    cases ts with
    | nil =>
      have hread := readLines_renderTable hown readLines_nil
      rw [List.append_nil] at hread
      exact hread
    | cons next ts =>
      rw [← readLines_feed] at hmore
      exact readLines_renderTable hown hmore

end PeerLink.Toml
