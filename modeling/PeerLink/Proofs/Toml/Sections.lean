import PeerLink.Proofs.Toml.Lines

/-!
# Written sections make up a document

Key-value lines with different keys fill the table of their header (`Toml.foldlM_linesOf`). A
section finds its place if its header opens an empty table that can be put in again
(`Toml.Placed`): at the top under a free key, or in the last table under a key that is free there.
The text of sections that find their places one after the other is read as the tables they make up
(`Toml.parse?_renderTables`).
-/

set_option autoImplicit false

namespace PeerLink.Toml

variable {entries before after sub : Entries} {key parent name : String} {t : Table}

/-! ## Key-value lines -/

/-- A key that is free is written behind the others. -/
theorem Entries.put_of_free (h : entries.lookup key = none) (value : Value) :
    entries.put [] key value = some (entries ++ [(key, value)]) := by
  simp [Entries.put, Entries.change, h]

/-- A key is free behind another entry if it is another key and was free before. -/
theorem lookup_concat_of_ne (h : entries.lookup key = none) (hne : key ≠ name) (value : Value) :
    (entries ++ [(name, value)]).lookup key = none := by
  rw [List.lookup_append, h]
  simpa using hne

/-- Keys stay free behind an entry with none of them. -/
theorem forall_lookup_concat {keys : List String}
    (h : ∀ other ∈ keys, entries.lookup other = none) (hnew : key ∉ keys) (value : Value) :
    ∀ other ∈ keys, (entries ++ [(key, value)]).lookup other = none := by
  intro other hother
  apply lookup_concat_of_ne (h other hother)
  rintro rfl
  exact hnew hother

/-- A key that no line has is free. -/
theorem lookup_valuesOf {items : List (String × Item)} (h : key ∉ items.map Prod.fst) :
    (valuesOf items).lookup key = none := by
  apply List.lookup_eq_none_iff.2
  intro entry hentry
  obtain ⟨line, hline, rfl⟩ := List.mem_map.1 hentry
  apply bne_iff_ne.2
  rintro rfl
  exact h (List.mem_map.2 ⟨line, hline, rfl⟩)

/-- Key-value lines fill the current table in their order. -/
theorem foldlM_linesOf {items : List (String × Item)} (d : Draft)
    (hfree : ∀ key ∈ items.map Prod.fst, d.current.lookup key = none)
    (hkeys : (items.map Prod.fst).Nodup) :
    (linesOf items).foldlM Draft.add d =
      some { d with current := d.current ++ valuesOf items } := by
  induction items generalizing d with
  | nil => simp [linesOf, valuesOf]
  | cons entry items ih =>
    obtain ⟨key, item⟩ := entry
    rw [List.map_cons] at hfree hkeys
    obtain ⟨hown, hothers⟩ := List.forall_mem_cons.1 hfree
    obtain ⟨hnew, hdistinct⟩ := List.nodup_cons.1 hkeys
    have hadd : d.add (.entry [] key item.value) =
        some { d with current := d.current ++ [(key, item.value)] } := by
      rw [Draft.add, Entries.put_of_free hown]
      rfl
    have hstill := forall_lookup_concat hothers hnew item.value
    have hrest := ih { d with current := d.current ++ [(key, item.value)] } hstill hdistinct
    have hform : linesOf ((key, item) :: items) = .entry [] key item.value :: linesOf items := rfl
    rw [hform, List.foldlM_cons, hadd]
    refine Eq.trans hrest ?_
    simp [valuesOf]

/-! ## Places of sections -/

/-- A section finds its place in a document: its header opens an empty table, its keys differ, and
the finished table is put in. -/
structure Placed (before : Entries) (t : Table) (after : Entries) : Prop where
  opened : before.takeOut t.parents t.name = some ([], before)
  keys : (t.entries.map Prod.fst).Nodup
  closed : before.close t.parents t.name (valuesOf t.entries) = some after

/-- Sections find their places one after the other. -/
inductive Places : Entries → List Table → Entries → Prop where
  | nil {entries : Entries} : Places entries [] entries
  | cons {before next after : Entries} {t : Table} {ts : List Table} (h : Placed before t next)
      (hrest : Places next ts after) : Places before (t :: ts) after

theorem Places.append {next : Entries} {ts us : List Table} (h : Places before ts next)
    (hmore : Places next us after) : Places before (ts ++ us) after := by
  induction h with
  | nil => exact hmore
  | cons hplaced _ ih => exact .cons hplaced (ih hmore)

/-- A key that is free at the top is the place of a section. -/
theorem Placed.top {items : List (String × Item)} (h : before.lookup name = none)
    (hkeys : (items.map Prod.fst).Nodup) :
    Placed before ⟨[name], items⟩ (before ++ [(name, .table .header (valuesOf items))]) where
  opened := by simp [Table.parents, Table.name, Entries.takeOut, Entries.change, h]
  keys := hkeys
  closed := by simp [Table.parents, Table.name, Entries.close, Entries.change, h]

theorem lookup_last (h : before.lookup parent = none) (value : Value) :
    (before ++ [(parent, value)]).lookup parent = some value := by
  rw [List.lookup_append, h]
  simp

/-- Another value for the last key. -/
theorem replace_last (h : before.lookup parent = none) (value other : Value) :
    Entries.replace (before ++ [(parent, value)]) parent other =
      before ++ [(parent, other)] := by
  have hsame : Entries.replace before parent other = before := by
    refine Eq.trans (List.map_congr_left ?_) (List.map_id before)
    intro entry hentry
    have hother : entry.1 ≠ parent := by
      rintro rfl
      simpa using List.lookup_eq_none_iff.1 h entry hentry
    exact if_neg hother
  unfold Entries.replace at hsame ⊢
  rw [List.map_append, hsame]
  simp

/-- A key that is free in the table written last is the place of a section under that table. -/
theorem Placed.under {items : List (String × Item)} (hparent : before.lookup parent = none)
    (h : sub.lookup name = none) (hkeys : (items.map Prod.fst).Nodup) :
    Placed (before ++ [(parent, .table .header sub)]) ⟨[parent, name], items⟩
      (before ++
        [(parent, .table .header (sub ++ [(name, .table .header (valuesOf items))]))]) where
  opened := by
    simp [Table.parents, Table.name, Entries.takeOut, Entries.change, lookup_last hparent, h,
      replace_last hparent]
  keys := hkeys
  closed := by
    simp [Table.parents, Table.name, Entries.close, Entries.change, lookup_last hparent, h,
      replace_last hparent]

/-! ## Documents -/

/-- The lines of a section complete the table before it and fill a new one. -/
theorem Placed.foldlM_lines (h : Placed before t after) {d : Draft}
    (hclose : d.close = some before) :
    ∃ filled, t.lines.foldlM Draft.add d = some filled ∧ filled.close = some after := by
  refine ⟨⟨before, .table t.parents t.name, valuesOf t.entries⟩, ?_, h.closed⟩
  have hheader : d.add (.header t.parents t.name) =
      some ⟨before, .table t.parents t.name, []⟩ := by
    simp [Draft.add, hclose, h.opened]
  have hlines := foldlM_linesOf ⟨before, .table t.parents t.name, []⟩
    (fun _ _ => List.lookup_nil) h.keys
  rw [Table.lines, List.foldlM_cons, hheader]
  exact hlines

/-- The lines of sections complete one table after the other. -/
theorem Places.foldlM_lines {ts : List Table} (h : Places before ts after) {d : Draft}
    (hclose : d.close = some before) :
    ∃ filled, (ts.flatMap Table.lines).foldlM Draft.add d = some filled ∧
      filled.close = some after := by
  induction h generalizing d with
  | nil => exact ⟨d, rfl, hclose⟩
  | cons hplaced _ ih =>
    obtain ⟨next, hnext, hcloseNext⟩ := hplaced.foldlM_lines hclose
    obtain ⟨filled, hfilled, hcloseFilled⟩ := ih hcloseNext
    refine ⟨filled, ?_, hcloseFilled⟩
    rw [List.flatMap_cons, List.foldlM_append, hnext]
    exact hfilled

theorem skipMark_renderTables (ts : List Table) :
    skipMark (renderTables ts) = renderTables ts := by
  match ts with
  | [] | [_] | _ :: _ :: _ => rfl

/-- The text of sections is read as the tables they make up. -/
theorem parse?_renderTables {ts : List Table} (hfits : ∀ t ∈ ts, t.Fits)
    (h : Places [] ts entries) :
    parse? (String.ofList (renderTables ts)) = some entries := by
  obtain ⟨filled, hlines, hclose⟩ := h.foldlM_lines (d := Draft.start) rfl
  rw [parse?, String.toList_ofList, skipMark_renderTables, readLines_renderTables hfits]
  simp [Document.ofLines?, hlines, hclose]

end PeerLink.Toml
