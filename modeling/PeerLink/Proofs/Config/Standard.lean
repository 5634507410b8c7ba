import PeerLink.Config.Standard
import PeerLink.Proofs.Config.Records
import PeerLink.Proofs.Toml.Sections

/-!
# The standard libraries are faithful

The lines of a table and the tables in it are its entries, in another order
(`Config.readAs_gather`). The sections of a document fit (`Config.fits_sections`) and find their
places one after the other, since no key comes twice in a table (`Config.places_sections`). Hence
the standard libraries parse what they print (`Config.standard_faithful`).
-/

set_option autoImplicit false

namespace PeerLink.Config

open Toml (Item Places valuesOf)

variable {key : String} {v : Value} {entries read : Entries} {value : Entries → Toml.Entries}

/-! ## Leaves -/

theorem Value.ofToml_texts (contents : List String) :
    Value.itemsOfToml (contents.map .text) = contents.map .text := by
  induction contents with
  | nil => rfl
  | cons content contents ih =>
    rw [List.map_cons, Value.itemsOfToml, ih]
    rfl

/-- Texts are their contents. -/
theorem map_text_filterMap_text? {items : List Value}
    (h : ∀ item ∈ items, item.text?.isSome = true) :
    (items.filterMap Value.text?).map .text = items := by
  induction items with
  | nil => rfl
  | cons item items ih =>
    obtain ⟨hown, hothers⟩ := List.forall_mem_cons.1 h
    cases item with
    | text content => exact congrArg (_ :: ·) (ih hothers)
    | _ => cases hown

/-- A leaf is absent, or it is printed as an item that fits and is parsed as itself. -/
theorem Value.eq_absent_or_item? (h : v.isLeaf = true) :
    v = .absent ∨ ∃ item, v.item? = some item ∧ item.Fits ∧ Value.ofToml item.value = v ∧
      v.ReadAs v := by
  cases v with
  | text content => exact .inr ⟨.text content, rfl, Item.fits_text _, rfl, .text⟩
  | integer number =>
    simp only [isLeaf, Bool.and_eq_true, decide_eq_true_eq] at h
    have hnumber : ((number.toNat : Nat) : Int) = number := Int.toNat_of_nonneg h.1
    refine .inr ⟨.number number.toNat, rfl, Item.fits_number.2 (by omega), ?_, .integer⟩
    rw [Item.value, Value.ofToml, hnumber]
  | boolean flag => exact .inr ⟨.flag flag, rfl, Item.fits_flag _, rfl, .boolean⟩
  | array items =>
    have htexts := List.all_eq_true.1 h
    refine .inr ⟨_, rfl, Item.fits_texts _, ?_, .array htexts⟩
    rw [Item.value, Value.ofToml, Value.ofToml_texts, map_text_filterMap_text? htexts]
  | absent => exact .inl rfl
  | float => cases h
  | table => cases h

/-- A leaf, or a table whose entries have a property. -/
def Value.LeafOr (P : Entries → Prop) (v : Value) : Prop :=
  v.isLeaf = true ∨ ∃ members, v = .table members ∧ P members

theorem Value.LeafOr.imp {P Q : Entries → Prop} (himp : ∀ members, P members → Q members)
    (h : v.LeafOr P) : v.LeafOr Q := by
  rcases h with hleaf | ⟨members, heq, hmembers⟩
  · exact .inl hleaf
  · exact .inr ⟨members, heq, himp members hmembers⟩

theorem Value.leafOr_of_isMember (h : v.isMember = true) :
    v.LeafOr fun members => members.isGroup = true := by
  cases v with
  | table members => exact .inr ⟨members, rfl, h⟩
  | _ => exact .inl h

/-- The lines of a table fit. -/
theorem fits_lines {P : Entries → Prop} (h : ∀ entry ∈ entries, entry.2.LeafOr P) :
    ∀ line ∈ entries.lines, line.2.Fits := by
  intro line hline
  obtain ⟨⟨key, v⟩, hentry, hform⟩ := List.mem_filterMap.1 hline
  obtain ⟨item, hitem, rfl⟩ := Option.map_eq_some_iff.1 hform
  have hnone : ∀ w, v = w → w.item? ≠ none := by
    rintro _ rfl
    rw [hitem]
    exact Option.some_ne_none item
  rcases h _ hentry with hleaf | ⟨members, heq, -⟩
  · rcases Value.eq_absent_or_item? hleaf with heq | ⟨other, hother, hfits, -⟩
    · exact absurd rfl (hnone _ heq)
    · cases hother.symm.trans hitem
      exact hfits
  · exact absurd rfl (hnone _ heq)

/-! ## Tables -/

/-- The lines of a table, and behind them the tables in it. -/
def gather (value : Entries → Toml.Entries) (entries : Entries) : Toml.Entries :=
  valuesOf entries.lines ++
    entries.tables.map fun (key, members) => (key, .table .header (value members))

theorem mem_of_mem_tables {members : Entries} (h : (key, members) ∈ entries.tables) :
    (key, .table members) ∈ entries := by
  obtain ⟨⟨name, v⟩, hentry, hform⟩ := List.mem_filterMap.1 h
  cases v with
  | table =>
    cases hform
    exact hentry
  | _ => cases hform

theorem Entries.ofToml_eq_map (entries : Toml.Entries) :
    Entries.ofToml entries = entries.map fun (key, v) => (key, Value.ofToml v) := by
  induction entries with
  | nil => rfl
  | cons entry entries ih => exact congrArg (_ :: ·) ih

theorem Entries.ofToml_append (entries more : Toml.Entries) :
    Entries.ofToml (entries ++ more) = Entries.ofToml entries ++ Entries.ofToml more := by
  simp only [Entries.ofToml_eq_map, List.map_append]

theorem gather_cons_item {item : Item} (h : v.item? = some item) :
    gather value ((key, v) :: entries) = (key, item.value) :: gather value entries := by
  have hlines : Entries.lines ((key, v) :: entries) = (key, item) :: entries.lines := by
    simp [Entries.lines, h]
  have htables : Entries.tables ((key, v) :: entries) = entries.tables := by
    cases v with
    | table => cases h
    | _ => rfl
  rw [gather, hlines, htables]
  rfl

/-- A table is parsed as its lines and the tables in it, if those are. -/
theorem readAs_gather (h : ∀ entry ∈ entries, entry.2.LeafOr fun members =>
      (Value.table members).ReadAs (.table (Entries.ofToml (value members)))) :
    (Value.table entries).ReadAs (.table (Entries.ofToml (gather value entries))) := by
  suffices hkept : ∃ kept, Entries.KeptAs entries kept ∧
      kept.Perm (Entries.ofToml (gather value entries)) by
    obtain ⟨kept, hkept, hperm⟩ := hkept
    exact .table hkept hperm
  -- the entries are kept in their order, and only then put behind one another
  induction entries with
  | nil => exact ⟨[], .nil, .refl _⟩
  | cons entry entries ih =>
    obtain ⟨key, v⟩ := entry
    obtain ⟨hown, hothers⟩ := List.forall_mem_cons.1 h
    obtain ⟨kept, hkept, hperm⟩ := ih hothers
    rcases hown with hleaf | ⟨members, heq, hread⟩
    · rcases Value.eq_absent_or_item? hleaf with heq | ⟨item, hitem, -, hvalue, hread⟩
      · cases heq
        exact ⟨kept, .absent hkept, hperm⟩
      · refine ⟨(key, v) :: kept, .entry hread hkept, ?_⟩
        rw [gather_cons_item hitem, Entries.ofToml, hvalue]
        exact hperm.cons _
    · -- a table goes behind the lines
      cases heq
      refine ⟨(key, .table (Entries.ofToml (value members))) :: kept, .entry hread hkept, ?_⟩
      refine (hperm.cons _).trans ?_
      simp only [gather, Entries.ofToml_append]
      exact List.perm_middle.symm

/-- No key comes twice in a table that is parsed. -/
theorem Value.ReadAs.nodup_keys (h : (Value.table entries).ReadAs (.table read))
    (hkeys : entries.distinct = true) : (read.map Prod.fst).Nodup := by
  cases h with
  | table hkept hperm =>
    rw [← (hperm.map Prod.fst).nodup_iff, hkept.map_fst]
    exact (of_decide_eq_true hkeys).sublist (List.filter_sublist.map Prod.fst)

theorem Entries.map_fst_ofToml (entries : Toml.Entries) :
    (Entries.ofToml entries).map Prod.fst = entries.map Prod.fst := by
  simp [Entries.ofToml_eq_map]

theorem map_fst_valuesOf (lines : List (String × Item)) :
    (valuesOf lines).map Prod.fst = lines.map Prod.fst := by
  simp [valuesOf]

theorem map_fst_gather (value : Entries → Toml.Entries) (entries : Entries) :
    (gather value entries).map Prod.fst =
      entries.lines.map Prod.fst ++ entries.tables.map Prod.fst := by
  simp [gather, map_fst_valuesOf]

/-! ## Groups -/

section Groups

variable {group : Entries} (h : group.isGroup = true)

include h

theorem leaves_of_isGroup : ∀ entry ∈ group, entry.2.isLeaf = true :=
  List.all_eq_true.1 (Bool.and_eq_true_iff.1 h).2

theorem tables_of_isGroup : group.tables = [] := by
  apply List.filterMap_eq_nil_iff.2
  rintro ⟨key, v⟩ hentry
  have hleaf := leaves_of_isGroup h _ hentry
  cases v with
  | table => cases hleaf
  | _ => rfl

/-- A group is parsed as its lines. -/
theorem readAs_group :
    (Value.table group).ReadAs (.table (Entries.ofToml (valuesOf group.lines))) := by
  have hform : gather (fun _ => []) group = valuesOf group.lines := by
    rw [gather, tables_of_isGroup h, List.map_nil, List.append_nil]
  rw [← hform]
  apply readAs_gather
  intro entry hentry
  exact .inl (leaves_of_isGroup h entry hentry)

theorem fits_group : ∀ line ∈ group.lines, line.2.Fits := by
  apply fits_lines (P := fun _ => False)
  intro entry hentry
  exact .inl (leaves_of_isGroup h entry hentry)

theorem nodup_group : (group.lines.map Prod.fst).Nodup := by
  rw [← map_fst_valuesOf, ← Entries.map_fst_ofToml]
  exact (readAs_group h).nodup_keys (Bool.and_eq_true_iff.1 h).1

end Groups

/-! ## Sections -/

/-- What a section is parsed as. -/
def sectionValues (members : Entries) : Toml.Entries :=
  gather (fun group => valuesOf group.lines) members

section Sections

variable {members : Entries} (h : (Value.table members).isSection = true)

include h

theorem members_of_isSection :
    ∀ entry ∈ members, entry.2.LeafOr fun group => group.isGroup = true := by
  intro entry hentry
  exact Value.leafOr_of_isMember (List.all_eq_true.1 (Bool.and_eq_true_iff.1 h).2 entry hentry)

theorem groups_of_isSection : ∀ group ∈ members.tables, group.2.isGroup = true := by
  rintro ⟨key, group⟩ hgroup
  rcases members_of_isSection h _ (mem_of_mem_tables hgroup) with hleaf | ⟨_, heq, hmembers⟩
  · cases hleaf
  · cases heq
    exact hmembers

/-- A section is parsed as its lines and the groups in it. -/
theorem readAs_section :
    (Value.table members).ReadAs (.table (Entries.ofToml (sectionValues members))) := by
  apply readAs_gather
  intro entry hentry
  apply (members_of_isSection h entry hentry).imp
  intro group hgroup
  exact readAs_group hgroup

/-- No line of a section has the key of another one or of a group. -/
theorem nodup_section :
    (members.lines.map Prod.fst ++ members.tables.map Prod.fst).Nodup := by
  rw [← map_fst_gather, ← Entries.map_fst_ofToml]
  exact (readAs_section h).nodup_keys (Bool.and_eq_true_iff.1 h).1

end Sections

/-! ## Places -/

section Places

variable {before sub : Toml.Entries} {parent : String}

/-- The groups of a section find their places under it, one after the other. -/
theorem places_groups (hparent : before.lookup parent = none) {groups : List (String × Entries)}
    (hfree : ∀ key ∈ groups.map Prod.fst, sub.lookup key = none)
    (hkeys : (groups.map Prod.fst).Nodup) (hgroups : ∀ group ∈ groups, group.2.isGroup = true) :
    Places (before ++ [(parent, Toml.Value.table .header sub)])
      (groups.map fun (key, group) => ⟨[parent, key], group.lines⟩)
      (before ++ [(parent, Toml.Value.table .header (sub ++ groups.map fun (key, group) =>
        (key, Toml.Value.table .header (valuesOf group.lines))))]) := by
  induction groups generalizing sub with
  | nil =>
    rw [List.map_nil, List.map_nil, List.append_nil]
    exact .nil
  | cons entry groups ih =>
    obtain ⟨key, group⟩ := entry
    obtain ⟨hown, hothers⟩ := List.forall_mem_cons.1 hfree
    obtain ⟨hnew, hdistinct⟩ := List.nodup_cons.1 hkeys
    obtain ⟨hgroup, hmore⟩ := List.forall_mem_cons.1 hgroups
    have hstill := Toml.forall_lookup_concat hothers hnew
      (.table .header (valuesOf group.lines))
    have hrest := ih hstill hdistinct hmore
    rw [List.append_assoc] at hrest
    exact .cons (.under hparent hown (nodup_group hgroup)) hrest

/-- A section finds its place under a key that is free, with the groups in it. -/
theorem places_section (hparent : before.lookup parent = none) {members : Entries}
    (h : (Value.table members).isSection = true) :
    Places before
      (⟨[parent], members.lines⟩ :: members.tables.map fun (key, group) =>
        ⟨[parent, key], group.lines⟩)
      (before ++ [(parent, Toml.Value.table .header (sectionValues members))]) := by
  -- the lines are there before the groups, and no group has the key of a line
  obtain ⟨hlines, htables, hapart⟩ := List.nodup_append.1 (nodup_section h)
  have hfree : ∀ key ∈ members.tables.map Prod.fst, (valuesOf members.lines).lookup key = none := by
    intro key hkey
    exact Toml.lookup_valuesOf fun hline => hapart key hline key hkey rfl
  exact .cons (.top hparent hlines)
    (places_groups hparent hfree htables (groups_of_isSection h))

/-- The sections of a document find their places, one after the other. -/
theorem places_sections {sections : List (String × Entries)}
    (hfree : ∀ name ∈ sections.map Prod.fst, before.lookup name = none)
    (hnames : (sections.map Prod.fst).Nodup)
    (h : ∀ entry ∈ sections, (Value.table entry.2).isSection = true) :
    Places before
      (sections.flatMap fun (name, members) => ⟨[name], members.lines⟩ ::
        members.tables.map fun (key, group) => ⟨[name, key], group.lines⟩)
      (before ++ sections.map fun (name, members) =>
        (name, Toml.Value.table .header (sectionValues members))) := by
  induction sections generalizing before with
  | nil =>
    rw [List.map_nil, List.append_nil]
    exact .nil
  | cons entry sections ih =>
    obtain ⟨name, members⟩ := entry
    obtain ⟨hown, hothers⟩ := List.forall_mem_cons.1 hfree
    obtain ⟨hnew, hdistinct⟩ := List.nodup_cons.1 hnames
    obtain ⟨hsection, hmore⟩ := List.forall_mem_cons.1 h
    have hstill := Toml.forall_lookup_concat hothers hnew
      (.table .header (sectionValues members))
    have hrest := ih hstill hdistinct hmore
    rw [List.append_assoc] at hrest
    exact (places_section hown hsection).append hrest

end Places

/-! ## Documents -/

section Documents

variable (h : entries.isDocument = true)

include h

theorem sections_of_isDocument : ∀ entry ∈ entries, entry.2.isSection = true :=
  List.all_eq_true.1 (Bool.and_eq_true_iff.1 h).2

theorem tables_of_isDocument :
    ∀ entry ∈ entries.tables, (Value.table entry.2).isSection = true := by
  rintro ⟨name, members⟩ hentry
  exact sections_of_isDocument h _ (mem_of_mem_tables hentry)

theorem lines_of_isDocument : entries.lines = [] := by
  apply List.filterMap_eq_nil_iff.2
  rintro ⟨key, v⟩ hentry
  have hsection := sections_of_isDocument h _ hentry
  cases v with
  | table => rfl
  | _ => cases hsection

/-- A document is parsed as its sections. -/
theorem readAs_document :
    (Value.table entries).ReadAs (.table (Entries.ofToml (gather sectionValues entries))) := by
  apply readAs_gather
  rintro ⟨key, v⟩ hentry
  have hsection := sections_of_isDocument h _ hentry
  cases v with
  | table members => exact .inr ⟨members, rfl, readAs_section hsection⟩
  | _ => cases hsection

theorem nodup_document : (entries.tables.map Prod.fst).Nodup := by
  have hnodup := (readAs_document h).nodup_keys (Bool.and_eq_true_iff.1 h).1
  rw [Entries.map_fst_ofToml, map_fst_gather, lines_of_isDocument h] at hnodup
  exact hnodup

/-- The sections of a document can be written. -/
theorem fits_sections : ∀ t ∈ entries.sections, t.Fits := by
  have hlong : 2 < Toml.depthLimit := by decide
  intro t ht
  obtain ⟨⟨name, members⟩, hentry, ht⟩ := List.mem_flatMap.1 ht
  have hsection := tables_of_isDocument h _ hentry
  rcases List.mem_cons.1 ht with rfl | ht
  · exact ⟨List.cons_ne_nil _ _, Nat.lt_of_succ_lt hlong,
      fits_lines (members_of_isSection hsection)⟩
  · obtain ⟨⟨key, group⟩, hgroup, rfl⟩ := List.mem_map.1 ht
    exact ⟨List.cons_ne_nil _ _, hlong, fits_group (groups_of_isSection hsection _ hgroup)⟩

/-- The printed sections of a document are parsed as the document. -/
theorem parse?_sections : Toml.parse? (String.ofList (Toml.renderTables entries.sections)) =
    some (gather sectionValues entries) := by
  have hplaces : Places [] entries.sections _ :=
    places_sections (fun _ _ => List.lookup_nil) (nodup_document h) (tables_of_isDocument h)
  rw [gather, lines_of_isDocument h]
  exact Toml.parse?_renderTables (fits_sections h) hplaces

end Documents

/-- The standard libraries parse the documents that they print, and read the words of levels. -/
theorem standard_faithful : Libraries.standard.Faithful where
  prints entries h := ⟨_, if_pos h⟩
  reads_back entries text h hprint := by
    cases hprint.symm.trans (if_pos h)
    refine ⟨Entries.ofToml (gather sectionValues entries), ?_, readAs_document h⟩
    simp only [Libraries.standard, parse?_sections h, Option.map_some]
  reads_levels := LogLevel.parse?_word

end PeerLink.Config
