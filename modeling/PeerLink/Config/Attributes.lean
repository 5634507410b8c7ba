/-!
# Attributes

Application metadata of a configuration: a table from names to texts, sorted by name.
A table is the table of its entries, in whichever order they come (`Attributes.ofList_of_perm`).
-/

set_option autoImplicit false

namespace PeerLink

/-- A table from names to texts, in increasing order of the names, each of which has one text. -/
@[ext]
structure Attributes where
  entries : List (String × String)
  sorted : entries.Pairwise fun a b => a.1 < b.1
  deriving DecidableEq, Repr

namespace Attributes

/-- The table without entries. -/
def empty : Attributes := ⟨[], .nil⟩

instance : Inhabited Attributes := ⟨empty⟩

/-- Puts an entry at its place in a list of entries; an entry with the same name is replaced. -/
def put (name text : String) : List (String × String) → List (String × String)
  | [] => [(name, text)]
  | (n, t) :: rest =>
      if name < n then (name, text) :: (n, t) :: rest
      else if name = n then (name, text) :: rest
      else (n, t) :: put name text rest

theorem mem_put {name text : String} {entries : List (String × String)} {e : String × String}
    (h : e ∈ put name text entries) : e = (name, text) ∨ e ∈ entries := by
  induction entries with
  | nil => exact .inl (List.mem_singleton.1 h)
  | cons d rest ih =>
      unfold put at h
      split at h
      · exact List.mem_cons.1 h
      · split at h
        · rcases List.mem_cons.1 h with h | h
          · exact .inl h
          · exact .inr (List.mem_cons_of_mem _ h)
        · rcases List.mem_cons.1 h with h | h
          · exact .inr (h ▸ List.mem_cons_self)
          · exact (ih h).imp id (List.mem_cons_of_mem _)

theorem pairwise_put {name text : String} {entries : List (String × String)}
    (h : entries.Pairwise fun a b => a.1 < b.1) :
    (put name text entries).Pairwise fun a b => a.1 < b.1 := by
  induction entries with
  | nil => exact List.pairwise_singleton _ _
  | cons d rest ih =>
      obtain ⟨hd, hr⟩ := List.pairwise_cons.1 h
      unfold put
      split
      · next hlt =>
        -- the new entry comes before all others
        refine List.pairwise_cons.2 ⟨fun e he => ?_, h⟩
        rcases List.mem_cons.1 he with rfl | he
        · exact hlt
        · exact String.lt_trans hlt (hd e he)
      · next hnlt =>
        split
        · next heq =>
          -- the new entry takes the place of the first one
          exact List.pairwise_cons.2 ⟨fun e he => heq ▸ hd e he, hr⟩
        · next hne =>
          -- the new entry comes further down
          refine List.pairwise_cons.2 ⟨fun e he => ?_, ih hr⟩
          rcases mem_put he with rfl | he
          · exact Std.lt_of_le_of_ne (String.not_lt.1 hnlt) (Ne.symm hne)
          · exact hd e he

/-- The table with one more entry; an entry with the same name is replaced. -/
def insert (as : Attributes) (name text : String) : Attributes :=
  ⟨put name text as.entries, pairwise_put as.sorted⟩

/-- The table of a list of entries; of two with one name the later counts. -/
def ofList (entries : List (String × String)) : Attributes :=
  entries.foldl (fun as (name, text) => as.insert name text) empty

/-- A new name is put in without a change to the other entries. -/
theorem put_perm {name text : String} {entries : List (String × String)}
    (h : name ∉ entries.map Prod.fst) : (put name text entries).Perm ((name, text) :: entries) := by
  induction entries with
  | nil => exact .refl _
  | cons d rest ih =>
      have hne : name ≠ d.1 := List.ne_of_not_mem_cons h
      have hrest : name ∉ rest.map Prod.fst := List.not_mem_of_not_mem_cons h
      rw [put, if_neg hne]
      split
      · exact .refl _
      · exact (List.Perm.cons d (ih hrest)).trans (.swap _ _ _)

/-- Entries with new names are inserted without a change to the others. -/
theorem entries_foldl_insert (as : Attributes) (more : List (String × String))
    (h : ((more ++ as.entries).map Prod.fst).Nodup) :
    (more.foldl (fun as (name, text) => as.insert name text) as).entries.Perm
      (more ++ as.entries) := by
  induction more generalizing as with
  | nil => exact .refl _
  | cons e more ih =>
      obtain ⟨name, text⟩ := e
      have hput : (as.insert name text).entries.Perm ((name, text) :: as.entries) := by
        refine put_perm fun hname => (List.nodup_cons.1 h).1 ?_
        exact List.map_subset _ (List.subset_append_right more as.entries) hname
      have hmiddle : (more ++ (as.insert name text).entries).Perm
          ((name, text) :: (more ++ as.entries)) :=
        (hput.append_left more).trans List.perm_middle
      exact (ih _ ((hmiddle.map Prod.fst).nodup_iff.2 h)).trans hmiddle

/-- The names of a table differ. -/
theorem nodup_names (as : Attributes) : (as.entries.map Prod.fst).Nodup := by
  refine List.pairwise_map.2 (as.sorted.imp ?_)
  intro d e hlt heq
  exact String.lt_irrefl _ (heq ▸ hlt)

/-- A table is rebuilt from its entries, in whichever order they come. -/
theorem ofList_of_perm {as : Attributes} {entries : List (String × String)}
    (h : entries.Perm as.entries) : ofList entries = as := by
  have hnames : ((entries ++ empty.entries).map Prod.fst).Nodup := by
    rw [empty, List.append_nil]
    exact (h.map Prod.fst).nodup_iff.2 as.nodup_names
  have hperm : (ofList entries).entries.Perm as.entries := by
    have hbuilt := entries_foldl_insert empty entries hnames
    rw [empty, List.append_nil] at hbuilt
    exact hbuilt.trans h
  -- two sorted lists with the same entries are one
  refine Attributes.ext (hperm.eq_of_pairwise ?_ (ofList entries).sorted as.sorted)
  intro d e _ _ hlt hgt
  exact absurd hgt (String.lt_asymm hlt)

end Attributes

end PeerLink
