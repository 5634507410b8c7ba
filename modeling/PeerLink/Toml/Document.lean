import PeerLink.Toml.Value

/-!
# TOML documents

A document is a list of lines: key-value lines and headers. `Document.ofLines?` builds the table
that the lines describe, or refuses lines that define something twice. Tables keep their entries in
the order in which they were completed.
-/

set_option autoImplicit false

namespace PeerLink.Toml

/-- A line that says something. A key is the parts of a dotted key and its last part. -/
inductive Line where
  | entry (path : List String) (key : String) (value : Value)
  | header (path : List String) (key : String)
  | arrayHeader (path : List String) (key : String)
  deriving Repr

namespace Entries

/-- The entries with another value under a key that is present. -/
def replace (entries : Entries) (key : String) (value : Value) : Entries :=
  entries.map fun (k, v) => if k = key then (k, value) else (k, v)

/-- The entries without a key. -/
def remove (entries : Entries) (key : String) : Entries := entries.filter fun (k, _) => k ≠ key

/-- Changes the table at the end of a path and returns what the change yields besides. Tables that
are missing on the way are opened as `opened`. A path may run through the last table of an array of
tables, but not through a table that forbids additions. -/
def change {α : Type} (opened : Origin) (f : Origin → Entries → Option (α × Entries)) :
    List String → Origin → Entries → Option (α × Entries)
  | [], origin, entries => f origin entries
  | key :: path, _, entries =>
      match entries.lookup key with
      | none =>
          match change opened f path opened [] with
          | some (a, sub) => some (a, entries ++ [(key, .table opened sub)])
          | none => none
      | some (.table origin sub) =>
          -- dotted keys do not reach into a table that has a header of its own
          if origin = .inline ∨ (opened = .dotted ∧ origin = .header) then none
          else
            match change opened f path origin sub with
            | some (a, sub) => some (a, replace entries key (.table origin sub))
            | none => none
      | some (.tables items) =>
          match items.getLast? with
          | some (.table origin sub) =>
              match change opened f path origin sub with
              | some (a, sub) =>
                  some (a, replace entries key (.tables (items.dropLast ++ [.table origin sub])))
              | none => none
          | _ => none
      | some _ => none

/-- Adds a key-value line. The last part of a dotted key belongs to a table that dotted keys have
opened, a single key does not; no key is set twice. -/
def put (entries : Entries) (path : List String) (key : String) (value : Value) : Option Entries :=
  let set (origin : Origin) (table : Entries) : Option (Unit × Entries) :=
    -- the table of a dotted key must be one that dotted keys opened, and only of such a key
    if (origin = .dotted ↔ path = []) ∨ (table.lookup key).isSome then none
    else some ((), table ++ [(key, value)])
  (change .dotted set path .header entries).map Prod.snd

/-- Takes out a table that only longer headers have opened, to be opened by its own header; a key
that is free gives an empty table. -/
def takeOut (entries : Entries) (path : List String) (key : String) : Option (Entries × Entries) :=
  let take (_ : Origin) (table : Entries) : Option (Entries × Entries) :=
    match table.lookup key with
    | none => some ([], table)
    | some (.table .path sub) => some (sub, remove table key)
    | some _ => none
  change .path take path .header entries

/-- Puts a finished table of a header in. -/
def close (entries : Entries) (path : List String) (key : String) (finished : Entries) :
    Option Entries :=
  let insert (_ : Origin) (table : Entries) : Option (Unit × Entries) :=
    match table.lookup key with
    | none => some ((), table ++ [(key, .table .header finished)])
    | some _ => none
  (change .path insert path .header entries).map Prod.snd

/-- Puts a finished table of a double-bracketed header in. -/
def closeItem (entries : Entries) (path : List String) (key : String) (finished : Entries) :
    Option Entries :=
  let insert (_ : Origin) (table : Entries) : Option (Unit × Entries) :=
    match table.lookup key with
    | none => some ((), table ++ [(key, .tables [.table .header finished])])
    | some (.tables items) =>
        some ((), replace table key (.tables (items ++ [.table .header finished])))
    | some _ => none
  (change .path insert path .header entries).map Prod.snd

/-- The table in braces that key-value pairs describe. -/
def ofPairs? (pairs : List (List String × String × Value)) : Option Entries :=
  pairs.foldlM (fun entries (path, key, value) => entries.put path key value) []

end Entries

/-- The header under which lines are read. -/
inductive Section where
  /-- Before the first header. -/
  | top
  | table (path : List String) (key : String)
  | item (path : List String) (key : String)
  deriving DecidableEq, Repr

/-- A document under construction: what is finished, and the table of the current header. -/
structure Draft where
  finished : Entries
  here : Section
  current : Entries

namespace Draft

/-- A document without lines. -/
def start : Draft := ⟨[], .top, []⟩

/-- The document when the current table is complete. -/
def close (d : Draft) : Option Entries :=
  match d.here with
  | .top => some d.current
  | .table path key => d.finished.close path key d.current
  | .item path key => d.finished.closeItem path key d.current

/-- The document with one more line. -/
def add (d : Draft) : Line → Option Draft
  | .entry path key value => (d.current.put path key value).map fun current => { d with current }
  | .header path key => do
      let finished ← d.close
      let (current, finished) ← finished.takeOut path key
      return ⟨finished, .table path key, current⟩
  | .arrayHeader path key => do
      let finished ← d.close
      return ⟨finished, .item path key, []⟩

end Draft

/-- The table that lines describe. -/
def Document.ofLines? (lines : List Line) : Option Entries := do
  let draft ← lines.foldlM Draft.add Draft.start
  draft.close

end PeerLink.Toml
