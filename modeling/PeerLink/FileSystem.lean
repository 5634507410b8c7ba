import PeerLink.Bytes
import PeerLink.Text.Split

/-!
# File systems

A tree of directories and files, with a directory that relative paths start from. A path is followed
name by name, and every place that it goes through must be a directory. `FileSystem.read?_write?`
says that a written file is read back.
-/

set_option autoImplicit false

namespace PeerLink

/-- A place in a tree: the names on the way from the place up to the root. -/
abbrev Place := List (List Char)

/-- What can stand at a place. -/
inductive FileNode where
  | directory
  | file (data : Bytes)
  deriving DecidableEq, Repr

/-- A tree of directories and files. -/
structure FileSystem where
  /-- What stands at a place, if anything does. -/
  node? : Place → Option FileNode
  /-- The directory that relative paths start from. -/
  start : Place

namespace FileSystem

/-- The longest name, in bytes. -/
def nameLimit : Nat := 255

/-- The longest path, in bytes. -/
def pathLimit : Nat := 4095

/-- Whether a directory stands at a place. -/
def isDirectory (files : FileSystem) (place : Place) : Bool :=
  files.node? place = some .directory

/-- Follows names from a place. An empty name and a single dot stay, two dots go up, and the root
is above itself. -/
def follow (files : FileSystem) : Place → List (List Char) → Option Place
  | place, [] => some place
  | place, name :: names =>
      if files.isDirectory place && (String.ofList name).utf8ByteSize ≤ nameLimit then
        if name = [] ∨ name = ['.'] then files.follow place names
        else if name = ['.', '.'] then files.follow place.tail names
        else files.follow (name :: place) names
      else none

/-- The place of a path, where something may or may not stand. -/
def locate? (files : FileSystem) (path : String) : Option Place :=
  let cs := path.toList
  if cs = [] ∨ pathLimit < path.utf8ByteSize ∨ '\x00' ∈ cs then none
  else files.follow (if cs.head? = some '/' then [] else files.start) (Split.atEach '/' cs)

/-- Whether anything stands at a path. -/
def has (files : FileSystem) (path : String) : Bool :=
  ((files.locate? path).bind files.node?).isSome

/-- Whether a file can be opened or made at a path to write to it. -/
def canWrite (files : FileSystem) (path : String) : Bool :=
  match files.locate? path with
  | some place => !files.isDirectory place
  | none => false

/-- What reading yields: nothing if the path does not open, and nothing inside if a directory
opens. -/
def read? (files : FileSystem) (path : String) : Option (Option Bytes) :=
  match (files.locate? path).bind files.node? with
  | some (.file data) => some (some data)
  | some .directory => some none
  | none => none

/-- The tree with other bytes in the file at a place. -/
def put (files : FileSystem) (place : Place) (data : Bytes) : FileSystem where
  node? p := if p = place then some (.file data) else files.node? p
  start := files.start

/-- The tree after a file has been written or made. -/
def write? (files : FileSystem) (path : String) (data : Bytes) : Option FileSystem :=
  match files.locate? path with
  | some place => if files.isDirectory place then none else some (files.put place data)
  | none => none

/-- Writing a file makes and removes no directory. -/
theorem isDirectory_put {files : FileSystem} {place : Place}
    (h : files.isDirectory place = false) (data : Bytes) (p : Place) :
    (files.put place data).isDirectory p = files.isDirectory p := by
  unfold isDirectory put
  by_cases hp : p = place
  · subst hp
    rw [isDirectory] at h
    rw [h]
    simp
  · simp [hp]

/-- A path leads to the same place after a file has been written. -/
theorem follow_put {files : FileSystem} {place : Place} (h : files.isDirectory place = false)
    (data : Bytes) (names : List (List Char)) (p : Place) :
    (files.put place data).follow p names = files.follow p names := by
  induction names generalizing p with
  | nil => rfl
  | cons name names ih => simp only [follow, isDirectory_put h, ih]

theorem locate?_put {files : FileSystem} {place : Place} (h : files.isDirectory place = false)
    (data : Bytes) (path : String) :
    (files.put place data).locate? path = files.locate? path := by
  simp only [locate?, follow_put h]
  rfl

theorem read?_write? {files after : FileSystem} {path : String} {data : Bytes}
    (h : files.write? path data = some after) : after.read? path = some (some data) := by
  unfold write? at h
  split at h
  · next place hplace =>
    split at h
    · cases h
    · next hdir =>
      have hfile : files.isDirectory place = false := by simpa using hdir
      cases h
      rw [read?, locate?_put hfile, hplace]
      simp [put]
  · cases h

end FileSystem

end PeerLink
