import PeerLink.Metadata
import PeerLink.Text.Letters

/-!
# Property tables

The properties of one peer, in wire order. Names differ by more than ASCII letter case, so a name
in any case finds at most one property.
-/

set_option autoImplicit false

namespace PeerLink

/-- The properties of one peer. -/
structure Properties where
  entries : List Property
  distinct : entries.Pairwise fun p q => Letters.sameIgnoringCase p.name q.name = false
  deriving DecidableEq

namespace Properties

/-- No properties. -/
def empty : Properties := ⟨[], .nil⟩

instance : Inhabited Properties := ⟨empty⟩

/-- The first property with this name in any case. -/
def lookup (entries : List Property) (name : String) : Option Property :=
  entries.find? fun p => Letters.sameIgnoringCase p.name name

/-- The value stored under a name in any case. -/
def get? (ps : Properties) (name : String) : Option Bytes :=
  (lookup ps.entries name).map Property.value

/-- Whether a name in any case is present. -/
def contains (ps : Properties) (name : String) : Bool := (ps.get? name).isSome

/-- The table with one more property at the end, unless the name is taken. -/
def push (ps : Properties) (p : Property) : Except Fault Properties :=
  if h : lookup ps.entries p.name = none then
    .ok ⟨ps.entries ++ [p], by
      simp only [lookup, List.find?_eq_none, Bool.not_eq_true] at h
      exact List.pairwise_append.2
        ⟨ps.distinct, List.pairwise_singleton _ _, fun q hq r hr => by
          rw [List.mem_singleton.1 hr]
          exact h q hq⟩⟩
  else .error (.malformed (.duplicateProperty p.name))

/-- The table with more properties at the end, unless a name repeats. -/
def pushAll (ps : Properties) : List Property → Except Fault Properties
  | [] => .ok ps
  | p :: more =>
      match ps.push p with
      | .ok longer => longer.pushAll more
      | .error fault => .error fault

/-- The properties of a metadata block. The whole block is read before names are compared. -/
def ofBlock (data : Bytes) : Except Fault Properties :=
  match Metadata.parseBlock data with
  | .ok entries => empty.pushAll entries
  | .error fault => .error fault

end Properties

end PeerLink
