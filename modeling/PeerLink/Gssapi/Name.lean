import PeerLink.Fault
import PeerLink.Text.Split

/-!
# Names for the security library

Principal names with their interpretation, and dotted object identifiers of mechanisms.
-/

set_option autoImplicit false

namespace PeerLink.Gssapi

/-- How the security library interprets a principal name. -/
inductive NameType where
  /-- A service on a host, `service@host`. -/
  | hostBased
  /-- A local user. -/
  | userName
  /-- A full principal, `primary/instance@REALM`. -/
  | kerberosPrincipal
  deriving DecidableEq, Repr

namespace NameType

/-- Every name type. -/
def all : List NameType := [hostBased, userName, kerberosPrincipal]

/-- The word for a name type in a configuration. -/
def word : NameType → String
  | hostBased => "host_based"
  | userName => "user_name"
  | kerberosPrincipal => "kerberos_principal"

/-- The name type with exactly this word. -/
def ofWord? (text : String) : Option NameType := all.find? fun t => t.word == text

/-- The name type with this option number. -/
def ofNumber? : Int → Option NameType
  | 0 => some hostBased
  | 1 => some userName
  | 2 => some kerberosPrincipal
  | _ => none

theorem ofWord?_word (t : NameType) : ofWord? t.word = some t := by cases t <;> rfl

end NameType

/-- A principal name and its interpretation. -/
structure ServiceName where
  name : String
  nameType : NameType
  deriving DecidableEq, Repr

/-- Whether a text is a dotted identifier: arcs of ASCII digits between single dots. -/
def isDotted (text : String) : Bool :=
  (Split.atEach '.' text.toList).all fun arc => !arc.isEmpty && arc.all Char.isDigit

/-- The object identifier of a mechanism, in dotted form. -/
structure Oid where
  text : String
  dotted : isDotted text = true
  deriving DecidableEq, Repr

namespace Oid

/-- The dotted form of the Kerberos V5 mechanism. -/
def kerberosText : String := "1.2.840.113554.1.2.2"

/-- Reads a dotted identifier. -/
def parse (text : String) : Except Fault Oid :=
  if h : isDotted text = true then .ok ⟨text, h⟩ else .error (.config (.invalidOid text))

/-- Whether an identifier names the Kerberos V5 mechanism. -/
def isKerberos (oid : Oid) : Bool := oid.text == kerberosText

/-- Reads several identifiers; the first refusal wins. -/
def parseAll : List String → Except Fault (List Oid)
  | [] => .ok []
  | text :: more => do
      let oid ← parse text
      let oids ← parseAll more
      return oid :: oids

end Oid

end PeerLink.Gssapi
