import PeerLink.Fault
import PeerLink.Text.Letters
import PeerLink.Text.Utf8

/-!
# Mechanism names

The three security mechanisms, their names, and the fixed-width field of a greeting that carries
a name. `MechanismName.ofGreetingField_greetingField` says that a written field reads back.
-/

set_option autoImplicit false

namespace PeerLink

/-- A security mechanism. -/
inductive MechanismName where
  | null
  | plain
  | gssapi
  deriving DecidableEq, Repr

namespace MechanismName

/-- Every mechanism. -/
def all : List MechanismName := [null, plain, gssapi]

/-- The announced name. -/
def name : MechanismName → String
  | null => "NULL"
  | plain => "PLAIN"
  | gssapi => "GSSAPI"

/-- The word for a mechanism in a configuration. -/
def word : MechanismName → String
  | null => "null"
  | plain => "plain"
  | gssapi => "gssapi"

/-- The mechanism with exactly this word. -/
def ofWord? (text : String) : Option MechanismName := all.find? fun m => m.word == text

/-- Reads a mechanism name in any case. -/
def parse (text : String) : Except Fault MechanismName :=
  match all.find? fun m => Letters.sameIgnoringCase m.name text with
  | some m => .ok m
  | none => .error (.config (.unknownMechanism text))

/-- The width of the field that carries a name in a greeting. -/
def greetingWidth : Nat := 20

/-- The greeting field: the name, filled up with zero bytes. -/
def greetingField (m : MechanismName) : Bytes :=
  Utf8.encode m.name ++ List.replicate (greetingWidth - m.name.utf8ByteSize) 0

/-- Reads a greeting field: the name ends at the first zero byte or with the field. -/
def ofGreetingField (field : Bytes) : Except Fault MechanismName :=
  match Utf8.decode? (field.takeWhile (· != 0)) with
  | some text => parse text
  | none => .error (.malformed .mechanismName)

theorem ofWord?_word (m : MechanismName) : ofWord? m.word = some m := by cases m <;> rfl

theorem parse_name (m : MechanismName) : parse m.name = .ok m := by
  have h : all.find? (fun n => Letters.sameIgnoringCase n.name m.name) = some m := by
    cases m <;> decide +kernel
  rw [parse, h]

theorem ofGreetingField_greetingField (m : MechanismName) :
    ofGreetingField m.greetingField = .ok m := by
  have h : (greetingField m).takeWhile (· != 0) = Utf8.encode m.name := by
    cases m <;> decide +kernel
  rw [ofGreetingField, h, Utf8.decode?_encode]
  exact parse_name m

end MechanismName

end PeerLink
