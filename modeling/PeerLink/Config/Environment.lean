import PeerLink.Config.Options

/-!
# Environment variables

Five variables change the configuration that holds where nothing is said. They are read in a fixed
order, and the first one that cannot be read is reported.
-/

set_option autoImplicit false

namespace PeerLink

/-- The variables of a process; those that are not set or are not text have no value. -/
abbrev Variables := String → Option String

namespace Variables

/-- Whether IPv6 is used. -/
def ipv6 : String := "ZMTP_CONNECT_IPV6"

/-- The local VMCI context id. -/
def vmciLocalCid : String := "ZMTP_CONNECT_VMCI_LOCAL_CID"

/-- The security mechanism. -/
def mechanism : String := "ZMTP_CONNECT_MECHANISM"

/-- The GSSAPI service principal. -/
def servicePrincipal : String := "ZMTP_CONNECT_GSSAPI_SERVICE_PRINCIPAL"

/-- Whether GSSAPI only authenticates. -/
def plaintext : String := "ZMTP_CONNECT_GSSAPI_PLAINTEXT"

/-- The truth value of a word in any case. -/
def flag? (text : String) : Option Bool :=
  if ["1", "true", "yes", "on"].any (Letters.sameIgnoringCase · text) then some true
  else if ["0", "false", "no", "off"].any (Letters.sameIgnoringCase · text) then some false
  else none

/-- The truth value of a variable. -/
def readFlag (variableName text : String) : Except Fault Bool :=
  match flag? text with
  | some b => .ok b
  | none => .error (.config (.booleanVariable variableName text))

/-- A context id. -/
def readCid (text : String) : Except Fault UInt32 :=
  match Numeral.readUInt32? text.toList with
  | some n => .ok n
  | none => .error (.config (.contextIdVariable text))

end Variables

namespace Configuration

/-- Changes a configuration by the value of a variable, if it has one. -/
def override {α : Type} (vars : Variables) (variableName : String) (read : String → Except Fault α)
    (put : α → Configuration → Configuration) (c : Configuration) : Except Fault Configuration :=
  match vars variableName with
  | none => .ok c
  | some text => (read text).map fun a => put a c

/-- The configuration that the variables describe. -/
def ofVariables (vars : Variables) : Except Fault Configuration := do
  let c : Configuration := {}
  let c ← c.override vars Variables.ipv6 (Variables.readFlag Variables.ipv6) fun b c =>
    { c with transport.ipv6 := b }
  let c ← c.override vars Variables.vmciLocalCid Variables.readCid fun n c =>
    { c with transport.vmciLocalCid := some n }
  let c ← c.override vars Variables.mechanism MechanismName.parse fun m c =>
    { c with security.mechanism := m }
  let c ← c.override vars Variables.servicePrincipal .ok fun s c =>
    { c with security.gssapi.servicePrincipal := s }
  c.override vars Variables.plaintext (Variables.readFlag Variables.plaintext) fun b c =>
    { c with security.gssapi.plaintext := b }

end Configuration

end PeerLink
