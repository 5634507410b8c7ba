import PeerLink.Config.Attributes
import PeerLink.Gssapi.Name
import PeerLink.Mechanism.Name

/-!
# Options

The settings of a connection: resolution policy, security options and logging, with the values
that hold where nothing is said.
-/

set_option autoImplicit false

namespace PeerLink

/-- The policy under which endpoints are resolved. -/
structure TransportPolicy where
  /-- Whether IPv6 results are accepted. -/
  ipv6 : Bool := false
  /-- The context id that `@` stands for in a VMCI endpoint. -/
  vmciLocalCid : Option UInt32 := none
  deriving DecidableEq, Repr

/-- User name and password in clear text. -/
structure Credentials where
  username : String := ""
  password : String := ""
  deriving DecidableEq, Repr

/-- The options of the GSSAPI mechanism. -/
structure GssapiOptions where
  principal : Option String := none
  principalNameType : Gssapi.NameType := .hostBased
  servicePrincipal : String := ""
  servicePrincipalNameType : Gssapi.NameType := .hostBased
  /-- Authenticate only; traffic is not protected. -/
  plaintext : Bool := false
  /-- Dotted identifiers of the acceptable mechanisms, the preferred ones first. -/
  mechanisms : List String := [Gssapi.Oid.kerberosText]
  deriving DecidableEq, Repr

/-- What a socket announces and how it authenticates. -/
structure SecurityOptions where
  mechanism : MechanismName := .null
  socketType : SocketType := .dealer
  routingId : Option String := none
  metadata : Attributes := .empty
  plain : Credentials := {}
  gssapi : GssapiOptions := {}
  deriving DecidableEq, Repr

/-- How much is logged. -/
inductive LogLevel where
  | error | warn | info | debug | trace
  deriving DecidableEq, Repr

namespace LogLevel

/-- The word for a level. -/
def word : LogLevel → String
  | error => "error"
  | warn => "warn"
  | info => "info"
  | debug => "debug"
  | trace => "trace"

end LogLevel

/-- Where and how much is logged. -/
structure LoggingOptions where
  appName : String := "zmtp-connect"
  logLevel : LogLevel := .info
  logToConsole : Bool := true
  logToFile : Bool := false
  logFilePath : Option String := none
  jsonFormat : Bool := false
  deriving DecidableEq, Repr

/-- All settings. -/
structure Configuration where
  transport : TransportPolicy := {}
  security : SecurityOptions := {}
  logging : LoggingOptions := {}
  deriving DecidableEq, Repr

end PeerLink
