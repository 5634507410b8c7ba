import PeerLink.Text.Numeral

/-!
# Causes of a refused endpoint

Why an endpoint text is malformed, and why a well-formed one cannot be resolved.
-/

set_option autoImplicit false

namespace PeerLink

/-- A flaw of an endpoint text that is reported together with the text. -/
inductive EndpointFlaw where
  | missingPort
  | invalidPort
  | wildcardPort
  | emptyHost
  | wildcardHost
  | invalidIpv6
  | scopeNotNumeric
  | destinationFamily
  | targetFamily
  | multicastInterface
  | randomPortId
  | missingReference
  | invalidNode
  | invalidReference
  | invalidDomain
  | unknownTipcForm
  | fieldNotNumeric
  | boundsReversed
  | fieldCount
  | reservedType
  | invalidContextId
  deriving DecidableEq, Repr

/-- The flaw in words. -/
def EndpointFlaw.message : EndpointFlaw → String
  | missingPort => "missing ':' port delimiter"
  | invalidPort => "invalid port"
  | wildcardPort => "wildcard port is only valid when binding"
  | emptyHost => "empty host"
  | wildcardHost => "wildcard host is only valid when binding"
  | invalidIpv6 => "invalid IPv6 address"
  | scopeNotNumeric => "IPv6 scope must be numeric"
  | destinationFamily => "source and destination address families differ"
  | targetFamily => "source and target address families differ"
  | multicastInterface => "IPv6 multicast requires an interface"
  | randomPortId => "random port id is only valid when binding"
  | missingReference => "port id needs ':ref'"
  | invalidNode => "invalid node"
  | invalidReference => "invalid port reference"
  | invalidDomain => "invalid domain"
  | unknownTipcForm => "unrecognised TIPC address"
  | fieldNotNumeric => "fields must be numeric"
  | boundsReversed => "lower bound exceeds upper bound"
  | fieldCount => "expected \x7btype,lower,upper\x7d or \x7btype,instance\x7d"
  | reservedType => "service type is reserved"
  | invalidContextId => "invalid VMCI context ID"

/-- Why an endpoint text is malformed. -/
inductive AddressFault where
  | flawed (flaw : EndpointFlaw) (text : String)
  | emptySource
  | sourceWithPort (source : String)
  | interfaceNul (name : String)
  | emptyPath
  | longPath (size : Nat)
  | pathNul
  | emptyAbstractName
  deriving DecidableEq, Repr

/-- The fault in words. -/
def AddressFault.message : AddressFault → String
  | flawed flaw text => flaw.message ++ ": '" ++ text ++ "'"
  | emptySource => "empty UDP source"
  | sourceWithPort source => "UDP source takes no port: '" ++ source ++ "'"
  | interfaceNul name => "interface name contains NUL: '" ++ name ++ "'"
  | emptyPath => "empty IPC path"
  | longPath size => "IPC path too long: " ++ Numeral.decimal size ++ " bytes (maximum: 107)"
  | pathNul => "IPC path contains NUL"
  | emptyAbstractName => "abstract IPC name is empty"

/-- Why a well-formed endpoint cannot be resolved. -/
inductive ResolutionFault where
  | ipv6Disabled (text : String)
  | notNumeric (host : String)
  | unknownHost (host : String)
  | noUsableAddress (host : String)
  | unknownInterface (name : String)
  | unknownContextId
  deriving DecidableEq, Repr

/-- The fault in words. -/
def ResolutionFault.message : ResolutionFault → String
  | ipv6Disabled text => "IPv6 address requires the ipv6 option: " ++ text
  | notNumeric host => "'" ++ host ++ "' is not a numeric address"
  | unknownHost host => host ++ ": unknown host"
  | noUsableAddress host => host ++ ": no usable address"
  | unknownInterface name => "unknown interface '" ++ name ++ "'"
  | unknownContextId => "local VMCI context ID is unknown"

end PeerLink
