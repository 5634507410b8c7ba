import PeerLink.Fault
import PeerLink.Ip.Parser
import PeerLink.Network

/-!
# Host and port

The text `host:port` that the internet transports share. The host is the wildcard `*`, an address
literal, perhaps in brackets and with a numeric scope, or a name. The last colon divides host and
port; faults are reported in the order port, host.
-/

set_option autoImplicit false

namespace PeerLink

/-- What an endpoint is resolved for. -/
inductive Role where
  /-- To accept peers: wildcards are allowed, names are not looked up. -/
  | bind
  /-- To reach a peer. -/
  | connect
  deriving DecidableEq, Repr

/-- What a resolver accepts. -/
structure HostRules where
  /-- The host and the port may be wildcards. -/
  wildcards : Bool
  /-- Names are looked up. -/
  names : Bool
  /-- IPv6 results are accepted, and `*` is the IPv6 wildcard. -/
  ipv6 : Bool
  deriving DecidableEq, Repr

/-- The rules for a peer or bind address. -/
def HostRules.ofRole (role : Role) (ipv6 : Bool) : HostRules :=
  match role with
  | .bind => ⟨true, false, ipv6⟩
  | .connect => ⟨false, true, ipv6⟩

/-- The rules for a local address to send from. -/
def HostRules.source (ipv6 : Bool) : HostRules := ⟨true, false, ipv6⟩

/-- A resolved endpoint and its host as written, without brackets. -/
structure HostEndpoint where
  address : SocketAddress
  host : String
  deriving DecidableEq, Repr

namespace HostEndpoint

/-- A host without the brackets around it. -/
def unbracketed (host : List Char) : List Char := (Split.enclosed? '[' ']' host).getD host

/-- Reads a port; `*` is port 0. `text` is the whole endpoint. -/
def readPort (wildcards : Bool) (text port : List Char) : Except Fault UInt16 :=
  match if port = ['*'] then some 0 else Numeral.readUInt16? port with
  | none => .error (.ofFlaw .invalidPort text)
  | some number =>
      if number = 0 ∧ wildcards = false then .error (.ofFlaw .wildcardPort text) else .ok number

/-- Reads a numeric host; `none` for a name. -/
def readNumeric (text host : List Char) (port : UInt16) : Except Fault (Option SocketAddress) :=
  match IpAddress.read? host with
  | some ip => .ok (some (ip.withPort port))
  | none =>
      -- a percent sign divides an IPv6 address from its scope
      match Split.atFirst? '%' host with
      | some (ip, scope) =>
          match Ipv6.read? ip, Numeral.readUInt32? scope with
          | none, _ => .error (.ofFlaw .invalidIpv6 text)
          | some _, none => .error (.ofFlaw .scopeNotNumeric text)
          | some ip, some scope => .ok (some (.v6 ip port scope))
      | none => if ':' ∈ host then .error (.ofFlaw .invalidIpv6 text) else .ok none

/-- The address used of those that a name has: the first IPv4 address, or else the first IPv6
address where that is accepted. -/
def choose (ipv6 : Bool) (candidates : List HostAddress) : Option HostAddress :=
  match candidates.find? HostAddress.isV4 with
  | some found => some found
  | none => if ipv6 then candidates.head? else none

/-- Looks a name up. -/
def lookUp (net : Network) (ipv6 : Bool) (host : String) (port : UInt16) :
    Except Fault SocketAddress :=
  match net.lookup? host with
  | none => .error (.resolution (.unknownHost host))
  | some candidates =>
      match choose ipv6 candidates with
      | some found => .ok (found.withPort port)
      | none => .error (.resolution (.noUsableAddress host))

/-- The address of a host that is not empty. -/
def resolveHost (net : Network) (rules : HostRules) (text host : List Char) (port : UInt16) :
    Except Fault SocketAddress :=
  if host = ['*'] then
    if rules.wildcards then
      .ok (if rules.ipv6 then .v6 .unspecified port 0 else .v4 .unspecified port)
    else .error (.ofFlaw .wildcardHost text)
  else
    match readNumeric text host port with
    | .error fault => .error fault
    | .ok (some address) =>
        if address.isV4 = false ∧ rules.ipv6 = false then
          .error (.resolution (.ipv6Disabled (String.ofList text)))
        else .ok address
    | .ok none =>
        if rules.names then lookUp net rules.ipv6 (String.ofList host) port
        else .error (.resolution (.notNumeric (String.ofList host)))

/-- Resolves `host:port`. -/
def resolve (net : Network) (rules : HostRules) (text : List Char) : Except Fault HostEndpoint :=
  match Split.atLast? ':' text with
  | none => .error (.ofFlaw .missingPort text)
  | some (front, port) =>
      -- a flawed port is reported even where the host is flawed too
      match readPort rules.wildcards text port with
      | .error fault => .error fault
      | .ok number =>
          let host := unbracketed front
          if host = [] then .error (.ofFlaw .emptyHost text)
          else
            match resolveHost net rules text host number with
            | .error fault => .error fault
            | .ok address => .ok ⟨address, String.ofList host⟩

end HostEndpoint

end PeerLink
