import PeerLink.Config.Options
import PeerLink.Endpoint.Host
import PeerLink.Ip.Printer

/-!
# UDP endpoints

The text is `host:port`, or `source;host:port` where the source is `*`, an address or the name of an
interface. The bind address follows from source, target and role (`UdpEndpoint.bindAddressOf`).
-/

set_option autoImplicit false

namespace PeerLink

/-- Where UDP traffic leaves the machine. -/
inductive UdpSource where
  /-- Nothing was said. -/
  | unspecified
  /-- The default interface. -/
  | any
  /-- A named interface. -/
  | interface (name : String) (index : InterfaceIndex)
  /-- A local address. -/
  | ip (address : IpAddress)
  deriving DecidableEq, Repr

/-- A resolved UDP endpoint. -/
structure UdpEndpoint where
  source : UdpSource
  target : SocketAddress
  bindAddress : SocketAddress
  multicast : Bool
  deriving DecidableEq, Repr

namespace UdpSource

/-- Reads the text before the semicolon. -/
def resolve (net : Network) (text : List Char) : Except Fault UdpSource :=
  let name := String.ofList text
  if text = ['*'] then .ok .any
  else
    match IpAddress.read? (HostEndpoint.unbracketed text) with
    | some address => .ok (.ip address)
    | none =>
        -- what is no address names an interface, unless it is an address with a port
        if text = [] then .error (.address .emptySource)
        else if (SocketAddress.read? text).isSome then .error (.address (.sourceWithPort name))
        else if '\x00' ∈ text then .error (.address (.interfaceNul name))
        else
          match net.interface? name with
          | some index => .ok (.interface name index)
          | none => .error (.resolution (.unknownInterface name))

/-- Whether the source says which interface multicast uses. -/
def choosesInterface : UdpSource → Bool
  | any | interface .. => true
  | unspecified | ip _ => false

/-- The text before the target. -/
def render : UdpSource → List Char
  | unspecified => []
  | any => ['*', ';']
  | interface name _ => name.toList ++ [';']
  | ip (.v4 address) => address.render ++ [';']
  | ip (.v6 address) => '[' :: address.render ++ [']', ';']

end UdpSource

namespace UdpEndpoint

/-- The address to bind: a source address with the target's port; otherwise the wildcard of the
target's family for multicast and when connecting, and the target itself when binding. A source
address of the other family gives none. -/
def bindAddressOf (source : UdpSource) (target : SocketAddress) (role : Role) :
    Option SocketAddress :=
  match source with
  | .ip address =>
      if address.isV4 = target.isV4 then some (address.withPort target.port) else none
  | _ => some (if target.ip.isMulticast ∨ role = .connect then target.wildcard else target)

/-- Resolves an endpoint text: the source, then the target. -/
def resolve (net : Network) (policy : TransportPolicy) (role : Role) (text : List Char) :
    Except Fault UdpEndpoint :=
  let (source, destination) :=
    match Split.atFirst? ';' text with
    | some (source, destination) => (UdpSource.resolve net source, destination)
    | none => (.ok .unspecified, text)
  match source with
  | .error fault => .error fault
  | .ok source =>
      match HostEndpoint.resolve net (.ofRole role policy.ipv6) destination with
      | .error fault => .error fault
      | .ok ⟨target, _⟩ =>
          let multicast := target.ip.isMulticast
          if multicast ∧ target.isV4 = false ∧ source.choosesInterface = false then
            .error (.ofFlaw .multicastInterface text)
          else
            match bindAddressOf source target role with
            | some bindAddress => .ok ⟨source, target, bindAddress, multicast⟩
            | none => .error (.ofFlaw .targetFamily text)

/-- The number of the interface for multicast, 0 for the default one. -/
def bindInterface (e : UdpEndpoint) : UInt32 :=
  match e.source with
  | .interface _ index => index.number
  | _ => 0

/-- The canonical text. -/
def render (e : UdpEndpoint) : List Char := e.source.render ++ e.target.render

end UdpEndpoint

end PeerLink
