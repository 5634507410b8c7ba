import PeerLink.Config.Options
import PeerLink.Endpoint.Host
import PeerLink.Ip.Printer

/-!
# TCP endpoints

The text is `host:port`, or `source;host:port` with the address to connect from.
-/

set_option autoImplicit false

namespace PeerLink

/-- A resolved TCP endpoint. -/
structure TcpEndpoint where
  address : SocketAddress
  source : Option SocketAddress
  /-- The host as written. -/
  host : String
  deriving Repr

namespace TcpEndpoint

/-- Whether two endpoints are the same. How the host was written does not count. -/
def same (a b : TcpEndpoint) : Bool := a.address = b.address && a.source = b.source

/-- Resolves the source of an endpoint, if there is one. -/
def resolveSource (net : Network) (policy : TransportPolicy) :
    Option (List Char) → Except Fault (Option SocketAddress)
  | none => .ok none
  | some text =>
      match HostEndpoint.resolve net (.source policy.ipv6) text with
      | .ok endpoint => .ok (some endpoint.address)
      | .error fault => .error fault

/-- Resolves an endpoint text: the destination, then the source, which must be of one family. -/
def resolve (net : Network) (policy : TransportPolicy) (role : Role) (text : List Char) :
    Except Fault TcpEndpoint :=
  let (source, destination) :=
    match Split.atFirst? ';' text with
    | some (source, destination) => (some source, destination)
    | none => (none, text)
  match HostEndpoint.resolve net (.ofRole role policy.ipv6) destination with
  | .error fault => .error fault
  | .ok endpoint =>
      match resolveSource net policy source with
      | .error fault => .error fault
      | .ok source =>
          if source.any fun s => s.isV4 != endpoint.address.isV4 then
            .error (.ofFlaw .destinationFamily text)
          else .ok ⟨endpoint.address, source, endpoint.host⟩

/-- The canonical text. -/
def render (e : TcpEndpoint) : List Char :=
  match e.source with
  | some source => source.render ++ ';' :: e.address.render
  | none => e.address.render

end TcpEndpoint

end PeerLink
