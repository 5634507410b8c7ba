import PeerLink.Config.Options
import PeerLink.Endpoint.Host
import PeerLink.Ip.Printer

/-!
# WebSocket endpoints

The text is `host:port` followed by a path, which begins at the first slash and is `/` by default.
-/

set_option autoImplicit false

namespace PeerLink

/-- A resolved WebSocket endpoint. -/
structure WsEndpoint where
  address : SocketAddress
  /-- The host as written. -/
  host : String
  path : String
  deriving Repr

namespace WsEndpoint

/-- Whether two endpoints are the same. How the host was written does not count. -/
def same (a b : WsEndpoint) : Bool := a.address = b.address && a.path = b.path

/-- The path that the text after the endpoint means. -/
def pathOf (rest : List Char) : String := if rest = [] then "/" else String.ofList rest

/-- Resolves an endpoint text. -/
def resolve (net : Network) (policy : TransportPolicy) (role : Role) (text : List Char) :
    Except Fault WsEndpoint :=
  match HostEndpoint.resolve net (.ofRole role policy.ipv6) (text.takeWhile (· ≠ '/')) with
  | .error fault => .error fault
  | .ok endpoint =>
      .ok ⟨endpoint.address, endpoint.host, pathOf (text.dropWhile (· ≠ '/'))⟩

/-- The canonical text. -/
def render (e : WsEndpoint) : List Char := e.address.render ++ e.path.toList

end WsEndpoint

end PeerLink
