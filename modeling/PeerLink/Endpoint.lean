import PeerLink.Endpoint.Ipc
import PeerLink.Endpoint.Tcp
import PeerLink.Endpoint.Tipc
import PeerLink.Endpoint.Udp
import PeerLink.Endpoint.Vmci
import PeerLink.Endpoint.Ws

/-!
# Endpoints

The seven transports. `Endpoint.resolve` reads an endpoint text under a protocol,
`Endpoint.text` is its canonical text, and `Endpoint.same` compares what was resolved.
-/

set_option autoImplicit false

namespace PeerLink

/-- A transport protocol. -/
inductive Protocol where
  | tcp | udp | ipc | tipc | vmci | ws | wss
  deriving DecidableEq, Repr

namespace Protocol

/-- Every protocol. -/
def all : List Protocol := [tcp, udp, ipc, tipc, vmci, ws, wss]

/-- The tag before `://`. -/
def tag : Protocol → String
  | tcp => "tcp"
  | udp => "udp"
  | ipc => "ipc"
  | tipc => "tipc"
  | vmci => "vmci"
  | ws => "ws"
  | wss => "wss"

/-- Reads a tag. -/
def ofTag (text : String) : Except Fault Protocol :=
  match all.find? fun p => p.tag == text with
  | some p => .ok p
  | none => .error (.unsupportedProtocol text)

theorem ofTag_tag (p : Protocol) : ofTag p.tag = .ok p := by cases p <;> rfl

end Protocol

/-- A resolved endpoint. -/
inductive Endpoint where
  | tcp (e : TcpEndpoint)
  | udp (e : UdpEndpoint)
  | ipc (e : IpcEndpoint)
  | tipc (e : TipcEndpoint)
  | vmci (e : VmciEndpoint)
  | ws (e : WsEndpoint)
  | wss (e : WsEndpoint)
  deriving Repr

namespace Endpoint

/-- Resolves an endpoint text of a protocol. -/
def resolve (net : Network) (protocol : Protocol) (policy : TransportPolicy) (role : Role)
    (text : String) : Except Fault Endpoint :=
  let cs := text.toList
  match protocol with
  | .tcp => (TcpEndpoint.resolve net policy role cs).map .tcp
  | .udp => (UdpEndpoint.resolve net policy role cs).map .udp
  | .ipc => (IpcEndpoint.resolve cs).map .ipc
  | .tipc => (TipcEndpoint.resolve role cs).map .tipc
  | .vmci => (VmciEndpoint.resolve policy cs).map .vmci
  | .ws => (WsEndpoint.resolve net policy role cs).map .ws
  | .wss => (WsEndpoint.resolve net policy role cs).map .wss

/-- The protocol of an endpoint. -/
def protocol : Endpoint → Protocol
  | tcp _ => .tcp
  | udp _ => .udp
  | ipc _ => .ipc
  | tipc _ => .tipc
  | vmci _ => .vmci
  | ws _ => .ws
  | wss _ => .wss

/-- The host as written, for the transports that keep it. -/
def host? : Endpoint → Option String
  | tcp e => some e.host
  | ws e | wss e => some e.host
  | _ => none

/-- The characters of the canonical text. -/
def render : Endpoint → List Char
  | tcp e => e.render
  | udp e => e.render
  | ipc e => e.render
  | tipc e => e.render
  | vmci e => e.render
  | ws e | wss e => e.render

/-- The canonical text. -/
def text (e : Endpoint) : String := String.ofList e.render

/-- Whether two endpoints are the same. How a host was written does not count. -/
def same : Endpoint → Endpoint → Bool
  | tcp a, tcp b => a.same b
  | udp a, udp b => a = b
  | ipc a, ipc b => a = b
  | tipc a, tipc b => a = b
  | vmci a, vmci b => a = b
  | ws a, ws b => a.same b
  | wss a, wss b => a.same b
  | _, _ => false

end Endpoint

end PeerLink
