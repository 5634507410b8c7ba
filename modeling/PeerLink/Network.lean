import PeerLink.Ip.Address

/-!
# Networks

What endpoint resolution asks of the machine: the numbers of its network interfaces and the
addresses of host names. Both are tables that do not change while an endpoint is resolved.
-/

set_option autoImplicit false

namespace PeerLink

/-- The index of a network interface. Interfaces are numbered from 1. -/
structure InterfaceIndex where
  number : UInt32
  positive : number ≠ 0
  deriving DecidableEq, Repr

/-- An address that a host name has. An IPv6 address also has a scope, 0 when none is meant. -/
inductive HostAddress where
  | v4 (ip : Ipv4)
  | v6 (ip : Ipv6) (scope : UInt32)
  deriving DecidableEq, Repr

namespace HostAddress

/-- Whether the address is IPv4. -/
def isV4 : HostAddress → Bool
  | v4 _ => true
  | v6 .. => false

/-- The address with a port. -/
def withPort (port : UInt16) : HostAddress → SocketAddress
  | v4 ip => .v4 ip port
  | v6 ip scope => .v6 ip port scope

theorem port_withPort (a : HostAddress) (port : UInt16) : (a.withPort port).port = port := by
  cases a <;> rfl

theorem isV4_withPort (a : HostAddress) (port : UInt16) : (a.withPort port).isV4 = a.isV4 := by
  cases a <;> rfl

end HostAddress

/-- What a machine knows about names: its interfaces and the addresses of host names. -/
structure Network where
  interface? : String → Option InterfaceIndex
  lookup? : String → Option (List HostAddress)

end PeerLink
