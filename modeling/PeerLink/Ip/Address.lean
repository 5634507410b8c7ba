/-!
# Internet addresses

IPv4 and IPv6 addresses, and socket addresses with a port and, for IPv6, a scope.
-/

set_option autoImplicit false

namespace PeerLink

/-- An IPv4 address: four octets. -/
structure Ipv4 where
  a : UInt8
  b : UInt8
  c : UInt8
  d : UInt8
  deriving DecidableEq, Repr

/-- An IPv6 address: eight groups of 16 bits. -/
structure Ipv6 where
  groups : List UInt16
  length_eq : groups.length = 8
  deriving DecidableEq, Repr

/-- An address of either family. -/
inductive IpAddress where
  | v4 (ip : Ipv4)
  | v6 (ip : Ipv6)
  deriving DecidableEq, Repr

/-- An address with a port. An IPv6 address also has a scope, 0 when none is meant. -/
inductive SocketAddress where
  | v4 (ip : Ipv4) (port : UInt16)
  | v6 (ip : Ipv6) (port : UInt16) (scope : UInt32)
  deriving DecidableEq, Repr

namespace Ipv4

/-- The wildcard `0.0.0.0`. -/
def unspecified : Ipv4 := ⟨0, 0, 0, 0⟩

/-- Whether the address is in `224.0.0.0/4`. -/
def isMulticast (ip : Ipv4) : Bool := 224 ≤ ip.a && ip.a ≤ 239

/-- The address as the last two groups of an IPv6 address. -/
def toGroups (ip : Ipv4) : List UInt16 :=
  [ip.a.toUInt16 * 256 + ip.b.toUInt16, ip.c.toUInt16 * 256 + ip.d.toUInt16]

/-- The address written in two groups of an IPv6 address. -/
def ofGroups (high low : UInt16) : Ipv4 :=
  ⟨(high / 256).toUInt8, high.toUInt8, (low / 256).toUInt8, low.toUInt8⟩

end Ipv4

namespace Ipv6

/-- The wildcard `::`. -/
def unspecified : Ipv6 := ⟨List.replicate 8 0, rfl⟩

/-- The address of a list of groups, if there are eight. -/
def ofList? (groups : List UInt16) : Option Ipv6 :=
  if h : groups.length = 8 then some ⟨groups, h⟩ else none

/-- Whether the address is in `ff00::/8`. -/
def isMulticast (ip : Ipv6) : Bool :=
  match ip.groups with
  | first :: _ => 0xFF00 ≤ first
  | [] => false

/-- The IPv4 address that an address in `::ffff:0:0/96` stands for. -/
def mapped? (ip : Ipv6) : Option Ipv4 :=
  match ip.groups with
  | [0, 0, 0, 0, 0, 0xFFFF, high, low] => some (.ofGroups high low)
  | _ => none

end Ipv6

namespace IpAddress

/-- Whether the address is IPv4. -/
def isV4 : IpAddress → Bool
  | v4 _ => true
  | v6 _ => false

/-- Whether the address is a multicast address of its family. -/
def isMulticast : IpAddress → Bool
  | v4 ip => ip.isMulticast
  | v6 ip => ip.isMulticast

/-- The address with a port and no scope. -/
def withPort (port : UInt16) : IpAddress → SocketAddress
  | v4 ip => .v4 ip port
  | v6 ip => .v6 ip port 0

end IpAddress

namespace SocketAddress

/-- Whether the address is IPv4. -/
def isV4 : SocketAddress → Bool
  | v4 .. => true
  | v6 .. => false

/-- The address without port and scope. -/
def ip : SocketAddress → IpAddress
  | v4 ip _ => .v4 ip
  | v6 ip _ _ => .v6 ip

/-- The port. -/
def port : SocketAddress → UInt16
  | v4 _ port => port
  | v6 _ port _ => port

/-- The wildcard address of the same family, with the same port. -/
def wildcard : SocketAddress → SocketAddress
  | v4 _ port => .v4 .unspecified port
  | v6 _ port _ => .v6 .unspecified port 0

end SocketAddress

end PeerLink
