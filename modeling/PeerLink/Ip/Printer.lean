import PeerLink.Ip.Address
import PeerLink.Text.Numeral

/-!
# Texts of internet addresses

IPv4 addresses are written as four decimal octets. IPv6 addresses are written in lowercase
hexadecimal groups; the first of the longest runs of two or more zero groups becomes `::`, and a
mapped IPv4 address keeps its dotted form.
-/

set_option autoImplicit false

namespace PeerLink

/-- The four octets between dots. -/
def Ipv4.render (ip : Ipv4) : List Char :=
  Numeral.decimalChars ip.a.toNat ++ '.' :: Numeral.decimalChars ip.b.toNat ++
    '.' :: Numeral.decimalChars ip.c.toNat ++ '.' :: Numeral.decimalChars ip.d.toNat

namespace Ipv6

/-- Groups in hexadecimal, between colons. -/
def renderGroups : List UInt16 → List Char
  | [] => []
  | [g] => Numeral.hexChars g.toNat
  | g :: gs => Numeral.hexChars g.toNat ++ ':' :: renderGroups gs

/-- The number of zero groups at the front. -/
def zeroRun : List UInt16 → Nat
  | [] => 0
  | g :: gs => if g = 0 then zeroRun gs + 1 else 0

/-- Start and length of the first longest run of zero groups, `position` being that of the first
group; a run must be longer than `best` to count. -/
def longestRun (position : Nat) (best : Nat × Nat) : List UInt16 → Nat × Nat
  | [] => best
  | g :: gs =>
      let here := zeroRun (g :: gs)
      longestRun (position + 1) (if best.2 < here then (position, here) else best) gs

/-- The groups, a longest run of two or more zero groups written as `::`. -/
def renderCompressed (groups : List UInt16) : List Char :=
  let (start, size) := longestRun 0 (0, 0) groups
  if 1 < size then
    renderGroups (groups.take start) ++ ':' :: ':' :: renderGroups (groups.drop (start + size))
  else renderGroups groups

/-- The text of an address. -/
def render (ip : Ipv6) : List Char :=
  match ip.mapped? with
  | some inner => ':' :: ':' :: 'f' :: 'f' :: 'f' :: 'f' :: ':' :: inner.render
  | none => renderCompressed ip.groups

end Ipv6

/-- The text of an address. -/
def IpAddress.render : IpAddress → List Char
  | .v4 ip => ip.render
  | .v6 ip => ip.render

/-- The text of an address with its port. An IPv6 address stands in brackets; its scope is left out
when it is 0. -/
def SocketAddress.render : SocketAddress → List Char
  | .v4 ip port => ip.render ++ ':' :: Numeral.decimalChars port.toNat
  | .v6 ip port scope =>
      let zone := if scope = 0 then [] else '%' :: Numeral.decimalChars scope.toNat
      '[' :: ip.render ++ zone ++ ']' :: ':' :: Numeral.decimalChars port.toNat

/-- The text of an address with its port. -/
def SocketAddress.text (address : SocketAddress) : String := String.ofList address.render

end PeerLink
