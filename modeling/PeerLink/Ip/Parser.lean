import PeerLink.Ip.Address
import PeerLink.Text.Numeral
import PeerLink.Text.Split

/-!
# Reading internet addresses

An IPv4 address has four decimal octets without leading zeros. An IPv6 address has eight groups of
one to four hexadecimal digits; the last two groups may be written as an IPv4 address, and one run
of one or more zero groups may be left out between two colons.
-/

set_option autoImplicit false

namespace PeerLink

/-- An octet: one to three digits, no leading zero, at most 255. -/
def Ipv4.readOctet? (cs : List Char) : Option UInt8 :=
  if 3 < cs.length ∨ (cs.head? = some '0' ∧ 1 < cs.length) then none
  else ((Numeral.readDigits? cs).filter (· < UInt8.size)).map UInt8.ofNat

/-- Reads a whole text as an IPv4 address. -/
def Ipv4.read? (cs : List Char) : Option Ipv4 :=
  match Split.atEach '.' cs with
  | [a, b, c, d] => do
      let a ← readOctet? a
      let b ← readOctet? b
      let c ← readOctet? c
      let d ← readOctet? d
      return ⟨a, b, c, d⟩
  | _ => none

namespace Ipv6

/-- A group: one to four hexadecimal digits. -/
def readGroup? (cs : List Char) : Option UInt16 :=
  if cs.isEmpty ∨ 4 < cs.length then none else (Numeral.readHexFrom? 0 cs).map UInt16.ofNat

/-- The groups of a list of parts, the last of which may be an IPv4 address. -/
def readParts? : List (List Char) → Option (List UInt16)
  | [] => some []
  | [last] =>
      match readGroup? last with
      | some g => some [g]
      | none => (Ipv4.read? last).map Ipv4.toGroups
  | part :: parts =>
      match readGroup? part, readParts? parts with
      | some g, some gs => some (g :: gs)
      | _, _ => none

/-- The groups of a list of parts, none of which is an IPv4 address. -/
def readHexParts? : List (List Char) → Option (List UInt16)
  | [] => some []
  | part :: parts =>
      match readGroup? part, readHexParts? parts with
      | some g, some gs => some (g :: gs)
      | _, _ => none

/-- The parts of a text between colons; an empty text has none. -/
def parts (cs : List Char) : List (List Char) :=
  if cs.isEmpty then [] else Split.atEach ':' cs

/-- The texts before and after the first two colons in a row. -/
def atGap? : List Char → Option (List Char × List Char)
  | [] => none
  | ':' :: ':' :: cs => some ([], cs)
  | c :: cs => (atGap? cs).map fun (front, rest) => (c :: front, rest)

/-- Reads a whole text as an IPv6 address. A gap stands for at least one zero group. -/
def read? (cs : List Char) : Option Ipv6 :=
  match atGap? cs with
  | none => (readParts? (parts cs)).bind ofList?
  | some (front, rest) =>
      match readHexParts? (parts front), readParts? (parts rest) with
      | some high, some low =>
          -- eight groups would leave none for the gap
          if high.length + low.length ≤ 7 then
            ofList? (high ++ List.replicate (8 - high.length - low.length) 0 ++ low)
          else none
      | _, _ => none

end Ipv6

/-- Reads a whole text as an address of either family. -/
def IpAddress.read? (cs : List Char) : Option IpAddress :=
  match Ipv4.read? cs with
  | some ip => some (.v4 ip)
  | none => (Ipv6.read? cs).map .v6

namespace SocketAddress

/-- A run of digits below `limit`. -/
def readDigitsBelow? (limit : Nat) (cs : List Char) : Option Nat :=
  (Numeral.readDigits? cs).filter (· < limit)

/-- Reads the inside of brackets: an IPv6 address and perhaps a scope. -/
def readScoped? (cs : List Char) : Option (Ipv6 × UInt32) :=
  match Split.atFirst? '%' cs with
  | none => (Ipv6.read? cs).map fun ip => (ip, 0)
  | some (ip, scope) => do
      let ip ← Ipv6.read? ip
      let scope ← readDigitsBelow? UInt32.size scope
      return (ip, UInt32.ofNat scope)

/-- Reads a whole text as an address with a port: `ip:port` or `[ip%scope]:port`. -/
def read? (cs : List Char) : Option SocketAddress :=
  match cs with
  | '[' :: rest =>
      match Split.atFirst? ']' rest with
      | some (inner, ':' :: port) => do
          let (ip, scope) ← readScoped? inner
          let port ← readDigitsBelow? UInt16.size port
          return .v6 ip (UInt16.ofNat port) scope
      | _ => none
  | _ =>
      match Split.atFirst? ':' cs with
      | some (ip, port) => do
          let ip ← Ipv4.read? ip
          let port ← readDigitsBelow? UInt16.size port
          return .v4 ip (UInt16.ofNat port)
      | none => none

end SocketAddress

end PeerLink
