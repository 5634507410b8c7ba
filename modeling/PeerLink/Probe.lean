import PeerLink.Ip.Printer

/-!
# Probing sockets

The local or remote address of an open socket. A descriptor that is not an open socket yields
length 0 and leaves the storage as it was.
-/

set_option autoImplicit false

namespace PeerLink

/-- An end of a connection. -/
inductive SocketEnd where
  | here
  | remote
  deriving DecidableEq, Repr

/-- An address as the operating system stores it: family, size and, for the two internet families,
what it means. -/
structure StoredAddress where
  family : UInt16
  size : Nat
  meaning : Option SocketAddress
  deriving DecidableEq, Repr

/-- The addresses of the open sockets by descriptor. -/
abbrev OpenSockets := Int → SocketEnd → Option StoredAddress

/-- Storage for one address. -/
structure ProbeStorage where
  family : UInt16
  meaning : Option SocketAddress
  deriving DecidableEq, Repr

namespace ProbeStorage

/-- Storage that nothing has been written to. -/
def fresh : ProbeStorage := ⟨0, none⟩

/-- The size of storage, in bytes. -/
def capacity : Nat := 128

/-- The internet address in the first `size` bytes. -/
def socketAddress? (storage : ProbeStorage) (size : Nat) : Option SocketAddress :=
  if size = 0 ∨ capacity < size then none else storage.meaning

end ProbeStorage

/-- Looks an address up: its size and the storage afterwards. -/
def probe (sockets : OpenSockets) (descriptor : Int) (side : SocketEnd) (storage : ProbeStorage) :
    Nat × ProbeStorage :=
  match sockets descriptor side with
  | some stored => (stored.size, ⟨stored.family, stored.meaning⟩)
  | none => (0, storage)

/-- The text of the internet address of an open socket. -/
def probeName? (sockets : OpenSockets) (descriptor : Int) (side : SocketEnd) : Option String :=
  let (size, storage) := probe sockets descriptor side .fresh
  (storage.socketAddress? size).map SocketAddress.text

end PeerLink
