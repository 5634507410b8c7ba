import PeerLink.Bytes

/-!
# Frames

A frame is one unit of traffic: application payload or a handshake command. Its two flags travel
in one byte inside protected messages; `Frame.ofParts_flags` says that the byte and the payload
determine the frame.
-/

set_option autoImplicit false

namespace PeerLink

/-- A frame: its bytes, whether more frames of the same message follow, and whether it is a
command. -/
structure Frame where
  data : Bytes
  more : Bool
  command : Bool
  deriving DecidableEq, Repr

namespace Frame

/-- The flag bit for a frame that more frames follow. -/
def moreBit : UInt8 := 1

/-- The flag bit for a command. -/
def commandBit : UInt8 := 2

/-- An application frame. -/
def application (data : Bytes) : Frame := ⟨data, false, false⟩

/-- A command frame. -/
def ofCommand (data : Bytes) : Frame := ⟨data, false, true⟩

/-- The flags in one byte. -/
def flags (f : Frame) : UInt8 :=
  (if f.more then moreBit else 0) ||| (if f.command then commandBit else 0)

/-- The frame with these bytes and flags. Other bits of the flags are ignored. -/
def ofParts (data : Bytes) (flags : UInt8) : Frame :=
  ⟨data, flags &&& moreBit != 0, flags &&& commandBit != 0⟩

/-- Whether the bytes of a frame begin with a command name. -/
def isNamed (f : Frame) (name : Bytes) : Bool := name.isPrefixOf f.data

theorem ofParts_flags (f : Frame) : ofParts f.data f.flags = f := by
  obtain ⟨data, more, command⟩ := f
  cases more <;> cases command <;> simp [ofParts, flags, moreBit, commandBit] <;> decide

theorem isNamed_iff {f : Frame} {name : Bytes} :
    f.isNamed name = true ↔ ∃ body, f.data = name ++ body := by
  rw [isNamed, List.isPrefixOf_iff_prefix]
  exact ⟨fun ⟨body, h⟩ => ⟨body, h.symm⟩, fun ⟨body, h⟩ => ⟨body, h.symm⟩⟩

end Frame

end PeerLink
