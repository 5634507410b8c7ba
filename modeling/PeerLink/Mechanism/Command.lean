import PeerLink.Frame
import PeerLink.Fault
import PeerLink.Text.Utf8

/-!
# Handshake commands

A command begins with its name, written as one length byte and the letters. This module holds the
names, the check every inbound command passes, and the reading of a peer's ERROR command.
-/

set_option autoImplicit false

namespace PeerLink

/-- How far a handshake has come. -/
inductive Status where
  | handshaking
  | ready
  | error
  deriving DecidableEq, Repr

/-- The word for a status. -/
def Status.word : Status → String
  | handshaking => "handshaking"
  | ready => "ready"
  | error => "error"

namespace Command

/-- The name READY. -/
def ready : Bytes := [5, 0x52, 0x45, 0x41, 0x44, 0x59]

/-- The name ERROR. -/
def error : Bytes := [5, 0x45, 0x52, 0x52, 0x4F, 0x52]

/-- The name HELLO. -/
def hello : Bytes := [5, 0x48, 0x45, 0x4C, 0x4C, 0x4F]

/-- The name WELCOME. -/
def welcome : Bytes := [7, 0x57, 0x45, 0x4C, 0x43, 0x4F, 0x4D, 0x45]

/-- The name INITIATE. -/
def initiate : Bytes := [8, 0x49, 0x4E, 0x49, 0x54, 0x49, 0x41, 0x54, 0x45]

/-- The name MESSAGE. -/
def message : Bytes := [7, 0x4D, 0x45, 0x53, 0x53, 0x41, 0x47, 0x45]

/-- Refuses an empty command and one whose name overruns the frame. -/
def checkStructure (f : Frame) : Except Fault Unit :=
  match f.data with
  | [] => .error (.malformed .command)
  | size :: rest =>
      if size.toNat ≤ rest.length then .ok () else .error (.malformed .command)

/-- What a peer's reason means. The three status codes of authentication are reported as such. -/
def faultOfReason (reason : Bytes) : Fault :=
  match reason with
  | [hundreds, 0x30, 0x30] =>
      if 0x33 ≤ hundreds ∧ hundreds ≤ 0x35 then .rejected ("status " ++ Utf8.lossy reason)
      else .rejected (Utf8.lossy reason)
  | _ => .rejected (Utf8.lossy reason)

/-- What a peer's ERROR command means: after the name, one length byte and exactly that many bytes
of reason. -/
def faultOfError (data : Bytes) : Fault :=
  match data.drop error.length with
  | [] => .malformed .errorTooShort
  | size :: reason =>
      if reason.length = size.toNat then faultOfReason reason else .malformed .errorLength

/-- A frame that begins with a whole name passes the check of commands. -/
theorem checkStructure_of_name {f : Frame} {size : UInt8} {letters body : Bytes}
    (hdata : f.data = (size :: letters) ++ body) (hsize : size.toNat ≤ letters.length) :
    checkStructure f = .ok () := by
  rw [checkStructure, hdata, List.cons_append]
  dsimp only
  rw [if_pos (by rw [List.length_append]; omega)]

/-- A frame that begins with one name does not begin with another. -/
theorem isNamed_other {f : Frame} {name other body : Bytes} (hdata : f.data = name ++ body)
    (hother : ∀ body, other.isPrefixOf (name ++ body) = false) : f.isNamed other = false := by
  rw [Frame.isNamed, hdata]
  exact hother body

end Command

end PeerLink
