import PeerLink.Mechanism.Announcement

/-!
# The NULL mechanism

No authentication: each side sends one READY, in either order.
-/

set_option autoImplicit false

namespace PeerLink

/-- What the peer of a NULL handshake has said. -/
inductive PeerReply where
  | awaited
  | ready (properties : Properties)
  | failed
  deriving DecidableEq

/-- The state of a NULL handshake. -/
structure NullHandshake where
  announcement : Announcement
  /-- Whether our READY is out. -/
  sent : Bool
  reply : PeerReply
  deriving DecidableEq

namespace NullHandshake

/-- A handshake before its first step. -/
def start (options : SecurityOptions) : NullHandshake :=
  ⟨.ofOptions options, false, .awaited⟩

/-- The next outbound command, if one is due. -/
def next (h : NullHandshake) : Except Fault (Option Frame) × NullHandshake :=
  -- READY goes out once, and not after an ERROR
  if h.sent ∨ h.reply = .failed then (.ok none, h)
  else
    match h.announcement.command Command.ready with
    | .ok frame => (.ok (some frame), { h with sent := true })
    | .error fault => (.error fault, h)

/-- Takes in a command of the peer. -/
def process (h : NullHandshake) (f : Frame) : Except Fault Unit × NullHandshake :=
  match h.reply with
  | .awaited =>
      match Command.checkStructure f with
      | .error fault => (.error fault, h)
      | .ok () =>
          if f.isNamed Command.ready then
            match h.announcement.accept (f.data.drop Command.ready.length) with
            | .ok peer => (.ok (), { h with reply := .ready peer })
            | .error fault => (.error fault, h)
          else if f.isNamed Command.error then
            (.error (Command.faultOfError f.data), { h with reply := .failed })
          else (.error (.sequence .unexpected), h)
  | _ => (.error (.sequence .unexpected), h)

/-- How far the handshake has come. -/
def status (h : NullHandshake) : Status :=
  match h.reply with
  | .failed => .error
  | .ready _ => if h.sent then .ready else .handshaking
  | .awaited => .handshaking

/-- What the peer has announced. -/
def peerProperties (h : NullHandshake) : Properties :=
  match h.reply with
  | .ready peer => peer
  | _ => .empty

end NullHandshake

end PeerLink
