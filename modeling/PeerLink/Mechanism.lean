import PeerLink.Gssapi.Client
import PeerLink.Mechanism.Null
import PeerLink.Mechanism.Plain

/-!
# Mechanisms

The three mechanisms behind one set of operations, and runs: sequences of calls with their answers.
-/

set_option autoImplicit false

namespace PeerLink

/-- The state of a mechanism on the client's side. -/
inductive Mechanism (σ : Type) where
  | null (h : NullHandshake)
  | plain (c : PlainClient)
  | gssapi (c : Gssapi.Client σ)

namespace Mechanism

variable {σ : Type}

/-- The mechanism that the options select. GSSAPI needs a security context with its first state;
the others ignore it. -/
def ofOptions (options : SecurityOptions) (context : Option (Gssapi.SecurityContext σ × σ)) :
    Except Fault (Mechanism σ) :=
  match options.mechanism with
  | .null => .ok (.null (.start options))
  | .plain => (PlainClient.start options).map .plain
  | .gssapi =>
      match context with
      | none => .error (.config .missingContext)
      | some (context, session) => (Gssapi.Client.start options context session).map .gssapi

/-- The name announced in the greeting. -/
def name : Mechanism σ → MechanismName
  | null _ => .null
  | plain _ => .plain
  | gssapi _ => .gssapi

/-- How far the handshake has come. -/
def status : Mechanism σ → Status
  | null h => h.status
  | plain c => c.status
  | gssapi c => c.status

/-- What the peer has announced. -/
def peerProperties : Mechanism σ → Properties
  | null h => h.peerProperties
  | plain c => c.peerProperties
  | gssapi c => c.peer

/-- The next outbound command, if one is due. -/
def next : Mechanism σ → Except Fault (Option Frame) × Mechanism σ
  | null h => (h.next.1, null h.next.2)
  | plain c => (c.next.1, plain c.next.2)
  | gssapi c => (c.next.1, gssapi c.next.2)

/-- Takes in a command of the peer. -/
def process (f : Frame) : Mechanism σ → Except Fault Unit × Mechanism σ
  | null h => ((h.process f).1, null (h.process f).2)
  | plain c => ((c.process f).1, plain (c.process f).2)
  | gssapi c => ((c.process f).1, gssapi (c.process f).2)

/-- Traffic that is not transformed passes once the handshake is done. -/
def passThrough (status : Status) (f : Frame) : Except Fault Frame :=
  if status = .ready then .ok f else .error .notReady

/-- Transforms an outbound frame. -/
def encode (f : Frame) : Mechanism σ → Except Fault Frame × Mechanism σ
  | null h => (passThrough h.status f, null h)
  | plain c => (passThrough c.status f, plain c)
  | gssapi c => ((c.encode f).1, gssapi (c.encode f).2)

/-- Transforms an inbound frame back. -/
def decode (f : Frame) : Mechanism σ → Except Fault Frame × Mechanism σ
  | null h => (passThrough h.status f, null h)
  | plain c => (passThrough c.status f, plain c)
  | gssapi c => ((c.decode f).1, gssapi (c.decode f).2)

/-! ## Runs -/

/-- A call of a mechanism. -/
inductive Call where
  | next
  | process (f : Frame)
  | encode (f : Frame)
  | decode (f : Frame)
  deriving DecidableEq, Repr

/-- What a call answers. -/
inductive Answer where
  | nothing
  | done
  | frame (f : Frame)
  | failed (fault : Fault)
  deriving DecidableEq, Repr

namespace Answer

/-- The answer of a call that produces a frame. -/
def ofFrame : Except Fault Frame → Answer
  | .ok f => frame f
  | .error fault => failed fault

/-- The answer of a call that may produce a frame. -/
def ofFrame? : Except Fault (Option Frame) → Answer
  | .ok (some f) => frame f
  | .ok none => nothing
  | .error fault => failed fault

/-- The answer of a call that produces nothing. -/
def ofUnit : Except Fault Unit → Answer
  | .ok () => done
  | .error fault => failed fault

end Answer

/-- Carries out one call. -/
def step (m : Mechanism σ) : Call → Answer × Mechanism σ
  | .next => (.ofFrame? m.next.1, m.next.2)
  | .process f => (.ofUnit (m.process f).1, (m.process f).2)
  | .encode f => (.ofFrame (m.encode f).1, (m.encode f).2)
  | .decode f => (.ofFrame (m.decode f).1, (m.decode f).2)

/-- Carries out calls in order. -/
def run (m : Mechanism σ) : List Call → List Answer × Mechanism σ
  | [] => ([], m)
  | call :: calls =>
      let (answer, next) := m.step call
      let (answers, last) := next.run calls
      (answer :: answers, last)

end Mechanism

end PeerLink
