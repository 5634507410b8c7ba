import Mathlib.Logic.Function.Basic
import PeerLink.Mechanism

/-!
# Two NULL handshakes over queues

A `NullLink` joins two NULL handshakes by two queues. A move lets a side call for its next command,
which is put under way, or lets it take the first frame that is under way to it. `NullLink.run`
carries out moves in any order and keeps what every call answered.
-/

set_option autoImplicit false

namespace PeerLink

open Mechanism (Call Answer)

/-! ## Calls of a handshake -/

namespace NullHandshake

/-- One call of a handshake. -/
def step (h : NullHandshake) : Call → Answer × NullHandshake
  | .next => (.ofFrame? h.next.1, h.next.2)
  | .process f => (.ofUnit (h.process f).1, (h.process f).2)
  | .encode f | .decode f => (.ofFrame (Mechanism.passThrough h.status f), h)

/-- A call of the mechanism is a call of its handshake. -/
theorem mechanism_step {σ : Type} (h : NullHandshake) (call : Call) :
    (Mechanism.null (σ := σ) h).step call = ((h.step call).1, .null (h.step call).2) := by
  cases call <;> rfl

end NullHandshake

/-! ## Two sides -/

/-- The sides of a link. -/
inductive Side where
  | left
  | right
  deriving DecidableEq, Repr

namespace Side

/-- The side across the link. -/
def other : Side → Side
  | left => right
  | right => left

@[simp] theorem other_other (s : Side) : s.other.other = s := by cases s <;> rfl

@[simp] theorem other_ne (s : Side) : s.other ≠ s := by cases s <;> simp [other]

@[simp] theorem ne_other (s : Side) : s ≠ s.other := (other_ne s).symm

theorem eq_or_eq_other (s t : Side) : t = s ∨ t = s.other := by
  cases s <;> cases t <;> simp [other]

end Side

/-- What a side may do. -/
inductive Move where
  /-- Call for the next command and put it under way. -/
  | send (s : Side)
  /-- Take the first frame that is under way to this side. -/
  | receive (s : Side)
  deriving DecidableEq, Repr

/-- A call that a side made, with its answer. -/
structure LinkEvent where
  side : Side
  call : Call
  answer : Answer

/-- The frame that a call put under way. -/
def LinkEvent.sent? (e : LinkEvent) : Option Frame :=
  match e.call, e.answer with
  | .next, .frame f => some f
  | _, _ => none

/-- The frame that a call took in without a fault. -/
def LinkEvent.taken? (e : LinkEvent) : Option Frame :=
  match e.call, e.answer with
  | .process f, .done => some f
  | _, _ => none

/-- Two handshakes, and the frames under way to each side. -/
structure NullLink where
  handshake : Side → NullHandshake
  inbox : Side → List Frame

namespace NullLink

/-- A link of two handshakes before their first step. -/
def start (options : Side → SecurityOptions) : NullLink where
  handshake s := .start (options s)
  inbox _ := []

/-- The link after a side has called for its next command. -/
def sending (l : NullLink) (s : Side) (result : Answer × NullHandshake) : NullLink where
  handshake := Function.update l.handshake s result.2
  inbox :=
    match result.1 with
    | .frame f => Function.update l.inbox s.other (l.inbox s.other ++ [f])
    | _ => l.inbox

/-- The link after a side has taken a frame, with the frames that are left. -/
def receiving (l : NullLink) (s : Side) (rest : List Frame) (result : Answer × NullHandshake) :
    NullLink where
  handshake := Function.update l.handshake s result.2
  inbox := Function.update l.inbox s rest

/-- Carries out a move. A side to which nothing is under way makes no call. -/
def step (l : NullLink) : Move → List LinkEvent × NullLink
  | .send s =>
      let result := (l.handshake s).step .next
      ([⟨s, .next, result.1⟩], l.sending s result)
  | .receive s =>
      match l.inbox s with
      | [] => ([], l)
      | f :: rest =>
          let result := (l.handshake s).step (.process f)
          ([⟨s, .process f, result.1⟩], l.receiving s rest result)

/-- Carries out moves in order. -/
def run (l : NullLink) : List Move → List LinkEvent × NullLink
  | [] => ([], l)
  | move :: moves =>
      let (events, next) := l.step move
      let (more, last) := next.run moves
      (events ++ more, last)

/-- The frames that a side has put under way. -/
def sent (s : Side) (events : List LinkEvent) : List Frame :=
  events.filterMap fun e => if e.side = s then e.sent? else none

/-- The frames that a side has taken in without a fault. -/
def taken (s : Side) (events : List LinkEvent) : List Frame :=
  events.filterMap fun e => if e.side = s then e.taken? else none

end NullLink

end PeerLink
