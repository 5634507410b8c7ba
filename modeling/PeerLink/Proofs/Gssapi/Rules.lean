import PeerLink.Mechanism
import PeerLink.Proofs.Gssapi.Framing

/-!
# What a call of a GSSAPI client can do

`Client.Step` lists, rule by rule, what one call answers, which primitives of the security context
it calls and in what state it leaves the client, for every context. The rules say no more and no
less than the client does: every call follows a rule (`Client.exists_step`) and every rule gives
the answer and the state of the call (`Client.Step.eq`). Invariants are proved from the rules.
-/

set_option autoImplicit false

namespace PeerLink.Gssapi

open Mechanism (Call Answer)

/-! ## Answers of the context to a call for a token -/

/-- What the context answers to a call for a token. -/
abbrev InitAnswer := Except LibraryFailure InitOutcome

namespace InitAnswer

/-- The fault that an answer ends the exchange with, if it does. -/
def refusal? : InitAnswer → Option Fault
  | .error failure => some (.context (.initialisation failure))
  | .ok (.continueNeeded token) => if token = [] then some (.context .emptyToken) else none
  | .ok (.complete _) => none

/-- The token that an answer leaves to be sent, which is never empty. -/
def token? : InitAnswer → Option Bytes
  | .error _ => none
  | .ok (.continueNeeded token) | .ok (.complete token) => if token = [] then none else some token

/-- Whether an answer establishes the context. -/
def completes : InitAnswer → Bool
  | .ok (.complete _) => true
  | _ => false

theorem ne_nil_of_token? {answer : InitAnswer} {token : Bytes} (h : answer.token? = some token) :
    token ≠ [] := by
  cases answer with
  | error failure => cases h
  | ok outcome =>
    cases outcome with
    | continueNeeded t | complete t =>
      simp only [token?, Option.ite_none_left_eq_some, Option.some.injEq] at h
      rw [← h.2]
      exact h.1

/-- An answer that neither ends the exchange nor establishes the context leaves a token. -/
theorem completes_of_token?_eq_none {answer : InitAnswer} (hr : answer.refusal? = none)
    (ht : answer.token? = none) : answer.completes = true := by
  cases answer with
  | error failure => cases hr
  | ok outcome =>
    cases outcome with
    | complete t => rfl
    | continueNeeded t =>
      simp only [refusal?, ite_eq_right_iff, reduceCtorEq, imp_false] at hr
      rw [token?, if_neg hr] at ht
      cases ht

end InitAnswer

namespace Client

variable {σ : Type}

/-! ## Calls of a client -/

/-- One call of a client. -/
def step (c : Client σ) : Call → Answer × Client σ
  | .next => (.ofFrame? c.next.1, c.next.2)
  | .process f => (.ofUnit (c.process f).1, (c.process f).2)
  | .encode f => (.ofFrame (c.encode f).1, (c.encode f).2)
  | .decode f => (.ofFrame (c.decode f).1, (c.decode f).2)

/-- The client after calls in order. -/
def after (c : Client σ) : List Call → Client σ
  | [] => c
  | call :: calls => (c.step call).2.after calls

/-- The answers of calls in order. -/
def answers (c : Client σ) : List Call → List Answer
  | [] => []
  | call :: calls => (c.step call).1 :: (c.step call).2.answers calls

theorem after_append (c : Client σ) (calls more : List Call) :
    c.after (calls ++ more) = (c.after calls).after more := by
  induction calls generalizing c with
  | nil => rfl
  | cons call calls ih => exact ih _

theorem answers_append (c : Client σ) (calls more : List Call) :
    c.answers (calls ++ more) = c.answers calls ++ (c.after calls).answers more := by
  induction calls generalizing c with
  | nil => rfl
  | cons call calls ih =>
    rw [List.cons_append, answers, ih]
    rfl

theorem mechanism_step (c : Client σ) (call : Call) :
    (Mechanism.gssapi c).step call = ((c.step call).1, .gssapi (c.step call).2) := by
  cases call <;> rfl

/-- A run of the mechanism is a run of its client. -/
theorem mechanism_run (c : Client σ) (calls : List Call) :
    (Mechanism.gssapi c).run calls = (c.answers calls, .gssapi (c.after calls)) := by
  induction calls generalizing c with
  | nil => rfl
  | cons call calls ih =>
    rw [Mechanism.run, mechanism_step]
    dsimp only
    rw [ih]
    rfl

/-! ## The rules -/

/-- The client once the context has answered with a token or as established. -/
def answered (c : Client σ) (answer : InitAnswer) (session : σ) : Client σ :=
  { c with
    session := session
    pending := answer.token?.map .outbound
    established := c.established || answer.completes }

/-- The client once the context has refused to go on. -/
def refused (c : Client σ) (session : σ) : Client σ :=
  { c with session := session, pending := none, failed := true }

/-- The client once traffic has been transformed, or could not be. -/
def settled (c : Client σ) (result : Except Fault Frame) (session : σ) : Client σ :=
  match result with
  | .ok _ => { c with session := session }
  | .error _ => { c with session := session, failed := true }

/-- What a bare READY of the server is taken for. -/
def judge (c : Client σ) (ready : Frame) : Except Fault Properties :=
  if ready.isNamed Command.ready then
    match Command.checkStructure ready with
    | .error fault => .error fault
    | .ok () => c.announcement.accept (ready.data.drop Command.ready.length)
  else .error (.sequence (.unexpectedIn c.phase))

/-- Protection and recovery of traffic: the call, the state of the context before it, the result,
the primitives called and the state after. -/
inductive Transforms (context : SecurityContext σ) :
    Call → σ → Except Fault Frame → List ContextCall → σ → Prop
  | protect {f : Frame} {state next : σ} {answer : Except LibraryFailure Bytes} :
      context.wrap (plaintextOf f) true state = (answer, next) →
      Transforms context (.encode f) state (sealed f answer)
        [.wrap (plaintextOf f) true answer] next
  | misframed {f : Frame} {state : σ} : readToken? Command.message f = none →
      Transforms context (.decode f) state (.error (.integrity .framing)) [] state
  | recover {f : Frame} {state next : σ} {token : Bytes}
      {answer : Except LibraryFailure Unwrapped} :
      readToken? Command.message f = some token →
      context.unwrap token state = (answer, next) →
      Transforms context (.decode f) state (opened answer) [.unwrap token answer] next

/-- The client whose slot is looked at when a token is due: the context is called first if the slot
is empty. -/
inductive Loaded (c : Client σ) : List ContextCall → Client σ → Prop
  | held {token : Token} : c.pending = some token → Loaded c [] c
  | fetched {answer : InitAnswer} {session : σ} : c.pending = none →
      c.context.init (c.request none) c.session = (answer, session) → answer.refusal? = none →
      Loaded c [.init (c.request none) answer] (c.answered answer session)

/-- Sending READY. -/
inductive Announces (c : Client σ) : Answer → List ContextCall → Client σ → Prop
  | unwritable {fault : Fault} : c.announcement.command Command.ready = .error fault →
      Announces c (.failed fault) [] { c with failed := true }
  | bare {ready : Frame} : c.announcement.command Command.ready = .ok ready →
      c.encrypting = false → Announces c (.frame ready) [] { c with phase := .recvReady }
  | wrapped {ready out : Frame} {made : List ContextCall} {session : σ} :
      c.announcement.command Command.ready = .ok ready → c.encrypting = true →
      Transforms c.context (.encode ready) c.session (.ok out) made session →
      Announces c (.frame out) made { c with session := session, phase := .recvReady }
  | unwrappable {ready : Frame} {fault : Fault} {made : List ContextCall} {session : σ} :
      c.announcement.command Command.ready = .ok ready → c.encrypting = true →
      Transforms c.context (.encode ready) c.session (.error fault) made session →
      Announces c (.failed fault) made { c with session := session, failed := true }

/-- Reading the frame that should be the server's READY. -/
inductive Reads (c : Client σ) (f : Frame) : Except Fault Frame → List ContextCall → σ → Prop
  | bare : c.encrypting = false → Reads c f (.ok f) [] c.session
  | unprotected : c.encrypting = true → f.isNamed Command.message = false →
      Reads c f (.error (.sequence (.unexpectedIn c.phase))) [] c.session
  | recovered {result : Except Fault Frame} {made : List ContextCall} {session : σ} :
      c.encrypting = true → f.isNamed Command.message = true →
      Transforms c.context (.decode f) c.session result made session → Reads c f result made session

/-- Why a command is refused before any primitive is called. -/
inductive Refuses (c : Client σ) (f : Frame) : Fault → Prop
  | outOfTurn : c.phase ≠ .recvNextToken → c.phase ≠ .recvReady →
      Refuses c f (.sequence (.unexpectedIn c.phase))
  | rejected : c.phase = .recvNextToken ∨ c.phase = .recvReady →
      f.isNamed Command.error = true → Refuses c f (Command.faultOfError f.data)
  | otherCommand : c.phase = .recvNextToken → f.isNamed Command.error = false →
      f.isNamed Command.initiate = false → Refuses c f (.sequence (.unexpectedIn c.phase))
  | misframed : c.phase = .recvNextToken → f.isNamed Command.error = false →
      f.isNamed Command.initiate = true → readToken? Command.initiate f = none →
      Refuses c f (.malformed .initiateFraming)

/-- One call of a client: the call, its answer, the primitives called and the client after it. -/
inductive Step (c : Client σ) : Call → Answer → List ContextCall → Client σ → Prop
  | halted : c.failed = true → Step c .next .nothing [] c
  | haltedProcess {f : Frame} : c.failed = true →
      Step c (.process f) (.failed (.sequence .alreadyFailed)) [] c
  | notReady {f : Frame} {call : Call} : call = .encode f ∨ call = .decode f →
      c.status ≠ .ready → Step c call (.failed .notReady) [] c
  | waiting : c.failed = false → c.phase ≠ .callNextInit → c.phase ≠ .sendReady →
      Step c .next .nothing [] c
  | firstRefused {answer : InitAnswer} {session : σ} {fault : Fault} : c.failed = false →
      c.phase = .callNextInit → c.pending = none →
      c.context.init (c.request none) c.session = (answer, session) →
      answer.refusal? = some fault →
      Step c .next (.failed fault) [.init (c.request none) answer] (c.refused session)
  | handed {loaded : Client σ} {made : List ContextCall} {token : Bytes} : c.failed = false →
      c.phase = .callNextInit → Loaded c made loaded →
      loaded.pending = some (.outbound token) → token.length < Bytes.wordLimit →
      Step c .next (.frame (.ofCommand (framed Command.initiate token))) made
        { loaded with
          pending := none
          phase := if loaded.established then .sendReady else .recvNextToken }
  | oversized {loaded : Client σ} {made : List ContextCall} {token : Bytes} : c.failed = false →
      c.phase = .callNextInit → Loaded c made loaded →
      loaded.pending = some (.outbound token) → Bytes.wordLimit ≤ token.length →
      Step c .next (.failed (.context (.longToken token.length))) made
        { loaded with pending := none, failed := true }
  | clash {token : Bytes} : c.failed = false → c.phase = .callNextInit →
      c.pending = some (.inbound token) →
      Step c .next (.failed (.sequence .inboundPending)) [] { c with failed := true }
  | finished {loaded last : Client σ} {made more : List ContextCall} {answer : Answer} :
      c.failed = false → c.phase = .callNextInit → Loaded c made loaded →
      loaded.pending = none → Announces { loaded with phase := .sendReady } answer more last →
      Step c .next answer (made ++ more) last
  | announced {last : Client σ} {made : List ContextCall} {answer : Answer} : c.failed = false →
      c.phase = .sendReady → Announces c answer made last → Step c .next answer made last
  | refusedCommand {f : Frame} {fault : Fault} : c.failed = false → Refuses c f fault →
      Step c (.process f) (.failed fault) [] { c with failed := true }
  | tokenRefused {f : Frame} {token : Bytes} {answer : InitAnswer} {session : σ}
      {fault : Fault} : c.failed = false → c.phase = .recvNextToken →
      readToken? Command.initiate f = some token →
      c.context.init (c.request (some token)) c.session = (answer, session) →
      answer.refusal? = some fault →
      Step c (.process f) (.failed fault) [.init (c.request (some token)) answer]
        (c.refused session)
  | tokenTaken {f : Frame} {token : Bytes} {answer : InitAnswer} {session : σ} :
      c.failed = false → c.phase = .recvNextToken →
      readToken? Command.initiate f = some token →
      c.context.init (c.request (some token)) c.session = (answer, session) →
      answer.refusal? = none →
      Step c (.process f) .done [.init (c.request (some token)) answer]
        { c.answered answer session with
          phase := if answer.token?.isSome then .callNextInit else .sendReady }
  | readyUnreadable {f : Frame} {fault : Fault} {made : List ContextCall} {session : σ} :
      c.failed = false → c.phase = .recvReady → f.isNamed Command.error = false →
      Reads c f (.error fault) made session →
      Step c (.process f) (.failed fault) made { c with session := session, failed := true }
  | readyRefused {f ready : Frame} {fault : Fault} {made : List ContextCall} {session : σ} :
      c.failed = false → c.phase = .recvReady → f.isNamed Command.error = false →
      Reads c f (.ok ready) made session → c.judge ready = .error fault →
      Step c (.process f) (.failed fault) made { c with session := session, failed := true }
  | readyTaken {f ready : Frame} {peer : Properties} {made : List ContextCall} {session : σ} :
      c.failed = false → c.phase = .recvReady → f.isNamed Command.error = false →
      Reads c f (.ok ready) made session → c.judge ready = .ok peer →
      Step c (.process f) .done made
        { c with session := session, peer := peer, phase := .connected }
  | passed {f : Frame} {call : Call} : call = .encode f ∨ call = .decode f →
      c.status = .ready → c.encrypting = false → Step c call (.frame f) [] c
  | transformed {call : Call} {result : Except Fault Frame} {made : List ContextCall}
      {session : σ} : c.status = .ready → c.encrypting = true →
      Transforms c.context call c.session result made session →
      Step c call (.ofFrame result) made (c.settled result session)

end Client

end PeerLink.Gssapi
