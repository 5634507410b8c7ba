import PeerLink.Proofs.Gssapi.Alteration
import PeerLink.Proofs.Gssapi.Failure

/-!
# Refused commands of the server

A command that a client refuses leaves everything the client holds as it was, the failure flag
apart, wherever in the call the fault arises (`Client.Step.eq_halt`). A command that the client does
not wait for never reaches the security context (`Client.step_unexpected`), and an encrypted message
that does not hold a READY is refused in the same way (`Client.step_other_payload`).
-/

set_option autoImplicit false

namespace PeerLink.Gssapi.Client

open Mechanism (Call Answer)

variable {σ : Type} {c c' : Client σ} {answer : Answer} {made : List ContextCall} {f : Frame}
  {fault : Fault}

/-! ## What a client waits for -/

/-- Whether a frame has the name of a command that a client waits for. -/
def Expects (c : Client σ) (f : Frame) : Prop :=
  match c.phase with
  | .recvNextToken => f.isNamed Command.error = true ∨ f.isNamed Command.initiate = true
  | .recvReady =>
      f.isNamed Command.error = true ∨
        f.isNamed (if c.encrypting then Command.message else Command.ready) = true
  | .callNextInit | .sendReady | .connected => False

/-- The client with its context in another state and the failure flag set; all else is kept. -/
def halt (c : Client σ) (session : σ) : Client σ := { c with session := session, failed := true }

theorem status_halt (c : Client σ) (session : σ) : (c.halt session).status = .error :=
  status_eq_error_iff.2 rfl

/-! ## One call -/

/-- A refused command changes nothing but the failure flag. The slot, which a received token passes
through on its way to the context, was empty before. -/
theorem Step.eq_halt (hs : Step c (.process f) (.failed fault) made c') (h : Settled c)
    (hf : c.failed = false) : c' = c.halt c'.session := by
  generalize hanswer : Answer.failed fault = answer at hs
  cases hs with
  | haltedProcess hfailed => cases hf.symm.trans hfailed
  | refusedCommand _ _ | readyUnreadable _ _ _ _ | readyRefused _ _ _ _ _ => rfl
  | tokenRefused _ hphase _ _ _ =>
    have hempty : c.pending = none := h.pending_eq_none (by simp [hphase])
    rw [refused, halt, hempty]
  | tokenTaken _ _ _ _ _ | readyTaken _ _ _ _ _ => cases hanswer
  | notReady htraffic _ | passed htraffic _ _ => simp at htraffic
  | transformed _ _ ht => cases ht

/-- A command that the client does not wait for is refused before any primitive is called. -/
theorem step_unexpected (hf : c.failed = false) (h : ¬ c.Expects f) :
    Step c (.process f) (.failed (.sequence (.unexpectedIn c.phase))) [] (c.halt c.session) := by
  cases hphase : c.phase with
  | callNextInit | sendReady | connected =>
    rw [← hphase]
    exact .refusedCommand hf (.outOfTurn (by simp [hphase]) (by simp [hphase]))
  | recvNextToken =>
    simp only [Expects, hphase, not_or, Bool.not_eq_true] at h
    rw [← hphase]
    exact .refusedCommand hf (.otherCommand hphase h.1 h.2)
  | recvReady =>
    simp only [Expects, hphase, not_or, Bool.not_eq_true] at h
    obtain ⟨herror, hother⟩ := h
    rw [← hphase]
    cases henc : c.encrypting with
    | true =>
      rw [henc, if_pos rfl] at hother
      exact .readyUnreadable hf hphase herror (.unprotected henc hother)
    | false =>
      -- the frame is taken for READY as it is
      rw [henc, if_neg Bool.false_ne_true] at hother
      have hjudge : c.judge f = .error (.sequence (.unexpectedIn c.phase)) := by
        rw [judge, if_neg (ne_true_of_eq_false hother)]
      exact .readyRefused hf hphase herror (.bare henc) hjudge

/-- An encrypted message that is not READY is refused once it has been recovered. -/
theorem step_other_payload {token payload : Bytes} {flags : UInt8} {session : σ}
    (hf : c.failed = false) (hphase : c.phase = .recvReady) (henc : c.encrypting = true)
    (hframe : Encloses f token)
    (hunwrap : c.context.unwrap token c.session = (.ok ⟨flags :: payload, true⟩, session))
    (hpayload : Command.ready.isPrefixOf payload = false) :
    Step c (.process f) (.failed (.sequence (.unexpectedIn c.phase)))
      [.unwrap token (.ok ⟨flags :: payload, true⟩)] (c.halt session) := by
  have hdata : f.data = Command.message ++ (Bytes.ofWord token.length ++ token) := by
    rw [hframe.1, framed, List.append_assoc]
  have herror : f.isNamed Command.error = false := Command.isNamed_other hdata fun _ => rfl
  have hreads : Reads c f (.ok (.ofParts payload flags))
      [.unwrap token (.ok ⟨flags :: payload, true⟩)] session :=
    .recovered henc (Frame.isNamed_iff.2 ⟨_, hdata⟩) (.recover (encloses_iff.1 hframe) hunwrap)
  have hjudge : c.judge (.ofParts payload flags) =
      .error (.sequence (.unexpectedIn c.phase)) := by
    have hname : (Frame.ofParts payload flags).isNamed Command.ready = false := hpayload
    rw [judge, if_neg (ne_true_of_eq_false hname)]
  exact .readyRefused hf hphase herror hreads hjudge

/-! ## Every reachable client -/

theorem ofUnit_eq_failed_iff {result : Except Fault Unit} :
    Answer.ofUnit result = .failed fault ↔ result = .error fault := by
  cases result <;> simp [Answer.ofUnit]

/-- What the refusal of a command leaves behind. -/
structure RefusesInPlace (c : Client σ) (f : Frame) : Prop where
  /-- Position, establishment, slot and peer are kept, -/
  kept : ∀ fault, (c.process f).1 = .error fault →
    (c.process f).2 = c.halt (c.process f).2.session
  /-- and the client has failed. -/
  status : ∀ fault, (c.process f).1 = .error fault → (c.process f).2.status = .error
  /-- Commands that are not waited for are out of sequence, and no primitive is called. -/
  unexpected : ¬ c.Expects f → (c.process f).1 = .error (.sequence (.unexpectedIn c.phase)) ∧
    c.consulted (.process f) = []
  /-- So is an encrypted message that holds something else than READY. -/
  otherPayload : c.phase = .recvReady → c.encrypting = true → ∀ token flags payload,
    Encloses f token → (c.context.unwrap token c.session).1 = .ok ⟨flags :: payload, true⟩ →
    Command.ready.isPrefixOf payload = false →
    (c.process f).1 = .error (.sequence (.unexpectedIn c.phase))

/-- Whatever the server sends and whatever the context answers, a command that a reachable client
refuses changes nothing but the failure flag. -/
theorem refusal_in_place {options : SecurityOptions} {context : SecurityContext σ} {session : σ}
    (h : Built options context session c) (calls : List Call)
    (hf : (c.after calls).failed = false) (f : Frame) : RefusesInPlace (c.after calls) f := by
  have hkept : ∀ fault, ((c.after calls).process f).1 = .error fault →
      ((c.after calls).process f).2 =
        (c.after calls).halt ((c.after calls).process f).2.session := by
    intro fault hfault
    have hs := step_consulted (c.after calls) (.process f)
    rw [step, hfault] at hs
    exact hs.eq_halt (h.settled.after calls) hf
  refine ⟨hkept, ?_, ?_, ?_⟩
  · intro fault hfault
    rw [hkept fault hfault]
    exact status_halt _ _
  · intro hunexpected
    have hs := step_unexpected hf hunexpected
    exact ⟨ofUnit_eq_failed_iff.1 (congrArg Prod.fst hs.eq), hs.consulted_eq⟩
  · intro hphase henc token flags payload hframe hunwrap hpayload
    have hs := step_other_payload hf hphase henc hframe (Prod.ext hunwrap rfl) hpayload
    exact ofUnit_eq_failed_iff.1 (congrArg Prod.fst hs.eq)

/-- A token that the context does not go on with is refused after it went through the slot; a READY
in its place never gets there. -/
theorem refusal_in_place_early :
    let c := (sample false [.ok (.continueNeeded [1]), .error ⟨1, 0, "no ticket"⟩]).after [.next]
    let token := Frame.ofCommand (framed Command.initiate [7])
    let ready := Frame.ofCommand Command.ready
    c.failed = false ∧ RefusesInPlace c token ∧ RefusesInPlace c ready ∧
      (c.process token).1 = .error (.context (.initialisation ⟨1, 0, "no ticket"⟩)) ∧
      (c.process token).2.pending = c.pending ∧
      (c.process ready).1 = .error (.sequence (.unexpectedIn .recvNextToken)) := by
  intro c token ready
  have hf : c.failed = false := rfl
  have htoken : RefusesInPlace c token := refusal_in_place (built_sample _ _) [.next] hf token
  have hready : RefusesInPlace c ready := refusal_in_place (built_sample _ _) [.next] hf ready
  have herror : (c.process token).1 = .error (.context (.initialisation ⟨1, 0, "no ticket"⟩)) := rfl
  refine ⟨hf, htoken, hready, herror, ?_, ?_⟩
  · rw [htoken.kept _ herror]
    rfl
  · have hunexpected : ¬ c.Expects ready := by
      change ¬ (ready.isNamed Command.error = true ∨ ready.isNamed Command.initiate = true)
      decide
    exact (hready.unexpected hunexpected).1

end PeerLink.Gssapi.Client
