import PeerLink.Proofs.Gssapi.Reachable
import PeerLink.Proofs.Metadata.Blocks

/-!
# Failures

A client fails exactly when a call answers a fault, unless the fault says that traffic came before
the handshake was over (`Client.Step.failed_iff`). A failed client does nothing any more: it calls
no primitive, keeps its state and refuses every command (`Client.step_of_failed`).
`Client.failure_permanent` says both of every run.
-/

set_option autoImplicit false

namespace PeerLink.Gssapi

open Mechanism (Call Answer)

/-! ## Faults that end an exchange -/

/-- The faults that the parts of a call report. -/
inductive EndsExchange : Fault → Prop
  | malformed (cause : MalformedFault) : EndsExchange (.malformed cause)
  | context (cause : ContextFault) : EndsExchange (.context cause)
  | integrity (cause : IntegrityFault) : EndsExchange (.integrity cause)
  | rejected (reason : String) : EndsExchange (.rejected reason)
  | unexpected (phase : Phase) : EndsExchange (.sequence (.unexpectedIn phase))
  | incompatible (here : SocketType) (peerName : String) :
      EndsExchange (.sequence (.incompatiblePeer here peerName))

theorem EndsExchange.ne_notReady {fault : Fault} (h : EndsExchange fault) : fault ≠ .notReady := by
  cases h <;> simp

section Parts

variable {fault : Fault}

theorem InitAnswer.endsExchange {answer : InitAnswer} (h : answer.refusal? = some fault) :
    EndsExchange fault := by
  rcases answer with failure | token | token
  · cases h
    exact .context _
  · -- only an empty token is refused
    simp only [InitAnswer.refusal?, Option.ite_none_right_eq_some, Option.some.injEq] at h
    rw [← h.2]
    exact .context _
  · cases h

theorem endsExchange_of_sealed {f : Frame} {answer : Except LibraryFailure Bytes}
    (h : sealed f answer = .error fault) : EndsExchange fault := by
  cases answer with
  | error failure =>
    cases h
    exact .context _
  | ok token =>
    rw [sealed] at h
    split at h
    · cases h
      exact .context _
    · cases h

theorem endsExchange_of_opened {answer : Except LibraryFailure Unwrapped}
    (h : opened answer = .error fault) : EndsExchange fault := by
  cases answer with
  | error failure =>
    cases h
    exact .integrity _
  | ok u =>
    rw [opened, ofUnwrapped] at h
    split at h
    · -- an encrypted token must hold the flags at least
      split at h
      · cases h
      · cases h
        exact .integrity _
    · cases h
      exact .integrity _

theorem endsExchange_of_encode {p : Property} (h : p.encode = .error fault) :
    EndsExchange fault := by
  rcases Property.encode_eq_error h with ⟨-, rfl⟩ | ⟨-, rfl⟩ <;> exact .malformed _

theorem endsExchange_of_command {a : Announcement} {name : Bytes}
    (h : a.command name = .error fault) : EndsExchange fault := by
  obtain ⟨p, -, hp⟩ := Announcement.exists_of_command_eq_error h
  exact endsExchange_of_encode hp

theorem endsExchange_of_accept {a : Announcement} {block : Bytes}
    (h : a.accept block = .error fault) : EndsExchange fault := by
  rw [Announcement.accept] at h
  cases hblock : Properties.ofBlock block with
  | error refusal =>
    rw [hblock] at h
    cases h
    obtain ⟨cause, rfl⟩ := Properties.exists_of_ofBlock_eq_error hblock
    exact .malformed cause
  | ok peer =>
    rw [hblock] at h
    dsimp only at h
    split at h
    · cases h
      exact .malformed _
    · -- the peer names a socket type, which may not suit ours
      split at h
      · cases h
      · cases h
        exact .incompatible _ _

theorem endsExchange_of_faultOfReason (reason : Bytes) :
    EndsExchange (Command.faultOfReason reason) := by
  unfold Command.faultOfReason
  split
  · split <;> exact .rejected _
  · exact .rejected _

theorem endsExchange_of_faultOfError (data : Bytes) :
    EndsExchange (Command.faultOfError data) := by
  rw [Command.faultOfError]
  split
  · exact .malformed _
  · split
    · exact endsExchange_of_faultOfReason _
    · exact .malformed _

end Parts

namespace Client

variable {σ : Type} {c c' : Client σ} {call : Call} {answer : Answer} {made : List ContextCall}
  {f : Frame} {fault : Fault}

/-! ## Faults of the parts of a call -/

theorem endsExchange_of_judge {ready : Frame} (h : c.judge ready = .error fault) :
    EndsExchange fault := by
  rw [judge] at h
  split at h
  · cases hstructure : Command.checkStructure ready with
    | error refusal =>
      rw [hstructure] at h
      cases h
      rw [Command.checkStructure] at hstructure
      split at hstructure
      · cases hstructure
        exact .malformed _
      · split at hstructure
        · cases hstructure
        · cases hstructure
          exact .malformed _
    | ok done =>
      rw [hstructure] at h
      exact endsExchange_of_accept h
  · cases h
    exact .unexpected _

theorem Transforms.endsExchange {context : SecurityContext σ} {state next : σ}
    (h : Transforms context call state (.error fault) made next) : EndsExchange fault := by
  generalize hresult : (Except.error fault : Except Fault Frame) = result at h
  cases h with
  | protect _ => exact endsExchange_of_sealed hresult.symm
  | misframed _ =>
    cases hresult
    exact .integrity _
  | recover _ _ => exact endsExchange_of_opened hresult.symm

theorem Reads.endsExchange {session : σ} (h : Reads c f (.error fault) made session) :
    EndsExchange fault := by
  cases h with
  | unprotected _ _ => exact .unexpected _
  | recovered _ _ ht => exact ht.endsExchange

theorem Refuses.endsExchange (h : Refuses c f fault) : EndsExchange fault := by
  cases h with
  | outOfTurn _ _ | otherCommand _ _ _ => exact .unexpected _
  | rejected _ _ => exact endsExchange_of_faultOfError _
  | misframed _ _ _ _ => exact .malformed _

theorem Announces.endsExchange (h : Announces c (.failed fault) made c') : EndsExchange fault := by
  cases h with
  | unwritable hcmd => exact endsExchange_of_command hcmd
  | unwrappable _ _ ht => exact ht.endsExchange

/-! ## One call -/

/-- Why a call fails: the client has failed before, traffic comes before the handshake is over, the
slot holds an input between calls, or a part of the call ends the exchange. -/
theorem Step.fault_cases (hs : Step c call (.failed fault) made c') :
    (c.failed = true ∧ fault = .sequence .alreadyFailed) ∨
      (c' = c ∧ made = [] ∧ fault = .notReady) ∨
      (∃ token, c.pending = some (.inbound token) ∧ fault = .sequence .inboundPending) ∨
      EndsExchange fault := by
  generalize hanswer : Answer.failed fault = answer at hs
  cases hs with
  | halted _ | handed _ _ _ _ _ | waiting _ _ _ | tokenTaken _ _ _ _ _ | readyTaken _ _ _ _ _
  | passed _ _ _ => cases hanswer
  | haltedProcess hf =>
    cases hanswer
    exact .inl ⟨hf, rfl⟩
  | notReady _ _ =>
    cases hanswer
    exact .inr (.inl ⟨rfl, rfl, rfl⟩)
  | clash _ _ hp =>
    cases hanswer
    exact .inr (.inr (.inl ⟨_, hp, rfl⟩))
  | firstRefused _ _ _ _ hr | tokenRefused _ _ _ _ hr =>
    cases hanswer
    exact .inr (.inr (.inr (InitAnswer.endsExchange hr)))
  | oversized _ _ _ _ _ =>
    cases hanswer
    exact .inr (.inr (.inr (.context _)))
  | finished _ _ _ _ ha | announced _ _ ha =>
    subst hanswer
    exact .inr (.inr (.inr ha.endsExchange))
  | refusedCommand _ hr =>
    cases hanswer
    exact .inr (.inr (.inr hr.endsExchange))
  | readyUnreadable _ _ _ hr =>
    cases hanswer
    exact .inr (.inr (.inr hr.endsExchange))
  | readyRefused _ _ _ _ hj =>
    cases hanswer
    exact .inr (.inr (.inr (endsExchange_of_judge hj)))
  | @transformed _ result _ _ _ _ ht =>
    cases result with
    | ok out => cases hanswer
    | error refusal =>
      cases hanswer
      exact .inr (.inr (.inr ht.endsExchange))

theorem Announces.failed_iff (h : Announces c answer made c') :
    c'.failed = true ↔
      c.failed = true ∨ ∃ fault, answer = .failed fault ∧ fault ≠ .notReady := by
  cases h with
  | unwritable hcmd => simp [(endsExchange_of_command hcmd).ne_notReady]
  | bare _ _ | wrapped _ _ _ => simp
  | unwrappable _ _ ht => simp [ht.endsExchange.ne_notReady]

theorem Loaded.failed_eq (h : Loaded c made c') : c'.failed = c.failed := by
  cases h <;> rfl

/-- A call fails the client exactly when it answers a fault, other than that the handshake is not
over. -/
theorem Step.failed_iff (hs : Step c call answer made c') :
    c'.failed = true ↔
      c.failed = true ∨ ∃ fault, answer = .failed fault ∧ fault ≠ .notReady := by
  cases hs with
  | halted hf | haltedProcess hf => simp [hf]
  | notReady _ _ | waiting _ _ _ | passed _ _ _ | readyTaken _ _ _ _ _ | clash _ _ _ => simp
  | tokenTaken _ _ _ _ _ => simp [answered]
  | handed _ _ hl _ _ => simp [hl.failed_eq]
  | oversized _ _ _ _ _ => simp
  | finished _ _ hl _ ha =>
    rw [ha.failed_iff]
    exact or_congr_left (by rw [hl.failed_eq])
  | announced _ _ ha => exact ha.failed_iff
  | firstRefused _ _ _ _ hr | tokenRefused _ _ _ _ hr =>
    simp [refused, (InitAnswer.endsExchange hr).ne_notReady]
  | refusedCommand _ hr => simp [hr.endsExchange.ne_notReady]
  | readyUnreadable _ _ _ hr => simp [hr.endsExchange.ne_notReady]
  | readyRefused _ _ _ _ hj => simp [(endsExchange_of_judge hj).ne_notReady]
  | @transformed _ result _ _ _ _ ht =>
    cases result with
    | ok out => simp [Client.settled, Answer.ofFrame]
    | error refusal => simp [Client.settled, Answer.ofFrame, ht.endsExchange.ne_notReady]

/-- A call that answers that the handshake is not over does nothing. -/
theorem Step.eq_of_notReady (hs : Step c call (.failed .notReady) made c') :
    c' = c ∧ made = [] := by
  rcases hs.fault_cases with ⟨-, h⟩ | ⟨hc, hmade, -⟩ | ⟨_, -, h⟩ | h
  · cases h
  · exact ⟨hc, hmade⟩
  · cases h
  · cases h

/-- Traffic passes only when the handshake is over. -/
theorem Step.ready_of_frame (hs : Step c call (.frame f) made c')
    (hcall : ∃ g, call = .encode g ∨ call = .decode g) : c.status = .ready := by
  obtain ⟨g, hcall⟩ := hcall
  generalize hanswer : Answer.frame f = answer at hs
  cases hs with
  | passed _ hready _ => exact hready
  | transformed hready _ _ => exact hready
  | notReady _ _ => cases hanswer
  | _ => rcases hcall with hcall | hcall <;> cases hcall

/-! ## Failed clients -/

/-- What a failed client answers. -/
def haltedAnswer : Call → Answer
  | .next => .nothing
  | .process _ => .failed (.sequence .alreadyFailed)
  | .encode _ | .decode _ => .failed .notReady

theorem status_eq_error_iff : c.status = .error ↔ c.failed = true := by
  rw [status]
  cases c.failed with
  | true => simp
  | false =>
    by_cases hphase : c.phase = .connected <;> simp [hphase]

/-- A failed client keeps its state and calls no primitive. -/
theorem halted_step (hf : c.failed = true) (call : Call) :
    Step c call (haltedAnswer call) [] c := by
  have hstatus : c.status ≠ .ready := by
    rw [status_eq_error_iff.2 hf]
    simp
  cases call with
  | next => exact .halted hf
  | process f => exact .haltedProcess hf
  | encode f => exact .notReady (.inl rfl) hstatus
  | decode f => exact .notReady (.inr rfl) hstatus

theorem step_of_failed (hf : c.failed = true) (call : Call) :
    c.step call = (haltedAnswer call, c) :=
  (halted_step hf call).eq

theorem after_of_failed (hf : c.failed = true) (calls : List Call) : c.after calls = c := by
  induction calls with
  | nil => rfl
  | cons call calls ih =>
    rw [after, step_of_failed hf]
    exact ih

theorem answers_of_failed (hf : c.failed = true) (calls : List Call) :
    c.answers calls = calls.map haltedAnswer := by
  induction calls with
  | nil => rfl
  | cons call calls ih =>
    rw [answers, step_of_failed hf, List.map_cons]
    exact congrArg _ ih

theorem history_of_failed (hf : c.failed = true) (calls : List Call) : c.history calls = [] := by
  induction calls with
  | nil => rfl
  | cons call calls ih =>
    rw [history_cons, (halted_step hf call).consulted_eq, step_of_failed hf]
    exact ih

/-! ## Runs -/

/-- A run fails the client exactly when some call answers a fault, other than that the handshake is
not over. -/
theorem failed_after_iff (c : Client σ) (calls : List Call) :
    (c.after calls).failed = true ↔
      c.failed = true ∨ ∃ fault, .failed fault ∈ c.answers calls ∧ fault ≠ .notReady := by
  induction calls generalizing c with
  | nil => simp [after, answers]
  | cons call calls ih =>
    rw [after, ih, (step_consulted c call).failed_iff, answers]
    -- the fault is in the answer of the first call or of a later one
    constructor
    · rintro ((hf | ⟨fault, hanswer, hne⟩) | ⟨fault, hmem, hne⟩)
      · exact .inl hf
      · exact .inr ⟨fault, hanswer ▸ List.mem_cons_self, hne⟩
      · exact .inr ⟨fault, List.mem_cons_of_mem _ hmem, hne⟩
    · rintro (hf | ⟨fault, hmem, hne⟩)
      · exact .inl (.inl hf)
      · rcases List.mem_cons.1 hmem with hanswer | hmem
        · exact .inl (.inr ⟨fault, hanswer.symm, hne⟩)
        · exact .inr ⟨fault, hmem, hne⟩

/-- What failure means for a client that calls were made of. -/
structure FailsForGood (c : Client σ) (calls : List Call) : Prop where
  /-- The status is the error exactly when a call answered a fault, other than that the handshake is
  not over. -/
  status_iff : (c.after calls).status = .error ↔
    ∃ fault, .failed fault ∈ c.answers calls ∧ fault ≠ .notReady
  /-- From then on no call has an effect, and no primitive is called. -/
  permanent : (c.after calls).status = .error → ∀ more : List Call,
    (c.after calls).answers more = more.map haltedAnswer ∧
      (c.after calls).history more = [] ∧ (c.after calls).after more = c.after calls
  /-- Traffic passes only while the client is ready. -/
  ready : ∀ f out : Frame, ((c.after calls).step (.encode f)).1 = .frame out ∨
    ((c.after calls).step (.decode f)).1 = .frame out → (c.after calls).status = .ready
  /-- A call that answers that the handshake is not over has no effect. -/
  notReady : ∀ call : Call, ((c.after calls).step call).1 = .failed .notReady →
    ((c.after calls).step call).2 = c.after calls ∧ (c.after calls).consulted call = []

/-- Failures are exact and permanent, whatever the context answers and whatever is received. -/
theorem failure_permanent {options : SecurityOptions} {context : SecurityContext σ} {session : σ}
    (h : Built options context session c) (calls : List Call) : FailsForGood c calls where
  status_iff := by
    obtain ⟨serviceName, mechanisms, rfl⟩ := h.eq_initial
    rw [status_eq_error_iff, failed_after_iff]
    -- a new client has not failed
    exact or_iff_right Bool.false_ne_true
  permanent := by
    intro hstatus more
    have hf := status_eq_error_iff.1 hstatus
    exact ⟨answers_of_failed hf more, history_of_failed hf more, after_of_failed hf more⟩
  ready := by
    rintro f out (hanswer | hanswer)
    · have hs := step_consulted (c.after calls) (.encode f)
      rw [hanswer] at hs
      exact hs.ready_of_frame ⟨f, .inl rfl⟩
    · have hs := step_consulted (c.after calls) (.decode f)
      rw [hanswer] at hs
      exact hs.ready_of_frame ⟨f, .inr rfl⟩
  notReady := by
    intro call hanswer
    have hs := step_consulted (c.after calls) call
    rw [hanswer] at hs
    exact hs.eq_of_notReady

theorem failure_permanent_refused :
    let c := sample false [.error ⟨1, 0, "no ticket"⟩]
    FailsForGood c [.encode (.application [1]), .next, .next] ∧
      c.answers [.encode (.application [1]), .next, .next] =
        [.failed .notReady, .failed (.context (.initialisation ⟨1, 0, "no ticket"⟩)), .nothing] :=
  ⟨failure_permanent (built_sample _ _) _, rfl⟩

end Client

end PeerLink.Gssapi
