import PeerLink.Proofs.Gssapi.RulesExact

/-!
# Recorded calls

A client over the recording context keeps every call of a primitive. It answers as the client over
the given context does, and its log grows by what the rules say is called (`Client.withLog_step_eq`,
and for runs `Client.withLog_after`). So the calls that a client makes are read off the recording,
and `Client.step_consulted` ties them to the rules.
-/

set_option autoImplicit false

namespace PeerLink.Gssapi.Client

open Mechanism (Call Answer)

variable {σ : Type} {c c' : Client σ} {call : Call} {answer : Answer} {made : List ContextCall}

/-- The client over the recording context, with calls that were recorded before. -/
def withLog (c : Client σ) (log : List ContextCall) : Client (σ × List ContextCall) where
  announcement := c.announcement
  context := c.context.recording
  session := (c.session, log)
  serviceName := c.serviceName
  principal := c.principal
  mechanisms := c.mechanisms
  encrypting := c.encrypting
  phase := c.phase
  pending := c.pending
  established := c.established
  failed := c.failed
  peer := c.peer

/-- The calls of primitives that one call of the client makes, with their answers. -/
def consulted (c : Client σ) (call : Call) : List ContextCall :=
  ((c.withLog []).step call).2.session.2

/-- The calls of primitives that calls of the client make in order, with their answers. -/
def history (c : Client σ) (calls : List Call) : List ContextCall :=
  ((c.withLog []).after calls).session.2

/-! ## The recording follows the rules -/

section Recording

variable {context : SecurityContext σ} {log : List ContextCall}

theorem recording_init {input : InitRequest} {answer : InitAnswer} {state next : σ}
    (h : context.init input state = (answer, next)) :
    context.recording.init input (state, log) = (answer, next, log ++ [.init input answer]) := by
  simp only [SecurityContext.recording, h]

theorem Transforms.withLog {state next : σ} {result : Except Fault Frame}
    (h : Transforms context call state result made next) :
    Transforms context.recording call (state, log) result made (next, log ++ made) := by
  cases h with
  | protect h => exact .protect (by simp only [SecurityContext.recording, h])
  | misframed hf =>
    rw [List.append_nil]
    exact .misframed hf
  | recover hf h => exact .recover hf (by simp only [SecurityContext.recording, h])

theorem Loaded.withLog (h : Loaded c made c') :
    Loaded (c.withLog log) made (c'.withLog (log ++ made)) := by
  cases h with
  | held hp =>
    rw [List.append_nil]
    exact .held hp
  | fetched hp h hr => exact .fetched hp (recording_init h) hr

theorem Announces.withLog (h : Announces c answer made c') :
    Announces (c.withLog log) answer made (c'.withLog (log ++ made)) := by
  cases h with
  | unwritable hcmd =>
    rw [List.append_nil]
    exact .unwritable hcmd
  | bare hcmd henc =>
    rw [List.append_nil]
    exact .bare hcmd henc
  | wrapped hcmd henc ht => exact .wrapped hcmd henc ht.withLog
  | unwrappable hcmd henc ht => exact .unwrappable hcmd henc ht.withLog

theorem Reads.withLog {f : Frame} {result : Except Fault Frame} {session : σ}
    (h : Reads c f result made session) :
    Reads (c.withLog log) f result made (session, log ++ made) := by
  cases h with
  | bare henc =>
    rw [List.append_nil]
    exact .bare henc
  | unprotected henc hname =>
    rw [List.append_nil]
    exact .unprotected henc hname
  | recovered henc hname ht => exact .recovered henc hname ht.withLog

theorem Refuses.withLog {f : Frame} {fault : Fault} (h : Refuses c f fault) :
    Refuses (c.withLog log) f fault := by
  cases h with
  | outOfTurn h₁ h₂ => exact .outOfTurn h₁ h₂
  | rejected hphase herr => exact .rejected hphase herr
  | otherCommand hphase herr hname => exact .otherCommand hphase herr hname
  | misframed hphase herr hname hr => exact .misframed hphase herr hname hr

theorem settled_withLog (c : Client σ) (result : Except Fault Frame) (session : σ)
    (log log' : List ContextCall) :
    (c.settled result session).withLog log' = (c.withLog log).settled result (session, log') := by
  cases result <;> rfl

/-- The recorded client follows the same rule, and its log grows by the calls of that rule. -/
theorem Step.withLog (h : Step c call answer made c') :
    Step (c.withLog log) call answer made (c'.withLog (log ++ made)) := by
  cases h with
  | halted hf =>
    rw [List.append_nil]
    exact .halted hf
  | haltedProcess hf =>
    rw [List.append_nil]
    exact .haltedProcess hf
  | notReady hcall hready =>
    rw [List.append_nil]
    exact .notReady hcall hready
  | waiting hf h₁ h₂ =>
    rw [List.append_nil]
    exact .waiting hf h₁ h₂
  | firstRefused hf hphase hp h hr => exact .firstRefused hf hphase hp (recording_init h) hr
  | handed hf hphase hl hp hlen =>
    have hs := Step.handed (c := c.withLog log) hf hphase hl.withLog hp hlen
    exact hs
  | oversized hf hphase hl hp hlen =>
    have hs := Step.oversized (c := c.withLog log) hf hphase hl.withLog hp hlen
    exact hs
  | clash hf hphase hp =>
    rw [List.append_nil]
    exact .clash hf hphase hp
  | finished hf hphase hl hp ha =>
    rw [← List.append_assoc]
    exact .finished hf hphase hl.withLog hp ha.withLog
  | announced hf hphase ha => exact .announced hf hphase ha.withLog
  | refusedCommand hf hr =>
    rw [List.append_nil]
    exact .refusedCommand hf hr.withLog
  | tokenRefused hf hphase hr h hrefusal =>
    exact .tokenRefused hf hphase hr (recording_init h) hrefusal
  | tokenTaken hf hphase hr h hrefusal =>
    exact .tokenTaken hf hphase hr (recording_init h) hrefusal
  | readyUnreadable hf hphase herr hr => exact .readyUnreadable hf hphase herr hr.withLog
  | readyRefused hf hphase herr hr hj => exact .readyRefused hf hphase herr hr.withLog hj
  | readyTaken hf hphase herr hr hj => exact .readyTaken hf hphase herr hr.withLog hj
  | passed hcall hready henc =>
    rw [List.append_nil]
    exact .passed hcall hready henc
  | transformed hready henc ht =>
    rw [settled_withLog c _ _ log]
    exact .transformed hready henc ht.withLog

end Recording

/-! ## One call -/

theorem withLog_step (h : Step c call answer made c') (log : List ContextCall) :
    (c.withLog log).step call = (answer, c'.withLog (log ++ made)) :=
  h.withLog.eq

theorem Step.consulted_eq (h : Step c call answer made c') : c.consulted call = made := by
  rw [consulted, withLog_step h]
  rfl

/-- What a call makes of the client and what it calls follow a rule. -/
theorem step_consulted (c : Client σ) (call : Call) :
    Step c call (c.step call).1 (c.consulted call) (c.step call).2 := by
  obtain ⟨made, h⟩ := exists_step c call
  rwa [h.consulted_eq]

/-- The recorded client gives the same answer and stays the recording of the client. -/
theorem withLog_step_eq (c : Client σ) (log : List ContextCall) (call : Call) :
    (c.withLog log).step call =
      ((c.step call).1, (c.step call).2.withLog (log ++ c.consulted call)) :=
  withLog_step (step_consulted c call) log

/-! ## Runs -/

theorem history_nil (c : Client σ) : c.history [] = [] := rfl

/-- The recorded client stays the recording of the client. -/
theorem withLog_after (c : Client σ) (log : List ContextCall) (calls : List Call) :
    (c.withLog log).after calls = (c.after calls).withLog (log ++ c.history calls) := by
  induction calls generalizing c log with
  | nil =>
    rw [history_nil, List.append_nil]
    rfl
  | cons call calls ih =>
    -- the log of the first call stands before that of the others
    have hhistory : c.history (call :: calls) =
        c.consulted call ++ (c.step call).2.history calls := by
      rw [history, after, withLog_step_eq, List.nil_append, ih]
      rfl
    rw [after, withLog_step_eq, ih, hhistory, List.append_assoc]
    rfl

theorem history_cons (c : Client σ) (call : Call) (calls : List Call) :
    c.history (call :: calls) = c.consulted call ++ (c.step call).2.history calls := by
  rw [history, after, withLog_step_eq, List.nil_append, withLog_after]
  rfl

theorem history_concat (c : Client σ) (calls : List Call) (call : Call) :
    c.history (calls ++ [call]) = c.history calls ++ (c.after calls).consulted call := by
  induction calls generalizing c with
  | nil =>
    rw [List.nil_append, history_cons, history_nil, List.append_nil]
    rfl
  | cons first calls ih =>
    rw [List.cons_append, history_cons, history_cons, ih, List.append_assoc]
    rfl

end PeerLink.Gssapi.Client
