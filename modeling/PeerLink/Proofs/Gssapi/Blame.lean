import PeerLink.Proofs.Gssapi.Reachable
import PeerLink.Proofs.Metadata.Blocks

/-!
# What the context is to blame for

A client whose own properties can be written fails to give a command only because of the last answer
that it got from the context (`Client.Built.blamed_next`). That answer may be older than the call
that fails: the slot keeps the token of the last call of a primitive until it is sent, and only then
it turns out to be too long (`Client.Backed`).
-/

set_option autoImplicit false

namespace PeerLink.Gssapi

open Mechanism (Call Answer)

/-! ## Answers to blame -/

/-- The fault of a token that a command cannot carry; `fault` takes the length. -/
def oversize? (fault : Nat → ContextFault) (token : Bytes) : Option ContextFault :=
  if Bytes.wordLimit ≤ token.length then some (fault token.length) else none

/-- The fault that the answer to a call for a token or for protection is to blame for. -/
def ContextCall.fault? : ContextCall → Option ContextFault
  | .init _ (.error failure) => some (.initialisation failure)
  | .init _ (.ok (.continueNeeded [])) => some .emptyToken
  | .init _ (.ok (.continueNeeded token)) | .init _ (.ok (.complete token)) =>
      oversize? .longToken token
  | .wrap _ _ (.error failure) => some (.wrapping failure)
  | .wrap _ _ (.ok token) => oversize? .longWrappedToken token
  | .unwrap _ _ => none

/-- The last of some calls is to blame for a fault. -/
def Blamed (fault : Fault) (log : List ContextCall) : Prop :=
  ∃ last cause, log.getLast? = some last ∧ last.fault? = some cause ∧ fault = .context cause

theorem Blamed.append_left {fault : Fault} {made : List ContextCall} (h : Blamed fault made)
    (log : List ContextCall) : Blamed fault (log ++ made) := by
  obtain ⟨last, cause, hlast, hcause, hfault⟩ := h
  refine ⟨last, cause, ?_, hcause, hfault⟩
  rw [List.getLast?_append, hlast, Option.some_or]

theorem blamed_singleton {call : ContextCall} {cause : ContextFault}
    (h : call.fault? = some cause) : Blamed (.context cause) [call] :=
  ⟨call, cause, rfl, h, rfl⟩

section Answers

variable {request : InitRequest} {answer : InitAnswer} {fault : Fault}

/-- An answer that ends the exchange is to blame for that. -/
theorem blamed_of_refusal (h : answer.refusal? = some fault) :
    Blamed fault [.init request answer] := by
  cases answer with
  | error failure =>
    cases h
    exact blamed_singleton rfl
  | ok outcome =>
    cases outcome with
    | continueNeeded token =>
      rw [InitAnswer.refusal?, Option.ite_none_right_eq_some] at h
      obtain ⟨rfl, hfault⟩ := h
      cases hfault
      exact blamed_singleton rfl
    | complete token => cases h

/-- A token that is too long for a command comes from an answer that is to blame for it. -/
theorem fault?_of_token {token : Bytes} (h : answer.token? = some token)
    (hlen : Bytes.wordLimit ≤ token.length) :
    (ContextCall.init request answer).fault? = some (.longToken token.length) := by
  have hlong : oversize? .longToken token = some (.longToken token.length) := if_pos hlen
  cases answer with
  | error failure => cases h
  | ok outcome =>
    cases outcome with
    | continueNeeded own | complete own =>
      rw [InitAnswer.token?, Option.ite_none_left_eq_some] at h
      obtain ⟨hne, hown⟩ := h
      rw [Option.some.inj hown] at hne ⊢
      cases token with
      | nil => exact absurd rfl hne
      | cons byte bytes => exact hlong

/-- What cannot be protected is the fault of the answer to the call for protection. -/
theorem blamed_of_sealed {f : Frame} {plaintext : Bytes} {confidential : Bool}
    {answer : Except LibraryFailure Bytes} (h : sealed f answer = .error fault) :
    Blamed fault [.wrap plaintext confidential answer] := by
  cases answer with
  | error failure =>
    cases h
    exact blamed_singleton rfl
  | ok token =>
    rw [sealed] at h
    split at h
    · next hlen =>
      cases h
      exact blamed_singleton (if_pos hlen)
    · cases h

end Answers

namespace Client

variable {σ : Type} {c c' : Client σ} {call : Call} {answer : Answer} {fault : Fault}
  {made log : List ContextCall}

/-! ## The token in the slot -/

/-- The token in the slot is the one that the last call of a primitive produced. -/
def Backed (c : Client σ) (log : List ContextCall) : Prop :=
  ∀ token, c.pending = some (.outbound token) →
    ∃ (request : InitRequest) (answer : InitAnswer),
      log.getLast? = some (.init request answer) ∧ answer.token? = some token

theorem backed_of_empty (hp : c.pending = none) (log : List ContextCall) : Backed c log := by
  intro token htoken
  cases hp.symm.trans htoken

/-- An answer backs the token that it leaves. -/
theorem backed_of_answer {request : InitRequest} {response : InitAnswer}
    (hp : c.pending = response.token?.map .outbound) :
    Backed c (log ++ [.init request response]) := by
  intro token htoken
  rw [hp, Option.map_eq_some_iff] at htoken
  obtain ⟨own, hown, heq⟩ := htoken
  cases heq
  exact ⟨request, response, List.getLast?_concat, hown⟩

/-- What backs the token of a client backs it after calls of no primitive that leave the slot. -/
theorem Backed.keep (h : Backed c log) (hp : c'.pending = c.pending) : Backed c' (log ++ []) := by
  intro token htoken
  rw [List.append_nil]
  exact h token (hp.symm.trans htoken)

theorem Loaded.backed (hl : Loaded c made c') (h : Backed c log) : Backed c' (log ++ made) := by
  cases hl with
  | held _ => exact h.keep rfl
  | fetched _ _ _ => exact backed_of_answer rfl

theorem Announces.pending_eq (ha : Announces c answer made c') : c'.pending = c.pending := by
  cases ha <;> rfl

theorem phase_of_ready (hready : c.status = .ready) : c.phase = .connected := by
  rw [status] at hready
  split at hready
  · cases hready
  · split at hready
    · next hphase => exact hphase
    · cases hready

/-- Every call keeps the token in the slot backed. -/
theorem Step.backed (hs : Step c call answer made c') (h : Settled c) (hb : Backed c log) :
    Backed c' (log ++ made) := by
  cases hs with
  | halted _ | haltedProcess _ | notReady _ _ | waiting _ _ _ | clash _ _ _ | passed _ _ _
  | refusedCommand _ _ => exact hb.keep rfl
  | firstRefused _ _ _ _ _ | tokenRefused _ _ _ _ _ | handed _ _ _ _ _ | oversized _ _ _ _ _ =>
    -- the slot is emptied
    exact backed_of_empty rfl _
  | finished _ _ _ hp ha => exact backed_of_empty (ha.pending_eq.trans hp) _
  | announced _ hphase ha =>
    apply backed_of_empty
    rw [ha.pending_eq]
    exact h.pending_eq_none (by simp [hphase])
  | tokenTaken _ _ _ _ _ => exact backed_of_answer rfl
  | readyUnreadable _ hphase _ _ | readyRefused _ hphase _ _ _ | readyTaken _ hphase _ _ _ =>
    exact backed_of_empty (h.pending_eq_none (by simp [hphase])) _
  | @transformed call result made session hready _ _ =>
    -- traffic passes only after the exchange, when the slot is empty
    apply backed_of_empty
    have hp := h.pending_eq_none (by simp [phase_of_ready hready])
    cases result with
    | ok f => exact hp
    | error fault => exact hp

/-- In every run the token in the slot is backed by the calls so far. -/
theorem Backed.after (hb : Backed c log) (h : Settled c) (calls : List Call) :
    Backed (c.after calls) (log ++ c.history calls) := by
  induction calls generalizing c log with
  | nil => exact hb.keep rfl
  | cons call calls ih =>
    have hstep := step_consulted c call
    rw [history_cons, ← List.append_assoc]
    exact ih (hstep.backed h hb) (hstep.settled h)

/-! ## Failures to give a command -/

/-- READY cannot be sent only if the context does not protect it. -/
theorem Announces.blamed (ha : Announces c (.failed fault) made c')
    (hfits : ∀ p ∈ c.announcement.properties, p.Fits) : Blamed fault made := by
  cases ha with
  | unwritable hcmd =>
    cases (Announcement.command_eq_ok_iff.2 ⟨hfits, rfl⟩).symm.trans hcmd
  | unwrappable _ _ ht =>
    generalize hresult : (Except.error fault : Except Fault Frame) = result at ht
    cases ht with
    | protect _ => exact blamed_of_sealed hresult.symm

/-- A settled client with a backed token and properties that can be written fails to give a command
only because of the last answer of the context. -/
theorem Step.blamed (hs : Step c .next (.failed fault) made c') (h : Settled c) (hb : Backed c log)
    (hfits : ∀ p ∈ c.announcement.properties, p.Fits) : Blamed fault (log ++ made) := by
  generalize hanswer : Answer.failed fault = answer at hs
  cases hs with
  | halted _ | waiting _ _ _ | handed _ _ _ _ _ => cases hanswer
  | notReady hcall _ | passed hcall _ _ => simp at hcall
  | transformed _ _ ht => cases ht
  | firstRefused _ _ _ _ hrefusal =>
    cases hanswer
    exact (blamed_of_refusal hrefusal).append_left log
  | oversized _ _ hl hp hlen =>
    -- the token was produced by the last answer, in this call or before it
    cases hanswer
    obtain ⟨request, response, hlast, htoken⟩ := hl.backed hb _ hp
    exact ⟨_, _, hlast, fault?_of_token htoken hlen, rfl⟩
  | clash _ _ hp =>
    obtain ⟨-, sent, hsent, -⟩ := h.slot _ hp
    cases hsent
  | @finished loaded _ _ _ _ _ _ hl _ ha =>
    subst hanswer
    have hown : ∀ p ∈ loaded.announcement.properties, p.Fits := by
      rw [hl.fixed.announcement]
      exact hfits
    exact ((ha.blamed hown).append_left _).append_left log
  | announced _ _ ha =>
    subst hanswer
    exact (ha.blamed hfits).append_left log

/-- Whenever a client that was made fails to give a command, the last answer of the context is to
blame. -/
theorem Built.blamed_next {options : SecurityOptions} {context : SecurityContext σ} {session : σ}
    (h : Built options context session c)
    (hfits : ∀ p ∈ (Announcement.ofOptions options).properties, p.Fits) {calls : List Call}
    (hfault : ((c.after calls).step .next).1 = .failed fault) :
    Blamed fault (c.history (calls ++ [.next])) := by
  have hstep := step_consulted (c.after calls) .next
  rw [hfault] at hstep
  rw [history_concat]
  have hbacked : Backed c [] := by
    obtain ⟨serviceName, mechanisms, rfl⟩ := h.eq_initial
    exact backed_of_empty rfl []
  apply hstep.blamed (h.settled.after calls)
  · exact hbacked.after h.settled calls
  · rw [(fixed_after c calls).announcement, h.announcement_eq]
    exact hfits

end Client

end PeerLink.Gssapi
