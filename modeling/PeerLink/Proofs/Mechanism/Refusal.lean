import PeerLink.Proofs.Gssapi.Refusal
import PeerLink.Proofs.Mechanism.Order

/-!
# Refusals that leave no trace

A call of a NULL or PLAIN mechanism that fails leaves it exactly as it was, unless the call brings
the ERROR that is waited for (`Mechanism.step_eq_self_iff`). So such a call can be left out of a
run: all other calls answer as before (`Mechanism.leaving_out`). Whole commands that are not waited
for are out of sequence (`Mechanism.step_unexpected`). `refused_without_trace` says so of every run.
-/

set_option autoImplicit false

namespace PeerLink

open Mechanism (Call Answer)

/-! ## What is waited for -/

namespace Mechanism

variable {σ : Type}

/-- Whether a mechanism waits for its peer. -/
def AwaitsPeer : Mechanism σ → Prop
  | null h => h.reply = .awaited
  | plain c => c.Waits
  | gssapi c => c.failed = false ∧ (c.phase = .recvNextToken ∨ c.phase = .recvReady)

/-- A call brings an ERROR while the mechanism waits for its peer. -/
def BringsError (m : Mechanism σ) (call : Call) : Prop :=
  ∃ f, call = .process f ∧ f.isNamed Command.error = true ∧ m.AwaitsPeer

end Mechanism

/-! ## One call of each mechanism -/

namespace NullHandshake

variable {h h' : NullHandshake} {call : Call} {fault : Fault} {f : Frame}

/-- Whether a frame has the name of a command that a handshake waits for. -/
def Expects (h : NullHandshake) (f : Frame) : Prop :=
  h.reply = .awaited ∧ (f.isNamed Command.ready = true ∨ f.isNamed Command.error = true)

/-- A call that fails changes a handshake only if it brings the ERROR that is waited for. -/
theorem Step.eq_self_iff (hs : Step h call (.failed fault) h') : h' = h ↔
    ¬ ∃ f, call = .process f ∧ f.isNamed Command.error = true ∧ h.reply = .awaited := by
  constructor
  · rintro rfl hbrings
    have hfailed := hs.failed_iff.2 (.inr hbrings)
    obtain ⟨f, -, -, hawaited⟩ := hbrings
    cases hawaited.symm.trans hfailed
  · intro hnone
    generalize hanswer : Answer.failed fault = answer at hs
    cases hs with
    | ready _ _ _ | readyTaken _ _ _ => cases hanswer
    | rejected hreply hname => exact absurd ⟨_, rfl, hname, hreply⟩ hnone
    | unwritable _ _ _ | idle _ | refused _ | traffic _ => rfl

/-- A whole command that is not waited for is out of sequence. -/
theorem step_unexpected (hwhole : Command.checkStructure f = .ok ()) (hexpects : ¬ h.Expects f) :
    h.step (.process f) = (.failed (.sequence .unexpected), h) := by
  have hs := step_follows h (.process f)
  generalize h.step (.process f) = result at hs ⊢
  obtain ⟨answer, h'⟩ := result
  dsimp only at hs
  cases hs with
  | readyTaken hreply hdata _ =>
    exact absurd ⟨hreply, .inl (Frame.isNamed_iff.2 ⟨_, hdata⟩)⟩ hexpects
  | rejected hreply hname => exact absurd ⟨hreply, .inr hname⟩ hexpects
  | refused hr =>
    cases hr with
    | answered _ | unknown _ _ _ _ => rfl
    | malformed _ hbad => cases hwhole.symm.trans hbad
    | unsuited hreply hdata _ =>
      exact absurd ⟨hreply, .inl (Frame.isNamed_iff.2 ⟨_, hdata⟩)⟩ hexpects
  | traffic htraffic => simp at htraffic

end NullHandshake

namespace PlainClient

variable {c c' : PlainClient} {call : Call} {fault : Fault} {f : Frame}

/-- A call that fails changes a client only if it brings the ERROR that is waited for. -/
theorem Step.eq_self_iff (hs : Step c call (.failed fault) c') : c' = c ↔
    ¬ ∃ f, call = .process f ∧ f.isNamed Command.error = true ∧ c.Waits := by
  constructor
  · rintro rfl hbrings
    have hfailed := hs.failed_iff.2 (.inr hbrings)
    obtain ⟨f, -, -, hwaits⟩ := hbrings
    rcases hwaits with hphase | hphase <;> cases hphase.symm.trans hfailed
  · intro hnone
    generalize hanswer : Answer.failed fault = answer at hs
    cases hs with
    | hello _ | initiate _ _ | welcomed _ _ | readyTaken _ _ _ => cases hanswer
    | rejected hwaits hname => exact absurd ⟨_, rfl, hname, hwaits⟩ hnone
    | unwritable _ _ | idle _ _ | refused _ | traffic _ => rfl

/-- A whole command that is not waited for is out of sequence. -/
theorem step_unexpected (hwhole : Command.checkStructure f = .ok ()) (hexpects : ¬ c.Expects f) :
    c.step (.process f) = (.failed (.sequence .unexpected), c) := by
  have hs := step_follows c (.process f)
  generalize c.step (.process f) = result at hs ⊢
  obtain ⟨answer, c'⟩ := result
  dsimp only at hs
  cases hs with
  | welcomed hphase hdata =>
    rw [← List.append_nil Command.welcome] at hdata
    exact absurd ((expects_welcome_iff hdata).2 hphase) hexpects
  | readyTaken hphase hdata _ => exact absurd ((expects_ready_iff hdata).2 hphase) hexpects
  | rejected hwaits hname => exact absurd (.inr (.inr ⟨hwaits, hname⟩)) hexpects
  | refused hr =>
    cases hr with
    | malformed hbad => cases hwhole.symm.trans hbad
    | unexpected _ _ => rfl
    | welcomeBody hphase hdata _ => exact absurd ((expects_welcome_iff hdata).2 hphase) hexpects
    | unsuited hphase hdata _ => exact absurd ((expects_ready_iff hdata).2 hphase) hexpects
  | traffic htraffic => simp at htraffic

end PlainClient

/-! ## Runs -/

namespace Mechanism

variable {σ : Type} {m : Mechanism σ} {call : Call} {fault : Fault} {f : Frame}

/-- Whether a frame has the name of a command that a mechanism waits for. -/
def Expects (f : Frame) : Mechanism σ → Prop
  | null h => h.Expects f
  | plain c => c.Expects f
  | gssapi c => c.failed = false ∧ c.Expects f

/-- A call that fails changes a mechanism only if it brings the ERROR that is waited for. -/
theorem step_eq_self_iff (hname : m.name ≠ .gssapi) (h : (m.step call).1 = .failed fault) :
    (m.step call).2 = m ↔ ¬ m.BringsError call := by
  cases m with
  | null own =>
    rw [NullHandshake.mechanism_step] at h ⊢
    have hs := NullHandshake.step_follows own call
    rw [h] at hs
    simpa [BringsError, AwaitsPeer] using hs.eq_self_iff
  | plain c =>
    rw [PlainClient.mechanism_step] at h ⊢
    have hs := PlainClient.step_follows c call
    rw [h] at hs
    simpa [BringsError, AwaitsPeer] using hs.eq_self_iff
  | gssapi c => exact absurd rfl hname

theorem step_unexpected (hname : m.name ≠ .gssapi) (hwhole : Command.checkStructure f = .ok ())
    (hexpects : ¬ m.Expects f) : m.step (.process f) = (.failed (.sequence .unexpected), m) := by
  cases m with
  | null own => rw [NullHandshake.mechanism_step, NullHandshake.step_unexpected hwhole hexpects]
  | plain c => rw [PlainClient.mechanism_step, PlainClient.step_unexpected hwhole hexpects]
  | gssapi c => exact absurd rfl hname

/-- A call that changes nothing can be left out of a run. -/
theorem leaving_out {calls : List Call} (h : ((m.after calls).step call).2 = m.after calls)
    (more : List Call) :
    m.answers (calls ++ more) = (m.answers (calls ++ call :: more)).eraseIdx calls.length ∧
      m.after (calls ++ more) = m.after (calls ++ call :: more) := by
  constructor
  · have hlength : (m.answers calls).length ≤ calls.length := Nat.le_of_eq (m.length_answers calls)
    rw [answers_append, answers_append, answers_cons, h,
      List.eraseIdx_append_of_length_le hlength, m.length_answers, Nat.sub_self]
    rfl
  · rw [after_append, after_append, after_cons, h]

/-- What refusals do to a mechanism that calls were made of. -/
structure RefusesWithoutTrace (m : Mechanism σ) (calls : List Call) : Prop where
  /-- A call that fails leaves everything as it was, unless it brings the ERROR that is waited
  for. -/
  unchanged : ∀ call fault, ((m.after calls).step call).1 = .failed fault →
    (((m.after calls).step call).2 = m.after calls ↔ ¬ (m.after calls).BringsError call)
  /-- Without such a call the others of a run answer the same and lead to the same state. -/
  omitted : ∀ call fault, ((m.after calls).step call).1 = .failed fault →
    ¬ (m.after calls).BringsError call → ∀ more,
    m.answers (calls ++ more) = (m.answers (calls ++ call :: more)).eraseIdx calls.length ∧
      m.after (calls ++ more) = m.after (calls ++ call :: more)
  /-- Whole commands that are not waited for are out of sequence. -/
  unexpected : ∀ f, Command.checkStructure f = .ok () → ¬ (m.after calls).Expects f →
    ((m.after calls).step (.process f)).1 = .failed (.sequence .unexpected)

theorem refusesWithoutTrace (hname : m.name ≠ .gssapi) (calls : List Call) :
    RefusesWithoutTrace m calls := by
  rw [← m.name_after calls] at hname
  refine ⟨fun call fault hfailed => step_eq_self_iff hname hfailed, ?_, ?_⟩
  · intro call fault hfailed hbrings more
    exact leaving_out ((step_eq_self_iff hname hfailed).2 hbrings) more
  · intro f hwhole hexpects
    rw [step_unexpected hname hwhole hexpects]

end Mechanism

/-- Whatever has been called and whatever the peer sends, what a NULL handshake or a PLAIN client
refuses leaves no trace. -/
theorem refused_without_trace {σ : Type} (h : NullHandshake) (c : PlainClient) (calls : List Call) :
    Mechanism.RefusesWithoutTrace (.null h : Mechanism σ) calls ∧
      Mechanism.RefusesWithoutTrace (.plain c : Mechanism σ) calls := by
  constructor
  · exact Mechanism.refusesWithoutTrace (by simp [Mechanism.name]) calls
  · exact Mechanism.refusesWithoutTrace (by simp [Mechanism.name]) calls

/-- A login in which a READY comes too early answers as the one without it. -/
theorem refused_without_trace_login :
    let m : Mechanism Unit := .plain loginClient
    let rest : List Call := [.process (.ofCommand Command.welcome), .next, .process repliesReady]
    m.RefusesWithoutTrace [.next] ∧
      ((m.after [.next]).step (.process repliesReady)).1 = .failed (.sequence .unexpected) ∧
      m.answers (.next :: rest) = (m.answers (.next :: .process repliesReady :: rest)).eraseIdx 1 ∧
      (m.after (.next :: rest)).status = .ready := by
  intro m rest
  have hplain : m.RefusesWithoutTrace [.next] :=
    (refused_without_trace (.start loginOptions) loginClient [.next]).2
  have hrefused : ((m.after [.next]).step (.process repliesReady)).1 =
      .failed (.sequence .unexpected) := by decide +kernel
  have hbrings : ¬ (m.after [.next]).BringsError (.process repliesReady) := by
    rintro ⟨f, hcall, hname, -⟩
    cases hcall
    exact absurd hname (by decide +kernel)
  exact ⟨hplain, hrefused, (hplain.omitted _ _ hrefused hbrings rest).1, by decide +kernel⟩

end PeerLink
