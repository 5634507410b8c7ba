import PeerLink.Proofs.Gssapi.Completion
import PeerLink.Proofs.Metadata.Acceptance
import PeerLink.Proofs.Null.Rules
import PeerLink.Proofs.Plain.Rules

/-!
# How a mechanism learns of its peer

All three mechanisms learn who their peer is from one command, its READY, which GSSAPI may have to
recover first (`Mechanism.TakesReady`). A call takes a READY while nothing is known of the peer, or it
leaves what is known as it is (`Mechanism.learns`).
-/

set_option autoImplicit false

namespace PeerLink

open Mechanism (Call Answer)

namespace Mechanism

variable {σ : Type}

/-! ## Reading a READY -/

/-- What a mechanism announces. -/
def announcement : Mechanism σ → Announcement
  | null h => h.announcement
  | plain c => c.announcement
  | gssapi c => c.announcement

/-- What is known of the peer once a READY has been taken. -/
def peer? : Mechanism σ → Option Properties
  | null h =>
      match h.reply with
      | .ready peer => some peer
      | _ => none
  | plain c =>
      match c.phase with
      | .ready peer => some peer
      | _ => none
  | gssapi c => if c.phase = .connected then some c.peer else none

/-- The bytes of a command as a mechanism reads them: those of the frame or, where GSSAPI protects
traffic, those that the context recovers from it as encrypted. -/
inductive ReadsAs : Mechanism σ → Frame → Bytes → Prop
  | null {h : NullHandshake} {f : Frame} : ReadsAs (.null h) f f.data
  | plain {c : PlainClient} {f : Frame} : ReadsAs (.plain c) f f.data
  | bare {c : Gssapi.Client σ} {f : Frame} : c.encrypting = false → ReadsAs (.gssapi c) f f.data
  | recovered {c : Gssapi.Client σ} {f : Frame} {token data : Bytes} {flags : UInt8} :
      c.encrypting = true → f.data = Gssapi.framed Command.message token →
      c.consulted (.process f) = [.unwrap token (.ok ⟨flags :: data, true⟩)] →
      ReadsAs (.gssapi c) f data

/-- A call takes a READY with this block. -/
def TakesReady (m : Mechanism σ) (call : Call) (block : Bytes) : Prop :=
  ∃ f, call = .process f ∧ (m.step call).1 = .done ∧ m.ReadsAs f (Command.ready ++ block)

/-- A frame is read in one way. -/
theorem ReadsAs.unique {m : Mechanism σ} {f : Frame} {data data' : Bytes} (h : m.ReadsAs f data)
    (h' : m.ReadsAs f data') : data = data' := by
  cases h with
  | null | plain =>
    cases h'
    rfl
  | bare hplain =>
    cases h' with
    | bare _ => rfl
    | recovered henc _ _ => cases henc.symm.trans hplain
  | recovered henc _ hmade =>
    cases h' with
    | bare hplain => cases henc.symm.trans hplain
    | recovered _ _ hmade' =>
      cases hmade.symm.trans hmade'
      rfl

/-- What a call does to what is known of the peer: a call that takes no READY leaves it, and a READY
is taken while nothing is known. -/
inductive Learns (m : Mechanism σ) (call : Call) (m' : Mechanism σ) : Prop
  | kept : (∀ block, ¬ m.TakesReady call block) → m'.peer? = m.peer? → Learns m call m'
  | told {block : Bytes} {peer : Properties} : m.TakesReady call block → m.peer? = none →
      m.announcement.accept block = .ok peer → m'.peer? = some peer → Learns m call m'

/-- Only a call that is done takes a READY. -/
theorem not_takesReady {m : Mechanism σ} {call : Call} (h : (m.step call).1 ≠ .done)
    (block : Bytes) : ¬ m.TakesReady call block := by
  rintro ⟨f, -, hdone, -⟩
  exact h hdone

end Mechanism

/-! ## One call of each mechanism -/

namespace NullHandshake

variable {σ : Type}

theorem learns (h : NullHandshake) (call : Call) :
    Mechanism.Learns (.null h : Mechanism σ) call (.null (h.step call).2) := by
  have hs := step_follows h call
  have hstep := mechanism_step (σ := σ) h call
  generalize (h.step call).1 = answer, (h.step call).2 = h' at hs hstep
  cases hs with
  | readyTaken hreply hdata haccept =>
    refine .told ⟨_, rfl, ?_, ?_⟩ ?_ haccept rfl
    · rw [hstep]
    · rw [← hdata]
      exact .null
    · rw [Mechanism.peer?, hreply]
  | rejected hreply _ =>
    refine .kept (Mechanism.not_takesReady ?_) ?_
    · rw [hstep]
      simp
    · rw [Mechanism.peer?, Mechanism.peer?, hreply]
  | ready _ _ _ | unwritable _ _ _ | idle _ | refused _ =>
    refine .kept (Mechanism.not_takesReady ?_) rfl
    rw [hstep]
    simp
  | traffic hcall =>
    refine .kept ?_ rfl
    rintro block ⟨f, rfl, -⟩
    simp at hcall

end NullHandshake

namespace PlainClient

variable {σ : Type}

theorem learns (c : PlainClient) (call : Call) :
    Mechanism.Learns (.plain c : Mechanism σ) call (.plain (c.step call).2) := by
  have hs := step_follows c call
  have hstep := mechanism_step (σ := σ) c call
  generalize (c.step call).1 = answer, (c.step call).2 = c' at hs hstep
  cases hs with
  | readyTaken hphase hdata haccept =>
    refine .told ⟨_, rfl, ?_, ?_⟩ ?_ haccept rfl
    · rw [hstep]
    · rw [← hdata]
      exact .plain
    · rw [Mechanism.peer?, hphase]
  | welcomed hphase hdata =>
    refine .kept ?_ ?_
    · -- WELCOME is not READY
      rintro block ⟨f, hcall, -, hreads⟩
      cases hcall
      have hready := hreads.unique .plain
      rw [hdata] at hready
      simp [Command.ready, Command.welcome] at hready
    · rw [Mechanism.peer?, Mechanism.peer?, hphase]
  | rejected hwaits _ =>
    refine .kept (Mechanism.not_takesReady ?_) ?_
    · rw [hstep]
      simp
    · rw [Mechanism.peer?, Mechanism.peer?]
      rcases hwaits with hphase | hphase <;> rw [hphase]
  | hello hphase | initiate hphase _ =>
    refine .kept (Mechanism.not_takesReady ?_) ?_
    · rw [hstep]
      simp
    · rw [Mechanism.peer?, Mechanism.peer?, hphase]
  | unwritable _ _ | idle _ _ | refused _ =>
    refine .kept (Mechanism.not_takesReady ?_) rfl
    rw [hstep]
    simp
  | traffic hcall =>
    refine .kept ?_ rfl
    rintro block ⟨f, rfl, -⟩
    simp at hcall

end PlainClient

namespace Gssapi.Client

variable {σ : Type} {c c' : Client σ} {call : Call} {answer : Answer} {made : List ContextCall}
  {f : Frame}

theorem Loaded.peer_eq (h : Loaded c made c') : c'.peer = c.peer := by
  cases h <;> rfl

theorem Announces.peer_eq (h : Announces c answer made c') : c'.peer = c.peer := by
  cases h <;> rfl

theorem Announces.ne_done (h : Announces c answer made c') : answer ≠ .done := by
  cases h <;> simp

/-- A call leaves what is known of the peer, and whether the client is connected, unless it takes the
READY. It takes nothing else but a token. -/
theorem Step.peer_cases (hs : Step c call answer made c') :
    (c'.peer = c.peer ∧ (c'.phase = .connected ↔ c.phase = .connected) ∧
      (answer = .done → ∃ f token, call = .process f ∧
        readToken? Command.initiate f = some token)) ∨
    ∃ f ready session, call = .process f ∧ answer = .done ∧ c.phase = .recvReady ∧
      Reads c f (.ok ready) made session ∧ c.judge ready = .ok c'.peer ∧ c'.phase = .connected := by
  cases hs with
  | readyTaken _ hphase _ hr hj => exact .inr ⟨_, _, _, rfl, rfl, hphase, hr, hj, rfl⟩
  | @tokenTaken f token answer _ _ hphase hread _ _ =>
    refine .inl ⟨rfl, ?_, fun _ => ⟨f, token, rfl, hread⟩⟩
    cases answer.token? <;> simp [hphase]
  | @handed loaded _ _ _ hphase hl _ _ =>
    refine .inl ⟨hl.peer_eq, ?_, by simp⟩
    cases loaded.established <;> simp [hphase]
  | oversized _ hphase hl _ _ => exact .inl ⟨hl.peer_eq, by rw [hl.phase_eq], by simp⟩
  | finished _ hphase hl _ ha =>
    have hlast := ha.phase_ne_connected (by simp)
    exact .inl ⟨ha.peer_eq.trans hl.peer_eq, by simp [hlast, hphase], by simp [ha.ne_done]⟩
  | announced _ hphase ha =>
    have hlast := ha.phase_ne_connected (by simp [hphase])
    exact .inl ⟨ha.peer_eq, by simp [hlast, hphase], by simp [ha.ne_done]⟩
  | @transformed _ result _ _ _ _ _ =>
    cases result <;> exact .inl ⟨rfl, Iff.rfl, by simp [Answer.ofFrame]⟩
  | _ => exact .inl ⟨rfl, Iff.rfl, by simp⟩

/-- A frame that brings a token of the exchange is not read as READY. -/
theorem not_readsAs_of_token {token block : Bytes}
    (hread : readToken? Command.initiate f = some token) :
    ¬ (Mechanism.gssapi c).ReadsAs f (Command.ready ++ block) := by
  obtain ⟨body, hdata⟩ := Frame.isNamed_iff.1 (isNamed_of_readToken? hread)
  intro hreads
  generalize hbytes : Command.ready ++ block = data at hreads
  cases hreads with
  | bare _ =>
    rw [hdata] at hbytes
    simp [Command.ready, Command.initiate] at hbytes
  | recovered _ hframed _ =>
    rw [hdata] at hframed
    simp [framed, Command.message, Command.initiate] at hframed

/-- A frame that was read as a READY is read so by the mechanism. -/
theorem Reads.readsAs {ready : Frame} {session : σ} (h : Reads c f (.ok ready) made session)
    (hmade : c.consulted (.process f) = made) : (Mechanism.gssapi c).ReadsAs f ready.data := by
  cases henc : c.encrypting with
  | false =>
    cases h with
    | bare _ => exact .bare henc
    | recovered hother _ _ => cases henc.symm.trans hother
  | true =>
    obtain ⟨token, flags, payload, hdata, -, rfl, rfl⟩ := h.exists_unwrap henc
    exact .recovered henc hdata hmade

theorem learns (c : Client σ) (call : Call) :
    Mechanism.Learns (.gssapi c) call (.gssapi (c.step call).2) := by
  have hs := step_consulted c call
  have hstep := mechanism_step c call
  rcases hs.peer_cases with ⟨hpeer, hphase, hother⟩ |
    ⟨f, ready, session, hcall, hdone, hphase, hr, hj, hconnected⟩
  · refine .kept ?_ ?_
    · rintro block ⟨f, rfl, hdone, hreads⟩
      rw [hstep] at hdone
      obtain ⟨own, token, hcall, hread⟩ := hother hdone
      cases hcall
      exact not_readsAs_of_token hread hreads
    · simp only [Mechanism.peer?, hpeer, hphase]
  · subst hcall
    obtain ⟨block, hdata⟩ := Frame.isNamed_iff.1 (isNamed_of_judge hj)
    have htakes : (Mechanism.gssapi c).TakesReady (.process f) block := by
      refine ⟨f, rfl, ?_, ?_⟩
      · rw [hstep]
        exact hdone
      · rw [← hdata]
        exact hr.readsAs rfl
    refine .told htakes ?_ ((judge_eq hdata).symm.trans hj) ?_
    · simp [Mechanism.peer?, hphase]
    · simp [Mechanism.peer?, hconnected]

/-- Nothing is told of the peer before the client is connected. -/
theorem Step.peer_eq_empty (hs : Step c call answer made c')
    (h : c.phase ≠ .connected → c.peer = .empty) (hphase : c'.phase ≠ .connected) :
    c'.peer = .empty := by
  rcases hs.peer_cases with ⟨hpeer, hconnected, -⟩ | ⟨_, _, _, -, -, -, -, -, hconnected⟩
  · rw [hpeer]
    exact h (mt hconnected.2 hphase)
  · exact absurd hconnected hphase

end Gssapi.Client

/-! ## One call of any mechanism -/

namespace Mechanism

variable {σ : Type} {m : Mechanism σ} {call : Call} {block : Bytes}

theorem learns (m : Mechanism σ) (call : Call) : m.Learns call (m.step call).2 := by
  cases m with
  | null h =>
    rw [NullHandshake.mechanism_step]
    exact h.learns call
  | plain c =>
    rw [PlainClient.mechanism_step]
    exact c.learns call
  | gssapi c =>
    rw [Gssapi.Client.mechanism_step]
    exact c.learns call

theorem announcement_step (m : Mechanism σ) (call : Call) :
    (m.step call).2.announcement = m.announcement := by
  cases m with
  | null h =>
    rw [NullHandshake.mechanism_step]
    exact (NullHandshake.step_follows h call).announcement_eq
  | plain c =>
    rw [PlainClient.mechanism_step]
    exact (PlainClient.step_follows c call).own_eq.1
  | gssapi c =>
    rw [Gssapi.Client.mechanism_step]
    exact (Gssapi.Client.step_consulted c call).fixed.announcement

theorem TakesReady.unique {other : Bytes} (h : m.TakesReady call block)
    (h' : m.TakesReady call other) : other = block := by
  obtain ⟨f, rfl, -, hreads⟩ := h
  obtain ⟨f', hcall, -, hreads'⟩ := h'
  cases hcall
  exact List.append_cancel_left (hreads'.unique hreads)

/-- A READY is taken only while nothing is known. -/
theorem TakesReady.peer?_eq_none (h : m.TakesReady call block) : m.peer? = none := by
  cases m.learns call with
  | kept hnot _ => exact absurd h (hnot block)
  | told _ hnone _ _ => exact hnone

/-- A call that fails takes nothing. -/
theorem peer?_step_of_failed {fault : Fault} (h : (m.step call).1 = .failed fault) :
    (m.step call).2.peer? = m.peer? := by
  cases m.learns call with
  | kept _ hpeer => exact hpeer
  | told htakes _ _ _ =>
    obtain ⟨f, -, hdone, -⟩ := htakes
    cases h.symm.trans hdone

end Mechanism

end PeerLink
