import PeerLink.Proofs.Gssapi.Failure
import PeerLink.Proofs.Gssapi.TokenExchange

/-!
# Positions of a reachable client

A call never takes a client back to an earlier part of the handshake and never undoes the
establishment of its context (`Client.Step.onward`). Together with the invariant of
`Client.Settled` this says where a reachable client can be (`Client.positioned_after`): in
particular its slot is never found in a wrong use.
-/

set_option autoImplicit false

namespace PeerLink.Gssapi

open Mechanism (Call Answer)

/-- The part of the handshake that a position belongs to: the token exchange, in which a client goes
back and forth between two positions, then READY in both directions, then traffic. -/
def Phase.part : Phase → Nat
  | callNextInit | recvNextToken => 0
  | sendReady => 1
  | recvReady => 2
  | connected => 3

namespace Client

variable {σ : Type} {c c' : Client σ} {call : Call} {answer : Answer} {made : List ContextCall}

/-! ## Onward -/

/-- A later client of the same handshake is not behind. -/
structure Onward (c c' : Client σ) : Prop where
  established : c.established = true → c'.established = true
  part_le : c.phase.part ≤ c'.phase.part

theorem Onward.refl (c : Client σ) : Onward c c := ⟨id, Nat.le_refl _⟩

theorem Onward.trans {c'' : Client σ} (h : Onward c c') (h' : Onward c' c'') : Onward c c'' where
  established he := h'.established (h.established he)
  part_le := Nat.le_trans h.part_le h'.part_le

/-- The token exchange comes first, so nothing in it is behind. -/
theorem Onward.of_exchanging (hphase : c.phase = .callNextInit ∨ c.phase = .recvNextToken)
    (he : c.established = true → c'.established = true) : Onward c c' := by
  refine ⟨he, ?_⟩
  rcases hphase with hphase | hphase
  all_goals
    rw [hphase]
    exact Nat.zero_le _

theorem Loaded.established (h : Loaded c made c') (he : c.established = true) :
    c'.established = true := by
  cases h with
  | held _ => exact he
  | fetched _ _ _ => simp [answered, he]

theorem Announces.onward (h : Announces c answer made c') (hphase : c.phase = .sendReady) :
    Onward c c' := by
  cases h with
  | unwritable _ | unwrappable _ _ _ => exact ⟨id, Nat.le_refl _⟩
  | bare _ _ | wrapped _ _ _ => exact ⟨id, by simp [hphase, Phase.part]⟩

/-- A call goes onward, or stays. -/
theorem Step.onward (hs : Step c call answer made c') : Onward c c' := by
  cases hs with
  | firstRefused _ hphase _ _ _ => exact .of_exchanging (.inl hphase) id
  | handed _ hphase hl _ _ | oversized _ hphase hl _ _ =>
    exact .of_exchanging (.inl hphase) hl.established
  | finished _ hphase hl _ ha =>
    exact .of_exchanging (.inl hphase) fun he => (ha.onward rfl).established (hl.established he)
  | announced _ hphase ha => exact ha.onward hphase
  | tokenRefused _ hphase _ _ _ => exact .of_exchanging (.inr hphase) id
  | tokenTaken _ hphase _ _ _ =>
    exact .of_exchanging (.inr hphase) fun he => by simp [answered, he]
  | readyTaken _ hphase _ _ _ => exact ⟨id, by simp [hphase, Phase.part]⟩
  | @transformed _ result _ _ _ _ _ => cases result <;> exact ⟨id, Nat.le_refl _⟩
  | _ => exact ⟨id, Nat.le_refl _⟩

theorem onward_after (c : Client σ) (calls : List Call) : Onward c (c.after calls) := by
  induction calls generalizing c with
  | nil => exact .refl c
  | cons call calls ih => exact (step_consulted c call).onward.trans (ih _)

/-! ## The slot -/

/-- Between calls a token in the slot is one to be sent, and the next thing that is done. -/
theorem Settled.slot_cases (h : Settled c) : c.pending = none ∨
    ∃ token, token ≠ [] ∧ c.pending = some (.outbound token) ∧ c.phase = .callNextInit := by
  cases hp : c.pending with
  | none => exact .inl rfl
  | some token =>
    obtain ⟨hphase, sent, rfl, hne⟩ := h.slot token hp
    exact .inr ⟨sent, hne, rfl, hphase⟩

/-- A call of a settled client does not find its slot in a wrong use. -/
theorem Step.slot_in_order (hs : Step c call answer made c') (h : Settled c) :
    answer ≠ .failed (.sequence .outboundPending) ∧
      answer ≠ .failed (.sequence .inboundPending) := by
  have hnone : ∀ {fault : Fault}, answer = .failed fault →
      (fault = .sequence .outboundPending ∨ fault = .sequence .inboundPending) → False := by
    rintro fault rfl hfault
    rcases hs.fault_cases with ⟨-, rfl⟩ | ⟨-, -, rfl⟩ | ⟨token, hp, -⟩ | hends
    · simp at hfault
    · simp at hfault
    · -- the slot never holds an input between calls
      obtain ⟨-, sent, hsent, -⟩ := h.slot _ hp
      cases hsent
    · rcases hfault with rfl | rfl <;> cases hends
  exact ⟨fun hanswer => hnone hanswer (.inl rfl), fun hanswer => hnone hanswer (.inr rfl)⟩

theorem Settled.slot_in_order (h : Settled c) (calls : List Call) :
    ∀ answer ∈ c.answers calls, answer ≠ .failed (.sequence .outboundPending) ∧
      answer ≠ .failed (.sequence .inboundPending) := by
  induction calls generalizing c with
  | nil => simp [answers]
  | cons call calls ih =>
    have hs := step_consulted c call
    exact List.forall_mem_cons.2 ⟨hs.slot_in_order h, ih (hs.settled h)⟩

/-- A new client that is still to ask for its first token has not called the context for one. -/
theorem Built.not_init_mem {options : SecurityOptions} {context : SecurityContext σ} {session : σ}
    (h : Built options context session c) {calls : List Call}
    (hf : (c.after calls).failed = false) (hphase : (c.after calls).phase = .callNextInit)
    (hp : (c.after calls).pending = none) (request : InitRequest) (answer : InitAnswer) :
    .init request answer ∉ c.history calls := by
  intro hmem
  -- the exchange stands at its start, so nothing is in its ledger
  have hstage : (c.after calls).stage = .fresh := by simp [stage, hf, hphase, hp]
  have hpath := h.settled.exchange_path calls
  rw [hstage] at hpath
  have hasked := asked_exchange c calls
  rw [hpath.eq_nil_of_fresh] at hasked
  have hcall : (request.inputToken, answer) ∈ (c.history calls).filterMap tokenCall? :=
    List.mem_filterMap.2 ⟨_, hmem, rfl⟩
  rw [← hasked] at hcall
  cases hcall

/-! ## Reachable clients -/

/-- Where a client can be that calls were made of. -/
structure Positioned (c : Client σ) (calls : List Call) : Prop where
  /-- Past the token exchange the context is established. -/
  established : (c.after calls).phase = .sendReady ∨ (c.after calls).phase = .recvReady ∨
    (c.after calls).phase = .connected → (c.after calls).established = true
  /-- The server owes a token only for a context that is not established. -/
  awaiting : (c.after calls).phase = .recvNextToken → (c.after calls).established = false
  /-- The slot holds at most a token that is to be sent next. -/
  slot : (c.after calls).pending = none ∨ ∃ token, token ≠ [] ∧
    (c.after calls).pending = some (.outbound token) ∧ (c.after calls).phase = .callNextInit
  /-- With an empty slot the first call of the context is still to come. -/
  fresh : (c.after calls).failed = false → (c.after calls).phase = .callNextInit →
    (c.after calls).pending = none →
    ∀ (request : InitRequest) (answer : InitAnswer), .init request answer ∉ c.history calls
  /-- No more calls take the client back. -/
  onward : ∀ more : List Call, Onward (c.after calls) (c.after (calls ++ more))
  /-- No call finds the slot in a wrong use. -/
  inOrder : ∀ answer ∈ c.answers calls, answer ≠ .failed (.sequence .outboundPending) ∧
    answer ≠ .failed (.sequence .inboundPending)

/-- Every reachable client is where its slot and its context say, whatever the context answers and
whatever is received. -/
theorem positioned_after {options : SecurityOptions} {context : SecurityContext σ} {session : σ}
    (h : Built options context session c) (calls : List Call) : Positioned c calls where
  established := (h.settled.after calls).established
  awaiting := (h.settled.after calls).awaiting
  slot := (h.settled.after calls).slot_cases
  fresh hf hphase hp := h.not_init_mem hf hphase hp
  onward more := by
    rw [after_append]
    exact onward_after _ more
  inOrder := h.settled.slot_in_order calls

theorem positioned_after_one_round :
    let c := sample false [.ok (.continueNeeded [1]), .ok (.complete [2])]
    let calls := [.next, .process (.ofCommand (framed Command.initiate [7]))]
    Positioned c calls ∧ (c.after calls).pending = some (.outbound [2]) ∧
      (c.after calls).established = true :=
  ⟨positioned_after (built_sample _ _) _, rfl, rfl⟩

end Client

end PeerLink.Gssapi
