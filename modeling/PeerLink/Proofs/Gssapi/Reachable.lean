import PeerLink.Proofs.Gssapi.Recording

/-!
# What every reachable client satisfies

`Client.Built` is how clients come about. No call changes what a client was built with
(`Client.fixed_after`). `Client.Settled` ties the slot, the position and the establishment of the
context together; a new client is settled (`Client.Built.settled`) and every call keeps it so
(`Client.Step.settled`, `Client.Settled.after`).
-/

set_option autoImplicit false

namespace PeerLink.Gssapi.Client

open Mechanism (Call Answer)

variable {σ : Type} {c c' : Client σ} {call : Call} {answer : Answer} {made : List ContextCall}

/-! ## New clients -/

/-- A client as the library makes it: for the service in the options or for a peer. -/
inductive Built (options : SecurityOptions) (context : SecurityContext σ) (session : σ)
    (c : Client σ) : Prop
  | start : Client.start options context session = .ok c → Built options context session c
  | forPeer {peer : Address} : Client.forPeer options peer context session = .ok c →
      Built options context session c

section Built

variable {options : SecurityOptions} {context : SecurityContext σ} {session : σ}

/-- Both ways to make a client name a service first. -/
theorem Built.exists_withServiceName (h : Built options context session c) :
    ∃ serviceName, withServiceName options serviceName context session = .ok c := by
  cases h with
  | start h => exact ⟨_, h⟩
  | forPeer h =>
    rename_i peer
    rw [Client.forPeer] at h
    cases hname : principalFor options.gssapi peer with
    | error fault =>
      rw [hname] at h
      cases h
    | ok name =>
      rw [hname] at h
      exact ⟨_, h⟩

/-- A new client has done nothing yet and keeps to its options. -/
theorem Built.eq_initial (h : Built options context session c) :
    ∃ serviceName mechanisms, c = {
      announcement := .ofOptions options
      context := context
      session := session
      serviceName := serviceName
      principal := options.gssapi.principal.map (⟨·, options.gssapi.principalNameType⟩)
      mechanisms := mechanisms
      encrypting := !options.gssapi.plaintext
      phase := .callNextInit
      pending := none
      established := false
      failed := false
      peer := .empty } := by
  obtain ⟨serviceName, h⟩ := h.exists_withServiceName
  rw [withServiceName] at h
  split at h
  · cases h
  · cases hoids : Oid.parseAll options.gssapi.mechanisms with
    | error fault =>
      rw [hoids] at h
      cases h
    | ok mechanisms =>
      rw [hoids] at h
      exact ⟨serviceName, mechanisms, (Except.ok.inj h).symm⟩

theorem Built.announcement_eq (h : Built options context session c) :
    c.announcement = .ofOptions options := by
  obtain ⟨serviceName, mechanisms, rfl⟩ := h.eq_initial
  rfl

theorem Built.encrypting_eq (h : Built options context session c) :
    c.encrypting = !options.gssapi.plaintext := by
  obtain ⟨serviceName, mechanisms, rfl⟩ := h.eq_initial
  rfl

end Built

/-- A context that answers calls for a token from a list, protects by leaving the plaintext as it
is, and takes every token for an encrypted one. -/
def scripted : SecurityContext (List InitAnswer) where
  init
    | _, [] => (.error ⟨0, 0, ""⟩, [])
    | _, answer :: more => (answer, more)
  wrap plaintext _ script := (.ok plaintext, script)
  unwrap token script := (.ok ⟨token, true⟩, script)

/-- The client of a DEALER socket for the service `zmtp`, over a scripted context. -/
def sample (plaintext : Bool) (script : List InitAnswer) : Client (List InitAnswer) where
  announcement := .ofOptions {}
  context := scripted
  session := script
  serviceName := ⟨"zmtp", .hostBased⟩
  principal := none
  mechanisms := []
  encrypting := !plaintext
  phase := .callNextInit
  pending := none
  established := false
  failed := false
  peer := .empty

theorem built_sample (plaintext : Bool) (script : List InitAnswer) :
    Built { gssapi := { servicePrincipal := "zmtp", plaintext := plaintext, mechanisms := [] } }
      scripted script (sample plaintext script) :=
  .start rfl

/-! ## What stays -/

/-- The parts of a client that it was built with. -/
structure Fixed (c c' : Client σ) : Prop where
  announcement : c'.announcement = c.announcement
  context : c'.context = c.context
  serviceName : c'.serviceName = c.serviceName
  principal : c'.principal = c.principal
  mechanisms : c'.mechanisms = c.mechanisms
  encrypting : c'.encrypting = c.encrypting

theorem Fixed.refl (c : Client σ) : Fixed c c := ⟨rfl, rfl, rfl, rfl, rfl, rfl⟩

theorem Fixed.trans {c'' : Client σ} (h : Fixed c c') (h' : Fixed c' c'') : Fixed c c'' where
  announcement := h'.announcement.trans h.announcement
  context := h'.context.trans h.context
  serviceName := h'.serviceName.trans h.serviceName
  principal := h'.principal.trans h.principal
  mechanisms := h'.mechanisms.trans h.mechanisms
  encrypting := h'.encrypting.trans h.encrypting

theorem Loaded.fixed (h : Loaded c made c') : Fixed c c' := by
  cases h with
  | held _ => exact .refl c
  | fetched _ _ _ => exact ⟨rfl, rfl, rfl, rfl, rfl, rfl⟩

theorem Announces.fixed (h : Announces c answer made c') : Fixed c c' := by
  cases h <;> exact ⟨rfl, rfl, rfl, rfl, rfl, rfl⟩

theorem fixed_settled (c : Client σ) (result : Except Fault Frame) (session : σ) :
    Fixed c (c.settled result session) := by
  cases result <;> exact ⟨rfl, rfl, rfl, rfl, rfl, rfl⟩

theorem Step.fixed (h : Step c call answer made c') : Fixed c c' := by
  cases h with
  | handed _ _ hl _ _ | oversized _ _ hl _ _ => exact hl.fixed.trans ⟨rfl, rfl, rfl, rfl, rfl, rfl⟩
  | finished _ _ hl _ ha =>
    have hready := ha.fixed
    exact hl.fixed.trans ⟨hready.1, hready.2, hready.3, hready.4, hready.5, hready.6⟩
  | announced _ _ ha => exact ha.fixed
  | transformed _ _ _ => exact fixed_settled c _ _
  | _ => exact ⟨rfl, rfl, rfl, rfl, rfl, rfl⟩

/-- No calls change what the client was built with. -/
theorem fixed_after (c : Client σ) (calls : List Call) : Fixed c (c.after calls) := by
  induction calls generalizing c with
  | nil => exact .refl c
  | cons call calls ih => exact (step_consulted c call).fixed.trans (ih _)

/-! ## The invariant -/

/-- Between calls: the slot holds at most a token to be sent, and only where it is sent next; the
position says whether the context is established. -/
structure Settled (c : Client σ) : Prop where
  slot : ∀ token, c.pending = some token →
    c.phase = .callNextInit ∧ ∃ sent, token = .outbound sent ∧ sent ≠ []
  established : c.phase = .sendReady ∨ c.phase = .recvReady ∨ c.phase = .connected →
    c.established = true
  awaiting : c.phase = .recvNextToken → c.established = false
  fresh : c.failed = false → c.phase = .callNextInit → c.pending = none → c.established = false

theorem Built.settled {options : SecurityOptions} {context : SecurityContext σ} {session : σ}
    (h : Built options context session c) : Settled c := by
  obtain ⟨serviceName, mechanisms, rfl⟩ := h.eq_initial
  constructor <;> simp

theorem Settled.pending_eq_none (h : Settled c) (hphase : c.phase ≠ .callNextInit) :
    c.pending = none := by
  cases hp : c.pending with
  | none => rfl
  | some token => exact absurd (h.slot token hp).1 hphase

/-- A failure keeps a client settled. -/
theorem Settled.failing (h : Settled c) (session : σ) :
    Settled { c with session := session, failed := true } where
  slot := h.slot
  established := h.established
  awaiting := h.awaiting
  fresh := by
    intro hf
    cases hf

/-- The slot is looked at only where a token may be in it, and the context is asked first if it is
empty. -/
theorem Loaded.settled (hl : Loaded c made c') (h : Settled c) (hf : c.failed = false)
    (hphase : c.phase = .callNextInit) :
    c'.failed = false ∧ c'.phase = .callNextInit ∧
      (∀ token, c'.pending = some token → ∃ sent, token = .outbound sent ∧ sent ≠ []) ∧
      (c'.pending = none → c'.established = true) := by
  cases hl with
  | held hp =>
    -- what was in the slot is a token to be sent
    refine ⟨hf, hphase, fun token htoken => (h.slot token htoken).2, fun hnone => ?_⟩
    cases hp.symm.trans hnone
  | @fetched answer session hp hinit hr =>
    -- the answer leaves a token, or establishes the context without one
    refine ⟨hf, hphase, fun token htoken => ?_, fun hnone => ?_⟩
    · obtain ⟨sent, hsent, rfl⟩ := Option.map_eq_some_iff.1 htoken
      exact ⟨sent, rfl, InitAnswer.ne_nil_of_token? hsent⟩
    · have hcompletes := InitAnswer.completes_of_token?_eq_none hr (Option.map_eq_none_iff.1 hnone)
      simp only [answered, hcompletes, Bool.or_true]

/-- Sending READY leaves a client whose context is established and whose slot is empty. -/
theorem Announces.settled (ha : Announces c answer made c') (hphase : c.phase = .sendReady)
    (hp : c.pending = none) (he : c.established = true) : Settled c' := by
  cases ha <;> constructor <;> simp [hphase, hp, he]

/-- Every call keeps a client settled. -/
theorem Step.settled (hs : Step c call answer made c') (h : Settled c) : Settled c' := by
  cases hs with
  | halted _ | haltedProcess _ | notReady _ _ | waiting _ _ _ | passed _ _ _ => exact h
  | firstRefused _ hphase _ _ _ =>
    -- the slot is emptied and the position kept
    constructor <;> simp [refused, hphase]
  | @handed loaded _ token _ _ _ _ _ =>
    cases loaded.established <;> constructor <;> simp
  | @oversized loaded _ token hf hphase hl hp _ =>
    obtain ⟨-, hphase', -, -⟩ := hl.settled h hf hphase
    constructor <;> simp [hphase']
  | clash _ hphase hp =>
    -- the slot never holds an input between calls
    obtain ⟨-, sent, hsent, -⟩ := h.slot _ hp
    cases hsent
  | finished hf hphase hl hp ha =>
    obtain ⟨-, -, -, he⟩ := hl.settled h hf hphase
    exact ha.settled rfl hp (he hp)
  | announced hf hphase ha =>
    have hp := h.pending_eq_none (by simp [hphase])
    exact ha.settled hphase hp (h.established (.inl hphase))
  | refusedCommand _ _ => exact h.failing c.session
  | tokenRefused hf hphase _ _ _ =>
    have he := h.awaiting hphase
    constructor <;> simp [refused, hphase, he]
  | @tokenTaken f token answer session hf hphase _ _ hr =>
    have he := h.awaiting hphase
    cases ht : answer.token? with
    | some sent =>
      -- the client goes back to where the slot is looked at
      have hsent := InitAnswer.ne_nil_of_token? ht
      constructor <;> simp [answered, ht, hsent]
    | none =>
      -- nothing to send, so the context is established
      have hcompletes := InitAnswer.completes_of_token?_eq_none hr ht
      constructor <;> simp [answered, ht, hcompletes]
  | readyUnreadable _ _ _ _ | readyRefused _ _ _ _ _ => exact h.failing _
  | readyTaken _ hphase _ _ _ =>
    have hp := h.pending_eq_none (by simp [hphase])
    have he := h.established (.inr (.inl hphase))
    constructor <;> simp [hp, he]
  | @transformed call result _ session _ _ _ =>
    cases result with
    | ok f => exact ⟨h.slot, h.established, h.awaiting, h.fresh⟩
    | error fault => exact h.failing session

/-- Every reachable client is settled. -/
theorem Settled.after (h : Settled c) (calls : List Call) : Settled (c.after calls) := by
  induction calls generalizing c with
  | nil => exact h
  | cons call calls ih => exact ih ((step_consulted c call).settled h)

end PeerLink.Gssapi.Client
