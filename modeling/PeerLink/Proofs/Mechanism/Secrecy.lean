import PeerLink.Proofs.Gssapi.Recording
import PeerLink.Proofs.Mechanism.Order
import PeerLink.Proofs.Plain.Hello

/-!
# Credentials go into HELLO only

A call of a PLAIN client does not look at its credentials unless it gives HELLO out
(`PlainClient.step_withCredentials`). So two clients that differ in nothing else answer every call
alike but the first one for a command, and show the same
(`PlainClient.alikeButFirst_withCredentials`). The other mechanisms do not keep the credentials.
`credentials_secret` says so of all mechanisms that are made of two options.
-/

set_option autoImplicit false

namespace PeerLink

open Mechanism (Call Answer)

/-! ## What is seen of a mechanism -/

namespace Mechanism

variable {σ : Type} {m m' : Mechanism σ}

/-- Call by call two mechanisms answer the same and show the same. -/
structure Alike (m m' : Mechanism σ) : Prop where
  answers_eq : ∀ calls, m.answers calls = m'.answers calls
  status_eq : ∀ calls, (m.after calls).status = (m'.after calls).status
  peer_eq : ∀ calls, (m.after calls).peerProperties = (m'.after calls).peerProperties

theorem Alike.refl (m : Mechanism σ) : Alike m m :=
  ⟨fun _ => rfl, fun _ => rfl, fun _ => rfl⟩

/-- Two mechanisms answer the same, but for the first call for a command, and show the same. -/
structure AlikeButFirst (m m' : Mechanism σ) (first first' : Frame) : Prop where
  /-- A call is answered alike, or it is the first one for a command and both give one out. -/
  answer_eq : ∀ calls call,
    ((m.after calls).step call).1 = ((m'.after calls).step call).1 ∨
      call = .next ∧ .next ∉ calls ∧ ((m.after calls).step call).1 = .frame first ∧
        ((m'.after calls).step call).1 = .frame first'
  status_eq : ∀ calls, (m.after calls).status = (m'.after calls).status
  peer_eq : ∀ calls, (m.after calls).peerProperties = (m'.after calls).peerProperties

end Mechanism

/-! ## PLAIN clients -/

namespace PlainClient

variable {σ : Type} {c : PlainClient} {call : Call}

/-- The client with other credentials. -/
def withCredentials (c : PlainClient) (own : Credentials) : PlainClient :=
  { c with credentials := own }

theorem processWelcome_withCredentials (c : PlainClient) (own : Credentials) (f : Frame) :
    (c.withCredentials own).processWelcome f =
      ((c.processWelcome f).1, (c.processWelcome f).2.withCredentials own) := by
  obtain ⟨announcement, credentials, phase⟩ := c
  cases phase with
  | awaitingWelcome =>
    simp only [processWelcome, withCredentials]
    split <;> rfl
  | sendingHello | sendingInitiate | awaitingReady | failed | ready peer => rfl

theorem processReady_withCredentials (c : PlainClient) (own : Credentials) (f : Frame) :
    (c.withCredentials own).processReady f =
      ((c.processReady f).1, (c.processReady f).2.withCredentials own) := by
  obtain ⟨announcement, credentials, phase⟩ := c
  cases phase with
  | awaitingReady =>
    simp only [processReady, withCredentials]
    cases announcement.accept (f.data.drop Command.ready.length) <;> rfl
  | sendingHello | awaitingWelcome | sendingInitiate | failed | ready peer => rfl

theorem processError_withCredentials (c : PlainClient) (own : Credentials) (f : Frame) :
    (c.withCredentials own).processError f =
      ((c.processError f).1, (c.processError f).2.withCredentials own) := by
  obtain ⟨announcement, credentials, phase⟩ := c
  cases phase <;> rfl

/-- What a client does with a command does not depend on its credentials. -/
theorem process_withCredentials (c : PlainClient) (own : Credentials) (f : Frame) :
    (c.withCredentials own).process f =
      ((c.process f).1, (c.process f).2.withCredentials own) := by
  unfold process
  cases Command.checkStructure f with
  | error fault => rfl
  | ok done =>
    dsimp only
    rw [processWelcome_withCredentials, processReady_withCredentials,
      processError_withCredentials]
    split
    · rfl
    · split
      · rfl
      · split <;> rfl

/-- Neither do the commands that it gives out after HELLO. -/
theorem next_withCredentials (own : Credentials) (hphase : c.phase ≠ .sendingHello) :
    (c.withCredentials own).next = (c.next.1, c.next.2.withCredentials own) := by
  obtain ⟨announcement, credentials, phase⟩ := c
  cases phase with
  | sendingHello => exact absurd rfl hphase
  | sendingInitiate =>
    simp only [next, withCredentials]
    cases announcement.command Command.initiate <;> rfl
  | awaitingWelcome | awaitingReady | failed | ready peer => rfl

/-- A call looks at the credentials only where it gives HELLO out. -/
theorem step_withCredentials (own : Credentials) (h : ¬ (call = .next ∧ c.phase = .sendingHello)) :
    (c.withCredentials own).step call = ((c.step call).1, (c.step call).2.withCredentials own) := by
  cases call with
  | next =>
    have hphase : c.phase ≠ .sendingHello := fun hphase => h ⟨rfl, hphase⟩
    rw [step, step, next_withCredentials own hphase]
  | process f => rw [step, step, process_withCredentials]
  | encode f | decode f => rfl

/-- HELLO leads to the same phase. -/
theorem step_hello (hphase : c.phase = .sendingHello) :
    c.step .next = (.frame c.hello, { c with phase := .awaitingWelcome }) := by
  rw [step, next, hphase]
  rfl

/-- No call leads back to the time before HELLO. -/
theorem Step.phase_ne_sendingHello {c' : PlainClient} {answer : Answer}
    (hs : Step c call answer c') (h : call = .next ∨ c.phase ≠ .sendingHello) :
    c'.phase ≠ .sendingHello := by
  cases hs with
  | hello _ | initiate _ _ | welcomed _ _ | readyTaken _ _ _ | rejected _ _ => simp
  | unwritable hphase _ => simp [hphase]
  | idle hhello _ => exact hhello
  | refused _ => simpa using h
  | traffic hcall => rcases hcall with rfl | rfl <;> simpa using h

/-- Where clients that differ in their credentials are after calls: they still differ in nothing
else, and HELLO is out if a command was called for. -/
theorem exists_after_withCredentials (c : PlainClient) (own : Credentials) (calls : List Call) :
    ∃ d : PlainClient, d.credentials = c.credentials ∧
      (.plain c : Mechanism σ).after calls = .plain d ∧
      (.plain (c.withCredentials own) : Mechanism σ).after calls = .plain (d.withCredentials own) ∧
      (.next ∈ calls → d.phase ≠ .sendingHello) := by
  induction calls using List.reverseRecOn with
  | nil => exact ⟨c, rfl, rfl, rfl, by simp⟩
  | append_singleton calls call ih =>
    obtain ⟨d, hown, hafter, hother, hsent⟩ := ih
    have hs := step_follows d call
    refine ⟨(d.step call).2, hs.own_eq.2.trans hown, ?_, ?_, ?_⟩
    · rw [Mechanism.after_concat, hafter, mechanism_step]
    · rw [Mechanism.after_concat, hother, mechanism_step]
      by_cases hhello : call = .next ∧ d.phase = .sendingHello
      · obtain ⟨rfl, hphase⟩ := hhello
        have hphase' : (d.withCredentials own).phase = .sendingHello := hphase
        rw [step_hello hphase, step_hello hphase']
        rfl
      · rw [step_withCredentials own hhello]
    · intro hmem
      rw [List.mem_append, List.mem_singleton] at hmem
      apply hs.phase_ne_sendingHello
      rcases hmem with hmem | rfl
      · exact .inr (hsent hmem)
      · exact .inl rfl

/-- Clients that differ in their credentials give out different HELLOs at most. -/
theorem alikeButFirst_withCredentials (c : PlainClient) (own : Credentials) :
    Mechanism.AlikeButFirst (.plain c : Mechanism σ) (.plain (c.withCredentials own)) c.hello
      (c.withCredentials own).hello := by
  constructor
  case answer_eq =>
    intro calls call
    obtain ⟨d, hown, hafter, hother, hsent⟩ := exists_after_withCredentials (σ := σ) c own calls
    rw [hafter, hother, mechanism_step, mechanism_step]
    by_cases hhello : call = .next ∧ d.phase = .sendingHello
    · obtain ⟨rfl, hphase⟩ := hhello
      have hphase' : (d.withCredentials own).phase = .sendingHello := hphase
      rw [step_hello hphase, step_hello hphase', hello, hello, hello, hello, hown]
      exact .inr ⟨rfl, fun hmem => hsent hmem hphase, rfl, rfl⟩
    · rw [step_withCredentials own hhello]
      exact .inl rfl
  case status_eq =>
    intro calls
    obtain ⟨d, -, hafter, hother, -⟩ := exists_after_withCredentials (σ := σ) c own calls
    rw [hafter, hother]
    rfl
  case peer_eq =>
    intro calls
    obtain ⟨d, -, hafter, hother, -⟩ := exists_after_withCredentials (σ := σ) c own calls
    rw [hafter, hother]
    rfl

end PlainClient

/-! ## GSSAPI clients -/

/-- Two attempts to make a GSSAPI client end alike: they are refused for the same reason, or make
clients that answer and show the same and ask the same of their context. -/
def Gssapi.Client.EndAlike {σ : Type} (made made' : Except Fault (Client σ)) : Prop :=
  (∃ fault, made = .error fault ∧ made' = .error fault) ∨
    ∃ c c', made = .ok c ∧ made' = .ok c' ∧ Mechanism.Alike (.gssapi c) (.gssapi c') ∧
      ∀ calls, c.history calls = c'.history calls

theorem Gssapi.Client.EndAlike.refl {σ : Type} (made : Except Fault (Client σ)) :
    EndAlike made made := by
  cases made with
  | error fault => exact .inl ⟨fault, rfl, rfl⟩
  | ok c => exact .inr ⟨c, c, rfl, rfl, .refl _, fun _ => rfl⟩

/-! ## All mechanisms -/

/-- Options that differ at most in the PLAIN credentials. -/
def SecurityOptions.SameButCredentials (a b : SecurityOptions) : Prop :=
  b = { a with plain := b.plain }

/-- Mechanisms that are made of options which differ in the PLAIN credentials only cannot be told
apart but by the HELLO of PLAIN. -/
theorem credentials_secret {σ : Type} {a b : SecurityOptions} (h : a.SameButCredentials b)
    (ha : a.plain.Fits) (hb : b.plain.Fits) :
    (∃ c c', PlainClient.start a = .ok c ∧ PlainClient.start b = .ok c' ∧
      Mechanism.AlikeButFirst (.plain c : Mechanism σ) (.plain c') a.hello b.hello) ∧
    Mechanism.Alike (.null (.start a) : Mechanism σ) (.null (.start b)) ∧
    ∀ (context : Gssapi.SecurityContext σ) (session : σ),
      Gssapi.Client.EndAlike (Gssapi.Client.start a context session)
          (Gssapi.Client.start b context session) ∧
        ∀ peer, Gssapi.Client.EndAlike (Gssapi.Client.forPeer a peer context session)
          (Gssapi.Client.forPeer b peer context session) := by
  refine ⟨?_, ?_, ?_⟩
  · refine ⟨_, _, PlainClient.start_eq_ok_iff.2 ⟨ha, rfl⟩,
      PlainClient.start_eq_ok_iff.2 ⟨hb, rfl⟩, ?_⟩
    rw [h]
    exact PlainClient.alikeButFirst_withCredentials ⟨.ofOptions a, a.plain, .sendingHello⟩ b.plain
  · rw [h]
    exact .refl _
  · intro context session
    rw [h]
    exact ⟨.refl _, fun peer => .refl _⟩

/-- With another password the HELLO of a login is another one. All else is answered alike, and both
logins get ready. -/
theorem credentials_secret_login :
    let other : SecurityOptions := { loginOptions with plain := ⟨"user", "guess"⟩ }
    loginOptions.SameButCredentials other ∧ loginOptions.plain.Fits ∧ other.plain.Fits ∧
      ∃ c c', PlainClient.start loginOptions = .ok c ∧ PlainClient.start other = .ok c' ∧
        Mechanism.AlikeButFirst (.plain c : Mechanism Unit) (.plain c') loginOptions.hello
          other.hello ∧
        loginOptions.hello ≠ other.hello ∧
        ((.plain c : Mechanism Unit).after loginCalls).status = .ready ∧
        ((.plain c' : Mechanism Unit).after loginCalls).status = .ready := by
  intro other
  have hfits : loginOptions.plain.Fits := ⟨by decide, by decide⟩
  have hother : other.plain.Fits := ⟨by decide, by decide⟩
  obtain ⟨⟨c, c', hc, hc', halike⟩, -, -⟩ := credentials_secret (σ := Unit)
    (show loginOptions.SameButCredentials other from rfl) hfits hother
  have hready : ((.plain c : Mechanism Unit).after loginCalls).status = .ready := by
    obtain ⟨-, rfl⟩ := PlainClient.start_eq_ok_iff.1 hc
    decide +kernel
  refine ⟨rfl, hfits, hother, c, c', hc, hc', halike, by decide, hready, ?_⟩
  rw [← halike.status_eq]
  exact hready

end PeerLink
