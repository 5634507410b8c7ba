import Mathlib.Data.List.Induction
import PeerLink.Proofs.Mechanism.Peer
import PeerLink.Proofs.Mechanism.Runs

/-!
# The peer is set once

What a mechanism knows of its peer after calls is nothing or the block of the one READY that was
taken (`Mechanism.Knows`); one call keeps it so (`Mechanism.Knows.concat`), hence any calls do
(`Mechanism.Made.informed`), whatever is received and whatever the security context answers. From this
follows what a mechanism tells of its peer (`Mechanism.peer_set_once`).
-/

set_option autoImplicit false

namespace PeerLink

open Mechanism (Call Answer)

namespace Mechanism

variable {σ : Type} {options : SecurityOptions} {m : Mechanism σ} {calls : List Call} {call : Call}

/-- A mechanism as the library makes it. -/
inductive Made (options : SecurityOptions) : Mechanism σ → Prop
  | null : Made options (.null (.start options))
  | plain {c : PlainClient} : PlainClient.start options = .ok c → Made options (.plain c)
  | gssapi {context : Gssapi.SecurityContext σ} {session : σ} {c : Gssapi.Client σ} :
      Gssapi.Client.Built options context session c → Made options (.gssapi c)

/-- What the options select is made by the library. -/
theorem made_of_ofOptions {options : SecurityOptions}
    {context : Option (Gssapi.SecurityContext σ × σ)} {m : Mechanism σ}
    (h : ofOptions options context = .ok m) : Made options m := by
  unfold ofOptions at h
  split at h
  · cases h
    exact .null
  · cases hstart : PlainClient.start options with
    | error fault =>
      rw [hstart] at h
      cases h
    | ok c =>
      rw [hstart] at h
      cases h
      exact .plain hstart
  · split at h
    · cases h
    · next own session =>
      cases hstart : Gssapi.Client.start options own session with
      | error fault =>
        rw [hstart] at h
        cases h
      | ok c =>
        rw [hstart] at h
        cases h
        exact .gssapi (.start hstart)

/-! ## What is known after calls -/

/-- A READY with this block has been taken. -/
def ReadyTaken (m : Mechanism σ) (block : Bytes) : List Call → Prop :=
  Occurs fun before call => (m.after before).TakesReady call block

/-- What a mechanism tells of its peer is what it knows, and nothing before that. -/
def Tells (m : Mechanism σ) : Prop := m.peerProperties = m.peer?.getD .empty

theorem tells_null (h : NullHandshake) : (Mechanism.null h : Mechanism σ).Tells := by
  rw [Tells, peerProperties, peer?, NullHandshake.peerProperties]
  cases h.reply <;> rfl

theorem tells_plain (c : PlainClient) : (Mechanism.plain c : Mechanism σ).Tells := by
  rw [Tells, peerProperties, peer?, PlainClient.peerProperties]
  cases c.phase <;> rfl

theorem tells_gssapi_iff {c : Gssapi.Client σ} :
    (Mechanism.gssapi c).Tells ↔ (c.phase ≠ .connected → c.peer = .empty) := by
  rw [Tells, peerProperties, peer?]
  by_cases hphase : c.phase = .connected <;> simp [hphase]

theorem Tells.step (h : m.Tells) (call : Call) : (m.step call).2.Tells := by
  cases m with
  | null own =>
    rw [NullHandshake.mechanism_step]
    exact tells_null _
  | plain c =>
    rw [PlainClient.mechanism_step]
    exact tells_plain _
  | gssapi c =>
    rw [Gssapi.Client.mechanism_step]
    rw [tells_gssapi_iff] at h ⊢
    exact (Gssapi.Client.step_consulted c call).peer_eq_empty h

/-- A mechanism that is made announces its options and knows nothing of its peer. -/
theorem Made.start (h : Made options m) :
    m.announcement = .ofOptions options ∧ m.peer? = none ∧ m.Tells := by
  cases h with
  | null => exact ⟨rfl, rfl, tells_null _⟩
  | @plain c hstart =>
    rw [PlainClient.start] at hstart
    split at hstart
    · cases hstart
      exact ⟨rfl, rfl, tells_plain _⟩
    · cases hstart
  | gssapi hbuilt =>
    obtain ⟨serviceName, mechanisms, rfl⟩ := hbuilt.eq_initial
    exact ⟨rfl, rfl, rfl⟩

/-- What is known of the peer after calls: nothing if no READY has been taken, otherwise the block of
the READY that was. -/
inductive Knows (own : Announcement) (m : Mechanism σ) (calls : List Call) : Prop
  | nothing : (m.after calls).peer? = none → (∀ block, ¬ m.ReadyTaken block calls) →
      Knows own m calls
  | block {block : Bytes} {peer : Properties} : (m.after calls).peer? = some peer →
      own.accept block = .ok peer → (∀ other, m.ReadyTaken other calls ↔ other = block) →
      Knows own m calls

/-- Where a mechanism is after calls. -/
structure Informed (own : Announcement) (m : Mechanism σ) (calls : List Call) : Prop where
  announcement_eq : (m.after calls).announcement = own
  tells : (m.after calls).Tells
  knows : Knows own m calls

theorem readyTaken_concat {block : Bytes} : m.ReadyTaken block (calls ++ [call]) ↔
    m.ReadyTaken block calls ∨ (m.after calls).TakesReady call block :=
  occurs_concat

theorem Knows.concat {own : Announcement} (h : Knows own m calls)
    (hown : (m.after calls).announcement = own) (call : Call) : Knows own m (calls ++ [call]) := by
  have hlearns := (m.after calls).learns call
  rw [← after_concat] at hlearns
  cases hlearns with
  | kept hnot hpeer =>
    have hsame : ∀ block, m.ReadyTaken block (calls ++ [call]) ↔ m.ReadyTaken block calls := by
      intro block
      rw [readyTaken_concat]
      exact or_iff_left (hnot block)
    cases h with
    | nothing hnone hunread =>
      refine .nothing (hpeer.trans hnone) fun block => ?_
      rw [hsame]
      exact hunread block
    | block hsome haccept htaken =>
      refine .block (hpeer.trans hsome) haccept fun other => ?_
      rw [hsame, htaken]
  | @told block peer htakes hnone haccept hsome =>
    rw [hown] at haccept
    cases h with
    | nothing _ hunread =>
      refine .block hsome haccept fun other => ?_
      rw [readyTaken_concat, or_iff_right (hunread other)]
      exact ⟨htakes.unique, fun heq => heq ▸ htakes⟩
    | block hknown _ _ => cases hnone.symm.trans hknown

/-- Every mechanism that is made knows the block of the READY that it has taken, and nothing else. -/
theorem Made.informed (h : Made options m) (calls : List Call) :
    Informed (.ofOptions options) m calls := by
  obtain ⟨hown, hnone, htells⟩ := h.start
  induction calls using List.reverseRecOn with
  | nil => exact ⟨hown, htells, .nothing hnone fun _ => not_occurs_nil⟩
  | append_singleton calls call ih =>
    constructor
    · rw [after_concat, announcement_step]
      exact ih.announcement_eq
    · rw [after_concat]
      exact ih.tells.step call
    · exact ih.knows.concat ih.announcement_eq call

/-! ## The peer is set once -/

/-- A mechanism that is ready knows its peer. -/
theorem exists_peer?_of_ready (h : m.status = .ready) : ∃ peer, m.peer? = some peer := by
  cases m with
  | null own =>
    rw [status, NullHandshake.status] at h
    rw [peer?]
    split at h
    · cases h
    · next peer hreply => exact ⟨peer, by rw [hreply]⟩
    · cases h
  | plain c =>
    rw [status, PlainClient.status] at h
    rw [peer?]
    split at h
    · next peer hphase => exact ⟨peer, by rw [hphase]⟩
    · cases h
    · cases h
  | gssapi c =>
    rw [status, Gssapi.Client.status] at h
    split at h
    · cases h
    · split at h
      · next hphase => exact ⟨c.peer, if_pos hphase⟩
      · cases h

/-- What a mechanism tells of its peer after calls. `own` is what it announces itself. -/
structure PeerSetOnce (own : Announcement) (m : Mechanism σ) (calls : List Call) : Prop where
  /-- Nothing is told before a READY is taken. -/
  unset : (∀ block, ¬ m.ReadyTaken block calls) → (m.after calls).peerProperties = .empty
  /-- After it, the properties are those of its block in wire order, and they suit. -/
  set : ∀ block, m.ReadyTaken block calls →
    own.Suits block (m.after calls).peerProperties.entries
  /-- No other READY is taken, -/
  once : ∀ block, m.ReadyTaken block calls → ∀ call other, ¬ (m.after calls).TakesReady call other
  /-- and no calls change the properties any more. -/
  stays : ∀ block, m.ReadyTaken block calls → ∀ more,
    (m.after (calls ++ more)).peerProperties = (m.after calls).peerProperties
  /-- A call that fails leaves them in any case. -/
  failing : ∀ call fault, ((m.after calls).step call).1 = .failed fault →
    ((m.after calls).step call).2.peerProperties = (m.after calls).peerProperties
  apart : (m.after calls).peerProperties.entries.Pairwise Properties.Apart
  /-- A mechanism is ready only with a partner. -/
  ready : (m.after calls).status = .ready → ∃ p ∈ (m.after calls).peerProperties.entries,
    Letters.sameIgnoringCase p.name Property.socketType = true ∧
      ∃ t ∈ own.socketType.partners, p.value = Utf8.encode t.name

section PeerSetOnce

variable {own : Announcement} {block : Bytes}

theorem Knows.peer?_eq_none (h : Knows own m calls) (hunread : ∀ block, ¬ m.ReadyTaken block calls) :
    (m.after calls).peer? = none := by
  cases h with
  | nothing hnone _ => exact hnone
  | block _ _ htaken => exact absurd ((htaken _).2 rfl) (hunread _)

theorem Knows.accepted (h : Knows own m calls) (htaken : m.ReadyTaken block calls) :
    ∃ peer, (m.after calls).peer? = some peer ∧ own.accept block = .ok peer := by
  cases h with
  | nothing _ hunread => exact absurd htaken (hunread block)
  | block hsome haccept hiff =>
    obtain rfl := (hiff block).1 htaken
    exact ⟨_, hsome, haccept⟩

/-- Once a READY has been taken, what is told is what its block says. -/
theorem Informed.accept_eq (h : Informed own m calls) (htaken : m.ReadyTaken block calls) :
    own.accept block = .ok (m.after calls).peerProperties := by
  obtain ⟨peer, hsome, haccept⟩ := h.knows.accepted htaken
  rw [h.tells, hsome]
  exact haccept

end PeerSetOnce

/-- Every mechanism that the library makes sets what it tells of its peer once, with the block of a
READY that suits, whatever is called and received and whatever the security context answers. -/
theorem peer_set_once (h : Made options m) (calls : List Call) :
    PeerSetOnce (.ofOptions options) m calls where
  unset hunread := by
    have hinformed := h.informed calls
    rw [hinformed.tells, hinformed.knows.peer?_eq_none hunread]
    rfl
  set block htaken := Announcement.suits_of_accept ((h.informed calls).accept_eq htaken)
  once block htaken call other htakes := by
    obtain ⟨peer, hsome, -⟩ := (h.informed calls).knows.accepted htaken
    cases htakes.peer?_eq_none.symm.trans hsome
  stays block htaken more := by
    have hlater := (h.informed (calls ++ more)).accept_eq (htaken.append more)
    have hnow := (h.informed calls).accept_eq htaken
    exact Except.ok.inj (hlater.symm.trans hnow)
  failing call fault hfailed := by
    have htells := (h.informed calls).tells
    rw [htells.step call, htells, peer?_step_of_failed hfailed]
  apart := (m.after calls).peerProperties.distinct
  ready hready := by
    have hinformed := h.informed calls
    obtain ⟨peer, hsome⟩ := exists_peer?_of_ready hready
    cases hinformed.knows with
    | nothing hnone _ => cases hnone.symm.trans hsome
    | block _ _ htaken =>
      exact (Announcement.suits_of_accept (hinformed.accept_eq ((htaken _).2 rfl))).partner

/-- A protected READY is taken, and traffic that cannot be recovered then ends the connection. -/
theorem peer_set_once_protected :
    let m := Mechanism.gssapi (Gssapi.Client.sample false [.ok (.complete [])])
    let calls := [Call.next, .process Gssapi.Client.sampleReady]
    let spoilt := calls ++ [Call.decode (.application [])]
    PeerSetOnce (.ofOptions {}) m spoilt ∧ (m.after calls).status = .ready ∧
      (m.after spoilt).status = .error ∧ (m.after spoilt).peerProperties.entries =
        (Announcement.ofOptions { socketType := .router }).properties := by
  intro m calls spoilt
  have hmade := Made.gssapi (Gssapi.Client.built_sample false [.ok (.complete [])])
  exact ⟨peer_set_once hmade spoilt, by decide +kernel, by decide +kernel, by decide +kernel⟩

end Mechanism

end PeerLink
