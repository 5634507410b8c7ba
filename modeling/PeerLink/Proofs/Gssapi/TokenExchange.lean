import PeerLink.Proofs.Gssapi.Ledger
import PeerLink.Proofs.Gssapi.Reachable
import PeerLink.Proofs.Metadata.Blocks

/-!
# The token exchange

`Client.exchange` is the ledger of a run: what the client took in, what it called the context with,
and what it sent. One call takes the exchange from the stage of the client before it to the stage
after it (`Client.Step.path`), so the whole run does (`Client.Settled.exchange_path`), and the
exchange loses, repeats and reorders nothing (`Client.exchange_orderly`).
-/

set_option autoImplicit false

namespace PeerLink.Gssapi

open Mechanism (Call Answer)

/-- The call of the context for a token that a recorded call is, if it is one. -/
def Event.ofContextCall : ContextCall → Option Event
  | .init request answer => some (.asked request.inputToken answer)
  | .wrap _ _ _ | .unwrap _ _ => none

/-- The input and the answer of a recorded call for a token. -/
def tokenCall? : ContextCall → Option (Option Bytes × InitAnswer)
  | .init request answer => some (request.inputToken, answer)
  | .wrap _ _ _ | .unwrap _ _ => none

namespace Client

variable {σ : Type} {c c' : Client σ} {call : Call} {answer : Answer} {made : List ContextCall}
  {f : Frame} {token : Bytes}

/-! ## The ledger of a run -/

/-- What a call takes in: the token of an INITIATE command, where one is awaited. -/
def taken (c : Client σ) : Call → Ledger
  | .process f =>
      if c.failed = false ∧ c.phase = .recvNextToken then
        match readToken? Command.initiate f with
        | some token => [.received token]
        | none => []
      else []
  | .next | .encode _ | .decode _ => []

/-- What a call sends: a token in an INITIATE command, or another command. -/
def sent : Call → Answer → Ledger
  | .next, .frame f =>
      match readToken? Command.initiate f with
      | some token => [.handed token]
      | none => [.announced f]
  | _, _ => []

/-- What a call adds to the ledger, given its answer and the primitives it called. -/
def entries (c : Client σ) (call : Call) (answer : Answer) (made : List ContextCall) : Ledger :=
  c.taken call ++ made.filterMap Event.ofContextCall ++ sent call answer

/-- The ledger of calls in order. -/
def exchange (c : Client σ) : List Call → Ledger
  | [] => []
  | call :: calls =>
      c.entries call (c.step call).1 (c.consulted call) ++ (c.step call).2.exchange calls

/-- The commands that READY may be sent as: bare, or protected where that is asked for. -/
def IsReady (c : Client σ) (f : Frame) : Prop :=
  ∃ ready, c.announcement.command Command.ready = .ok ready ∧
    if c.encrypting then
      ∃ state next token, c.context.wrap (plaintextOf ready) true state = (.ok token, next) ∧
        f = .ofParts (framed Command.message token) ready.flags
    else f = ready

/-- The stage of the exchange at a client. -/
def stage (c : Client σ) : Ledger.Stage :=
  if c.failed then .failed
  else
    match c.phase, c.pending with
    | .callNextInit, none => .fresh
    | .callNextInit, some (.outbound token) => .hand token c.established
    | .callNextInit, some (.inbound token) => .ask token
    | .recvNextToken, _ => .await
    | .sendReady, _ => .announce
    | .recvReady, _ | .connected, _ => .done

/-! ## What is sent -/

theorem readToken?_initiate_framed (hlen : token.length < Bytes.wordLimit) :
    readToken? Command.initiate (.ofCommand (framed Command.initiate token)) = some token :=
  readToken?_framed hlen false true

/-- READY is not taken for an INITIATE command. -/
theorem IsReady.readToken?_eq_none (h : c.IsReady f) : readToken? Command.initiate f = none := by
  obtain ⟨ready, hcmd, hf⟩ := h
  have hready := (Announcement.command_eq_ok_iff.1 hcmd).2
  refine Option.eq_none_iff_forall_ne_some.2 fun token htoken => ?_
  have hdata := (readToken?_eq_some_iff.1 htoken).1
  -- the commands differ in their first byte
  split at hf
  · obtain ⟨state, next, wrapped, -, rfl⟩ := hf
    simp [Frame.ofParts, framed, Command.message, Command.initiate] at hdata
  · subst hf hready
    simp [Frame.ofCommand, framed, Command.ready, Command.initiate] at hdata

theorem Fixed.isReady (h : Fixed c c') : c'.IsReady = c.IsReady := by
  funext f
  rw [IsReady, IsReady, h.announcement, h.context, h.encrypting]

/-! ## One call -/

theorem stage_of_failed (hf : c.failed = true) : c.stage = .failed := if_pos hf

theorem Settled.stage_ne_ask (h : Settled c) (token : Bytes) : c.stage ≠ .ask token := by
  rw [stage]
  split
  · simp
  · split
    · simp
    · simp
    · next hphase hp =>
      obtain ⟨-, sent, hsent, -⟩ := h.slot _ hp
      cases hsent
    all_goals simp

/-- Protection and recovery do not call the context for a token. -/
theorem Transforms.filterMap_eq_nil {context : SecurityContext σ} {state next : σ}
    {result : Except Fault Frame} (h : Transforms context call state result made next) :
    made.filterMap Event.ofContextCall = [] := by
  cases h <;> rfl

theorem Reads.filterMap_eq_nil {result : Except Fault Frame} {session : σ}
    (h : Reads c f result made session) : made.filterMap Event.ofContextCall = [] := by
  cases h with
  | bare _ | unprotected _ _ => rfl
  | recovered _ _ ht => exact ht.filterMap_eq_nil

theorem taken_of_token (hf : c.failed = false) (hphase : c.phase = .recvNextToken)
    (hr : readToken? Command.initiate f = some token) :
    c.taken (.process f) = [.received token] := by
  rw [taken, if_pos ⟨hf, hphase⟩, hr]

theorem taken_of_no_token (hr : readToken? Command.initiate f = none) :
    c.taken (.process f) = [] := by
  simp [taken, hr]

theorem taken_of_phase (hphase : c.phase ≠ .recvNextToken) : c.taken (.process f) = [] := by
  simp [taken, hphase]

/-- A refused command is not taken for a token. -/
theorem Refuses.taken_eq_nil {fault : Fault} (h : Refuses c f fault) :
    c.taken (.process f) = [] := by
  cases h with
  | outOfTurn hphase _ => exact taken_of_phase hphase
  | misframed _ _ _ hr => exact taken_of_no_token hr
  | rejected _ herr =>
    refine taken_of_no_token (Option.eq_none_iff_forall_ne_some.2 fun token hr => ?_)
    have hother := isNamed_error_of_isNamed_initiate (isNamed_of_readToken? hr)
    cases herr.symm.trans hother
  | otherCommand _ _ hother =>
    refine taken_of_no_token (Option.eq_none_iff_forall_ne_some.2 fun token hr => ?_)
    cases hother.symm.trans (isNamed_of_readToken? hr)

/-- A token that is due comes from the slot or from the context. -/
theorem Loaded.path_hand (hl : Loaded c made c') (h : Settled c) (hf : c.failed = false)
    (hphase : c.phase = .callNextInit) (hp : c'.pending = some (.outbound token)) :
    Ledger.Path c.IsReady c.stage (made.filterMap Event.ofContextCall)
      (.hand token c'.established) := by
  cases hl with
  | held _ =>
    have hstage : c.stage = .hand token c.established := by simp [stage, hf, hphase, hp]
    rw [hstage]
    exact .done _
  | @fetched answer session hslot _ hr =>
    have hstage : c.stage = .fresh := by simp [stage, hf, hphase, hslot]
    obtain ⟨sent, hsent, heq⟩ := Option.map_eq_some_iff.1 hp
    cases heq
    have hlast : (c.answered answer session).established = answer.completes := by
      simp [answered, h.fresh hf hphase hslot]
    rw [hstage, hlast, ← Ledger.Stage.afterAnswer_of_token? hsent]
    exact .cons (.first answer) (.done _)

/-- Without a token the context is established. -/
theorem Loaded.path_announce (hl : Loaded c made c') (hf : c.failed = false)
    (hphase : c.phase = .callNextInit) (hp : c'.pending = none) :
    Ledger.Path c.IsReady c.stage (made.filterMap Event.ofContextCall) .announce := by
  cases hl with
  | held hslot => cases hslot.symm.trans hp
  | @fetched answer session hslot _ hr =>
    have hstage : c.stage = .fresh := by simp [stage, hf, hphase, hslot]
    rw [hstage, ← Ledger.Stage.afterAnswer_of_token?_eq_none hr (Option.map_eq_none_iff.1 hp)]
    exact .cons (.first answer) (.done _)

theorem Announces.path (ha : Announces c answer made c') (hf : c.failed = false) :
    Ledger.Path c.IsReady .announce (made.filterMap Event.ofContextCall ++ sent .next answer)
      c'.stage := by
  have hsends : ∀ {f : Frame}, c.IsReady f →
      Ledger.Path c.IsReady .announce (sent .next (.frame f)) .done := by
    intro f hready
    rw [sent, hready.readToken?_eq_none]
    exact .cons (.announced hready) (.done _)
  cases ha with
  | unwritable _ => exact .stop (by simp)
  | bare hcmd henc =>
    have hstage : { c with phase := .recvReady }.stage = .done := by simp [stage, hf]
    rw [hstage]
    exact hsends ⟨_, hcmd, by simp [henc]⟩
  | @wrapped ready out made session hcmd henc ht =>
    have hstage : { c with session := session, phase := .recvReady }.stage = .done := by
      simp [stage, hf]
    rw [hstage, ht.filterMap_eq_nil, List.nil_append]
    refine hsends ⟨ready, hcmd, ?_⟩
    rw [if_pos henc]
    generalize hresult : (Except.ok out : Except Fault Frame) = result at ht
    cases ht with
    | protect hwrap =>
      obtain ⟨token, rfl, -, rfl⟩ := sealed_eq_ok_iff.1 hresult.symm
      exact ⟨_, _, token, hwrap, rfl⟩
  | unwrappable _ _ ht =>
    rw [ht.filterMap_eq_nil]
    exact .stop (by simp)

/-- One call takes the exchange from the stage of the client to that of the client after it. -/
theorem Step.path (hs : Step c call answer made c') (h : Settled c) :
    Ledger.Path c.IsReady c.stage (c.entries call answer made) c'.stage := by
  have hstop : Ledger.Path c.IsReady c.stage [] .failed := .stop h.stage_ne_ask
  have hfail : c'.failed = true → c'.stage = .failed := stage_of_failed
  cases hs with
  | halted _ | waiting _ _ _ => exact .done _
  | haltedProcess hf =>
    -- a failed client takes nothing in
    have htaken : ∀ f, c.taken (.process f) = [] := fun f => by simp [taken, hf]
    rw [entries, htaken]
    exact .done _
  | notReady hcall _ | passed hcall _ _ => rcases hcall with rfl | rfl <;> exact .done _
  | firstRefused hf hphase hslot _ _ =>
    have hstage : c.stage = .fresh := by simp [stage, hf, hphase, hslot]
    rw [hstage, hfail rfl]
    exact .cons (.first _) (.stop (Ledger.Stage.afterAnswer_ne_ask _))
  | @handed loaded _ token hf hphase hl hp hlen =>
    -- the token came into the slot by now, is sent, and is the last one or not
    have hloaded := (hl.settled h hf hphase).1
    have hsent : sent .next (.frame (.ofCommand (framed Command.initiate token))) =
        [.handed token] := by rw [sent, readToken?_initiate_framed hlen]
    have hstage : { loaded with
        pending := none
        phase := if loaded.established then .sendReady else .recvNextToken }.stage =
        if loaded.established then .announce else .await := by
      cases he : loaded.established <;> simp [stage, hloaded]
    rw [entries, hsent, hstage]
    exact (hl.path_hand h hf hphase hp).append (.cons (.handed token _) (.done _))
  | oversized hf hphase hl hp _ =>
    rw [hfail rfl]
    exact (hl.path_hand h hf hphase hp).append (.stop (by simp))
  | clash _ _ hp =>
    -- between calls the slot holds no input
    obtain ⟨-, sent, hsent, -⟩ := h.slot _ hp
    cases hsent
  | @finished loaded last made more answer hf hphase hl hp ha =>
    -- the context is asked and READY is sent in one call
    have hready : { loaded with phase := .sendReady }.IsReady = c.IsReady := hl.fixed.isReady
    have hannounce := ha.path (hl.settled h hf hphase).1
    rw [hready] at hannounce
    have hpath := (hl.path_announce hf hphase hp).append hannounce
    rwa [← List.append_assoc, ← List.filterMap_append] at hpath
  | announced hf hphase ha =>
    have hstage : c.stage = .announce := by simp [stage, hf, hphase]
    rw [hstage]
    exact ha.path hf
  | refusedCommand _ hr =>
    rw [entries, hr.taken_eq_nil, hfail rfl]
    exact hstop
  | tokenRefused hf hphase hr _ _ =>
    have hstage : c.stage = .await := by simp [stage, hf, hphase]
    rw [entries, taken_of_token hf hphase hr, hstage, hfail rfl]
    exact .cons (.received _) (.cons (.again _ _) (.stop (Ledger.Stage.afterAnswer_ne_ask _)))
  | @tokenTaken f token answer session hf hphase hr _ hrefusal =>
    -- the answer decides whether a token or READY is due
    have hstage : c.stage = .await := by simp [stage, hf, hphase]
    have hnext : { c.answered answer session with
        phase := if answer.token?.isSome then .callNextInit else .sendReady }.stage =
        .afterAnswer answer := by
      cases ht : answer.token? with
      | none =>
        rw [Ledger.Stage.afterAnswer_of_token?_eq_none hrefusal ht]
        simp [stage, answered, hf]
      | some sent =>
        rw [Ledger.Stage.afterAnswer_of_token? ht]
        simp [stage, answered, hf, ht, h.awaiting hphase]
    rw [entries, taken_of_token hf hphase hr, hstage, hnext]
    exact .cons (.received _) (.cons (.again _ _) (.done _))
  | readyUnreadable _ hphase _ hr | readyRefused _ hphase _ hr _ =>
    rw [entries, taken_of_phase (by simp [hphase]), hr.filterMap_eq_nil, hfail rfl]
    exact hstop
  | @readyTaken f ready peer made session hf hphase _ hr _ =>
    have hstage : c.stage = .done := by simp [stage, hf, hphase]
    have hnext : { c with session := session, peer := peer, phase := .connected }.stage =
        .done := by simp [stage, hf]
    rw [entries, taken_of_phase (by simp [hphase]), hr.filterMap_eq_nil, hstage, hnext]
    exact .done _
  | @transformed call result made session _ _ ht =>
    -- traffic leaves the ledger as it is
    have hentries : c.entries call (.ofFrame result) made = [] := by
      rw [entries, ht.filterMap_eq_nil]
      cases ht <;> rfl
    rw [hentries]
    cases result with
    | ok f => exact .done _
    | error fault =>
      rw [hfail rfl]
      exact hstop

/-! ## Runs -/

/-- A run takes the exchange from the stage of the client to that of the client after it. -/
theorem Settled.exchange_path (h : Settled c) (calls : List Call) :
    Ledger.Path c.IsReady c.stage (c.exchange calls) (c.after calls).stage := by
  induction calls generalizing c with
  | nil => exact .done _
  | cons call calls ih =>
    have hs := step_consulted c call
    have hrest := ih (hs.settled h)
    rw [hs.fixed.isReady] at hrest
    exact (hs.path h).append hrest

theorem Built.stage_eq {options : SecurityOptions} {context : SecurityContext σ} {session : σ}
    (h : Built options context session c) : c.stage = .fresh := by
  obtain ⟨serviceName, mechanisms, rfl⟩ := h.eq_initial
  rfl

/-- Between calls no input is owed. -/
theorem Settled.owed_eq_nil (h : Settled c) : c.stage.owed = [] := by
  cases hstage : c.stage with
  | ask token => exact absurd hstage (h.stage_ne_ask token)
  | _ => rfl

/-- A token that is due is in the slot. -/
theorem pending_of_due (hdue : c.stage.due = [token]) : c.pending = some (.outbound token) := by
  rw [stage] at hdue
  split at hdue
  · cases hdue
  · split at hdue
    · cases hdue
    · next hp =>
      cases hdue
      exact hp
    all_goals cases hdue

theorem due_eq_nil_or (s : Ledger.Stage) : s.due = [] ∨ ∃ token, s.due = [token] := by
  cases s with
  | hand token _ => exact .inr ⟨token, rfl⟩
  | _ => exact .inl rfl

theorem failed_of_stage (h : c.stage = .failed) : c.failed = true := by
  by_cases hf : c.failed = true
  · exact hf
  · rw [stage, if_neg hf] at h
    split at h <;> cases h

/-- The calls for a token in the ledger are those that the recording keeps. -/
theorem asked_exchange (c : Client σ) (calls : List Call) :
    (c.exchange calls).asked = (c.history calls).filterMap tokenCall? := by
  induction calls generalizing c with
  | nil => rfl
  | cons call calls ih =>
    have htaken : (c.taken call).asked = [] := by
      cases call with
      | process f =>
        cases hr : readToken? Command.initiate f with
        | none =>
          rw [taken_of_no_token hr]
          rfl
        | some token =>
          rw [taken, hr]
          split <;> rfl
      | next | encode f | decode f => rfl
    have hsent : (sent call (c.step call).1).asked = [] := by
      unfold sent
      split
      · split <;> rfl
      · rfl
    have hmade : Ledger.asked ((c.consulted call).filterMap Event.ofContextCall) =
        (c.consulted call).filterMap tokenCall? := by
      rw [Ledger.asked, List.filterMap_filterMap]
      congr 1
      funext made
      cases made <;> rfl
    rw [exchange, entries, Ledger.asked_append, Ledger.asked_append, Ledger.asked_append, htaken,
      hsent, hmade, ih, history_cons, List.filterMap_append, List.nil_append, List.append_nil]

/-- The token exchange loses, repeats and reorders nothing, whatever the context answers and
whatever is received: its ledger is orderly, and what the context produced has been sent but for
the last token, which is pending or was dropped by a failure. -/
theorem exchange_orderly {options : SecurityOptions} {context : SecurityContext σ} {session : σ}
    (h : Built options context session c) (calls : List Call) :
    (c.exchange calls).Orderly c.IsReady ∧
      ((c.exchange calls).outputs = (c.exchange calls).handed ∨
        ∃ token, (c.exchange calls).outputs = (c.exchange calls).handed ++ [token] ∧
          ((c.after calls).pending = some (.outbound token) ∨ (c.after calls).failed = true)) := by
  have hpath := h.settled.exchange_path calls
  have hafter := h.settled.after calls
  rw [h.stage_eq] at hpath
  refine ⟨hpath.orderly hafter.owed_eq_nil, ?_⟩
  obtain ⟨rest, heq, hrest⟩ := hpath.outputs_eq
  change (c.exchange calls).outputs = _ at heq
  rcases hrest with hrest | ⟨hfailed, token, hrest⟩
  · -- what is due is in the slot
    rcases due_eq_nil_or (c.after calls).stage with hdue | ⟨token, hdue⟩
    · exact .inl (by rw [heq, hrest, hdue, List.append_nil])
    · exact .inr ⟨token, by rw [heq, hrest, hdue], .inl (pending_of_due hdue)⟩
  · -- a failure dropped the last token
    exact .inr ⟨token, by rw [heq, hrest], .inr (failed_of_stage hfailed)⟩

theorem exchange_orderly_two_rounds :
    let c := sample false [.ok (.continueNeeded [1]), .ok (.complete [2])]
    let calls := [.next, .process (.ofCommand (framed Command.initiate [7])), .next, .next]
    ((c.exchange calls).Orderly c.IsReady ∧
      ((c.exchange calls).outputs = (c.exchange calls).handed ∨
        ∃ token, (c.exchange calls).outputs = (c.exchange calls).handed ++ [token] ∧
          ((c.after calls).pending = some (.outbound token) ∨ (c.after calls).failed = true))) ∧
      (c.exchange calls).inputs = [none, some [7]] ∧ (c.exchange calls).handed = [[1], [2]] ∧
      (c.exchange calls).announced.length = 1 :=
  ⟨exchange_orderly (built_sample _ _) _, rfl, rfl, rfl⟩

end Client

end PeerLink.Gssapi
