import PeerLink.Proofs.Gssapi.Rules

/-!
# The rules are the client

Every call of a client follows a rule (`Client.exists_step`), and a rule determines the answer and
the next state (`Client.Step.eq`). The lemmas before them say the same of the parts of a call.
-/

set_option autoImplicit false

namespace PeerLink.Gssapi.Client

open Mechanism (Call Answer)

variable {σ : Type} {c c' : Client σ}

/-! ## The context is called for a token -/

section CallContext

variable {input : Option Bytes} {answer : InitAnswer} {session : σ}

theorem exists_answer (c : Client σ) (input : Option Bytes) :
    ∃ (answer : InitAnswer) (session : σ),
      c.context.init (c.request input) c.session = (answer, session) :=
  ⟨_, _, rfl⟩

/-- A call of the context does not depend on what the slot holds. -/
theorem callContext_slot (c : Client σ) (slot : Option Token) (input : Option Bytes) :
    { c with pending := slot }.callContext input = c.callContext input := rfl

theorem callContext_refused {fault : Fault}
    (h : c.context.init (c.request input) c.session = (answer, session))
    (hr : answer.refusal? = some fault) : c.callContext input = (.error fault, c.refused session) := by
  rw [callContext]
  rw [h]
  cases answer with
  | error failure =>
    cases hr
    rfl
  | ok outcome =>
    cases outcome with
    | complete token => cases hr
    | continueNeeded token =>
      -- only an empty token is refused
      simp only [InitAnswer.refusal?, Option.ite_none_right_eq_some, Option.some.injEq] at hr
      obtain ⟨rfl, rfl⟩ := hr
      rfl

theorem callContext_answered
    (h : c.context.init (c.request input) c.session = (answer, session))
    (hr : answer.refusal? = none) : c.callContext input = (.ok (), c.answered answer session) := by
  rw [callContext]
  rw [h]
  cases answer with
  | error failure => cases hr
  | ok outcome =>
    cases outcome with
    | complete token =>
      by_cases ht : token = [] <;> simp [answered, InitAnswer.token?, InitAnswer.completes, ht]
    | continueNeeded token =>
      have ht : ¬ token = [] := by simpa [InitAnswer.refusal?] using hr
      simp [answered, InitAnswer.token?, InitAnswer.completes, ht]

end CallContext

/-! ## Traffic is transformed -/

section Transforms

variable {context : SecurityContext σ} {f : Frame} {state next : σ} {result : Except Fault Frame}
  {made : List ContextCall}

theorem exists_transforms_encode (context : SecurityContext σ) (f : Frame) (state : σ) :
    ∃ made, Transforms context (.encode f) state (encodeMessage context f state).1 made
      (encodeMessage context f state).2 := by
  rcases h : context.wrap (plaintextOf f) true state with ⟨answer, next⟩
  rw [encodeMessage_eq h]
  exact ⟨_, .protect h⟩

theorem exists_transforms_decode (context : SecurityContext σ) (f : Frame) (state : σ) :
    ∃ made, Transforms context (.decode f) state (decodeMessage context f state).1 made
      (decodeMessage context f state).2 := by
  cases hf : readToken? Command.message f with
  | none =>
    rw [decodeMessage_of_misframed hf]
    exact ⟨_, .misframed hf⟩
  | some token =>
    rcases h : context.unwrap token state with ⟨answer, next⟩
    rw [decodeMessage_eq hf h]
    exact ⟨_, .recover hf h⟩

theorem Transforms.encode_eq (h : Transforms context (.encode f) state result made next) :
    encodeMessage context f state = (result, next) := by
  cases h with
  | protect h => exact encodeMessage_eq h

theorem Transforms.decode_eq (h : Transforms context (.decode f) state result made next) :
    decodeMessage context f state = (result, next) := by
  cases h with
  | misframed hf => exact decodeMessage_of_misframed hf
  | recover hf h => exact decodeMessage_eq hf h

end Transforms

/-! ## READY goes out and comes in -/

section Ready

variable {f ready : Frame} {answer : Answer} {made : List ContextCall} {session : σ}
  {result : Except Fault Frame}

theorem exists_announces (c : Client σ) :
    ∃ made, Announces c (.ofFrame? c.sendReady.1) made c.sendReady.2 := by
  rw [sendReady]
  split
  · next fault hcmd => exact ⟨[], .unwritable hcmd⟩
  · next ready hcmd =>
    split
    · next henc =>
      obtain ⟨made, ht⟩ := exists_transforms_encode c.context ready c.session
      rcases h : encodeMessage c.context ready c.session with ⟨result, session⟩
      rw [h] at ht
      cases result with
      | error fault => exact ⟨made, .unwrappable hcmd henc ht⟩
      | ok out => exact ⟨made, .wrapped hcmd henc ht⟩
    · next henc => exact ⟨[], .bare hcmd (eq_false_of_ne_true henc)⟩

theorem Announces.eq (h : Announces c answer made c') :
    (Answer.ofFrame? c.sendReady.1, c.sendReady.2) = (answer, c') := by
  rw [sendReady]
  cases h with
  | unwritable hcmd =>
    rw [hcmd]
    rfl
  | bare hcmd henc => simp [hcmd, henc, Answer.ofFrame?]
  | wrapped hcmd henc ht => simp [hcmd, henc, ht.encode_eq, Answer.ofFrame?]
  | unwrappable hcmd henc ht => simp [hcmd, henc, ht.encode_eq, Answer.ofFrame?, fail]

theorem judge_session (c : Client σ) (session : σ) (ready : Frame) :
    { c with session := session }.judge ready = c.judge ready := rfl

theorem acceptReady_eq (c : Client σ) (ready : Frame) :
    c.acceptReady ready = match c.judge ready with
      | .error fault => c.fail fault
      | .ok peer => (.ok (), { c with peer := peer, phase := .connected }) := by
  rw [acceptReady, judge]
  split
  · cases Command.checkStructure ready <;> rfl
  · rfl

/-- What a client makes of the frame that should be the server's READY. -/
theorem processReady_eq (h : Reads c f result made session) :
    c.processReady f = match result with
      | .error fault => (.error fault, { c with session := session, failed := true })
      | .ok ready => { c with session := session }.acceptReady ready := by
  rw [processReady]
  cases h with
  | bare henc =>
    rw [if_neg (ne_true_of_eq_false henc)]
  | unprotected henc hname => simp [henc, hname, unexpected, fail]
  | recovered henc hname ht =>
    rw [if_pos henc, if_pos hname, ht.decode_eq]
    cases result <;> rfl

theorem exists_reads (c : Client σ) (f : Frame) :
    ∃ result made session, Reads c f result made session := by
  by_cases henc : c.encrypting = true
  · by_cases hname : f.isNamed Command.message = true
    · obtain ⟨made, ht⟩ := exists_transforms_decode c.context f c.session
      exact ⟨_, made, _, .recovered henc hname ht⟩
    · exact ⟨_, [], _, .unprotected henc (eq_false_of_ne_true hname)⟩
  · exact ⟨_, [], _, .bare (eq_false_of_ne_true henc)⟩

end Ready

/-! ## Whole calls -/

section Calls

variable {call : Call} {answer : Answer} {made : List ContextCall} {f : Frame}

/-- With the slot looked at, the client hands out the token or goes on to READY. -/
theorem exists_step_flush (hf : c.failed = false) (hphase : c.phase = .callNextInit)
    (hl : Loaded c made c') (hin : ∀ token, c'.pending ≠ some (.inbound token)) :
    ∃ made, Step c .next (.ofFrame? c'.flush.1) made c'.flush.2 := by
  rw [flush]
  split
  · -- a token is due, and its length must fit the frame
    next token hp =>
    by_cases hlen : Bytes.wordLimit ≤ token.length
    · refine ⟨made, ?_⟩
      simp only [produceInitiate, if_pos hlen]
      have hs := Step.oversized hf hphase hl hp hlen
      exact hs
    · refine ⟨made, ?_⟩
      simp only [produceInitiate, if_neg hlen]
      exact .handed hf hphase hl hp (Nat.lt_of_not_le hlen)
  · next token hp => exact absurd hp (hin token)
  · -- the slot is empty, so READY follows at once
    next hp =>
    obtain ⟨more, ha⟩ := exists_announces { c' with phase := .sendReady }
    exact ⟨_, .finished hf hphase hl hp ha⟩

theorem exists_step_next (c : Client σ) :
    ∃ made, Step c .next (.ofFrame? c.next.1) made c.next.2 := by
  rw [next]
  split
  · next hf => exact ⟨[], .halted hf⟩
  · next hf =>
    rw [Bool.not_eq_true] at hf
    cases hphase : c.phase with
    | callNextInit =>
      dsimp only
      cases hp : c.pending with
      | some token =>
        cases token with
        | outbound t => exact exists_step_flush hf hphase (.held hp) (by simp [hp])
        | inbound t =>
          simp only [flush, hp]
          exact ⟨[], .clash hf hphase hp⟩
      | none =>
        -- the context is asked without an input
        dsimp only
        rw [advance, hp]
        dsimp only
        obtain ⟨answer, session, h⟩ := exists_answer c none
        cases hr : answer.refusal? with
        | some fault =>
          rw [callContext_refused h hr]
          exact ⟨_, .firstRefused hf hphase hp h hr⟩
        | none =>
          rw [callContext_answered h hr]
          refine exists_step_flush hf hphase (.fetched hp h hr) fun token => ?_
          cases ht : answer.token? <;> simp [answered, ht]
    | sendReady =>
      obtain ⟨made, ha⟩ := exists_announces c
      exact ⟨made, .announced hf hphase ha⟩
    | recvNextToken | recvReady | connected =>
      exact ⟨[], .waiting hf (by simp [hphase]) (by simp [hphase])⟩

theorem exists_step_token (hf : c.failed = false) (hphase : c.phase = .recvNextToken)
    (herr : f.isNamed Command.error = false) :
    ∃ made, Step c (.process f) (.ofUnit (c.processToken f).1) made (c.processToken f).2 := by
  rw [processToken]
  split
  · next hname =>
    cases hf' : readToken? Command.initiate f with
    | none =>
      simp only [processInitiate, hf']
      exact ⟨[], .refusedCommand hf (.misframed hphase herr hname hf')⟩
    | some token =>
      -- the token goes through the slot, which the context does not look at
      simp only [processInitiate, hf', advance]
      rw [callContext_slot]
      obtain ⟨answer, session, h⟩ := exists_answer c (some token)
      cases hr : answer.refusal? with
      | some fault =>
        rw [callContext_refused h hr]
        exact ⟨_, .tokenRefused hf hphase hf' h hr⟩
      | none =>
        rw [callContext_answered h hr]
        refine ⟨[.init (c.request (some token)) answer], ?_⟩
        have hs := Step.tokenTaken hf hphase hf' h hr
        simpa only [answered, Option.isSome_map, Answer.ofUnit] using hs
  · next hname =>
    exact ⟨[], .refusedCommand hf (.otherCommand hphase herr (eq_false_of_ne_true hname))⟩

theorem exists_step_ready (hf : c.failed = false) (hphase : c.phase = .recvReady)
    (herr : f.isNamed Command.error = false) :
    ∃ made, Step c (.process f) (.ofUnit (c.processReady f).1) made (c.processReady f).2 := by
  obtain ⟨result, made, session, hr⟩ := exists_reads c f
  refine ⟨made, ?_⟩
  rw [processReady_eq hr]
  cases result with
  | error fault => exact .readyUnreadable hf hphase herr hr
  | ok ready =>
    dsimp only
    rw [acceptReady_eq]
    cases hj : c.judge ready with
    | error fault =>
      rw [judge_session, hj]
      exact .readyRefused hf hphase herr hr hj
    | ok peer =>
      rw [judge_session, hj]
      exact .readyTaken hf hphase herr hr hj

theorem exists_step_process (c : Client σ) (f : Frame) :
    ∃ made, Step c (.process f) (.ofUnit (c.process f).1) made (c.process f).2 := by
  rw [process]
  split
  · next hf => exact ⟨[], .haltedProcess hf⟩
  · next hf =>
    rw [Bool.not_eq_true] at hf
    cases hphase : c.phase with
    | recvNextToken =>
      dsimp only
      split
      · next herr => exact ⟨[], .refusedCommand hf (.rejected (.inl hphase) herr)⟩
      · next herr => exact exists_step_token hf hphase (eq_false_of_ne_true herr)
    | recvReady =>
      dsimp only
      split
      · next herr => exact ⟨[], .refusedCommand hf (.rejected (.inr hphase) herr)⟩
      · next herr => exact exists_step_ready hf hphase (eq_false_of_ne_true herr)
    | callNextInit | sendReady | connected =>
      exact ⟨[], .refusedCommand hf (.outOfTurn (by simp [hphase]) (by simp [hphase]))⟩

theorem transform_eq {transformation : SecurityContext σ → Frame → σ → Except Fault Frame × σ}
    {result : Except Fault Frame} {session : σ} (hready : c.status = .ready)
    (henc : c.encrypting = true) (h : transformation c.context f c.session = (result, session)) :
    c.transform f transformation = (result, c.settled result session) := by
  rw [transform, if_pos hready, if_pos henc, h]
  cases result <;> rfl

theorem exists_step_transform {transformation : SecurityContext σ → Frame → σ →
    Except Fault Frame × σ} (hcall : call = .encode f ∨ call = .decode f)
    (ht : ∃ made, Transforms c.context call c.session (transformation c.context f c.session).1 made
      (transformation c.context f c.session).2) :
    ∃ made, Step c call (.ofFrame (c.transform f transformation).1) made
      (c.transform f transformation).2 := by
  by_cases hready : c.status = .ready
  · by_cases henc : c.encrypting = true
    · obtain ⟨made, ht⟩ := ht
      rw [transform_eq hready henc rfl]
      exact ⟨made, .transformed hready henc ht⟩
    · rw [transform, if_pos hready, if_neg henc]
      exact ⟨[], .passed hcall hready (eq_false_of_ne_true henc)⟩
  · rw [transform, if_neg hready]
    exact ⟨[], .notReady hcall hready⟩

/-- Every call follows a rule. -/
theorem exists_step (c : Client σ) (call : Call) :
    ∃ made, Step c call (c.step call).1 made (c.step call).2 := by
  cases call with
  | next => exact exists_step_next c
  | process f => exact exists_step_process c f
  | encode f => exact exists_step_transform (.inl rfl) (exists_transforms_encode ..)
  | decode f => exact exists_step_transform (.inr rfl) (exists_transforms_decode ..)

/-- A client that is to look at its slot does so once the context has been asked for a token. -/
theorem Loaded.next_eq (hl : Loaded c made c') (hf : c.failed = false)
    (hphase : c.phase = .callNextInit) : c.next = c'.flush := by
  rw [next]
  rw [if_neg (ne_true_of_eq_false hf), hphase]
  dsimp only
  cases hl with
  | held hp => rw [hp]
  | fetched hp h hr =>
    rw [hp]
    dsimp only
    rw [advance, hp]
    dsimp only
    rw [callContext_answered h hr]

/-- An empty slot means that READY is due. -/
theorem flush_of_pending_none (hp : c.pending = none) :
    c.flush = { c with phase := .sendReady }.sendReady := by
  rw [flush]
  split
  · next hslot => cases hp.symm.trans hslot
  · next hslot => cases hp.symm.trans hslot
  · rfl

theorem Refuses.eq {fault : Fault} (h : Refuses c f fault) (hf : c.failed = false) :
    c.process f = c.fail fault := by
  rw [process]
  rw [if_neg (ne_true_of_eq_false hf)]
  cases h with
  | outOfTurn h₁ h₂ =>
    -- the positions in which no command is expected
    cases hphase : c.phase with
    | recvNextToken => exact absurd hphase h₁
    | recvReady => exact absurd hphase h₂
    | callNextInit | sendReady | connected => simp only [unexpected, hphase]
  | rejected hphase herr =>
    rcases hphase with hphase | hphase <;> simp only [hphase, herr, ↓reduceIte]
  | otherCommand hphase herr hname =>
    simp only [hphase, herr, hname, processToken, Bool.false_eq_true, ↓reduceIte, unexpected]
  | misframed hphase herr hname hr =>
    simp only [hphase, herr, hname, hr, processToken, processInitiate, Bool.false_eq_true,
      ↓reduceIte]

/-- A frame that carries a token is fed to the context. -/
theorem process_token_eq {token : Bytes} (hf : c.failed = false) (hphase : c.phase = .recvNextToken)
    (hr : readToken? Command.initiate f = some token) :
    c.process f = match c.callContext (some token) with
      | (.error fault, called) => (.error fault, called)
      | (.ok (), called) =>
          (.ok (), { called with
            phase := if called.pending.isSome then .callNextInit else .sendReady }) := by
  have hname := isNamed_of_readToken? hr
  have herr := isNamed_error_of_isNamed_initiate hname
  rw [process, if_neg (ne_true_of_eq_false hf), hphase]
  dsimp only
  rw [if_neg (ne_true_of_eq_false herr), processToken, if_pos hname, processInitiate, hr]
  rfl

theorem process_ready_eq (hf : c.failed = false) (hphase : c.phase = .recvReady)
    (herr : f.isNamed Command.error = false) : c.process f = c.processReady f := by
  simp only [process, hf, hphase, herr, Bool.false_eq_true, ↓reduceIte]

/-- Traffic of a client that is ready and protects it. -/
theorem Transforms.step_eq {result : Except Fault Frame} {session : σ} (hready : c.status = .ready)
    (henc : c.encrypting = true) (ht : Transforms c.context call c.session result made session) :
    c.step call = (.ofFrame result, c.settled result session) := by
  cases ht with
  | protect h => rw [step, encode, transform_eq hready henc (encodeMessage_eq h)]
  | misframed hr => rw [step, decode, transform_eq hready henc (decodeMessage_of_misframed hr)]
  | recover hr h => rw [step, decode, transform_eq hready henc (decodeMessage_eq hr h)]

/-- A rule gives the answer of its call and the client after it. -/
theorem Step.eq (h : Step c call answer made c') : c.step call = (answer, c') := by
  cases h with
  | halted hf => simp [step, next, hf, Answer.ofFrame?]
  | haltedProcess hf => simp [step, process, hf, Answer.ofUnit]
  | notReady hcall hready =>
    rcases hcall with rfl | rfl <;> simp [step, encode, decode, transform, hready, Answer.ofFrame]
  | waiting hf h₁ h₂ =>
    -- the positions in which nothing is due
    cases hphase : c.phase with
    | callNextInit => exact absurd hphase h₁
    | sendReady => exact absurd hphase h₂
    | recvNextToken | recvReady | connected => simp [step, next, hf, hphase, Answer.ofFrame?]
  | firstRefused hf hphase hp h hr =>
    simp [step, next, hf, hphase, hp, advance, callContext_refused h hr, Answer.ofFrame?]
  | handed hf hphase hl hp hlen =>
    simp [step, hl.next_eq hf hphase, flush, hp, produceInitiate, Nat.not_le.2 hlen,
      Answer.ofFrame?]
  | oversized hf hphase hl hp hlen =>
    simp [step, hl.next_eq hf hphase, flush, hp, produceInitiate, hlen, fail, Answer.ofFrame?]
  | clash hf hphase hp =>
    simp [step, (Loaded.held hp).next_eq hf hphase, flush, hp, fail, Answer.ofFrame?]
  | finished hf hphase hl hp ha =>
    -- the slot turned out empty, so the call goes on to READY
    rw [step, hl.next_eq hf hphase, flush_of_pending_none hp]
    exact ha.eq
  | announced hf hphase ha =>
    rw [step, next, if_neg (ne_true_of_eq_false hf), hphase]
    exact ha.eq
  | refusedCommand hf hr =>
    rw [step, hr.eq hf]
    rfl
  | tokenRefused hf hphase hr h hrefusal =>
    rw [step, process_token_eq hf hphase hr, callContext_refused h hrefusal]
    rfl
  | tokenTaken hf hphase hr h hrefusal =>
    rw [step, process_token_eq hf hphase hr, callContext_answered h hrefusal]
    simp [answered, Answer.ofUnit]
  | readyUnreadable hf hphase herr hr =>
    rw [step, process_ready_eq hf hphase herr, processReady_eq hr]
    rfl
  | readyRefused hf hphase herr hr hj =>
    rw [step, process_ready_eq hf hphase herr, processReady_eq hr]
    dsimp only
    rw [acceptReady_eq, judge_session, hj]
    rfl
  | readyTaken hf hphase herr hr hj =>
    rw [step, process_ready_eq hf hphase herr, processReady_eq hr]
    dsimp only
    rw [acceptReady_eq, judge_session, hj]
    rfl
  | passed hcall hready henc =>
    rcases hcall with rfl | rfl <;>
      simp [step, encode, decode, transform, hready, henc, Answer.ofFrame]
  | transformed hready henc ht => exact ht.step_eq hready henc

end Calls

end PeerLink.Gssapi.Client
