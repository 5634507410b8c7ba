import PeerLink.Proofs.Gssapi.Rules

/-!
# The ledger of a token exchange

What happens to tokens is kept in the order in which it happens: tokens received, calls of the
context for a token with their answers, tokens handed out, and the announcement of READY. A ledger
that follows the stages of the exchange (`Ledger.Path`) is orderly (`Ledger.Path.orderly`): tokens
are fed in the order of their arrival, handed out in the order of their production, and READY comes
last.
-/

set_option autoImplicit false

namespace PeerLink.Gssapi

/-- What happens to the tokens of an exchange. -/
inductive Event where
  /-- An INITIATE command of the server was taken in. -/
  | received (token : Bytes)
  /-- The context was called for a token. -/
  | asked (input : Option Bytes) (answer : InitAnswer)
  /-- An INITIATE command was sent. -/
  | handed (token : Bytes)
  /-- Another command was sent. -/
  | announced (f : Frame)

/-- Events in order. -/
abbrev Ledger := List Event

namespace Ledger

/-- The tokens received. -/
def received (es : Ledger) : List Bytes :=
  es.filterMap fun | .received token => some token | _ => none

/-- The calls of the context, with input and answer. -/
def asked (es : Ledger) : List (Option Bytes × InitAnswer) :=
  es.filterMap fun | .asked input answer => some (input, answer) | _ => none

/-- The inputs that the context was called with. -/
def inputs (es : Ledger) : List (Option Bytes) :=
  es.filterMap fun | .asked input _ => some input | _ => none

/-- The tokens that the context produced, less the empty ones. -/
def outputs (es : Ledger) : List Bytes :=
  es.filterMap fun | .asked _ answer => answer.token? | _ => none

/-- The tokens sent. -/
def handed (es : Ledger) : List Bytes :=
  es.filterMap fun | .handed token => some token | _ => none

/-- The other commands sent. -/
def announced (es : Ledger) : List Frame :=
  es.filterMap fun | .announced f => some f | _ => none

theorem asked_append (es more : Ledger) : asked (es ++ more) = es.asked ++ more.asked :=
  List.filterMap_append ..

/-- The ledger of an exchange that loses, repeats and reorders nothing. -/
structure Orderly (ready : Frame → Prop) (es : Ledger) : Prop where
  /-- The first call has no input, the next ones have the received tokens in order. -/
  paired : (es.inputs = [] ∧ es.received = []) ∨ es.inputs = none :: es.received.map some
  /-- A call takes the token received just before it. -/
  fed : ∀ {before after : Ledger} {input : Option Bytes} {answer : InitAnswer},
    es = before ++ .asked input answer :: after →
    (input = none ∧ before = []) ∨
      ∃ token earlier, input = some token ∧ before = earlier ++ [.received token]
  /-- Whatever is produced was sent before the next call. -/
  flushed : ∀ {before after : Ledger} {input : Option Bytes} {answer : InitAnswer},
    es = before ++ .asked input answer :: after → before.handed = before.outputs
  /-- Only an answer that needs another token is followed by a call. -/
  closed : ∀ {before after : Ledger} {input : Option Bytes} {answer : InitAnswer},
    es = before ++ .asked input answer :: after →
    (∀ token, token ≠ [] → answer ≠ .ok (.continueNeeded token)) → after.inputs = []
  /-- READY is sent at most once. -/
  once : es.announced.length ≤ 1
  /-- The announcement is READY; it follows an answer that establishes the context and the last
  token, and nothing follows it. -/
  last : ∀ {before after : Ledger} {f : Frame}, es = before ++ .announced f :: after →
    ready f ∧ (∃ input token, Event.asked input (.ok (.complete token)) ∈ before) ∧
      before.handed = before.outputs ∧ after = []

/-! ## Stages -/

/-- Where an exchange stands. -/
inductive Stage where
  /-- Nothing has happened. -/
  | fresh
  /-- A received token is to be given to the context. -/
  | ask (token : Bytes)
  /-- A token is to be sent, the last one if the context is established. -/
  | hand (token : Bytes) (last : Bool)
  /-- The server owes a token. -/
  | await
  /-- READY is due. -/
  | announce
  /-- READY was sent. -/
  | done
  | failed

namespace Stage

/-- The stage that an answer of the context leads to. -/
def afterAnswer : InitAnswer → Stage
  | .error _ => failed
  | .ok (.continueNeeded token) => if token = [] then failed else hand token false
  | .ok (.complete token) => if token = [] then announce else hand token true

/-- The inputs that are still to be given to the context. -/
def owed : Stage → List (Option Bytes)
  | ask token => [some token]
  | _ => []

/-- The tokens that are still to be sent. -/
def due : Stage → List Bytes
  | hand token _ => [token]
  | _ => []

/-- Whether the context is established and the exchange goes on. -/
def established : Stage → Bool
  | hand _ last => last
  | announce | done => true
  | _ => false

/-- Whether the context is not called any more. -/
def closing : Stage → Bool
  | failed => true
  | s => s.established

@[simp] theorem owed_afterAnswer (answer : InitAnswer) : (afterAnswer answer).owed = [] := by
  rcases answer with _ | token | token
  · rfl
  · by_cases h : token = [] <;> simp [afterAnswer, owed, h]
  · by_cases h : token = [] <;> simp [afterAnswer, owed, h]

@[simp] theorem due_afterAnswer (answer : InitAnswer) :
    (afterAnswer answer).due = answer.token?.toList := by
  rcases answer with _ | token | token
  · rfl
  · by_cases h : token = [] <;> simp [afterAnswer, due, InitAnswer.token?, h]
  · by_cases h : token = [] <;> simp [afterAnswer, due, InitAnswer.token?, h]

theorem afterAnswer_of_token? {answer : InitAnswer} {token : Bytes}
    (h : answer.token? = some token) : afterAnswer answer = hand token answer.completes := by
  rcases answer with _ | sent | sent
  · cases h
  all_goals
    simp only [InitAnswer.token?, Option.ite_none_left_eq_some, Option.some.injEq] at h
    obtain ⟨hne, rfl⟩ := h
    simp [afterAnswer, hne, InitAnswer.completes]

theorem afterAnswer_of_token?_eq_none {answer : InitAnswer} (hr : answer.refusal? = none)
    (ht : answer.token? = none) : afterAnswer answer = announce := by
  have hcompletes := InitAnswer.completes_of_token?_eq_none hr ht
  rcases answer with _ | token | token
  · cases hcompletes
  · cases hcompletes
  · have hnil : token = [] := by simpa [InitAnswer.token?] using ht
    simp [afterAnswer, hnil]

theorem afterAnswer_ne_ask (answer : InitAnswer) (token : Bytes) : afterAnswer answer ≠ ask token := by
  intro h
  -- an answer leaves no input owed
  have howed := congrArg owed h
  rw [owed_afterAnswer] at howed
  cases howed

theorem afterAnswer_ne_fresh (answer : InitAnswer) : afterAnswer answer ≠ fresh := by
  rcases answer with _ | token | token
  · simp [afterAnswer]
  · by_cases h : token = [] <;> simp [afterAnswer, h]
  · by_cases h : token = [] <;> simp [afterAnswer, h]

theorem closing_afterAnswer {answer : InitAnswer}
    (h : ∀ token, token ≠ [] → answer ≠ .ok (.continueNeeded token)) :
    (afterAnswer answer).closing = true := by
  rcases answer with _ | token | token
  · rfl
  · have ht : token = [] := Decidable.byContradiction fun ht => h token ht rfl
    simp [afterAnswer, closing, ht]
  · by_cases ht : token = [] <;> simp [afterAnswer, closing, established, ht]

theorem exists_of_established_afterAnswer {answer : InitAnswer}
    (h : (afterAnswer answer).established = true) : ∃ token, answer = .ok (.complete token) := by
  rcases answer with _ | token | token
  · cases h
  · by_cases ht : token = [] <;> simp [afterAnswer, established, ht] at h
  · exact ⟨token, rfl⟩

end Stage

/-- One event leads from a stage to the next; `ready` says which commands are READY. -/
inductive Advance (ready : Frame → Prop) : Stage → Event → Stage → Prop
  | first (answer : InitAnswer) :
      Advance ready .fresh (.asked none answer) (.afterAnswer answer)
  | again (token : Bytes) (answer : InitAnswer) :
      Advance ready (.ask token) (.asked (some token) answer) (.afterAnswer answer)
  | handed (token : Bytes) (last : Bool) :
      Advance ready (.hand token last) (.handed token) (if last then .announce else .await)
  | received (token : Bytes) : Advance ready .await (.received token) (.ask token)
  | announced {f : Frame} : ready f → Advance ready .announce (.announced f) .done

/-- Events lead from a stage to another. An exchange may fail at any stage, but not between the
receipt of a token and the call of the context. -/
inductive Path (ready : Frame → Prop) : Stage → Ledger → Stage → Prop
  | done (s : Stage) : Path ready s [] s
  | stop {s : Stage} : (∀ token, s ≠ .ask token) → Path ready s [] .failed
  | cons {s mid s' : Stage} {e : Event} {es : Ledger} :
      Advance ready s e mid → Path ready mid es s' → Path ready s (e :: es) s'

/-! ## What a path says about its ledger -/

section Paths

variable {ready : Frame → Prop} {s mid s' : Stage} {e : Event} {es before after : Ledger}

theorem Path.append {more : Ledger} (h : Path ready s es mid) (h' : Path ready mid more s') :
    Path ready s (es ++ more) s' := by
  induction h with
  | done _ => exact h'
  | cons hadv _ ih => exact .cons hadv (ih h')
  | stop hs =>
    -- nothing happens after a failure
    cases h' with
    | done _ | stop _ => exact .stop hs
    | cons hadv _ => cases hadv

/-- The stages on both sides of an event. -/
theorem Path.cut (h : Path ready s (before ++ e :: after) s') :
    ∃ m m', Path ready s before m ∧ Advance ready m e m' ∧ Path ready m' after s' := by
  induction before generalizing s with
  | nil =>
    cases h with
    | cons hadv hrest => exact ⟨s, _, .done s, hadv, hrest⟩
  | cons first before ih =>
    cases h with
    | cons hadv hrest =>
      obtain ⟨m, m', hbefore, hmid, hafter⟩ := ih hrest
      exact ⟨m, m', .cons hadv hbefore, hmid, hafter⟩

theorem Advance.ne_fresh (h : Advance ready s e s') : s' ≠ .fresh := by
  cases h with
  | first answer | again _ answer => exact Stage.afterAnswer_ne_fresh answer
  | handed _ last => cases last <;> simp
  | received _ | announced _ => simp

/-- Past the first call, the inputs are the tokens received, but for those still owed. -/
theorem Path.inputs_eq (h : Path ready s es s') (hs : s ≠ .fresh) :
    s.owed ++ es.received.map some = es.inputs ++ s'.owed := by
  induction h with
  | done s => simp [received, inputs]
  | @stop s hstop =>
    -- an exchange that owes an input does not stop
    have howed : s.owed = [] := by
      cases s <;> first | rfl | exact absurd rfl (hstop _)
    rw [howed]
    rfl
  | cons hadv _ ih =>
    have ih := ih hadv.ne_fresh
    cases hadv with
    | first _ => exact absurd rfl hs
    | again token answer =>
      -- the input owed is given
      rw [Stage.owed_afterAnswer] at ih
      simpa [received, inputs, Stage.owed] using ih
    | handed token last => cases last <;> simpa [received, inputs, Stage.owed] using ih
    | received token => simpa [received, inputs, Stage.owed] using ih
    | announced _ => simpa [received, inputs, Stage.owed] using ih

/-- The tokens sent are those produced, but for one that is still due or was dropped. -/
theorem Path.outputs_eq (h : Path ready s es s') :
    ∃ rest, s.due ++ es.outputs = es.handed ++ rest ∧
      (rest = s'.due ∨ s' = .failed ∧ ∃ token, rest = [token]) := by
  induction h with
  | done s => exact ⟨s.due, by simp [outputs, handed], .inl rfl⟩
  | @stop s _ =>
    -- what was due is dropped
    refine ⟨s.due, by simp [outputs, handed], ?_⟩
    cases s with
    | hand token _ => exact .inr ⟨rfl, token, rfl⟩
    | _ => exact .inl rfl
  | cons hadv _ ih =>
    obtain ⟨rest, heq, hrest⟩ := ih
    refine ⟨rest, ?_, hrest⟩
    cases hadv with
    | first answer | again _ answer =>
      rw [Stage.due_afterAnswer] at heq
      cases ht : answer.token? <;> simpa [outputs, handed, Stage.due, ht] using heq
    | handed token last => cases last <;> simpa [outputs, handed, Stage.due] using heq
    | received token => simpa [outputs, handed, Stage.due] using heq
    | announced _ => simpa [outputs, handed, Stage.due] using heq

/-- Once the context is not called any more, it stays so. -/
theorem Path.inputs_eq_nil (h : Path ready s es s') (hs : s.closing = true) : es.inputs = [] := by
  induction h with
  | done _ | stop _ => rfl
  | cons hadv _ ih =>
    cases hadv with
    | first _ | again _ _ | received _ => cases hs
    | handed token last =>
      -- only after the last token the context is not called
      cases last with
      | false => cases hs
      | true => exact ih rfl
    | announced _ => exact ih rfl

/-- The context was established before, or an answer on the way says so. -/
theorem Path.exists_complete (h : Path ready s es s') (hs : s'.established = true) :
    s.established = true ∨ ∃ input token, Event.asked input (.ok (.complete token)) ∈ es := by
  induction h with
  | done _ => exact .inl hs
  | stop _ => cases hs
  | @cons s mid _ e es hadv _ ih =>
    rcases ih hs with hmid | ⟨input, token, hmem⟩
    · cases hadv with
      | first answer | again _ answer =>
        obtain ⟨token, rfl⟩ := Stage.exists_of_established_afterAnswer hmid
        exact .inr ⟨_, token, List.mem_cons_self⟩
      | handed token last =>
        cases last with
        | false => cases hmid
        | true => exact .inl rfl
      | received _ => cases hmid
      | announced _ => exact .inl rfl
    · exact .inr ⟨input, token, List.mem_cons_of_mem _ hmem⟩

/-- What was produced before an event that nothing is due at was sent before it. -/
theorem Path.handed_eq_outputs (h : Path ready .fresh es s') (hdue : s'.due = [])
    (hs : s' ≠ .failed) : es.handed = es.outputs := by
  obtain ⟨rest, heq, hrest | ⟨hfailed, -⟩⟩ := h.outputs_eq
  · rw [hrest, hdue, List.append_nil] at heq
    exact heq.symm
  · exact absurd hfailed hs

theorem Advance.eq_received {token : Bytes} (h : Advance ready s e (.ask token)) :
    e = .received token := by
  generalize hs' : Stage.ask token = s' at h
  cases h with
  | first answer | again _ answer => exact absurd hs'.symm (Stage.afterAnswer_ne_ask answer token)
  | handed _ last => cases last <;> cases hs'
  | received _ =>
    cases hs'
    rfl
  | announced _ => cases hs'

/-- Before a token is given to the context it was received, and nothing came in between. -/
theorem Path.exists_received {token : Bytes} (h : Path ready .fresh es (.ask token)) :
    ∃ earlier, es = earlier ++ [.received token] := by
  rcases List.eq_nil_or_concat es with rfl | ⟨earlier, e, rfl⟩
  · cases h
  · rw [List.concat_eq_append] at h ⊢
    obtain ⟨m, m', -, hadv, hrest⟩ := h.cut
    cases hrest with
    | done _ => exact ⟨earlier, by rw [hadv.eq_received]⟩

/-- Only at the start nothing has happened. -/
theorem Path.eq_nil_of_fresh (h : Path ready s es .fresh) : es = [] := by
  rcases List.eq_nil_or_concat es with rfl | ⟨earlier, e, rfl⟩
  · rfl
  · rw [List.concat_eq_append] at h
    obtain ⟨m, m', -, hadv, hrest⟩ := h.cut
    cases hrest with
    | done _ => exact absurd rfl hadv.ne_fresh

/-- The inputs of a whole exchange are the tokens received, after a first call without one. -/
theorem Path.paired (h : Path ready .fresh es s') (hs : s'.owed = []) :
    (es.inputs = [] ∧ es.received = []) ∨ es.inputs = none :: es.received.map some := by
  cases h with
  | done _ | stop _ => exact .inl ⟨rfl, rfl⟩
  | cons hadv hrest =>
    cases hadv with
    | first answer =>
      -- past the first call every input is a token received
      have heq := hrest.inputs_eq (Stage.afterAnswer_ne_fresh answer)
      rw [Stage.owed_afterAnswer, hs, List.append_nil, List.nil_append] at heq
      exact .inr (congrArg (none :: ·) heq.symm)

/-- Nothing follows READY. -/
theorem Path.eq_nil_of_done (h : Path ready .done es s') : es = [] := by
  cases h with
  | done _ | stop _ => rfl
  | cons hadv _ => cases hadv

/-- READY is sent at most once. -/
theorem Path.announced_length_le (h : Path ready s es s') : es.announced.length ≤ 1 := by
  induction h with
  | done _ | stop _ => exact Nat.zero_le 1
  | cons hadv hrest ih =>
    cases hadv with
    | first _ | again _ _ | handed _ _ | received _ => simpa [announced] using ih
    | announced _ =>
      -- this is the only one
      rw [hrest.eq_nil_of_done]
      exact Nat.le_refl 1

/-- An exchange from the start to a point between calls is orderly. -/
theorem Path.orderly (h : Path ready .fresh es s') (hs : s'.owed = []) : Orderly ready es where
  paired := h.paired hs
  fed := by
    rintro before after input answer rfl
    obtain ⟨m, m', hbefore, hadv, -⟩ := h.cut
    cases hadv with
    | first _ => exact .inl ⟨rfl, hbefore.eq_nil_of_fresh⟩
    | again token _ =>
      obtain ⟨earlier, hearlier⟩ := hbefore.exists_received
      exact .inr ⟨token, earlier, rfl, hearlier⟩
  flushed := by
    rintro before after input answer rfl
    obtain ⟨m, m', hbefore, hadv, -⟩ := h.cut
    cases hadv with
    | first _ | again _ _ => exact hbefore.handed_eq_outputs rfl (by simp)
  closed := by
    rintro before after input answer rfl hlast
    obtain ⟨m, m', -, hadv, hafter⟩ := h.cut
    cases hadv with
    | first _ | again _ _ => exact hafter.inputs_eq_nil (Stage.closing_afterAnswer hlast)
  once := h.announced_length_le
  last := by
    rintro before after f rfl
    obtain ⟨m, m', hbefore, hadv, hafter⟩ := h.cut
    cases hadv with
    | announced hready =>
      refine ⟨hready, ?_, hbefore.handed_eq_outputs rfl (by simp), hafter.eq_nil_of_done⟩
      -- the context was not established at the start
      rcases hbefore.exists_complete rfl with hfresh | hmem
      · cases hfresh
      · exact hmem

end Paths

end Ledger

end PeerLink.Gssapi
