import PeerLink.Mechanism

/-!
# Runs of a mechanism and the commands that pass

A run is read from its calls and their answers. A command passes when a call for the next command
gives it out or when it is taken in without a fault (`Mechanism.passages`). Both grow at their end
(`Mechanism.after_concat`, `Mechanism.passages_concat`), so what holds of every run is proved by
adding one call. A mechanism may be rejected by an ERROR (`Mechanism.RejectedIn`), and one that no
call changes is closed (`Mechanism.Closed`).
-/

set_option autoImplicit false

namespace PeerLink.Mechanism

variable {σ : Type}

/-- The mechanism after calls in order. -/
def after (m : Mechanism σ) (calls : List Call) : Mechanism σ := (m.run calls).2

/-- The answers of calls in order. -/
def answers (m : Mechanism σ) (calls : List Call) : List Answer := (m.run calls).1

theorem after_cons (m : Mechanism σ) (call : Call) (calls : List Call) :
    m.after (call :: calls) = (m.step call).2.after calls := rfl

theorem answers_cons (m : Mechanism σ) (call : Call) (calls : List Call) :
    m.answers (call :: calls) = (m.step call).1 :: (m.step call).2.answers calls := rfl

theorem after_append (m : Mechanism σ) (calls more : List Call) :
    m.after (calls ++ more) = (m.after calls).after more := by
  induction calls generalizing m with
  | nil => rfl
  | cons call calls ih => exact ih _

theorem after_concat (m : Mechanism σ) (calls : List Call) (call : Call) :
    m.after (calls ++ [call]) = ((m.after calls).step call).2 :=
  after_append m calls [call]

theorem answers_append (m : Mechanism σ) (calls more : List Call) :
    m.answers (calls ++ more) = m.answers calls ++ (m.after calls).answers more := by
  induction calls generalizing m with
  | nil => rfl
  | cons call calls ih =>
    rw [List.cons_append, answers_cons, ih]
    rfl

theorem length_answers (m : Mechanism σ) (calls : List Call) :
    (m.answers calls).length = calls.length := by
  induction calls generalizing m with
  | nil => rfl
  | cons call calls ih => rw [answers_cons, List.length_cons, List.length_cons, ih]

theorem name_after (m : Mechanism σ) (calls : List Call) : (m.after calls).name = m.name := by
  induction calls generalizing m with
  | nil => rfl
  | cons call calls ih =>
    rw [after_cons, ih]
    cases m <;> cases call <;> rfl

/-! ## Commands that pass -/

/-- A handshake command that passes between a mechanism and its peer. -/
inductive Passage where
  /-- The mechanism gives a command out. -/
  | sent (f : Frame)
  /-- The mechanism takes a command in. -/
  | taken (f : Frame)
  deriving DecidableEq

namespace Passage

/-- The command that passes in a call. -/
def of? : Call → Answer → Option Passage
  | .next, .frame f => some (sent f)
  | .process f, .done => some (taken f)
  | _, _ => none

/-- No command passes in a call that fails. -/
theorem of?_failed (call : Call) (fault : Fault) : of? call (.failed fault) = none := by
  cases call <;> rfl

/-- No command passes in traffic. -/
theorem of?_traffic {f : Frame} {call : Call} (hcall : call = .encode f ∨ call = .decode f)
    (answer : Answer) : of? call answer = none := by
  rcases hcall with rfl | rfl <;> rfl

/-- A call in which no command passes adds none. -/
theorem append_of?_eq_self {call : Call} {answer : Answer} (h : of? call answer = none)
    (ps : List Passage) : ps ++ (of? call answer).toList = ps := by
  rw [h, Option.toList_none, List.append_nil]

/-- The frame of a command that is given out. -/
def sent? : Passage → Option Frame
  | sent f => some f
  | taken _ => none

end Passage

/-- The commands that pass in calls of a mechanism, in order. -/
def passages (m : Mechanism σ) (calls : List Call) : List Passage :=
  (calls.zip (m.answers calls)).filterMap fun entry => Passage.of? entry.1 entry.2

theorem passages_concat (m : Mechanism σ) (calls : List Call) (call : Call) :
    m.passages (calls ++ [call]) =
      m.passages calls ++ (Passage.of? call ((m.after calls).step call).1).toList := by
  rw [passages, answers_append, List.zip_append (m.length_answers calls).symm,
    List.filterMap_append]
  rfl

/-- The frames that a mechanism gives out as commands. -/
def sent (m : Mechanism σ) (calls : List Call) : List Frame :=
  (m.passages calls).filterMap Passage.sent?

/-! ## Histories -/

section Histories

variable {m : Mechanism σ} {event : List Call → Call → Prop} {calls : List Call} {call : Call}

/-- Some call is an event of the given kind; whether it is one may depend on the calls before. -/
def Occurs (event : List Call → Call → Prop) (calls : List Call) : Prop :=
  ∃ before call more, calls = before ++ call :: more ∧ event before call

theorem not_occurs_nil : ¬ Occurs event [] := by
  rintro ⟨before, call, more, hcalls, -⟩
  simp at hcalls

/-- An event occurs before the last call or is the last call. -/
theorem occurs_concat : Occurs event (calls ++ [call]) ↔ Occurs event calls ∨ event calls call := by
  constructor
  · rintro ⟨before, own, more, hcalls, hevent⟩
    rcases List.eq_nil_or_concat more with rfl | ⟨more, last, rfl⟩
    · obtain ⟨rfl, hlast⟩ := List.append_inj' hcalls rfl
      cases hlast
      exact .inr hevent
    · rw [List.concat_eq_append, ← List.cons_append, ← List.append_assoc] at hcalls
      exact .inl ⟨before, own, more, (List.append_inj' hcalls rfl).1, hevent⟩
  · rintro (⟨before, own, more, rfl, hevent⟩ | hevent)
    · exact ⟨before, own, more ++ [call], by rw [List.append_assoc, List.cons_append], hevent⟩
    · exact ⟨calls, call, [], rfl, hevent⟩

theorem Occurs.append (h : Occurs event calls) (more : List Call) :
    Occurs event (calls ++ more) := by
  obtain ⟨before, call, rest, rfl, hevent⟩ := h
  exact ⟨before, call, rest ++ more, by rw [List.append_assoc, List.cons_append], hevent⟩

/-- An ERROR came where the commands that had passed say that one is waited for. -/
def RejectedIn (m : Mechanism σ) (waits : List Passage → Prop) : List Call → Prop :=
  Occurs fun before call =>
    ∃ f, call = .process f ∧ f.isNamed Command.error = true ∧ waits (m.passages before)

/-- What a mechanism answers once its handshake is over; `refusal` says how it refuses a command. -/
def closedAnswer (refusal : Frame → Fault) (status : Status) : Call → Answer
  | .next => .nothing
  | .process f => .failed (refusal f)
  | .encode f | .decode f => if status = .ready then .frame f else .failed .notReady

theorem ofFrame_passThrough (status : Status) (f : Frame) : Answer.ofFrame (passThrough status f) =
    if status = .ready then .frame f else .failed .notReady := by
  rw [passThrough]
  split <;> rfl

theorem closedAnswer_traffic {refusal : Frame → Fault} {status : Status} {f : Frame}
    (hcall : call = .encode f ∨ call = .decode f) :
    closedAnswer refusal status call = .ofFrame (passThrough status f) := by
  rw [ofFrame_passThrough]
  rcases hcall with rfl | rfl <;> rfl

/-- No calls change the state of a mechanism, and it gives and takes no more commands. -/
def Closed (refusal : Frame → Fault) (m : Mechanism σ) : Prop :=
  ∀ calls, m.after calls = m ∧ m.answers calls = calls.map (closedAnswer refusal m.status)

/-- A mechanism is closed if no call changes it. -/
theorem closed_of_step {refusal : Frame → Fault}
    (h : ∀ call, m.step call = (closedAnswer refusal m.status call, m)) : Closed refusal m := by
  intro calls
  induction calls with
  | nil => exact ⟨rfl, rfl⟩
  | cons call calls ih =>
    rw [after_cons, answers_cons, h call, ih.1, ih.2]
    exact ⟨rfl, rfl⟩

/-- Traffic passes unchanged once the handshake is done, and not before. -/
def Passes (m : Mechanism σ) : Prop :=
  ∀ call f, call = .encode f ∨ call = .decode f →
    m.step call = (if m.status = .ready then .frame f else .failed .notReady, m)

end Histories

end PeerLink.Mechanism
