import Mathlib.Data.List.Induction
import PeerLink.Endpoint.Address
import PeerLink.Proofs.Endpoint.Canonical

/-!
# The slot of an address

An address is resolved and cleared in any order (`Address.after`), and every call leaves an event
(`Address.history`). `Address.Step` lists what one call can do. The slot holds the endpoint of the
last call that resolved the address unless it has been cleared since
(`Address.resolved_after_iff`), and that endpoint depends on the texts, the policy and that one call
only (`Address.lookUp_of_mem_history`). `Address.slot_disciplined` says all this of every run.
-/

set_option autoImplicit false

namespace PeerLink

/-! ## Protocols and tags -/

theorem Protocol.tag_of_ofTag {text : String} {p : Protocol} (h : ofTag text = .ok p) :
    p.tag = text := by
  unfold ofTag at h
  split at h
  · next found hfound =>
    cases h
    have htag := List.find?_some hfound
    exact beq_iff_eq.1 htag
  · cases h

namespace Endpoint

/-- Whether the transport of an endpoint keeps the host as written. -/
def KeepsHost (e : Endpoint) : Prop :=
  e.protocol = .tcp ∨ e.protocol = .ws ∨ e.protocol = .wss

theorem isSome_host?_iff (e : Endpoint) : e.host?.isSome = true ↔ e.KeepsHost := by
  cases e <;> simp [host?, KeepsHost, protocol]

end Endpoint

namespace Address

/-! ## Calls and events -/

/-- A call that may change the slot. The tables of the machine may differ from call to call. -/
inductive Move where
  | resolve (net : Network) (role : Role)
  | clear

/-- What a call has done. -/
inductive Event where
  /-- The address was resolved. -/
  | resolved (net : Network) (role : Role) (endpoint : Endpoint)
  /-- The address was not resolved. -/
  | refused (net : Network) (role : Role) (fault : Fault)
  /-- The slot was cleared; `removed` is what it held. -/
  | cleared (removed : Option Endpoint)

namespace Event

/-- Whether the address was resolved. -/
def isResolved : Event → Bool
  | resolved .. => true
  | _ => false

/-- Whether the slot was cleared. -/
def isCleared : Event → Bool
  | cleared _ => true
  | _ => false

/-- The event of a call that should resolve the address. -/
def ofResult (net : Network) (role : Role) : Except Fault Endpoint → Event
  | .ok endpoint => resolved net role endpoint
  | .error fault => refused net role fault

end Event

/-- Carries out one call. -/
def step (a : Address) : Move → Event × Address
  | .resolve net role => (.ofResult net role (a.resolve net role).1, (a.resolve net role).2)
  | .clear => (.cleared a.clear.1, a.clear.2)

/-- The address after calls in order. -/
def after (a : Address) : List Move → Address
  | [] => a
  | move :: moves => (a.step move).2.after moves

/-- The events of calls in order. -/
def history (a : Address) : List Move → List Event
  | [] => []
  | move :: moves => (a.step move).1 :: (a.step move).2.history moves

theorem after_append (a : Address) (moves more : List Move) :
    a.after (moves ++ more) = (a.after moves).after more := by
  induction moves generalizing a with
  | nil => rfl
  | cons move moves ih => exact ih _

theorem history_append (a : Address) (moves more : List Move) :
    a.history (moves ++ more) = a.history moves ++ (a.after moves).history more := by
  induction moves generalizing a with
  | nil => rfl
  | cons move moves ih =>
    rw [List.cons_append, history, ih]
    rfl

theorem after_concat (a : Address) (moves : List Move) (move : Move) :
    a.after (moves ++ [move]) = ((a.after moves).step move).2 :=
  after_append a moves [move]

theorem history_concat (a : Address) (moves : List Move) (move : Move) :
    a.history (moves ++ [move]) = a.history moves ++ [((a.after moves).step move).1] :=
  history_append a moves [move]

/-! ## What one call can do -/

/-- One call: the call, its event and the address after it. -/
inductive Step (a : Address) : Move → Event → Address → Prop
  | occupied {net : Network} {role : Role} {held : Endpoint} : a.resolved = some held →
      Step a (.resolve net role) (.refused net role .alreadyResolved) a
  | failed {net : Network} {role : Role} {fault : Fault} : a.resolved = none →
      a.lookUp net role = .error fault → Step a (.resolve net role) (.refused net role fault) a
  | stored {net : Network} {role : Role} {e : Endpoint} : a.resolved = none →
      a.lookUp net role = .ok e →
      Step a (.resolve net role) (.resolved net role e) { a with resolved := some e }
  | emptied : Step a .clear (.cleared a.resolved) { a with resolved := none }

section Calls

variable {a a' : Address} {net : Network} {role : Role} {move : Move} {event : Event}

theorem resolve_of_occupied {held : Endpoint} (h : a.resolved = some held) :
    a.resolve net role = (.error .alreadyResolved, a) := by
  rw [resolve, isResolved, h]
  rfl

theorem resolve_of_vacant (h : a.resolved = none) :
    a.resolve net role = (a.lookUp net role,
      match a.lookUp net role with
      | .error _ => a
      | .ok e => { a with resolved := some e }) := by
  rw [resolve, isResolved, h]
  cases a.lookUp net role <;> rfl

/-- Every call does what a rule says. -/
theorem step_follows (a : Address) (move : Move) : Step a move (a.step move).1 (a.step move).2 := by
  cases move with
  | clear => exact .emptied
  | resolve net role =>
    rw [step]
    cases hslot : a.resolved with
    | some held =>
      rw [resolve_of_occupied hslot]
      exact .occupied hslot
    | none =>
      rw [resolve_of_vacant hslot]
      cases hlookUp : a.lookUp net role with
      | error fault => exact .failed hslot hlookUp
      | ok e => exact .stored hslot hlookUp

/-- A call that does not resolve the address leaves it as it was. -/
theorem resolve_of_error {fault : Fault} (h : (a.resolve net role).1 = .error fault) :
    (a.resolve net role).2 = a := by
  cases hslot : a.resolved with
  | some held => rw [resolve_of_occupied hslot]
  | none =>
    rw [resolve_of_vacant hslot] at h ⊢
    dsimp only at h ⊢
    rw [h]

/-- What was asked for does not change. -/
theorem Step.asked_eq (h : Step a move event a') :
    a'.protocol = a.protocol ∧ a'.address = a.address ∧ a'.policy = a.policy := by
  cases h with
  | occupied _ | failed _ _ | stored _ _ | emptied => exact ⟨rfl, rfl, rfl⟩

theorem Step.lookUp_of_resolved {e : Endpoint} (h : Step a move (.resolved net role e) a') :
    a.lookUp net role = .ok e := by
  cases h with
  | stored _ hlookUp => exact hlookUp

/-- What the texts mean does not depend on the slot. -/
theorem Step.lookUp_eq (h : Step a move event a') (net : Network) (role : Role) :
    a'.lookUp net role = a.lookUp net role := by
  obtain ⟨hprotocol, haddress, hpolicy⟩ := h.asked_eq
  rw [lookUp, lookUp, hprotocol, haddress, hpolicy]

end Calls

/-! ## Runs -/

section Runs

variable {a : Address} {net : Network} {role : Role} {e : Endpoint}

theorem asked_after (a : Address) (moves : List Move) : (a.after moves).protocol = a.protocol ∧
    (a.after moves).address = a.address ∧ (a.after moves).policy = a.policy := by
  induction moves generalizing a with
  | nil => exact ⟨rfl, rfl, rfl⟩
  | cons move moves ih =>
    obtain ⟨hprotocol, haddress, hpolicy⟩ := (step_follows a move).asked_eq
    obtain ⟨hprotocol', haddress', hpolicy'⟩ := ih (a.step move).2
    exact ⟨hprotocol'.trans hprotocol, haddress'.trans haddress, hpolicy'.trans hpolicy⟩

/-- What the texts mean stays the same. -/
theorem lookUp_after (a : Address) (moves : List Move) (net : Network) (role : Role) :
    (a.after moves).lookUp net role = a.lookUp net role := by
  induction moves generalizing a with
  | nil => rfl
  | cons move moves ih =>
    rw [after, ih]
    exact (step_follows a move).lookUp_eq net role

/-- Whatever happened before, a call that resolves the address gives what the texts mean to it. -/
theorem lookUp_of_mem_history {moves : List Move} (h : .resolved net role e ∈ a.history moves) :
    a.lookUp net role = .ok e := by
  induction moves generalizing a with
  | nil => cases h
  | cons move moves ih =>
    have hstep := step_follows a move
    rw [history] at h
    rcases List.mem_cons.1 h with hevent | hlater
    · -- the first call resolved the address
      rw [← hevent] at hstep
      exact hstep.lookUp_of_resolved
    · rw [← hstep.lookUp_eq net role]
      exact ih hlater

/-- This call was the last one that resolved the address, and the slot was not cleared after it. -/
def Stands (events : List Event) (net : Network) (role : Role) (e : Endpoint) : Prop :=
  ∃ past later, events = past ++ .resolved net role e :: later ∧
    (∀ event ∈ later, event.isResolved = false) ∧ ∀ event ∈ later, event.isCleared = false

theorem Stands.mem {events : List Event} (h : Stands events net role e) :
    .resolved net role e ∈ events := by
  obtain ⟨past, later, rfl, -, -⟩ := h
  exact List.mem_append_right _ List.mem_cons_self

theorem stands_last (events : List Event) (net : Network) (role : Role) (e : Endpoint) :
    Stands (events ++ [.resolved net role e]) net role e := by
  refine ⟨events, [], rfl, ?_, ?_⟩
  · intro event hevent
    cases hevent
  · intro event hevent
    cases hevent

/-- A refusal changes nothing. -/
theorem Stands.concat {events : List Event} {event : Event} (h : Stands events net role e)
    (hresolved : event.isResolved = false) (hcleared : event.isCleared = false) :
    Stands (events ++ [event]) net role e := by
  obtain ⟨past, later, rfl, hlast, hkept⟩ := h
  refine ⟨past, later ++ [event], by simp, ?_, ?_⟩
  · intro other hother
    rcases List.mem_append.1 hother with hother | hother
    · exact hlast other hother
    · rw [List.mem_singleton.1 hother]
      exact hresolved
  · intro other hother
    rcases List.mem_append.1 hother with hother | hother
    · exact hkept other hother
    · rw [List.mem_singleton.1 hother]
      exact hcleared

/-- What stands is the last event, or stood before it. -/
theorem Stands.cases_concat {events : List Event} {event : Event}
    (h : Stands (events ++ [event]) net role e) : event = .resolved net role e ∨
      event.isResolved = false ∧ event.isCleared = false ∧ Stands events net role e := by
  obtain ⟨past, later, hpast, hlast, hkept⟩ := h
  rcases List.eq_nil_or_concat later with rfl | ⟨front, last, rfl⟩
  · obtain ⟨-, hevent⟩ := List.append_inj' hpast rfl
    cases hevent
    exact .inl rfl
  · rw [List.concat_eq_append] at hpast hlast hkept
    rw [← List.cons_append, ← List.append_assoc] at hpast
    obtain ⟨hevents, hevent⟩ := List.append_inj' hpast rfl
    cases hevent
    refine .inr ⟨hlast event (by simp), hkept event (by simp), past, front, hevents, ?_, ?_⟩
    · intro other hother
      exact hlast other (List.mem_append_left _ hother)
    · intro other hother
      exact hkept other (List.mem_append_left _ hother)

theorem not_stands_nil : ¬ Stands [] net role e := by
  intro h
  cases h.mem

/-- The slot of an address that was made empty holds an endpoint exactly when a call that gave it
stands. -/
theorem resolved_after_iff (hempty : a.resolved = none) (moves : List Move) :
    (a.after moves).resolved = some e ↔ ∃ net role, Stands (a.history moves) net role e := by
  induction moves using List.reverseRecOn with
  | nil =>
    rw [after, hempty]
    refine iff_of_false (Option.some_ne_none e).symm ?_
    rintro ⟨net, role, hstands⟩
    exact not_stands_nil hstands
  | append_singleton moves move ih =>
    rw [after_concat, history_concat]
    have hstep := step_follows (a.after moves) move
    generalize (a.after moves).step move = result at hstep ⊢
    obtain ⟨event, a'⟩ := result
    dsimp only at hstep ⊢
    cases hstep with
    | occupied _ | failed _ _ =>
      -- the slot is as before, and so is what stands
      rw [ih]
      constructor
      · rintro ⟨net, role, hstands⟩
        exact ⟨net, role, hstands.concat rfl rfl⟩
      · rintro ⟨net, role, hstands⟩
        rcases hstands.cases_concat with hevent | ⟨-, -, hstands⟩
        · cases hevent
        · exact ⟨net, role, hstands⟩
    | @stored net role stored hslot _ =>
      constructor
      · intro he
        cases he
        exact ⟨net, role, stands_last _ net role e⟩
      · rintro ⟨net', role', hstands⟩
        rcases hstands.cases_concat with hevent | ⟨hresolved, -, -⟩
        · cases hevent
          rfl
        · cases hresolved
    | emptied =>
      refine iff_of_false (Option.some_ne_none e).symm ?_
      rintro ⟨net, role, hstands⟩
      rcases hstands.cases_concat with hevent | ⟨-, hcleared, -⟩
      · cases hevent
      · cases hcleared

theorem isResolved_after_iff (hempty : a.resolved = none) (moves : List Move) :
    (a.after moves).isResolved = true ↔
      ∃ net role e, Stands (a.history moves) net role e := by
  rw [isResolved, Option.isSome_iff_exists]
  constructor
  · rintro ⟨e, he⟩
    obtain ⟨net, role, hstands⟩ := (resolved_after_iff hempty moves).1 he
    exact ⟨net, role, e, hstands⟩
  · rintro ⟨net, role, e, hstands⟩
    exact ⟨e, (resolved_after_iff hempty moves).2 ⟨net, role, hstands⟩⟩

end Runs

/-! ## The discipline of the slot -/

/-- What holds of an address `a` that was made of two texts under a policy and has seen some
events. -/
structure Disciplined (protocol text : String) (policy : TransportPolicy) (events : List Event)
    (a : Address) : Prop where
  /-- What was asked for never changes. -/
  asked : a.protocol = protocol ∧ a.address = text ∧ a.policy = policy
  /-- The slot is populated exactly when the last resolution has not been cleared since. -/
  populated_iff : a.isResolved = true ↔ ∃ net role e, Stands events net role e
  /-- It holds what the texts mean to that last resolution, whatever happened before. -/
  holds : ∀ net role e, Stands events net role e → a.resolved = some e ∧
    ∃ p, Protocol.ofTag protocol = .ok p ∧ Endpoint.resolve net p policy role text = .ok e
  /-- The endpoint in the slot is of the protocol that was asked for. -/
  tag : ∀ e, a.resolved = some e → e.protocol.tag = protocol
  /-- A populated slot is not resolved again. -/
  occupied : a.isResolved = true → ∀ net role, (a.resolve net role).1 = .error .alreadyResolved
  /-- An empty slot is resolved whenever the texts mean an endpoint, which is then stored. -/
  vacant : a.isResolved = false → ∀ net role p e, Protocol.ofTag protocol = .ok p →
    Endpoint.resolve net p policy role text = .ok e →
    a.resolve net role = (.ok e, { a with resolved := some e })
  /-- A resolution that fails changes nothing, for whatever reason it fails. -/
  failing : ∀ net role fault, (a.resolve net role).1 = .error fault → (a.resolve net role).2 = a
  /-- Clearing gives back what the slot held and empties it. -/
  clearing : a.clear = (a.resolved, { a with resolved := none })
  /-- The text is the canonical one once there is an endpoint, -/
  text_resolved : ∀ e, a.resolved = some e → a.text = .ok e.text
  /-- and before that what was asked for, if both texts say something. -/
  text_unresolved : a.resolved = none →
    (a.text = .ok (protocol ++ "://" ++ text) ↔ protocol ≠ "" ∧ text ≠ "") ∧
      (a.text = .error .addressUnresolved ↔ protocol = "" ∨ text = "")
  /-- Only transports that keep the host as written tell a host. -/
  host_iff : a.host?.isSome = true ↔ ∃ e, a.resolved = some e ∧ e.KeepsHost

section Discipline

variable {a : Address} {net : Network} {role : Role} {e : Endpoint}

theorem lookUp_eq_ok_iff : a.lookUp net role = .ok e ↔ ∃ p, Protocol.ofTag a.protocol = .ok p ∧
    Endpoint.resolve net p a.policy role a.address = .ok e := by
  rw [lookUp]
  cases Protocol.ofTag a.protocol with
  | error fault => simp
  | ok p => simp

theorem text_of_unresolved (h : a.resolved = none) :
    (a.text = .ok (a.protocol ++ "://" ++ a.address) ↔ a.protocol ≠ "" ∧ a.address ≠ "") ∧
      (a.text = .error .addressUnresolved ↔ a.protocol = "" ∨ a.address = "") := by
  rw [text, h]
  dsimp only
  by_cases hempty : a.protocol = "" ∨ a.address = ""
  · rw [if_pos hempty]
    refine ⟨iff_of_false (by simp) ?_, iff_of_true rfl hempty⟩
    rintro ⟨hprotocol, haddress⟩
    exact hempty.elim hprotocol haddress
  · rw [if_neg hempty]
    exact ⟨iff_of_true rfl (not_or.1 hempty), iff_of_false (by simp) hempty⟩

theorem isSome_host?_iff : a.host?.isSome = true ↔ ∃ e, a.resolved = some e ∧ e.KeepsHost := by
  rw [host?]
  cases a.resolved with
  | none => simp
  | some held =>
    rw [Option.bind_some, Endpoint.isSome_host?_iff]
    simp

end Discipline

/-- The slot of an address is disciplined after any calls, whatever the machine knows at each. -/
theorem slot_disciplined (protocol text : String) (policy : TransportPolicy) (moves : List Move) :
    Disciplined protocol text policy ((new protocol text policy).history moves)
      ((new protocol text policy).after moves) where
  asked := asked_after _ moves
  populated_iff := isResolved_after_iff rfl moves
  holds := by
    intro net role e hstands
    refine ⟨(resolved_after_iff rfl moves).2 ⟨net, role, hstands⟩, ?_⟩
    exact lookUp_eq_ok_iff.1 (lookUp_of_mem_history hstands.mem)
  tag := by
    intro e he
    obtain ⟨net, role, hstands⟩ := (resolved_after_iff rfl moves).1 he
    obtain ⟨p, hp, hresolve⟩ := lookUp_eq_ok_iff.1 (lookUp_of_mem_history hstands.mem)
    rw [Endpoint.protocol_of_resolve hresolve]
    exact Protocol.tag_of_ofTag hp
  occupied := by
    intro hpopulated net role
    obtain ⟨held, hheld⟩ := Option.isSome_iff_exists.1 hpopulated
    rw [resolve_of_occupied hheld]
  vacant := by
    intro hvacant net role p e hp hresolve
    have hnone := Option.isSome_eq_false_iff.1 hvacant
    have hlookUp : (new protocol text policy).lookUp net role = .ok e :=
      lookUp_eq_ok_iff.2 ⟨p, hp, hresolve⟩
    rw [resolve_of_vacant (Option.isNone_iff_eq_none.1 hnone), lookUp_after, hlookUp]
  failing := by
    intro net role fault hfault
    exact resolve_of_error hfault
  clearing := rfl
  text_resolved := by
    intro e he
    rw [Address.text, he]
  text_unresolved := by
    intro hnone
    obtain ⟨hprotocol, haddress, -⟩ := asked_after (new protocol text policy) moves
    have htext := text_of_unresolved hnone
    rwa [hprotocol, haddress] at htext
  host_iff := isSome_host?_iff

/-- An address bound to any port stays so when it is asked for again; once it is cleared, nobody can
connect to it. -/
example : ((new "tcp" "127.0.0.1:0" {}).after [.resolve Endpoint.isolated .bind,
      .resolve Endpoint.isolated .connect]).text = .ok "127.0.0.1:0" ∧
    ((new "tcp" "127.0.0.1:0" {}).after [.resolve Endpoint.isolated .bind, .clear,
      .resolve Endpoint.isolated .connect]).text = .ok "tcp://127.0.0.1:0" := by
  decide

end Address

end PeerLink
