import PeerLink.Mechanism
import PeerLink.Proofs.Metadata.Blocks

/-!
# What a call of a PLAIN client can do

`PlainClient.Step` lists, rule by rule, what one call answers and in what phase it leaves the
client. Every call follows a rule (`PlainClient.step_follows`). A refused command leaves the client
as it was; it is one that the client does not wait for or that does not read.
-/

set_option autoImplicit false

namespace PeerLink

open Mechanism (Call Answer)

namespace PlainClient

/-! ## Calls of a client -/

/-- One call of a client. -/
def step (c : PlainClient) : Call → Answer × PlainClient
  | .next => (.ofFrame? c.next.1, c.next.2)
  | .process f => (.ofUnit (c.process f).1, (c.process f).2)
  | .encode f | .decode f => (.ofFrame (Mechanism.passThrough c.status f), c)

/-- A call of the mechanism is a call of its client. -/
theorem mechanism_step {σ : Type} (c : PlainClient) (call : Call) :
    (Mechanism.plain (σ := σ) c).step call = ((c.step call).1, .plain (c.step call).2) := by
  cases call <;> rfl

/-! ## The rules -/

/-- Whether the client waits for a command of the server. -/
def Waits (c : PlainClient) : Prop := c.phase = .awaitingWelcome ∨ c.phase = .awaitingReady

/-- Whether a frame has the name of a command that the client waits for. -/
def Expects (c : PlainClient) (f : Frame) : Prop :=
  c.phase = .awaitingWelcome ∧ f.isNamed Command.welcome = true ∨
    c.phase = .awaitingReady ∧ f.isNamed Command.ready = true ∨
    c.Waits ∧ f.isNamed Command.error = true

/-- Why a command is refused. -/
inductive Refuses (c : PlainClient) (f : Frame) : Fault → Prop
  | malformed {fault : Fault} : Command.checkStructure f = .error fault → Refuses c f fault
  | unexpected : Command.checkStructure f = .ok () → ¬ c.Expects f →
      Refuses c f (.sequence .unexpected)
  | welcomeBody {body : Bytes} : c.phase = .awaitingWelcome →
      f.data = Command.welcome ++ body → body ≠ [] → Refuses c f (.malformed .welcomeBody)
  | unsuited {block : Bytes} {fault : Fault} : c.phase = .awaitingReady →
      f.data = Command.ready ++ block → c.announcement.accept block = .error fault →
      Refuses c f fault

/-- One call of a client: the call, its answer and the client after it. -/
inductive Step (c : PlainClient) : Call → Answer → PlainClient → Prop
  | hello : c.phase = .sendingHello →
      Step c .next (.frame c.hello) { c with phase := .awaitingWelcome }
  | initiate : c.phase = .sendingInitiate → (∀ p ∈ c.announcement.properties, p.Fits) →
      Step c .next (.frame (c.announcement.written Command.initiate))
        { c with phase := .awaitingReady }
  | unwritable {fault : Fault} : c.phase = .sendingInitiate →
      c.announcement.command Command.initiate = .error fault → Step c .next (.failed fault) c
  | idle : c.phase ≠ .sendingHello → c.phase ≠ .sendingInitiate → Step c .next .nothing c
  | welcomed {f : Frame} : c.phase = .awaitingWelcome → f.data = Command.welcome →
      Step c (.process f) .done { c with phase := .sendingInitiate }
  | readyTaken {f : Frame} {block : Bytes} {peer : Properties} : c.phase = .awaitingReady →
      f.data = Command.ready ++ block → c.announcement.accept block = .ok peer →
      Step c (.process f) .done { c with phase := .ready peer }
  | rejected {f : Frame} : c.Waits → f.isNamed Command.error = true →
      Step c (.process f) (.failed (Command.faultOfError f.data)) { c with phase := .failed }
  | refused {f : Frame} {fault : Fault} : Refuses c f fault →
      Step c (.process f) (.failed fault) c
  | traffic {f : Frame} {call : Call} : call = .encode f ∨ call = .decode f →
      Step c call (.ofFrame (Mechanism.passThrough c.status f)) c

/-- What a client tells does not change. -/
theorem Step.own_eq {c c' : PlainClient} {call : Call} {answer : Answer}
    (hs : Step c call answer c') :
    c'.announcement = c.announcement ∧ c'.credentials = c.credentials := by
  cases hs with
  | _ => exact ⟨rfl, rfl⟩

/-! ## Commands by their names -/

section Names

variable {c : PlainClient} {f : Frame} {body : Bytes}

theorem expects_welcome_iff (hdata : f.data = Command.welcome ++ body) :
    c.Expects f ↔ c.phase = .awaitingWelcome := by
  have hready : f.isNamed Command.ready = false :=
    Command.isNamed_other hdata fun _ => rfl
  have herror : f.isNamed Command.error = false :=
    Command.isNamed_other hdata fun _ => rfl
  simp [Expects, Frame.isNamed_iff.2 ⟨_, hdata⟩, hready, herror]

theorem expects_ready_iff (hdata : f.data = Command.ready ++ body) :
    c.Expects f ↔ c.phase = .awaitingReady := by
  have hwelcome : f.isNamed Command.welcome = false :=
    Command.isNamed_other hdata fun _ => rfl
  have herror : f.isNamed Command.error = false :=
    Command.isNamed_other hdata fun _ => rfl
  simp [Expects, Frame.isNamed_iff.2 ⟨_, hdata⟩, hwelcome, herror]

theorem expects_error_iff (hdata : f.data = Command.error ++ body) : c.Expects f ↔ c.Waits := by
  have hwelcome : f.isNamed Command.welcome = false :=
    Command.isNamed_other hdata fun _ => rfl
  have hready : f.isNamed Command.ready = false :=
    Command.isNamed_other hdata fun _ => rfl
  simp [Expects, Frame.isNamed_iff.2 ⟨_, hdata⟩, hwelcome, hready]

theorem process_welcome (hdata : f.data = Command.welcome ++ body) :
    c.process f = c.processWelcome f := by
  rw [process, Command.checkStructure_of_name hdata (by decide)]
  exact if_pos (Frame.isNamed_iff.2 ⟨_, hdata⟩)

theorem process_ready (hdata : f.data = Command.ready ++ body) :
    c.process f = c.processReady f := by
  have hother : f.isNamed Command.welcome = false :=
    Command.isNamed_other hdata fun _ => rfl
  rw [process, Command.checkStructure_of_name hdata (by decide)]
  dsimp only
  rw [if_neg (ne_true_of_eq_false hother), if_pos (Frame.isNamed_iff.2 ⟨_, hdata⟩)]

theorem process_error (hdata : f.data = Command.error ++ body) :
    c.process f = c.processError f := by
  have hwelcome : f.isNamed Command.welcome = false :=
    Command.isNamed_other hdata fun _ => rfl
  have hready : f.isNamed Command.ready = false :=
    Command.isNamed_other hdata fun _ => rfl
  rw [process, Command.checkStructure_of_name hdata (by decide)]
  dsimp only
  rw [if_neg (ne_true_of_eq_false hwelcome), if_neg (ne_true_of_eq_false hready),
    if_pos (Frame.isNamed_iff.2 ⟨_, hdata⟩)]

end Names

/-! ## Every call follows a rule -/

section Follows

variable {f : Frame} {body : Bytes}

theorem next_follows (c : PlainClient) : Step c .next (c.step .next).1 (c.step .next).2 := by
  rw [step, next]
  cases hphase : c.phase with
  | sendingHello => exact .hello hphase
  | sendingInitiate =>
    dsimp only
    cases hcmd : c.announcement.command Command.initiate with
    | error fault => exact .unwritable hphase hcmd
    | ok f =>
      obtain ⟨hfits, rfl⟩ := Announcement.command_eq_ok_iff.1 hcmd
      exact .initiate hphase hfits
  | awaitingWelcome | awaitingReady | failed | ready peer =>
    exact .idle (by simp [hphase]) (by simp [hphase])

theorem welcome_follows (c : PlainClient) (hdata : f.data = Command.welcome ++ body) :
    Step c (.process f) (c.step (.process f)).1 (c.step (.process f)).2 := by
  rw [step, process_welcome hdata, processWelcome]
  cases hphase : c.phase with
  | awaitingWelcome =>
    dsimp only
    by_cases hbody : body = []
    · -- the bytes are those of the name
      rw [hbody, List.append_nil] at hdata
      rw [if_pos (congrArg List.length hdata)]
      exact .welcomed hphase hdata
    · have hlong : f.data.length ≠ Command.welcome.length := by
        rw [hdata, List.length_append]
        have := List.length_pos_iff.2 hbody
        omega
      rw [if_neg hlong]
      exact .refused (.welcomeBody hphase hdata hbody)
  | sendingHello | sendingInitiate | awaitingReady | failed | ready peer =>
    have hname := Command.checkStructure_of_name hdata (by decide)
    exact .refused (.unexpected hname (by simp [expects_welcome_iff hdata, hphase]))

theorem ready_follows (c : PlainClient) (hdata : f.data = Command.ready ++ body) :
    Step c (.process f) (c.step (.process f)).1 (c.step (.process f)).2 := by
  rw [step, process_ready hdata, processReady]
  cases hphase : c.phase with
  | awaitingReady =>
    dsimp only
    rw [hdata, List.drop_left]
    cases haccept : c.announcement.accept body with
    | error fault => exact .refused (.unsuited hphase hdata haccept)
    | ok peer => exact .readyTaken hphase hdata haccept
  | sendingHello | awaitingWelcome | sendingInitiate | failed | ready peer =>
    have hname := Command.checkStructure_of_name hdata (by decide)
    exact .refused (.unexpected hname (by simp [expects_ready_iff hdata, hphase]))

theorem error_follows (c : PlainClient) (hdata : f.data = Command.error ++ body) :
    Step c (.process f) (c.step (.process f)).1 (c.step (.process f)).2 := by
  rw [step, process_error hdata, processError]
  cases hphase : c.phase with
  | awaitingWelcome => exact .rejected (.inl hphase) (Frame.isNamed_iff.2 ⟨_, hdata⟩)
  | awaitingReady => exact .rejected (.inr hphase) (Frame.isNamed_iff.2 ⟨_, hdata⟩)
  | sendingHello | sendingInitiate | failed | ready peer =>
    have hname := Command.checkStructure_of_name hdata (by decide)
    exact .refused (.unexpected hname (by simp [expects_error_iff hdata, Waits, hphase]))

theorem process_follows (c : PlainClient) (f : Frame) :
    Step c (.process f) (c.step (.process f)).1 (c.step (.process f)).2 := by
  by_cases hwelcome : f.isNamed Command.welcome = true
  · obtain ⟨body, hdata⟩ := Frame.isNamed_iff.1 hwelcome
    exact welcome_follows c hdata
  by_cases hready : f.isNamed Command.ready = true
  · obtain ⟨body, hdata⟩ := Frame.isNamed_iff.1 hready
    exact ready_follows c hdata
  by_cases herror : f.isNamed Command.error = true
  · obtain ⟨body, hdata⟩ := Frame.isNamed_iff.1 herror
    exact error_follows c hdata
  -- no name that the client knows
  rw [step, process]
  cases hname : Command.checkStructure f with
  | error fault => exact .refused (.malformed hname)
  | ok done =>
    dsimp only
    rw [if_neg hwelcome, if_neg hready, if_neg herror]
    exact .refused (.unexpected hname (by simp [Expects, hwelcome, hready, herror]))

/-- Every call follows a rule. -/
theorem step_follows (c : PlainClient) (call : Call) :
    Step c call (c.step call).1 (c.step call).2 := by
  cases call with
  | next => exact next_follows c
  | process f => exact process_follows c f
  | encode f => exact .traffic (.inl rfl)
  | decode f => exact .traffic (.inr rfl)

end Follows

end PlainClient

end PeerLink
