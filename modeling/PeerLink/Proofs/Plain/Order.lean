import Mathlib.Data.List.Induction
import PeerLink.Proofs.Mechanism.Runs
import PeerLink.Proofs.Metadata.Acceptance
import PeerLink.Proofs.Plain.Rules

/-!
# The order of a PLAIN handshake

The commands that have passed say in what phase a client is, whatever was called and received
(`PlainClient.Course`). One call adds at most one command to them (`PlainClient.Course.step`), so
after any calls the commands are those of the protocol in its order (`PlainClient.follows`), and the
status can be read from them (`PlainClient.Follows.ordered`).
-/

set_option autoImplicit false

namespace PeerLink

open Mechanism (Call Answer Passage RejectedIn)

/-- The HELLO of a client with these options. -/
def SecurityOptions.hello (options : SecurityOptions) : Frame :=
  .ofCommand (Command.hello ++ options.plain.encoded)

/-- HELLO and INITIATE have different names. -/
theorem SecurityOptions.hello_ne_announced (options : SecurityOptions) :
    options.hello ≠ options.announced Command.initiate := by
  intro h
  have hdata := congrArg Frame.data h
  simp [hello, announced, Announcement.written, Frame.ofCommand, Command.hello,
    Command.initiate] at hdata

namespace PlainClient

/-! ## Commands and phases -/

/-- HELLO has been sent and no WELCOME taken. -/
def AwaitsWelcome (options : SecurityOptions) (ps : List Passage) : Prop :=
  ps = [.sent options.hello]

/-- INITIATE has been sent, after a WELCOME without a body, and no READY taken. -/
def AwaitsReady (options : SecurityOptions) (ps : List Passage) : Prop :=
  ∃ w : Frame, w.data = Command.welcome ∧
    ps = [.sent options.hello, .taken w, .sent (options.announced Command.initiate)]

/-- A command of the server is due. -/
def Awaits (options : SecurityOptions) (ps : List Passage) : Prop :=
  AwaitsWelcome options ps ∨ AwaitsReady options ps

/-- The commands that have passed when a client is in a phase. -/
inductive Course (options : SecurityOptions) : List Passage → PlainPhase → Prop
  | start : Course options [] .sendingHello
  | hello : Course options [.sent options.hello] .awaitingWelcome
  | welcomed {w : Frame} : w.data = Command.welcome →
      Course options [.sent options.hello, .taken w] .sendingInitiate
  | initiate {w : Frame} : w.data = Command.welcome →
      Course options [.sent options.hello, .taken w, .sent (options.announced Command.initiate)]
        .awaitingReady
  | ready {w f : Frame} {peer : Properties} : w.data = Command.welcome → options.AcceptsReady f →
      Course options [.sent options.hello, .taken w, .sent (options.announced Command.initiate),
        .taken f] (.ready peer)
  | failed {ps : List Passage} : Awaits options ps → Course options ps .failed

section Course

variable {options : SecurityOptions} {ps : List Passage} {phase : PlainPhase}

theorem Course.sendingHello_iff (h : Course options ps phase) :
    phase = .sendingHello ↔ ps = [] := by
  cases h with
  | failed hawaits =>
    rcases hawaits with rfl | ⟨w, -, rfl⟩
    all_goals simp
  | _ => simp

theorem Course.sendingInitiate_iff (h : Course options ps phase) : phase = .sendingInitiate ↔
    ∃ w : Frame, w.data = Command.welcome ∧ ps = [.sent options.hello, .taken w] := by
  cases h with
  | welcomed hw => simp [hw]
  | failed hawaits =>
    rcases hawaits with rfl | ⟨w, -, rfl⟩
    all_goals simp
  | _ => simp

theorem Course.awaitingWelcome_iff (h : Course options ps phase) :
    phase = .awaitingWelcome ↔ AwaitsWelcome options ps ∧ phase ≠ .failed := by
  cases h with
  | _ => simp [AwaitsWelcome]

theorem Course.awaitingReady_iff (h : Course options ps phase) :
    phase = .awaitingReady ↔ AwaitsReady options ps ∧ phase ≠ .failed := by
  cases h with
  | initiate hw => simp [AwaitsReady, hw]
  | _ => simp [AwaitsReady]

theorem Course.ready_iff (h : Course options ps phase) : (∃ peer, phase = .ready peer) ↔
    ∃ w f : Frame, w.data = Command.welcome ∧ options.AcceptsReady f ∧
      ps = [.sent options.hello, .taken w, .sent (options.announced Command.initiate),
        .taken f] := by
  cases h with
  | ready hw hf => simp [hw, hf]
  | failed hawaits =>
    rcases hawaits with rfl | ⟨w, -, rfl⟩
    all_goals simp
  | _ => simp

/-- Frames are given out in order. -/
theorem Course.sent_prefix (h : Course options ps phase) :
    ps.filterMap Passage.sent? <+: [options.hello, options.announced Command.initiate] := by
  cases h with
  | failed hawaits =>
    rcases hawaits with rfl | ⟨w, -, rfl⟩
    all_goals simp [List.filterMap_cons, Passage.sent?]
  | _ => simp [List.filterMap_cons, Passage.sent?]

/-- INITIATE follows HELLO and WELCOME. -/
theorem Course.before_initiate (h : Course options ps phase) {before after : List Passage}
    (hps : ps = before ++ .sent (options.announced Command.initiate) :: after) :
    ∃ w : Frame, w.data = Command.welcome ∧ before = [.sent options.hello, .taken w] := by
  have hne := options.hello_ne_announced.symm
  cases h with
  | start => simp at hps
  | hello | welcomed _ => simp [List.cons_eq_append_iff, hne] at hps
  | @initiate w hw =>
    have hbefore : before = [.sent options.hello, .taken w] ∧ after = [] := by
      simpa [List.cons_eq_append_iff, hne] using hps
    exact ⟨w, hw, hbefore.1⟩
  | @ready w f peer hw hf =>
    have hbefore : before = [.sent options.hello, .taken w] ∧ after = [.taken f] := by
      simpa [List.cons_eq_append_iff, hne] using hps
    exact ⟨w, hw, hbefore.1⟩
  | failed hawaits =>
    rcases hawaits with rfl | ⟨w, hw, rfl⟩
    · simp [List.cons_eq_append_iff, hne] at hps
    · have hbefore : before = [.sent options.hello, .taken w] ∧ after = [] := by
        simpa [List.cons_eq_append_iff, hne] using hps
      exact ⟨w, hw, hbefore.1⟩

theorem Course.waits_iff {c : PlainClient} (h : Course options ps c.phase)
    (hphase : c.phase ≠ .failed) : c.Waits ↔ Awaits options ps := by
  rw [Waits, Awaits, h.awaitingWelcome_iff, h.awaitingReady_iff]
  simp only [hphase, ne_eq, not_false_eq_true, and_true]

end Course

/-! ## One call -/

section Step

variable {options : SecurityOptions} {ps : List Passage} {c c' : PlainClient} {call : Call}
  {answer : Answer}

/-- A call adds the command that passes in it. -/
theorem Course.step (h : Course options ps c.phase) (hs : Step c call answer c')
    (hown : c.announcement = .ofOptions options) (hplain : c.credentials = options.plain) :
    Course options (ps ++ (Passage.of? call answer).toList) c'.phase := by
  cases hs with
  | hello hphase =>
    rw [hphase] at h
    cases h
    rw [PlainClient.hello, hplain]
    exact .hello
  | initiate hphase _ =>
    rw [hphase] at h
    cases h with
    | welcomed hw =>
      rw [hown]
      exact .initiate hw
  | welcomed hphase hdata =>
    rw [hphase] at h
    cases h
    exact .welcomed hdata
  | readyTaken hphase hdata haccept =>
    rw [hphase] at h
    rw [hown] at haccept
    cases h with
    | initiate hw => exact .ready hw (SecurityOptions.acceptsReady_iff.2 ⟨_, _, hdata, haccept⟩)
  | rejected hwaits _ =>
    have hphase : c.phase ≠ .failed := by
      rcases hwaits with hphase | hphase <;> simp [hphase]
    rw [Passage.append_of?_eq_self (Passage.of?_failed _ _)]
    exact .failed ((h.waits_iff hphase).1 hwaits)
  | unwritable _ _ | refused _ =>
    rw [Passage.append_of?_eq_self (Passage.of?_failed _ _)]
    exact h
  | idle _ _ =>
    rw [Passage.append_of?_eq_self rfl]
    exact h
  | traffic hcall =>
    rw [Passage.append_of?_eq_self (Passage.of?_traffic hcall _)]
    exact h

/-- An ERROR that the client waits for is not refused. -/
theorem Refuses.not_error {f : Frame} {fault : Fault} (h : Refuses c f fault)
    (hname : f.isNamed Command.error = true) : ¬ c.Waits := by
  intro hwaits
  obtain ⟨body, hdata⟩ := Frame.isNamed_iff.1 hname
  cases h with
  | malformed hbad => cases (Command.checkStructure_of_name hdata (by decide)).symm.trans hbad
  | unexpected _ hother => exact hother ((expects_error_iff hdata).2 hwaits)
  | welcomeBody _ hwelcome _ =>
    have hother : f.isNamed Command.error = false := Command.isNamed_other hwelcome fun _ => rfl
    cases hname.symm.trans hother
  | unsuited _ hready _ =>
    have hother : f.isNamed Command.error = false := Command.isNamed_other hready fun _ => rfl
    cases hname.symm.trans hother

/-- A call makes a client fail exactly if it brings an ERROR that the client waits for. -/
theorem Step.failed_iff (hs : Step c call answer c') : c'.phase = .failed ↔
    c.phase = .failed ∨ ∃ f, call = .process f ∧ f.isNamed Command.error = true ∧ c.Waits := by
  cases hs with
  | hello hphase | initiate hphase _ | unwritable hphase _ => simp [hphase]
  | welcomed hphase hdata =>
    have hother : Frame.isNamed _ Command.error = false :=
      Command.isNamed_other (hdata.trans (List.append_nil _).symm) fun _ => rfl
    simp [hphase, hother]
  | readyTaken hphase hdata _ =>
    have hother : Frame.isNamed _ Command.error = false :=
      Command.isNamed_other hdata fun _ => rfl
    simp [hphase, hother]
  | rejected hwaits hname => simp [hwaits, hname]
  | refused hrefuses =>
    constructor
    · exact .inl
    · rintro (hfailed | ⟨f, hcall, hname, hwaits⟩)
      · exact hfailed
      · cases hcall
        exact absurd hwaits (hrefuses.not_error hname)
  | idle _ _ => simp
  | traffic hcall => rcases hcall with rfl | rfl <;> simp

end Step

/-! ## Any calls -/

section Follows

variable {σ : Type} {options : SecurityOptions} {m : Mechanism σ} {calls : List Call}
  {c : PlainClient}

/-- Where a client with these options is after calls: its phase is that of the commands that have
passed, and it has failed if an ERROR came when a command was due. -/
structure Follows (options : SecurityOptions) (m : Mechanism σ) (calls : List Call)
    (c : PlainClient) : Prop where
  after_eq : m.after calls = .plain c
  announcement_eq : c.announcement = .ofOptions options
  credentials_eq : c.credentials = options.plain
  course : Course options (m.passages calls) c.phase
  failed_iff : c.phase = .failed ↔ m.RejectedIn (Awaits options) calls

theorem follows_start (h : PlainClient.start options = .ok c) :
    Follows options (.plain c : Mechanism σ) [] c := by
  rw [PlainClient.start] at h
  split at h
  · cases h
    refine ⟨rfl, rfl, rfl, .start, ?_⟩
    simp [RejectedIn, Mechanism.not_occurs_nil]
  · cases h

theorem Follows.concat (h : Follows options m calls c) (call : Call) :
    Follows options m (calls ++ [call]) (c.step call).2 := by
  have hs := step_follows c call
  have hstep : (m.after calls).step call = ((c.step call).1, .plain (c.step call).2) := by
    rw [h.after_eq, mechanism_step]
  have hown := hs.own_eq
  constructor
  · rw [Mechanism.after_concat, hstep]
  · rw [hown.1, h.announcement_eq]
  · rw [hown.2, h.credentials_eq]
  · rw [Mechanism.passages_concat, hstep]
    exact h.course.step hs h.announcement_eq h.credentials_eq
  · rw [hs.failed_iff, RejectedIn, Mechanism.occurs_concat, ← RejectedIn, ← h.failed_iff]
    by_cases hphase : c.phase = .failed
    · simp [hphase]
    · rw [h.course.waits_iff hphase]

/-- After any calls the phase of a client is that of the commands that have passed. -/
theorem follows (h : PlainClient.start options = .ok c) (calls : List Call) :
    ∃ c', Follows options (.plain c : Mechanism σ) calls c' := by
  induction calls using List.reverseRecOn with
  | nil => exact ⟨c, follows_start h⟩
  | append_singleton calls call ih =>
    obtain ⟨c', hfollows⟩ := ih
    exact ⟨(c'.step call).2, hfollows.concat call⟩

end Follows

/-! ## When commands pass -/

section Passing

variable {c : PlainClient} {f : Frame}

/-- When a call for the next command gives a frame out. -/
theorem next_eq_frame_iff : (c.step .next).1 = .frame f ↔
    c.phase = .sendingHello ∧ f = c.hello ∨
      c.phase = .sendingInitiate ∧ f = c.announcement.written Command.initiate ∧
        ∀ p ∈ c.announcement.properties, p.Fits := by
  have hs := step_follows c .next
  generalize (c.step .next).1 = answer, (c.step .next).2 = c' at hs
  cases hs with
  | hello hphase => simp [hphase, eq_comm]
  | initiate hphase hfits =>
    simp only [Answer.frame.injEq, hphase, reduceCtorEq, false_and, false_or, true_and]
    exact ⟨fun h => ⟨h.symm, hfits⟩, fun h => h.1.symm⟩
  | idle hhello hinitiate => simp [hhello, hinitiate]
  | unwritable hphase hcmd =>
    simp only [hphase, reduceCtorEq, false_and, false_or, true_and, false_iff, not_and]
    intro _ hfits
    cases (Announcement.command_eq_ok_iff.2 ⟨hfits, rfl⟩).symm.trans hcmd
  | traffic hcall => simp at hcall

/-- When a command is taken. -/
theorem process_eq_done_iff : (c.step (.process f)).1 = .done ↔
    c.phase = .awaitingWelcome ∧ f.data = Command.welcome ∨
      c.phase = .awaitingReady ∧ ∃ block peer, f.data = Command.ready ++ block ∧
        c.announcement.accept block = .ok peer := by
  constructor
  · intro hdone
    have hs := step_follows c (.process f)
    generalize (c.step (.process f)).1 = answer, (c.step (.process f)).2 = c' at hs hdone
    cases hs with
    | welcomed hphase hdata => exact .inl ⟨hphase, hdata⟩
    | readyTaken hphase hdata haccept => exact .inr ⟨hphase, _, _, hdata, haccept⟩
    | rejected _ _ | refused _ => cases hdone
    | traffic hcall => simp at hcall
  · rintro (⟨hphase, hdata⟩ | ⟨hphase, block, peer, hdata, haccept⟩)
    · rw [step, process_welcome (hdata.trans (List.append_nil _).symm), processWelcome, hphase]
      dsimp only
      rw [if_pos (congrArg List.length hdata)]
      rfl
    · rw [step, process_ready hdata, processReady, hphase]
      dsimp only
      rw [hdata, List.drop_left, haccept]
      rfl

/-- How a client refuses a command once its handshake is over. -/
def refusal (f : Frame) : Fault :=
  match Command.checkStructure f with
  | .error fault => fault
  | .ok () => .sequence .unexpected

theorem Refuses.fault_eq {fault : Fault} (h : Refuses c f fault) (hwaits : ¬ c.Waits) :
    fault = refusal f := by
  rw [refusal]
  cases h with
  | malformed hbad => rw [hbad]
  | unexpected hgood _ => rw [hgood]
  | welcomeBody hphase _ _ => exact absurd (.inl hphase) hwaits
  | unsuited hphase _ _ => exact absurd (.inr hphase) hwaits

/-- No call changes a client whose handshake is over. -/
theorem closed {σ : Type} (h : c.status ≠ .handshaking) :
    Mechanism.Closed refusal (.plain c : Mechanism σ) := by
  have hhello : c.phase ≠ .sendingHello := fun hphase => h (by rw [status, hphase])
  have hinitiate : c.phase ≠ .sendingInitiate := fun hphase => h (by rw [status, hphase])
  have hwaits : ¬ c.Waits := by
    rintro (hphase | hphase)
    all_goals exact h (by rw [status, hphase])
  apply Mechanism.closed_of_step
  intro call
  have hs := step_follows c call
  rw [mechanism_step]
  generalize (c.step call).1 = answer, (c.step call).2 = c' at hs
  cases hs with
  | hello hphase => exact absurd hphase hhello
  | initiate hphase _ | unwritable hphase _ => exact absurd hphase hinitiate
  | idle _ _ => rfl
  | welcomed hphase _ => exact absurd (.inl hphase) hwaits
  | readyTaken hphase _ _ => exact absurd (.inr hphase) hwaits
  | rejected hdue _ => exact absurd hdue hwaits
  | refused hrefuses =>
    rw [hrefuses.fault_eq hwaits]
    rfl
  | traffic hcall =>
    rw [Mechanism.closedAnswer_traffic hcall]
    rfl

end Passing

/-! ## The handshake in order -/

/-- What holds of a PLAIN handshake after calls. -/
structure Ordered {σ : Type} (options : SecurityOptions) (m : Mechanism σ) (calls : List Call) :
    Prop where
  /-- HELLO is given out first, then INITIATE, and each once. -/
  sent : m.sent calls <+: [options.hello, options.announced Command.initiate]
  /-- INITIATE follows HELLO and a WELCOME of exactly its name. -/
  initiate : ∀ before after,
    m.passages calls = before ++ .sent (options.announced Command.initiate) :: after →
      ∃ w : Frame, w.data = Command.welcome ∧ before = [.sent options.hello, .taken w]
  /-- A call for the next command gives out what is due. -/
  next_iff : ∀ f, ((m.after calls).step .next).1 = .frame f ↔
    m.passages calls = [] ∧ f = options.hello ∨
      (∃ w : Frame, w.data = Command.welcome ∧
          m.passages calls = [.sent options.hello, .taken w]) ∧
        f = options.announced Command.initiate ∧ options.Announceable
  /-- What is due is taken unless an ERROR has come. -/
  process_iff : ∀ f, ((m.after calls).step (.process f)).1 = .done ↔
    ¬ m.RejectedIn (Awaits options) calls ∧
      (AwaitsWelcome options (m.passages calls) ∧ f.data = Command.welcome ∨
        AwaitsReady options (m.passages calls) ∧ options.AcceptsReady f)
  ready_iff : (m.after calls).status = .ready ↔
    ∃ w f : Frame, w.data = Command.welcome ∧ options.AcceptsReady f ∧
      m.passages calls = [.sent options.hello, .taken w,
        .sent (options.announced Command.initiate), .taken f]
  error_iff : (m.after calls).status = .error ↔ m.RejectedIn (Awaits options) calls
  /-- A handshake that is over stays as it is. -/
  closed : (m.after calls).status ≠ .handshaking → Mechanism.Closed refusal (m.after calls)
  passes : Mechanism.Passes (m.after calls)

/-- What holds after calls follows from the commands that have passed. -/
theorem Follows.ordered {σ : Type} {options : SecurityOptions} {m : Mechanism σ}
    {calls : List Call} {c : PlainClient} (h : Follows options m calls c) :
    Ordered options m calls := by
  have hstep : ∀ call, (m.after calls).step call =
      ((c.step call).1, .plain (c.step call).2) := by
    intro call
    rw [h.after_eq, mechanism_step]
  have hstatus : (m.after calls).status = c.status := by
    rw [h.after_eq]
    rfl
  constructor
  case sent => exact h.course.sent_prefix
  case initiate => exact fun before after hps => h.course.before_initiate hps
  case next_iff =>
    intro f
    rw [hstep, next_eq_frame_iff, h.course.sendingHello_iff, h.course.sendingInitiate_iff,
      h.announcement_eq, PlainClient.hello, h.credentials_eq]
    rfl
  case process_iff =>
    intro f
    rw [hstep, process_eq_done_iff, h.course.awaitingWelcome_iff, h.course.awaitingReady_iff,
      h.announcement_eq, ← SecurityOptions.acceptsReady_iff, ← h.failed_iff]
    tauto
  case ready_iff =>
    rw [hstatus, ← h.course.ready_iff, status]
    cases c.phase <;> simp
  case error_iff =>
    rw [hstatus, ← h.failed_iff, status]
    cases c.phase <;> simp
  case closed =>
    intro hover
    rw [hstatus] at hover
    rw [h.after_eq]
    exact c.closed hover
  case passes =>
    intro call f hcall
    rw [hstep, hstatus]
    rcases hcall with rfl | rfl
    all_goals
      rw [step, Mechanism.ofFrame_passThrough, h.after_eq]

end PlainClient

end PeerLink
