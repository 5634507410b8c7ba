import Mathlib.Data.List.Induction
import PeerLink.Proofs.Mechanism.Runs
import PeerLink.Proofs.Metadata.Acceptance
import PeerLink.Proofs.Null.Rules

/-!
# The order of a NULL handshake

The READY of a side and the READY of its peer may pass in either order, each once. The commands that
have passed say what the side has sent and what its peer has said (`NullHandshake.Course`); one call
adds at most one of them (`NullHandshake.Course.step`). So after any calls the status can be read
from the commands (`NullHandshake.Follows.ordered`).
-/

set_option autoImplicit false

namespace PeerLink

open Mechanism (Call Answer Passage RejectedIn)

namespace NullHandshake

/-! ## Commands and states -/

/-- Nothing has been taken. -/
def Awaits (ps : List Passage) : Prop := ∀ f, .taken f ∉ ps

/-- The commands that have passed when a READY is sent or not and the peer has replied. -/
inductive Course (options : SecurityOptions) : List Passage → Bool → PeerReply → Prop
  | start : Course options [] false .awaited
  | sent : Course options [.sent (options.announced Command.ready)] true .awaited
  | taken {f : Frame} {peer : Properties} : options.AcceptsReady f →
      Course options [.taken f] false (.ready peer)
  | sentFirst {f : Frame} {peer : Properties} : options.AcceptsReady f →
      Course options [.sent (options.announced Command.ready), .taken f] true (.ready peer)
  | takenFirst {f : Frame} {peer : Properties} : options.AcceptsReady f →
      Course options [.taken f, .sent (options.announced Command.ready)] true (.ready peer)
  | failed : Course options [] false .failed
  | sentFailed : Course options [.sent (options.announced Command.ready)] true .failed

section Course

variable {options : SecurityOptions} {ps : List Passage} {sent : Bool} {reply : PeerReply}

/-- READY is given out once. -/
theorem Course.sent_prefix (h : Course options ps sent reply) :
    ps.filterMap Passage.sent? <+: [options.announced Command.ready] := by
  cases h with
  | _ => simp [List.filterMap_cons, Passage.sent?]

theorem Course.sent_iff (h : Course options ps sent reply) :
    sent = true ↔ .sent (options.announced Command.ready) ∈ ps := by
  cases h with
  | _ => simp

theorem Course.awaited_iff (h : Course options ps sent reply) :
    reply = .awaited ↔ Awaits ps ∧ reply ≠ .failed := by
  cases h with
  | _ => simp [Awaits]

theorem Course.ready_iff (h : Course options ps sent reply) :
    (sent = true ∧ ∃ peer, reply = .ready peer) ↔ ∃ f : Frame, options.AcceptsReady f ∧
      (ps = [.sent (options.announced Command.ready), .taken f] ∨
        ps = [.taken f, .sent (options.announced Command.ready)]) := by
  cases h with
  | sentFirst hf => simp [hf]
  | takenFirst hf => simp [hf]
  | _ => simp

end Course

/-! ## One call -/

section Step

variable {options : SecurityOptions} {ps : List Passage} {h h' : NullHandshake} {call : Call}
  {answer : Answer}

/-- A call adds the command that passes in it. -/
theorem Course.step (hcourse : Course options ps h.sent h.reply) (hs : Step h call answer h')
    (hown : h.announcement = .ofOptions options) :
    Course options (ps ++ (Passage.of? call answer).toList) h'.sent h'.reply := by
  cases hs with
  | ready hsent hreply _ =>
    dsimp only
    rw [hsent] at hcourse
    rw [hown]
    generalize h.reply = reply at hcourse hreply
    cases hcourse with
    | start => exact .sent
    | taken hf => exact .takenFirst hf
    | failed => exact absurd rfl hreply
  | readyTaken hreply hdata haccept =>
    rw [hreply] at hcourse
    rw [hown] at haccept
    have hf := SecurityOptions.acceptsReady_iff.2 ⟨_, _, hdata, haccept⟩
    dsimp only
    generalize h.sent = sent at hcourse
    cases hcourse with
    | start => exact .taken hf
    | sent => exact .sentFirst hf
  | rejected hreply _ =>
    rw [hreply] at hcourse
    rw [Passage.append_of?_eq_self (Passage.of?_failed _ _)]
    dsimp only
    generalize h.sent = sent at hcourse
    cases hcourse with
    | start => exact .failed
    | sent => exact .sentFailed
  | unwritable _ _ _ | refused _ =>
    rw [Passage.append_of?_eq_self (Passage.of?_failed _ _)]
    exact hcourse
  | idle _ =>
    rw [Passage.append_of?_eq_self rfl]
    exact hcourse
  | traffic hcall =>
    rw [Passage.append_of?_eq_self (Passage.of?_traffic hcall _)]
    exact hcourse

/-- An ERROR is not refused while a reply is awaited. -/
theorem Refuses.not_error {f : Frame} {fault : Fault} (hr : Refuses h f fault)
    (hname : f.isNamed Command.error = true) : h.reply ≠ .awaited := by
  intro hreply
  obtain ⟨body, hdata⟩ := Frame.isNamed_iff.1 hname
  cases hr with
  | answered hanswered => exact hanswered hreply
  | malformed _ hbad => cases (Command.checkStructure_of_name hdata (by decide)).symm.trans hbad
  | unknown _ _ _ hother => cases hname.symm.trans hother
  | unsuited _ hready _ =>
    have hother : f.isNamed Command.error = false := Command.isNamed_other hready fun _ => rfl
    cases hname.symm.trans hother

/-- A call makes a handshake fail exactly if it brings an ERROR while a reply is awaited. -/
theorem Step.failed_iff (hs : Step h call answer h') : h'.reply = .failed ↔ h.reply = .failed ∨
    ∃ f, call = .process f ∧ f.isNamed Command.error = true ∧ h.reply = .awaited := by
  cases hs with
  | ready _ _ _ | unwritable _ _ _ | idle _ => simp
  | readyTaken hreply hdata _ =>
    have hother : Frame.isNamed _ Command.error = false :=
      Command.isNamed_other hdata fun _ => rfl
    simp [hreply, hother]
  | rejected hreply hname => simp [hreply, hname]
  | refused hrefuses =>
    constructor
    · exact .inl
    · rintro (hfailed | ⟨f, hcall, hname, hreply⟩)
      · exact hfailed
      · cases hcall
        exact absurd hreply (hrefuses.not_error hname)
  | traffic hcall => rcases hcall with rfl | rfl <;> simp

end Step

/-! ## Any calls -/

section Follows

variable {σ : Type} {options : SecurityOptions} {m : Mechanism σ} {calls : List Call}
  {h : NullHandshake}

/-- Where a handshake with these options is after calls: its state is that of the commands that have
passed, and it has failed if an ERROR came when a reply was awaited. -/
structure Follows (options : SecurityOptions) (m : Mechanism σ) (calls : List Call)
    (h : NullHandshake) : Prop where
  after_eq : m.after calls = .null h
  announcement_eq : h.announcement = .ofOptions options
  course : Course options (m.passages calls) h.sent h.reply
  failed_iff : h.reply = .failed ↔ m.RejectedIn Awaits calls

theorem follows_start (options : SecurityOptions) :
    Follows options (.null (.start options) : Mechanism σ) [] (.start options) := by
  refine ⟨rfl, rfl, .start, ?_⟩
  simp [NullHandshake.start, RejectedIn, Mechanism.not_occurs_nil]

theorem Follows.concat (hf : Follows options m calls h) (call : Call) :
    Follows options m (calls ++ [call]) (h.step call).2 := by
  have hs := step_follows h call
  have hstep : (m.after calls).step call = ((h.step call).1, .null (h.step call).2) := by
    rw [hf.after_eq, mechanism_step]
  constructor
  · rw [Mechanism.after_concat, hstep]
  · rw [hs.announcement_eq, hf.announcement_eq]
  · rw [Mechanism.passages_concat, hstep]
    exact hf.course.step hs hf.announcement_eq
  · rw [hs.failed_iff, RejectedIn, Mechanism.occurs_concat, ← RejectedIn, ← hf.failed_iff]
    by_cases hreply : h.reply = .failed
    · simp [hreply]
    · simp only [hf.course.awaited_iff, hreply, ne_eq, not_false_eq_true, and_true]

/-- After any calls the state of a handshake is that of the commands that have passed. -/
theorem follows (options : SecurityOptions) (calls : List Call) :
    ∃ h, Follows options (.null (.start options) : Mechanism σ) calls h := by
  induction calls using List.reverseRecOn with
  | nil => exact ⟨_, follows_start options⟩
  | append_singleton calls call ih =>
    obtain ⟨h, hfollows⟩ := ih
    exact ⟨(h.step call).2, hfollows.concat call⟩

end Follows

/-! ## When commands pass -/

section Passing

variable {h : NullHandshake} {f : Frame}

/-- When a call for the next command gives a frame out. -/
theorem next_eq_frame_iff : (h.step .next).1 = .frame f ↔
    h.sent = false ∧ h.reply ≠ .failed ∧ f = h.announcement.written Command.ready ∧
      ∀ p ∈ h.announcement.properties, p.Fits := by
  have hs := step_follows h .next
  generalize (h.step .next).1 = answer, (h.step .next).2 = h' at hs
  cases hs with
  | ready hsent hreply hfits =>
    simp only [Answer.frame.injEq, hsent, true_and]
    exact ⟨fun heq => ⟨hreply, heq.symm, hfits⟩, fun hall => hall.2.1.symm⟩
  | unwritable hsent hreply hcmd =>
    simp only [reduceCtorEq, false_iff, not_and]
    intro _ _ _ hfits
    cases (Announcement.command_eq_ok_iff.2 ⟨hfits, rfl⟩).symm.trans hcmd
  | idle hover => rcases hover with hsent | hreply <;> simp [*]
  | traffic hcall => simp at hcall

/-- When a command is taken. -/
theorem process_eq_done_iff : (h.step (.process f)).1 = .done ↔
    h.reply = .awaited ∧ ∃ block peer, f.data = Command.ready ++ block ∧
      h.announcement.accept block = .ok peer := by
  constructor
  · intro hdone
    have hs := step_follows h (.process f)
    generalize (h.step (.process f)).1 = answer, (h.step (.process f)).2 = h' at hs hdone
    cases hs with
    | readyTaken hreply hdata haccept => exact ⟨hreply, _, _, hdata, haccept⟩
    | rejected _ _ | refused _ => cases hdone
    | traffic hcall => simp at hcall
  · rintro ⟨hreply, block, peer, hdata, haccept⟩
    rw [step_process_ready hreply hdata haccept]

theorem Refuses.fault_eq {fault : Fault} (hr : Refuses h f fault) (hreply : h.reply ≠ .awaited) :
    fault = .sequence .unexpected := by
  cases hr with
  | answered _ => rfl
  | malformed hawaited _ | unknown hawaited _ _ _ | unsuited hawaited _ _ =>
    exact absurd hawaited hreply

/-- No call changes a handshake that is over. -/
theorem closed {σ : Type} (hover : h.status ≠ .handshaking) :
    Mechanism.Closed (fun _ => .sequence .unexpected) (.null h : Mechanism σ) := by
  have hreply : h.reply ≠ .awaited := fun hawaited => hover (by rw [status, hawaited])
  have hsent : h.sent = true ∨ h.reply = .failed := by
    rw [status] at hover
    split at hover
    · next hfailed => exact .inr hfailed
    · next peer hready =>
      by_cases hsent : h.sent = true
      · exact .inl hsent
      · exact absurd (if_neg hsent) hover
    · exact absurd rfl hover
  apply Mechanism.closed_of_step
  intro call
  have hs := step_follows h call
  rw [mechanism_step]
  generalize (h.step call).1 = answer, (h.step call).2 = h' at hs
  cases hs with
  | ready hunsent hstanding _ | unwritable hunsent hstanding _ =>
    rcases hsent with hsent | hfailed
    · cases hsent.symm.trans hunsent
    · exact absurd hfailed hstanding
  | idle _ => rfl
  | readyTaken hawaited _ _ | rejected hawaited _ => exact absurd hawaited hreply
  | refused hrefuses =>
    rw [hrefuses.fault_eq hreply]
    rfl
  | traffic hcall =>
    rw [Mechanism.closedAnswer_traffic hcall]
    rfl

end Passing

/-! ## The handshake in order -/

/-- What holds of a NULL handshake after calls. -/
structure Ordered {σ : Type} (options : SecurityOptions) (m : Mechanism σ) (calls : List Call) :
    Prop where
  /-- At most one frame is given out, the READY of this side. -/
  sent : m.sent calls <+: [options.announced Command.ready]
  /-- READY is given out unless it has been or an ERROR has come. -/
  next_iff : ∀ f, ((m.after calls).step .next).1 = .frame f ↔
    .sent (options.announced Command.ready) ∉ m.passages calls ∧ ¬ m.RejectedIn Awaits calls ∧
      f = options.announced Command.ready ∧ options.Announceable
  /-- A READY that suits is taken unless one has been or an ERROR has come. -/
  process_iff : ∀ f, ((m.after calls).step (.process f)).1 = .done ↔
    Awaits (m.passages calls) ∧ ¬ m.RejectedIn Awaits calls ∧ options.AcceptsReady f
  /-- Both READY commands have passed, in either order. -/
  ready_iff : (m.after calls).status = .ready ↔ ∃ f : Frame, options.AcceptsReady f ∧
    (m.passages calls = [.sent (options.announced Command.ready), .taken f] ∨
      m.passages calls = [.taken f, .sent (options.announced Command.ready)])
  error_iff : (m.after calls).status = .error ↔ m.RejectedIn Awaits calls
  /-- A handshake that is over stays as it is. -/
  closed : (m.after calls).status ≠ .handshaking →
    Mechanism.Closed (fun _ => .sequence .unexpected) (m.after calls)
  passes : Mechanism.Passes (m.after calls)

/-- What holds after calls follows from the commands that have passed. -/
theorem Follows.ordered {σ : Type} {options : SecurityOptions} {m : Mechanism σ}
    {calls : List Call} {h : NullHandshake} (hf : Follows options m calls h) :
    Ordered options m calls := by
  have hstep : ∀ call, (m.after calls).step call = ((h.step call).1, .null (h.step call).2) := by
    intro call
    rw [hf.after_eq, mechanism_step]
  have hstatus : (m.after calls).status = h.status := by
    rw [hf.after_eq]
    rfl
  constructor
  case sent => exact hf.course.sent_prefix
  case next_iff =>
    intro f
    rw [hstep, next_eq_frame_iff, ← hf.course.sent_iff, ← hf.failed_iff, hf.announcement_eq,
      Bool.not_eq_true]
    rfl
  case process_iff =>
    intro f
    rw [hstep, process_eq_done_iff, hf.course.awaited_iff, hf.announcement_eq,
      ← SecurityOptions.acceptsReady_iff, ← hf.failed_iff, and_assoc]
  case ready_iff =>
    rw [hstatus, ← hf.course.ready_iff, status]
    cases h.reply <;> simp
  case error_iff =>
    rw [hstatus, ← hf.failed_iff, status]
    cases h.reply <;> cases h.sent <;> simp
  case closed =>
    intro hover
    rw [hstatus] at hover
    rw [hf.after_eq]
    exact h.closed hover
  case passes =>
    intro call f hcall
    rw [hstep, hstatus]
    rcases hcall with rfl | rfl
    all_goals
      rw [step, Mechanism.ofFrame_passThrough, hf.after_eq]

end NullHandshake

end PeerLink
