import PeerLink.Proofs.Null.Agreement

/-!
# What a call of a NULL handshake can do

`NullHandshake.Step` lists, rule by rule, what one call answers and in what state it leaves the
handshake, and every call follows a rule (`NullHandshake.step_follows`). Nothing is taken in once
the peer has sent its READY or an ERROR.
-/

set_option autoImplicit false

namespace PeerLink

open Mechanism (Call Answer)

namespace NullHandshake

/-! ## The rules -/

/-- Why a command is refused. -/
inductive Refuses (h : NullHandshake) (f : Frame) : Fault → Prop
  | answered : h.reply ≠ .awaited → Refuses h f (.sequence .unexpected)
  | malformed {fault : Fault} : h.reply = .awaited → Command.checkStructure f = .error fault →
      Refuses h f fault
  | unknown : h.reply = .awaited → Command.checkStructure f = .ok () →
      f.isNamed Command.ready = false → f.isNamed Command.error = false →
      Refuses h f (.sequence .unexpected)
  | unsuited {block : Bytes} {fault : Fault} : h.reply = .awaited →
      f.data = Command.ready ++ block → h.announcement.accept block = .error fault →
      Refuses h f fault

/-- One call of a handshake: the call, its answer and the handshake after it. -/
inductive Step (h : NullHandshake) : Call → Answer → NullHandshake → Prop
  | ready : h.sent = false → h.reply ≠ .failed → (∀ p ∈ h.announcement.properties, p.Fits) →
      Step h .next (.frame (h.announcement.written Command.ready)) { h with sent := true }
  | unwritable {fault : Fault} : h.sent = false → h.reply ≠ .failed →
      h.announcement.command Command.ready = .error fault → Step h .next (.failed fault) h
  | idle : h.sent = true ∨ h.reply = .failed → Step h .next .nothing h
  | readyTaken {f : Frame} {block : Bytes} {peer : Properties} : h.reply = .awaited →
      f.data = Command.ready ++ block → h.announcement.accept block = .ok peer →
      Step h (.process f) .done { h with reply := .ready peer }
  | rejected {f : Frame} : h.reply = .awaited → f.isNamed Command.error = true →
      Step h (.process f) (.failed (Command.faultOfError f.data)) { h with reply := .failed }
  | refused {f : Frame} {fault : Fault} : Refuses h f fault →
      Step h (.process f) (.failed fault) h
  | traffic {f : Frame} {call : Call} : call = .encode f ∨ call = .decode f →
      Step h call (.ofFrame (Mechanism.passThrough h.status f)) h

/-- What a side tells does not change. -/
theorem Step.announcement_eq {h h' : NullHandshake} {call : Call} {answer : Answer}
    (hs : Step h call answer h') : h'.announcement = h.announcement := by
  cases hs with
  | _ => rfl

/-! ## Every call follows a rule -/

section Follows

variable {f : Frame} {body : Bytes}

theorem next_follows (h : NullHandshake) : Step h .next (h.step .next).1 (h.step .next).2 := by
  cases hsent : h.sent with
  | true =>
    rw [step_next_of_sent hsent]
    exact .idle (.inl hsent)
  | false =>
    by_cases hreply : h.reply = .failed
    · rw [step, next, if_pos (.inr hreply)]
      exact .idle (.inr hreply)
    · cases hcmd : h.announcement.command Command.ready with
      | error fault =>
        rw [step_next_of_unwritable hsent hreply hcmd]
        exact .unwritable hsent hreply hcmd
      | ok f =>
        rw [step_next_of_unsent hsent hreply hcmd]
        obtain ⟨hfits, rfl⟩ := Announcement.command_eq_ok_iff.1 hcmd
        exact .ready hsent hreply hfits

/-- The peer has answered, so nothing more is taken in. -/
theorem process_of_answered {h : NullHandshake} (hreply : h.reply ≠ .awaited) :
    h.process f = (.error (.sequence .unexpected), h) := by
  rw [process]
  split
  · next hawaited => exact absurd hawaited hreply
  · rfl

theorem ready_follows {h : NullHandshake} (hreply : h.reply = .awaited)
    (hdata : f.data = Command.ready ++ body) :
    Step h (.process f) (h.step (.process f)).1 (h.step (.process f)).2 := by
  cases haccept : h.announcement.accept body with
  | ok peer =>
    rw [step_process_ready hreply hdata haccept]
    exact .readyTaken hreply hdata haccept
  | error fault =>
    have hprocess : h.process f = (.error fault, h) := by
      rw [process, hreply]
      dsimp only
      rw [Command.checkStructure_of_ready hdata]
      dsimp only
      rw [if_pos (Frame.isNamed_iff.2 ⟨_, hdata⟩), hdata, List.drop_left, haccept]
    rw [step, hprocess]
    exact .refused (.unsuited hreply hdata haccept)

theorem process_follows (h : NullHandshake) (f : Frame) :
    Step h (.process f) (h.step (.process f)).1 (h.step (.process f)).2 := by
  by_cases hreply : h.reply = .awaited
  · by_cases hready : f.isNamed Command.ready = true
    · obtain ⟨body, hdata⟩ := Frame.isNamed_iff.1 hready
      exact ready_follows hreply hdata
    rw [step, process, hreply]
    dsimp only
    cases hname : Command.checkStructure f with
    | error fault => exact .refused (.malformed hreply hname)
    | ok done =>
      dsimp only
      rw [if_neg hready]
      by_cases herror : f.isNamed Command.error = true
      · rw [if_pos herror]
        exact .rejected hreply herror
      · rw [if_neg herror]
        exact .refused (.unknown hreply hname (eq_false_of_ne_true hready)
          (eq_false_of_ne_true herror))
  · rw [step, process_of_answered hreply]
    exact .refused (.answered hreply)

/-- Every call follows a rule. -/
theorem step_follows (h : NullHandshake) (call : Call) :
    Step h call (h.step call).1 (h.step call).2 := by
  cases call with
  | next => exact next_follows h
  | process f => exact process_follows h f
  | encode f => exact .traffic (.inl rfl)
  | decode f => exact .traffic (.inr rfl)

end Follows

end NullHandshake

end PeerLink
