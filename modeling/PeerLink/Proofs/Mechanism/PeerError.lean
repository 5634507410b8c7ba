import PeerLink.Proofs.Mechanism.PeerSetOnce
import PeerLink.Proofs.Mechanism.Refusal

/-!
# The ERROR of a peer

Every mechanism that waits for its peer takes an ERROR command in the same way: it fails, and the
bytes behind the name say how (`Mechanism.process_error`). They say the peer's reason if they are
one length byte and as many bytes of reason, and are malformed otherwise
(`Command.faultOfError_append`). Whether a NULL or PLAIN mechanism waits can be told from the
commands that have passed (`Mechanism.Made.awaitsPeer_iff`).
-/

set_option autoImplicit false

namespace PeerLink

open Mechanism (Call)

/-! ## What an ERROR says -/

namespace Command

/-- Whether the body of an ERROR is one length byte and as many bytes of reason. -/
def IsReason (body reason : Bytes) : Prop :=
  ∃ size, body = size :: reason ∧ reason.length = size.toNat

/-- The text of a reason. The codes of authentication are marked as such. -/
def reasonText (reason : Bytes) : String :=
  if reason = Utf8.encode "300" then "status 300"
  else if reason = Utf8.encode "400" then "status 400"
  else if reason = Utf8.encode "500" then "status 500"
  else Utf8.lossy reason

theorem faultOfReason_eq (reason : Bytes) : faultOfReason reason = .rejected (reasonText reason) := by
  have h300 : Utf8.encode "300" = [0x33, 0x30, 0x30] := by decide
  have h400 : Utf8.encode "400" = [0x34, 0x30, 0x30] := by decide
  have h500 : Utf8.encode "500" = [0x35, 0x30, 0x30] := by decide
  rw [reasonText, h300, h400, h500]
  unfold faultOfReason
  split
  · next hundreds =>
    simp only [List.cons.injEq, and_true]
    -- only the first digit is left to tell the codes apart
    by_cases hcode : 0x33 ≤ hundreds ∧ hundreds ≤ 0x35
    · rw [if_pos hcode]
      have hvalues : hundreds = 0x33 ∨ hundreds = 0x34 ∨ hundreds = 0x35 := by
        simp only [UInt8.le_iff_toNat_le, ← UInt8.toNat_inj, UInt8.reduceToNat] at hcode ⊢
        omega
      rcases hvalues with rfl | rfl | rfl
      all_goals decide
    · have hother : hundreds ≠ 0x33 ∧ hundreds ≠ 0x34 ∧ hundreds ≠ 0x35 := by
        refine ⟨?_, ?_, ?_⟩
        all_goals
          rintro rfl
          exact hcode (by decide)
      rw [if_neg hcode, if_neg hother.1, if_neg hother.2.1, if_neg hother.2.2]
  · next hform =>
    rw [if_neg (hform _), if_neg (hform _), if_neg (hform _)]

/-- What the bytes behind the name ERROR say. -/
theorem faultOfError_append (body : Bytes) :
    (∀ reason, IsReason body reason →
      faultOfError (error ++ body) = .rejected (reasonText reason)) ∧
    ((¬ ∃ reason, IsReason body reason) → faultOfError (error ++ body) =
      .malformed (if body = [] then .errorTooShort else .errorLength)) := by
  rw [faultOfError, List.drop_left]
  constructor
  · rintro reason ⟨size, rfl, hlength⟩
    dsimp only
    rw [if_pos hlength, faultOfReason_eq]
  · intro hnone
    cases body with
    | nil => rfl
    | cons size reason => exact if_neg fun hlength => hnone ⟨reason, size, rfl, hlength⟩

end Command

/-! ## Every mechanism -/

section Awaited

variable {f : Frame} {body : Bytes}

theorem NullHandshake.process_awaited_error {h : NullHandshake} (hreply : h.reply = .awaited)
    (hdata : f.data = Command.error ++ body) :
    h.process f = (.error (Command.faultOfError f.data), { h with reply := .failed }) := by
  have hready : f.isNamed Command.ready = false := Command.isNamed_other hdata fun _ => rfl
  rw [process, hreply]
  dsimp only
  -- the structure is checked before the name, and a whole name passes
  rw [Command.checkStructure_of_name hdata (by decide)]
  dsimp only
  rw [if_neg (ne_true_of_eq_false hready), if_pos (Frame.isNamed_iff.2 ⟨_, hdata⟩)]

theorem PlainClient.process_awaited_error {c : PlainClient} (hwaits : c.Waits)
    (hdata : f.data = Command.error ++ body) :
    c.process f = (.error (Command.faultOfError f.data), { c with phase := .failed }) := by
  rw [process_error hdata, processError]
  rcases hwaits with hphase | hphase
  all_goals rw [hphase]

/-- A client that has not failed looks for an ERROR before anything else. -/
theorem Gssapi.Client.process_awaited_error {σ : Type} {c : Gssapi.Client σ}
    (hfailed : c.failed = false) (hphase : c.phase = .recvNextToken ∨ c.phase = .recvReady)
    (hdata : f.data = Command.error ++ body) :
    c.process f = c.fail (Command.faultOfError f.data) := by
  have hname : f.isNamed Command.error = true := Frame.isNamed_iff.2 ⟨_, hdata⟩
  rw [process, if_neg (ne_true_of_eq_false hfailed)]
  rcases hphase with hphase | hphase
  all_goals
    rw [hphase]
    exact if_pos hname

end Awaited

namespace Mechanism

variable {σ : Type} {options : SecurityOptions} {m : Mechanism σ} {calls : List Call} {f : Frame}
  {body : Bytes}

/-- A mechanism that waits for its peer fails with what an ERROR says. -/
theorem process_error (hawaits : m.AwaitsPeer) (hdata : f.data = Command.error ++ body) :
    (m.process f).1 = .error (Command.faultOfError (Command.error ++ body)) ∧
      (m.process f).2.status = .error := by
  rw [← hdata]
  cases m with
  | null own =>
    rw [process, NullHandshake.process_awaited_error hawaits hdata]
    exact ⟨rfl, rfl⟩
  | plain c =>
    rw [process, PlainClient.process_awaited_error hawaits hdata]
    exact ⟨rfl, rfl⟩
  | gssapi c =>
    rw [process, Gssapi.Client.process_awaited_error hawaits.1 hawaits.2 hdata]
    exact ⟨rfl, rfl⟩

/-! ## Waiting for the peer -/

/-- Whether the peer's next command is due after calls. For NULL and PLAIN the commands that have
passed tell. -/
def WaitsAfter (options : SecurityOptions) (calls : List Call) (m : Mechanism σ) : Prop :=
  match m with
  | null _ => NullHandshake.Awaits (m.passages calls) ∧ ¬ m.RejectedIn NullHandshake.Awaits calls
  | plain _ => PlainClient.Awaits options (m.passages calls) ∧
      ¬ m.RejectedIn (PlainClient.Awaits options) calls
  | gssapi _ => (m.after calls).AwaitsPeer

theorem Made.awaitsPeer_iff (h : Made options m) (calls : List Call) :
    (m.after calls).AwaitsPeer ↔ m.WaitsAfter options calls := by
  cases h with
  | null =>
    obtain ⟨own, hfollows⟩ := NullHandshake.follows (σ := σ) options calls
    rw [WaitsAfter, ← hfollows.failed_iff, hfollows.after_eq]
    exact hfollows.course.awaited_iff
  | plain hstart =>
    obtain ⟨c, hfollows⟩ := PlainClient.follows (σ := σ) hstart calls
    rw [WaitsAfter, ← hfollows.failed_iff, hfollows.after_eq]
    change c.Waits ↔ _
    -- the commands that have passed do not tell of an ERROR
    by_cases hphase : c.phase = .failed
    · simp [PlainClient.Waits, hphase]
    · rw [hfollows.course.waits_iff hphase, and_iff_left hphase]
  | gssapi _ => exact Iff.rfl

/-! ## ERROR commands are reported alike -/

/-- How a mechanism takes an ERROR with this body. -/
structure ReportsError (m : Mechanism σ) (f : Frame) (body : Bytes) : Prop where
  status_eq : (m.process f).2.status = .error
  /-- The peer is said to reject exactly if the body is a reason; -/
  rejected_iff : (∃ text, (m.process f).1 = .error (.rejected text)) ↔
    ∃ reason, Command.IsReason body reason
  /-- the fault has the text of that reason. -/
  rejected : ∀ reason, Command.IsReason body reason →
    (m.process f).1 = .error (.rejected (Command.reasonText reason))
  /-- Any other body is malformed. -/
  malformed : (¬ ∃ reason, Command.IsReason body reason) →
    (m.process f).1 = .error (.malformed (if body = [] then .errorTooShort else .errorLength))

/-- Whatever was called before, a mechanism that the library makes and that waits for its peer fails
with what an ERROR says. -/
theorem errors_reported_alike (h : Made options m) (hwaits : m.WaitsAfter options calls)
    (hdata : f.data = Command.error ++ body) : ReportsError (m.after calls) f body := by
  obtain ⟨hfault, hstatus⟩ := process_error ((h.awaitsPeer_iff calls).2 hwaits) hdata
  obtain ⟨hrejected, hmalformed⟩ := Command.faultOfError_append body
  refine ⟨hstatus, ⟨?_, ?_⟩, ?_, ?_⟩
  · rintro ⟨text, htext⟩
    by_contra hnone
    rw [hfault, hmalformed hnone] at htext
    cases htext
  · rintro ⟨reason, hreason⟩
    exact ⟨_, hfault.trans (congrArg _ (hrejected reason hreason))⟩
  · exact fun reason hreason => hfault.trans (congrArg _ (hrejected reason hreason))
  · exact fun hnone => hfault.trans (congrArg _ (hmalformed hnone))

/-- A code of authentication for NULL, a body that is too long for PLAIN, and for GSSAPI a reason
that is no text. -/
theorem errors_reported_alike_each :
    let null : Mechanism Unit := .null (.start {})
    let plain : Mechanism Unit := .plain loginClient
    let gssapi := Mechanism.gssapi (Gssapi.Client.sample false [.ok (.continueNeeded [1])])
    let brings (body : Bytes) : Frame := .ofCommand (Command.error ++ body)
    ((null.after [.next]).process (brings [3, 0x34, 0x30, 0x30])).1 =
        .error (.rejected "status 400") ∧
      ((plain.after [.next]).process (brings [1, 0x6e, 0x6f])).1 =
        .error (.malformed .errorLength) ∧
      ((gssapi.after [.next]).process (brings [1, 0xff])).1 = .error (.rejected "\uFFFD") := by
  intro null plain gssapi brings
  have hnull : Made {} null := .null
  have hplain : Made loginOptions plain := .plain (by decide +kernel)
  have hgssapi := Made.gssapi (Gssapi.Client.built_sample false [.ok (.continueNeeded [1])])
  have hlogin : ¬ ∃ reason, Command.IsReason [1, 0x6e, 0x6f] reason := by
    rintro ⟨reason, size, hbody, hlength⟩
    obtain ⟨rfl, rfl⟩ := List.cons.inj hbody
    cases hlength
  refine ⟨?_, ?_, ?_⟩
  · have hwaits := (hnull.awaitsPeer_iff [.next]).1 rfl
    exact (errors_reported_alike hnull hwaits rfl).rejected [0x34, 0x30, 0x30] ⟨3, rfl, rfl⟩
  · have hwaits := (hplain.awaitsPeer_iff [.next]).1 (.inl (by decide +kernel))
    exact (errors_reported_alike hplain hwaits rfl).malformed hlogin
  · have hwaits := (hgssapi.awaitsPeer_iff [.next]).1 ⟨by decide +kernel, .inl (by decide +kernel)⟩
    exact (errors_reported_alike hgssapi hwaits rfl).rejected [0xff] ⟨1, rfl, rfl⟩

end Mechanism

end PeerLink
