import PeerLink.Proofs.Gssapi.Blame
import PeerLink.Proofs.Gssapi.Construction
import PeerLink.Proofs.Mechanism.PeerSetOnce
import PeerLink.Proofs.Metadata.Interoperation

/-!
# Validated options make dependable mechanisms

The validation of options and the code that relies on it are apart: mechanisms are made, and their
commands written, without a look at what was validated. Validated options make a mechanism
(`SecurityOptions.Validated.exists_mechanism`) that never fails to give a command, unless the
security context gave it a reason (`Mechanism.dependable`).
-/

set_option autoImplicit false

namespace PeerLink

open Mechanism (Call Answer)

/-! ## What validation says of the mechanism -/

namespace SecurityOptions

variable {σ : Type} {s : SecurityOptions}

theorem Validated.ofMechanism (h : s.Validated) :
    ∀ problem ∈ s.mechanismProblems, problem = .plaintextWarning := by
  intro problem hproblem
  apply h
  exact List.mem_append_right _ hproblem

/-- Validated credentials have no problem, as the warning is not about them. -/
theorem Validated.plain (h : s.Validated) (hmechanism : s.mechanism = .plain) :
    s.plain.problems = [] := by
  have hproblems := h.ofMechanism
  rw [mechanismProblems, hmechanism] at hproblems
  dsimp only at hproblems
  rw [List.eq_nil_iff_forall_not_mem]
  intro problem hmem
  rw [hproblems problem hmem, Credentials.problems, List.mem_append] at hmem
  rcases hmem with hmem | hmem
  · simp at hmem
  · simp at hmem

/-- A validated service has a name. -/
theorem Validated.servicePrincipal (h : s.Validated) (hmechanism : s.mechanism = .gssapi) :
    s.gssapi.servicePrincipal ≠ "" := by
  have hproblems := h.ofMechanism
  rw [mechanismProblems, hmechanism] at hproblems
  intro hempty
  cases hproblems .emptyServicePrincipal (by simp [GssapiOptions.problems, problemIf, hempty])

/-- Validated identifiers are identifiers. -/
theorem Validated.isOidText (h : s.Validated) (hmechanism : s.mechanism = .gssapi) {text : String}
    (htext : text ∈ s.gssapi.mechanisms) : Gssapi.IsOidText text := by
  have hproblems := h.ofMechanism
  rw [mechanismProblems, hmechanism] at hproblems
  by_contra hnot
  have hdotted : Gssapi.isDotted text = false := by
    rw [← Bool.not_eq_true, Gssapi.isDotted_iff]
    exact hnot
  have hmem : Problem.invalidOid text ∈ s.gssapi.problems := by
    apply List.mem_append_left
    apply List.mem_append_right
    refine List.mem_flatMap.2 ⟨text, htext, ?_⟩
    rw [hdotted]
    exact List.mem_singleton_self _
  cases hproblems _ hmem

/-- Validated options make a mechanism, if there is a security context where one is needed. -/
theorem Validated.exists_mechanism {context : Option (Gssapi.SecurityContext σ × σ)}
    (h : s.Validated) (hcontext : s.mechanism = .gssapi → context.isSome = true) :
    ∃ m, Mechanism.ofOptions s context = .ok m := by
  unfold Mechanism.ofOptions
  cases hmechanism : s.mechanism with
  | null => exact ⟨_, rfl⟩
  | plain =>
    rw [PlainClient.start, if_pos (h.plain hmechanism)]
    exact ⟨_, rfl⟩
  | gssapi =>
    obtain ⟨⟨own, session⟩, rfl⟩ := Option.isSome_iff_exists.1 (hcontext hmechanism)
    have hstart : ∃ c, Gssapi.Client.start s own session = .ok c := by
      apply Gssapi.Client.exists_withServiceName_iff.2
      exact ⟨h.servicePrincipal hmechanism, fun _ => h.isOidText hmechanism⟩
    obtain ⟨c, hc⟩ := hstart
    dsimp only
    rw [hc]
    exact ⟨_, rfl⟩

end SecurityOptions

/-! ## Commands that can be written -/

theorem NullHandshake.next_of_fits {h : NullHandshake}
    (hfits : ∀ p ∈ h.announcement.properties, p.Fits) (fault : Fault) :
    (h.step .next).1 ≠ .failed fault := by
  have hstep := step_follows h .next
  generalize (h.step .next).1 = answer, (h.step .next).2 = h' at hstep ⊢
  rintro rfl
  generalize hanswer : Answer.failed fault = answer at hstep
  cases hstep with
  | ready _ _ _ | idle _ => cases hanswer
  | unwritable _ _ hcmd =>
    cases (Announcement.command_eq_ok_iff.2 ⟨hfits, rfl⟩).symm.trans hcmd
  | traffic hcall => simp at hcall

theorem PlainClient.next_of_fits {c : PlainClient}
    (hfits : ∀ p ∈ c.announcement.properties, p.Fits) (fault : Fault) :
    (c.step .next).1 ≠ .failed fault := by
  have hstep := step_follows c .next
  generalize (c.step .next).1 = answer, (c.step .next).2 = c' at hstep ⊢
  rintro rfl
  generalize hanswer : Answer.failed fault = answer at hstep
  cases hstep with
  | hello _ | initiate _ _ | idle _ _ => cases hanswer
  | unwritable _ hcmd =>
    cases (Announcement.command_eq_ok_iff.2 ⟨hfits, rfl⟩).symm.trans hcmd
  | traffic hcall => simp at hcall

namespace Mechanism

variable {σ : Type} {options : SecurityOptions} {m : Mechanism σ}

/-- Without a security context, a mechanism whose properties can be written gives every command that
is due. -/
theorem next_of_fits (hname : m.name ≠ .gssapi) (hfits : ∀ p ∈ m.announcement.properties, p.Fits)
    (fault : Fault) : (m.step .next).1 ≠ .failed fault := by
  cases m with
  | null h =>
    rw [NullHandshake.mechanism_step]
    exact NullHandshake.next_of_fits hfits fault
  | plain c =>
    rw [PlainClient.mechanism_step]
    exact PlainClient.next_of_fits hfits fault
  | gssapi c => exact absurd rfl hname

theorem name_of_ofOptions {context : Option (Gssapi.SecurityContext σ × σ)}
    (h : ofOptions options context = .ok m) : m.name = options.mechanism := by
  unfold ofOptions at h
  split at h
  · next hmechanism =>
    cases h
    exact hmechanism.symm
  · next hmechanism =>
    obtain ⟨c, -, rfl⟩ := Endpoint.map_eq_ok h
    exact hmechanism.symm
  · next hmechanism =>
    split at h
    · cases h
    · obtain ⟨c, -, rfl⟩ := Endpoint.map_eq_ok h
      exact hmechanism.symm

/-! ## Dependable mechanisms -/

/-- Validated options make a mechanism that does not fail for reasons of its own: whatever has been
received and whatever the security context has answered, a NULL or PLAIN handshake never fails to
give a command, and a GSSAPI handshake only where the last answer of the context is to blame. -/
theorem dependable {context : Option (Gssapi.SecurityContext σ × σ)} (h : options.Validated)
    (hvalues : ∀ entry ∈ options.metadata.entries, entry.2.utf8ByteSize < Bytes.wordLimit)
    (hcontext : options.mechanism = .gssapi → context.isSome = true) :
    ∃ m, ofOptions options context = .ok m ∧ m.name = options.mechanism ∧
      (options.mechanism ≠ .gssapi →
        ∀ calls fault, ((m.after calls).step .next).1 ≠ .failed fault) ∧
      ∀ c, m = .gssapi c → ∀ calls fault, ((m.after calls).step .next).1 = .failed fault →
        Gssapi.Blamed fault (c.history (calls ++ [.next])) := by
  obtain ⟨m, hm⟩ := h.exists_mechanism hcontext
  have hmade := made_of_ofOptions hm
  have hname := name_of_ofOptions hm
  have hfits := h.fits hvalues
  refine ⟨m, hm, hname, ?_, ?_⟩
  · intro hother calls
    apply next_of_fits
    · rw [name_after, hname]
      exact hother
    · rw [(hmade.informed calls).announcement_eq]
      exact hfits
  · rintro c rfl calls fault hfault
    cases hmade with
    | gssapi hbuilt =>
      apply hbuilt.blamed_next hfits
      rw [after, Gssapi.Client.mechanism_run, Gssapi.Client.mechanism_step] at hfault
      exact hfault

/-- Options of a GSSAPI client that pass validation. -/
def sampleOptions : SecurityOptions :=
  { mechanism := .gssapi, gssapi := { servicePrincipal := "zmtp" } }

theorem dependable_sample : sampleOptions.problems = [] ∧
    ∃ c, ofOptions sampleOptions (some (Gssapi.Client.scripted, [])) = .ok (.gssapi c) ∧
      ((Mechanism.gssapi c).step .next).1 = .failed (.context (.initialisation ⟨0, 0, ""⟩)) ∧
      Gssapi.Blamed (.context (.initialisation ⟨0, 0, ""⟩)) (c.history [.next]) := by
  have hproblems : sampleOptions.problems = [] := by decide
  have hvalidated : sampleOptions.Validated := by
    intro problem hproblem
    rw [hproblems] at hproblem
    cases hproblem
  obtain ⟨m, hm, -, -, hblamed⟩ := @dependable _ _ (some (Gssapi.Client.scripted, []))
    hvalidated (by decide) (fun _ => rfl)
  have hmade : ∃ c, ofOptions sampleOptions (some (Gssapi.Client.scripted, [])) = .ok (.gssapi c) ∧
      ((Mechanism.gssapi c).step .next).1 = .failed (.context (.initialisation ⟨0, 0, ""⟩)) :=
    ⟨_, rfl, rfl⟩
  obtain ⟨c, hc, hfailed⟩ := hmade
  cases hm.symm.trans hc
  exact ⟨hproblems, c, hc, hfailed, hblamed c rfl [] _ hfailed⟩

end Mechanism

end PeerLink
