import PeerLink.Proofs.Gssapi.Recording

/-!
# Altered messages are found out

A protected message is recovered exactly if its bytes are the name, the length of a token and the
token, and the context takes the token for an encrypted one that holds the flags at least; all else
is a fault of integrity (`Gssapi.recoversExactly`). The framing determines the token
(`Gssapi.Encloses.unique`), so a frame with other bytes than the one that was sent never hands the
genuine token to the context (`Gssapi.alteration_found`).
-/

set_option autoImplicit false

namespace PeerLink.Gssapi

variable {σ : Type} {context : SecurityContext σ} {f g : Frame} {state : σ} {token other : Bytes}

/-! ## The framing -/

/-- A frame consists of the name MESSAGE, the length of a token in four bytes, and the token. -/
def Encloses (f : Frame) (token : Bytes) : Prop :=
  f.data = framed Command.message token ∧ token.length < Bytes.wordLimit

theorem encloses_iff : Encloses f token ↔ readToken? Command.message f = some token :=
  readToken?_eq_some_iff.symm

/-- The bytes of a frame enclose one token at most. -/
theorem Encloses.unique (h : Encloses f token) (h' : Encloses f other) : token = other :=
  Option.some.inj ((encloses_iff.1 h).symm.trans (encloses_iff.1 h'))

/-- Frames that enclose the same token have the same bytes. -/
theorem Encloses.data_eq (h : Encloses f token) (h' : Encloses g token) : f.data = g.data :=
  h.1.trans h'.1.symm

/-! ## One recovery -/

/-- The primitives that the recovery of a frame calls, with their answers. -/
def recoveryCalls (context : SecurityContext σ) (f : Frame) (state : σ) : List ContextCall :=
  (decodeMessage context.recording f (state, [])).2.2

theorem Client.Transforms.recoveryCalls_eq {result : Except Fault Frame} {made : List ContextCall}
    {next : σ} (h : Transforms context (.decode f) state result made next) :
    recoveryCalls context f state = made := by
  rw [recoveryCalls, h.withLog.decode_eq, List.nil_append]

/-- The context decides on the token that a frame encloses. -/
theorem recovery_of_encloses (context : SecurityContext σ) (state : σ) (h : Encloses f token) :
    (decodeMessage context f state).1 = opened (context.unwrap token state).1 ∧
      recoveryCalls context f state = [.unwrap token (context.unwrap token state).1] := by
  have hrecover := Client.Transforms.recover (encloses_iff.1 h)
    (rfl : context.unwrap token state = _)
  rw [hrecover.decode_eq]
  exact ⟨rfl, hrecover.recoveryCalls_eq⟩

/-- Without a token the context is left alone. -/
theorem recovery_of_not_encloses (context : SecurityContext σ) (state : σ)
    (h : ∀ token, ¬ Encloses f token) :
    decodeMessage context f state = (.error (.integrity .framing), state) ∧
      recoveryCalls context f state = [] := by
  have hread : readToken? Command.message f = none :=
    Option.eq_none_iff_forall_ne_some.2 fun token hread => h token (encloses_iff.2 hread)
  have hmisframed : Client.Transforms context (.decode f) state _ [] state := .misframed hread
  exact ⟨hmisframed.decode_eq, hmisframed.recoveryCalls_eq⟩

theorem exists_encloses_or (f : Frame) :
    (∃ token, Encloses f token) ∨ ∀ token, ¬ Encloses f token :=
  (Classical.em _).imp id not_exists.1

/-- An answer that gives no frame is a fault of integrity. -/
theorem exists_of_opened_eq_error {answer : Except LibraryFailure Unwrapped} {fault : Fault}
    (h : opened answer = .error fault) : ∃ cause, fault = .integrity cause := by
  unfold opened ofUnwrapped at h
  split at h
  · cases h
    exact ⟨_, rfl⟩
  · split at h
    · -- an encrypted token must hold the flags at least
      split at h
      · cases h
      · cases h
        exact ⟨_, rfl⟩
    · cases h
      exact ⟨_, rfl⟩

/-- What the recovery of a frame answers, and when it calls the context. -/
structure RecoversExactly (context : SecurityContext σ) (f : Frame) (state : σ) : Prop where
  /-- A frame is recovered if it was held by the encrypted token that is enclosed, -/
  ok_iff : ∀ m, (decodeMessage context f state).1 = .ok m ↔
    ∃ token flags payload, Encloses f token ∧
      (context.unwrap token state).1 = .ok ⟨flags :: payload, true⟩ ∧ m = .ofParts payload flags
  /-- and otherwise integrity is at fault. -/
  fault : ∀ fault, (decodeMessage context f state).1 = .error fault →
    ∃ cause, fault = .integrity cause
  /-- The context is called for the token of an exact framing -/
  called : ∀ token, Encloses f token →
    recoveryCalls context f state = [.unwrap token (context.unwrap token state).1]
  /-- and not at all without one. -/
  uncalled : (∀ token, ¬ Encloses f token) → recoveryCalls context f state = []

theorem recoversExactly (context : SecurityContext σ) (f : Frame) (state : σ) :
    RecoversExactly context f state := by
  rcases exists_encloses_or f with ⟨token, hf⟩ | hnone
  · obtain ⟨hresult, hcalls⟩ := recovery_of_encloses context state hf
    refine ⟨fun m => ?_, fun fault hfault => ?_, ?_, fun hnone => absurd hf (hnone token)⟩
    · rw [hresult, opened_eq_ok_iff]
      constructor
      · rintro ⟨flags, payload, hanswer, hm⟩
        exact ⟨token, flags, payload, hf, hanswer, hm⟩
      · rintro ⟨other, flags, payload, hother, hanswer, hm⟩
        rw [← hf.unique hother] at hanswer
        exact ⟨flags, payload, hanswer, hm⟩
    · rw [hresult] at hfault
      exact exists_of_opened_eq_error hfault
    · intro other hother
      rw [← hf.unique hother]
      exact hcalls
  · obtain ⟨hresult, hcalls⟩ := recovery_of_not_encloses context state hnone
    refine ⟨fun m => ?_, fun fault hfault => ?_, fun token hf => absurd hf (hnone token),
      fun _ => hcalls⟩
    · rw [hresult]
      constructor
      · intro h
        cases h
      · rintro ⟨token, _, _, hf, -⟩
        exact absurd hf (hnone token)
    · rw [hresult] at hfault
      cases hfault
      exact ⟨_, rfl⟩

/-! ## Alterations -/

/-- What becomes of a frame in the place of one that encloses a genuine token. -/
structure FindsAlteration (context : SecurityContext σ) (f : Frame) (state : σ) (token : Bytes) :
    Prop where
  /-- Integrity is at fault before the context is called, or the context is called for another
  token. -/
  calls : (∃ cause, (decodeMessage context f state).1 = .error (.integrity cause)) ∧
      recoveryCalls context f state = [] ∨
    ∃ other, other ≠ token ∧
      recoveryCalls context f state = [.unwrap other (context.unwrap other state).1]
  /-- A context that takes no other token for an encrypted one leaves nothing but the fault. -/
  fault : (∀ other, other ≠ token → ∀ u, (context.unwrap other state).1 = .ok u →
      u.confidential = false) →
    ∃ cause, (decodeMessage context f state).1 = .error (.integrity cause)

/-- A frame that does not enclose a token is not taken for one that does. -/
theorem findsAlteration (h : ¬ Encloses f token) : FindsAlteration context f state token := by
  have hexact := recoversExactly context f state
  refine ⟨?_, fun hrefuses => ?_⟩
  · rcases exists_encloses_or f with ⟨other, hf⟩ | hnone
    · refine .inr ⟨other, ?_, hexact.called other hf⟩
      rintro rfl
      exact h hf
    · rw [(recovery_of_not_encloses context state hnone).1]
      exact .inl ⟨⟨_, rfl⟩, hexact.uncalled hnone⟩
  · cases hresult : (decodeMessage context f state).1 with
    | error fault =>
      obtain ⟨cause, rfl⟩ := hexact.fault fault hresult
      exact ⟨cause, rfl⟩
    | ok m =>
      -- the frame encloses an encrypted token, which is the genuine one then
      obtain ⟨other, flags, payload, hf, hanswer, -⟩ := (hexact.ok_iff m).1 hresult
      have hother : other ≠ token := by
        rintro rfl
        exact h hf
      cases hrefuses other hother _ hanswer

/-- A protected frame encloses its token. -/
theorem encloses_of_encodeMessage {m : Frame} (hwrap : (context.wrap (plaintextOf m) true state).1 =
    .ok token) (h : (encodeMessage context m state).1 = .ok f) : Encloses f token := by
  rw [encodeMessage_eq rfl, hwrap] at h
  dsimp only at h
  obtain ⟨own, hown, hlen, rfl⟩ := sealed_eq_ok_iff.1 h
  cases hown
  exact ⟨rfl, hlen⟩

/-- The recovery of a frame is exact, and whatever is altered in the bytes of a protected frame is
found out. -/
theorem alteration_found (context : SecurityContext σ) (f : Frame) (state : σ) :
    RecoversExactly context f state ∧
      ∀ (τ : Type) (sender : SecurityContext τ) (own : τ) (m genuine : Frame) (token : Bytes),
        (sender.wrap (plaintextOf m) true own).1 = .ok token →
        (encodeMessage sender m own).1 = .ok genuine → f.data ≠ genuine.data →
        FindsAlteration context f state token := by
  refine ⟨recoversExactly context f state, ?_⟩
  intro τ sender own m genuine token hwrap hencode haltered
  have hgenuine := encloses_of_encodeMessage hwrap hencode
  exact findsAlteration fun hf => haltered (hf.data_eq hgenuine)

/-- A context that opens the tokens it has issued, and no others. -/
def issuing : SecurityContext (List Bytes) where
  init _ issued := (.ok (.complete []), issued)
  wrap plaintext _ issued :=
    let token := plaintext ++ [UInt8.ofNat issued.length]
    (.ok token, token :: issued)
  unwrap token issued :=
    if token ∈ issued then (.ok ⟨token.dropLast, true⟩, issued)
    else (.error ⟨1, 0, "unknown token"⟩, issued)

/-- A frame is recovered as it was; with one byte more and the length to match it is refused. -/
theorem alteration_found_issuing :
    let m := Frame.application [112, 97, 121]
    let token : Bytes := [0, 112, 97, 121, 0]
    let genuine := Frame.application (framed Command.message token)
    let altered := Frame.application (framed Command.message [0, 112, 97, 121, 0, 0])
    (encodeMessage issuing m []) = (.ok genuine, [token]) ∧
      (decodeMessage issuing genuine [token]).1 = .ok m ∧
      (RecoversExactly issuing genuine [token] ∧ FindsAlteration issuing altered [token] token) ∧
      recoveryCalls issuing altered [token] =
        [.unwrap [0, 112, 97, 121, 0, 0] (.error ⟨1, 0, "unknown token"⟩)] ∧
      ∃ cause, (decodeMessage issuing altered [token]).1 = .error (.integrity cause) := by
  intro m token genuine altered
  have hplaintext : plaintextOf m = [0, 112, 97, 121] := by decide
  have hwrap : issuing.wrap (plaintextOf m) true [] = (.ok token, [token]) := by
    rw [hplaintext]
    rfl
  have hencode : encodeMessage issuing m [] = (.ok genuine, [token]) := by
    rw [encodeMessage_eq hwrap]
    exact congrArg (·, _) (sealed_eq_ok_iff.2 ⟨token, rfl, by decide, by decide⟩)
  have hfound := (alteration_found issuing altered [token]).2 _ issuing [] m genuine token
    (congrArg Prod.fst hwrap) (congrArg Prod.fst hencode) (by decide)
  obtain ⟨hexact, -⟩ := alteration_found issuing genuine [token]
  refine ⟨hencode, ?_, ⟨hexact, hfound⟩, ?_, hfound.fault ?_⟩
  · exact (hexact.ok_iff m).2 ⟨token, 0, [112, 97, 121], ⟨rfl, by decide⟩, rfl, by decide⟩
  · exact (alteration_found issuing altered [token]).1.called _ ⟨rfl, by decide⟩
  · intro other hother u hu
    simp [issuing, hother] at hu

end PeerLink.Gssapi
