import PeerLink.Gssapi.Wire

/-!
# Exact framing of tokens

A frame carries a token under a name exactly when its bytes are the name, the length of the token
and the token (`readToken?_eq_some_iff`). Protection and recovery of a frame are split into the
call of the context and a function of its answer: `sealed` for the way out (`encodeMessage_eq`),
`opened` for the way in (`decodeMessage_eq`).
-/

set_option autoImplicit false

namespace PeerLink

/-- The four bytes of a length field are the bytes that were read. -/
theorem Bytes.ofWord_toWord (a b c d : UInt8) : ofWord (toWord a b c d) = [a, b, c, d] := by
  have ha := a.toNat_lt
  have hb := b.toNat_lt
  have hc := c.toNat_lt
  have hd := d.toNat_lt
  simp only [ofWord, toWord, List.cons.injEq, and_true, ← UInt8.toNat_inj, UInt8.toNat_ofNat']
  omega

theorem Bytes.toWord_lt (a b c d : UInt8) : toWord a b c d < wordLimit := by
  have ha := a.toNat_lt
  have hb := b.toNat_lt
  have hc := c.toNat_lt
  have hd := d.toNat_lt
  simp only [toWord, wordLimit]
  omega

theorem Bytes.readWord?_eq_some_iff {data rest : Bytes} {n : Nat} :
    readWord? data = some (n, rest) ↔ data = ofWord n ++ rest ∧ n < wordLimit := by
  constructor
  · intro h
    unfold readWord? at h
    split at h
    · next a b c d tail =>
      obtain ⟨rfl, rfl⟩ := Prod.mk.inj (Option.some.inj h)
      exact ⟨by rw [ofWord_toWord]; rfl, toWord_lt a b c d⟩
    · cases h
  · rintro ⟨rfl, hn⟩
    exact readWord?_ofWord hn rest

namespace Gssapi

/-- A frame carries a token exactly when its bytes are the framing of that token. -/
theorem readToken?_eq_some_iff {name token : Bytes} {f : Frame} :
    readToken? name f = some token ↔
      f.data = framed name token ∧ token.length < Bytes.wordLimit := by
  constructor
  · intro h
    rw [readToken?] at h
    split at h
    · cases h
    · next body hbody =>
      split at h
      · cases h
      · next size rest hsize =>
        -- the rest of the frame has exactly the length that the field says
        rw [Option.ite_none_right_eq_some, Option.some.injEq] at h
        obtain ⟨hlen, rfl⟩ := h
        obtain ⟨rfl, hlt⟩ := Bytes.readWord?_eq_some_iff.1 hsize
        have hdata := Bytes.after?_eq_some_iff.1 hbody
        subst hlen
        exact ⟨by rw [hdata, framed, List.append_assoc], hlt⟩
  · rintro ⟨hdata, hlt⟩
    obtain ⟨data, more, command⟩ := f
    cases hdata
    exact readToken?_framed hlt more command

/-- A frame that carries a token under a name begins with that name. -/
theorem isNamed_of_readToken? {name token : Bytes} {f : Frame}
    (h : readToken? name f = some token) : f.isNamed name = true := by
  rw [Frame.isNamed_iff, (readToken?_eq_some_iff.1 h).1, framed, List.append_assoc]
  exact ⟨_, rfl⟩

/-- An INITIATE command is not an ERROR command: the names differ in their first byte. -/
theorem isNamed_error_of_isNamed_initiate {f : Frame} (h : f.isNamed Command.initiate = true) :
    f.isNamed Command.error = false := by
  obtain ⟨body, hdata⟩ := Frame.isNamed_iff.1 h
  rw [Frame.isNamed, hdata]
  rfl

/-- The frame made of what the context answered to the protection of `f`. -/
def sealed (f : Frame) : Except LibraryFailure Bytes → Except Fault Frame
  | .error failure => .error (.context (.wrapping failure))
  | .ok token =>
      if Bytes.wordLimit ≤ token.length then
        .error (.context (.longWrappedToken token.length))
      else .ok (.ofParts (framed Command.message token) f.flags)

/-- The frame made of what the context answered to the recovery of a token. -/
def opened : Except LibraryFailure Unwrapped → Except Fault Frame
  | .error failure => .error (.integrity (.unwrapping failure))
  | .ok u => ofUnwrapped u

section Wire

variable {σ : Type} {context : SecurityContext σ} {f : Frame} {state next : σ}

theorem encodeMessage_eq {answer : Except LibraryFailure Bytes}
    (h : context.wrap (plaintextOf f) true state = (answer, next)) :
    encodeMessage context f state = (sealed f answer, next) := by
  unfold encodeMessage sealed
  rw [h]
  cases answer with
  | error failure => rfl
  | ok token =>
    dsimp only
    split <;> rfl

theorem decodeMessage_eq {token : Bytes} {answer : Except LibraryFailure Unwrapped}
    (hf : readToken? Command.message f = some token)
    (h : context.unwrap token state = (answer, next)) :
    decodeMessage context f state = (opened answer, next) := by
  unfold decodeMessage opened
  rw [hf]
  dsimp only
  rw [h]
  cases answer <;> rfl

theorem decodeMessage_of_misframed (hf : readToken? Command.message f = none) :
    decodeMessage context f state = (.error (.integrity .framing), state) := by
  rw [decodeMessage]
  rw [hf]

end Wire

theorem sealed_eq_ok_iff {f out : Frame} {answer : Except LibraryFailure Bytes} :
    sealed f answer = .ok out ↔ ∃ token, answer = .ok token ∧ token.length < Bytes.wordLimit ∧
      out = .ofParts (framed Command.message token) f.flags := by
  cases answer with
  | error failure => simp [sealed]
  | ok token =>
    by_cases hle : Bytes.wordLimit ≤ token.length
    · have hnlt : ¬ token.length < Bytes.wordLimit := Nat.not_lt.2 hle
      simp [sealed, hle, hnlt]
    · simp [sealed, hle, Nat.lt_of_not_le hle, eq_comm]

theorem opened_eq_ok_iff {out : Frame} {answer : Except LibraryFailure Unwrapped} :
    opened answer = .ok out ↔
      ∃ flags payload, answer = .ok ⟨flags :: payload, true⟩ ∧ out = .ofParts payload flags := by
  cases answer with
  | error failure => simp [opened]
  | ok u =>
    obtain ⟨data, confidential⟩ := u
    cases confidential with
    | false => simp [opened, ofUnwrapped]
    | true =>
      cases data with
      | nil => simp [opened, ofUnwrapped]
      | cons flags payload =>
        constructor
        · intro h
          exact ⟨flags, payload, rfl, (Except.ok.inj h).symm⟩
        · rintro ⟨_, _, h, rfl⟩
          cases h
          rfl

end Gssapi

end PeerLink
