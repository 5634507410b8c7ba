import PeerLink.Proofs.Gssapi.Framing

/-!
# The framing of INITIATE is exact

A frame reads as an INITIATE command with a token exactly if its bytes are those of the command that
is written for this token (`Gssapi.processInitiate_eq_ok_iff`). Every other frame is malformed, for
one of three reasons (`Gssapi.Misframed`): its name is another one, it ends inside the length field,
or the length field does not say how much follows. `Gssapi.initiation_exact` puts both directions
together.
-/

set_option autoImplicit false

namespace PeerLink

/-- There is no length field in fewer than four bytes. -/
theorem Bytes.readWord?_eq_none_iff {data : Bytes} : readWord? data = none ↔ data.length < 4 := by
  unfold readWord?
  split
  · simp
  · next hshort =>
    simp only [true_iff]
    rcases data with _ | ⟨a, _ | ⟨b, _ | ⟨c, _ | ⟨d, rest⟩⟩⟩⟩
    case cons.cons.cons.cons => exact (hshort a b c d rest rfl).elim
    all_goals simp

namespace Gssapi

variable {f g : Frame} {token : Bytes}

/-! ## Written commands -/

/-- The bytes of a frame are those of the command that is written for a token. -/
def Initiates (f : Frame) (token : Bytes) : Prop :=
  ∃ g, produceInitiate token = .ok g ∧ f.data = g.data

theorem produceInitiate_eq_ok_iff : produceInitiate token = .ok g ↔
    token.length < Bytes.wordLimit ∧ g = .ofCommand (framed Command.initiate token) := by
  unfold produceInitiate
  by_cases hlong : Bytes.wordLimit ≤ token.length
  · simp [hlong, Nat.not_lt.2 hlong]
  · simp [hlong, Nat.lt_of_not_le hlong, eq_comm]

/-- The layout: the name, the length of the token in four bytes, and the token. -/
theorem initiates_iff : Initiates f token ↔
    f.data = Command.initiate ++ Bytes.ofWord token.length ++ token ∧
      token.length < Bytes.wordLimit := by
  constructor
  · rintro ⟨g, hg, hdata⟩
    obtain ⟨hshort, rfl⟩ := produceInitiate_eq_ok_iff.1 hg
    exact ⟨hdata, hshort⟩
  · rintro ⟨hdata, hshort⟩
    exact ⟨_, produceInitiate_eq_ok_iff.2 ⟨hshort, rfl⟩, hdata⟩

/-! ## Reading -/

theorem processInitiate_eq_ok_iff : processInitiate f = .ok token ↔ Initiates f token := by
  rw [initiates_iff, ← framed, ← readToken?_eq_some_iff, processInitiate]
  cases readToken? Command.initiate f <;> simp

/-- There is one reason to refuse a frame. -/
theorem processInitiate_eq_malformed_iff :
    processInitiate f = .error (.malformed .initiateFraming) ↔ ¬ ∃ token, Initiates f token := by
  simp only [← processInitiate_eq_ok_iff]
  unfold processInitiate
  cases readToken? Command.initiate f <;> simp

/-! ## What is wrong with a frame -/

/-- What is wrong with a frame that is not the command of any token. -/
inductive Misframed (f : Frame) : Prop
  /-- It does not begin with the name. -/
  | name : f.isNamed Command.initiate = false → Misframed f
  /-- It ends inside the length field. -/
  | cut {field : Bytes} : f.data = Command.initiate ++ field → field.length < 4 → Misframed f
  /-- The length field says more or less than what follows. -/
  | size {n : Nat} {body : Bytes} : f.data = Command.initiate ++ Bytes.ofWord n ++ body →
      n < Bytes.wordLimit → body.length ≠ n → Misframed f

/-- A written command has none of these faults. -/
theorem Misframed.not_initiates (h : Misframed f) : ¬ Initiates f token := by
  intro hf
  obtain ⟨hdata, hshort⟩ := initiates_iff.1 hf
  rw [List.append_assoc] at hdata
  cases h with
  | name hname =>
    have hnamed : f.isNamed Command.initiate = true := Frame.isNamed_iff.2 ⟨_, hdata⟩
    rw [hnamed] at hname
    cases hname
  | cut hfield hcut =>
    have hrest := List.append_cancel_left (hfield.symm.trans hdata)
    rw [hrest, List.length_append, Bytes.length_ofWord] at hcut
    omega
  | @size n body hbody hn hsize =>
    rw [List.append_assoc] at hbody
    have hrest := List.append_cancel_left (hbody.symm.trans hdata)
    -- the two length fields are the same four bytes
    have hread := Bytes.readWord?_ofWord hn body
    rw [hrest, Bytes.readWord?_ofWord hshort token] at hread
    obtain ⟨rfl, rfl⟩ := Prod.mk.inj (Option.some.inj hread)
    exact hsize rfl

/-- Every frame is the command of a token or has one of these faults. -/
theorem exists_initiates_or_misframed (f : Frame) : (∃ token, Initiates f token) ∨ Misframed f := by
  cases hname : f.isNamed Command.initiate with
  | false => exact .inr (.name hname)
  | true =>
    obtain ⟨field, hdata⟩ := Frame.isNamed_iff.1 hname
    cases hword : Bytes.readWord? field with
    | none => exact .inr (.cut hdata (Bytes.readWord?_eq_none_iff.1 hword))
    | some found =>
      obtain ⟨n, body⟩ := found
      obtain ⟨rfl, hn⟩ := Bytes.readWord?_eq_some_iff.1 hword
      rw [← List.append_assoc] at hdata
      by_cases hsize : body.length = n
      · subst hsize
        exact .inl ⟨body, initiates_iff.2 ⟨hdata, hn⟩⟩
      · exact .inr (.size hdata hn hsize)

theorem misframed_iff : Misframed f ↔ ¬ ∃ token, Initiates f token := by
  constructor
  · rintro h ⟨token, htoken⟩
    exact h.not_initiates htoken
  · intro hnone
    exact (exists_initiates_or_misframed f).resolve_left hnone

/-! ## Both directions -/

/-- How a frame reads as an INITIATE command. -/
structure ReadsInitiation (f : Frame) : Prop where
  /-- It gives the token for which its bytes are written, -/
  ok_iff : ∀ token, processInitiate f = .ok token ↔ Initiates f token
  /-- one token at most, -/
  unique : ∀ token other, Initiates f token → Initiates f other → token = other
  /-- and is malformed if there is none, -/
  malformed_iff : processInitiate f = .error (.malformed .initiateFraming) ↔
    ¬ ∃ token, Initiates f token
  /-- which is so if it has one of three faults. -/
  misframed_iff : processInitiate f = .error (.malformed .initiateFraming) ↔ Misframed f
  /-- Its flags do not count. -/
  flags : ∀ more command, processInitiate ⟨f.data, more, command⟩ = processInitiate f

theorem readsInitiation (f : Frame) : ReadsInitiation f where
  ok_iff _ := processInitiate_eq_ok_iff
  unique token other htoken hother := by
    have hread := processInitiate_eq_ok_iff.2 htoken
    rw [processInitiate_eq_ok_iff.2 hother] at hread
    exact (Except.ok.inj hread).symm
  malformed_iff := processInitiate_eq_malformed_iff
  misframed_iff := processInitiate_eq_malformed_iff.trans Gssapi.misframed_iff.symm
  flags _ _ := rfl

/-- A written token is read back, and nothing reads as a token but what is written for it. -/
theorem initiation_exact (token : Bytes) (h : token.length < Bytes.wordLimit) :
    (∃ f, produceInitiate token = .ok f ∧ processInitiate f = .ok token) ∧
      ∀ f, ReadsInitiation f := by
  refine ⟨?_, readsInitiation⟩
  have hf := produceInitiate_eq_ok_iff.2 ⟨h, rfl⟩
  exact ⟨_, hf, processInitiate_eq_ok_iff.2 ⟨_, hf, rfl⟩⟩

/-- A token of three bytes, also with other flags; a length that is too large, and one that is cut
off. -/
theorem initiation_exact_three :
    let token : Bytes := [116, 111, 107]
    let long := Frame.ofCommand (Command.initiate ++ Bytes.ofWord 5 ++ token)
    let cut := Frame.ofCommand (Command.initiate ++ [0, 0])
    token.length < Bytes.wordLimit ∧
      (∃ f, produceInitiate token = .ok f ∧ processInitiate f = .ok token) ∧
      processInitiate ⟨Command.initiate ++ [0, 0, 0, 3] ++ token, true, false⟩ = .ok token ∧
      processInitiate long = .error (.malformed .initiateFraming) ∧
      processInitiate cut = .error (.malformed .initiateFraming) := by
  intro token long cut
  have hshort : token.length < Bytes.wordLimit := by decide
  obtain ⟨hback, hreads⟩ := initiation_exact token hshort
  refine ⟨hshort, hback, ?_, ?_, ?_⟩
  · exact ((hreads _).ok_iff token).2 (initiates_iff.2 ⟨by decide, hshort⟩)
  · exact (hreads long).misframed_iff.2 (.size rfl (by decide) (by decide))
  · exact (hreads cut).misframed_iff.2 (.cut rfl (by decide))

end Gssapi

end PeerLink
