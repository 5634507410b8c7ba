import PeerLink.Proofs.Plain.Order

/-!
# HELLO carries the credentials

The body of HELLO is two fields, each one byte that holds a length and as many bytes
(`Credentials.readFields?_eq_some_iff`). Since a client is made only of credentials that fit such
fields (`PlainClient.exists_start_iff`), both are read back from its HELLO. What comes before the
first call for a command leaves a client as it was (`PlainClient.after_of_sendingHello`), so HELLO
is what this call gives out. `PlainClient.hello_lossless` puts this together.
-/

set_option autoImplicit false

namespace PeerLink

open Mechanism (Call Answer)

/-! ## Fields -/

namespace Credentials

variable {c other : Credentials} {data rest first second : Bytes}

/-- Bytes after their length, which takes one byte. -/
def field (bytes : Bytes) : Bytes := UInt8.ofNat bytes.length :: bytes

/-- Reads a field and returns what follows it. -/
def readField? : Bytes → Option (Bytes × Bytes)
  | [] => none
  | size :: data => Bytes.takeExact? size.toNat data

/-- Reads two fields that nothing follows. -/
def readFields? (data : Bytes) : Option (Bytes × Bytes) :=
  match readField? data with
  | none => none
  | some (first, more) =>
      match readField? more with
      | some (second, []) => some (first, second)
      | _ => none

theorem readField?_eq_some_iff :
    readField? data = some (first, rest) ↔ data = field first ++ rest ∧ first.length ≤ maxSize := by
  constructor
  · intro h
    cases data with
    | nil => cases h
    | cons size data =>
      obtain ⟨rfl, hlength⟩ := Bytes.takeExact?_eq_some h
      have hsize : UInt8.ofNat first.length = size := by
        rw [hlength, UInt8.ofNat_toNat]
      have hbound := size.toNat_lt
      refine ⟨by rw [field, hsize, List.cons_append], ?_⟩
      unfold maxSize
      omega
  · rintro ⟨rfl, hshort⟩
    have hsize : (UInt8.ofNat first.length).toNat = first.length := by
      unfold maxSize at hshort
      rw [UInt8.toNat_ofNat']
      omega
    rw [field, List.cons_append, readField?, hsize]
    exact Bytes.takeExact?_append first rest

theorem readFields?_eq_some_iff : readFields? data = some (first, second) ↔
    data = field first ++ field second ∧ first.length ≤ maxSize ∧ second.length ≤ maxSize := by
  constructor
  · intro h
    unfold readFields? at h
    split at h
    · cases h
    · next own more hfirst =>
      split at h
      · next last hsecond =>
        obtain ⟨rfl, rfl⟩ := Prod.mk.inj (Option.some.inj h)
        obtain ⟨rfl, hshort⟩ := readField?_eq_some_iff.1 hfirst
        obtain ⟨rfl, hshort'⟩ := readField?_eq_some_iff.1 hsecond
        exact ⟨by rw [List.append_nil], hshort, hshort'⟩
      · cases h
  · rintro ⟨rfl, hfirst, hsecond⟩
    have hmore : readField? (field second) = some (second, []) :=
      readField?_eq_some_iff.2 ⟨(List.append_nil _).symm, hsecond⟩
    rw [readFields?, readField?_eq_some_iff.2 ⟨rfl, hfirst⟩]
    dsimp only
    rw [hmore]

theorem encoded_eq (c : Credentials) :
    c.encoded = field (Utf8.encode c.username) ++ field (Utf8.encode c.password) := by
  rw [encoded, field, field, Utf8.length_encode, Utf8.length_encode]

/-- Credentials that fit their fields. -/
def Fits (c : Credentials) : Prop :=
  c.username.utf8ByteSize ≤ maxSize ∧ c.password.utf8ByteSize ≤ maxSize

theorem problems_eq_nil_iff : c.problems = [] ↔ c.Fits := by
  unfold problems Fits
  rw [List.append_eq_nil_iff]
  simp

theorem readFields?_encoded (h : c.Fits) :
    readFields? c.encoded = some (Utf8.encode c.username, Utf8.encode c.password) := by
  apply readFields?_eq_some_iff.2
  refine ⟨c.encoded_eq, ?_, ?_⟩
  · rw [Utf8.length_encode]
    exact h.1
  · rw [Utf8.length_encode]
    exact h.2

/-- Credentials that fit their fields can be told apart by what is written for them. -/
theorem encoded_eq_iff (h : c.Fits) (hother : other.Fits) : c.encoded = other.encoded ↔
    c.username = other.username ∧ c.password = other.password := by
  constructor
  · intro heq
    have hread := readFields?_encoded h
    rw [heq, readFields?_encoded hother] at hread
    obtain ⟨husername, hpassword⟩ := Prod.mk.inj (Option.some.inj hread)
    exact ⟨Utf8.encode_injective husername.symm, Utf8.encode_injective hpassword.symm⟩
  · rintro ⟨husername, hpassword⟩
    rw [encoded, encoded, husername, hpassword]

end Credentials

namespace PlainClient

variable {options : SecurityOptions} {c c' : PlainClient} {call : Call}

/-! ## Making a client -/

theorem start_eq_ok_iff : start options = .ok c ↔
    options.plain.Fits ∧ c = ⟨.ofOptions options, options.plain, .sendingHello⟩ := by
  rw [start, ← Credentials.problems_eq_nil_iff]
  split
  · next hnone => simp [hnone, eq_comm]
  · next hsome => simp [hsome]

theorem exists_start_iff : (∃ c, start options = .ok c) ↔ options.plain.Fits := by
  constructor
  · rintro ⟨c, hc⟩
    exact (start_eq_ok_iff.1 hc).1
  · intro h
    exact ⟨_, start_eq_ok_iff.2 ⟨h, rfl⟩⟩

/-! ## Before the first command -/

/-- Before HELLO only the call for the next command changes a client. -/
theorem Step.eq_self_of_sendingHello {answer : Answer} (hs : Step c call answer c')
    (hphase : c.phase = .sendingHello) (hcall : call ≠ .next) : c' = c := by
  cases hs with
  | hello _ | initiate _ _ | unwritable _ _ | idle _ _ => exact absurd rfl hcall
  | welcomed hother _ | readyTaken hother _ _ => cases hphase.symm.trans hother
  | rejected hwaits _ => rcases hwaits with hother | hother <;> cases hphase.symm.trans hother
  | refused _ | traffic _ => rfl

/-- Before HELLO a client stays as it is until it is called for the next command. -/
theorem after_of_sendingHello {σ : Type} (hphase : c.phase = .sendingHello) {calls : List Call}
    (hcalls : .next ∉ calls) : (.plain c : Mechanism σ).after calls = .plain c := by
  induction calls with
  | nil => rfl
  | cons call calls ih =>
    obtain ⟨hcall, hmore⟩ := not_or.1 (List.mem_cons.not.1 hcalls)
    have hself := (step_follows c call).eq_self_of_sendingHello hphase (Ne.symm hcall)
    rw [Mechanism.after_cons, mechanism_step, hself]
    exact ih hmore

/-! ## HELLO -/

/-- A frame is a HELLO with this user name and this password, in two fields that take up all that
follows the name. -/
def IsHello (f : Frame) (credentials : Credentials) : Prop :=
  ∃ body, f = .ofCommand (Command.hello ++ body) ∧
    Credentials.readFields? body =
      some (Utf8.encode credentials.username, Utf8.encode credentials.password)

theorem isHello_hello (h : c.credentials.Fits) : IsHello c.hello c.credentials :=
  ⟨c.credentials.encoded, rfl, Credentials.readFields?_encoded h⟩

/-- How a client with these options begins. -/
structure BeginsWithHello (options : SecurityOptions) : Prop where
  /-- It is made exactly of credentials that fit their fields; -/
  exists_iff : (∃ c, start options = .ok c) ↔
    options.plain.username.utf8ByteSize ≤ 255 ∧ options.plain.password.utf8ByteSize ≤ 255
  /-- the first command that it gives out, whatever came before, is their HELLO. -/
  first : ∀ (σ : Type) c, start options = .ok c → ∀ calls, .next ∉ calls →
    ∃ f, (((Mechanism.plain c : Mechanism σ).after calls).next).1 = .ok (some f) ∧
      IsHello f options.plain

theorem beginsWithHello (options : SecurityOptions) : BeginsWithHello options := by
  refine ⟨exists_start_iff, ?_⟩
  intro σ c hc calls hcalls
  obtain ⟨hfits, rfl⟩ := start_eq_ok_iff.1 hc
  refine ⟨hello ⟨.ofOptions options, options.plain, .sendingHello⟩, ?_, isHello_hello hfits⟩
  rw [after_of_sendingHello rfl hcalls]
  rfl

/-- A client is made of all credentials that fit, its first command is the HELLO from which they are
read back, and only clients with the same credentials send the same HELLO. -/
theorem hello_lossless (options other : SecurityOptions) : BeginsWithHello options ∧
    ∀ c c', start options = .ok c → start other = .ok c' →
      (c.next.1 = c'.next.1 ↔ options.plain.username = other.plain.username ∧
        options.plain.password = other.plain.password) := by
  refine ⟨beginsWithHello options, ?_⟩
  intro c c' hc hc'
  obtain ⟨hfits, rfl⟩ := start_eq_ok_iff.1 hc
  obtain ⟨hfits', rfl⟩ := start_eq_ok_iff.1 hc'
  rw [← Credentials.encoded_eq_iff hfits hfits']
  simp [next, hello, Frame.ofCommand]

/-- A user name of 255 bytes and a password with a letter of two bytes, sent although a READY came
too early; and credentials without a byte. -/
theorem hello_lossless_edge :
    let full : SecurityOptions :=
      { plain := ⟨String.ofList (List.replicate 255 'u'), "gruß"⟩ }
    let c : PlainClient := ⟨.ofOptions full, full.plain, .sendingHello⟩
    let empty : PlainClient := ⟨.ofOptions {}, {}, .sendingHello⟩
    start full = .ok c ∧ start {} = .ok empty ∧
      (∃ f, (((Mechanism.plain c : Mechanism Unit).after
          [.process (.ofCommand Command.ready)]).next).1 = .ok (some f) ∧ IsHello f full.plain) ∧
      c.next.1 ≠ empty.next.1 := by
  intro full c empty
  have hfull : start full = .ok c := start_eq_ok_iff.2 ⟨⟨by decide +kernel, by decide⟩, rfl⟩
  have hempty : start {} = .ok empty := start_eq_ok_iff.2 ⟨⟨by decide, by decide⟩, rfl⟩
  obtain ⟨hbegins, hsame⟩ := hello_lossless full {}
  refine ⟨hfull, hempty, hbegins.first Unit c hfull _ (by simp), ?_⟩
  intro heq
  obtain ⟨-, hpassword⟩ := (hsame c empty hfull hempty).1 heq
  exact absurd hpassword (by decide)

end PlainClient

end PeerLink
