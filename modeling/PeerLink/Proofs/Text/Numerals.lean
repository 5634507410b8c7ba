import PeerLink.Text.Numeral

/-!
# Printed numbers and numerals

Which characters a printed number has, how many, and that it reads back as a word of its width.
Conversely, what a reader of digits accepts consists of digits, and the readers of words accept
exactly the numerals for a word of their width (`Numeral.readUInt8?_eq_some_iff`,
`Numeral.readUInt16?_eq_some_iff`, `Numeral.readUInt32?_eq_some_iff`).
-/

set_option autoImplicit false

namespace PeerLink.Numeral

/-! ## Decimal digits -/

theorem length_decimalChars_le_three {n : Nat} (h : n < 1000) : (decimalChars n).length ≤ 3 :=
  (Nat.length_toDigits_le_iff (by decide) (by decide)).2 h

theorem length_decimalChars_pos (n : Nat) : 0 < (decimalChars n).length :=
  List.length_pos_iff.2 (decimalChars_ne_nil n)

/-- A positive number does not begin with a zero. -/
theorem head?_decimalChars_of_pos {n : Nat} (h : 0 < n) :
    (decimalChars n).head? ≠ some '0' := by
  induction n using Nat.strongRecOn with
  | _ n ih =>
    rw [decimalChars]
    rw [Nat.toDigits_eq_if (by decide)]
    split
    · next hlt =>
      -- one digit, which is not that of zero
      have hvalue := hexValue?_digitChar (d := n) (by omega)
      intro hhead
      rw [List.head?_cons, Option.some.injEq] at hhead
      rw [hhead] at hvalue
      have hzero : n = 0 := (Option.some.inj hvalue).symm
      omega
    · next hge =>
      have hfront := ih (n / 10) (by omega) (by omega)
      obtain ⟨c, cs, hcs⟩ := List.exists_cons_of_ne_nil (decimalChars_ne_nil (n / 10))
      rw [decimalChars] at hcs hfront
      rw [hcs] at hfront ⊢
      exact hfront

/-- A printed number has no leading zero. -/
theorem head?_decimalChars {n : Nat} (h : 1 < (decimalChars n).length) :
    (decimalChars n).head? ≠ some '0' := by
  apply head?_decimalChars_of_pos
  refine Nat.pos_of_ne_zero fun hzero => ?_
  rw [hzero] at h
  exact absurd h (by decide)

/-- What is no digit does not occur in a printed number. -/
theorem notMem_decimalChars {c : Char} (h : c.isDigit = false) (n : Nat) :
    c ∉ decimalChars n := by
  intro hmem
  rw [isDigit_of_mem_decimalChars hmem] at h
  cases h

theorem isDigit_of_readDigits? {cs : List Char} {n : Nat} (h : readDigits? cs = some n) {c : Char}
    (hc : c ∈ cs) : c.isDigit = true := by
  rw [readDigits?] at h
  split at h
  · cases h
  · split at h
    · next hall => exact List.all_eq_true.1 hall c hc
    · cases h

/-! ## Numerals -/

/-- A run of digits and the number that it writes: each digit counts ten times the next one. -/
inductive Digits : List Char → Nat → Prop where
  | one {c : Char} (h : c.isDigit = true) : Digits [c] (c.toNat - '0'.toNat)
  | more {cs : List Char} {n : Nat} {c : Char} (hcs : Digits cs n) (h : c.isDigit = true) :
      Digits (cs ++ [c]) (10 * n + (c.toNat - '0'.toNat))

/-- A numeral and the number that it writes: digits, perhaps after one plus sign. -/
inductive Writes : List Char → Nat → Prop where
  | bare {cs : List Char} {n : Nat} (h : Digits cs n) : Writes cs n
  | plus {cs : List Char} {n : Nat} (h : Digits cs n) : Writes ('+' :: cs) n

theorem Digits.ne_nil {cs : List Char} {n : Nat} (h : Digits cs n) : cs ≠ [] := by
  cases h <;> simp

theorem Digits.isDigit_of_mem {cs : List Char} {n : Nat} (h : Digits cs n) :
    ∀ c ∈ cs, c.isDigit = true := by
  induction h with
  | one hdigit =>
    intro c hc
    rw [List.mem_singleton.1 hc]
    exact hdigit
  | more _ hdigit ih =>
    intro c hc
    rcases List.mem_append.1 hc with hc | hc
    · exact ih c hc
    · rw [List.mem_singleton.1 hc]
      exact hdigit

theorem Digits.ofDigitChars_eq {cs : List Char} {n : Nat} (h : Digits cs n) :
    Nat.ofDigitChars 10 cs 0 = n := by
  induction h with
  | one => simp [Nat.ofDigitChars_cons]
  | more _ _ ih => rw [Nat.ofDigitChars_append, ih, Nat.ofDigitChars_cons, Nat.ofDigitChars_nil]

/-- Digits may follow digits. -/
theorem Digits.append {front cs : List Char} {n : Nat} (h : Digits front n)
    (hcs : ∀ c ∈ cs, c.isDigit = true) : Digits (front ++ cs) (Nat.ofDigitChars 10 cs n) := by
  induction cs generalizing front n with
  | nil =>
    rw [List.append_nil]
    exact h
  | cons c cs ih =>
    have hfront := Digits.more h (hcs c List.mem_cons_self)
    have hall := ih hfront fun d hd => hcs d (List.mem_cons_of_mem _ hd)
    rwa [List.append_assoc, List.singleton_append, ← Nat.ofDigitChars_cons] at hall

theorem readDigits?_eq_some_iff {cs : List Char} {n : Nat} :
    readDigits? cs = some n ↔ Digits cs n := by
  constructor
  · intro h
    have hdigits : ∀ c ∈ cs, c.isDigit = true := fun c => isDigit_of_readDigits? h
    cases cs with
    | nil => cases h
    | cons c cs =>
      rw [readDigits?, if_neg (by simp), if_pos (List.all_eq_true.2 hdigits)] at h
      have hfirst := Digits.one (hdigits c List.mem_cons_self)
      have hall := hfirst.append fun d hd => hdigits d (List.mem_cons_of_mem _ hd)
      rw [← Option.some.inj h, Nat.ofDigitChars_cons, Nat.mul_zero, Nat.zero_add]
      exact hall
  · intro h
    rw [readDigits?, if_neg (by simpa using h.ne_nil),
      if_pos (List.all_eq_true.2 h.isDigit_of_mem), h.ofDigitChars_eq]

theorem readNat?_eq_some_iff {cs : List Char} {n : Nat} : readNat? cs = some n ↔ Writes cs n := by
  unfold readNat?
  split
  · next rest =>
    rw [readDigits?_eq_some_iff]
    constructor
    · exact Writes.plus
    · intro h
      cases h with
      | bare h => exact absurd (h.isDigit_of_mem '+' List.mem_cons_self) (by decide)
      | plus h => exact h
  · next hplus =>
    rw [readDigits?_eq_some_iff]
    constructor
    · exact Writes.bare
    · intro h
      cases h with
      | bare h => exact h
      | plus h => exact absurd rfl (hplus _)

theorem readBelow?_eq_some_iff {limit n : Nat} {cs : List Char} :
    readBelow? limit cs = some n ↔ Writes cs n ∧ n < limit := by
  rw [readBelow?, Option.filter_eq_some_iff, readNat?_eq_some_iff, decide_eq_true_iff]

/-- A word is written by the numerals for its number, whatever its width. -/
theorem map_readBelow?_eq_some_iff {W : Type} {limit : Nat} {ofNat : Nat → W} {toNat : W → Nat}
    (hto : ∀ {n}, n < limit → toNat (ofNat n) = n) (hof : ∀ w, ofNat (toNat w) = w)
    (hlt : ∀ w, toNat w < limit) {cs : List Char} {w : W} :
    (readBelow? limit cs).map ofNat = some w ↔ Writes cs (toNat w) := by
  rw [Option.map_eq_some_iff]
  constructor
  · rintro ⟨n, hn, rfl⟩
    obtain ⟨hwrites, hbelow⟩ := readBelow?_eq_some_iff.1 hn
    rwa [hto hbelow]
  · intro h
    exact ⟨toNat w, readBelow?_eq_some_iff.2 ⟨h, hlt w⟩, hof w⟩

theorem readUInt8?_eq_some_iff {cs : List Char} {n : UInt8} :
    readUInt8? cs = some n ↔ Writes cs n.toNat :=
  map_readBelow?_eq_some_iff UInt8.toNat_ofNat_of_lt' (fun _ => UInt8.ofNat_toNat) UInt8.toNat_lt

theorem readUInt16?_eq_some_iff {cs : List Char} {n : UInt16} :
    readUInt16? cs = some n ↔ Writes cs n.toNat :=
  map_readBelow?_eq_some_iff UInt16.toNat_ofNat_of_lt' (fun _ => UInt16.ofNat_toNat)
    UInt16.toNat_lt

theorem readUInt32?_eq_some_iff {cs : List Char} {n : UInt32} :
    readUInt32? cs = some n ↔ Writes cs n.toNat :=
  map_readBelow?_eq_some_iff UInt32.toNat_ofNat_of_lt' (fun _ => UInt32.ofNat_toNat)
    UInt32.toNat_lt

/-- A printed number is a numeral. -/
theorem writes_decimalChars (n : Nat) : Writes (decimalChars n) n :=
  readNat?_eq_some_iff.1 (readNat?_decimalChars n)

theorem readUInt16?_decimalChars (n : UInt16) : readUInt16? (decimalChars n.toNat) = some n :=
  readUInt16?_eq_some_iff.2 (writes_decimalChars _)

theorem readUInt32?_decimalChars (n : UInt32) : readUInt32? (decimalChars n.toNat) = some n :=
  readUInt32?_eq_some_iff.2 (writes_decimalChars _)

theorem Writes.ne_nil {cs : List Char} {n : Nat} (h : Writes cs n) : cs ≠ [] := by
  cases h with
  | bare h => exact h.ne_nil
  | plus h => simp

/-- The characters of numerals. -/
theorem Writes.isDigit_or_of_mem {cs : List Char} {n : Nat} (h : Writes cs n) {c : Char}
    (hc : c ∈ cs) : c.isDigit = true ∨ c = '+' := by
  cases h with
  | bare h => exact .inl (h.isDigit_of_mem c hc)
  | plus h =>
    rcases List.mem_cons.1 hc with rfl | hc
    · exact .inr rfl
    · exact .inl (h.isDigit_of_mem c hc)

theorem Writes.notMem {cs : List Char} {n : Nat} {c : Char} (h : Writes cs n)
    (hdigit : c.isDigit = false) (hplus : c ≠ '+') : c ∉ cs := by
  intro hmem
  rcases h.isDigit_or_of_mem hmem with hisDigit | heq
  · cases hisDigit.symm.trans hdigit
  · exact hplus heq

/-! ## Hexadecimal digits -/

theorem length_hexChars_le_four {n : Nat} (h : n < 65536) : (hexChars n).length ≤ 4 :=
  (Nat.length_toDigits_le_iff (by decide) (by decide)).2 h

theorem hexChars_ne_nil (n : Nat) : hexChars n ≠ [] :=
  List.length_pos_iff.1 Nat.length_toDigits_pos

theorem isSome_hexValue?_of_readHexFrom? {cs : List Char} {value n : Nat}
    (h : readHexFrom? value cs = some n) {c : Char} (hc : c ∈ cs) :
    (hexValue? c).isSome = true := by
  induction cs generalizing value with
  | nil => cases hc
  | cons d cs ih =>
    rw [readHexFrom?] at h
    cases hd : hexValue? d with
    | none =>
      rw [hd] at h
      cases h
    | some digit =>
      rw [hd] at h
      rcases List.mem_cons.1 hc with rfl | hc
      · rw [hd]
        rfl
      · exact ih h hc

/-- A printed hexadecimal number has hexadecimal digits only, since it reads back. -/
theorem isSome_hexValue?_of_mem_hexChars {n : Nat} {c : Char} (h : c ∈ hexChars n) :
    (hexValue? c).isSome = true :=
  isSome_hexValue?_of_readHexFrom? (readHexFrom?_hexChars n) h

/-- Decimal digits are hexadecimal digits. -/
theorem isSome_hexValue?_of_isDigit {c : Char} (h : c.isDigit = true) :
    (hexValue? c).isSome = true := by
  have hrange : '0' ≤ c ∧ c ≤ '9' := by
    rw [Char.isDigit, Bool.and_eq_true, decide_eq_true_eq, decide_eq_true_eq] at h
    exact h
  rw [hexValue?, if_pos hrange]
  rfl

end PeerLink.Numeral
