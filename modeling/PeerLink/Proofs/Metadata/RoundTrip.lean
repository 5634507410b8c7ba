import Mathlib.Data.List.Forall2
import PeerLink.Proofs.Gssapi.Framing
import PeerLink.Proofs.Metadata.Blocks

/-!
# Blocks and properties

Writing and reading undo each other. A block reads as properties exactly if it is what they are
written as and each fits its length fields (`Metadata.parseBlock_eq_ok_iff`); this is an induction
over the block, property by property (`Metadata.readProperty?_eq_some_iff`). `Metadata.add` writes
into a buffer part by part (`Metadata.Adds`), and a buffer that has been added to holds just what
was not refused (`Metadata.Adds.last_eq`, `Metadata.Adds.holds`).
-/

set_option autoImplicit false

namespace PeerLink.Metadata

/-! ## Reading -/

section Reading

variable {data rest : Bytes} {p : Property} {ps : List Property}

/-- A block begins with a property exactly if it begins with the bytes of one that fits. -/
theorem readProperty?_eq_some_iff :
    readProperty? data = some (p, rest) ↔ data = p.encoded ++ rest ∧ p.Fits := by
  constructor
  · intro h
    cases data with
    | nil => cases h
    | cons nameSize data =>
      rw [readProperty?] at h
      split at h
      · cases h
      · next nameBytes afterName hname =>
        obtain ⟨rfl, hlength⟩ := Bytes.takeExact?_eq_some hname
        split at h
        · next name valueSize afterSize htext hsize =>
          obtain ⟨rfl, hvalueSize⟩ := Bytes.readWord?_eq_some_iff.1 hsize
          have hbytes := Utf8.encode_of_decode? htext
          split at h
          · cases h
          · next value rest' hvalue =>
            obtain ⟨rfl, rfl⟩ := Bytes.takeExact?_eq_some hvalue
            cases h
            -- the length byte is that of the name, and any byte is at most 255
            have hsize : name.utf8ByteSize = nameSize.toNat := by
              rw [← Utf8.length_encode, hbytes, hlength]
            have hbyte := nameSize.toNat_lt
            refine ⟨?_, ?_, hvalueSize⟩
            · simp [Property.encoded, hsize, hbytes]
            · simp only [hsize]
              omega
        · cases h
  · rintro ⟨rfl, hname, hvalue⟩
    exact readProperty?_encoded p rest hname hvalue

/-- A block reads as properties exactly if it is what they are written as and each fits. -/
theorem parseBlock_eq_ok_iff :
    parseBlock data = .ok ps ↔ data = ps.flatMap Property.encoded ∧ ∀ p ∈ ps, p.Fits := by
  constructor
  · intro h
    induction data using parseBlock.induct generalizing ps with
    | case1 =>
      rw [parseBlock] at h
      cases h
      simp
    | case2 first others hread =>
      rw [parseBlock] at h
      split at h
      · cases h
      · next hsome => cases hread.symm.trans hsome
    | case3 first others p rest hread hshorter ih =>
      rw [parseBlock_of_readProperty? hread] at h
      cases hrest : parseBlock rest with
      | error fault =>
        rw [hrest] at h
        cases h
      | ok qs =>
        rw [hrest] at h
        cases h
        obtain ⟨hdata, hp⟩ := readProperty?_eq_some_iff.1 hread
        obtain ⟨hothers, hqs⟩ := ih hrest
        rw [List.flatMap_cons, hdata, ← hothers]
        exact ⟨rfl, List.forall_mem_cons.2 ⟨hp, hqs⟩⟩
  · rintro ⟨rfl, hfits⟩
    exact parseBlock_flatMap_encoded hfits

end Reading

/-! ## Adding to a buffer -/

/-- A block is as long as its properties together. -/
theorem length_flatMap_encoded (ps : List Property) : (ps.flatMap Property.encoded).length =
    ps.foldr (fun p total => p.size + total) 0 := by
  induction ps with
  | nil => rfl
  | cons p ps ih =>
    rw [List.flatMap_cons, List.length_append, List.foldr_cons, Property.length_encoded, ih]

/-- Adds a property to a buffer: both lengths are checked, then the parts are put one by one. What a
refused call had put would stay in the buffer. -/
def add (p : Property) : ExceptT Fault (StateM Bytes) Unit := do
  if 255 < p.name.utf8ByteSize then
    throw (.malformed (.longPropertyName p.name.utf8ByteSize))
  if Bytes.wordLimit ≤ p.value.length then
    throw (.malformed (.longPropertyValue p.value.length))
  modify (· ++ [UInt8.ofNat p.name.utf8ByteSize])
  modify (· ++ Utf8.encode p.name)
  modify (· ++ Bytes.ofWord p.value.length)
  modify (· ++ p.value)

/-- One call on a buffer: its answer and the buffer after it. -/
def added (p : Property) (buffer : Bytes) : Except Fault Unit × Bytes := (add p).run buffer

/-- Calls in order on a buffer: their answers and the buffer after them. -/
def addEach : List Property → Bytes → List (Except Fault Unit) × Bytes
  | [], buffer => ([], buffer)
  | p :: ps, buffer =>
      let (answer, next) := added p buffer
      let (answers, last) := addEach ps next
      (answer :: answers, last)

/-- Putting the parts one by one appends the property as a whole or nothing. -/
theorem added_eq (p : Property) (buffer : Bytes) : added p buffer = match append buffer p with
    | .ok longer => (.ok (), longer)
    | .error fault => (.error fault, buffer) := by
  rw [added, add, append, Property.encode]
  by_cases hname : 255 < p.name.utf8ByteSize
  · rw [if_pos hname, if_pos hname]
    rfl
  · rw [if_neg hname, if_neg hname]
    by_cases hvalue : Bytes.wordLimit ≤ p.value.length
    · rw [if_pos hvalue, if_pos hvalue]
      rfl
    · rw [if_neg hvalue, if_neg hvalue]
      change (Except.ok (), _) = (Except.ok (), _)
      simp [Property.encoded]

section Adding

variable {p : Property} {ps : List Property} {buffer : Bytes}

theorem added_of_fits (h : p.Fits) : added p buffer = (.ok (), buffer ++ p.encoded) := by
  rw [added_eq, append, Property.encode_of_fits h]
  rfl

/-- A refused call leaves the buffer. -/
theorem exists_added_of_not_fits (h : ¬ p.Fits) (buffer : Bytes) :
    ∃ fault, added p buffer = (.error fault, buffer) := by
  rw [added_eq, append]
  cases hencode : p.encode with
  | error fault => exact ⟨fault, rfl⟩
  | ok out => exact absurd (Property.fits_of_encode hencode).1 h

/-- Calls in order on a buffer, by what becomes of each. -/
inductive Adds : List Property → Bytes → List (Except Fault Unit) → Bytes → Prop
  | nil {buffer : Bytes} : Adds [] buffer [] buffer
  | written {p : Property} {ps : List Property} {buffer last : Bytes}
      {answers : List (Except Fault Unit)} : p.Fits → Adds ps (buffer ++ p.encoded) answers last →
      Adds (p :: ps) buffer (.ok () :: answers) last
  | refused {p : Property} {ps : List Property} {buffer last : Bytes} {fault : Fault}
      {answers : List (Except Fault Unit)} : ¬ p.Fits → Adds ps buffer answers last →
      Adds (p :: ps) buffer (.error fault :: answers) last

theorem adds_addEach (ps : List Property) (buffer : Bytes) :
    Adds ps buffer (addEach ps buffer).1 (addEach ps buffer).2 := by
  induction ps generalizing buffer with
  | nil => exact .nil
  | cons p ps ih =>
    rw [addEach]
    by_cases hfits : p.Fits
    · rw [added_of_fits hfits]
      exact .written hfits (ih _)
    · obtain ⟨fault, hadded⟩ := exists_added_of_not_fits hfits buffer
      rw [hadded]
      exact .refused hfits (ih buffer)

/-- Properties that fit are all written. -/
theorem addEach_of_fits (h : ∀ p ∈ ps, p.Fits) (buffer : Bytes) :
    addEach ps buffer = (ps.map fun _ => .ok (), buffer ++ ps.flatMap Property.encoded) := by
  induction ps generalizing buffer with
  | nil => simp [addEach]
  | cons p ps ih =>
    obtain ⟨hp, hps⟩ := List.forall_mem_cons.1 h
    rw [addEach, added_of_fits hp]
    dsimp only
    rw [ih hps, List.flatMap_cons, List.append_assoc]
    rfl

/-- The properties whose calls were not refused. -/
def accepted : List Property → List (Except Fault Unit) → List Property
  | p :: ps, .ok () :: answers => p :: accepted ps answers
  | _ :: ps, .error _ :: answers => accepted ps answers
  | _, _ => []

variable {answers : List (Except Fault Unit)} {last : Bytes}

theorem Adds.forall₂ (h : Adds ps buffer answers last) :
    List.Forall₂ (fun p answer => answer = .ok () ↔ p.Fits) ps answers := by
  induction h with
  | nil => exact .nil
  | written hfits _ ih => exact .cons (iff_of_true rfl hfits) ih
  | refused hfits _ ih => exact .cons (iff_of_false (by simp) hfits) ih

theorem Adds.last_eq (h : Adds ps buffer answers last) :
    last = buffer ++ (accepted ps answers).flatMap Property.encoded := by
  induction h with
  | nil => simp [accepted]
  | written _ _ ih => rw [ih, accepted, List.flatMap_cons, List.append_assoc]
  | refused _ _ ih => rw [ih, accepted]

theorem Adds.fits (h : Adds ps buffer answers last) : ∀ p ∈ accepted ps answers, p.Fits := by
  induction h with
  | nil => simp [accepted]
  | written hfits _ ih => exact List.forall_mem_cons.2 ⟨hfits, ih⟩
  | refused _ _ ih => exact ih

end Adding

/-! ## Round trips -/

/-- What calls that start with an empty buffer leave in it. -/
structure Holds (ps : List Property) (answers : List (Except Fault Unit)) (buffer : Bytes) :
    Prop where
  /-- A property is refused exactly if its name is over 255 bytes or its value not below 4 GiB. -/
  refused : List.Forall₂ (fun p answer => answer = .ok () ↔ p.Fits) ps answers
  length : buffer.length = (accepted ps answers).foldr (fun p total => p.size + total) 0
  parse : parseBlock buffer = .ok (accepted ps answers)

theorem Adds.holds {ps : List Property} {answers : List (Except Fault Unit)} {buffer : Bytes}
    (h : Adds ps [] answers buffer) : Holds ps answers buffer where
  refused := h.forall₂
  length := by
    rw [h.last_eq, List.nil_append, length_flatMap_encoded]
  parse := by
    rw [h.last_eq, List.nil_append]
    exact parseBlock_flatMap_encoded h.fits

/-- A refused call leaves the buffer, a buffer that calls were made on reads as the properties that
were not refused, and the properties that a block reads as are written as that block. -/
theorem write_parse_inverse :
    (∀ p buffer, (added p buffer).1 ≠ .ok () → (added p buffer).2 = buffer) ∧
      (∀ ps, Holds ps (addEach ps []).1 (addEach ps []).2) ∧
      ∀ data ps, parseBlock data = .ok ps → addEach ps [] = (ps.map fun _ => .ok (), data) := by
  refine ⟨fun p buffer hrefused => ?_, fun ps => (adds_addEach ps []).holds,
    fun data ps hparse => ?_⟩
  · by_cases hfits : p.Fits
    · rw [added_of_fits hfits] at hrefused
      exact absurd rfl hrefused
    · obtain ⟨fault, hadded⟩ := exists_added_of_not_fits hfits buffer
      rw [hadded]
  · obtain ⟨rfl, hfits⟩ := parseBlock_eq_ok_iff.1 hparse
    rw [addEach_of_fits hfits, List.nil_append]

/-- A property whose name is of this many letters. -/
def named (size : Nat) : Property := ⟨String.ofList (List.replicate size 'n'), [1]⟩

/-- The longest name, a name that is too long, and a property that is empty. -/
def edgeProperties : List Property := [named 255, named 256, ⟨"", []⟩]

/-- The first and the last of them are written, and their block is written again as it was. -/
theorem write_parse_inverse_edge :
    let written := addEach edgeProperties []
    let kept := accepted edgeProperties written.1
    (added (named 256) [0]).2 = [0] ∧ Holds edgeProperties written.1 written.2 ∧
      kept.length = 2 ∧ addEach kept [] = (kept.map fun _ => .ok (), written.2) := by
  intro written kept
  obtain ⟨hrefused, hholds, hinverse⟩ := write_parse_inverse
  have hlong : (added (named 256) [0]).1 ≠ .ok () := by decide +kernel
  have hheld := hholds edgeProperties
  exact ⟨hrefused _ _ hlong, hheld, by decide +kernel, hinverse written.2 kept hheld.parse⟩

end PeerLink.Metadata
