import PeerLink.Proofs.Metadata.RoundTrip

/-!
# Truncated blocks

Reading goes on behind a block that reads as it would at the start (`Metadata.parseBlock_append`).
So a block that is cut off reads exactly if the cut falls between two properties, and then as those
before the cut (`Metadata.parseBlock_take_eq_ok_iff`); any other cut is noticed
(`Metadata.truncation_noticed`).
-/

set_option autoImplicit false

namespace PeerLink.Metadata

variable {a : Bytes} {p : Property} {ps qs : List Property} {k : Nat}

/-! ## A block after another -/

theorem parseBlock_encoded_append (h : p.Fits) (rest : Bytes) :
    parseBlock (p.encoded ++ rest) = (parseBlock rest).map (p :: ·) :=
  parseBlock_of_readProperty? (readProperty?_encoded p rest h.1 h.2)

/-- Behind a block that reads, reading goes on as at the start. -/
theorem parseBlock_append (h : parseBlock a = .ok ps) (b : Bytes) :
    parseBlock (a ++ b) = (parseBlock b).map (ps ++ ·) := by
  obtain ⟨rfl, hfits⟩ := parseBlock_eq_ok_iff.1 h
  clear h
  induction ps with
  | nil => cases hb : parseBlock b <;> simp [hb, Except.map]
  | cons p ps ih =>
    obtain ⟨hp, hps⟩ := List.forall_mem_cons.1 hfits
    rw [List.flatMap_cons, List.append_assoc, parseBlock_encoded_append hp, ih hps]
    cases parseBlock b <;> rfl

/-! ## Cuts -/

/-- Where the first `j` properties of a block end. -/
def boundary (ps : List Property) (j : Nat) : Nat :=
  (ps.take j).foldr (fun p total => p.size + total) 0

/-- A block that is cut between two properties is the block of those before the cut. -/
theorem take_boundary (ps : List Property) (j : Nat) :
    (ps.flatMap Property.encoded).take (boundary ps j) = (ps.take j).flatMap Property.encoded := by
  have hparts : ps.flatMap Property.encoded =
      (ps.take j).flatMap Property.encoded ++ (ps.drop j).flatMap Property.encoded := by
    rw [← List.flatMap_append, List.take_append_drop]
  rw [boundary, ← length_flatMap_encoded, hparts, List.take_left]

/-- A block of properties reads up to a cut exactly if the cut falls behind some of them. -/
theorem parseBlock_take_eq_ok_iff (hfits : ∀ p ∈ ps, p.Fits)
    (hk : k ≤ (ps.flatMap Property.encoded).length) :
    parseBlock ((ps.flatMap Property.encoded).take k) = .ok qs ↔
      ∃ j ≤ ps.length, k = boundary ps j ∧ qs = ps.take j := by
  constructor
  · intro hread
    -- what follows the cut reads as the properties that are missing
    have hwhole := parseBlock_append hread ((ps.flatMap Property.encoded).drop k)
    rw [List.take_append_drop, parseBlock_flatMap_encoded hfits] at hwhole
    cases hrest : parseBlock ((ps.flatMap Property.encoded).drop k) with
    | error fault =>
      rw [hrest] at hwhole
      cases hwhole
    | ok others =>
      rw [hrest] at hwhole
      have hps : ps = qs ++ others := Except.ok.inj hwhole
      have hqs : ps.take qs.length = qs := by rw [hps, List.take_left]
      have hlength := congrArg List.length (parseBlock_eq_ok_iff.1 hread).1
      rw [List.length_take_of_le hk, length_flatMap_encoded] at hlength
      refine ⟨qs.length, by simp [hps], ?_, hqs.symm⟩
      rw [boundary, hqs]
      exact hlength
  · rintro ⟨j, -, rfl, rfl⟩
    rw [take_boundary]
    exact parseBlock_flatMap_encoded fun p hp => hfits p (List.mem_of_mem_take hp)

/-- Wherever a written block is cut off, it reads as the properties before the cut if the cut falls
between two of them, and is malformed otherwise. Blocks that are put together read as their
properties together, as far as the second one reads. -/
theorem truncation_noticed :
    (∀ ps block, appendAll [] ps = .ok block → ∀ k ≤ block.length,
      (∀ qs, parseBlock (block.take k) = .ok qs ↔
        ∃ j ≤ ps.length, k = boundary ps j ∧ qs = ps.take j) ∧
      ((∀ j ≤ ps.length, k ≠ boundary ps j) →
        parseBlock (block.take k) = .error (.malformed .metadata))) ∧
    ∀ a b ps, parseBlock a = .ok ps → parseBlock (a ++ b) = (parseBlock b).map (ps ++ ·) := by
  refine ⟨fun ps block hwritten k hk => ?_, fun a b ps h => parseBlock_append h b⟩
  obtain ⟨hfits, rfl⟩ := appendAll_eq_ok_iff.1 hwritten
  rw [List.nil_append] at hk ⊢
  have hiff : ∀ qs, parseBlock ((ps.flatMap Property.encoded).take k) = .ok qs ↔
      ∃ j ≤ ps.length, k = boundary ps j ∧ qs = ps.take j := fun qs =>
    parseBlock_take_eq_ok_iff hfits hk
  refine ⟨hiff, fun hinside => ?_⟩
  cases hread : parseBlock ((ps.flatMap Property.encoded).take k) with
  | error fault => rw [parseBlock_eq_error hread]
  | ok qs =>
    obtain ⟨j, hj, hboundary, -⟩ := (hiff qs).1 hread
    exact absurd hboundary (hinside j hj)

/-- An empty property and one with a name and a value. -/
def twoProperties : List Property := [⟨"", []⟩, ⟨"X", [7]⟩]

/-- Behind the empty property the block reads, one byte before or after that it does not. -/
theorem truncation_noticed_twoProperties :
    ∃ block, appendAll [] twoProperties = .ok block ∧ block.length = 12 ∧
      parseBlock (block.take 5) = .ok [⟨"", []⟩] ∧
      parseBlock (block.take 4) = .error (.malformed .metadata) ∧
      parseBlock (block.take 6) = .error (.malformed .metadata) ∧
      parseBlock (block.take 5 ++ block) = .ok (⟨"", []⟩ :: twoProperties) := by
  obtain ⟨hcuts, hconcat⟩ := truncation_noticed
  have hwritten : appendAll [] twoProperties =
      .ok [0, 0, 0, 0, 0, 1, 0x58, 0, 0, 0, 1, 7] := by decide +kernel
  have hfirst := ((hcuts _ _ hwritten 5 (by decide)).1 [⟨"", []⟩]).2 ⟨1, by decide, by decide, rfl⟩
  have hall := ((hcuts _ _ hwritten 12 (by decide)).1 twoProperties).2
    ⟨2, by decide, by decide, rfl⟩
  have hinside : ∀ j ≤ twoProperties.length, boundary twoProperties j ∈ [0, 5, 12] := by decide
  refine ⟨_, hwritten, rfl, hfirst, ?_, ?_, ?_⟩
  · exact (hcuts _ _ hwritten 4 (by decide)).2 fun j hj hk => absurd (hinside j hj) (by simp [← hk])
  · exact (hcuts _ _ hwritten 6 (by decide)).2 fun j hj hk => absurd (hinside j hj) (by simp [← hk])
  · rw [hconcat _ _ _ hfirst]
    exact congrArg (Except.map _) hall

end PeerLink.Metadata
