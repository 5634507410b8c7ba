import PeerLink.Proofs.Ip.Octets

/-!
# Texts of IPv6 addresses

Every IPv6 address is read back from its text (`Ipv6.read?_render`): groups with and without a gap,
wherever the first longest run of zero groups is, and mapped IPv4 addresses. Whatever is read as an
IPv6 address consists of hexadecimal digits, colons and dots (`Ipv6.isLiteral_of_read?`).
-/

set_option autoImplicit false

namespace PeerLink.Ipv6

open Numeral (hexChars hexValue?)

/-! ## Groups -/

theorem notMem_hexChars {c : Char} (h : hexValue? c = none) (n : Nat) : c ∉ hexChars n := by
  intro hmem
  have hsome := Numeral.isSome_hexValue?_of_mem_hexChars hmem
  rw [h] at hsome
  cases hsome

theorem colon_notMem_hexChars (n : Nat) : ':' ∉ hexChars n := notMem_hexChars rfl n

theorem readGroup?_hexChars (g : UInt16) : readGroup? (hexChars g.toNat) = some g := by
  have hlt := g.toNat_lt
  have hempty : ¬ (hexChars g.toNat).isEmpty = true := by
    simp [Numeral.hexChars_ne_nil g.toNat]
  have hlen : ¬ 4 < (hexChars g.toNat).length := by
    rw [Nat.not_lt]
    exact Numeral.length_hexChars_le_four hlt
  rw [readGroup?, if_neg (fun h => h.elim hempty hlen), Numeral.readHexFrom?_hexChars]
  exact congrArg some UInt16.ofNat_toNat

/-- The texts of groups. -/
def groupTexts (gs : List UInt16) : List (List Char) := gs.map fun g => hexChars g.toNat

theorem readHexParts?_groupTexts (gs : List UInt16) :
    readHexParts? (groupTexts gs) = some gs := by
  induction gs with
  | nil => rfl
  | cons g gs ih =>
    rw [groupTexts] at ih ⊢
    rw [List.map_cons, readHexParts?, readGroup?_hexChars, ih]

theorem readParts?_groupTexts (gs : List UInt16) : readParts? (groupTexts gs) = some gs := by
  induction gs with
  | nil => rfl
  | cons g gs ih =>
    rw [groupTexts] at ih ⊢
    cases gs with
    | nil => rw [List.map_cons, List.map_nil, readParts?, readGroup?_hexChars]
    | cons next gs =>
      rw [List.map_cons] at ih
      rw [List.map_cons, List.map_cons, readParts?, readGroup?_hexChars, ih]
      simp

theorem renderGroups_cons_cons (g next : UInt16) (gs : List UInt16) :
    renderGroups (g :: next :: gs) = hexChars g.toNat ++ ':' :: renderGroups (next :: gs) := rfl

/-- The first group of a text begins with a digit. -/
theorem exists_renderGroups_cons (g : UInt16) (gs : List UInt16) :
    ∃ c rest, renderGroups (g :: gs) = c :: rest ∧ c ≠ ':' := by
  obtain ⟨c, rest, hcs⟩ := List.exists_cons_of_ne_nil (Numeral.hexChars_ne_nil g.toNat)
  have hc : c ≠ ':' := by
    rintro rfl
    exact colon_notMem_hexChars g.toNat (hcs ▸ List.mem_cons_self)
  cases gs with
  | nil => exact ⟨c, rest, by rw [renderGroups, hcs], hc⟩
  | cons next gs =>
    rw [renderGroups_cons_cons, hcs]
    exact ⟨c, _, rfl, hc⟩

/-- The text of groups is cut into the texts of the groups. -/
theorem parts_renderGroups (gs : List UInt16) : parts (renderGroups gs) = groupTexts gs := by
  have hcut : ∀ g gs, Split.atEach ':' (renderGroups (g :: gs)) = groupTexts (g :: gs) := by
    intro g gs
    induction gs generalizing g with
    | nil => exact Split.atEach_eq_singleton (colon_notMem_hexChars g.toNat)
    | cons next gs ih =>
      rw [renderGroups_cons_cons, Split.atEach_append_cons (colon_notMem_hexChars g.toNat), ih]
      rfl
  cases gs with
  | nil => rfl
  | cons g gs =>
    obtain ⟨c, rest, hcs, -⟩ := exists_renderGroups_cons g gs
    have hne : ¬ (renderGroups (g :: gs)).isEmpty = true := by simp [hcs]
    rw [parts, if_neg hne, hcut]

/-! ## Gaps -/

theorem atGap?_cons {c : Char} (h : c ≠ ':') (cs : List Char) :
    atGap? (c :: cs) = (atGap? cs).map fun (front, rest) => (c :: front, rest) := by
  simp [atGap?, h]

theorem atGap?_colon_cons {c : Char} (h : c ≠ ':') (cs : List Char) :
    atGap? (':' :: c :: cs) = (atGap? (c :: cs)).map fun (front, rest) => (':' :: front, rest) := by
  simp [atGap?, h]

/-- A gap is looked for after a text without colons. -/
theorem atGap?_append {cs : List Char} (h : ':' ∉ cs) (tail : List Char) :
    atGap? (cs ++ tail) = (atGap? tail).map fun (front, rest) => (cs ++ front, rest) := by
  induction cs with
  | nil => simp
  | cons c cs ih =>
    have hc : c ≠ ':' := fun heq => h (heq ▸ List.mem_cons_self)
    have hcs : ':' ∉ cs := fun hmem => h (List.mem_cons_of_mem _ hmem)
    rw [List.cons_append, atGap?_cons hc, ih hcs, Option.map_map]
    rfl

/-- Groups hold no gap, so it is looked for after them. -/
theorem atGap?_renderGroups_append (gs : List UInt16) (tail : List Char) :
    atGap? (renderGroups gs ++ tail) =
      (atGap? tail).map fun (front, rest) => (renderGroups gs ++ front, rest) := by
  induction gs with
  | nil => simp [renderGroups]
  | cons g gs ih =>
    cases gs with
    | nil => exact atGap?_append (colon_notMem_hexChars g.toNat) tail
    | cons next gs =>
      -- the colon between two groups is followed by a digit
      obtain ⟨c, rest, hcs, hc⟩ := exists_renderGroups_cons next gs
      rw [renderGroups_cons_cons, List.append_assoc, atGap?_append (colon_notMem_hexChars g.toNat),
        hcs, List.cons_append, List.cons_append, atGap?_colon_cons hc, ← List.cons_append, ← hcs, ih,
        Option.map_map, Option.map_map]
      simp [Function.comp_def]

theorem atGap?_renderGroups (gs : List UInt16) : atGap? (renderGroups gs) = none := by
  have h := atGap?_renderGroups_append gs []
  rw [List.append_nil] at h
  exact h

theorem atGap?_gap (gs : List UInt16) (rest : List Char) :
    atGap? (renderGroups gs ++ ':' :: ':' :: rest) = some (renderGroups gs, rest) := by
  have h := atGap?_renderGroups_append gs (':' :: ':' :: rest)
  rw [atGap?, Option.map_some] at h
  dsimp only at h
  rwa [List.append_nil] at h

/-! ## Runs of zero groups -/

/-- A run of zero groups is what it says. -/
theorem eq_replicate_append_drop (gs : List UInt16) :
    gs = List.replicate (zeroRun gs) 0 ++ gs.drop (zeroRun gs) := by
  induction gs with
  | nil => rfl
  | cons g gs ih =>
    by_cases hg : g = 0
    · rw [zeroRun, if_pos hg, List.replicate_succ, List.cons_append, List.drop_succ_cons, ← ih, hg]
    · rw [zeroRun, if_neg hg]
      rfl

/-- A run that is found is the run at its position. -/
theorem longestRun_eq (position : Nat) (best : Nat × Nat) (gs : List UInt16) :
    longestRun position best gs = best ∨
      ∃ k, longestRun position best gs = (position + k, zeroRun (gs.drop k)) := by
  induction gs generalizing position best with
  | nil => exact .inl rfl
  | cons g gs ih =>
    rw [longestRun]
    rcases ih (position + 1)
        (if best.2 < zeroRun (g :: gs) then (position, zeroRun (g :: gs)) else best) with
      hbest | ⟨k, hk⟩
    · -- the run at this position is the best so far or is not
      rw [hbest]
      split
      · exact .inr ⟨0, rfl⟩
      · exact .inl rfl
    · -- a later run is longer
      rw [hk]
      exact .inr ⟨k + 1, by rw [List.drop_succ_cons]; congr 1; omega⟩

/-- The run that is left out of a text stands between what is written before and after it. -/
theorem eq_append_run {gs : List UInt16} {start size : Nat}
    (h : longestRun 0 (0, 0) gs = (start, size)) (hsize : 1 < size) :
    gs = gs.take start ++ List.replicate size 0 ++ gs.drop (start + size) := by
  rcases longestRun_eq 0 (0, 0) gs with hbest | ⟨k, hk⟩
  · -- no run was found, so the size is zero
    rw [h] at hbest
    obtain ⟨-, rfl⟩ := Prod.mk.inj hbest
    omega
  · rw [h, Nat.zero_add] at hk
    obtain ⟨rfl, rfl⟩ := Prod.mk.inj hk
    have hrun := eq_replicate_append_drop (gs.drop start)
    rw [List.drop_drop] at hrun
    rw [List.append_assoc, ← hrun, List.take_append_drop]

/-! ## Reading back -/

theorem ofList?_groups (ip : Ipv6) : ofList? ip.groups = some ip := dif_pos ip.length_eq

/-- A text with or without a gap is read as its groups. -/
theorem read?_renderCompressed (ip : Ipv6) : read? (renderCompressed ip.groups) = some ip := by
  rcases hrun : longestRun 0 (0, 0) ip.groups with ⟨start, size⟩
  rw [renderCompressed, hrun]
  dsimp only
  split
  · next hsize =>
    -- what is written before and after the gap leaves room for the zero groups exactly
    have hgroups := eq_append_run hrun hsize
    have hlength := congrArg List.length hgroups
    rw [ip.length_eq, List.length_append, List.length_append, List.length_replicate] at hlength
    generalize ip.groups.take start = high at hgroups hlength ⊢
    generalize ip.groups.drop (start + size) = low at hgroups hlength ⊢
    have hgap : 8 - high.length - low.length = size := by omega
    rw [read?, atGap?_gap]
    dsimp only
    rw [parts_renderGroups, parts_renderGroups, readHexParts?_groupTexts, readParts?_groupTexts]
    dsimp only
    rw [if_pos (by omega), hgap, ← hgroups, ofList?_groups]
  · -- no run is long enough to be left out
    rw [read?, atGap?_renderGroups, parts_renderGroups, readParts?_groupTexts]
    exact ofList?_groups ip

/-- The two groups of an IPv4 address are found again. -/
theorem toGroups_ofGroups (high low : UInt16) :
    (Ipv4.ofGroups high low).toGroups = [high, low] := by
  have hword : ∀ w : UInt16, (w / 256).toUInt8.toUInt16 * 256 + w.toUInt8.toUInt16 = w := by
    intro w
    have hw := w.toNat_lt
    apply UInt16.toNat_inj.1
    simp only [UInt16.toNat_add, UInt16.toNat_mul, UInt8.toNat_toUInt16, UInt16.toNat_toUInt8,
      UInt16.toNat_div, UInt16.reduceToNat]
    omega
  rw [Ipv4.toGroups, Ipv4.ofGroups, hword, hword]

theorem mapped?_eq_some {ip : Ipv6} {inner : Ipv4} (h : ip.mapped? = some inner) :
    ip.groups = [0, 0, 0, 0, 0, 0xFFFF] ++ inner.toGroups := by
  rw [mapped?] at h
  split at h
  · next high low hgroups =>
    cases h
    rw [hgroups, toGroups_ofGroups]
    rfl
  · cases h

/-- What is written as an IPv4 address is no group. -/
theorem readGroup?_render (inner : Ipv4) : readGroup? inner.render = none :=
  if_pos (.inr inner.four_lt_length_render)

theorem colon_notMem_render (inner : Ipv4) : ':' ∉ inner.render := by
  intro hmem
  have hdotted := Ipv4.isDotted_of_mem_render hmem
  cases hdotted

/-- The last part of a text may be an IPv4 address. -/
theorem readParts?_mapped (inner : Ipv4) :
    readParts? (parts ('f' :: 'f' :: 'f' :: 'f' :: ':' :: inner.render)) =
      some (0xFFFF :: inner.toGroups) := by
  have hcut : parts ('f' :: 'f' :: 'f' :: 'f' :: ':' :: inner.render) =
      [['f', 'f', 'f', 'f'], inner.render] := by
    have hfront := @Split.atEach_append_cons ':' ['f', 'f', 'f', 'f'] (by decide) inner.render
    rw [Split.atEach_eq_singleton (colon_notMem_render inner)] at hfront
    exact hfront
  have hlast : readParts? [inner.render] = some inner.toGroups := by
    rw [readParts?, readGroup?_render, Ipv4.read?_render]
    rfl
  have hfirst : readGroup? ['f', 'f', 'f', 'f'] = some 0xFFFF := by decide
  rw [hcut, readParts?, hfirst, hlast]
  simp

/-- An address is read back from its text. -/
theorem read?_render (ip : Ipv6) : read? ip.render = some ip := by
  cases hmapped : ip.mapped? with
  | none =>
    rw [render, hmapped]
    exact read?_renderCompressed ip
  | some inner =>
    -- the text is cut at its first two colons, which stand for the five zero groups
    rw [render, hmapped, read?, atGap?]
    dsimp only
    rw [readParts?_mapped]
    have hgroups := mapped?_eq_some hmapped
    rw [← ofList?_groups ip, hgroups]
    rfl

/-! ## Characters -/

/-- The characters of an IPv6 address. -/
def isLiteral (c : Char) : Bool := (hexValue? c).isSome || c = ':' || c = '.'

theorem isLiteral_of_hex {c : Char} (h : (hexValue? c).isSome = true) : isLiteral c = true := by
  rw [isLiteral, h]
  rfl

theorem isLiteral_of_isDigit {c : Char} (h : c.isDigit = true) : isLiteral c = true :=
  isLiteral_of_hex (Numeral.isSome_hexValue?_of_isDigit h)

theorem isLiteral_of_isDotted {c : Char} (h : Ipv4.isDotted c = true) : isLiteral c = true := by
  rw [Ipv4.isDotted, Bool.or_eq_true, decide_eq_true_eq] at h
  rcases h with h | rfl
  · exact isLiteral_of_isDigit h
  · rfl

theorem isLiteral_of_readGroup? {cs : List Char} {g : UInt16} (h : readGroup? cs = some g)
    {c : Char} (hc : c ∈ cs) : isLiteral c = true := by
  rw [readGroup?] at h
  split at h
  · cases h
  · obtain ⟨value, hvalue, -⟩ := Option.map_eq_some_iff.1 h
    exact isLiteral_of_hex (Numeral.isSome_hexValue?_of_readHexFrom? hvalue hc)

theorem isLiteral_of_readHexParts? {ps : List (List Char)} {gs : List UInt16}
    (h : readHexParts? ps = some gs) {part : List Char} (hpart : part ∈ ps) {c : Char}
    (hc : c ∈ part) : isLiteral c = true := by
  induction ps generalizing gs with
  | nil => cases hpart
  | cons first ps ih =>
    rw [readHexParts?] at h
    split at h
    · next g gs' hfirst hrest =>
      rcases List.mem_cons.1 hpart with rfl | hpart
      · exact isLiteral_of_readGroup? hfirst hc
      · exact ih hrest hpart
    · cases h

theorem isLiteral_of_readParts? {ps : List (List Char)} {gs : List UInt16}
    (h : readParts? ps = some gs) {part : List Char} (hpart : part ∈ ps) {c : Char}
    (hc : c ∈ part) : isLiteral c = true := by
  fun_induction readParts? ps generalizing gs with
  | case1 => cases hpart
  | case2 last g hlast =>
    rw [List.mem_singleton.1 hpart] at hc
    exact isLiteral_of_readGroup? hlast hc
  | case3 last hlast =>
    -- the last part is an IPv4 address
    rw [List.mem_singleton.1 hpart] at hc
    obtain ⟨ip, hip, -⟩ := Option.map_eq_some_iff.1 h
    exact isLiteral_of_isDotted (Ipv4.isDotted_of_read? hip hc)
  | case4 first ps hne g gs' hrest hfirst ih =>
    rcases List.mem_cons.1 hpart with rfl | hpart
    · exact isLiteral_of_readGroup? hfirst hc
    · exact ih hrest hpart
  | case5 => cases h

/-- A character of a text stands between colons. -/
theorem exists_part_of_mem {cs : List Char} {c : Char} (hc : c ∈ cs) :
    c = ':' ∨ ∃ part ∈ parts cs, c ∈ part := by
  have hne : ¬ cs.isEmpty = true := by
    rintro hempty
    rw [List.isEmpty_iff.1 hempty] at hc
    cases hc
  rw [parts, if_neg hne]
  exact Split.exists_part_of_mem ':' hc

/-- A gap is two colons in a row. -/
theorem eq_of_atGap? {cs front rest : List Char} (h : atGap? cs = some (front, rest)) :
    cs = front ++ ':' :: ':' :: rest := by
  fun_induction atGap? cs generalizing front with
  | case1 => cases h
  | case2 cs =>
    obtain ⟨rfl, rfl⟩ := Prod.mk.inj (Option.some.inj h)
    rfl
  | case3 c cs _ ih =>
    obtain ⟨⟨front', rest'⟩, hgap, heq⟩ := Option.map_eq_some_iff.1 h
    obtain ⟨rfl, rfl⟩ := Prod.mk.inj heq
    rw [ih hgap]
    rfl

/-- Whatever is read as an address consists of hexadecimal digits, colons and dots. -/
theorem isLiteral_of_read? {cs : List Char} {ip : Ipv6} (h : read? cs = some ip) {c : Char}
    (hc : c ∈ cs) : isLiteral c = true := by
  rw [read?] at h
  split at h
  · -- no gap
    obtain ⟨gs, hgs, -⟩ := Option.bind_eq_some_iff.1 h
    rcases exists_part_of_mem hc with rfl | ⟨part, hpart, hmem⟩
    · rfl
    · exact isLiteral_of_readParts? hgs hpart hmem
  · next front rest hgap =>
    split at h
    · next high low hhigh hlow =>
      -- before the gap, in it, or after it
      rw [eq_of_atGap? hgap] at hc
      rcases List.mem_append.1 hc with hc | hc
      · rcases exists_part_of_mem hc with rfl | ⟨part, hpart, hmem⟩
        · rfl
        · exact isLiteral_of_readHexParts? hhigh hpart hmem
      · rcases List.mem_cons.1 hc with rfl | hc
        · rfl
        rcases List.mem_cons.1 hc with rfl | hc
        · rfl
        rcases exists_part_of_mem hc with rfl | ⟨part, hpart, hmem⟩
        · rfl
        · exact isLiteral_of_readParts? hlow hpart hmem
    · cases h

/-- An address is written with such characters, since it is read back. -/
theorem isLiteral_of_mem_render {ip : Ipv6} {c : Char} (h : c ∈ ip.render) : isLiteral c = true :=
  isLiteral_of_read? (read?_render ip) h

/-- An address has a colon in its text. -/
theorem colon_mem_render (ip : Ipv6) : ':' ∈ ip.render := by
  rw [render]
  split
  · exact List.mem_cons_self
  · rw [renderCompressed]
    dsimp only
    split
    · exact List.mem_append_right _ List.mem_cons_self
    · -- eight groups have a colon between the first two
      obtain ⟨groups, hlength⟩ := ip
      match groups, hlength with
      | g :: next :: gs, _ =>
        rw [renderGroups_cons_cons]
        exact List.mem_append_right _ List.mem_cons_self

end PeerLink.Ipv6

namespace PeerLink.IpAddress

/-- An IPv6 address is not taken for an IPv4 address. -/
theorem ipv4_read?_render (ip : Ipv6) : Ipv4.read? ip.render = none := by
  refine Option.eq_none_iff_forall_ne_some.2 fun inner hread => ?_
  cases Ipv4.isDotted_of_read? hread ip.colon_mem_render

/-- An address of either family is read back from its text. -/
theorem read?_render (ip : IpAddress) : read? ip.render = some ip := by
  cases ip with
  | v4 ip => rw [render, read?, Ipv4.read?_render]
  | v6 ip =>
    rw [render, read?, ipv4_read?_render]
    dsimp only
    rw [Ipv6.read?_render]
    rfl

/-- The characters of an address are those of IPv6 addresses. -/
theorem isLiteral_of_mem_render {ip : IpAddress} {c : Char} (h : c ∈ ip.render) :
    Ipv6.isLiteral c = true := by
  cases ip with
  | v4 ip => exact Ipv6.isLiteral_of_isDotted (Ipv4.isDotted_of_mem_render h)
  | v6 ip => exact Ipv6.isLiteral_of_mem_render h

theorem isLiteral_of_read? {cs : List Char} {ip : IpAddress} (h : read? cs = some ip) {c : Char}
    (hc : c ∈ cs) : Ipv6.isLiteral c = true := by
  rw [read?] at h
  split at h
  · next inner hread => exact Ipv6.isLiteral_of_isDotted (Ipv4.isDotted_of_read? hread hc)
  · obtain ⟨inner, hread, -⟩ := Option.map_eq_some_iff.1 h
    exact Ipv6.isLiteral_of_read? hread hc

end PeerLink.IpAddress
