import Mathlib.Data.List.Forall2
import PeerLink.Endpoint.Tipc
import PeerLink.Proofs.Text.Cuts
import PeerLink.Proofs.Text.Numerals

/-!
# The grammar of TIPC endpoints

A grammar of the texts of TIPC endpoints with the endpoint that each text means
(`TipcEndpoint.Means`), in which numerals may have a plus sign and leading zeros, and the fields
between braces may have blanks around them. Resolution accepts exactly this grammar and gives the
endpoint that is meant; every other text is malformed (`TipcEndpoint.accepts_grammar`).
-/

set_option autoImplicit false

namespace PeerLink

/-! ## Blanks -/

namespace Blank

/-- The characters of numerals are not blank. -/
theorem isBlank_of_mem_writes {cs : List Char} {n : Nat} (h : Numeral.Writes cs n) {c : Char}
    (hc : c ∈ cs) : isBlank c = false := by
  rcases h.isDigit_or_of_mem hc with hdigit | rfl
  · rw [Char.isDigit, Bool.and_eq_true, decide_eq_true_eq, decide_eq_true_eq] at hdigit
    obtain ⟨hlow, hhigh⟩ := hdigit
    have hlow : 48 ≤ c.toNat := hlow
    have hhigh : c.toNat ≤ 57 := hhigh
    simp only [isBlank, ranges, List.any_cons, List.any_nil, Bool.or_false, Bool.or_eq_false_iff,
      Bool.and_eq_false_imp, decide_eq_true_eq, decide_eq_false_iff_not]
    omega
  · rfl

/-- A text that does not begin with a blank keeps its beginning. -/
theorem dropWhile_append {cs : List Char} (hne : cs ≠ []) (h : ∀ c ∈ cs, isBlank c = false)
    (rest : List Char) : (cs ++ rest).dropWhile isBlank = cs ++ rest := by
  cases cs with
  | nil => exact absurd rfl hne
  | cons c cs =>
    have hc := h c List.mem_cons_self
    exact List.dropWhile_cons_of_neg (by simp [hc])

/-- Of a text with blanks around it, trimming leaves the text. -/
theorem trim_append {before cs after : List Char} (hne : cs ≠ [])
    (h : ∀ c ∈ cs, isBlank c = false) (hbefore : ∀ c ∈ before, isBlank c = true)
    (hafter : ∀ c ∈ after, isBlank c = true) : trim (before ++ cs ++ after) = cs := by
  have hreverse : ∀ c ∈ cs.reverse, isBlank c = false := fun c hc => h c (List.mem_reverse.1 hc)
  have hkept := dropWhile_append (by simpa using hne) hreverse []
  rw [List.append_nil] at hkept
  rw [trim, List.append_assoc, List.dropWhile_append_of_pos hbefore, dropWhile_append hne h,
    trimEnd_append hafter, trimEnd, hkept, List.reverse_reverse]

end Blank

/-! ## Network addresses -/

namespace TipcNode

/-- A text writes a network address: three numerals between points, those of cluster and node for
numbers of twelve bits. -/
def WrittenAs (n : TipcNode) (cs : List Char) : Prop :=
  ∃ zone cluster node, cs = zone ++ '.' :: (cluster ++ '.' :: node) ∧
    Numeral.Writes zone n.zone.toNat ∧ Numeral.Writes cluster n.cluster.toNat ∧
    Numeral.Writes node n.node.toNat ∧ n.cluster.toNat ≤ 4095 ∧ n.node.toNat ≤ 4095

variable {cs : List Char} {n : TipcNode}

theorem writtenAs_of_read? (h : read? cs = some n) : n.WrittenAs cs := by
  rw [read?] at h
  split at h
  · next zone cluster node hparts =>
    split at h
    · next z c m hzone hcluster hnode =>
      obtain ⟨hfits, hmade⟩ := Option.ite_none_right_eq_some.1 h
      cases hmade
      refine ⟨zone, cluster, node, ?_, Numeral.readUInt8?_eq_some_iff.1 hzone,
        Numeral.readUInt16?_eq_some_iff.1 hcluster, Numeral.readUInt16?_eq_some_iff.1 hnode,
        hfits⟩
      rw [← Split.intercalate_atEach '.' cs, hparts]
      simp [List.intercalate]
    · cases h
  · cases h

theorem read?_of_writtenAs (h : n.WrittenAs cs) : read? cs = some n := by
  obtain ⟨zone, cluster, node, rfl, hzone, hcluster, hnode, hfits⟩ := h
  have hpoint {part : List Char} {value : Nat} (hpart : Numeral.Writes part value) : '.' ∉ part :=
    hpart.notMem rfl (by decide)
  rw [read?, Split.atEach_append_cons (hpoint hzone), Split.atEach_append_cons (hpoint hcluster),
    Split.atEach_eq_singleton (hpoint hnode)]
  dsimp only
  rw [Numeral.readUInt8?_eq_some_iff.2 hzone, Numeral.readUInt16?_eq_some_iff.2 hcluster,
    Numeral.readUInt16?_eq_some_iff.2 hnode]
  exact if_pos hfits

/-- A network address is written with digits, plus signs and points. -/
theorem WrittenAs.notMem (h : n.WrittenAs cs) {c : Char} (hdigit : c.isDigit = false)
    (hplus : c ≠ '+') (hpoint : c ≠ '.') : c ∉ cs := by
  obtain ⟨zone, cluster, node, rfl, hzone, hcluster, hnode, -⟩ := h
  have hzone := hzone.notMem hdigit hplus
  have hcluster := hcluster.notMem hdigit hplus
  have hnode := hnode.notMem hdigit hplus
  simp [hzone, hcluster, hnode, hpoint]

end TipcNode

namespace TipcEndpoint

variable {role : Role} {text : List Char} {e : TipcEndpoint}

/-! ## The grammar -/

/-- A field between braces: a numeral, perhaps with blanks around it. -/
def Field (cs : List Char) (n : UInt32) : Prop :=
  ∃ before numeral after, cs = before ++ numeral ++ after ∧
    (∀ c ∈ before, Blank.isBlank c = true) ∧ (∀ c ∈ after, Blank.isBlank c = true) ∧
    Numeral.Writes numeral n.toNat

/-- The texts in braces, with the lookup domain that goes with them. -/
inductive Braced : List Char → Option TipcNode → TipcEndpoint → Prop where
  | range {first second third : List Char} {serviceType lower upper : UInt32}
      (htype : Field first serviceType) (hlower : Field second lower) (hupper : Field third upper)
      (hfree : 64 ≤ serviceType.toNat) (hbounds : lower.toNat ≤ upper.toNat) :
      Braced ('\x7b' :: (first ++ ',' :: (second ++ ',' :: (third ++ ['\x7d'])))) none
        (.nameSeq serviceType lower upper)
  | service {first second : List Char} {serviceType inst : UInt32} {domain : Option TipcNode}
      (htype : Field first serviceType) (hinst : Field second inst)
      (hfree : 64 ≤ serviceType.toNat) :
      Braced ('\x7b' :: (first ++ ',' :: (second ++ ['\x7d']))) domain
        (.name serviceType inst domain)

/-- The texts of endpoints, with the endpoints that they mean. -/
inductive Means (role : Role) : List Char → TipcEndpoint → Prop where
  | random (hrole : role = .bind) : Means role ['<', '*', '>'] .random
  | portId {place numeral : List Char} {node : TipcNode} {reference : UInt32}
      (hplace : node.WrittenAs place) (hreference : Numeral.Writes numeral reference.toNat) :
      Means role ('<' :: (place ++ ':' :: (numeral ++ ['>']))) (.portId node reference)
  | bare {braced : List Char} {e : TipcEndpoint} (h : Braced braced none e) : Means role braced e
  | located {braced place : List Char} {node : TipcNode} {e : TipcEndpoint}
      (h : Braced braced (some node) e) (hplace : node.WrittenAs place) :
      Means role (braced ++ '@' :: place) e

/-! ## Fields -/

theorem field_iff {cs : List Char} {n : UInt32} :
    Numeral.readUInt32? (Blank.trim cs) = some n ↔ Field cs n := by
  rw [Numeral.readUInt32?_eq_some_iff]
  constructor
  · intro h
    obtain ⟨before, after, hbefore, hafter, heq⟩ := Blank.exists_append_trim_append cs
    exact ⟨before, Blank.trim cs, after, heq, hbefore, hafter, h⟩
  · rintro ⟨before, numeral, after, rfl, hbefore, hafter, hwrites⟩
    rwa [Blank.trim_append hwrites.ne_nil (fun _ => Blank.isBlank_of_mem_writes hwrites) hbefore
      hafter]

theorem readFields?_eq_some_iff {parts : List (List Char)} {ns : List UInt32} :
    readFields? parts = some ns ↔ List.Forall₂ Field parts ns := by
  induction parts generalizing ns with
  | nil => simp [readFields?, eq_comm]
  | cons part parts ih =>
    constructor
    · intro h
      rw [readFields?] at h
      split at h
      · next n rest hn hrest =>
        cases h
        exact .cons (field_iff.1 hn) (ih.1 hrest)
      · cases h
    · rintro (_ | ⟨hfield, hrest⟩)
      rw [readFields?, field_iff.2 hfield, ih.2 hrest]

/-- A field has digits, plus signs and blanks. -/
theorem Field.notMem {cs : List Char} {n : UInt32} (h : Field cs n) {c : Char}
    (hdigit : c.isDigit = false) (hplus : c ≠ '+') (hblank : Blank.isBlank c = false) :
    c ∉ cs := by
  obtain ⟨before, numeral, after, rfl, hbefore, hafter, hwrites⟩ := h
  intro hmem
  rcases List.mem_append.1 hmem with hmem | hmem
  · rcases List.mem_append.1 hmem with hmem | hmem
    · cases (hbefore c hmem).symm.trans hblank
    · exact hwrites.notMem hdigit hplus hmem
  · cases (hafter c hmem).symm.trans hblank

theorem notMem_of_fields {parts : List (List Char)} {ns : List UInt32}
    (h : List.Forall₂ Field parts ns) : ∀ part ∈ parts, ',' ∉ part := by
  induction h with
  | nil => simp
  | cons hfield _ ih =>
    intro part hpart
    rcases List.mem_cons.1 hpart with rfl | hpart
    · exact hfield.notMem rfl (by decide) rfl
    · exact ih part hpart

/-! ## Texts in braces -/

/-- Fields with commas between them, in braces. -/
def inBraces (parts : List (List Char)) : List Char :=
  '\x7b' :: (List.intercalate [','] parts ++ ['\x7d'])

/-- Reading takes the braces off and the fields apart. -/
theorem readService_eq_ok_iff {braced : List Char} {domain : Option TipcNode} :
    readService text braced domain = .ok e ↔
      ∃ parts fields, parts ≠ [] ∧ braced = inBraces parts ∧ List.Forall₂ Field parts fields ∧
        ofFields text domain fields = .ok e := by
  constructor
  · intro h
    rw [readService] at h
    split at h
    · cases h
    · next body hbody =>
      split at h
      · cases h
      · next fields hfields =>
        refine ⟨_, fields, Split.atEach_ne_nil ',' body, ?_, readFields?_eq_some_iff.1 hfields, h⟩
        rw [inBraces, Split.intercalate_atEach]
        exact Split.enclosed?_eq_some_iff.1 hbody
  · rintro ⟨parts, fields, hne, rfl, hfields, h⟩
    rw [readService, inBraces, Split.enclosed?_eq_some_iff.2 rfl]
    dsimp only
    rw [Split.atEach_intercalate hne (notMem_of_fields hfields),
      readFields?_eq_some_iff.2 hfields]
    exact h

theorem not_reserved_iff {serviceType : UInt32} :
    ¬ serviceType < reservedTypes ↔ 64 ≤ serviceType.toNat := by
  rw [UInt32.not_lt, UInt32.le_iff_toNat_le]
  rfl

/-- Three fields are a range, which goes with no domain, and two are a service. -/
theorem ofFields_eq_ok_iff {domain : Option TipcNode} {fields : List UInt32} :
    ofFields text domain fields = .ok e ↔
      (∃ serviceType lower upper, fields = [serviceType, lower, upper] ∧ domain = none ∧
        lower.toNat ≤ upper.toNat ∧ 64 ≤ serviceType.toNat ∧
        e = .nameSeq serviceType lower upper) ∨
      ∃ serviceType inst, fields = [serviceType, inst] ∧ 64 ≤ serviceType.toNat ∧
        e = .name serviceType inst domain := by
  constructor
  · intro h
    unfold ofFields at h
    split at h
    · next serviceType lower upper =>
      split at h
      · cases h
      · next hdomain =>
        split at h
        · cases h
        · next hbounds =>
          split at h
          · cases h
          · next hreserved =>
            cases h
            exact .inl ⟨serviceType, lower, upper, rfl, by simpa using hdomain,
              UInt32.not_lt.1 hbounds, not_reserved_iff.1 hreserved, rfl⟩
    · next serviceType inst =>
      split at h
      · cases h
      · next hreserved =>
        cases h
        exact .inr ⟨serviceType, inst, rfl, not_reserved_iff.1 hreserved, rfl⟩
    · cases h
  · rintro (⟨serviceType, lower, upper, rfl, rfl, hbounds, hfree, rfl⟩ |
      ⟨serviceType, inst, rfl, hfree, rfl⟩)
    · rw [ofFields, if_neg (by simp), if_neg (UInt32.not_lt.2 hbounds),
        if_neg (not_reserved_iff.2 hfree)]
    · rw [ofFields, if_neg (not_reserved_iff.2 hfree)]

/-- What is read between braces is what the grammar says. -/
theorem readService_iff_braced {braced : List Char} {domain : Option TipcNode} :
    readService text braced domain = .ok e ↔ Braced braced domain e := by
  rw [readService_eq_ok_iff]
  constructor
  · rintro ⟨parts, fields, hne, rfl, hfields, h⟩
    rcases ofFields_eq_ok_iff.1 h with ⟨serviceType, lower, upper, rfl, rfl, hbounds, hfree, rfl⟩ |
      ⟨serviceType, inst, rfl, hfree, rfl⟩
    · rcases hfields with _ | ⟨htype, _ | ⟨hlower, _ | ⟨hupper, _ | _⟩⟩⟩
      simpa [inBraces, List.intercalate] using Braced.range htype hlower hupper hfree hbounds
    · rcases hfields with _ | ⟨htype, _ | ⟨hinst, _ | _⟩⟩
      simpa [inBraces, List.intercalate] using Braced.service htype hinst hfree
  · intro h
    cases h with
    | @range first second third serviceType lower upper htype hlower hupper hfree hbounds =>
      refine ⟨[first, second, third], [serviceType, lower, upper], by simp, ?_, ?_, ?_⟩
      · simp [inBraces, List.intercalate]
      · exact .cons htype (.cons hlower (.cons hupper .nil))
      · exact ofFields_eq_ok_iff.2 (.inl ⟨_, _, _, rfl, rfl, hbounds, hfree, rfl⟩)
    | @service first second serviceType inst _ htype hinst hfree =>
      refine ⟨[first, second], [serviceType, inst], by simp, ?_, ?_, ?_⟩
      · simp [inBraces, List.intercalate]
      · exact .cons htype (.cons hinst .nil)
      · exact ofFields_eq_ok_iff.2 (.inr ⟨_, _, rfl, hfree, rfl⟩)

/-- No sign of the other forms occurs in a text in braces. -/
theorem Braced.notMem {braced : List Char} {domain : Option TipcNode} (h : Braced braced domain e)
    {c : Char} (hdigit : c.isDigit = false) (hblank : Blank.isBlank c = false)
    (hsign : c ∉ ['+', ',', '\x7b', '\x7d']) : c ∉ braced := by
  simp only [List.mem_cons, List.not_mem_nil, or_false, not_or] at hsign
  obtain ⟨hplus, hcomma, hopen, hclose⟩ := hsign
  cases h with
  | range htype hlower hupper =>
    have htype := htype.notMem hdigit hplus hblank
    have hlower := hlower.notMem hdigit hplus hblank
    have hupper := hupper.notMem hdigit hplus hblank
    simp [htype, hlower, hupper, hcomma, hopen, hclose]
  | service htype hinst =>
    have htype := htype.notMem hdigit hplus hblank
    have hinst := hinst.notMem hdigit hplus hblank
    simp [htype, hinst, hcomma, hopen, hclose]

theorem Braced.exists_eq {braced : List Char} {domain : Option TipcNode}
    (h : Braced braced domain e) : ∃ rest, braced = '\x7b' :: rest := by
  cases h <;> exact ⟨_, rfl⟩

/-! ## All forms -/

theorem readPortId_eq_ok_iff {body : List Char} :
    readPortId text body = .ok e ↔
      ∃ place numeral node reference, body = place ++ ':' :: numeral ∧
        TipcNode.WrittenAs node place ∧ Numeral.Writes numeral (UInt32.toNat reference) ∧
        e = .portId node reference := by
  constructor
  · intro h
    rw [readPortId] at h
    split at h
    · cases h
    · next place numeral hcut =>
      split at h
      · cases h
      · cases h
      · next node reference hnode hreference =>
        cases h
        exact ⟨place, numeral, node, reference, (Split.atFirst?_eq_some_iff.1 hcut).1,
          TipcNode.writtenAs_of_read? hnode, Numeral.readUInt32?_eq_some_iff.1 hreference, rfl⟩
  · rintro ⟨place, numeral, node, reference, rfl, hplace, hreference, rfl⟩
    have hcolon : ':' ∉ place := hplace.notMem rfl (by decide) (by decide)
    rw [readPortId, Split.atFirst?_append_cons hcolon]
    dsimp only
    rw [TipcNode.read?_of_writtenAs hplace, Numeral.readUInt32?_eq_some_iff.2 hreference]

theorem means_of_resolve (h : resolve role text = .ok e) : Means role text e := by
  rw [resolve] at h
  split at h
  · next hrandom =>
    split at h
    · next hrole =>
      cases h
      rw [hrandom]
      exact .random hrole
    · cases h
  · split at h
    · -- in angle brackets
      next body hbody =>
      obtain ⟨place, numeral, node, reference, rfl, hplace, hreference, rfl⟩ :=
        readPortId_eq_ok_iff.1 h
      rw [Split.enclosed?_eq_some_iff.1 hbody, List.append_assoc]
      exact .portId hplace hreference
    · split at h
      · exact .bare (readService_iff_braced.1 h)
      · next braced place hcut =>
        split at h
        · next node hnode =>
          rw [(Split.atFirst?_eq_some_iff.1 hcut).1]
          exact .located (readService_iff_braced.1 h) (TipcNode.writtenAs_of_read? hnode)
        · cases h

/-- A text that begins with a brace is no port. -/
theorem enclosed?_brace (rest : List Char) : Split.enclosed? '<' '>' ('\x7b' :: rest) = none := by
  rw [Split.enclosed?, if_neg (by simp)]

theorem resolve_of_means (h : Means role text e) : resolve role text = .ok e := by
  cases h with
  | random hrole => rw [resolve, if_pos rfl, if_pos hrole]
  | @portId place numeral node reference hplace hreference =>
    have hrandom : '<' :: (place ++ ':' :: (numeral ++ ['>'])) ≠ ['<', '*', '>'] := by
      -- any port has no colon
      intro heq
      have hcolon : ':' ∈ '<' :: (place ++ ':' :: (numeral ++ ['>'])) := by simp
      rw [heq] at hcolon
      exact absurd hcolon (by decide)
    have hbody : Split.enclosed? '<' '>' ('<' :: (place ++ ':' :: (numeral ++ ['>']))) =
        some (place ++ ':' :: numeral) :=
      Split.enclosed?_eq_some_iff.2 (by simp)
    rw [resolve, if_neg hrandom, hbody]
    exact readPortId_eq_ok_iff.2 ⟨_, _, _, _, rfl, hplace, hreference, rfl⟩
  | bare h =>
    have hat := Split.atFirst?_eq_none_iff.2 (h.notMem (c := '@') rfl rfl (by decide))
    have hread : readService text text none = .ok e := readService_iff_braced.2 h
    obtain ⟨rest, rfl⟩ := h.exists_eq
    rw [resolve, if_neg (by simp), enclosed?_brace]
    dsimp only
    rw [hat]
    exact hread
  | @located braced place node _ h hplace =>
    -- the first at sign ends the braces
    have hat := Split.atFirst?_append_cons (h.notMem (c := '@') rfl rfl (by decide)) place
    obtain ⟨rest, rfl⟩ := h.exists_eq
    rw [List.cons_append] at hat ⊢
    rw [resolve, if_neg (by simp), enclosed?_brace]
    dsimp only
    rw [hat]
    dsimp only
    rw [TipcNode.read?_of_writtenAs hplace]
    exact readService_iff_braced.2 h

/-! ## Texts that mean nothing -/

theorem exists_flaw_of_readPortId {body : List Char} {fault : Fault}
    (h : readPortId text body = .error fault) : ∃ flaw, fault = .ofFlaw flaw text := by
  rw [readPortId] at h
  split at h
  · cases h
    exact ⟨_, rfl⟩
  · split at h
    · cases h
      exact ⟨_, rfl⟩
    · cases h
      exact ⟨_, rfl⟩
    · cases h

theorem exists_flaw_of_ofFields {domain : Option TipcNode} {fields : List UInt32} {fault : Fault}
    (h : ofFields text domain fields = .error fault) : ∃ flaw, fault = .ofFlaw flaw text := by
  unfold ofFields at h
  split at h
  · -- three fields
    split at h
    · cases h
      exact ⟨_, rfl⟩
    · split at h
      · cases h
        exact ⟨_, rfl⟩
      · split at h
        · cases h
          exact ⟨_, rfl⟩
        · cases h
  · -- two fields
    split at h
    · cases h
      exact ⟨_, rfl⟩
    · cases h
  · cases h
    exact ⟨_, rfl⟩

theorem exists_flaw_of_readService {braced : List Char} {domain : Option TipcNode} {fault : Fault}
    (h : readService text braced domain = .error fault) : ∃ flaw, fault = .ofFlaw flaw text := by
  rw [readService] at h
  split at h
  · cases h
    exact ⟨_, rfl⟩
  · split at h
    · cases h
      exact ⟨_, rfl⟩
    · exact exists_flaw_of_ofFields h

/-- Whatever is refused is a malformed text. -/
theorem exists_flaw_of_resolve {fault : Fault} (h : resolve role text = .error fault) :
    ∃ flaw, fault = .ofFlaw flaw text := by
  rw [resolve] at h
  split at h
  · split at h
    · cases h
    · cases h
      exact ⟨_, rfl⟩
  · split at h
    · exact exists_flaw_of_readPortId h
    · split at h
      · exact exists_flaw_of_readService h
      · split at h
        · exact exists_flaw_of_readService h
        · cases h
          exact ⟨_, rfl⟩

/-- Resolution accepts exactly the texts of the grammar and gives the endpoint that a text means;
every other text is refused as malformed. -/
theorem accepts_grammar (role : Role) (text : List Char) :
    (∀ e, resolve role text = .ok e ↔ Means role text e) ∧
      ((∀ e, ¬ Means role text e) →
        ∃ flaw, resolve role text = .error (.ofFlaw flaw text) ∧
          (Fault.ofFlaw flaw text).kind = .addressSyntax) := by
  constructor
  · intro e
    exact ⟨means_of_resolve, resolve_of_means⟩
  · intro hnone
    cases h : resolve role text with
    | ok e => exact absurd (means_of_resolve h) (hnone e)
    | error fault =>
      obtain ⟨flaw, rfl⟩ := exists_flaw_of_resolve h
      exact ⟨flaw, rfl, rfl⟩

/-- Blanks, a plus sign and leading zeros make no difference; types below 64 are not free. -/
theorem accepts_grammar_samples :
    Means .connect "\x7b +0100 ,7\x7d@1.2.3".toList (.name 100 7 (some ⟨1, 2, 3⟩)) ∧
      (∀ e, ¬ Means .connect "\x7b63,7\x7d".toList e) ∧
      ∃ flaw, resolve .connect "\x7b63,7\x7d".toList =
          .error (.ofFlaw flaw "\x7b63,7\x7d".toList) ∧
        (Fault.ofFlaw flaw "\x7b63,7\x7d".toList).kind = .addressSyntax := by
  have hrefused : resolve .connect "\x7b63,7\x7d".toList =
      .error (.ofFlaw .reservedType "\x7b63,7\x7d".toList) := rfl
  have hnone : ∀ e, ¬ Means .connect "\x7b63,7\x7d".toList e := by
    intro e he
    cases hrefused.symm.trans (((accepts_grammar .connect _).1 e).2 he)
  refine ⟨?_, hnone, (accepts_grammar .connect _).2 hnone⟩
  exact ((accepts_grammar .connect _).1 _).1 rfl

end TipcEndpoint

end PeerLink
