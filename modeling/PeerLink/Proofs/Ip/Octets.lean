import PeerLink.Ip.Parser
import PeerLink.Ip.Printer
import PeerLink.Proofs.Text.Cuts
import PeerLink.Proofs.Text.Numerals

/-!
# Texts of IPv4 addresses

Every IPv4 address is read back from its text (`Ipv4.read?_render`), and whatever is read as an
IPv4 address consists of digits and dots.
-/

set_option autoImplicit false

namespace PeerLink

namespace Ipv4

theorem readOctet?_decimalChars (n : UInt8) :
    readOctet? (Numeral.decimalChars n.toNat) = some n := by
  have hlt := n.toNat_lt
  have hlen : ¬ 3 < (Numeral.decimalChars n.toNat).length := by
    rw [Nat.not_lt]
    apply Numeral.length_decimalChars_le_three
    omega
  have hzero : ¬ ((Numeral.decimalChars n.toNat).head? = some '0' ∧
      1 < (Numeral.decimalChars n.toNat).length) :=
    fun h => Numeral.head?_decimalChars h.2 h.1
  have hread : (Numeral.readDigits? (Numeral.decimalChars n.toNat)).filter (· < UInt8.size) =
      some n.toNat := by
    rw [Numeral.readDigits?_decimalChars]
    exact Option.filter_eq_some_iff.2 ⟨rfl, by simpa using hlt⟩
  rw [readOctet?, if_neg (fun h => h.elim hlen hzero), hread]
  exact congrArg some UInt8.ofNat_toNat

theorem isDigit_of_readOctet? {cs : List Char} {n : UInt8} (h : readOctet? cs = some n) {c : Char}
    (hc : c ∈ cs) : c.isDigit = true := by
  rw [readOctet?] at h
  split at h
  · cases h
  · obtain ⟨value, hvalue, -⟩ := Option.map_eq_some_iff.1 h
    exact Numeral.isDigit_of_readDigits? (Option.filter_eq_some_iff.1 hvalue).1 hc

/-- The text of an address is cut into its octets. -/
theorem atEach_render (ip : Ipv4) : Split.atEach '.' ip.render =
    [Numeral.decimalChars ip.a.toNat, Numeral.decimalChars ip.b.toNat,
      Numeral.decimalChars ip.c.toNat, Numeral.decimalChars ip.d.toNat] := by
  have hdot := Numeral.notMem_decimalChars (c := '.') rfl
  simp only [render, List.append_assoc, List.cons_append]
  rw [Split.atEach_append_cons (hdot _), Split.atEach_append_cons (hdot _),
    Split.atEach_append_cons (hdot _), Split.atEach_eq_singleton (hdot _)]

/-- An address is read back from its text. -/
theorem read?_render (ip : Ipv4) : read? ip.render = some ip := by
  rw [read?, atEach_render]
  simp only [readOctet?_decimalChars]
  rfl

/-- The characters of an IPv4 address. -/
def isDotted (c : Char) : Bool := c.isDigit || c = '.'

theorem isDotted_of_read? {cs : List Char} {ip : Ipv4} (h : read? cs = some ip) {c : Char}
    (hc : c ∈ cs) : isDotted c = true := by
  rcases Split.exists_part_of_mem '.' hc with rfl | ⟨part, hpart, hmem⟩
  · rfl
  · have hdigit : c.isDigit = true := by
      rw [read?] at h
      split at h
      · next w x y z hparts =>
        simp only [bind, Option.bind_eq_some_iff] at h
        obtain ⟨_, hw, _, hx, _, hy, _, hz, -⟩ := h
        rw [hparts] at hpart
        simp only [List.mem_cons, List.not_mem_nil, or_false] at hpart
        rcases hpart with rfl | rfl | rfl | rfl
        · exact isDigit_of_readOctet? hw hmem
        · exact isDigit_of_readOctet? hx hmem
        · exact isDigit_of_readOctet? hy hmem
        · exact isDigit_of_readOctet? hz hmem
      · cases h
    rw [isDotted, hdigit]
    rfl

/-- An address is written with digits and dots, since it is read back. -/
theorem isDotted_of_mem_render {ip : Ipv4} {c : Char} (h : c ∈ ip.render) : isDotted c = true :=
  isDotted_of_read? (read?_render ip) h

/-- The text of an address is longer than a group of an IPv6 address. -/
theorem four_lt_length_render (ip : Ipv4) : 4 < ip.render.length := by
  have ha := Numeral.length_decimalChars_pos ip.a.toNat
  have hb := Numeral.length_decimalChars_pos ip.b.toNat
  simp only [render, List.length_append, List.length_cons]
  omega

end Ipv4

end PeerLink
