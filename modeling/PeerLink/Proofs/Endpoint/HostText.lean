import PeerLink.Endpoint.Host
import PeerLink.Proofs.Ip.Groups

/-!
# Socket addresses resolve to themselves

What `host:port` resolves to keeps to the rules of its resolver (`HostEndpoint.admits_of_resolve`),
and the text of an address that keeps to the rules resolves to exactly that address
(`HostEndpoint.resolve_render`).
-/

set_option autoImplicit false

namespace PeerLink

/-! ## The text of a socket address -/

namespace SocketAddress

/-- The host in the text of an address, without brackets. -/
def hostText : SocketAddress → List Char
  | v4 ip _ => ip.render
  | v6 ip _ scope => ip.render ++ if scope = 0 then [] else '%' :: Numeral.decimalChars scope.toNat

/-- The text of an address up to the port. -/
def frontText : SocketAddress → List Char
  | v4 ip port => hostText (.v4 ip port)
  | v6 ip port scope => '[' :: (hostText (.v6 ip port scope) ++ [']'])

theorem render_eq (address : SocketAddress) :
    address.render = address.frontText ++ ':' :: Numeral.decimalChars address.port.toNat := by
  cases address with
  | v4 ip port => rfl
  | v6 ip port scope => simp [render, frontText, hostText, SocketAddress.port]

theorem hostText_eq (address : SocketAddress) :
    ∃ zone, address.hostText = address.ip.render ++ zone := by
  cases address with
  | v4 ip port => exact ⟨[], (List.append_nil _).symm⟩
  | v6 ip port scope => exact ⟨_, rfl⟩

/-- The characters of a host text. -/
theorem isLiteral_or_of_mem_hostText {address : SocketAddress} {c : Char}
    (h : c ∈ address.hostText) : Ipv6.isLiteral c = true ∨ c = '%' := by
  cases address with
  | v4 ip port => exact .inl (@IpAddress.isLiteral_of_mem_render (.v4 ip) c h)
  | v6 ip port scope =>
    rcases List.mem_append.1 h with h | h
    · exact .inl (Ipv6.isLiteral_of_mem_render h)
    · split at h
      · cases h
      · rcases List.mem_cons.1 h with rfl | h
        · exact .inr rfl
        · exact .inl (Ipv6.isLiteral_of_isDigit (Numeral.isDigit_of_mem_decimalChars h))

/-- The characters of an address with its port. -/
def isAddressChar (c : Char) : Bool := Ipv6.isLiteral c || c = '%' || c = '[' || c = ']'

theorem isAddressChar_of_mem_render {address : SocketAddress} {c : Char}
    (h : c ∈ address.render) : isAddressChar c = true := by
  have hhost : ∀ {c : Char}, c ∈ address.hostText → isAddressChar c = true := by
    intro c hc
    rcases isLiteral_or_of_mem_hostText hc with hliteral | rfl
    · simp [isAddressChar, hliteral]
    · rfl
  rw [render_eq] at h
  rcases List.mem_append.1 h with h | h
  · cases address with
    | v4 ip port => exact hhost h
    | v6 ip port scope =>
      -- between brackets
      rcases List.mem_cons.1 h with rfl | h
      · rfl
      rcases List.mem_append.1 h with h | h
      · exact hhost h
      · rw [List.mem_singleton.1 h]
        rfl
  · -- the port, after a colon
    rcases List.mem_cons.1 h with rfl | h
    · rfl
    · have hliteral := Ipv6.isLiteral_of_isDigit (Numeral.isDigit_of_mem_decimalChars h)
      simp [isAddressChar, hliteral]

theorem notMem_render {c : Char} (h : isAddressChar c = false) (address : SocketAddress) :
    c ∉ address.render := by
  intro hmem
  rw [isAddressChar_of_mem_render hmem] at h
  cases h

end SocketAddress

theorem IpAddress.render_ne_nil (ip : IpAddress) : ip.render ≠ [] := by
  intro hnil
  have hread := ip.read?_render
  rw [hnil] at hread
  cases hread

/-- Whether an address keeps to the rules of a resolver: a port that may be zero only as a wildcard,
and IPv6 only where it is accepted. -/
structure HostRules.Admits (rules : HostRules) (address : SocketAddress) : Prop where
  port : address.port ≠ 0 ∨ rules.wildcards = true
  family : address.isV4 = true ∨ rules.ipv6 = true

namespace HostEndpoint

variable {net : Network} {rules : HostRules} {text host : List Char} {port : UInt16}
  {address : SocketAddress}

/-! ## What is resolved keeps to the rules -/

theorem readPort_eq_ok {number : UInt16} {wildcards : Bool}
    (h : readPort wildcards text host = .ok number) : number ≠ 0 ∨ wildcards = true := by
  rw [readPort] at h
  split at h
  · cases h
  · next number' _ =>
    split at h
    · cases h
    · next hwildcard =>
      cases h
      cases wildcards with
      | true => exact .inr rfl
      | false => exact .inl fun hzero => hwildcard ⟨hzero, rfl⟩

theorem port_withPort (ip : IpAddress) (port : UInt16) : (ip.withPort port).port = port := by
  cases ip <;> rfl

theorem isV4_withPort (ip : IpAddress) (port : UInt16) : (ip.withPort port).isV4 = ip.isV4 := by
  cases ip <;> rfl

theorem port_of_readNumeric (h : readNumeric text host port = .ok (some address)) :
    address.port = port := by
  rw [readNumeric] at h
  split at h
  · next ip _ =>
    cases h
    exact port_withPort ip port
  · -- no literal, so there is a scope or nothing
    split at h
    · split at h
      · cases h
      · cases h
      · cases h
        rfl
    · split at h <;> cases h

theorem isV4_of_choose {ipv6 : Bool} {candidates : List HostAddress} {found : HostAddress}
    (h : choose ipv6 candidates = some found) : found.isV4 = true ∨ ipv6 = true := by
  rw [choose] at h
  split at h
  · next first hfirst =>
    cases h
    exact .inl (List.find?_some hfirst)
  · split at h
    · next hipv6 => exact .inr hipv6
    · cases h

theorem lookUp_eq_ok {ipv6 : Bool} {name : String} (h : lookUp net ipv6 name port = .ok address) :
    address.port = port ∧ (address.isV4 = true ∨ ipv6 = true) := by
  rw [lookUp] at h
  split at h
  · cases h
  · split at h
    · next found hfound =>
      cases h
      rw [found.isV4_withPort]
      exact ⟨found.port_withPort port, isV4_of_choose hfound⟩
    · cases h

theorem resolveHost_eq_ok (h : resolveHost net rules text host port = .ok address) :
    address.port = port ∧ (address.isV4 = true ∨ rules.ipv6 = true) := by
  rw [resolveHost] at h
  split at h
  · -- a wildcard
    split at h
    · cases h
      cases hipv6 : rules.ipv6 with
      | true => exact ⟨rfl, .inr rfl⟩
      | false => exact ⟨rfl, .inl rfl⟩
    · cases h
  · split at h
    · cases h
    · -- an address
      next numeric hnumeric =>
      split at h
      · cases h
      · next hfamily =>
        cases h
        refine ⟨port_of_readNumeric hnumeric, ?_⟩
        cases hv4 : address.isV4 with
        | true => exact .inl rfl
        | false =>
          exact .inr (by simpa [hv4] using hfamily)
    · -- a name
      split at h
      · exact lookUp_eq_ok h
      · cases h

/-- What a resolved endpoint is made of. -/
theorem exists_of_resolve {endpoint : HostEndpoint} (h : resolve net rules text = .ok endpoint) :
    ∃ front port number, Split.atLast? ':' text = some (front, port) ∧
      readPort rules.wildcards text port = .ok number ∧ unbracketed front ≠ [] ∧
      resolveHost net rules text (unbracketed front) number = .ok endpoint.address ∧
      endpoint.host = String.ofList (unbracketed front) := by
  rw [resolve] at h
  split at h
  · cases h
  · next front port hcut =>
    split at h
    · cases h
    · next number hnumber =>
      dsimp only at h
      split at h
      · cases h
      · next hne =>
        split at h
        · cases h
        · next address haddress =>
          cases h
          exact ⟨front, port, number, hcut, hnumber, hne, haddress, rfl⟩

/-- Whatever is resolved keeps to the rules. -/
theorem admits_of_resolve {endpoint : HostEndpoint} (h : resolve net rules text = .ok endpoint) :
    rules.Admits endpoint.address := by
  obtain ⟨front, port, number, -, hnumber, -, haddress, -⟩ := exists_of_resolve h
  obtain ⟨hport, hfamily⟩ := resolveHost_eq_ok haddress
  refine ⟨?_, hfamily⟩
  rw [hport]
  exact readPort_eq_ok hnumber

/-! ## The text of an address resolves to the address -/

theorem readPort_decimalChars {wildcards : Bool} (h : port ≠ 0 ∨ wildcards = true) :
    readPort wildcards text (Numeral.decimalChars port.toNat) = .ok port := by
  have hstar : Numeral.decimalChars port.toNat ≠ ['*'] :=
    Split.ne_cons_of_notMem (Numeral.notMem_decimalChars rfl _) []
  have hallowed : ¬ (port = 0 ∧ wildcards = false) := by
    rintro ⟨hzero, hwildcards⟩
    rcases h with h | h
    · exact h hzero
    · cases h.symm.trans hwildcards
  rw [readPort, if_neg hstar, Numeral.readUInt16?_decimalChars]
  exact if_neg hallowed

theorem hostText_ne_nil (address : SocketAddress) : address.hostText ≠ [] := by
  obtain ⟨zone, hzone⟩ := address.hostText_eq
  rw [hzone]
  intro hnil
  exact address.ip.render_ne_nil (List.append_eq_nil_iff.1 hnil).1

theorem notMem_hostText {c : Char} (h : (Ipv6.isLiteral c || c = '%') = false)
    (address : SocketAddress) : c ∉ address.hostText := by
  intro hmem
  rcases SocketAddress.isLiteral_or_of_mem_hostText hmem with hliteral | rfl
  · rw [hliteral] at h
    cases h
  · cases h

/-- Brackets are taken off a host, and only brackets. -/
theorem unbracketed_frontText (address : SocketAddress) :
    unbracketed address.frontText = address.hostText := by
  cases address with
  | v6 ip port scope =>
    have hbrackets : Split.enclosed? '[' ']' (SocketAddress.v6 ip port scope).frontText =
        some (SocketAddress.v6 ip port scope).hostText :=
      Split.enclosed?_eq_some_iff.2 rfl
    rw [unbracketed, hbrackets]
    rfl
  | v4 ip port =>
    have hbare : Split.enclosed? '[' ']' (SocketAddress.v4 ip port).hostText = none := by
      refine Option.eq_none_iff_forall_ne_some.2 fun inner hinner => ?_
      exact Split.ne_cons_of_notMem (notMem_hostText rfl _) _ (Split.enclosed?_eq_some_iff.1 hinner)
    rw [SocketAddress.frontText, unbracketed, hbare]
    rfl

/-- A host with a scope is no address literal. -/
theorem read?_scoped (ip : Ipv6) (scope : List Char) :
    IpAddress.read? (ip.render ++ '%' :: scope) = none := by
  refine Option.eq_none_iff_forall_ne_some.2 fun literal hread => ?_
  have hmem : '%' ∈ ip.render ++ '%' :: scope := List.mem_append_right _ List.mem_cons_self
  cases IpAddress.isLiteral_of_read? hread hmem

theorem readNumeric_hostText (text : List Char) (address : SocketAddress) :
    readNumeric text address.hostText address.port = .ok (some address) := by
  cases address with
  | v4 ip port =>
    rw [SocketAddress.hostText, readNumeric, ← IpAddress.render, IpAddress.read?_render]
    rfl
  | v6 ip port scope =>
    rw [SocketAddress.hostText]
    by_cases hscope : scope = 0
    · rw [if_pos hscope, List.append_nil, readNumeric, ← IpAddress.render, IpAddress.read?_render,
        hscope]
      rfl
    · -- the scope follows the first percent sign
      have hpercent : '%' ∉ ip.render := by
        intro hmem
        cases Ipv6.isLiteral_of_mem_render hmem
      rw [if_neg hscope, readNumeric, read?_scoped]
      dsimp only
      rw [Split.atFirst?_append_cons hpercent]
      dsimp only
      rw [Ipv6.read?_render, Numeral.readUInt32?_decimalChars]
      rfl

theorem resolveHost_hostText (hfamily : address.isV4 = true ∨ rules.ipv6 = true) :
    resolveHost net rules text address.hostText address.port = .ok address := by
  have hstar : address.hostText ≠ ['*'] := Split.ne_cons_of_notMem (notMem_hostText rfl _) []
  have hallowed : ¬ (address.isV4 = false ∧ rules.ipv6 = false) := by
    rintro ⟨hv4, hipv6⟩
    rcases hfamily with h | h
    · cases h.symm.trans hv4
    · cases h.symm.trans hipv6
  rw [resolveHost, if_neg hstar, readNumeric_hostText]
  exact if_neg hallowed

/-- The text of an address that keeps to the rules resolves to that address. -/
theorem resolve_render (net : Network) (h : rules.Admits address) :
    resolve net rules address.render = .ok ⟨address, String.ofList address.hostText⟩ := by
  have hcolon := Numeral.notMem_decimalChars (c := ':') rfl address.port.toNat
  rw [SocketAddress.render_eq, resolve, Split.atLast?_append_cons hcolon]
  dsimp only
  rw [readPort_decimalChars h.port]
  dsimp only
  rw [unbracketed_frontText, if_neg (hostText_ne_nil address), resolveHost_hostText h.family]

end HostEndpoint

end PeerLink
