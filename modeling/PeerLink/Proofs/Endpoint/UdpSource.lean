import PeerLink.Endpoint.Udp
import PeerLink.Proofs.Endpoint.HostText

/-!
# Sources of UDP endpoints

What stands before the semicolon is the wildcard, an address, perhaps in brackets, or the name of an
interface. `UdpSource.GivenBy` says which source is meant, without regard to the order in which the
resolver tries the forms; the resolver finds just this source (`UdpSource.resolve_eq_ok_iff`). The
text of a source is read as that source again (`UdpSource.exists_resolve`).
-/

set_option autoImplicit false

namespace PeerLink

/-! ## Addresses in brackets -/

/-- A text writes an address: it is a literal, or a literal in brackets. -/
def IpAddress.WrittenAs (address : IpAddress) (text : List Char) : Prop :=
  read? text = some address ∨
    ∃ literal, text = '[' :: (literal ++ [']']) ∧ read? literal = some address

/-- Without the brackets a text is read as the address that it writes. -/
theorem HostEndpoint.read?_unbracketed_iff {text : List Char} {address : IpAddress} :
    IpAddress.read? (unbracketed text) = some address ↔ address.WrittenAs text := by
  rw [unbracketed, IpAddress.WrittenAs]
  cases hinner : Split.enclosed? '[' ']' text with
  | none =>
    rw [Option.getD_none]
    refine ⟨.inl, ?_⟩
    rintro (hread | ⟨literal, htext, -⟩)
    · exact hread
    · cases hinner.symm.trans (Split.enclosed?_eq_some_iff.2 htext)
  | some inner =>
    have htext := Split.enclosed?_eq_some_iff.1 hinner
    rw [Option.getD_some]
    refine ⟨fun hread => .inr ⟨inner, htext, hread⟩, ?_⟩
    rintro (hread | ⟨literal, htext', hread⟩)
    · -- no literal has a bracket
      have hbracket : '[' ∈ text := by simp [htext]
      cases IpAddress.isLiteral_of_read? hread hbracket
    · cases hinner.symm.trans (Split.enclosed?_eq_some_iff.2 htext')
      exact hread

theorem HostEndpoint.read?_unbracketed_eq_none_iff {text : List Char} :
    IpAddress.read? (unbracketed text) = none ↔
      ∀ address : IpAddress, ¬ address.WrittenAs text := by
  simp only [Option.eq_none_iff_forall_ne_some, ne_eq, read?_unbracketed_iff]

namespace UdpSource

variable {net : Network} {text : List Char} {source : UdpSource}

/-! ## The source that is meant -/

/-- The source that is given by the text before the semicolon, which may be absent. What is neither
the wildcard nor an address is the name of an interface, unless it cannot be one. -/
inductive GivenBy (net : Network) : Option (List Char) → UdpSource → Prop where
  | absent : GivenBy net none .unspecified
  | star : GivenBy net (some ['*']) .any
  | address {text : List Char} {address : IpAddress} (h : address.WrittenAs text) :
      GivenBy net (some text) (.ip address)
  | name {text : List Char} {index : InterfaceIndex} (hstar : text ≠ ['*'])
      (haddress : ∀ address : IpAddress, ¬ address.WrittenAs text) (hempty : text ≠ [])
      (hport : SocketAddress.read? text = none) (hnul : '\x00' ∉ text)
      (hknown : net.interface? (String.ofList text) = some index) :
      GivenBy net (some text) (.interface (String.ofList text) index)

theorem givenBy_of_resolve (h : resolve net text = .ok source) :
    GivenBy net (some text) source := by
  unfold resolve at h
  dsimp only at h
  split at h
  · next hstar =>
    cases h
    rw [hstar]
    exact .star
  · next hstar =>
    split at h
    · next address hread =>
      cases h
      exact .address (HostEndpoint.read?_unbracketed_iff.1 hread)
    · next hread =>
      have haddress := HostEndpoint.read?_unbracketed_eq_none_iff.1 hread
      split at h
      · cases h
      · next hempty =>
        split at h
        · cases h
        · next hport =>
          split at h
          · cases h
          · next hnul =>
            split at h
            · next index hknown =>
              cases h
              exact .name hstar haddress hempty (Option.not_isSome_iff_eq_none.1 hport) hnul hknown
            · cases h

theorem resolve_of_givenBy (h : GivenBy net (some text) source) :
    resolve net text = .ok source := by
  cases h with
  | star => rfl
  | address hwritten =>
    have hstar : text ≠ ['*'] := by
      rintro rfl
      cases HostEndpoint.read?_unbracketed_iff.2 hwritten
    rw [resolve, if_neg hstar, HostEndpoint.read?_unbracketed_iff.2 hwritten]
  | name hstar haddress hempty hport hnul hknown =>
    rw [resolve, if_neg hstar, HostEndpoint.read?_unbracketed_eq_none_iff.2 haddress]
    dsimp only
    rw [if_neg hempty, if_neg (by simp [hport]), if_neg hnul, hknown]

/-- The resolver finds just the source that is meant. -/
theorem resolve_eq_ok_iff : resolve net text = .ok source ↔ GivenBy net (some text) source :=
  ⟨givenBy_of_resolve, resolve_of_givenBy⟩

/-! ## The text of a source -/

theorem notMem_frontText {c : Char} (h : SocketAddress.isAddressChar c = false)
    (address : SocketAddress) : c ∉ address.frontText := by
  intro hmem
  apply SocketAddress.notMem_render h address
  rw [SocketAddress.render_eq]
  exact List.mem_append_left _ hmem

/-- The text of an address, bracketed where it is IPv6. -/
theorem render_ip (address : IpAddress) :
    (ip address).render = (address.withPort 0).frontText ++ [';'] := by
  cases address with
  | v4 inner => rfl
  | v6 inner => simp [render, IpAddress.withPort, SocketAddress.frontText, SocketAddress.hostText]

theorem hostText_withPort (address : IpAddress) (port : UInt16) :
    (address.withPort port).hostText = address.render := by
  cases address with
  | v4 inner => rfl
  | v6 inner => exact List.append_nil _

/-- An address is written by its text. -/
theorem writtenAs_frontText (address : IpAddress) :
    address.WrittenAs (address.withPort 0).frontText := by
  rw [← HostEndpoint.read?_unbracketed_iff, HostEndpoint.unbracketed_frontText, hostText_withPort,
    IpAddress.read?_render]

/-- The text of a resolved source, without the semicolon after it, is read as the source again. -/
theorem exists_resolve (h : resolve net text = .ok source) (hsemicolon : ';' ∉ text) :
    ∃ name, source.render = name ++ [';'] ∧ ';' ∉ name ∧ resolve net name = .ok source := by
  cases resolve_eq_ok_iff.1 h with
  | star => exact ⟨['*'], rfl, by decide, rfl⟩
  | @address _ address =>
    -- an address is written anew
    exact ⟨_, render_ip address, notMem_frontText rfl _,
      resolve_of_givenBy (.address (writtenAs_frontText address))⟩
  | name =>
    -- the name of an interface stays as it is
    refine ⟨text, ?_, hsemicolon, h⟩
    rw [render, String.toList_ofList]

end UdpSource

end PeerLink
