import PeerLink.Proofs.Endpoint.Canonical

/-!
# One grammar for all transports over the internet

TCP, UDP and WebSockets take `host:port` out of their texts each in its own way and then resolve it
alike. So a text without slashes and semicolons is refused by all of them with one fault, or it is
one address to all of them; a path after it changes nothing but the path
(`Endpoint.grammar_shared`). Only UDP has a rule more: a multicast address of IPv6 needs a source.
-/

set_option autoImplicit false

namespace PeerLink

variable {net : Network} {policy : TransportPolicy} {role : Role}

/-! ## Texts without a source -/

theorem TcpEndpoint.resolve_of_notMem (net : Network) (policy : TransportPolicy) (role : Role)
    {text : List Char} (h : ';' ∉ text) :
    resolve net policy role text =
      (HostEndpoint.resolve net (.ofRole role policy.ipv6) text).map fun endpoint =>
        ⟨endpoint.address, none, endpoint.host⟩ := by
  rw [resolve_eq, afterSource_of_notMem h, sourceText?_of_notMem h]
  rfl

/-- Without a source the bind address follows from the target. -/
theorem UdpEndpoint.resolve_of_notMem (net : Network) (policy : TransportPolicy) (role : Role)
    {text : List Char} (h : ';' ∉ text) :
    resolve net policy role text =
      (HostEndpoint.resolve net (.ofRole role policy.ipv6) text).bind fun ⟨target, _⟩ =>
        if target.ip.isMulticast ∧ target.isV4 = false then
          .error (.ofFlaw .multicastInterface text)
        else
          .ok ⟨.unspecified, target,
            if target.ip.isMulticast ∨ role = .connect then target.wildcard else target,
            target.ip.isMulticast⟩ := by
  have hsource : UdpSource.ofEndpoint net text = .ok .unspecified := by
    rw [UdpSource.ofEndpoint, sourceText?_of_notMem h]
  rw [resolve_eq, hsource, afterSource_of_notMem h]
  cases HostEndpoint.resolve net (.ofRole role policy.ipv6) text with
  | error fault => rfl
  | ok endpoint => simp [Except.bind, bindAddressOf, UdpSource.choosesInterface]

namespace Endpoint

/-- What may follow `host:port` in the text of a WebSocket endpoint. -/
def IsPath (path : String) : Prop := path = "" ∨ path.toList.head? = some '/'

/-- The path that is meant; nothing means the root. -/
def meantPath (path : String) : String := if path = "" then "/" else path

/-- How the other transports read a text, by what TCP makes of it. -/
structure ReadAlike (net : Network) (policy : TransportPolicy) (role : Role) (text : String) :
    Prop where
  refused : ∀ fault, resolve net .tcp policy role text = .error fault →
    resolve net .udp policy role text = .error fault ∧
      ∀ path, IsPath path →
        resolve net .ws policy role (text ++ path) = .error fault ∧
          resolve net .wss policy role (text ++ path) = .error fault
  resolved : ∀ e, resolve net .tcp policy role text = .ok e →
    ∃ address host, e = .tcp ⟨address, none, host⟩ ∧
      (∀ path, IsPath path →
        resolve net .ws policy role (text ++ path) = .ok (.ws ⟨address, host, meantPath path⟩) ∧
          resolve net .wss policy role (text ++ path) =
            .ok (.wss ⟨address, host, meantPath path⟩)) ∧
      if address.ip.isMulticast = true ∧ address.isV4 = false then
        resolve net .udp policy role text = .error (.ofFlaw .multicastInterface text.toList) ∧
          (Fault.ofFlaw .multicastInterface text.toList).kind = .addressSyntax
      else
        ∃ udp : UdpEndpoint, resolve net .udp policy role text = .ok (.udp udp) ∧
          udp.source = .unspecified ∧ udp.target = address

/-! ## Paths -/

theorem pathOf_toList (path : String) : WsEndpoint.pathOf path.toList = meantPath path := by
  rw [WsEndpoint.pathOf, meantPath, String.ofList_toList]
  simp only [String.toList_eq_nil_iff]

/-- A path is kept, and it does not show in what is resolved otherwise. -/
theorem resolve_append_path (net : Network) (policy : TransportPolicy) (role : Role)
    {text path : String} (hslash : '/' ∉ text.toList) (hpath : IsPath path) :
    WsEndpoint.resolve net policy role (text ++ path).toList =
      (HostEndpoint.resolve net (.ofRole role policy.ipv6) text.toList).map fun endpoint =>
        ⟨endpoint.address, endpoint.host, meantPath path⟩ := by
  have hchars : path.toList = [] ∨ path.toList.head? = some '/' := by
    rcases hpath with rfl | hhead
    · exact .inl rfl
    · exact .inr hhead
  rw [String.toList_append, WsEndpoint.resolve_append net policy role hslash hchars, pathOf_toList]

/-! ## The grammar -/

theorem readAlike_of_error {text : String} {fault : Fault}
    (hslash : '/' ∉ text.toList) (hsemicolon : ';' ∉ text.toList)
    (h : HostEndpoint.resolve net (.ofRole role policy.ipv6) text.toList = .error fault) :
    ReadAlike net policy role text := by
  have htcp := TcpEndpoint.resolve_of_notMem net policy role hsemicolon
  have hudp := UdpEndpoint.resolve_of_notMem net policy role hsemicolon
  rw [h] at htcp hudp
  have hrefused : resolve net .tcp policy role text = .error fault :=
    congrArg (Except.map tcp) htcp
  constructor
  · intro fault' hfault
    cases hrefused.symm.trans hfault
    refine ⟨congrArg (Except.map udp) hudp, ?_⟩
    intro path hpath
    have hws := resolve_append_path net policy role hslash hpath
    rw [h] at hws
    exact ⟨congrArg (Except.map ws) hws, congrArg (Except.map wss) hws⟩
  · intro e he
    cases hrefused.symm.trans he

theorem readAlike_of_ok {text : String} {endpoint : HostEndpoint}
    (hslash : '/' ∉ text.toList) (hsemicolon : ';' ∉ text.toList)
    (h : HostEndpoint.resolve net (.ofRole role policy.ipv6) text.toList = .ok endpoint) :
    ReadAlike net policy role text := by
  have htcp := TcpEndpoint.resolve_of_notMem net policy role hsemicolon
  have hudp := UdpEndpoint.resolve_of_notMem net policy role hsemicolon
  rw [h] at htcp hudp
  have hresolved : resolve net .tcp policy role text =
      .ok (.tcp ⟨endpoint.address, none, endpoint.host⟩) :=
    congrArg (Except.map tcp) htcp
  constructor
  · intro fault hfault
    cases hresolved.symm.trans hfault
  · intro e he
    cases hresolved.symm.trans he
    refine ⟨endpoint.address, endpoint.host, rfl, ?_, ?_⟩
    · intro path hpath
      have hws := resolve_append_path net policy role hslash hpath
      rw [h] at hws
      exact ⟨congrArg (Except.map ws) hws, congrArg (Except.map wss) hws⟩
    · -- the rule for multicast is the only one of its own
      dsimp only [Except.bind] at hudp
      split at hudp
      · next hmulticast =>
        rw [if_pos hmulticast]
        exact ⟨congrArg (Except.map udp) hudp, rfl⟩
      · next hmulticast =>
        rw [if_neg hmulticast]
        exact ⟨_, congrArg (Except.map udp) hudp, rfl, rfl⟩

/-- All transports over the internet read one grammar: where a text has neither a slash nor a
semicolon, they all refuse it for the same reason or all resolve it to the same address. -/
theorem grammar_shared (net : Network) (policy : TransportPolicy) (role : Role) {text : String}
    (hslash : '/' ∉ text.toList) (hsemicolon : ';' ∉ text.toList) :
    ReadAlike net policy role text := by
  cases h : HostEndpoint.resolve net (.ofRole role policy.ipv6) text.toList with
  | error fault => exact readAlike_of_error hslash hsemicolon h
  | ok endpoint => exact readAlike_of_ok hslash hsemicolon h

theorem grammar_shared_bracketed :
    resolve isolated .tcp { ipv6 := true } .bind "[::1]:80" =
        .ok (.tcp ⟨.v6 ⟨[0, 0, 0, 0, 0, 0, 0, 1], rfl⟩ 80 0, none, "::1"⟩) ∧
      ReadAlike isolated { ipv6 := true } .bind "[::1]:80" := by
  constructor
  · rfl
  · exact grammar_shared isolated { ipv6 := true } .bind (by decide) (by decide)

end Endpoint

end PeerLink
