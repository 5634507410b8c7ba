import PeerLink.Proofs.Endpoint.Canonical

/-!
# Addresses are reached by their texts

Every address of the internet has texts under which the transports resolve to exactly that address:
its own text, for TCP also after that of a source of its family, for WebSockets before a path, and
for UDP also after the default interface, which a multicast address of IPv6 needs. Such a text is
the canonical text of the endpoint that it resolves to (`Endpoint.reached_by_text`).
-/

set_option autoImplicit false

namespace PeerLink

/-- The host in the text of an address, as an endpoint keeps it. -/
def SocketAddress.hostName (address : SocketAddress) : String := String.ofList address.hostText

/-! ## Addresses that may be resolved -/

namespace HostRules

variable {policy : TransportPolicy} {role : Role} {address source : SocketAddress}

theorem admits_ofRole (hport : role = .connect → address.port ≠ 0)
    (hfamily : address.isV4 = false → policy.ipv6 = true) :
    (ofRole role policy.ipv6).Admits address := by
  have hv4 : address.isV4 = true ∨ policy.ipv6 = true := by
    cases hv4 : address.isV4 with
    | true => exact .inl rfl
    | false => exact .inr (hfamily hv4)
  cases role with
  | bind => exact ⟨.inr rfl, hv4⟩
  | connect => exact ⟨.inl (hport rfl), hv4⟩

/-- A source may have any port, so it is the family of the destination that it needs. -/
theorem admits_source (hsame : source.isV4 = address.isV4)
    (hfamily : address.isV4 = false → policy.ipv6 = true) :
    (HostRules.source policy.ipv6).Admits source := by
  have hadmits : (ofRole .bind policy.ipv6).Admits source := by
    apply admits_ofRole
    · rintro ⟨⟩
    · rw [hsame]
      exact hfamily
  exact hadmits

end HostRules

namespace Endpoint

variable {net : Network} {policy : TransportPolicy} {role : Role} {text : String} {e : Endpoint}
  {address : SocketAddress}

/-- A text resolves to an endpoint and is the canonical text of it. -/
structure Reaches (net : Network) (policy : TransportPolicy) (role : Role) (text : String)
    (e : Endpoint) : Prop where
  resolves : resolve net e.protocol policy role text = .ok e
  canonical : e.text = text

/-- The texts of an address, and the endpoints that they reach. -/
structure ReachedByText (net : Network) (policy : TransportPolicy) (role : Role)
    (address : SocketAddress) : Prop where
  tcp : Reaches net policy role address.text (.tcp ⟨address, none, address.hostName⟩)
  tcpFrom : ∀ source : SocketAddress, source.isV4 = address.isV4 →
    Reaches net policy role (source.text ++ ";" ++ address.text)
      (.tcp ⟨address, some source, address.hostName⟩)
  ws : ∀ path : String, path.toList.head? = some '/' →
    Reaches net policy role (address.text ++ path) (.ws ⟨address, address.hostName, path⟩)
  wss : ∀ path : String, path.toList.head? = some '/' →
    Reaches net policy role (address.text ++ path) (.wss ⟨address, address.hostName, path⟩)
  /-- A multicast address of IPv6 is reached over an interface only. -/
  udp : ¬ (address.ip.isMulticast = true ∧ address.isV4 = false) →
    ∃ e : UdpEndpoint, e.target = address ∧ e.source = .unspecified ∧
      Reaches net policy role address.text (.udp e)
  udpAny : ∃ e : UdpEndpoint, e.target = address ∧ e.source = .any ∧
    Reaches net policy role ("*;" ++ address.text) (.udp e)

/-! ## Transports -/

/-- A text that reads as the endpoint it renders reaches that endpoint. -/
theorem Reaches.of_text (hread : resolve net e.protocol policy role e.text = .ok e)
    (htext : e.text = text) : Reaches net policy role text e where
  resolves := htext ▸ hread
  canonical := htext

theorem resolve_text_tcp {tcp : TcpEndpoint}
    (h : TcpEndpoint.resolve net policy role tcp.render = .ok tcp) :
    resolve net .tcp policy role (Endpoint.tcp tcp).text = .ok (.tcp tcp) := by
  have hchars : (Endpoint.tcp tcp).text.toList = tcp.render := String.toList_ofList
  unfold resolve
  rw [hchars]
  exact congrArg (Except.map Endpoint.tcp) h

theorem resolve_text_udp {udp : UdpEndpoint}
    (h : UdpEndpoint.resolve net policy role udp.render = .ok udp) :
    resolve net .udp policy role (Endpoint.udp udp).text = .ok (.udp udp) := by
  have hchars : (Endpoint.udp udp).text.toList = udp.render := String.toList_ofList
  unfold resolve
  rw [hchars]
  exact congrArg (Except.map Endpoint.udp) h

/-- WebSocket endpoints, secured or not, are resolved alike. -/
theorem resolve_text_ws {ws : WsEndpoint}
    (h : WsEndpoint.resolve net policy role ws.render = .ok ws) :
    resolve net .ws policy role (Endpoint.ws ws).text = .ok (.ws ws) ∧
      resolve net .wss policy role (Endpoint.wss ws).text = .ok (.wss ws) := by
  have hchars : (String.ofList ws.render).toList = ws.render := String.toList_ofList
  unfold resolve text render
  rw [hchars]
  exact ⟨congrArg (Except.map Endpoint.ws) h, congrArg (Except.map Endpoint.wss) h⟩

theorem text_tcp_sourced (address source : SocketAddress) :
    (Endpoint.tcp ⟨address, some source, address.hostName⟩).text =
      source.text ++ ";" ++ address.text := by
  have hsemicolon : ';' :: address.render = [';'] ++ address.render := rfl
  rw [text, render, TcpEndpoint.render]
  dsimp only
  rw [hsemicolon, String.ofList_append, String.ofList_append, ← String.append_assoc]
  rfl

/-! ## Addresses -/

/-- The bind address follows from the target where the source is no address. -/
theorem reaches_udp {source : UdpSource}
    (hadmits : (HostRules.ofRole role policy.ipv6).Admits address)
    (hsource : source = .unspecified ∨ source = .any)
    (hinterface : ¬ (address.ip.isMulticast = true ∧ address.isV4 = false ∧
      source.choosesInterface = false))
    (htext : String.ofList (source.render ++ address.render) = text) :
    ∃ e : UdpEndpoint, e.target = address ∧ e.source = source ∧
      Reaches net policy role text (.udp e) := by
  have hwritten : source = .unspecified ∨ ∃ name, source.render = name ++ [';'] ∧ ';' ∉ name ∧
      UdpSource.resolve net name = .ok source := by
    rcases hsource with rfl | rfl
    · exact .inl rfl
    · exact .inr ⟨['*'], rfl, by decide, rfl⟩
  obtain ⟨bindAddress, hbind⟩ : ∃ bindAddress,
      UdpEndpoint.bindAddressOf source address role = some bindAddress := by
    rcases hsource with rfl | rfl <;> exact ⟨_, rfl⟩
  refine ⟨⟨source, address, bindAddress, address.ip.isMulticast⟩, rfl, rfl, .of_text ?_ htext⟩
  apply resolve_text_udp
  exact UdpEndpoint.resolve_render_of_admits hwritten hadmits rfl hinterface hbind

/-- Every address that may be resolved at all is reached by its texts: the port may be 0 only where
peers are accepted, and IPv6 has to be on for its addresses. -/
theorem reached_by_text (net : Network) (hport : role = .connect → address.port ≠ 0)
    (hfamily : address.isV4 = false → policy.ipv6 = true) :
    ReachedByText net policy role address := by
  have hadmits := HostRules.admits_ofRole hport hfamily
  have hws : ∀ path : String, path.toList.head? = some '/' →
      WsEndpoint.resolve net policy role (address.render ++ path.toList) =
        .ok ⟨address, address.hostName, path⟩ := by
    intro path hpath
    exact WsEndpoint.resolve_render_of_admits (e := ⟨address, "", path⟩) net hadmits hpath
  have hpathText : ∀ path : String,
      String.ofList (address.render ++ path.toList) = address.text ++ path := by
    intro path
    rw [String.ofList_append, String.ofList_toList, SocketAddress.text]
  constructor
  · -- the source is not written
    refine .of_text (resolve_text_tcp ?_) rfl
    exact TcpEndpoint.resolve_render_of_admits (e := ⟨address, none, ""⟩) net hadmits (by simp)
  · intro source hsource
    refine .of_text (resolve_text_tcp ?_) ?_
    · apply TcpEndpoint.resolve_render_of_admits (e := ⟨address, some source, ""⟩) net hadmits
      rintro _ ⟨⟩
      exact ⟨HostRules.admits_source hsource hfamily, hsource⟩
    · exact text_tcp_sourced address source
  · intro path hpath
    exact .of_text (resolve_text_ws (hws path hpath)).1 (hpathText path)
  · intro path hpath
    exact .of_text (resolve_text_ws (hws path hpath)).2 (hpathText path)
  · intro hunicast
    refine reaches_udp hadmits (.inl rfl) ?_ rfl
    rintro ⟨hmulticast, hv6, -⟩
    exact hunicast ⟨hmulticast, hv6⟩
  · -- the default interface will do for multicast
    refine reaches_udp hadmits (.inr rfl) ?_ ?_
    · rintro ⟨-, -, hchooses⟩
      cases hchooses
    · exact String.ofList_append

/-- A multicast group of IPv6, on one link. -/
def linkGroup : SocketAddress := .v6 ⟨[0xFF02, 0, 0, 0, 0, 0xFFFF, 0, 1], rfl⟩ 5555 3

theorem reached_by_text_linkGroup :
    linkGroup.text = "[ff02::ffff:0:1%3]:5555" ∧ linkGroup.port ≠ 0 ∧
      ReachedByText isolated { ipv6 := true } .connect linkGroup := by
  refine ⟨by decide, by decide, ?_⟩
  exact reached_by_text isolated (fun _ => by decide) fun _ => rfl

end Endpoint

end PeerLink
