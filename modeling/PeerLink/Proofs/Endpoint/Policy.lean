import PeerLink.Endpoint
import PeerLink.Proofs.Endpoint.Canonical
import PeerLink.Proofs.Endpoint.InternetText

/-!
# Endpoints keep to the policy

Every transport over the internet resolves one `host:port`, its destination. All addresses of the
endpoint are of the family of that destination, and what leads there has its port
(`Endpoint.exists_destination`), so the rules for the destination hold of the whole endpoint
(`Endpoint.keeps_policy`): no IPv6 without the option, and nothing to connect to that has a wildcard
for a host or a port.
-/

set_option autoImplicit false

namespace PeerLink

/-! ## The host as written -/

theorem HostRules.ipv6_ofRole (role : Role) (ipv6 : Bool) : (ofRole role ipv6).ipv6 = ipv6 := by
  cases role <;> rfl

namespace HostEndpoint

variable {net : Network} {rules : HostRules} {text : List Char}

/-- The host in the text `host:port`, without the brackets around it. -/
def writtenHost? (text : List Char) : Option (List Char) :=
  (Split.atLast? ':' text).map fun cut => unbracketed cut.1

/-- The wildcard is taken for a host only where wildcards are allowed. -/
theorem wildcards_of_resolveHost {port : UInt16} {address : SocketAddress}
    (h : resolveHost net rules text ['*'] port = .ok address) : rules.wildcards = true := by
  rw [resolveHost, if_pos rfl] at h
  split at h
  · next hwildcards => exact hwildcards
  · cases h

/-- A resolved endpoint keeps the host as written. -/
theorem host_of_resolve {endpoint : HostEndpoint} (h : resolve net rules text = .ok endpoint) :
    ∃ host, writtenHost? text = some host ∧ endpoint.host = String.ofList host ∧
      (rules.wildcards = false → host ≠ ['*']) := by
  obtain ⟨front, port, number, hcut, -, -, haddress, hhost⟩ := exists_of_resolve h
  refine ⟨unbracketed front, ?_, hhost, ?_⟩
  · rw [writtenHost?, hcut]
    rfl
  · intro hrules hstar
    rw [hstar] at haddress
    cases hrules.symm.trans (wildcards_of_resolveHost haddress)

end HostEndpoint

/-! ## The destination of an endpoint -/

/-- The bind address has the port and the family of the target, and so has a source address its
family. -/
theorem UdpEndpoint.bindAddressOf_eq_some {source : UdpSource}
    {target bindAddress : SocketAddress} {role : Role}
    (h : bindAddressOf source target role = some bindAddress) :
    bindAddress.port = target.port ∧ bindAddress.isV4 = target.isV4 ∧
      ∀ ip, source = .ip ip → ip.isV4 = target.isV4 := by
  have hwildcard : target.wildcard.port = target.port ∧ target.wildcard.isV4 = target.isV4 := by
    cases target <;> exact ⟨rfl, rfl⟩
  cases source with
  | ip address =>
    rw [bindAddressOf, Option.ite_none_right_eq_some, Option.some.injEq] at h
    obtain ⟨hfamily, rfl⟩ := h
    refine ⟨HostEndpoint.port_withPort _ _, (HostEndpoint.isV4_withPort _ _).trans hfamily, ?_⟩
    intro ip hip
    cases hip
    exact hfamily
  | unspecified | any | interface _ _ =>
    have hchosen : (if target.ip.isMulticast ∨ role = .connect then target.wildcard else target) =
        bindAddress := Option.some.inj h
    rw [← hchosen]
    refine ⟨?_, ?_, ?_⟩
    · split
      · exact hwildcard.1
      · rfl
    · split
      · exact hwildcard.2
      · rfl
    · intro ip hip
      cases hip

/-- The transports over the internet. -/
def Protocol.IsInternet (p : Protocol) : Prop := p = .tcp ∨ p = .udp ∨ p = .ws ∨ p = .wss

instance (p : Protocol) : Decidable p.IsInternet := inferInstanceAs (Decidable (_ ∨ _))

/-- The address that a source is, if it is one. -/
def UdpSource.ip? : UdpSource → Option IpAddress
  | ip address => some address
  | unspecified | any | interface .. => none

theorem UdpSource.ip?_eq_some_iff {source : UdpSource} {address : IpAddress} :
    source.ip? = some address ↔ source = .ip address := by
  cases source <;> simp [ip?]

theorem SocketAddress.isV4_ip (address : SocketAddress) : address.ip.isV4 = address.isV4 := by
  cases address <;> rfl

namespace Endpoint

/-- The text of the destination, `host:port`, in the text of an endpoint. -/
def destinationText : Protocol → List Char → List Char
  | .tcp, text | .udp, text => afterSource text
  | .ws, text | .wss, text => text.takeWhile (· ≠ '/')
  | .ipc, text | .tipc, text | .vmci, text => text

/-- The addresses that an endpoint leads to, and those that it is bound to for that. -/
def destinations : Endpoint → List SocketAddress
  | tcp e => [e.address]
  | udp e => [e.target, e.bindAddress]
  | ws e | wss e => [e.address]
  | ipc _ | tipc _ | vmci _ => []

/-- The addresses that an endpoint is to be reached from. -/
def sources : Endpoint → List IpAddress
  | tcp e => (e.source.map SocketAddress.ip).toList
  | udp e => e.source.ip?.toList
  | ws _ | wss _ | ipc _ | tipc _ | vmci _ => []

/-- All addresses of an endpoint. -/
def ips (e : Endpoint) : List IpAddress := e.destinations.map SocketAddress.ip ++ e.sources

/-- What an endpoint has from its destination. -/
structure LedBy (e : Endpoint) (destination : HostEndpoint) : Prop where
  port : ∀ address ∈ e.destinations, address.port = destination.address.port
  family : ∀ ip ∈ e.ips, ip.isV4 = destination.address.isV4
  host : ∀ host, e.host? = some host → host = destination.host

variable {net : Network} {protocol : Protocol} {policy : TransportPolicy} {role : Role}

theorem ledBy_tcp {e : TcpEndpoint} (h : ∀ s, e.source = some s → s.isV4 = e.address.isV4) :
    (tcp e).LedBy ⟨e.address, e.host⟩ where
  port := by
    intro address haddress
    rw [List.mem_singleton.1 haddress]
  family := by
    intro ip hip
    rcases List.mem_append.1 hip with hip | hip
    · rw [List.mem_singleton.1 hip, SocketAddress.isV4_ip]
    · obtain ⟨s, hs, rfl⟩ := Option.map_eq_some_iff.1 (Option.mem_toList.1 hip)
      rw [SocketAddress.isV4_ip]
      exact h s hs
  host := by
    intro host hhost
    exact (Option.some.inj hhost).symm

theorem ledBy_udp {e : UdpEndpoint} {host : String}
    (h : UdpEndpoint.bindAddressOf e.source e.target role = some e.bindAddress) :
    (udp e).LedBy ⟨e.target, host⟩ := by
  obtain ⟨hport, hfamily, hsource⟩ := UdpEndpoint.bindAddressOf_eq_some h
  constructor
  · intro address haddress
    simp only [destinations, List.mem_cons, List.not_mem_nil, or_false] at haddress
    rcases haddress with rfl | rfl
    · rfl
    · exact hport
  · intro ip hip
    simp only [ips, destinations, sources, List.map_cons, List.map_nil, List.cons_append,
      List.nil_append, List.mem_cons, Option.mem_toList] at hip
    rcases hip with rfl | rfl | hip
    · exact SocketAddress.isV4_ip _
    · rw [SocketAddress.isV4_ip]
      exact hfamily
    · rw [hsource ip (UdpSource.ip?_eq_some_iff.1 hip)]
  · intro host hhost
    cases hhost

theorem ledBy_ws {e : WsEndpoint} : (ws e).LedBy ⟨e.address, e.host⟩ where
  port := by
    intro address haddress
    rw [List.mem_singleton.1 haddress]
  family := by
    intro ip hip
    rw [ips, sources, List.append_nil] at hip
    rw [List.mem_singleton.1 hip, SocketAddress.isV4_ip]
  host := by
    intro host hhost
    exact (Option.some.inj hhost).symm

/-- A secured endpoint has the addresses and the host of a plain one. -/
theorem ledBy_wss {e : WsEndpoint} : (wss e).LedBy ⟨e.address, e.host⟩ :=
  ⟨ledBy_ws.port, ledBy_ws.family, ledBy_ws.host⟩

/-- An endpoint over the internet is led by its destination, which is resolved under the rules for
the role. -/
theorem exists_destination {text : String} {e : Endpoint} (hprotocol : protocol.IsInternet)
    (h : resolve net protocol policy role text = .ok e) :
    ∃ endpoint, HostEndpoint.resolve net (.ofRole role policy.ipv6)
      (destinationText protocol text.toList) = .ok endpoint ∧ e.LedBy endpoint := by
  rcases hprotocol with rfl | rfl | rfl | rfl
  · obtain ⟨tcp, htcp, rfl⟩ := map_eq_ok h
    obtain ⟨hdestination, -, hfamily⟩ := TcpEndpoint.eq_of_resolve htcp
    exact ⟨_, hdestination, ledBy_tcp hfamily⟩
  · obtain ⟨udp, hudp, rfl⟩ := map_eq_ok h
    obtain ⟨⟨host, hdestination⟩, -, -, -, hbind⟩ := UdpEndpoint.resolve_eq_ok_iff.1 hudp
    exact ⟨_, hdestination, ledBy_udp hbind⟩
  · obtain ⟨ws, hws, rfl⟩ := map_eq_ok h
    exact ⟨_, (WsEndpoint.eq_of_resolve hws).1, ledBy_ws⟩
  · obtain ⟨ws, hws, rfl⟩ := map_eq_ok h
    exact ⟨_, (WsEndpoint.eq_of_resolve hws).1, ledBy_wss⟩

/-! ## The policy -/

/-- What the policy and the role ask of an endpoint over the internet. -/
structure KeepsPolicy (policy : TransportPolicy) (role : Role) (protocol : Protocol) (text : String)
    (e : Endpoint) : Prop where
  transport : e.protocol = protocol
  /-- Without the option there is no IPv6 address. -/
  ipv6 : policy.ipv6 = false → ∀ ip ∈ e.ips, ip.isV4 = true
  /-- All addresses are of one family. -/
  family : ∀ ip ∈ e.ips, ∀ other ∈ e.ips, ip.isV4 = other.isV4
  /-- No port to connect to is left open. -/
  port : role = .connect → ∀ address ∈ e.destinations, address.port ≠ 0
  /-- No host to connect to is the wildcard. -/
  host : ∃ host, HostEndpoint.writtenHost? (destinationText protocol text.toList) = some host ∧
    (role = .connect → host ≠ ['*']) ∧ ∀ kept, e.host? = some kept → kept = String.ofList host

/-- Resolution does not bypass the policy: whatever the text, an endpoint over the internet has no
IPv6 address where IPv6 is off, all its addresses are of one family, and where it is to connect to
neither its port nor its host is a wildcard. -/
theorem keeps_policy {text : String} {e : Endpoint} (hprotocol : protocol.IsInternet)
    (h : resolve net protocol policy role text = .ok e) :
    e.KeepsPolicy policy role protocol text := by
  obtain ⟨destination, hdestination, hled⟩ := exists_destination hprotocol h
  have hadmits := HostEndpoint.admits_of_resolve hdestination
  obtain ⟨host, hhost, hkept, hstar⟩ := HostEndpoint.host_of_resolve hdestination
  refine ⟨protocol_of_resolve h, ?_, ?_, ?_, host, hhost, ?_, ?_⟩
  · intro hipv6 ip hip
    rw [hled.family ip hip]
    apply hadmits.family.resolve_right
    rw [HostRules.ipv6_ofRole, hipv6]
    exact Bool.false_ne_true
  · intro ip hip other hother
    rw [hled.family ip hip, hled.family other hother]
  · rintro rfl address haddress
    rw [hled.port address haddress]
    exact hadmits.port.resolve_right Bool.false_ne_true
  · rintro rfl
    exact hstar rfl
  · intro kept hkeeps
    rw [hled.host kept hkeeps, hkept]

/-- A machine on which one name has an IPv6 address with a scope and an IPv4 address. -/
def twofold : Network where
  interface? _ := none
  lookup? name :=
    if name = "example" then some [.v6 ⟨[65152, 0, 0, 0, 0, 0, 0, 2], rfl⟩ 3, .v4 ⟨10, 0, 0, 2⟩]
    else none

theorem keeps_policy_twofold :
    ∃ e, resolve twofold .tcp {} .connect "10.0.0.1:0;example:80" = .ok e ∧
      e.ips = [.v4 ⟨10, 0, 0, 2⟩, .v4 ⟨10, 0, 0, 1⟩] ∧
      e.KeepsPolicy {} .connect .tcp "10.0.0.1:0;example:80" := by
  have h : resolve twofold .tcp {} .connect "10.0.0.1:0;example:80" =
      .ok (.tcp ⟨.v4 ⟨10, 0, 0, 2⟩ 80, some (.v4 ⟨10, 0, 0, 1⟩ 0), "example"⟩) := rfl
  exact ⟨_, h, rfl, keeps_policy (by decide) h⟩

end Endpoint

end PeerLink
