import PeerLink.Proofs.Endpoint.Policy

/-!
# Turning IPv6 on

Without the option every address is IPv4; with it, every host but the wildcard keeps its address,
and the wildcard gets that of IPv6 (`HostEndpoint.resolve_widened`). So whatever resolves without
the option resolves with it too, to the same where no host is the wildcard, with one exception: of
the hosts of source and destination just one is the wildcard, and their families come to differ
(`Endpoint.ipv6_widens`).
-/

set_option autoImplicit false

namespace PeerLink

variable {net : Network} {policy : TransportPolicy} {role : Role} {text : List Char}

/-! ## The address of a host -/

theorem HostRules.ofRole_with_ipv6 (role : Role) (ipv6 : Bool) :
    { ofRole role false with ipv6 := ipv6 } = ofRole role ipv6 := by
  cases role <;> rfl

namespace HostEndpoint

variable {rules : HostRules} {host : List Char} {port : UInt16} {address : SocketAddress}
  {endpoint : HostEndpoint}

/-- What becomes of the address of a host where IPv6 is turned on. -/
def widened (host : List Char) (address : SocketAddress) : SocketAddress :=
  if host = ['*'] then .v6 .unspecified address.port 0 else address

theorem widened_of_ne (h : host ≠ ['*']) : widened host address = address := if_neg h

/-- Just the wildcard changes its family. -/
theorem isV4_widened (host : List Char) (h : address.isV4 = true) :
    (widened host address).isV4 = decide (host ≠ ['*']) := by
  unfold widened
  split
  · next hstar => rw [hstar]; rfl
  · next hhost => rw [h, decide_eq_true hhost]

/-- A name keeps its address: one that has an IPv4 address is still resolved to it. -/
theorem lookUp_widened {name : String} (h : lookUp net false name port = .ok address) :
    lookUp net true name port = .ok address := by
  unfold lookUp at h ⊢
  split at h
  · cases h
  · next candidates _ =>
    unfold choose at h ⊢
    cases hfirst : candidates.find? HostAddress.isV4 with
    | some found =>
      rw [hfirst] at h
      exact h
    | none =>
      -- without an IPv4 address there was nothing to choose
      rw [hfirst] at h
      cases h

theorem resolveHost_widened (hipv6 : rules.ipv6 = false)
    (h : resolveHost net rules text host port = .ok address) :
    resolveHost net { rules with ipv6 := true } text host port = .ok (widened host address) := by
  have hport := (resolveHost_eq_ok h).1
  rw [resolveHost] at h
  by_cases hstar : host = ['*']
  · rw [if_pos hstar] at h
    rw [resolveHost, if_pos hstar, widened, if_pos hstar, hport]
    split at h
    · next hwildcards => exact if_pos hwildcards
    · cases h
  · rw [if_neg hstar] at h
    rw [resolveHost, if_neg hstar, widened, if_neg hstar]
    split at h
    · cases h
    · -- an address, which is IPv4
      split at h
      · cases h
      · cases h
        exact if_neg fun hrefused => Bool.noConfusion hrefused.2
    · -- a name
      split at h
      · next hnames =>
        rw [hipv6] at h
        exact (if_pos hnames).trans (lookUp_widened h)
      · cases h

/-- Where IPv6 is turned on, an endpoint keeps its host, and its address unless that is the
wildcard. -/
theorem resolve_widened (hipv6 : rules.ipv6 = false) (h : resolve net rules text = .ok endpoint) :
    endpoint.address.isV4 = true ∧
      ∃ host, writtenHost? text = some host ∧
        resolve net { rules with ipv6 := true } text =
          .ok { endpoint with address := widened host endpoint.address } := by
  constructor
  · apply (admits_of_resolve h).family.resolve_right
    rw [hipv6]
    exact Bool.false_ne_true
  obtain ⟨front, port, number, hcut, hnumber, hne, haddress, hhost⟩ := exists_of_resolve h
  refine ⟨unbracketed front, ?_, ?_⟩
  · rw [writtenHost?, hcut]
    rfl
  · rw [resolve, hcut]
    dsimp only
    rw [hnumber]
    dsimp only
    rw [if_neg hne, resolveHost_widened hipv6 haddress, ← hhost]

/-- The destination of an endpoint where IPv6 is turned on. -/
theorem resolve_ofRole_widened (h : resolve net (.ofRole role false) text = .ok endpoint) :
    endpoint.address.isV4 = true ∧
      ∃ host, writtenHost? text = some host ∧
        resolve net (.ofRole role true) text =
          .ok { endpoint with address := widened host endpoint.address } := by
  have hwidened := resolve_widened (HostRules.ipv6_ofRole role false) h
  rwa [HostRules.ofRole_with_ipv6] at hwidened

end HostEndpoint

/-! ## Source and destination -/

namespace TcpEndpoint

variable {e : TcpEndpoint}

/-- An endpoint is made of its destination and its source. -/
theorem resolve_of_parts {endpoint : HostEndpoint} {source : Option SocketAddress}
    (hdestination : HostEndpoint.resolve net (.ofRole role policy.ipv6) (afterSource text) =
      .ok endpoint)
    (hsource : resolveSource net policy (sourceText? text) = .ok source) :
    resolve net policy role text =
      if source.any fun s => s.isV4 != endpoint.address.isV4 then
        .error (.ofFlaw .destinationFamily text)
      else .ok ⟨endpoint.address, source, endpoint.host⟩ := by
  rw [resolve_eq, hdestination, hsource]
  rfl

/-- A source in the text becomes that of its widened host. -/
theorem resolveSource_widened {source : Option SocketAddress}
    (h : resolveSource net { policy with ipv6 := false } (some text) = .ok source) :
    ∃ address, source = some address ∧ address.isV4 = true ∧
      ∃ host, HostEndpoint.writtenHost? text = some host ∧
        resolveSource net { policy with ipv6 := true } (some text) =
          .ok (some (HostEndpoint.widened host address)) := by
  rw [resolveSource] at h
  split at h
  · next endpoint hendpoint =>
    cases h
    obtain ⟨hv4, host, hhost, hwidened⟩ := HostEndpoint.resolve_widened rfl hendpoint
    refine ⟨_, rfl, hv4, host, hhost, ?_⟩
    have hresolved : HostEndpoint.resolve net (.source true) text = _ := hwidened
    rw [resolveSource, hresolved]
  · cases h

/-- Without a source, just the destination is widened. -/
theorem exists_widened (h : resolve net { policy with ipv6 := false } role text = .ok e)
    (hsource : sourceText? text = none) :
    ∃ host, HostEndpoint.writtenHost? (afterSource text) = some host ∧
      resolve net { policy with ipv6 := true } role text =
        .ok { e with address := HostEndpoint.widened host e.address } := by
  obtain ⟨hdestination, hnone, -⟩ := eq_of_resolve h
  obtain ⟨-, host, hhost, hwidened⟩ := HostEndpoint.resolve_ofRole_widened hdestination
  rw [hsource] at hnone
  refine ⟨host, hhost, ?_⟩
  have hsource' : resolveSource net { policy with ipv6 := true } (sourceText? text) = .ok none := by
    rw [hsource]
    rfl
  rw [resolve_of_parts hwidened hsource', ← Except.ok.inj hnone]
  exact if_neg Bool.false_ne_true

/-- Source and destination are widened each for itself, and their families differ then if the host
of just one of them is the wildcard. -/
theorem exists_widened_sourced {front : List Char}
    (h : resolve net { policy with ipv6 := false } role text = .ok e)
    (hsource : sourceText? text = some front) :
    ∃ source destination address, HostEndpoint.writtenHost? front = some source ∧
      HostEndpoint.writtenHost? (afterSource text) = some destination ∧ e.source = some address ∧
      resolve net { policy with ipv6 := true } role text =
        if source = ['*'] ↔ destination = ['*'] then
          .ok ⟨HostEndpoint.widened destination e.address,
            some (HostEndpoint.widened source address), e.host⟩
        else .error (.ofFlaw .destinationFamily text) := by
  obtain ⟨hdestination, hlocal, -⟩ := eq_of_resolve h
  obtain ⟨hv4, destination, hhost, hwidened⟩ := HostEndpoint.resolve_ofRole_widened hdestination
  rw [hsource] at hlocal
  obtain ⟨address, haddress, hv4', source, hfront, hsourceWidened⟩ := resolveSource_widened hlocal
  refine ⟨source, destination, address, hfront, hhost, haddress, ?_⟩
  rw [resolve_of_parts hwidened (hsource ▸ hsourceWidened), Option.any_some,
    HostEndpoint.isV4_widened source hv4', HostEndpoint.isV4_widened destination hv4]
  by_cases hsame : source = ['*'] ↔ destination = ['*']
  · rw [if_pos hsame, if_neg (by simpa using hsame)]
  · rw [if_neg hsame, if_pos (by simpa using hsame)]

end TcpEndpoint

namespace UdpEndpoint

variable {e : UdpEndpoint}

/-- An endpoint is made of its source and its target. -/
theorem resolve_of_parts {source : UdpSource} {endpoint : HostEndpoint}
    (hsource : UdpSource.ofEndpoint net text = .ok source)
    (htarget : HostEndpoint.resolve net (.ofRole role policy.ipv6) (afterSource text) =
      .ok endpoint) :
    resolve net policy role text =
      if endpoint.address.ip.isMulticast ∧ endpoint.address.isV4 = false ∧
          source.choosesInterface = false then
        .error (.ofFlaw .multicastInterface text)
      else
        (bindAddressOf source endpoint.address role).elim (.error (.ofFlaw .targetFamily text))
          fun bindAddress =>
            .ok ⟨source, endpoint.address, bindAddress, endpoint.address.ip.isMulticast⟩ := by
  rw [resolve_eq, hsource, htarget]
  rfl

/-- A source is of no use just where it is an address of the other family. -/
theorem bindAddressOf_eq_none_iff {source : UdpSource} {target : SocketAddress} :
    bindAddressOf source target role = none ↔ ∃ ip, source = .ip ip ∧ ip.isV4 ≠ target.isV4 := by
  cases source with
  | ip ip => simp [bindAddressOf]
  | unspecified | any | interface _ _ => simp [bindAddressOf]

/-- The IPv6 wildcard is a target for whatever is no source address. -/
theorem bindAddressOf_widened_eq_none_iff
    (h : resolve net { policy with ipv6 := false } role text = .ok e)
    (hv4 : e.target.isV4 = true) :
    bindAddressOf e.source (HostEndpoint.widened ['*'] e.target) role = none ↔
      ∃ ip, e.source = .ip ip := by
  rw [bindAddressOf_eq_none_iff]
  constructor
  · rintro ⟨ip, hip, -⟩
    exact ⟨ip, hip⟩
  · rintro ⟨ip, hip⟩
    obtain ⟨-, -, -, -, hbind⟩ := resolve_eq_ok_iff.1 h
    refine ⟨ip, hip, ?_⟩
    rw [(bindAddressOf_eq_some hbind).2.2 ip hip, hv4]
    exact Bool.noConfusion

end UdpEndpoint

namespace WsEndpoint

variable {e : WsEndpoint}

/-- The path stays where IPv6 is turned on. -/
theorem exists_widened (h : resolve net { policy with ipv6 := false } role text = .ok e) :
    ∃ host, HostEndpoint.writtenHost? (text.takeWhile (· ≠ '/')) = some host ∧
      resolve net { policy with ipv6 := true } role text =
        .ok { e with address := HostEndpoint.widened host e.address } := by
  obtain ⟨hdestination, hpath⟩ := eq_of_resolve h
  obtain ⟨-, host, hhost, hwidened⟩ := HostEndpoint.resolve_ofRole_widened hdestination
  refine ⟨host, hhost, ?_⟩
  rw [resolve, hwidened, ← hpath]

end WsEndpoint

namespace Endpoint

/-! ## The hosts in a text -/

/-- The host of the source in the text of an endpoint, where the source is an address. -/
def sourceHost? : Protocol → List Char → Option (List Char)
  | .tcp, text => (sourceText? text).bind HostEndpoint.writtenHost?
  | .udp, text =>
      ((sourceText? text).map HostEndpoint.unbracketed).filter fun host =>
        (IpAddress.read? host).isSome
  | .ipc, _ | .tipc, _ | .vmci, _ | .ws, _ | .wss, _ => none

/-- The host of the destination in the text of an endpoint. -/
def destinationHost? (protocol : Protocol) (text : List Char) : Option (List Char) :=
  if protocol.IsInternet then HostEndpoint.writtenHost? (destinationText protocol text) else none

/-- A host in the text is the wildcard. -/
def HasWildcard (protocol : Protocol) (text : List Char) : Prop :=
  sourceHost? protocol text = some ['*'] ∨ destinationHost? protocol text = some ['*']

/-- There are a source and a destination, and the host of just one of them is the wildcard. -/
def MixesWildcard (protocol : Protocol) (text : List Char) : Prop :=
  ∃ source destination, sourceHost? protocol text = some source ∧
    destinationHost? protocol text = some destination ∧ ¬ (source = ['*'] ↔ destination = ['*'])

/-- What becomes of an endpoint where IPv6 is turned on. -/
structure Widens (net : Network) (protocol : Protocol) (policy : TransportPolicy) (role : Role)
    (text : String) (e : Endpoint) : Prop where
  resolves : ¬ MixesWildcard protocol text.toList →
    ∃ e', resolve net protocol { policy with ipv6 := true } role text = .ok e'
  refused : MixesWildcard protocol text.toList →
    ∃ flaw, (flaw = .destinationFamily ∨ flaw = .targetFamily) ∧
      resolve net protocol { policy with ipv6 := true } role text =
        .error (.ofFlaw flaw text.toList)
  same : ¬ HasWildcard protocol text.toList →
    resolve net protocol { policy with ipv6 := true } role text = .ok e

variable {protocol : Protocol} {text : String}

theorem source_ne {text source : List Char} (h : ¬ HasWildcard protocol text)
    (hsource : sourceHost? protocol text = some source) : source ≠ ['*'] := by
  rintro rfl
  exact h (.inl hsource)

theorem destination_ne {text destination : List Char} (h : ¬ HasWildcard protocol text)
    (hdestination : destinationHost? protocol text = some destination) : destination ≠ ['*'] := by
  rintro rfl
  exact h (.inr hdestination)

theorem MixesWildcard.hasWildcard {text : List Char} (h : MixesWildcard protocol text) :
    HasWildcard protocol text := by
  obtain ⟨source, destination, hsource, hdestination, hdiffer⟩ := h
  by_cases hstar : source = ['*']
  · exact .inl (hstar ▸ hsource)
  · by_cases hstar' : destination = ['*']
    · exact .inr (hstar' ▸ hdestination)
    · exact absurd (iff_of_false hstar hstar') hdiffer

theorem Widens.of_ok {e e' : Endpoint} (hmixes : ¬ MixesWildcard protocol text.toList)
    (h : resolve net protocol { policy with ipv6 := true } role text = .ok e')
    (hsame : ¬ HasWildcard protocol text.toList → e' = e) :
    Widens net protocol policy role text e where
  resolves _ := ⟨e', h⟩
  refused hmixed := absurd hmixed hmixes
  same hwildcard := by rw [h, hsame hwildcard]

theorem Widens.of_error {e : Endpoint} {flaw : EndpointFlaw}
    (hmixes : MixesWildcard protocol text.toList)
    (hflaw : flaw = .destinationFamily ∨ flaw = .targetFamily)
    (h : resolve net protocol { policy with ipv6 := true } role text =
      .error (.ofFlaw flaw text.toList)) :
    Widens net protocol policy role text e where
  resolves hmixed := absurd hmixes hmixed
  refused _ := ⟨flaw, hflaw, h⟩
  same hwildcard := absurd hmixes.hasWildcard hwildcard

/-- Without a source there is nothing from which the family of the destination could differ. -/
theorem not_mixesWildcard_of_unsourced {text : List Char} (h : sourceHost? protocol text = none) :
    ¬ MixesWildcard protocol text := by
  rintro ⟨source, -, hsource, -⟩
  rw [h] at hsource
  cases hsource

theorem mixesWildcard_iff {text source destination : List Char}
    (hsource : sourceHost? protocol text = some source)
    (hdestination : destinationHost? protocol text = some destination) :
    MixesWildcard protocol text ↔ ¬ (source = ['*'] ↔ destination = ['*']) := by
  constructor
  · rintro ⟨source', destination', hsource', hdestination', hdiffer⟩
    cases hsource.symm.trans hsource'
    cases hdestination.symm.trans hdestination'
    exact hdiffer
  · exact fun hdiffer => ⟨source, destination, hsource, hdestination, hdiffer⟩

/-! ## The transports -/

theorem widens_tcp {e : TcpEndpoint}
    (h : TcpEndpoint.resolve net { policy with ipv6 := false } role text.toList = .ok e) :
    Widens net .tcp policy role text (.tcp e) := by
  cases htext : sourceText? text.toList with
  | none =>
    obtain ⟨destination, hdestination, hresolved⟩ := TcpEndpoint.exists_widened h htext
    have hunsourced : sourceHost? .tcp text.toList = none := by
      rw [sourceHost?, htext]
      rfl
    refine .of_ok (not_mixesWildcard_of_unsourced hunsourced)
      (congrArg (Except.map tcp) hresolved) ?_
    intro hwildcard
    rw [HostEndpoint.widened_of_ne (destination_ne hwildcard hdestination)]
  | some front =>
    obtain ⟨source, destination, address, hfront, hdestination, haddress, hresolved⟩ :=
      TcpEndpoint.exists_widened_sourced h htext
    have hsource : sourceHost? .tcp text.toList = some source := by
      rw [sourceHost?, htext]
      exact hfront
    have hmixes : MixesWildcard .tcp text.toList ↔ ¬ (source = ['*'] ↔ destination = ['*']) :=
      mixesWildcard_iff hsource hdestination
    by_cases hsame : source = ['*'] ↔ destination = ['*']
    · rw [if_pos hsame] at hresolved
      refine .of_ok (fun hmixed => hmixes.1 hmixed hsame) (congrArg (Except.map tcp) hresolved) ?_
      intro hwildcard
      rw [HostEndpoint.widened_of_ne (destination_ne hwildcard hdestination),
        HostEndpoint.widened_of_ne (source_ne hwildcard hsource), ← haddress]
    · rw [if_neg hsame] at hresolved
      exact .of_error (hmixes.2 hsame) (.inl rfl) (congrArg (Except.map tcp) hresolved)

/-- The source of a UDP endpoint has a host just where it is an address. -/
theorem isSome_sourceHost?_udp {source : UdpSource} {text : List Char}
    (h : UdpSource.ofEndpoint net text = .ok source) :
    (sourceHost? .udp text).isSome = true ↔ ∃ ip, source = .ip ip := by
  have hgiven := UdpSource.ofEndpoint_eq_ok_iff.1 h
  rw [sourceHost?]
  generalize sourceText? text = front at hgiven
  cases hgiven with
  | absent => simp
  | star =>
    have hread : IpAddress.read? (HostEndpoint.unbracketed ['*']) = none := rfl
    simp [hread]
  | address hwritten => simp [HostEndpoint.read?_unbracketed_iff.2 hwritten]
  | name _ haddress => simp [HostEndpoint.read?_unbracketed_eq_none_iff.2 haddress]

/-- The wildcard is no address literal, so it stands for no source address. -/
theorem sourceHost?_udp_ne (text : List Char) : sourceHost? .udp text ≠ some ['*'] := by
  rw [sourceHost?]
  intro hstar
  have hread := (Option.filter_eq_some_iff.1 hstar).2
  exact absurd hread (by decide)

theorem mixesWildcard_udp_iff {text destination : List Char}
    (h : destinationHost? .udp text = some destination) :
    MixesWildcard .udp text ↔ (sourceHost? .udp text).isSome = true ∧ destination = ['*'] := by
  cases hsource : sourceHost? .udp text with
  | none => simp [not_mixesWildcard_of_unsourced hsource]
  | some source =>
    have hne : source ≠ ['*'] := by
      rintro rfl
      exact sourceHost?_udp_ne text hsource
    simp [mixesWildcard_iff hsource h, hne]

theorem widens_udp {e : UdpEndpoint}
    (h : UdpEndpoint.resolve net { policy with ipv6 := false } role text.toList = .ok e) :
    Widens net .udp policy role text (.udp e) := by
  obtain ⟨⟨host, htarget⟩, hsource, -⟩ := UdpEndpoint.resolve_eq_ok_iff.1 h
  obtain ⟨hv4, destination, hhost, hwidened⟩ := HostEndpoint.resolve_ofRole_widened htarget
  have hdestinationHost : destinationHost? .udp text.toList = some destination := hhost
  have hmixes := mixesWildcard_udp_iff hdestinationHost
  rw [isSome_sourceHost?_udp hsource] at hmixes
  have hresolved : UdpEndpoint.resolve net { policy with ipv6 := true } role text.toList = _ :=
    UdpEndpoint.resolve_of_parts hsource hwidened
  by_cases hstar : destination = ['*']
  · -- the target becomes the IPv6 wildcard, which is no multicast address
    subst hstar
    have hnone := UdpEndpoint.bindAddressOf_widened_eq_none_iff h hv4
    rw [if_neg fun hrefused => Bool.noConfusion hrefused.1] at hresolved
    cases hbind : UdpEndpoint.bindAddressOf e.source (HostEndpoint.widened ['*'] e.target) role with
    | none =>
      rw [hbind] at hresolved
      exact .of_error (hmixes.2 ⟨hnone.1 hbind, rfl⟩) (.inr rfl)
        (congrArg (Except.map udp) hresolved)
    | some bindAddress =>
      rw [hbind] at hresolved
      refine .of_ok ?_ (congrArg (Except.map udp) hresolved) ?_
      · intro hmixed
        cases hbind.symm.trans (hnone.2 (hmixes.1 hmixed).1)
      · intro hwildcard
        exact absurd (.inr hdestinationHost) hwildcard
  · -- source and target are as before
    rw [HostEndpoint.widened_of_ne hstar, ← UdpEndpoint.resolve_of_parts hsource htarget, h]
      at hresolved
    exact .of_ok (fun hmixed => hstar (hmixes.1 hmixed).2) (congrArg (Except.map udp) hresolved)
      fun _ => rfl

/-- A WebSocket endpoint has no source, be it secured or not. -/
theorem widens_ws {e : WsEndpoint} {ofWs : WsEndpoint → Endpoint}
    (hresolve : ∀ policy, resolve net protocol policy role text =
      (WsEndpoint.resolve net policy role text.toList).map ofWs)
    (hsource : sourceHost? protocol text.toList = none)
    (hdestination : destinationHost? protocol text.toList =
      HostEndpoint.writtenHost? (text.toList.takeWhile (· ≠ '/')))
    (h : WsEndpoint.resolve net { policy with ipv6 := false } role text.toList = .ok e) :
    Widens net protocol policy role text (ofWs e) := by
  obtain ⟨host, hhost, hresolved⟩ := WsEndpoint.exists_widened h
  refine .of_ok (not_mixesWildcard_of_unsourced hsource)
    ((hresolve _).trans (congrArg (Except.map ofWs) hresolved)) ?_
  intro hwildcard
  rw [HostEndpoint.widened_of_ne (destination_ne hwildcard (hdestination.trans hhost))]

/-- Turning IPv6 on permits more, but for one kind of text: whatever resolves without the option
resolves with it too, unless the host of just one of source and destination is the wildcard, which
makes their families differ; and where no host is the wildcard, it resolves to the same. -/
theorem ipv6_widens {e : Endpoint}
    (h : resolve net protocol { policy with ipv6 := false } role text = .ok e) :
    Widens net protocol policy role text e := by
  cases protocol with
  | tcp =>
    obtain ⟨tcp, htcp, rfl⟩ := map_eq_ok h
    exact widens_tcp htcp
  | udp =>
    obtain ⟨udp, hudp, rfl⟩ := map_eq_ok h
    exact widens_udp hudp
  | ws | wss =>
    obtain ⟨ws, hws, rfl⟩ := map_eq_ok h
    exact widens_ws (fun _ => rfl) rfl rfl hws
  | ipc | tipc | vmci =>
    -- nothing here depends on the option
    exact .of_ok (not_mixesWildcard_of_unsourced rfl) h fun _ => rfl

theorem ipv6_widens_wildcards :
    ∃ e, resolve isolated .tcp { ipv6 := false } .bind "*:0;*:80" = .ok e ∧
      e.text = "0.0.0.0:0;0.0.0.0:80" ∧ Widens isolated .tcp {} .bind "*:0;*:80" e ∧
      ∃ e', resolve isolated .tcp { ipv6 := true } .bind "*:0;*:80" = .ok e' ∧
        e'.text = "[::]:0;[::]:80" := by
  have h : resolve isolated .tcp { ipv6 := false } .bind "*:0;*:80" =
      .ok (.tcp ⟨.v4 .unspecified 80, some (.v4 .unspecified 0), "*"⟩) := rfl
  exact ⟨_, h, by decide, ipv6_widens h, _, rfl, by decide⟩

/-- A wildcard to connect from gets to be of IPv6, and an address to connect to stays of IPv4. -/
theorem wildcard_source_refused :
    resolve isolated .tcp { ipv6 := false } .connect "*:0;127.0.0.1:5555" =
        .ok (.tcp ⟨.v4 ⟨127, 0, 0, 1⟩ 5555, some (.v4 .unspecified 0), "127.0.0.1"⟩) ∧
      resolve isolated .tcp { ipv6 := true } .connect "*:0;127.0.0.1:5555" =
        .error (.address (.flawed .destinationFamily "*:0;127.0.0.1:5555")) :=
  ⟨rfl, rfl⟩

end Endpoint

end PeerLink
