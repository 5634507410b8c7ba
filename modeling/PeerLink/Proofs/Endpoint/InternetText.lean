import PeerLink.Endpoint.Tcp
import PeerLink.Endpoint.Ws
import PeerLink.Proofs.Endpoint.UdpSource

/-!
# Texts of TCP, UDP and WebSocket endpoints

The text of a resolved endpoint resolves to that endpoint again; only the host as written becomes
that of the address (`TcpEndpoint.resolve_render`, `UdpEndpoint.resolve_render`,
`WsEndpoint.resolve_render`).
-/

set_option autoImplicit false

namespace PeerLink

variable {net : Network} {policy : TransportPolicy} {role : Role} {text : List Char}

/-- The text of the destination: what follows the source, if there is one. -/
def afterSource (text : List Char) : List Char :=
  match Split.atFirst? ';' text with
  | some (_, destination) => destination
  | none => text

/-- The text of the source: what stands before the first semicolon. -/
def sourceText? (text : List Char) : Option (List Char) := (Split.atFirst? ';' text).map Prod.fst

theorem afterSource_of_notMem (h : ';' ∉ text) : afterSource text = text := by
  rw [afterSource, Split.atFirst?_eq_none_iff.2 h]

theorem sourceText?_of_notMem (h : ';' ∉ text) : sourceText? text = none := by
  rw [sourceText?, Split.atFirst?_eq_none_iff.2 h]
  rfl

theorem afterSource_append {source : List Char} (h : ';' ∉ source) (rest : List Char) :
    afterSource (source ++ ';' :: rest) = rest := by
  rw [afterSource, Split.atFirst?_append_cons h]

theorem sourceText?_append {source : List Char} (h : ';' ∉ source) (rest : List Char) :
    sourceText? (source ++ ';' :: rest) = some source := by
  rw [sourceText?, Split.atFirst?_append_cons h]
  rfl

/-! ## TCP -/

namespace TcpEndpoint

variable {e : TcpEndpoint}

/-- Destination and source are resolved each from its own part of the text. -/
theorem resolve_eq (net : Network) (policy : TransportPolicy) (role : Role) (text : List Char) :
    resolve net policy role text =
      (HostEndpoint.resolve net (.ofRole role policy.ipv6) (afterSource text)).bind fun endpoint =>
        (resolveSource net policy (sourceText? text)).bind fun source =>
          if source.any fun s => s.isV4 != endpoint.address.isV4 then
            .error (.ofFlaw .destinationFamily text)
          else .ok ⟨endpoint.address, source, endpoint.host⟩ := by
  rw [resolve, afterSource, sourceText?]
  cases Split.atFirst? ';' text with
  | none | some cut =>
    dsimp only [Option.map, Except.bind]
    split
    · next fault hfault => rw [hfault]
    · next endpoint hendpoint =>
      rw [hendpoint]
      dsimp only
      split
      · next fault hfault => rw [hfault]
      · next source hsource => rw [hsource]

/-- What a resolved endpoint is made of. -/
theorem eq_of_resolve (h : resolve net policy role text = .ok e) :
    HostEndpoint.resolve net (.ofRole role policy.ipv6) (afterSource text) =
        .ok ⟨e.address, e.host⟩ ∧
      resolveSource net policy (sourceText? text) = .ok e.source ∧
      ∀ s, e.source = some s → s.isV4 = e.address.isV4 := by
  rw [resolve_eq] at h
  cases hdestination : HostEndpoint.resolve net (.ofRole role policy.ipv6) (afterSource text) with
  | error fault =>
    rw [hdestination] at h
    cases h
  | ok endpoint =>
    cases hsource : resolveSource net policy (sourceText? text) with
    | error fault =>
      rw [hdestination, hsource] at h
      cases h
    | ok source =>
      rw [hdestination, hsource] at h
      dsimp only [Except.bind] at h
      split at h
      · cases h
      · next hfamily =>
        cases h
        refine ⟨rfl, rfl, ?_⟩
        rintro s rfl
        simpa using hfamily

/-- Destination and source of a resolved endpoint keep to their rules and are of one family. -/
theorem admits_of_resolve (h : resolve net policy role text = .ok e) :
    (HostRules.ofRole role policy.ipv6).Admits e.address ∧
      ∀ s, e.source = some s →
        (HostRules.source policy.ipv6).Admits s ∧ s.isV4 = e.address.isV4 := by
  obtain ⟨hdestination, hsource, hfamily⟩ := eq_of_resolve h
  refine ⟨HostEndpoint.admits_of_resolve hdestination, ?_⟩
  intro s hs
  refine ⟨?_, hfamily s hs⟩
  rw [hs] at hsource
  unfold resolveSource at hsource
  split at hsource
  · cases hsource
  · split at hsource
    · next hlocal =>
      cases hsource
      exact HostEndpoint.admits_of_resolve hlocal
    · cases hsource

/-- The text of a destination and a source that keep to their rules and are of one family resolves
to them. -/
theorem resolve_render_of_admits (net : Network)
    (hdestination : (HostRules.ofRole role policy.ipv6).Admits e.address)
    (hsource : ∀ s, e.source = some s →
      (HostRules.source policy.ipv6).Admits s ∧ s.isV4 = e.address.isV4) :
    resolve net policy role e.render =
      .ok { e with host := String.ofList e.address.hostText } := by
  have hsemicolon := SocketAddress.notMem_render (c := ';') rfl
  rcases e with ⟨address, source, host⟩
  cases source with
  | none =>
    rw [render, resolve_eq, afterSource_of_notMem (hsemicolon address),
      sourceText?_of_notMem (hsemicolon address), HostEndpoint.resolve_render net hdestination]
    rfl
  | some s =>
    -- the first semicolon ends the source
    obtain ⟨hadmits, hfamily⟩ := hsource s rfl
    rw [render, resolve_eq, afterSource_append (hsemicolon s), sourceText?_append (hsemicolon s),
      HostEndpoint.resolve_render net hdestination, resolveSource,
      HostEndpoint.resolve_render net hadmits]
    exact if_neg (by simpa using hfamily)

/-- The text of a resolved endpoint resolves to it, up to the host as written. -/
theorem resolve_render (h : resolve net policy role text = .ok e) :
    resolve net policy role e.render =
      .ok { e with host := String.ofList e.address.hostText } := by
  obtain ⟨hdestination, hsource⟩ := admits_of_resolve h
  exact resolve_render_of_admits net hdestination hsource

end TcpEndpoint

/-! ## UDP -/

namespace UdpSource

variable {source : UdpSource}

/-- The source that the text of an endpoint gives. -/
def ofEndpoint (net : Network) (text : List Char) : Except Fault UdpSource :=
  match sourceText? text with
  | some source => resolve net source
  | none => .ok .unspecified

/-- The source is what stands before the first semicolon, if there is one. -/
theorem ofEndpoint_eq_ok_iff :
    ofEndpoint net text = .ok source ↔ GivenBy net (sourceText? text) source := by
  rw [ofEndpoint]
  cases sourceText? text with
  | none =>
    constructor
    · rintro ⟨⟩
      exact .absent
    · rintro ⟨⟩
      rfl
  | some name => exact resolve_eq_ok_iff

/-- A source is not written at all, or it is read again. -/
theorem eq_unspecified_or (h : ofEndpoint net text = .ok source) :
    source = .unspecified ∨
      ∃ name, source.render = name ++ [';'] ∧ ';' ∉ name ∧ resolve net name = .ok source := by
  rw [ofEndpoint, sourceText?] at h
  cases hcut : Split.atFirst? ';' text with
  | none =>
    rw [hcut] at h
    cases h
    exact .inl rfl
  | some cut =>
    rw [hcut] at h
    exact .inr (exists_resolve h (Split.atFirst?_eq_some_iff.1 hcut).2)

end UdpSource

namespace UdpEndpoint

variable {e : UdpEndpoint}

/-- Source and target are resolved each from its own part of the text. -/
theorem resolve_eq (net : Network) (policy : TransportPolicy) (role : Role) (text : List Char) :
    resolve net policy role text =
      (UdpSource.ofEndpoint net text).bind fun source =>
        (HostEndpoint.resolve net (.ofRole role policy.ipv6) (afterSource text)).bind
          fun ⟨target, _⟩ =>
            if target.ip.isMulticast ∧ target.isV4 = false ∧ source.choosesInterface = false then
              .error (.ofFlaw .multicastInterface text)
            else
              (bindAddressOf source target role).elim (.error (.ofFlaw .targetFamily text))
                fun bindAddress => .ok ⟨source, target, bindAddress, target.ip.isMulticast⟩ := by
  rw [resolve, UdpSource.ofEndpoint, afterSource, sourceText?]
  cases Split.atFirst? ';' text with
  | none =>
    dsimp only [Option.map, Except.bind]
    cases HostEndpoint.resolve net (.ofRole role policy.ipv6) text with
    | error fault => rfl
    | ok endpoint =>
      dsimp only
      cases bindAddressOf .unspecified endpoint.address role <;> rfl
  | some cut =>
    dsimp only [Option.map]
    cases UdpSource.resolve net cut.1 with
    | error fault => rfl
    | ok source =>
      dsimp only [Except.bind]
      cases HostEndpoint.resolve net (.ofRole role policy.ipv6) cut.2 with
      | error fault => rfl
      | ok endpoint =>
        dsimp only
        cases bindAddressOf source endpoint.address role <;> rfl

/-- What a resolved endpoint is made of. -/
theorem resolve_eq_ok_iff :
    resolve net policy role text = .ok e ↔
      (∃ host, HostEndpoint.resolve net (.ofRole role policy.ipv6) (afterSource text) =
        .ok ⟨e.target, host⟩) ∧
      UdpSource.ofEndpoint net text = .ok e.source ∧
      e.multicast = e.target.ip.isMulticast ∧
      ¬ (e.multicast = true ∧ e.target.isV4 = false ∧ e.source.choosesInterface = false) ∧
      bindAddressOf e.source e.target role = some e.bindAddress := by
  rw [resolve_eq]
  constructor
  · intro h
    cases hsource : UdpSource.ofEndpoint net text with
    | error fault =>
      rw [hsource] at h
      cases h
    | ok source =>
      cases htarget : HostEndpoint.resolve net (.ofRole role policy.ipv6) (afterSource text) with
      | error fault =>
        rw [hsource, htarget] at h
        cases h
      | ok endpoint =>
        rw [hsource, htarget] at h
        dsimp only [Except.bind] at h
        split at h
        · cases h
        · next hinterface =>
          cases hbind : bindAddressOf source endpoint.address role with
          | none =>
            rw [hbind] at h
            cases h
          | some bindAddress =>
            rw [hbind] at h
            cases h
            exact ⟨⟨endpoint.host, rfl⟩, rfl, rfl, hinterface, hbind⟩
  · rintro ⟨⟨host, htarget⟩, hsource, hmulticast, hinterface, hbind⟩
    rw [hmulticast] at hinterface
    rw [hsource, htarget]
    dsimp only [Except.bind]
    rw [if_neg hinterface, hbind, Option.elim_some, ← hmulticast]

/-- The text of a source, written or not, and of a target that keeps to its rules resolves to them,
where a bind address follows from them. -/
theorem resolve_render_of_admits
    (hsource : e.source = .unspecified ∨
      ∃ name, e.source.render = name ++ [';'] ∧ ';' ∉ name ∧
        UdpSource.resolve net name = .ok e.source)
    (htarget : (HostRules.ofRole role policy.ipv6).Admits e.target)
    (hmulticast : e.multicast = e.target.ip.isMulticast)
    (hinterface : ¬ (e.multicast = true ∧ e.target.isV4 = false ∧
      e.source.choosesInterface = false))
    (hbind : bindAddressOf e.source e.target role = some e.bindAddress) :
    resolve net policy role e.render = .ok e := by
  have hgiven : UdpSource.ofEndpoint net e.render = .ok e.source ∧
      afterSource e.render = e.target.render := by
    rcases hsource with hunwritten | ⟨name, hname, hsemicolon, hread⟩
    · have hsemicolon : ';' ∉ e.target.render := SocketAddress.notMem_render rfl e.target
      rw [render, hunwritten, UdpSource.render, List.nil_append, UdpSource.ofEndpoint,
        sourceText?_of_notMem hsemicolon]
      exact ⟨rfl, afterSource_of_notMem hsemicolon⟩
    · -- the first semicolon ends the source
      rw [render, hname, List.append_assoc, List.singleton_append, UdpSource.ofEndpoint,
        sourceText?_append hsemicolon]
      exact ⟨hread, afterSource_append hsemicolon _⟩
  rw [resolve_eq_ok_iff, hgiven.1, hgiven.2]
  exact ⟨⟨_, HostEndpoint.resolve_render net htarget⟩, rfl, hmulticast, hinterface, hbind⟩

/-- The text of a resolved endpoint resolves to it. -/
theorem resolve_render (h : resolve net policy role text = .ok e) :
    resolve net policy role e.render = .ok e := by
  obtain ⟨⟨host, hhost⟩, hsource, hmulticast, hinterface, hbind⟩ := resolve_eq_ok_iff.1 h
  exact resolve_render_of_admits (UdpSource.eq_unspecified_or hsource)
    (HostEndpoint.admits_of_resolve hhost) hmulticast hinterface hbind

end UdpEndpoint

/-! ## WebSockets -/

namespace WsEndpoint

variable {e : WsEndpoint}

/-- What a resolved endpoint is made of. -/
theorem eq_of_resolve (h : resolve net policy role text = .ok e) :
    HostEndpoint.resolve net (.ofRole role policy.ipv6) (text.takeWhile (· ≠ '/')) =
        .ok ⟨e.address, e.host⟩ ∧
      e.path = pathOf (text.dropWhile (· ≠ '/')) := by
  rw [resolve] at h
  split at h
  · cases h
  · next endpoint hendpoint =>
    cases h
    exact ⟨hendpoint, rfl⟩

/-- What follows the host and the port is nothing, or begins with a slash. -/
theorem dropWhile_eq_nil_or (text : List Char) :
    text.dropWhile (· ≠ '/') = [] ∨ ∃ rest, text.dropWhile (· ≠ '/') = '/' :: rest := by
  induction text with
  | nil => exact .inl rfl
  | cons c text ih =>
    by_cases hc : c = '/'
    · subst hc
      exact .inr ⟨text, List.dropWhile_cons_of_neg (by simp)⟩
    · rw [List.dropWhile_cons_of_pos (by simpa using hc)]
      exact ih

/-- A path begins with a slash. -/
theorem head?_pathOf (text : List Char) :
    (pathOf (text.dropWhile (· ≠ '/'))).toList.head? = some '/' := by
  rcases dropWhile_eq_nil_or text with hnil | ⟨rest, hrest⟩
  · rw [hnil]
    rfl
  · rw [hrest, pathOf, if_neg (by simp), String.toList_ofList]
    rfl

/-- The path begins at the first slash, whatever follows. -/
theorem resolve_append (net : Network) (policy : TransportPolicy) (role : Role) {path : List Char}
    (hslash : '/' ∉ text) (hpath : path = [] ∨ path.head? = some '/') :
    resolve net policy role (text ++ path) =
      (HostEndpoint.resolve net (.ofRole role policy.ipv6) text).map fun endpoint =>
        ⟨endpoint.address, endpoint.host, pathOf path⟩ := by
  have hbefore : ∀ c ∈ text, decide (c ≠ '/') = true := by
    intro c hc
    rw [decide_eq_true_eq]
    rintro rfl
    exact hslash hc
  have hafter : path.takeWhile (· ≠ '/') = [] ∧ path.dropWhile (· ≠ '/') = path := by
    rcases hpath with rfl | hhead
    · exact ⟨rfl, rfl⟩
    · obtain ⟨rest, rfl⟩ := List.head?_eq_some_iff.1 hhead
      exact ⟨List.takeWhile_cons_of_neg (by simp), List.dropWhile_cons_of_neg (by simp)⟩
  rw [resolve, List.takeWhile_append_of_pos hbefore, List.dropWhile_append_of_pos hbefore, hafter.1,
    hafter.2, List.append_nil]
  cases HostEndpoint.resolve net (.ofRole role policy.ipv6) text <;> rfl

/-- The text of an address that keeps to its rules and of a path resolves to them. -/
theorem resolve_render_of_admits (net : Network)
    (hadmits : (HostRules.ofRole role policy.ipv6).Admits e.address)
    (hpath : e.path.toList.head? = some '/') :
    resolve net policy role e.render =
      .ok { e with host := String.ofList e.address.hostText } := by
  have hback : pathOf e.path.toList = e.path := by
    obtain ⟨rest, hrest⟩ := List.head?_eq_some_iff.1 hpath
    rw [pathOf, if_neg (by simp [hrest]), String.ofList_toList]
  rw [render, resolve_append net policy role (SocketAddress.notMem_render rfl _) (.inr hpath),
    HostEndpoint.resolve_render net hadmits, hback]
  rfl

/-- The text of a resolved endpoint resolves to it, up to the host as written. -/
theorem resolve_render (h : resolve net policy role text = .ok e) :
    resolve net policy role e.render =
      .ok { e with host := String.ofList e.address.hostText } := by
  obtain ⟨hdestination, hwritten⟩ := eq_of_resolve h
  apply resolve_render_of_admits net (HostEndpoint.admits_of_resolve hdestination)
  rw [hwritten]
  exact head?_pathOf text

end WsEndpoint

end PeerLink
