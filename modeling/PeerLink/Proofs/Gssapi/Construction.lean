import PeerLink.Proofs.Endpoint.Policy
import PeerLink.Proofs.Endpoint.Slot
import PeerLink.Proofs.Gssapi.Reachable

/-!
# Construction of GSSAPI clients

Which options make a client, for the service that they name and for a peer, and for which service
(`Client.construction`). The service principal must not be empty, but that is looked at last: an
empty one that is completed with the host of a peer passes (`Client.empty_principal_completed`).
-/

set_option autoImplicit false

namespace PeerLink

/-! ## The host of a peer -/

theorem Endpoint.writtenHost_of_host? {net : Network} {protocol : Protocol}
    {policy : TransportPolicy} {role : Role} {text host : String} {e : Endpoint}
    (h : resolve net protocol policy role text = .ok e) (hhost : e.host? = some host) :
    HostEndpoint.writtenHost? (destinationText protocol text.toList) = some host.toList := by
  have hprotocol := protocol_of_resolve h
  have hkeeps : e.KeepsHost := by
    rw [← isSome_host?_iff, hhost]
    rfl
  have hinternet : protocol.IsInternet := by
    rw [KeepsHost, hprotocol] at hkeeps
    rcases hkeeps with rfl | rfl | rfl <;> decide
  obtain ⟨destination, hdestination, hled⟩ := exists_destination hinternet h
  obtain ⟨written, hwritten, hkept, -⟩ := HostEndpoint.host_of_resolve hdestination
  rw [hwritten, hled.host host hhost, hkept, String.toList_ofList]

namespace Address

/-- The host in the text of an address, without the brackets around it. -/
def writtenHost? (a : Address) : Option (List Char) :=
  match Protocol.ofTag a.protocol with
  | .ok protocol => HostEndpoint.writtenHost? (Endpoint.destinationText protocol a.address.toList)
  | .error _ => none

/-- An address that has been resolved tells the host that its text has. -/
theorem writtenHost?_of_host? {protocol text host : String} {policy : TransportPolicy}
    {moves : List Move} (h : ((new protocol text policy).after moves).host? = some host) :
    ((new protocol text policy).after moves).writtenHost? = some host.toList := by
  obtain ⟨e, he, hhost⟩ := Option.bind_eq_some_iff.1 h
  obtain ⟨net, role, hstands⟩ := (resolved_after_iff rfl moves).1 he
  obtain ⟨p, hp, hresolve⟩ := lookUp_eq_ok_iff.1 (lookUp_of_mem_history hstands.mem)
  obtain ⟨hprotocol, haddress, -⟩ := asked_after (new protocol text policy) moves
  rw [writtenHost?, hprotocol, haddress, hp]
  exact Endpoint.writtenHost_of_host? hresolve hhost

/-- The brackets around a host are no part of it. -/
example :
    let moves := [Move.resolve Endpoint.isolated .connect]
    let peer := (new "ws" "[::1]:80/chat" { ipv6 := true }).after moves
    peer.host? = some "::1" ∧ peer.writtenHost? = some [':', ':', '1'] := by
  decide

end Address

namespace Gssapi

/-! ## Identifiers -/

/-- Whether a text is a dotted identifier: groups of digits, none of them empty, with a dot between
any two. -/
def IsOidText (text : String) : Prop :=
  ∃ groups : List (List Char), groups ≠ [] ∧
    (∀ group ∈ groups, group ≠ [] ∧ ∀ c ∈ group, c.isDigit = true) ∧
    text.toList = List.intercalate ['.'] groups

theorem all_isDigit_iff (groups : List (List Char)) :
    (groups.all fun group => !group.isEmpty && group.all Char.isDigit) = true ↔
      ∀ group ∈ groups, group ≠ [] ∧ ∀ c ∈ group, c.isDigit = true := by
  simp [List.all_eq_true]

theorem isDotted_iff (text : String) : isDotted text = true ↔ IsOidText text := by
  rw [isDotted, all_isDigit_iff]
  constructor
  · intro h
    exact ⟨_, Split.atEach_ne_nil _ _, h, (Split.intercalate_atEach _ _).symm⟩
  · rintro ⟨groups, hne, hgroups, htext⟩
    have hdots : ∀ group ∈ groups, '.' ∉ group := by
      intro group hgroup hdot
      cases (hgroups group hgroup).2 '.' hdot
    rw [htext, Split.atEach_intercalate hne hdots]
    exact hgroups

namespace Oid

theorem parse_of_isOidText {text : String} (h : IsOidText text) :
    ∃ oid, parse text = .ok oid := by
  have hdotted := (isDotted_iff text).2 h
  exact ⟨⟨text, hdotted⟩, dif_pos hdotted⟩

theorem parse_of_not_isOidText {text : String} (h : ¬ IsOidText text) :
    parse text = .error (.config (.invalidOid text)) := by
  apply dif_neg
  rw [isDotted_iff]
  exact h

/-- Identifiers are read if all of them are, or else the fault is a fault of the options. -/
theorem parseAll_cases (texts : List String) :
    (∃ oids, parseAll texts = .ok oids) ∧ (∀ text ∈ texts, IsOidText text) ∨
      ∃ text ∈ texts, ¬ IsOidText text ∧
        parseAll texts = .error (.config (.invalidOid text)) := by
  induction texts with
  | nil =>
    refine .inl ⟨⟨[], rfl⟩, ?_⟩
    intro text htext
    cases htext
  | cons text more ih =>
    by_cases htext : IsOidText text
    · obtain ⟨oid, hoid⟩ := parse_of_isOidText htext
      rcases ih with ⟨⟨oids, hoids⟩, hmore⟩ | ⟨bad, hbad, hnot, hfault⟩
      · refine .inl ⟨⟨oid :: oids, ?_⟩, List.forall_mem_cons.2 ⟨htext, hmore⟩⟩
        rw [parseAll, hoid, hoids]
        rfl
      · refine .inr ⟨bad, List.mem_cons_of_mem _ hbad, hnot, ?_⟩
        rw [parseAll, hoid, hfault]
        rfl
    · refine .inr ⟨text, List.mem_cons_self, htext, ?_⟩
      rw [parseAll, parse_of_not_isOidText htext]
      rfl

end Oid

end Gssapi

/-- Whether the service principal is completed with the host of the peer. -/
def GssapiOptions.NeedsHost (g : GssapiOptions) : Prop :=
  g.servicePrincipalNameType = .hostBased ∧ '@' ∉ g.servicePrincipal.toList

namespace Gssapi.Client

open Mechanism (Call Answer)

variable {σ : Type} {options : SecurityOptions} {context : SecurityContext σ} {session : σ}
  {c c' : Client σ}

/-! ## The service -/

section Service

variable {serviceName : ServiceName}

/-- A client is made for every service that has a name, if the identifiers are read. -/
theorem exists_withServiceName_iff :
    (∃ c, withServiceName options serviceName context session = .ok c) ↔
      serviceName.name ≠ "" ∧ ∀ text ∈ options.gssapi.mechanisms, IsOidText text := by
  rw [withServiceName]
  by_cases hname : serviceName.name = ""
  · rw [if_pos hname]
    refine iff_of_false ?_ fun h => h.1 hname
    rintro ⟨c, hc⟩
    cases hc
  · rw [if_neg hname]
    rcases Oid.parseAll_cases options.gssapi.mechanisms with
      ⟨⟨oids, hoids⟩, hall⟩ | ⟨text, htext, hnot, hfault⟩
    · rw [hoids]
      exact iff_of_true ⟨_, rfl⟩ ⟨hname, hall⟩
    · rw [hfault]
      refine iff_of_false ?_ fun h => hnot (h.2 text htext)
      rintro ⟨c, hc⟩
      cases hc

theorem serviceName_of_withServiceName
    (h : withServiceName options serviceName context session = .ok c) :
    c.serviceName = serviceName := by
  rw [withServiceName] at h
  split at h
  · cases h
  · split at h
    · cases h
    · cases h
      rfl

theorem kind_of_withServiceName {fault : Fault}
    (h : withServiceName options serviceName context session = .error fault) :
    fault.kind = .configError := by
  rw [withServiceName] at h
  split at h
  · cases h
    rfl
  · rcases Oid.parseAll_cases options.gssapi.mechanisms with
      ⟨⟨oids, hoids⟩, -⟩ | ⟨text, -, -, hfault⟩
    · rw [hoids] at h
      cases h
    · rw [hfault] at h
      cases h
      rfl

end Service

/-! ## The service for a peer -/

section Peer

variable {g : GssapiOptions} {peer : Address}

/-- How a service for a peer gets its name. -/
inductive Names (g : GssapiOptions) (peer : Address) : Except Fault String → Prop
  | complete : ¬ g.NeedsHost → Names g peer (.ok g.servicePrincipal)
  | completed {host : String} : g.NeedsHost → peer.host? = some host →
      Names g peer (.ok (g.servicePrincipal ++ "@" ++ host))
  | underived : g.NeedsHost → peer.host? = none →
      Names g peer (.error (.config (.underivedPrincipal peer.protocol peer.address)))

theorem names_principalFor (g : GssapiOptions) (peer : Address) :
    Names g peer (principalFor g peer) := by
  rw [principalFor]
  split
  · next hneeds =>
    cases hhost : peer.host? with
    | some host => exact .completed hneeds hhost
    | none => exact .underived hneeds hhost
  · next hcomplete => exact .complete hcomplete

/-- An empty principal is completed if it is host-based. -/
theorem needsHost_of_empty (hempty : g.servicePrincipal = "") :
    g.NeedsHost ↔ g.servicePrincipalNameType = .hostBased := by
  rw [GssapiOptions.NeedsHost, hempty]
  exact and_iff_left List.not_mem_nil

theorem append_at_ne_empty (principal host : String) : principal ++ "@" ++ host ≠ "" := by
  intro h
  have hchars := congrArg String.toList h
  simp at hchars

/-- A client is made for a peer if the service is complete, or can be completed, and has a name
then. -/
theorem exists_forPeer_iff :
    (∃ c, forPeer options peer context session = .ok c) ↔
      (options.gssapi.servicePrincipal = "" →
        options.gssapi.servicePrincipalNameType = .hostBased) ∧
      (∀ text ∈ options.gssapi.mechanisms, IsOidText text) ∧
      (options.gssapi.NeedsHost → ∃ e, peer.resolved = some e ∧ e.KeepsHost) := by
  rw [forPeer, ← Address.isSome_host?_iff]
  have hnames := names_principalFor options.gssapi peer
  generalize principalFor options.gssapi peer = result at hnames ⊢
  cases hnames with
  | complete hcomplete =>
    dsimp only
    rw [exists_withServiceName_iff]
    constructor
    · rintro ⟨hname, hall⟩
      exact ⟨fun hempty => absurd hempty hname, hall, fun h => absurd h hcomplete⟩
    · rintro ⟨hbased, hall, -⟩
      refine ⟨?_, hall⟩
      intro hempty
      exact hcomplete ((needsHost_of_empty hempty).2 (hbased hempty))
  | completed hneeds hhost =>
    dsimp only
    rw [exists_withServiceName_iff, hhost]
    constructor
    · rintro ⟨-, hall⟩
      exact ⟨fun _ => hneeds.1, hall, fun _ => rfl⟩
    · rintro ⟨-, hall, -⟩
      exact ⟨append_at_ne_empty _ _, hall⟩
  | underived hneeds hhost =>
    -- there is nothing to complete the principal with
    rw [hhost]
    refine iff_of_false ?_ fun h => Bool.false_ne_true (h.2.2 hneeds)
    rintro ⟨c, hc⟩
    cases hc

/-- The service of a client for a peer is the one that was named. -/
theorem exists_names_of_forPeer (h : forPeer options peer context session = .ok c) :
    ∃ name, Names options.gssapi peer (.ok name) ∧
      c.serviceName = ⟨name, options.gssapi.servicePrincipalNameType⟩ := by
  have hnames := names_principalFor options.gssapi peer
  rw [forPeer] at h
  split at h
  · cases h
  · next name hname =>
    rw [hname] at hnames
    exact ⟨name, hnames, serviceName_of_withServiceName h⟩

theorem kind_of_forPeer {fault : Fault}
    (h : forPeer options peer context session = .error fault) : fault.kind = .configError := by
  have hnames := names_principalFor options.gssapi peer
  rw [forPeer] at h
  generalize principalFor options.gssapi peer = result at hnames h
  cases hnames with
  | complete _ | completed _ _ => exact kind_of_withServiceName h
  | underived _ _ =>
    cases h
    rfl

end Peer

/-! ## The target of every request -/

section Requests

variable {call : Call} {answer : Answer} {made : List ContextCall} {request : InitRequest}
  {response : InitAnswer}

theorem Transforms.not_init_mem {state next : σ} {result : Except Fault Frame}
    (h : Transforms context call state result made next) : .init request response ∉ made := by
  cases h <;> simp

theorem Loaded.exists_request (h : Loaded c made c') (hmem : .init request response ∈ made) :
    ∃ input, request = c.request input := by
  cases h with
  | held _ => cases hmem
  | fetched _ _ _ =>
    cases List.mem_singleton.1 hmem
    exact ⟨none, rfl⟩

theorem Announces.not_init_mem (h : Announces c answer made c') :
    .init request response ∉ made := by
  cases h with
  | unwritable _ | bare _ _ => exact List.not_mem_nil
  | wrapped _ _ ht | unwrappable _ _ ht => exact ht.not_init_mem

theorem Reads.not_init_mem {f : Frame} {result : Except Fault Frame} {next : σ}
    (h : Reads c f result made next) : .init request response ∉ made := by
  cases h with
  | bare _ | unprotected _ _ => exact List.not_mem_nil
  | recovered _ _ ht => exact ht.not_init_mem

/-- What a call asks of the context, it asks with what the client was made with. -/
theorem Step.exists_request (h : Step c call answer made c')
    (hmem : .init request response ∈ made) :
    ∃ input, request = c.request input := by
  cases h with
  | halted _ | haltedProcess _ | notReady _ _ | waiting _ _ _ | clash _ _ _ | refusedCommand _ _
  | passed _ _ _ => cases hmem
  | firstRefused _ _ _ _ _ | tokenRefused _ _ _ _ _ | tokenTaken _ _ _ _ _ =>
    cases List.mem_singleton.1 hmem
    exact ⟨_, rfl⟩
  | handed _ _ hl _ _ | oversized _ _ hl _ _ => exact hl.exists_request hmem
  | finished _ _ hl _ ha =>
    rcases List.mem_append.1 hmem with hmem | hmem
    · exact hl.exists_request hmem
    · exact absurd hmem ha.not_init_mem
  | announced _ _ ha => exact absurd hmem ha.not_init_mem
  | readyUnreadable _ _ _ hr | readyRefused _ _ _ hr _ | readyTaken _ _ _ hr _ =>
    exact absurd hmem hr.not_init_mem
  | transformed _ _ ht => exact absurd hmem ht.not_init_mem

/-- Whatever calls follow, all requests are for the service that the client was made for. -/
theorem target_of_mem_history {calls : List Call}
    (hmem : .init request response ∈ c.history calls) :
    request.target = c.serviceName := by
  induction calls generalizing c with
  | nil => cases hmem
  | cons call calls ih =>
    have hstep := step_consulted c call
    rw [history_cons] at hmem
    rcases List.mem_append.1 hmem with hmem | hmem
    · obtain ⟨input, rfl⟩ := hstep.exists_request hmem
      rfl
    · rw [← hstep.fixed.serviceName]
      exact ih hmem

end Requests

/-! ## Construction -/

/-- When clients are made under options, without a peer and for one, and for which service. -/
structure Construction (options : SecurityOptions) (peer : Address) (context : SecurityContext σ)
    (session : σ) : Prop where
  /-- Without a peer, the service must have a name and every identifier must be one. -/
  start_iff : (∃ c, start options context session = .ok c) ↔
    options.gssapi.servicePrincipal ≠ "" ∧ ∀ text ∈ options.gssapi.mechanisms, IsOidText text
  /-- For a peer, a host-based service may have no name yet; a service without a host needs a peer
  that tells one. -/
  forPeer_iff : (∃ c, forPeer options peer context session = .ok c) ↔
    (options.gssapi.servicePrincipal = "" →
      options.gssapi.servicePrincipalNameType = .hostBased) ∧
    (∀ text ∈ options.gssapi.mechanisms, IsOidText text) ∧
    (options.gssapi.servicePrincipalNameType ≠ .hostBased ∨
      '@' ∈ options.gssapi.servicePrincipal.toList ∨ ∃ e, peer.resolved = some e ∧ e.KeepsHost)
  /-- Every refusal is one of the configuration. -/
  refused : ∀ fault, (start options context session = .error fault ∨
    forPeer options peer context session = .error fault) → fault.kind = .configError
  /-- Without a peer, the service is the one in the options. -/
  named : ∀ c, start options context session = .ok c → c.serviceName =
    ⟨options.gssapi.servicePrincipal, options.gssapi.servicePrincipalNameType⟩
  /-- For a peer, the service is the one in the options where that is complete. -/
  kept : ∀ c, forPeer options peer context session = .ok c → ¬ options.gssapi.NeedsHost →
    c.serviceName = ⟨options.gssapi.servicePrincipal, options.gssapi.servicePrincipalNameType⟩
  /-- Otherwise it is completed with the host in the text of the peer. -/
  completed : ∀ c, forPeer options peer context session = .ok c → options.gssapi.NeedsHost →
    ∃ host, peer.writtenHost? = some host ∧ c.serviceName =
      ⟨options.gssapi.servicePrincipal ++ "@" ++ String.ofList host, .hostBased⟩
  /-- Every request of every run is for that service. -/
  target : ∀ c, Built options context session c → ∀ calls request answer,
    .init request answer ∈ c.history calls → request.target = c.serviceName

/-- How clients are constructed, for every peer address in whatever state its calls left it. -/
theorem construction (options : SecurityOptions) (protocol text : String)
    (policy : TransportPolicy) (moves : List Address.Move) (context : SecurityContext σ)
    (session : σ) :
    Construction options ((Address.new protocol text policy).after moves) context session where
  start_iff := exists_withServiceName_iff
  forPeer_iff := by
    rw [exists_forPeer_iff, GssapiOptions.NeedsHost]
    tauto
  refused := by
    intro fault hfault
    rcases hfault with hfault | hfault
    · exact kind_of_withServiceName hfault
    · exact kind_of_forPeer hfault
  named := by
    intro c hc
    exact serviceName_of_withServiceName hc
  kept := by
    intro c hc hcomplete
    obtain ⟨name, hnames, hservice⟩ := exists_names_of_forPeer hc
    cases hnames with
    | complete _ => exact hservice
    | completed hneeds _ => exact absurd hneeds hcomplete
  completed := by
    intro c hc hneeds
    obtain ⟨name, hnames, hservice⟩ := exists_names_of_forPeer hc
    cases hnames with
    | complete hcomplete => exact absurd hneeds hcomplete
    | @completed host _ hhost =>
      refine ⟨host.toList, Address.writtenHost?_of_host? hhost, ?_⟩
      rw [hservice, hneeds.1, String.ofList_toList]
  target := by
    intro c _ calls request answer hmem
    exact target_of_mem_history hmem

/-- A peer at an address that needs no name to be looked up. -/
def samplePeer : Address :=
  (Address.new "tcp" "127.0.0.1:5555" {}).after [.resolve Endpoint.isolated .connect]

/-- A service without a name is refused, but not where a peer lends it a host. -/
theorem empty_principal_completed :
    start {} scripted [] = .error (.config .emptyServiceName) ∧
      ∃ c, forPeer {} samplePeer scripted [] = .ok c ∧
        c.serviceName = ⟨"@127.0.0.1", .hostBased⟩ :=
  ⟨rfl, _, rfl, rfl⟩

end Gssapi.Client

end PeerLink
