import PeerLink.Endpoint
import PeerLink.Proofs.Endpoint.InternetText
import PeerLink.Proofs.Endpoint.LocalText

/-!
# Canonical texts

The text of a resolved endpoint is a name for it: it resolves to an endpoint that is the same and
has the same text, and two resolved endpoints are the same exactly when their texts are
(`Endpoint.canonical`).
-/

set_option autoImplicit false

namespace PeerLink.Endpoint

variable {net : Network} {protocol : Protocol} {policy : TransportPolicy} {role : Role}

/-! ## Endpoints that are the same -/

theorem same_refl (r : Endpoint) : r.same r = true := by
  cases r <;> simp [same, TcpEndpoint.same, WsEndpoint.same]

theorem same_comm {r s : Endpoint} (h : r.same s = true) : s.same r = true := by
  cases r <;> cases s <;>
    simp_all [same, TcpEndpoint.same, WsEndpoint.same]

theorem same_trans {r s t : Endpoint} (h : r.same s = true) (h' : s.same t = true) :
    r.same t = true := by
  cases r <;> cases s <;> simp [same] at h <;> cases t <;> simp [same] at h' <;>
    simp_all [same, TcpEndpoint.same, WsEndpoint.same]

/-- How a host was written does not show in the text. -/
theorem render_eq_of_same {r s : Endpoint} (h : r.same s = true) : r.render = s.render := by
  cases r <;> cases s <;> simp [same] at h <;>
    simp_all [render, TcpEndpoint.same, TcpEndpoint.render, WsEndpoint.same, WsEndpoint.render]

/-! ## Texts that resolve -/

theorem map_eq_ok {α β : Type} {f : α → β} {result : Except Fault α} {value : β}
    (h : result.map f = .ok value) : ∃ a, result = .ok a ∧ f a = value := by
  cases result with
  | error fault => cases h
  | ok a =>
    cases h
    exact ⟨a, rfl, rfl⟩

/-- The transport of a resolved endpoint is the one that it was resolved for. -/
theorem protocol_of_resolve {text : String} {r : Endpoint}
    (h : resolve net protocol policy role text = .ok r) : r.protocol = protocol := by
  unfold resolve at h
  cases protocol with
  | tcp | udp | ipc | tipc | vmci | ws | wss =>
    obtain ⟨inner, -, rfl⟩ := map_eq_ok h
    rfl

/-- The text of a resolved endpoint resolves to an endpoint that is the same. -/
theorem resolve_text {text : String} {r : Endpoint}
    (h : resolve net protocol policy role text = .ok r) :
    ∃ r', resolve net protocol policy role r.text = .ok r' ∧ r'.same r = true := by
  have hchars : r.text.toList = r.render := String.toList_ofList
  unfold resolve at h ⊢
  rw [hchars]
  cases protocol with
  | tcp =>
    -- only the host as written may differ, which does not count
    obtain ⟨e, he, rfl⟩ := map_eq_ok h
    refine ⟨.tcp { e with host := String.ofList e.address.hostText }, ?_, ?_⟩
    · exact congrArg (Except.map tcp) (TcpEndpoint.resolve_render he)
    · simp [same, TcpEndpoint.same]
  | udp =>
    obtain ⟨e, he, rfl⟩ := map_eq_ok h
    exact ⟨.udp e, congrArg (Except.map udp) (UdpEndpoint.resolve_render he), same_refl _⟩
  | ipc =>
    -- the text is the one that was resolved
    obtain ⟨e, he, rfl⟩ := map_eq_ok h
    refine ⟨.ipc e, ?_, same_refl _⟩
    rw [render, IpcEndpoint.render_of_resolve he]
    exact congrArg (Except.map ipc) he
  | tipc =>
    obtain ⟨e, he, rfl⟩ := map_eq_ok h
    exact ⟨.tipc e, congrArg (Except.map tipc) (TipcEndpoint.resolve_render he), same_refl _⟩
  | vmci =>
    obtain ⟨e, he, rfl⟩ := map_eq_ok h
    exact ⟨.vmci e, congrArg (Except.map vmci) (VmciEndpoint.resolve_render policy e), same_refl _⟩
  | ws =>
    obtain ⟨e, he, rfl⟩ := map_eq_ok h
    refine ⟨.ws { e with host := String.ofList e.address.hostText }, ?_, ?_⟩
    · exact congrArg (Except.map ws) (WsEndpoint.resolve_render he)
    · simp [same, WsEndpoint.same]
  | wss =>
    obtain ⟨e, he, rfl⟩ := map_eq_ok h
    refine ⟨.wss { e with host := String.ofList e.address.hostText }, ?_, ?_⟩
    · exact congrArg (Except.map wss) (WsEndpoint.resolve_render he)
    · simp [same, WsEndpoint.same]

/-- The canonical text is a faithful and stable name of a resolved endpoint, for every transport:
it resolves to an endpoint that is the same and has the same text, and endpoints resolved from any
two texts are the same exactly when their canonical texts are equal. -/
theorem canonical (net : Network) (protocol : Protocol) (policy : TransportPolicy) (role : Role) :
    (∀ {text : String} {r : Endpoint}, resolve net protocol policy role text = .ok r →
      ∃ r', resolve net protocol policy role r.text = .ok r' ∧ r'.same r = true ∧
        r'.text = r.text) ∧
    (∀ {text₁ text₂ : String} {r₁ r₂ : Endpoint},
      resolve net protocol policy role text₁ = .ok r₁ →
      resolve net protocol policy role text₂ = .ok r₂ →
      (r₁.same r₂ = true ↔ r₁.text = r₂.text)) := by
  constructor
  · intro text r h
    obtain ⟨r', hr', hsame⟩ := resolve_text h
    exact ⟨r', hr', hsame, congrArg String.ofList (render_eq_of_same hsame)⟩
  · intro text₁ text₂ r₁ r₂ h₁ h₂
    constructor
    · intro hsame
      exact congrArg String.ofList (render_eq_of_same hsame)
    · intro htext
      -- both texts resolve to one endpoint, which is the same as either
      obtain ⟨r, hr, hsame₁⟩ := resolve_text h₁
      obtain ⟨r', hr', hsame₂⟩ := resolve_text h₂
      rw [htext, hr'] at hr
      cases hr
      exact same_trans (same_comm hsame₁) hsame₂

/-- A network without interfaces and host names. -/
def isolated : Network := ⟨fun _ => none, fun _ => none⟩

theorem canonical_wildcard :
    ∃ r, resolve isolated .tcp { ipv6 := true } .bind "*:+080" = .ok r ∧ r.text = "[::]:80" ∧
      (∃ r', resolve isolated .tcp { ipv6 := true } .bind r.text = .ok r' ∧ r'.same r = true ∧
        r'.text = r.text) ∧
      ∃ s, resolve isolated .tcp { ipv6 := true } .bind "[0::0]:80" = .ok s ∧
        (r.same s = true ↔ r.text = s.text) := by
  have hstar : resolve isolated .tcp { ipv6 := true } .bind "*:+080" =
      .ok (.tcp ⟨.v6 .unspecified 80 0, none, "*"⟩) := rfl
  have hzeros : resolve isolated .tcp { ipv6 := true } .bind "[0::0]:80" =
      .ok (.tcp ⟨.v6 .unspecified 80 0, none, "0::0"⟩) := rfl
  obtain ⟨hname, hsame⟩ := canonical isolated .tcp { ipv6 := true } .bind
  exact ⟨_, hstar, by decide, hname hstar, _, hzeros, hsame hstar hzeros⟩

end PeerLink.Endpoint
