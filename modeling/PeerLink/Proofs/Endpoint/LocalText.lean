import PeerLink.Endpoint.Ipc
import PeerLink.Endpoint.Vmci
import PeerLink.Proofs.Endpoint.TipcGrammar

/-!
# Texts of IPC, VMCI and TIPC endpoints

An IPC endpoint keeps its text (`IpcEndpoint.render_of_resolve`), every VMCI endpoint resolves from
its text (`VmciEndpoint.resolve_render`), and so does every TIPC endpoint that was resolved
(`TipcEndpoint.resolve_render`), since its text belongs to the grammar and means it
(`TipcEndpoint.means_render`).
-/

set_option autoImplicit false

namespace PeerLink

/-! ## IPC -/

namespace IpcEndpoint

variable {text : List Char} {e : IpcEndpoint}

/-- The text of a resolved endpoint is the text it was resolved from. -/
theorem render_of_resolve (h : resolve text = .ok e) : e.render = text := by
  unfold resolve at h
  dsimp only at h
  split at h
  · cases h
  · split at h
    · cases h
    · split at h
      · cases h
      · split at h
        · cases h
        · -- a path
          cases h
          rw [render, String.toList_ofList]
        · -- an abstract name
          cases h
          rw [render, String.toList_ofList]

end IpcEndpoint

/-! ## VMCI -/

namespace VmciEndpoint

theorem notMem_renderPart {c : Char} (hc : c ≠ '*') (hdigit : c.isDigit = false) (n : UInt32) :
    c ∉ renderPart n := by
  rw [renderPart]
  split
  · simpa using hc
  · exact Numeral.notMem_decimalChars hdigit _

/-- A part that is no wildcard is not written like one. -/
theorem isWildcard_decimalChars (n : Nat) : isWildcard (Numeral.decimalChars n) = false := by
  rw [isWildcard, Bool.or_eq_false_iff, decide_eq_false_iff_not, decide_eq_false_iff_not]
  constructor
  · exact Split.ne_cons_of_notMem (Numeral.notMem_decimalChars rfl n) _
  · exact Split.ne_cons_of_notMem (Numeral.notMem_decimalChars rfl n) _

theorem readPort_renderPart (text : List Char) (n : UInt32) :
    readPort text (renderPart n) = .ok n := by
  rw [renderPart]
  split
  · next hwildcard =>
    rw [hwildcard]
    rfl
  · rw [readPort, isWildcard_decimalChars, if_neg (by decide), Numeral.readUInt32?_decimalChars]

theorem readCid_renderPart (policy : TransportPolicy) (text : List Char) (n : UInt32) :
    readCid policy text (renderPart n) = .ok n := by
  rw [renderPart]
  split
  · next hwildcard =>
    rw [hwildcard]
    rfl
  · have hat : Numeral.decimalChars n.toNat ≠ ['@'] :=
      Split.ne_cons_of_notMem (Numeral.notMem_decimalChars rfl _) _
    rw [readCid, if_neg (Numeral.decimalChars_ne_nil _), if_neg hat, isWildcard_decimalChars,
      if_neg (by decide), Numeral.readUInt32?_decimalChars]

/-- Every endpoint resolves from its text. -/
theorem resolve_render (policy : TransportPolicy) (e : VmciEndpoint) :
    resolve policy e.render = .ok e := by
  have hcolon := notMem_renderPart (c := ':') (by decide) rfl e.port
  rw [render, resolve, Split.atLast?_append_cons hcolon]
  dsimp only
  rw [readCid_renderPart, readPort_renderPart]

end VmciEndpoint

/-! ## TIPC -/

/-- The text of a network address is one of those that write it. -/
theorem TipcNode.WrittenAs.render {n : TipcNode} {cs : List Char} (h : n.WrittenAs cs) :
    n.WrittenAs n.render := by
  obtain ⟨-, -, -, -, -, -, -, hfits⟩ := h
  refine ⟨_, _, _, ?_, Numeral.writes_decimalChars _, Numeral.writes_decimalChars _,
    Numeral.writes_decimalChars _, hfits⟩
  simp [TipcNode.render]

namespace TipcEndpoint

variable {role : Role} {text : List Char} {e : TipcEndpoint}

theorem field_decimalChars (n : UInt32) : Field (Numeral.decimalChars n.toNat) n :=
  ⟨[], _, [], by simp, by simp, by simp, Numeral.writes_decimalChars _⟩

/-- What any text means is meant by its own text. -/
theorem means_render (h : Means role text e) : Means role e.render e := by
  cases h with
  | random hrole => exact .random hrole
  | @portId _ _ node reference hplace hreference =>
    simpa [render] using Means.portId hplace.render (Numeral.writes_decimalChars _)
  | bare h =>
    cases h with
    | range _ _ _ hfree hbounds =>
      simpa [render] using Means.bare (Braced.range (field_decimalChars _) (field_decimalChars _)
        (field_decimalChars _) hfree hbounds)
    | service _ _ hfree =>
      simpa [render] using Means.bare (Braced.service (field_decimalChars _)
        (field_decimalChars _) hfree)
  | located h hplace =>
    -- a range goes with no domain
    cases h with
    | service _ _ hfree =>
      simpa [render] using Means.located (Braced.service (field_decimalChars _)
        (field_decimalChars _) hfree) hplace.render

/-- A resolved endpoint resolves from its text. -/
theorem resolve_render (h : resolve role text = .ok e) : resolve role e.render = .ok e :=
  resolve_of_means (means_render (means_of_resolve h))

end TipcEndpoint

end PeerLink
