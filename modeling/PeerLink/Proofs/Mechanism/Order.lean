import PeerLink.Proofs.Null.Order
import PeerLink.Proofs.Plain.Order

/-!
# Handshakes in order

Whatever is called and whatever the peer sends, a NULL or PLAIN handshake advances only in the order
of its protocol, its status says which commands have passed, and a handshake that is over stays as it
is (`handshakes_in_order`).
-/

set_option autoImplicit false

namespace PeerLink

open Mechanism (Call)

/-- After any calls the NULL handshake and every PLAIN client with these options are in order. -/
theorem handshakes_in_order {σ : Type} (options : SecurityOptions) (calls : List Call) :
    NullHandshake.Ordered options (.null (.start options) : Mechanism σ) calls ∧
      ∀ c, PlainClient.start options = .ok c →
        PlainClient.Ordered options (.plain c : Mechanism σ) calls := by
  constructor
  · obtain ⟨h, hfollows⟩ := NullHandshake.follows (σ := σ) options calls
    exact hfollows.ordered
  · intro c hstart
    obtain ⟨c', hfollows⟩ := PlainClient.follows (σ := σ) hstart calls
    exact hfollows.ordered

/-- A REQ that logs in. -/
def loginOptions : SecurityOptions where
  mechanism := .plain
  socketType := .req
  plain := { username := "user", password := "secret" }

/-- The REQ before its first step. -/
def loginClient : PlainClient := ⟨.ofOptions loginOptions, loginOptions.plain, .sendingHello⟩

/-- What the READY of a REP says. -/
def repliesReady : Frame := SecurityOptions.announced { socketType := .rep } Command.ready

/-- A READY that comes too early is refused, and the handshake gets ready nevertheless. -/
def loginCalls : List Call :=
  [.next, .process repliesReady, .process (.ofCommand Command.welcome), .next,
    .process repliesReady]

theorem handshakes_in_order_login :
    PlainClient.start loginOptions = .ok loginClient ∧
      NullHandshake.Ordered loginOptions (.null (.start loginOptions) : Mechanism Unit) loginCalls ∧
      PlainClient.Ordered loginOptions (.plain loginClient : Mechanism Unit) loginCalls ∧
      ((.plain loginClient : Mechanism Unit).after loginCalls).status = .ready := by
  have hstart : PlainClient.start loginOptions = .ok loginClient := by decide +kernel
  have hordered := handshakes_in_order (σ := Unit) loginOptions loginCalls
  exact ⟨hstart, hordered.1, hordered.2 loginClient hstart, by decide +kernel⟩

end PeerLink
