/-!
# Socket types

The messaging patterns a socket can follow and which of them may talk to each other.
-/

set_option autoImplicit false

namespace PeerLink

/-- A messaging pattern, announced to the peer by name. -/
inductive SocketType where
  | pair | pub | sub | req | rep | dealer | router | pull | push | xpub | xsub | stream
  | server | client | radio | dish | gather | scatter | dgram | peer | channel
  deriving DecidableEq, Repr

namespace SocketType

/-- Every socket type. -/
def all : List SocketType :=
  [pair, pub, sub, req, rep, dealer, router, pull, push, xpub, xsub, stream, server, client,
    radio, dish, gather, scatter, dgram, peer, channel]

/-- The announced name. -/
def name : SocketType → String
  | pair => "PAIR"
  | pub => "PUB"
  | sub => "SUB"
  | req => "REQ"
  | rep => "REP"
  | dealer => "DEALER"
  | router => "ROUTER"
  | pull => "PULL"
  | push => "PUSH"
  | xpub => "XPUB"
  | xsub => "XSUB"
  | stream => "STREAM"
  | server => "SERVER"
  | client => "CLIENT"
  | radio => "RADIO"
  | dish => "DISH"
  | gather => "GATHER"
  | scatter => "SCATTER"
  | dgram => "DGRAM"
  | peer => "PEER"
  | channel => "CHANNEL"

/-- The socket type with exactly this name. -/
def ofName? (text : String) : Option SocketType := all.find? fun t => t.name == text

/-- The socket types that a socket of this type may talk to. -/
def partners : SocketType → List SocketType
  | req => [rep, router]
  | rep => [req, dealer]
  | dealer => [rep, dealer, router]
  | router => [req, dealer, router]
  | push => [pull]
  | pull => [push]
  | pub | xpub => [sub, xsub]
  | sub | xsub => [pub, xpub]
  | pair => [pair]
  | server => [client]
  | client => [server]
  | radio => [dish]
  | dish => [radio]
  | gather => [scatter]
  | scatter => [gather]
  | dgram => [dgram]
  | peer => [peer]
  | channel => [channel]
  | stream => []

/-- Whether a peer that announces `peerName` may talk to a socket of this type. -/
def isCompatible (t : SocketType) (peerName : String) : Bool :=
  t.partners.any fun p => p.name == peerName

/-- Whether sockets of this type announce their routing id. -/
def sendsIdentity : SocketType → Bool
  | req | dealer | router => true
  | _ => false

theorem ofName?_name (t : SocketType) : ofName? t.name = some t := by cases t <;> rfl

/-- Two socket types that may talk do so in both directions. -/
theorem mem_partners_comm (s t : SocketType) : s ∈ t.partners ↔ t ∈ s.partners := by
  cases s <;> cases t <;> decide

end SocketType

end PeerLink
