import PeerLink.Config.Options
import PeerLink.Mechanism.Command
import PeerLink.Metadata.Properties

/-!
# Announcements

What a socket tells its peer about itself, and which peers it accepts. `Announcement.properties`
lists what is told; the block on the wire is written from that list.
-/

set_option autoImplicit false

namespace PeerLink

/-- What a socket announces. -/
structure Announcement where
  socketType : SocketType
  routingId : Bytes
  metadata : Attributes
  deriving DecidableEq, Repr

namespace Announcement

/-- The announcement that the options ask for. An unset routing id is announced as empty. -/
def ofOptions (options : SecurityOptions) : Announcement where
  socketType := options.socketType
  routingId := (options.routingId.map Utf8.encode).getD []
  metadata := options.metadata

/-- The announced properties: the socket type, the routing id where it is sent, and the application
metadata by name. -/
def properties (a : Announcement) : List Property :=
  ⟨Property.socketType, Utf8.encode a.socketType.name⟩ ::
    ((if a.socketType.sendsIdentity then [⟨Property.identity, a.routingId⟩] else []) ++
      a.metadata.entries.map fun (name, text) => ⟨name, Utf8.encode text⟩)

/-- The written size of the announced properties, counted part by part without writing them. -/
def size (a : Announcement) : Nat :=
  Property.sizeOf Property.socketType a.socketType.name.utf8ByteSize +
    (if a.socketType.sendsIdentity then
      Property.sizeOf Property.identity a.routingId.length else 0) +
    a.metadata.entries.foldr
      (fun (name, text) total => Property.sizeOf name text.utf8ByteSize + total) 0

/-- Writes the announced properties after what a buffer already holds. -/
def appendTo (a : Announcement) (buffer : Bytes) : Except Fault Bytes :=
  Metadata.appendAll buffer a.properties

/-- The command with this name that carries the announced properties. -/
def command (a : Announcement) (name : Bytes) : Except Fault Frame :=
  (a.appendTo name).map Frame.ofCommand

/-- The properties a peer tells, if they name a socket type that may talk to ours. -/
def accept (a : Announcement) (block : Bytes) : Except Fault Properties :=
  match Properties.ofBlock block with
  | .error fault => .error fault
  | .ok peer =>
      match peer.get? Property.socketType with
      | none => .error (.malformed .missingSocketType)
      | some value =>
          let peerName := Utf8.lossy value
          if a.socketType.isCompatible peerName then .ok peer
          else .error (.sequence (.incompatiblePeer a.socketType peerName))

end Announcement

end PeerLink
