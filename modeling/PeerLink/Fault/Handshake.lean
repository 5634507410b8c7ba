import PeerLink.SocketType
import PeerLink.Gssapi.Phase

/-!
# Causes of a failed handshake

Commands out of order, malformed commands, failures of the security context, and protected
messages that do not check out.
-/

set_option autoImplicit false

namespace PeerLink

/-- Why a command comes at the wrong moment or from the wrong peer. -/
inductive SequenceFault where
  | unexpected
  | unexpectedIn (phase : Gssapi.Phase)
  | alreadyFailed
  | outboundPending
  | inboundPending
  | incompatiblePeer (here : SocketType) (peerName : String)
  deriving DecidableEq, Repr

/-- The fault in words. -/
def SequenceFault.message : SequenceFault → String
  | unexpected => "unexpected command for current handshake state"
  | unexpectedIn phase =>
      "unexpected command for current handshake state in state " ++ phase.word
  | alreadyFailed => "mechanism has already failed"
  | outboundPending => "outbound token not yet sent"
  | inboundPending => "received token not yet processed"
  | incompatiblePeer here peerName =>
      "peer socket type is not compatible: " ++ here.name ++ " cannot talk to " ++ peerName

/-- Why the bytes of a command are malformed. -/
inductive MalformedFault where
  | command
  | metadata
  | duplicateProperty (name : String)
  | longPropertyName (size : Nat)
  | longPropertyValue (size : Nat)
  | missingSocketType
  | mechanismName
  | welcomeBody
  | errorTooShort
  | errorLength
  | initiateFraming
  deriving DecidableEq, Repr

/-- The fault in words. -/
def MalformedFault.message : MalformedFault → String
  | .command => "malformed command"
  | .metadata => "malformed metadata"
  | .duplicateProperty name => "duplicate metadata property: '" ++ name ++ "'"
  | .longPropertyName size => "property name too long: " ++ Numeral.decimal size
  | .longPropertyValue size => "property value too long: " ++ Numeral.decimal size
  | .missingSocketType => "peer metadata has no Socket-Type"
  | .mechanismName => "mechanism name is not ASCII"
  | .welcomeBody => "WELCOME carries no body"
  | .errorTooShort => "ERROR command too short"
  | .errorLength => "ERROR reason length mismatch"
  | .initiateFraming => "malformed command: bad INITIATE framing"

/-- Why the security context cannot go on. -/
inductive ContextFault where
  | reported (failure : Gssapi.LibraryFailure)
  | initialisation (failure : Gssapi.LibraryFailure)
  | emptyToken
  | longToken (size : Nat)
  | wrapping (failure : Gssapi.LibraryFailure)
  | longWrappedToken (size : Nat)
  deriving DecidableEq, Repr

/-- The fault in words. -/
def ContextFault.message : ContextFault → String
  | reported failure => failure.message
  | initialisation failure => "security context initialization failed: " ++ failure.message
  | emptyToken => "security context needs another round but produced no token"
  | longToken size => "token too large: " ++ Numeral.decimal size ++ " bytes"
  | wrapping failure => "failed to wrap message: " ++ failure.message
  | longWrappedToken size => "wrapped token too large: " ++ Numeral.decimal size ++ " bytes"

/-- Why a protected message is not accepted. -/
inductive IntegrityFault where
  | framing
  | unwrapping (failure : Gssapi.LibraryFailure)
  | notEncrypted
  | missingFlags
  deriving DecidableEq, Repr

/-- The fault in words. -/
def IntegrityFault.message : IntegrityFault → String
  | framing => "bad MESSAGE framing"
  | unwrapping failure => failure.message
  | notEncrypted => "message was not encrypted"
  | missingFlags => "wrapped payload has no flags"

end PeerLink
