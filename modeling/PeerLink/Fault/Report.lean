/-!
# Reports

The form in which a failure leaves the library: its kind and, for most kinds, one line of detail.
A report is also stored under the word for its kind; `Report.ofStored?_stored` says that a stored
report reads back.
-/

set_option autoImplicit false

namespace PeerLink

/-- The kinds of failure. -/
inductive FaultKind where
  | addressSyntax
  | unsupportedProtocol
  | resolutionFailed
  | alreadyResolved
  | addressUnresolved
  | handshakeSequence
  | malformedCommand
  | securityContext
  | integrity
  | notReady
  | peerRejected
  | configError
  deriving DecidableEq, Repr

namespace FaultKind

/-- Every kind. -/
def all : List FaultKind :=
  [addressSyntax, unsupportedProtocol, resolutionFailed, alreadyResolved, addressUnresolved,
    handshakeSequence, malformedCommand, securityContext, integrity, notReady, peerRejected,
    configError]

/-- The word for a kind. -/
def word : FaultKind → String
  | addressSyntax => "AddressSyntax"
  | unsupportedProtocol => "UnsupportedProtocol"
  | resolutionFailed => "ResolutionFailed"
  | alreadyResolved => "AlreadyResolved"
  | addressUnresolved => "AddressUnresolved"
  | handshakeSequence => "HandshakeSequence"
  | malformedCommand => "MalformedCommand"
  | securityContext => "SecurityContext"
  | integrity => "Integrity"
  | notReady => "NotReady"
  | peerRejected => "PeerRejected"
  | configError => "ConfigError"

/-- The kind with exactly this word. -/
def ofWord? (text : String) : Option FaultKind := all.find? fun k => k.word == text

/-- Whether reports of a kind carry a detail. -/
def takesDetail : FaultKind → Bool
  | alreadyResolved | addressUnresolved | notReady => false
  | _ => true

/-- How a message of a kind begins; for a kind without detail this is the whole message. -/
def lead : FaultKind → String
  | addressSyntax => "Invalid address: "
  | unsupportedProtocol => "Unsupported transport protocol: "
  | resolutionFailed => "Address resolution failed: "
  | alreadyResolved => "Address is already resolved"
  | addressUnresolved => "Address is unresolved and has no textual fallback"
  | handshakeSequence => "Handshake sequence error: "
  | malformedCommand => "Malformed command: "
  | securityContext => "Security context error: "
  | integrity => "Message integrity check failed: "
  | notReady => "Mechanism is not ready for application traffic"
  | peerRejected => "Peer rejected the handshake: "
  | configError => "Configuration error: "

theorem ofWord?_word (k : FaultKind) : ofWord? k.word = some k := by cases k <;> rfl

end FaultKind

/-- A failure as its reader sees it. -/
structure Report where
  kind : FaultKind
  detail : Option String
  deriving DecidableEq, Repr

namespace Report

/-- The whole message. -/
def message (r : Report) : String := r.kind.lead ++ r.detail.getD ""

/-- What is stored beside the word of a report. -/
inductive Payload where
  /-- The word stands alone. -/
  | absent
  /-- The word is stored with nothing in its place. -/
  | null
  | text (content : String)
  /-- Anything that is not a text. -/
  | other
  deriving DecidableEq, Repr

/-- The payload stored for a report. -/
def payload (r : Report) : Payload :=
  match r.detail with
  | some content => .text content
  | none => .absent

/-- The report stored under a word. A detail must be there exactly for the kinds that take one. -/
def ofStored? (word : String) (stored : Payload) : Option Report :=
  match FaultKind.ofWord? word, stored with
  | some kind, .text content => if kind.takesDetail then some ⟨kind, some content⟩ else none
  | some kind, .absent => if kind.takesDetail then none else some ⟨kind, none⟩
  | some kind, .null => if kind.takesDetail then none else some ⟨kind, none⟩
  | _, _ => none

theorem ofStored?_stored (r : Report) (h : r.detail.isSome = r.kind.takesDetail) :
    ofStored? r.kind.word r.payload = some r := by
  obtain ⟨kind, detail⟩ := r
  cases detail with
  | none => simp_all [ofStored?, payload, FaultKind.ofWord?_word]
  | some content => simp_all [ofStored?, payload, FaultKind.ofWord?_word]

end Report

end PeerLink
