import PeerLink.Fault.Address
import PeerLink.Fault.Handshake
import PeerLink.Fault.Config
import PeerLink.Fault.Outline
import PeerLink.Fault.Report

/-!
# Faults

Everything that can go wrong, by cause. `Fault.kind` classifies a cause and `Fault.message` words
it. A report carries a detail exactly for the kinds that take one (`Fault.isSome_detail`), so the
report of a fault can be stored and reads back (`Fault.ofStored?_report`).
-/

set_option autoImplicit false

namespace PeerLink

/-- Why an operation failed. -/
inductive Fault where
  | address (cause : AddressFault)
  | unsupportedProtocol (name : String)
  | resolution (cause : ResolutionFault)
  | alreadyResolved
  | addressUnresolved
  | sequence (cause : SequenceFault)
  | malformed (cause : MalformedFault)
  | context (cause : ContextFault)
  | integrity (cause : IntegrityFault)
  | notReady
  | rejected (reason : String)
  | config (cause : ConfigFault)
  deriving DecidableEq, Repr

namespace Fault

/-- The kind of a fault. -/
def kind : Fault → FaultKind
  | address _ => .addressSyntax
  | unsupportedProtocol _ => .unsupportedProtocol
  | resolution _ => .resolutionFailed
  | alreadyResolved => .alreadyResolved
  | addressUnresolved => .addressUnresolved
  | sequence _ => .handshakeSequence
  | malformed _ => .malformedCommand
  | context _ => .securityContext
  | integrity _ => .integrity
  | notReady => .notReady
  | rejected _ => .peerRejected
  | config _ => .configError

/-- What a fault adds to its kind. -/
def detail : Fault → Option String
  | address cause => some cause.message
  | unsupportedProtocol name => some name
  | resolution cause => some cause.message
  | alreadyResolved => none
  | addressUnresolved => none
  | sequence cause => some cause.message
  | malformed cause => some cause.message
  | context cause => some cause.message
  | integrity cause => some cause.message
  | notReady => none
  | rejected reason => some reason
  | config cause => some cause.message

/-- The report of a fault. -/
def report (f : Fault) : Report := ⟨f.kind, f.detail⟩

/-- The message of a fault. -/
def message (f : Fault) : String := f.report.message

theorem isSome_detail (f : Fault) : f.detail.isSome = f.kind.takesDetail := by cases f <;> rfl

/-- The stored report of a fault reads back. -/
theorem ofStored?_report (f : Fault) :
    Report.ofStored? f.kind.word f.report.payload = some f.report :=
  Report.ofStored?_stored f.report f.isSome_detail

/-- The fault of a malformed endpoint text. -/
def ofFlaw (flaw : EndpointFlaw) (text : List Char) : Fault :=
  .address (.flawed flaw (String.ofList text))

end Fault

end PeerLink
