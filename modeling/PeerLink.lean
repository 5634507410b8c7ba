import PeerLink.Config.Environment
import PeerLink.Config.File
import PeerLink.Mechanism
import PeerLink.Probe
import PeerLink.Proofs.Gssapi.Framing
import PeerLink.Proofs.Gssapi.Rules
import PeerLink.Proofs.Gssapi.RulesExact
import PeerLink.Proofs.Gssapi.Recording
import PeerLink.Proofs.Gssapi.Reachable
import PeerLink.Proofs.Gssapi.Ledger
import PeerLink.Proofs.Gssapi.TokenExchange
import PeerLink.Proofs.Gssapi.Confidentiality
import PeerLink.Proofs.Ip.Octets
import PeerLink.Proofs.Metadata.Interoperation
import PeerLink.Proofs.Ip.Groups
import PeerLink.Proofs.Endpoint.HostText
import PeerLink.Proofs.Endpoint.Canonical
import PeerLink.Proofs.Gssapi.Failure
import PeerLink.Proofs.Gssapi.Progress
import PeerLink.Proofs.Gssapi.Completion
import PeerLink.Proofs.Null.Agreement
import PeerLink.Proofs.Metadata.Acceptance
import PeerLink.Proofs.Mechanism.Runs
import PeerLink.Proofs.Null.Rules
import PeerLink.Proofs.Plain.Rules
import PeerLink.Proofs.Plain.Order
import PeerLink.Proofs.Mechanism.Order
import PeerLink.Proofs.Mechanism.Peer
import PeerLink.Proofs.Gssapi.Traffic
import PeerLink.Proofs.Metadata.RoundTrip
import PeerLink.Proofs.Mechanism.PeerSetOnce
import PeerLink.Proofs.Endpoint.Slot
import PeerLink.Proofs.Endpoint.Policy
import PeerLink.Proofs.Gssapi.Construction
import PeerLink.Proofs.Gssapi.Blame
import PeerLink.Proofs.Mechanism.Dependable
import PeerLink.Proofs.Gssapi.Alteration
import PeerLink.Proofs.Gssapi.Refusal
import PeerLink.Proofs.Mechanism.Refusal
import PeerLink.Proofs.Endpoint.Widening
import PeerLink.Proofs.Endpoint.Reaching
import PeerLink.Proofs.Endpoint.SharedGrammar
import PeerLink.Proofs.Endpoint.TipcGrammar
import PeerLink.Proofs.Endpoint.UdpBinding
import PeerLink.Proofs.Metadata.Truncation
import PeerLink.Proofs.Metadata.Lookup
import PeerLink.Proofs.Metadata.Announced
import PeerLink.Proofs.Mechanism.PeerError
import PeerLink.Proofs.Gssapi.Initiation
import PeerLink.Proofs.Plain.Hello
import PeerLink.Proofs.Mechanism.Secrecy
import PeerLink.Proofs.Config.Saving
