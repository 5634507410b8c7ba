import PeerLink.Bytes
import PeerLink.Gssapi.Name

/-!
# Security contexts

What the client asks of a security library. A context is given by its three primitives over a
state of any type, so a statement about every context is a statement about every library. The
recording context answers as the given one does and keeps the list of calls.
-/

set_option autoImplicit false

namespace PeerLink.Gssapi

/-- The services asked of a context. -/
structure ContextFlags where
  mutualAuthentication : Bool
  replayDetection : Bool
  sequencing : Bool
  confidentiality : Bool
  integrity : Bool
  deriving DecidableEq, Repr

/-- One call for the next token. -/
structure InitRequest where
  /-- The service we authenticate to. -/
  target : ServiceName
  /-- Whose credentials are used; the default ones if none is named. -/
  principal : Option ServiceName
  mechanisms : List Oid
  flags : ContextFlags
  /-- The token just received; none on the first call. -/
  inputToken : Option Bytes
  deriving DecidableEq, Repr

/-- The answer to a call for the next token. -/
inductive InitOutcome where
  /-- The peer must answer this token. -/
  | continueNeeded (token : Bytes)
  /-- The context is established; a token that is not empty must still reach the peer. -/
  | complete (token : Bytes)
  deriving DecidableEq, Repr

/-- What a protected token held. -/
structure Unwrapped where
  data : Bytes
  /-- Whether the token was encrypted. -/
  confidential : Bool
  deriving DecidableEq, Repr

/-- The primitives of a security library over states `σ`. -/
structure SecurityContext (σ : Type) where
  init : InitRequest → σ → Except LibraryFailure InitOutcome × σ
  wrap : Bytes → Bool → σ → Except LibraryFailure Bytes × σ
  unwrap : Bytes → σ → Except LibraryFailure Unwrapped × σ

/-- A call of a primitive and its answer. -/
inductive ContextCall where
  | init (request : InitRequest) (answer : Except LibraryFailure InitOutcome)
  | wrap (plaintext : Bytes) (confidential : Bool) (answer : Except LibraryFailure Bytes)
  | unwrap (token : Bytes) (answer : Except LibraryFailure Unwrapped)

/-- The same context, which also keeps its calls in order. -/
def SecurityContext.recording {σ : Type} (context : SecurityContext σ) :
    SecurityContext (σ × List ContextCall) where
  init request state :=
    let (answer, next) := context.init request state.1
    (answer, next, state.2 ++ [.init request answer])
  wrap plaintext confidential state :=
    let (answer, next) := context.wrap plaintext confidential state.1
    (answer, next, state.2 ++ [.wrap plaintext confidential answer])
  unwrap token state :=
    let (answer, next) := context.unwrap token state.1
    (answer, next, state.2 ++ [.unwrap token answer])

end PeerLink.Gssapi
