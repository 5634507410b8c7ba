import PeerLink.Endpoint.Address
import PeerLink.Gssapi.Wire
import PeerLink.Mechanism.Announcement

/-!
# The GSSAPI client

Tokens of the security context are exchanged in INITIATE commands until the context is established;
then each side sends one READY. Unless plaintext was asked for, READY and all later traffic are
protected. Any fault other than a call before READY ends the handshake for good.
-/

set_option autoImplicit false

namespace PeerLink.Gssapi

/-- A token under way. -/
inductive Token where
  /-- Produced by the context, not yet sent. -/
  | outbound (token : Bytes)
  /-- Received from the server, not yet given to the context. -/
  | inbound (token : Bytes)
  deriving DecidableEq, Repr

/-- The state of a client over a security context with states `σ`. -/
structure Client (σ : Type) where
  announcement : Announcement
  context : SecurityContext σ
  session : σ
  serviceName : ServiceName
  principal : Option ServiceName
  mechanisms : List Oid
  /-- Whether READY and traffic are protected. -/
  encrypting : Bool
  phase : Phase
  pending : Option Token
  /-- Whether the context has completed. -/
  established : Bool
  failed : Bool
  peer : Properties

namespace Client

variable {σ : Type}

/-! ## Construction -/

/-- A client for a service, before its first step. -/
def withServiceName (options : SecurityOptions) (serviceName : ServiceName)
    (context : SecurityContext σ) (session : σ) : Except Fault (Client σ) :=
  if serviceName.name = "" then .error (.config .emptyServiceName)
  else
    match Oid.parseAll options.gssapi.mechanisms with
    | .error fault => .error fault
    | .ok mechanisms =>
        .ok {
          announcement := .ofOptions options
          context := context
          session := session
          serviceName := serviceName
          principal := options.gssapi.principal.map (⟨·, options.gssapi.principalNameType⟩)
          mechanisms := mechanisms
          encrypting := !options.gssapi.plaintext
          phase := .callNextInit
          pending := none
          established := false
          failed := false
          peer := .empty }

/-- A client for the service that the options name. -/
def start (options : SecurityOptions) (context : SecurityContext σ) (session : σ) :
    Except Fault (Client σ) :=
  withServiceName options
    ⟨options.gssapi.servicePrincipal, options.gssapi.servicePrincipalNameType⟩ context session

/-- The service principal for a peer. A host-based one without a host gets that of the peer. -/
def principalFor (options : GssapiOptions) (peer : Address) : Except Fault String :=
  if options.servicePrincipalNameType = .hostBased ∧ '@' ∉ options.servicePrincipal.toList then
    match peer.host? with
    | some host => .ok (options.servicePrincipal ++ "@" ++ host)
    | none => .error (.config (.underivedPrincipal peer.protocol peer.address))
  else .ok options.servicePrincipal

/-- A client for a connection to a peer. -/
def forPeer (options : SecurityOptions) (peer : Address) (context : SecurityContext σ)
    (session : σ) : Except Fault (Client σ) :=
  match principalFor options.gssapi peer with
  | .error fault => .error fault
  | .ok name =>
      withServiceName options ⟨name, options.gssapi.servicePrincipalNameType⟩ context session

/-! ## The token exchange -/

/-- Ends the handshake with a fault. -/
def fail {α : Type} (c : Client σ) (fault : Fault) : Except Fault α × Client σ :=
  (.error fault, { c with failed := true })

/-- Ends the handshake because of a command that this phase does not expect. -/
def unexpected {α : Type} (c : Client σ) : Except Fault α × Client σ :=
  c.fail (.sequence (.unexpectedIn c.phase))

/-- The services asked of the context. -/
def flags (c : Client σ) : ContextFlags where
  mutualAuthentication := true
  replayDetection := true
  sequencing := true
  confidentiality := c.encrypting
  integrity := true

/-- The call for the next token, with the token received since the last one. -/
def request (c : Client σ) (input : Option Bytes) : InitRequest where
  target := c.serviceName
  principal := c.principal
  mechanisms := c.mechanisms
  flags := c.flags
  inputToken := input

/-- Calls the context and keeps the token it produces. -/
def callContext (c : Client σ) (input : Option Bytes) : Except Fault Unit × Client σ :=
  match c.context.init (c.request input) c.session with
  | (answer, session) =>
      -- the received token is used up, whatever the context answers
      let called := { c with session := session, pending := none }
      match answer with
      | .error failure => called.fail (.context (.initialisation failure))
      | .ok (.continueNeeded token) =>
          if token = [] then called.fail (.context .emptyToken)
          else (.ok (), { called with pending := some (.outbound token) })
      | .ok (.complete token) =>
          (.ok (), { called with
            established := true
            pending := if token = [] then none else some (.outbound token) })

/-- Calls the context with the received token, if there is one. -/
def advance (c : Client σ) : Except Fault Unit × Client σ :=
  match c.pending with
  | some (.outbound _) => c.fail (.sequence .outboundPending)
  | some (.inbound token) => c.callContext (some token)
  | none => c.callContext none

/-- Sends READY, protected where that is asked for. -/
def sendReady (c : Client σ) : Except Fault (Option Frame) × Client σ :=
  match c.announcement.command Command.ready with
  | .error fault => c.fail fault
  | .ok ready =>
      if c.encrypting then
        match encodeMessage c.context ready c.session with
        | (.error fault, session) => { c with session := session }.fail fault
        | (.ok frame, session) =>
            (.ok (some frame), { c with session := session, phase := .recvReady })
      else (.ok (some ready), { c with phase := .recvReady })

/-- Sends the token that the context produced, or READY if there is none. -/
def flush (c : Client σ) : Except Fault (Option Frame) × Client σ :=
  match c.pending with
  | some (.outbound token) =>
      let emptied := { c with pending := none }
      match produceInitiate token with
      | .error fault => emptied.fail fault
      | .ok frame =>
          (.ok (some frame),
            { emptied with phase := if c.established then .sendReady else .recvNextToken })
  | some (.inbound _) => c.fail (.sequence .inboundPending)
  | none =>
      -- the context is complete and has no token left for the server
      { c with phase := .sendReady }.sendReady

/-- The next outbound command, if one is due. -/
def next (c : Client σ) : Except Fault (Option Frame) × Client σ :=
  if c.failed then (.ok none, c)
  else
    match c.phase with
    | .callNextInit =>
        match c.pending with
        | some _ => c.flush
        | none =>
            match c.advance with
            | (.error fault, called) => (.error fault, called)
            | (.ok (), called) => called.flush
    | .sendReady => c.sendReady
    | .recvNextToken | .recvReady | .connected => (.ok none, c)

/-- Takes in the server's next token. -/
def processToken (c : Client σ) (f : Frame) : Except Fault Unit × Client σ :=
  if f.isNamed Command.initiate then
    match processInitiate f with
    | .error fault => c.fail fault
    | .ok token =>
        match { c with pending := some (.inbound token) }.advance with
        | (.error fault, called) => (.error fault, called)
        | (.ok (), called) =>
            -- without a token to send the context is complete
            (.ok (), { called with
              phase := if called.pending.isSome then .callNextInit else .sendReady })
  else c.unexpected

/-- Takes in a bare READY. -/
def acceptReady (c : Client σ) (ready : Frame) : Except Fault Unit × Client σ :=
  if ready.isNamed Command.ready then
    match Command.checkStructure ready with
    | .error fault => c.fail fault
    | .ok () =>
        match c.announcement.accept (ready.data.drop Command.ready.length) with
        | .error fault => c.fail fault
        | .ok peer => (.ok (), { c with peer := peer, phase := .connected })
  else c.unexpected

/-- Takes in the server's READY, protected where that is asked for. -/
def processReady (c : Client σ) (f : Frame) : Except Fault Unit × Client σ :=
  if c.encrypting then
    if f.isNamed Command.message then
      match decodeMessage c.context f c.session with
      | (.error fault, session) => { c with session := session }.fail fault
      | (.ok ready, session) => { c with session := session }.acceptReady ready
    else c.unexpected
  else c.acceptReady f

/-- Takes in a command of the server. -/
def process (c : Client σ) (f : Frame) : Except Fault Unit × Client σ :=
  if c.failed then (.error (.sequence .alreadyFailed), c)
  else
    match c.phase with
    | .recvNextToken =>
        if f.isNamed Command.error then c.fail (Command.faultOfError f.data) else c.processToken f
    | .recvReady =>
        if f.isNamed Command.error then c.fail (Command.faultOfError f.data) else c.processReady f
    | .callNextInit | .sendReady | .connected => c.unexpected

/-! ## Traffic -/

/-- How far the handshake has come. -/
def status (c : Client σ) : Status :=
  if c.failed then .error else if c.phase = .connected then .ready else .handshaking

/-- Carries out a transformation of traffic, which must be ready for it. -/
def transform (c : Client σ) (f : Frame)
    (step : SecurityContext σ → Frame → σ → Except Fault Frame × σ) :
    Except Fault Frame × Client σ :=
  if c.status = .ready then
    if c.encrypting then
      match step c.context f c.session with
      | (.error fault, session) => { c with session := session }.fail fault
      | (.ok frame, session) => (.ok frame, { c with session := session })
    else (.ok f, c)
  else (.error .notReady, c)

/-- Protects an outbound frame. -/
def encode (c : Client σ) (f : Frame) : Except Fault Frame × Client σ :=
  c.transform f encodeMessage

/-- Recovers an inbound frame. -/
def decode (c : Client σ) (f : Frame) : Except Fault Frame × Client σ :=
  c.transform f decodeMessage

end Client

end PeerLink.Gssapi
