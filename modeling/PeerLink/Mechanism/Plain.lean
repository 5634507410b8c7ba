import PeerLink.Mechanism.Announcement

/-!
# The PLAIN mechanism

The client sends its credentials in clear text. The commands are HELLO, the server's WELCOME,
INITIATE and the server's READY, in this order.
-/

set_option autoImplicit false

namespace PeerLink

namespace Credentials

/-- The longest user name or password, in bytes. -/
def maxSize : Nat := 255

/-- What is wrong with the credentials. -/
def problems (c : Credentials) : List Problem :=
  (if maxSize < c.username.utf8ByteSize then [.longUsername c.username.utf8ByteSize] else []) ++
    (if maxSize < c.password.utf8ByteSize then [.longPassword c.password.utf8ByteSize] else [])

/-- The body of HELLO: user name and password, each after its length in one byte. -/
def encoded (c : Credentials) : Bytes :=
  UInt8.ofNat c.username.utf8ByteSize :: Utf8.encode c.username ++
    UInt8.ofNat c.password.utf8ByteSize :: Utf8.encode c.password

end Credentials

/-- Where a PLAIN client stands. -/
inductive PlainPhase where
  | sendingHello
  | awaitingWelcome
  | sendingInitiate
  | awaitingReady
  | failed
  | ready (properties : Properties)
  deriving DecidableEq

/-- The state of a PLAIN handshake on the client's side. -/
structure PlainClient where
  announcement : Announcement
  credentials : Credentials
  phase : PlainPhase
  deriving DecidableEq

namespace PlainClient

/-- A client before its first step. Credentials that HELLO cannot carry are refused. -/
def start (options : SecurityOptions) : Except Fault PlainClient :=
  if options.plain.problems = [] then
    .ok ⟨.ofOptions options, options.plain, .sendingHello⟩
  else .error (.config (.refused options.plain.problems))

/-- The HELLO command. -/
def hello (c : PlainClient) : Frame := .ofCommand (Command.hello ++ c.credentials.encoded)

/-- The next outbound command, if one is due. -/
def next (c : PlainClient) : Except Fault (Option Frame) × PlainClient :=
  match c.phase with
  | .sendingHello => (.ok (some c.hello), { c with phase := .awaitingWelcome })
  | .sendingInitiate =>
      match c.announcement.command Command.initiate with
      | .ok frame => (.ok (some frame), { c with phase := .awaitingReady })
      | .error fault => (.error fault, c)
  | _ => (.ok none, c)

/-- Takes in a WELCOME. -/
def processWelcome (c : PlainClient) (f : Frame) : Except Fault Unit × PlainClient :=
  match c.phase with
  | .awaitingWelcome =>
      if f.data.length = Command.welcome.length then
        (.ok (), { c with phase := .sendingInitiate })
      else (.error (.malformed .welcomeBody), c)
  | _ => (.error (.sequence .unexpected), c)

/-- Takes in a READY. -/
def processReady (c : PlainClient) (f : Frame) : Except Fault Unit × PlainClient :=
  match c.phase with
  | .awaitingReady =>
      match c.announcement.accept (f.data.drop Command.ready.length) with
      | .ok peer => (.ok (), { c with phase := .ready peer })
      | .error fault => (.error fault, c)
  | _ => (.error (.sequence .unexpected), c)

/-- Takes in an ERROR. -/
def processError (c : PlainClient) (f : Frame) : Except Fault Unit × PlainClient :=
  match c.phase with
  | .awaitingWelcome | .awaitingReady =>
      (.error (Command.faultOfError f.data), { c with phase := .failed })
  | _ => (.error (.sequence .unexpected), c)

/-- Takes in a command of the server. -/
def process (c : PlainClient) (f : Frame) : Except Fault Unit × PlainClient :=
  match Command.checkStructure f with
  | .error fault => (.error fault, c)
  | .ok () =>
      if f.isNamed Command.welcome then c.processWelcome f
      else if f.isNamed Command.ready then c.processReady f
      else if f.isNamed Command.error then c.processError f
      else (.error (.sequence .unexpected), c)

/-- How far the handshake has come. -/
def status (c : PlainClient) : Status :=
  match c.phase with
  | .ready _ => .ready
  | .failed => .error
  | _ => .handshaking

/-- What the server has announced. -/
def peerProperties (c : PlainClient) : Properties :=
  match c.phase with
  | .ready peer => peer
  | _ => .empty

end PlainClient

end PeerLink
