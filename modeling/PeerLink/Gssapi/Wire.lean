import PeerLink.Gssapi.Context
import PeerLink.Mechanism.Command

/-!
# Token framing

Tokens travel in commands: the command name, a 32-bit length and exactly that many bytes.
INITIATE carries a token of the context, MESSAGE a protected frame whose plaintext is one byte of
flags and the payload. `readToken?_framed` says that a framed token reads back.
-/

set_option autoImplicit false

namespace PeerLink.Gssapi

/-- The bytes of a command that carries a token. -/
def framed (name token : Bytes) : Bytes := name ++ Bytes.ofWord token.length ++ token

/-- The token that a frame carries under a name, if its length field is exact. -/
def readToken? (name : Bytes) (f : Frame) : Option Bytes :=
  match Bytes.after? name f.data with
  | none => none
  | some body =>
      match Bytes.readWord? body with
      | none => none
      | some (size, token) => if token.length = size then some token else none

/-- The INITIATE command for a token. -/
def produceInitiate (token : Bytes) : Except Fault Frame :=
  if Bytes.wordLimit ≤ token.length then .error (.context (.longToken token.length))
  else .ok (.ofCommand (framed Command.initiate token))

/-- The token of an INITIATE command. -/
def processInitiate (f : Frame) : Except Fault Bytes :=
  match readToken? Command.initiate f with
  | some token => .ok token
  | none => .error (.malformed .initiateFraming)

/-- The plaintext that protects a frame: its flags and its payload. -/
def plaintextOf (f : Frame) : Bytes := f.flags :: f.data

/-- Protects a frame as a MESSAGE command, whose outer flags are those of the frame. -/
def encodeMessage {σ : Type} (context : SecurityContext σ) (f : Frame) (state : σ) :
    Except Fault Frame × σ :=
  match context.wrap (plaintextOf f) true state with
  | (.error failure, next) => (.error (.context (.wrapping failure)), next)
  | (.ok token, next) =>
      if Bytes.wordLimit ≤ token.length then
        (.error (.context (.longWrappedToken token.length)), next)
      else (.ok (.ofParts (framed Command.message token) f.flags), next)

/-- The frame that an unprotected token held. It must have been encrypted. -/
def ofUnwrapped (u : Unwrapped) : Except Fault Frame :=
  if u.confidential then
    match u.data with
    | flags :: payload => .ok (.ofParts payload flags)
    | [] => .error (.integrity .missingFlags)
  else .error (.integrity .notEncrypted)

/-- Recovers the frame that a MESSAGE command protects. -/
def decodeMessage {σ : Type} (context : SecurityContext σ) (f : Frame) (state : σ) :
    Except Fault Frame × σ :=
  match readToken? Command.message f with
  | none => (.error (.integrity .framing), state)
  | some token =>
      match context.unwrap token state with
      | (.error failure, next) => (.error (.integrity (.unwrapping failure)), next)
      | (.ok u, next) => (ofUnwrapped u, next)

theorem readToken?_framed {name token : Bytes} (h : token.length < Bytes.wordLimit)
    (more command : Bool) : readToken? name ⟨framed name token, more, command⟩ = some token := by
  have hp : Bytes.after? name (framed name token) = some (Bytes.ofWord token.length ++ token) :=
    Bytes.after?_eq_some_iff.2 (by simp [framed])
  simp only [readToken?, hp, Bytes.readWord?_ofWord h, ↓reduceIte]

end PeerLink.Gssapi
