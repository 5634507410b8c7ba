import PeerLink.Config.Options
import PeerLink.Text.Split

/-!
# VMCI endpoints

The text is `cid:port`. Both may be a wildcard, and `@` stands for the local context id.
-/

set_option autoImplicit false

namespace PeerLink

/-- A resolved VMCI endpoint. -/
structure VmciEndpoint where
  cid : UInt32
  port : UInt32
  deriving DecidableEq, Repr

namespace VmciEndpoint

/-- The wildcard for context ids and ports. -/
def wildcard : UInt32 := 0xFFFFFFFF

/-- Whether a text means the wildcard. -/
def isWildcard (cs : List Char) : Bool := cs = ['*'] || cs = ['-', '1']

/-- Reads the context id. `text` is the whole endpoint. -/
def readCid (policy : TransportPolicy) (text cid : List Char) : Except Fault UInt32 :=
  if cid = [] then .error (.ofFlaw .emptyHost text)
  else if cid = ['@'] then
    match policy.vmciLocalCid with
    | some number => .ok number
    | none => .error (.resolution .unknownContextId)
  else if isWildcard cid then .ok wildcard
  else
    match Numeral.readUInt32? cid with
    | some number => .ok number
    | none => .error (.ofFlaw .invalidContextId text)

/-- Reads the port. `text` is the whole endpoint. -/
def readPort (text port : List Char) : Except Fault UInt32 :=
  if isWildcard port then .ok wildcard
  else
    match Numeral.readUInt32? port with
    | some number => .ok number
    | none => .error (.ofFlaw .invalidPort text)

/-- Resolves an endpoint text. -/
def resolve (policy : TransportPolicy) (text : List Char) : Except Fault VmciEndpoint :=
  match Split.atLast? ':' text with
  | none => .error (.ofFlaw .missingPort text)
  | some (cid, port) =>
      match readCid policy text cid with
      | .error fault => .error fault
      | .ok cid =>
          match readPort text port with
          | .error fault => .error fault
          | .ok port => .ok ⟨cid, port⟩

/-- The text of a context id or port. -/
def renderPart (n : UInt32) : List Char :=
  if n = wildcard then ['*'] else Numeral.decimalChars n.toNat

/-- The canonical text. -/
def render (e : VmciEndpoint) : List Char := renderPart e.cid ++ ':' :: renderPart e.port

end VmciEndpoint

end PeerLink
