import PeerLink.Text.Numeral

/-!
# Positions and failures of the token exchange

The five positions of a client in the token exchange, and the failure a security library reports.
-/

set_option autoImplicit false

namespace PeerLink.Gssapi

/-- Where a client stands. -/
inductive Phase where
  /-- The context is asked next, and its token is sent. -/
  | callNextInit
  /-- The server owes a token. -/
  | recvNextToken
  /-- The context is established and READY goes out next. -/
  | sendReady
  /-- The server owes its READY. -/
  | recvReady
  /-- Both sides are ready. -/
  | connected
  deriving DecidableEq, Repr

/-- The word for a position. -/
def Phase.word : Phase → String
  | .callNextInit => "CallNextInit"
  | .recvNextToken => "RecvNextToken"
  | .sendReady => "SendReady"
  | .recvReady => "RecvReady"
  | .connected => "Connected"

/-- A failure reported by the security library. -/
structure LibraryFailure where
  major : UInt32
  minor : UInt32
  text : String
  deriving DecidableEq, Repr

/-- The failure with its codes, the major one in hexadecimal. -/
def LibraryFailure.message (e : LibraryFailure) : String :=
  let major := String.ofList (Numeral.hexChars e.major.toNat)
  let minor := Numeral.decimal e.minor.toNat
  e.text ++ " (major 0x" ++ major ++ ", minor " ++ minor ++ ")"

end PeerLink.Gssapi
