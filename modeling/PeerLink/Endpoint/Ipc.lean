import PeerLink.Fault

/-!
# IPC endpoints

The text is a file path, or `@` and a name that no file has.
-/

set_option autoImplicit false

namespace PeerLink

/-- A resolved IPC endpoint. -/
inductive IpcEndpoint where
  | filesystem (path : String)
  | abstract (name : String)
  deriving DecidableEq, Repr

namespace IpcEndpoint

/-- The longest text, in bytes. -/
def maxSize : Nat := 107

/-- Resolves an endpoint text. -/
def resolve (text : List Char) : Except Fault IpcEndpoint :=
  let whole := String.ofList text
  if text = [] then .error (.address .emptyPath)
  else if maxSize < whole.utf8ByteSize then .error (.address (.longPath whole.utf8ByteSize))
  else if '\x00' ∈ text then .error (.address .pathNul)
  else
    match text with
    | ['@'] => .error (.address .emptyAbstractName)
    | '@' :: name => .ok (.abstract (String.ofList name))
    | _ => .ok (.filesystem whole)

/-- Whether no file stands for the endpoint. -/
def isAbstract : IpcEndpoint → Bool
  | abstract _ => true
  | filesystem _ => false

/-- The file path. -/
def path? : IpcEndpoint → Option String
  | filesystem path => some path
  | abstract _ => none

/-- The canonical text. -/
def render : IpcEndpoint → List Char
  | filesystem path => path.toList
  | abstract name => '@' :: name.toList

end IpcEndpoint

end PeerLink
