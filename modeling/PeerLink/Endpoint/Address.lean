import PeerLink.Endpoint

/-!
# Addresses

An address is what a caller asked for, a protocol and an endpoint text, with at most one resolved
endpoint. A resolved address must be cleared before it is resolved again.
-/

set_option autoImplicit false

namespace PeerLink

/-- An endpoint as a caller gave it, and its resolved form once there is one. -/
structure Address where
  protocol : String
  address : String
  policy : TransportPolicy
  resolved : Option Endpoint

namespace Address

/-- An address that is not resolved. -/
def new (protocol address : String) (policy : TransportPolicy) : Address :=
  ⟨protocol, address, policy, none⟩

/-- Whether the address is resolved. -/
def isResolved (a : Address) : Bool := a.resolved.isSome

/-- The endpoint that the texts mean, whatever is stored. -/
def lookUp (net : Network) (a : Address) (role : Role) : Except Fault Endpoint :=
  match Protocol.ofTag a.protocol with
  | .error fault => .error fault
  | .ok protocol => Endpoint.resolve net protocol a.policy role a.address

/-- Resolves an address that is not resolved and stores the endpoint. -/
def resolve (net : Network) (a : Address) (role : Role) : Except Fault Endpoint × Address :=
  if a.isResolved then (.error .alreadyResolved, a)
  else
    match a.lookUp net role with
    | .error fault => (.error fault, a)
    | .ok endpoint => (.ok endpoint, { a with resolved := some endpoint })

/-- Takes the endpoint out. -/
def clear (a : Address) : Option Endpoint × Address := (a.resolved, { a with resolved := none })

/-- The canonical text of a resolved address, or else what the caller gave. -/
def text (a : Address) : Except Fault String :=
  match a.resolved with
  | some endpoint => .ok endpoint.text
  | none =>
      if a.protocol = "" ∨ a.address = "" then .error .addressUnresolved
      else .ok (a.protocol ++ "://" ++ a.address)

/-- The host as written, for a resolved address whose transport keeps it. -/
def host? (a : Address) : Option String := a.resolved.bind Endpoint.host?

end Address

end PeerLink
