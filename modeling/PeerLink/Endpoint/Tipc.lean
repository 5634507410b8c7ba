import PeerLink.Endpoint.Host
import PeerLink.Text.Blank

/-!
# TIPC endpoints

The text is a service range `{type,lower,upper}`, a service `{type,instance}` perhaps followed by
`@` and a lookup domain, a port `<z.c.n:reference>`, or `<*>` for any port when binding.
-/

set_option autoImplicit false

namespace PeerLink

/-- A network address: zone, cluster and node. -/
structure TipcNode where
  zone : UInt8
  cluster : UInt16
  node : UInt16
  deriving DecidableEq, Repr

/-- A resolved TIPC endpoint. -/
inductive TipcEndpoint where
  | nameSeq (serviceType lower upper : UInt32)
  | name (serviceType inst : UInt32) (domain : Option TipcNode)
  | portId (node : TipcNode) (reference : UInt32)
  | random
  deriving DecidableEq, Repr

namespace TipcNode

/-- The greatest cluster and node number: both have twelve bits. -/
def maxPart : UInt16 := 4095

/-- Reads `z.c.n`. -/
def read? (cs : List Char) : Option TipcNode :=
  match Split.atEach '.' cs with
  | [zone, cluster, node] =>
      match Numeral.readUInt8? zone, Numeral.readUInt16? cluster, Numeral.readUInt16? node with
      | some zone, some cluster, some node =>
          if cluster ≤ maxPart ∧ node ≤ maxPart then some ⟨zone, cluster, node⟩ else none
      | _, _, _ => none
  | _ => none

/-- The text `z.c.n`. -/
def render (n : TipcNode) : List Char :=
  Numeral.decimalChars n.zone.toNat ++ '.' :: Numeral.decimalChars n.cluster.toNat ++
    '.' :: Numeral.decimalChars n.node.toNat

/-- The address in one word: eight bits of zone, twelve of cluster, twelve of node. -/
def packed (n : TipcNode) : Nat := n.zone.toNat * 16777216 + n.cluster.toNat * 4096 + n.node.toNat

end TipcNode

namespace TipcEndpoint

/-- Service types below this are reserved by the protocol itself. -/
def reservedTypes : UInt32 := 64

/-- Reads the fields between braces: numerals between commas, blanks around them ignored. -/
def readFields? : List (List Char) → Option (List UInt32)
  | [] => some []
  | field :: fields =>
      match Numeral.readUInt32? (Blank.trim field), readFields? fields with
      | some n, some ns => some (n :: ns)
      | _, _ => none

/-- Reads the inside of `<z.c.n:reference>`. -/
def readPortId (text body : List Char) : Except Fault TipcEndpoint :=
  match Split.atFirst? ':' body with
  | none => .error (.ofFlaw .missingReference text)
  | some (node, reference) =>
      match TipcNode.read? node, Numeral.readUInt32? reference with
      | none, _ => .error (.ofFlaw .invalidNode text)
      | some _, none => .error (.ofFlaw .invalidReference text)
      | some node, some reference => .ok (.portId node reference)

/-- The service or service range that the fields mean. -/
def ofFields (text : List Char) (domain : Option TipcNode) :
    List UInt32 → Except Fault TipcEndpoint
  | [serviceType, lower, upper] =>
      if domain.isSome then .error (.ofFlaw .fieldCount text)
      else if upper < lower then .error (.ofFlaw .boundsReversed text)
      else if serviceType < reservedTypes then .error (.ofFlaw .reservedType text)
      else .ok (.nameSeq serviceType lower upper)
  | [serviceType, inst] =>
      if serviceType < reservedTypes then .error (.ofFlaw .reservedType text)
      else .ok (.name serviceType inst domain)
  | _ => .error (.ofFlaw .fieldCount text)

/-- Reads `{...}`, of which the domain has been taken off. -/
def readService (text braced : List Char) (domain : Option TipcNode) : Except Fault TipcEndpoint :=
  match Split.enclosed? '\x7b' '\x7d' braced with
  | none => .error (.ofFlaw .unknownTipcForm text)
  | some body =>
      match readFields? (Split.atEach ',' body) with
      | none => .error (.ofFlaw .fieldNotNumeric text)
      | some fields => ofFields text domain fields

/-- Resolves an endpoint text. -/
def resolve (role : Role) (text : List Char) : Except Fault TipcEndpoint :=
  if text = ['<', '*', '>'] then
    if role = .bind then .ok .random else .error (.ofFlaw .randomPortId text)
  else
    match Split.enclosed? '<' '>' text with
    | some body => readPortId text body
    | none =>
        match Split.atFirst? '@' text with
        | none => readService text text none
        | some (braced, domain) =>
            match TipcNode.read? domain with
            | some node => readService text braced (some node)
            | none => .error (.ofFlaw .invalidDomain text)

/-- The service type of a service or a service range. -/
def serviceType? : TipcEndpoint → Option UInt32
  | nameSeq serviceType _ _ | name serviceType _ _ => some serviceType
  | portId .. | random => none

/-- The canonical text. -/
def render : TipcEndpoint → List Char
  | nameSeq serviceType lower upper =>
      '\x7b' :: Numeral.decimalChars serviceType.toNat ++ ',' :: Numeral.decimalChars lower.toNat ++
        ',' :: Numeral.decimalChars upper.toNat ++ ['\x7d']
  | name serviceType inst domain =>
      let place := match domain with
        | some node => '@' :: node.render
        | none => []
      '\x7b' :: Numeral.decimalChars serviceType.toNat ++ ',' :: Numeral.decimalChars inst.toNat ++
        '\x7d' :: place
  | portId node reference =>
      '<' :: node.render ++ ':' :: Numeral.decimalChars reference.toNat ++ ['>']
  | random => ['<', '*', '>']

end TipcEndpoint

end PeerLink
