import PeerLink.Fault
import PeerLink.Text.Utf8

/-!
# Metadata blocks

A metadata block is a sequence of properties. A property is written as one length byte, the name,
a 32-bit length and the value. `Metadata.readProperty?_encoded` says that a written property reads
back and leaves what follows it; `Metadata.parseBlock` reads a whole block.
-/

set_option autoImplicit false

namespace PeerLink

/-- A named value. -/
structure Property where
  name : String
  value : Bytes
  deriving DecidableEq, Repr

namespace Property

/-- The name under which a socket announces its type. -/
def socketType : String := "Socket-Type"

/-- The name under which a socket announces its routing id. -/
def identity : String := "Identity"

/-- The written size of a property with this name and a value of `valueSize` bytes. -/
def sizeOf (name : String) (valueSize : Nat) : Nat := 1 + name.utf8ByteSize + 4 + valueSize

/-- The written size of a property. -/
def size (p : Property) : Nat := sizeOf p.name p.value.length

/-- The bytes of a property whose lengths fit their fields. -/
def encoded (p : Property) : Bytes :=
  UInt8.ofNat p.name.utf8ByteSize :: Utf8.encode p.name ++ Bytes.ofWord p.value.length ++ p.value

/-- Writes a property. A name takes at most 255 bytes, a value fewer than `2 ^ 32`. -/
def encode (p : Property) : Except Fault Bytes :=
  if 255 < p.name.utf8ByteSize then
    .error (.malformed (.longPropertyName p.name.utf8ByteSize))
  else if Bytes.wordLimit ≤ p.value.length then
    .error (.malformed (.longPropertyValue p.value.length))
  else
    .ok p.encoded

theorem length_encoded (p : Property) : p.encoded.length = p.size := by
  simp [encoded, size, sizeOf]
  omega

end Property

namespace Metadata

/-- Writes a property after what a buffer already holds. -/
def append (buffer : Bytes) (p : Property) : Except Fault Bytes :=
  p.encode.map (buffer ++ ·)

/-- Writes properties, one after the other, after what a buffer already holds. -/
def appendAll (buffer : Bytes) : List Property → Except Fault Bytes
  | [] => .ok buffer
  | p :: ps => do
      let longer ← append buffer p
      appendAll longer ps

/-- The first property of a block and the rest of the block. -/
def readProperty? : Bytes → Option (Property × Bytes)
  | [] => none
  | nameSize :: data =>
      match Bytes.takeExact? nameSize.toNat data with
      | none => none
      | some (nameBytes, afterName) =>
          match Utf8.decode? nameBytes, Bytes.readWord? afterName with
          | some name, some (valueSize, afterSize) =>
              match Bytes.takeExact? valueSize afterSize with
              | none => none
              | some (value, rest) => some (⟨name, value⟩, rest)
          | _, _ => none

/-- Reading a property takes exactly its written size off the block. -/
theorem length_of_readProperty? {data rest : Bytes} {p : Property}
    (h : readProperty? data = some (p, rest)) :
    data.length = p.size + rest.length := by
  cases data with
  | nil => cases h
  | cons nameSize data =>
      simp only [readProperty?] at h
      split at h
      · cases h
      · next nameBytes afterName hname =>
        obtain ⟨rfl, hlen⟩ := Bytes.takeExact?_eq_some hname
        split at h
        · next name valueSize afterSize htext hsize =>
          split at h
          · cases h
          · next value rest' hvalue =>
            simp only [Option.some.injEq, Prod.mk.injEq] at h
            obtain ⟨rfl, rfl⟩ := h
            obtain ⟨rfl, hv⟩ := Bytes.takeExact?_eq_some hvalue
            have hw := Bytes.readWord?_length hsize
            have hn := congrArg List.length (Utf8.encode_of_decode? htext)
            simp only [Utf8.length_encode] at hn
            simp only [List.length_cons, List.length_append, Property.size, Property.sizeOf] at *
            omega
        · cases h

/-- The properties of a block, in wire order. -/
def parseBlock (data : Bytes) : Except Fault (List Property) :=
  match data with
  | [] => .ok []
  | first :: others =>
      match h : readProperty? (first :: others) with
      | none => .error (.malformed .metadata)
      | some (p, rest) =>
          have hshorter : rest.length < (first :: others).length := by
            have := length_of_readProperty? h
            simp only [Property.size, Property.sizeOf] at this
            omega
          (parseBlock rest).map (p :: ·)
termination_by data.length
decreasing_by exact hshorter

theorem readProperty?_encoded (p : Property) (rest : Bytes) (hname : p.name.utf8ByteSize ≤ 255)
    (hvalue : p.value.length < Bytes.wordLimit) :
    readProperty? (p.encoded ++ rest) = some (p, rest) := by
  have hsize : (UInt8.ofNat p.name.utf8ByteSize).toNat = (Utf8.encode p.name).length := by
    rw [UInt8.toNat_ofNat', Utf8.length_encode]
    omega
  have hform : p.encoded ++ rest = UInt8.ofNat p.name.utf8ByteSize ::
      (Utf8.encode p.name ++ (Bytes.ofWord p.value.length ++ (p.value ++ rest))) := by
    simp [Property.encoded]
  rw [hform]
  simp only [readProperty?, hsize, Bytes.takeExact?_append, Utf8.decode?_encode,
    Bytes.readWord?_ofWord hvalue]

end Metadata

end PeerLink
