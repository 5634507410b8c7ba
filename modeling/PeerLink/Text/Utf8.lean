import PeerLink.Bytes

/-!
# Text as bytes

The UTF-8 bytes of a text, the strict reading of bytes as text, and the reading that never fails:
it puts U+FFFD once for every maximal part that begins no character or breaks one off.
`Utf8.decode?_encode` says that strict reading undoes writing.
-/

set_option autoImplicit false

namespace PeerLink.Utf8

/-- The UTF-8 bytes of a text. -/
def encode (text : String) : Bytes := text.toByteArray.data.toList

/-- The text written by `data`, if `data` is well-formed UTF-8. -/
def decode? (data : Bytes) : Option String := String.fromUTF8? ⟨data.toArray⟩

@[simp] theorem length_encode (text : String) : (encode text).length = text.utf8ByteSize := by
  rw [← String.size_toByteArray]
  exact Array.length_toList

theorem decode?_encode (text : String) : decode? (encode text) = some text := by
  have h : (⟨(encode text).toArray⟩ : ByteArray) = text.toByteArray := by simp [encode]
  rw [decode?, h, String.fromUTF8?, dif_pos text.isValidUTF8]
  rfl

theorem encode_of_decode? {data : Bytes} {text : String} (h : decode? data = some text) :
    encode text = data := by
  unfold decode? String.fromUTF8? at h
  split at h
  · cases h
    simp [encode, String.fromUTF8]
  · cases h

theorem encode_injective {s t : String} (h : encode s = encode t) : s = t := by
  have hs := decode?_encode s
  rw [h, decode?_encode t] at hs
  exact (Option.some.inj hs).symm

/-- The character that stands for an unreadable part. -/
def replacement : Char := '\uFFFD'

/-- What the reader has seen of the current character: nothing, or a value with `left` more bytes
to come, of which the next lies between `low` and `high`. -/
inductive Partial where
  | none
  | more (left : Nat) (value : Nat) (low high : UInt8)

/-- The first byte of a character: a finished character, a part of one, or neither. -/
def start (b : UInt8) : List Char × Partial :=
  if b < 0x80 then ([Char.ofNat b.toNat], .none)
  else if b < 0xC2 then ([replacement], .none)
  else if b < 0xE0 then ([], .more 1 (b.toNat - 0xC0) 0x80 0xBF)
  else if b = 0xE0 then ([], .more 2 0 0xA0 0xBF)
  else if b = 0xED then ([], .more 2 0xD 0x80 0x9F)
  else if b < 0xF0 then ([], .more 2 (b.toNat - 0xE0) 0x80 0xBF)
  else if b = 0xF0 then ([], .more 3 0 0x90 0xBF)
  else if b < 0xF4 then ([], .more 3 (b.toNat - 0xF0) 0x80 0xBF)
  else if b = 0xF4 then ([], .more 3 4 0x80 0x8F)
  else ([replacement], .none)

/-- One more byte. A byte out of range closes the current character as unreadable and starts the
next one. -/
def feed : Partial → UInt8 → List Char × Partial
  | .none, b => start b
  | .more left value low high, b =>
      if low ≤ b ∧ b ≤ high then
        let next := value * 64 + (b.toNat - 0x80)
        if left ≤ 1 then ([Char.ofNat next], .none) else ([], .more (left - 1) next 0x80 0xBF)
      else
        -- the byte that breaks a character off may begin the next one
        let (chars, state) := start b
        (replacement :: chars, state)

/-- The characters read from the rest of the bytes. -/
def lossyFrom : Partial → Bytes → List Char
  | .none, [] => []
  | .more .., [] => [replacement]
  | state, b :: rest =>
      let (chars, next) := feed state b
      chars ++ lossyFrom next rest

/-- The text of any bytes, unreadable parts replaced. -/
def lossy (data : Bytes) : String := String.ofList (lossyFrom .none data)

end PeerLink.Utf8
