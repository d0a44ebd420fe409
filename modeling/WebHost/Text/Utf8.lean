/-!
# Bytes and UTF-8 text

Bodies, header values and file contents are bytes; most of what the host prints is text. This
file holds the two readings of bytes as text: the strict one of the standard library, and the
lossy one that puts a replacement character for every longest run that no text can contain.
-/

set_option autoImplicit false

namespace WebHost

/-- A finite sequence of octets. -/
abbrev Bytes := List UInt8

namespace Utf8

/-- The bytes that encode a text. -/
def encode (text : String) : Bytes := text.toUTF8.toList

/-- The text that bytes encode; none when they are not well formed. -/
def decode? (bytes : Bytes) : Option String := String.fromUTF8? (ByteArray.mk bytes.toArray)

/-- A character that has begun: how many octets it still needs, the bounds of the next one, and
the bits read so far. -/
structure Pending where
  owed : Nat
  low : UInt8
  high : UInt8
  bits : Nat

/-- What one octet is at the start of a character. -/
inductive Lead where
  | whole (c : Char)
  | opens (pending : Pending)
  | invalid

/-- Reads the first octet of a character. -/
def lead (b : UInt8) : Lead :=
  let n := b.toNat
  if b < 0x80 then .whole (Char.ofNat n)
  else if b < 0xC2 then .invalid
  else if b < 0xE0 then .opens ⟨1, 0x80, 0xBF, n - 0xC0⟩
  else if b = 0xE0 then .opens ⟨2, 0xA0, 0xBF, 0⟩
  else if b = 0xED then .opens ⟨2, 0x80, 0x9F, 0xD⟩
  else if b < 0xF0 then .opens ⟨2, 0x80, 0xBF, n - 0xE0⟩
  else if b = 0xF0 then .opens ⟨3, 0x90, 0xBF, 0⟩
  else if b < 0xF4 then .opens ⟨3, 0x80, 0xBF, n - 0xF0⟩
  else if b = 0xF4 then .opens ⟨3, 0x80, 0x8F, 4⟩
  else .invalid

/-- The character that stands for octets no text contains. -/
def replacement : Char := Char.ofNat 0xFFFD

/-- Reads octets with an unfinished character in hand. An octet that cannot continue it ends it as
a replacement character and is then read as a first octet. -/
def lossy : Option Pending → Bytes → List Char
  | none, [] => []
  | some _, [] => [replacement]
  | none, b :: rest =>
    match lead b with
    | .whole c => c :: lossy none rest
    | .opens p => lossy (some p) rest
    | .invalid => replacement :: lossy none rest
  | some p, b :: rest =>
    if p.low ≤ b ∧ b ≤ p.high then
      let bits := p.bits * 64 + (b.toNat - 0x80)
      if p.owed ≤ 1 then Char.ofNat bits :: lossy none rest
      else lossy (some ⟨p.owed - 1, 0x80, 0xBF, bits⟩) rest
    else
      match lead b with
      | .whole c => replacement :: c :: lossy none rest
      | .opens q => replacement :: lossy (some q) rest
      | .invalid => replacement :: replacement :: lossy none rest

/-- Bytes read as text, whatever they are. -/
def decodeLossy (bytes : Bytes) : String := String.ofList (lossy none bytes)

end Utf8

end WebHost
