import WebHost.Text.Utf8

/-!
# Tagged binary values

Certificates and keys are nested values, each with a tag, a length and a content. Lengths are in
their shortest form, and tags take one byte.
-/

set_option autoImplicit false

namespace WebHost.Der

/-- A value with its tag. -/
structure Value where
  tag : Nat
  content : Bytes
  deriving DecidableEq, Repr

/-- A number in bytes, the highest first. -/
def number (bytes : Bytes) : Nat := bytes.foldl (fun n b => n * 256 + b.toNat) 0

/-- Reads a length in its shortest form. -/
def length : Bytes → Option (Nat × Bytes)
  | [] => none
  | first :: rest =>
    if first.toNat < 128 then some (first.toNat, rest)
    else
      let count := first.toNat - 128
      let bytes := rest.take count
      let n := number bytes
      if count = 0 ∨ 4 < count ∨ bytes.length < count then none
      else if n < 128 ∨ bytes.head? = some 0 then none
      else some (n, rest.drop count)

/-- Reads one value from the start of some bytes. -/
def read : Bytes → Option (Value × Bytes)
  | [] => none
  | tag :: rest =>
    if tag.toNat % 32 = 31 then none
    else
      (length rest).bind fun (n, rest) =>
        if rest.length < n then none else some (⟨tag.toNat, rest.take n⟩, rest.drop n)

/-- The values that fill some bytes. -/
def readAll : Nat → Bytes → Option (List Value)
  | _, [] => some []
  | 0, _ => none
  | fuel + 1, bytes =>
    (read bytes).bind fun (v, rest) => (readAll fuel rest).map (v :: ·)

/-- The values in the content of a value. -/
def Value.parts (v : Value) : Option (List Value) := readAll v.content.length v.content

/-- The tag of a whole number. -/
def integerTag : Nat := 0x02
/-- The tag of a row of bits. -/
def bitsTag : Nat := 0x03
/-- The tag of bytes. -/
def bytesTag : Nat := 0x04
/-- The tag of a sequence. -/
def sequenceTag : Nat := 0x30

/-- The parts of a sequence that fills some bytes. -/
def sequence? (bytes : Bytes) : Option (List Value) :=
  match read bytes with
  | some (v, []) => if v.tag = sequenceTag then v.parts else none
  | _ => none

end WebHost.Der
