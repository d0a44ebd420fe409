import WebHost.Number.Numeral
import WebHost.Text.Utf8

/-!
# Percent escapes

In the path of a request a percent sign and two hexadecimal digits stand for a byte. The bytes of a
path, escaped or not, have to be text. A plus sign before a single digit counts as no digit.
-/

set_option autoImplicit false

namespace WebHost.Percent

/-- The byte that the two characters of an escape stand for. -/
def byte? (high low : Char) : Option UInt8 :=
  match Numeral.digit? 16 low with
  | none => none
  | some l =>
    if high = '+' then some (UInt8.ofNat l)
    else (Numeral.digit? 16 high).map fun h => UInt8.ofNat (h * 16 + l)

/-- The bytes of a text with its escapes replaced; none when a percent sign begins no escape. -/
def bytes? : List Char → Option Bytes
  | [] => some []
  | [c] => if c = '%' then none else some (String.utf8EncodeChar c)
  | [c, d] => if c = '%' then none else (bytes? [d]).map (String.utf8EncodeChar c ++ ·)
  | c :: d :: e :: rest =>
    if c = '%' then
      match byte? d e with
      | some b => (bytes? rest).map (b :: ·)
      | none => none
    else (bytes? (d :: e :: rest)).map (String.utf8EncodeChar c ++ ·)

/-- The text of a path with its escapes replaced. -/
def decode? (text : String) : Option String := (bytes? text.toList).bind Utf8.decode?

end WebHost.Percent
