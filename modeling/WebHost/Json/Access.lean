import WebHost.Json.Value
import WebHost.Text.Utf8
import WebHost.Time.Duration

/-!
# Looking into documents

A member that is missing or of the wrong kind reads as empty: as no text, as zero, as false, as no
items. Bytes are a text or an object that holds them in hexadecimal.
-/

set_option autoImplicit false

namespace WebHost.Json

/-- The text of a document that is one. -/
def str? : Json → Option String
  | .str s => some s
  | _ => none

/-- The number of a document that is a whole number from zero on. -/
def nat? : Json → Option Nat
  | .int (.ofNat n) => some n
  | _ => none

/-- The number of a document that is a whole number. -/
def int? : Json → Option Int
  | .int n => some n
  | _ => none

/-- The items of an array. -/
def arr? : Json → Option (List Json)
  | .arr items => some items
  | _ => none

/-- The value of a document that is true or false. -/
def bool? : Json → Option Bool
  | .bool b => some b
  | _ => none

/-- A member as far as it is of a kind. -/
def at? {α : Type} (j : Json) (key : String) (kind : Json → Option α) : Option α :=
  (j.member? key).bind kind

/-- A member that may be missing; nothing is null. -/
def at_ (j : Json) (key : String) : Json := (j.member? key).getD .null

/-- A member that is a text. -/
def text (j : Json) (key : String) : String := (j.at? key str?).getD ""

/-- A member that is a number from zero on. -/
def nat (j : Json) (key : String) : Nat := (j.at? key nat?).getD 0

/-- A member that is a number. -/
def integer (j : Json) (key : String) : Int := (j.at? key int?).getD 0

/-- A member that is true or false. -/
def flag (j : Json) (key : String) : Bool := (j.at? key bool?).getD false

/-- A member that is an array. -/
def items (j : Json) (key : String) : List Json := (j.at? key arr?).getD []

/-- The texts in a member that is an array. -/
def texts (j : Json) (key : String) : List String := (j.items key).filterMap str?

/-- A length of time: seconds, and nanoseconds below a second. -/
def duration (j : Json) (key : String) : Duration :=
  match j.items key with
  | [] => .zero
  | seconds :: rest =>
    ⟨seconds.nat?.getD 0, min ((rest.head?.bind nat?).getD 0) 999999999,
      Nat.lt_of_le_of_lt (Nat.min_le_right _ _) (by decide)⟩

/-- Bytes written as pairs of hexadecimal digits. -/
def bytesOfHex : List Char → Bytes
  | a :: b :: rest => UInt8.ofNat ((Numeral.value? 16 [a, b]).getD 0) :: bytesOfHex rest
  | _ => []

/-- The bytes that a document stands for. -/
def bytes : Json → Bytes
  | .str s => Utf8.encode s
  | j => bytesOfHex (j.text "hex").toList

/-- Bytes as a document: a text if they are one. -/
def ofBytes (b : Bytes) : Json :=
  match Utf8.decode? b with
  | some s => .str s
  | none =>
    let digits := b.flatMap fun x =>
      [Numeral.hexDigit (x.toNat / 16), Numeral.hexDigit (x.toNat % 16)]
    .obj [("hex", .str (String.ofList digits))]

/-- A number as a document. -/
def ofNat (n : Nat) : Json := .int n

/-- Texts as a document. -/
def ofTexts (texts : List String) : Json := .arr (texts.map .str)

/-- Something that may be missing as a document; nothing is null. -/
def ofOption {α : Type} (f : α → Json) : Option α → Json := fun o => (o.map f).getD .null

/-- A length of time as a document. -/
def ofDuration (d : Duration) : Json := .arr [ofNat d.seconds, ofNat d.nanos]

/-- Members in front of more members. -/
def plus : Json → List (String × Json) → Json
  | .obj members, more => .obj (members ++ more)
  | _, more => .obj more

end WebHost.Json
