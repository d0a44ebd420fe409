import WebHost.Json.Value
import WebHost.Number.Numeral
import WebHost.Text.Cut

/-!
# Network ports

A port is a 16-bit number, and zero means that none is set. A port may be written after a colon
and in four radices: `0x`, `0o` and `0b` name theirs, a leading zero means octal, and every other
numeral is decimal.
-/

set_option autoImplicit false

namespace WebHost

/-- A network port; zero stands for a port that is not set. -/
structure Port where
  number : UInt16
  deriving DecidableEq, Inhabited

/-- What is wrong with a text that should be a port or an address. -/
inductive AddressFault where
  | missingPort
  | invalidFormat
  | missingCloseBracket
  | tooManyColons
  | unexpectedOpenBracket
  | unexpectedCloseBracket
  deriving DecidableEq, Repr

/-- The wording of an address fault. -/
def AddressFault.message : AddressFault → String
  | .missingPort => "missing port"
  | .invalidFormat => "invalid format"
  | .missingCloseBracket => "missing ']' in address"
  | .tooManyColons => "too many colons in address"
  | .unexpectedOpenBracket => "unexpected '[' in address"
  | .unexpectedCloseBracket => "unexpected ']' in address"

/-- A refusal of a port or an address: the fault, the text at fault, and what was wrong with its
numeral when that was read. -/
structure PortError where
  fault : AddressFault
  input : String
  cause : Option Numeral.Fault
  deriving DecidableEq, Repr

/-- The text of a refusal quotes the input. -/
def PortError.message (e : PortError) : String :=
  "`" ++ e.input ++ "`: " ++ e.fault.message

namespace Port

/-- The port that stands for no port. -/
def unset : Port := ⟨0⟩

/-- Whether no port is set. -/
def isUnset (p : Port) : Bool := p.number = 0

/-- The port number as a natural number. -/
def toNat (p : Port) : Nat := p.number.toNat

/-- The port in decimal; nothing for a port that is not set. -/
def text (p : Port) : String := if p.isUnset then "" else toString p.toNat

/-- The port as an address on every interface, such as `:8080`; nothing when it is not set. -/
def addr (p : Port) : String := if p.isUnset then "" else ":" ++ toString p.toNat

/-- The radix that a numeral's beginning announces, and the digits after it. -/
def radix (text : List Char) : Nat × List Char :=
  match text with
  | '0' :: 'x' :: digits => (16, digits)
  | '0' :: 'X' :: digits => (16, digits)
  | '0' :: 'o' :: digits => (8, digits)
  | '0' :: 'O' :: digits => (8, digits)
  | '0' :: 'b' :: digits => (2, digits)
  | '0' :: 'B' :: digits => (2, digits)
  | '0' :: d :: digits => (8, d :: digits)
  | digits => (10, digits)

/-- Reads a port numeral. A sign is no digit of it: a plus sign makes the numeral count as
missing. -/
def readNumeral (text : List Char) : Except Numeral.Fault Nat :=
  let (base, digits) := radix text
  match digits with
  | '+' :: _ => .error .empty
  | _ => Numeral.read base 65535 digits

/-- The characters of a port after its optional leading colon; none when a colon stands elsewhere
first. -/
def numeralOf (text : List Char) : Option (List Char) :=
  match text with
  | ':' :: digits => some digits
  | _ => if ':' ∈ text then none else some text

/-- Reads a port. -/
def parse (s : String) : Except PortError Port :=
  if s.isEmpty then .error ⟨.missingPort, s, none⟩
  else
    match numeralOf s.toList with
    | none => .error ⟨.invalidFormat, s, none⟩
    | some digits =>
      match readNumeral digits with
      | .ok n => .ok ⟨UInt16.ofNat n⟩
      | .error fault => .error ⟨.missingPort, String.ofList digits, some fault⟩

/-- Why a document does not hold a port. -/
inductive JsonFault where
  | outOfRange (value : Int)
  | wrongType (what : String)
  | text (error : PortError)

/-- What a document should have held. -/
def expectation : String := "a port number or a string such as \":8080\""

/-- The wording of a document's fault. -/
def JsonFault.message : JsonFault → String
  | .outOfRange v => "invalid value: integer `" ++ toString v ++ "`, expected " ++ expectation
  | .wrongType what => "invalid type: " ++ what ++ ", expected " ++ expectation
  | .text e => e.message

/-- The port that a whole number gives. -/
def ofInt? (v : Int) : Option Port :=
  if 0 ≤ v ∧ v < 65536 then some ⟨UInt16.ofNat v.toNat⟩ else none

/-- Reads a port from a document: a number in range, or a text. The empty text is the unset
port. -/
def ofJson : Json → Except JsonFault Port
  | .int v => match ofInt? v with
    | some p => .ok p
    | none => .error (.outOfRange v)
  | .str s =>
    if s.isEmpty then .ok unset
    else match parse s with
      | .ok p => .ok p
      | .error e => .error (.text e)
  | .null => .error (.wrongType "null")
  | .bool b => .error (.wrongType ("boolean `" ++ (if b then "true" else "false") ++ "`"))
  | .real negative magnitude =>
    let digits := match Binary64.ofLeading magnitude with
      | some x => x.shortest.positional
      | none => "inf"
    .error (.wrongType ("floating point `" ++ (if negative then "-" else "") ++ digits ++ "`"))
  | .arr _ => .error (.wrongType "sequence")
  | .obj _ => .error (.wrongType "map")

end Port

end WebHost
