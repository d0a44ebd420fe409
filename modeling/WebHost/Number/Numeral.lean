/-!
# Numerals

A numeral is a non-empty row of digits of a radix. Reading one either gives its exact value or
says what is wrong first, from the left: a character that is no digit, or a prefix whose value
already exceeds the bound.
-/

set_option autoImplicit false

namespace WebHost.Numeral

/-- Why a numeral was refused. -/
inductive Fault where
  | empty
  | invalidDigit
  | tooLarge
  | tooSmall
  deriving DecidableEq, Repr

/-- The wording of a refusal. -/
def Fault.message : Fault → String
  | .empty => "cannot parse integer from empty string"
  | .invalidDigit => "invalid digit found in string"
  | .tooLarge => "number too large to fit in target type"
  | .tooSmall => "number too small to fit in target type"

/-- The value of a character as a digit of a radix up to 36. -/
def digit? (base : Nat) (c : Char) : Option Nat :=
  let value :=
    if '0' ≤ c ∧ c ≤ '9' then some (c.toNat - '0'.toNat)
    else if 'a' ≤ c ∧ c ≤ 'z' then some (c.toNat - 'a'.toNat + 10)
    else if 'A' ≤ c ∧ c ≤ 'Z' then some (c.toNat - 'A'.toNat + 10)
    else none
  value.bind fun d => if d < base then some d else none

/-- Reads digits after a value already read, refusing as soon as the bound is passed. -/
def readFrom (base bound : Nat) : Nat → List Char → Except Fault Nat
  | value, [] => .ok value
  | value, c :: rest =>
    match digit? base c with
    | none => .error .invalidDigit
    | some d =>
      let next := value * base + d
      if bound < next then .error .tooLarge else readFrom base bound next rest

/-- Reads a numeral without a sign whose value is at most the bound. -/
def read (base bound : Nat) (text : List Char) : Except Fault Nat :=
  if text.isEmpty then .error .empty else readFrom base bound 0 text

/-- Reads a numeral that may carry a plus sign. -/
def readNatural (bound : Nat) : List Char → Except Fault Nat
  | '+' :: c :: rest => read 10 bound (c :: rest)
  | text => read 10 bound text

/-- The exact value of a row of digits, most significant first; none when a character is not a
digit of the radix. -/
def value? (base : Nat) (text : List Char) : Option Nat :=
  text.foldl (fun acc c => acc.bind fun v => (digit? base c).map (v * base + ·)) (some 0)

/-- The two-digit decimal form of a number below one hundred. -/
def twoDigits (n : Nat) : String :=
  if n < 10 then "0" ++ toString n else toString n

/-- A number in decimal with zeros in front up to a width. -/
def padded (width n : Nat) : String :=
  let digits := toString n
  String.ofList (List.replicate (width - digits.length) '0') ++ digits

/-- The lower-case hexadecimal digit of a number below sixteen. -/
def hexDigit (n : Nat) : Char :=
  if n < 10 then Char.ofNat ('0'.toNat + n) else Char.ofNat ('a'.toNat + (n - 10))

/-- A number in lower-case hexadecimal without leading zeros. -/
def hex (n : Nat) : String := String.ofList (Nat.toDigits 16 n)

end WebHost.Numeral
