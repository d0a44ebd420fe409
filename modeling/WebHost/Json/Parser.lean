import WebHost.Json.Value
import WebHost.Text.Cut

/-!
# Reading JSON

The reader accepts exactly one document with blanks around it. Nesting is limited, control
characters and lone surrogates inside strings are refused, and a number may have no leading zeros.
-/

set_option autoImplicit false

namespace WebHost.Json

/-- Whether a character is one of the four blanks of JSON. -/
def isBlank (c : Char) : Bool := c = ' ' || c = '\t' || c = '\n' || c = '\r'

/-- The text after leading blanks. -/
def skipBlanks (text : List Char) : List Char := text.dropWhile isBlank

/-- Reads four hexadecimal digits. -/
def readHex4 : List Char → Option (Nat × List Char)
  | a :: b :: c :: d :: rest => (Numeral.value? 16 [a, b, c, d]).map (·, rest)
  | _ => none

/-- Reads the escape after a backslash. A leading surrogate must be followed by its partner. -/
def readEscape : List Char → Option (Char × List Char)
  | 'u' :: rest =>
    match readHex4 rest with
    | none => none
    | some (high, rest) =>
      if 0xDC00 ≤ high ∧ high < 0xE000 then none
      else if 0xD800 ≤ high ∧ high < 0xDC00 then
        match rest with
        | '\\' :: 'u' :: more =>
          match readHex4 more with
          | some (low, rest) =>
            if 0xDC00 ≤ low ∧ low < 0xE000 then
              some (Char.ofNat (0x10000 + (high - 0xD800) * 0x400 + (low - 0xDC00)), rest)
            else none
          | none => none
        | _ => none
      else some (Char.ofNat high, rest)
  | '/' :: rest => some ('/', rest)
  | c :: rest => (shortEscapes.find? (·.1 = c)).map fun (_, meaning) => (meaning, rest)
  | [] => none

/-- Reads the rest of a string after its opening quote. -/
def readString : Nat → List Char → List Char → Option (String × List Char)
  | 0, _, _ => none
  | _ + 1, _, [] => none
  | fuel + 1, acc, c :: rest =>
    if c = '"' then some (String.ofList acc.reverse, rest)
    else if c = '\\' then
      match readEscape rest with
      | some (d, rest) => readString fuel (d :: acc) rest
      | none => none
    else if c.toNat < 0x20 then none
    else readString fuel (c :: acc) rest

/-- Splits off leading decimal digits. -/
def spanDigits (text : List Char) : List Char × List Char :=
  (text.takeWhile Char.isDigit, text.dropWhile Char.isDigit)

/-- The value of a row of decimal digits. -/
def digitsValue (digits : List Char) : Nat :=
  digits.foldl (fun n c => n * 10 + (c.toNat - '0'.toNat)) 0

/-- A number that is not whole; a magnitude beyond the format is no number at all. -/
def realNumber (negative : Bool) (magnitude : Binary64.Decimal) : Option Json :=
  (Binary64.ofLeading magnitude).map fun _ => .real negative magnitude

/-- A whole number, or the exact decimal when it does not fit 64 bits or is a negative zero. -/
def wholeNumber (negative : Bool) (n : Nat) : Option Json :=
  if negative then
    if n = 0 ∨ Nat.pow 2 63 < n then realNumber true ⟨n, 0⟩ else some (.int (-(n : Int)))
  else if Nat.pow 2 64 ≤ n then realNumber false ⟨n, 0⟩
  else some (.int n)

/-- Reads a number after its sign. -/
def readNumber (negative : Bool) (text : List Char) : Option (Json × List Char) :=
  let (whole, rest) := spanDigits text
  if whole.isEmpty ∨ (whole.head? = some '0' ∧ 1 < whole.length) then none
  else
    -- the fraction and the exponent are optional, but need digits once begun
    let fraction : Option (List Char × List Char) :=
      match rest with
      | '.' :: more =>
        let (digits, rest) := spanDigits more
        if digits.isEmpty then none else some (digits, rest)
      | _ => some ([], rest)
    match fraction with
    | none => none
    | some (fraction, rest) =>
      let exponent : Option (Option Int × List Char) :=
        match rest with
        | c :: more =>
          if c = 'e' ∨ c = 'E' then
            let (negative, more) :=
              match more with
              | '-' :: m => (true, m)
              | '+' :: m => (false, m)
              | m => (false, m)
            let (digits, rest) := spanDigits more
            if digits.isEmpty then none
            else
              let value : Int := digitsValue digits
              some (some (if negative then -value else value), rest)
          else some (none, rest)
        | [] => some (none, [])
      match exponent with
      | none => none
      | some (exponent, rest) =>
        if fraction.isEmpty ∧ exponent.isNone then
          (wholeNumber negative (digitsValue whole)).map (·, rest)
        else
          let magnitude : Binary64.Decimal :=
            ⟨digitsValue (whole ++ fraction), exponent.getD 0 - fraction.length⟩
          (realNumber negative magnitude).map (·, rest)

mutual

/-- Reads one value. The first number bounds the steps, the second the nesting that is left. -/
def readValue : Nat → Nat → List Char → Option (Json × List Char)
  | 0, _, _ => none
  | fuel + 1, depth, text =>
    match skipBlanks text with
    | '"' :: rest => (readString (rest.length + 1) [] rest).map fun (s, rest) => (.str s, rest)
    | '[' :: rest =>
      if depth ≤ 1 then none
      else
        match skipBlanks rest with
        | ']' :: rest => some (.arr [], rest)
        | _ => readItems fuel (depth - 1) [] rest
    | '\x7b' :: rest =>
      if depth ≤ 1 then none
      else
        match skipBlanks rest with
        | '\x7d' :: rest => some (.obj [], rest)
        | _ => readMembers fuel (depth - 1) [] rest
    | 'n' :: 'u' :: 'l' :: 'l' :: rest => some (.null, rest)
    | 't' :: 'r' :: 'u' :: 'e' :: rest => some (.bool true, rest)
    | 'f' :: 'a' :: 'l' :: 's' :: 'e' :: rest => some (.bool false, rest)
    | '-' :: rest => readNumber true rest
    | rest => readNumber false rest

/-- Reads the items of an array after those already read. -/
def readItems : Nat → Nat → List Json → List Char → Option (Json × List Char)
  | 0, _, _, _ => none
  | fuel + 1, depth, acc, text =>
    match readValue fuel depth text with
    | none => none
    | some (item, rest) =>
      match skipBlanks rest with
      | ',' :: rest => readItems fuel depth (item :: acc) rest
      | ']' :: rest => some (.arr (item :: acc).reverse, rest)
      | _ => none

/-- Reads the members of an object after those already read. -/
def readMembers : Nat → Nat → List (String × Json) → List Char → Option (Json × List Char)
  | 0, _, _, _ => none
  | fuel + 1, depth, acc, text =>
    match skipBlanks text with
    | '"' :: rest =>
      match readString (rest.length + 1) [] rest with
      | none => none
      | some (key, rest) =>
        match skipBlanks rest with
        | ':' :: rest =>
          match readValue fuel depth rest with
          | none => none
          | some (value, rest) =>
            match skipBlanks rest with
            | ',' :: rest => readMembers fuel depth ((key, value) :: acc) rest
            | '\x7d' :: rest => some (.obj ((key, value) :: acc).reverse, rest)
            | _ => none
        | _ => none
    | _ => none

end

/-- How deep arrays and objects may nest. -/
def maxDepth : Nat := 128

/-- The document a text holds, if it holds exactly one. -/
def parse? (text : String) : Option Json :=
  let chars := text.toList
  match readValue (2 * chars.length + 2) maxDepth chars with
  | some (value, rest) => if (skipBlanks rest).isEmpty then some value else none
  | none => none

end WebHost.Json
