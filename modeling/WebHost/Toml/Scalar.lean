import WebHost.Json.Value
import WebHost.Time.Civil

/-!
# Words of a document in sections

This module reads the smallest parts of a document in sections: blanks, comments and line ends,
keys, texts, numbers and moments. A reader gives what it read and the text that follows, or nothing
if the text does not begin with what it reads. Line breaks are one character long here: a document
is read after `shortBreaks`, so a carriage return that is left stands where none may stand.
-/

set_option autoImplicit false

namespace WebHost.Toml

/-- Reads a beginning of a text. -/
abbrev Reader (α : Type) := List Char → Option (α × List Char)

/-- Whether a character is a blank within a line. -/
def isSpace (c : Char) : Bool := c = ' ' || c = '\t'

/-- Whether a character may stand in comments and texts: all but control characters. -/
def isPlain (c : Char) : Bool := c = '\t' || (0x20 ≤ c.toNat && c.toNat ≠ 0x7F)

/-- The text after blanks. -/
def skipSpace (text : List Char) : List Char := text.dropWhile isSpace

/-- A text with the line breaks that are two characters long made one character long. -/
def shortBreaks : List Char → List Char
  | '\r' :: '\n' :: rest => '\n' :: shortBreaks rest
  | c :: rest => c :: shortBreaks rest
  | [] => []

/-- The text after a line break. -/
def lineBreak? : List Char → Option (List Char)
  | '\n' :: rest => some rest
  | _ => none

/-- The text after the rest of a line that holds nothing but blanks and a comment. -/
def restOfLine? (text : List Char) : Option (List Char) :=
  let rest :=
    match skipSpace text with
    | '#' :: more => more.dropWhile isPlain
    | rest => rest
  if rest.isEmpty then some [] else lineBreak? rest

/-- The text after blanks, comments and line breaks. -/
def skipLines : Nat → List Char → Option (List Char)
  | 0, _ => none
  | fuel + 1, text =>
    match skipSpace text with
    | '#' :: more => (lineBreak? (more.dropWhile isPlain)).bind (skipLines fuel)
    | rest =>
      match lineBreak? rest with
      | some rest => skipLines fuel rest
      | none => some rest

/-- The character of a number in hexadecimal with a fixed count of digits. -/
def hexChar (count : Nat) (text : List Char) : Option (Char × List Char) :=
  let digits := text.take count
  if digits.length < count then none
  else
    (Numeral.value? 16 digits).bind fun n =>
      if n.isValidChar then some (Char.ofNat n, text.drop count) else none

/-- The character of an escape after its backslash. -/
def escape : Reader Char
  | 'b' :: rest => some (Char.ofNat 8, rest)
  | 't' :: rest => some ('\t', rest)
  | 'n' :: rest => some ('\n', rest)
  | 'f' :: rest => some (Char.ofNat 12, rest)
  | 'r' :: rest => some ('\r', rest)
  | '"' :: rest => some ('"', rest)
  | '\\' :: rest => some ('\\', rest)
  | 'u' :: rest => hexChar 4 rest
  | 'U' :: rest => hexChar 8 rest
  | _ => none

/-- The rest of a text in double quotes after its opening quote. -/
def basicText : Nat → List Char → Reader String
  | 0, _, _ => none
  | _ + 1, _, [] => none
  | fuel + 1, acc, c :: rest =>
    if c = '"' then some (String.ofList acc.reverse, rest)
    else if c = '\\' then (escape rest).bind fun (d, rest) => basicText fuel (d :: acc) rest
    else if isPlain c then basicText fuel (c :: acc) rest
    else none

/-- The rest of a text in single quotes after its opening quote. Nothing is escaped in it. -/
def literalText (text : List Char) : Option (String × List Char) :=
  let body := text.takeWhile fun c => isPlain c && c ≠ '\''
  match text.drop body.length with
  | '\'' :: rest => some (String.ofList body, rest)
  | _ => none

/-- How many quotes stand at the start of a text. -/
def quoteRun (quote : Char) (text : List Char) : Nat := (text.takeWhile (· = quote)).length

/-- The text after an escaped line break: all blanks and line breaks that follow are passed over. -/
def escapedBreak? (text : List Char) : Option (List Char) :=
  (lineBreak? (skipSpace text)).map fun rest => rest.dropWhile fun c => isSpace c || c = '\n'

/-- The rest of a text over several lines after its three opening quotes. It ends at three quotes,
and up to two more may stand before them. -/
def longText (quote : Char) : Nat → List Char → Reader String
  | 0, _, _ => none
  | _ + 1, _, [] => none
  | fuel + 1, acc, c :: rest =>
    if c = quote then
      let run := quoteRun quote (c :: rest)
      if run < 3 then longText quote fuel (c :: acc) rest
      else
        let kept := min (run - 3) 2
        some (String.ofList (List.replicate kept quote ++ acc).reverse, (c :: rest).drop (kept + 3))
    else if c = '\n' then longText quote fuel (c :: acc) rest
    else if c = '\\' ∧ quote = '"' then
      match escapedBreak? rest with
      | some rest => longText quote fuel acc rest
      | none => (escape rest).bind fun (d, rest) => longText quote fuel (d :: acc) rest
    else if isPlain c then longText quote fuel (c :: acc) rest
    else none

/-- The text after one line break, if there is one. -/
def dropBreak (text : List Char) : List Char := (lineBreak? text).getD text

/-- A text in quotes of either kind, over one or several lines. -/
def anyText : Reader String
  | '"' :: '"' :: '"' :: rest => longText '"' (rest.length + 1) [] (dropBreak rest)
  | '\'' :: '\'' :: '\'' :: rest => longText '\'' (rest.length + 1) [] (dropBreak rest)
  | '"' :: rest => basicText (rest.length + 1) [] rest
  | '\'' :: rest => literalText rest
  | _ => none

/-- Whether a character may stand in a key without quotes. -/
def isKeyChar (c : Char) : Bool := c.isAlphanum || c = '_' || c = '-'

/-- One part of a key. -/
def keyPart : Reader String
  | '"' :: rest => basicText (rest.length + 1) [] rest
  | '\'' :: rest => literalText rest
  | text =>
    let word := text.takeWhile isKeyChar
    if word.isEmpty then none else some (String.ofList word, text.drop word.length)

/-- A key of parts between dots, with the blanks around each part. -/
def key : Nat → Reader (List String)
  | 0, _ => none
  | fuel + 1, text =>
    (keyPart (skipSpace text)).bind fun (part, rest) =>
      match skipSpace rest with
      | '.' :: rest => (key fuel rest).map fun (parts, rest) => (part :: parts, rest)
      | rest => some ([part], rest)

/-- Reads digits of a radix, with single underscores between them. -/
def digitsOf (base : Nat) : Nat → List Char → Reader (List Char)
  | 0, _, _ => none
  | fuel + 1, acc, text =>
    match text with
    | '_' :: c :: rest =>
      if acc.isEmpty then none
      else if (Numeral.digit? base c).isSome then digitsOf base fuel (c :: acc) rest
      else some (acc.reverse, text)
    | c :: rest =>
      if (Numeral.digit? base c).isSome then digitsOf base fuel (c :: acc) rest
      else if acc.isEmpty then none
      else some (acc.reverse, text)
    | [] => if acc.isEmpty then none else some (acc.reverse, [])

/-- Reads at least one digit of a radix. -/
def digits (base : Nat) (text : List Char) : Option (List Char × List Char) :=
  digitsOf base (text.length + 1) [] text

/-- The value of digits. -/
def valueOf (base : Nat) (row : List Char) : Nat := (Numeral.value? base row).getD 0

/-- A whole number of 64 bits. -/
def wholeNumber (negative : Bool) (n : Nat) : Option Json :=
  if negative then if Nat.pow 2 63 < n then none else some (.int (-(n : Int)))
  else if Nat.pow 2 63 ≤ n then none
  else some (.int n)

/-- A number that is not whole; one too large to be held is refused. -/
def realNumber (negative : Bool) (row : List Char) (exponent : Int) : Option Json :=
  let magnitude : Binary64.Decimal := ⟨valueOf 10 row, exponent⟩
  match negative, Binary64.ofDecimal magnitude with
  | false, none => none
  | _, _ => some (.real negative magnitude)

/-- The sign of a number, whether it is negative. -/
def sign : List Char → Bool × List Char
  | '+' :: rest => (false, rest)
  | '-' :: rest => (true, rest)
  | rest => (false, rest)

/-- The exponent of a number, if there is one. -/
def exponent : List Char → Option (Option Int × List Char)
  | c :: rest =>
    if c = 'e' ∨ c = 'E' then
      let (negative, rest) := sign rest
      (digits 10 rest).map fun (row, rest) =>
        let n : Int := valueOf 10 row
        (some (if negative then -n else n), rest)
    else some (none, c :: rest)
  | [] => some (none, [])

/-- A value that no record takes: a moment, or a number that is not finite. -/
def foreign (kind : String) : Json := .obj [(kind, .null)]

/-- A decimal number after its sign. -/
def decimal (negative : Bool) (text : List Char) : Option (Json × List Char) :=
  let whole :=
    match text with
    | '0' :: rest => some (['0'], rest)
    | _ => digits 10 text
  whole.bind fun (whole, rest) =>
    match rest with
    | '.' :: more =>
      (digits 10 more).bind fun (fraction, rest) =>
        (exponent rest).bind fun (e, rest) =>
          (realNumber negative (whole ++ fraction) (e.getD 0 - fraction.length)).map (·, rest)
    | _ =>
      (exponent rest).bind fun (e, rest) =>
        match e with
        | some e => (realNumber negative whole e).map (·, rest)
        | none => (wholeNumber negative (valueOf 10 whole)).map (·, rest)

/-- A number. A radix other than ten has its own prefix and no sign. -/
def number (text : List Char) : Option (Json × List Char) :=
  let radix (base : Nat) (rest : List Char) :=
    (digits base rest).bind fun (row, rest) => (wholeNumber false (valueOf base row)).map (·, rest)
  match text with
  | '0' :: 'x' :: rest => radix 16 rest
  | '0' :: 'o' :: rest => radix 8 rest
  | '0' :: 'b' :: rest => radix 2 rest
  | _ =>
    let (negative, rest) := sign text
    match rest with
    | 'i' :: 'n' :: 'f' :: rest => some (foreign "number", rest)
    | 'n' :: 'a' :: 'n' :: rest => some (foreign "number", rest)
    | _ => decimal negative rest

/-- A number of two digits up to a bound. -/
def two (most : Nat) : Reader Nat
  | a :: b :: rest =>
    if a.isDigit && b.isDigit && decide (valueOf 10 [a, b] ≤ most) then
      some (valueOf 10 [a, b], rest)
    else none
  | _ => none

/-- A time of the day. -/
def timeOfDay (text : List Char) : Option (Unit × List Char) :=
  match two 23 text with
  | some (_, ':' :: rest) =>
    match two 59 rest with
    | some (_, ':' :: rest) =>
      (two 60 rest).bind fun (_, rest) =>
        match rest with
        | '.' :: more =>
          let row := more.takeWhile Char.isDigit
          if row.isEmpty then none else some ((), more.drop row.length)
        | _ => some ((), rest)
    | _ => none
  | _ => none

/-- The text after a distance from Greenwich, if there is one. -/
def zone (text : List Char) : Option (List Char) :=
  match text with
  | 'Z' :: rest | 'z' :: rest => some rest
  | '+' :: rest | '-' :: rest =>
    match two 23 rest with
    | some (_, ':' :: rest) => (two 59 rest).map (·.2)
    | _ => none
  | _ => some text

/-- A day of the calendar. -/
def day : List Char → Option (Unit × List Char)
  | a :: b :: c :: d :: '-' :: rest =>
    if [a, b, c, d].all Char.isDigit then
      match two 12 rest with
      | some (month, '-' :: rest) =>
        match two 31 rest with
        | some (date, rest) =>
          let civil : CivilDate := ⟨valueOf 10 [a, b, c, d], month, date⟩
          if 1 ≤ month ∧ CivilDate.ofDays civil.toDays = civil then some ((), rest) else none
        | none => none
      | _ => none
    else none
  | _ => none

/-- A moment: a day, a time of the day, or both with the distance from Greenwich. -/
def moment (text : List Char) : Option (Json × List Char) :=
  let both (rest : List Char) :=
    match timeOfDay rest with
    | some ((), rest) => zone rest
    | none => none
  match day text with
  | some ((), rest) =>
    let rest :=
      match rest with
      | 'T' :: more | 't' :: more => both more
      | ' ' :: more => some ((both more).getD rest)
      | _ => some rest
    rest.map (foreign "moment", ·)
  | none => (timeOfDay text).map fun ((), rest) => (foreign "moment", rest)

end WebHost.Toml
