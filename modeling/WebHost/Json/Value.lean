import WebHost.Number.Binary64
import WebHost.Number.Numeral

/-!
# JSON values

A document keeps what its text said: whole numbers that fit a machine word are told apart from all
other numbers, which stay exact decimals, and the members of an object stay in order with their
repetitions. Printing is compact.
-/

set_option autoImplicit false

namespace WebHost

/-- A JSON document. -/
inductive Json where
  | null
  | bool (value : Bool)
  /-- A whole number written without point or exponent, within 64 bits. -/
  | int (value : Int)
  /-- Any other number, exactly as written. -/
  | real (negative : Bool) (magnitude : Binary64.Decimal)
  | str (text : String)
  | arr (items : List Json)
  | obj (members : List (String × Json))

namespace Json

/-- The character that a short escape writes, by the letter after the backslash. -/
def shortEscapes : List (Char × Char) :=
  [('"', '"'), ('\\', '\\'), ('b', Char.ofNat 8), ('f', Char.ofNat 12), ('n', '\n'),
    ('r', '\r'), ('t', '\t')]

/-- The characters that stand for one character inside a JSON string. -/
def escapeChar (c : Char) : List Char :=
  match shortEscapes.find? (·.2 = c) with
  | some (letter, _) => ['\\', letter]
  | none =>
    if c.toNat < 0x20 then
      ['\\', 'u', '0', '0', Numeral.hexDigit (c.toNat / 16), Numeral.hexDigit (c.toNat % 16)]
    else [c]

/-- A text as a JSON string. -/
def quoted (text : String) : String :=
  "\"" ++ String.ofList (text.toList.flatMap escapeChar) ++ "\""

/-- The compact text of a number that is not a whole word. -/
def realText (negative : Bool) (magnitude : Binary64.Decimal) : String :=
  match Binary64.ofLeading magnitude with
  | none => "null"
  | some x => (if negative then "-" else "") ++ x.shortest.compact

mutual

/-- The compact text of a document. -/
def compact : Json → String
  | .null => "null"
  | .bool b => if b then "true" else "false"
  | .int n => toString n
  | .real negative magnitude => realText negative magnitude
  | .str text => quoted text
  | .arr items => "[" ++ compactItems items ++ "]"
  | .obj members => "\x7b" ++ compactMembers members ++ "\x7d"

/-- The items of an array, separated by commas. -/
def compactItems : List Json → String
  | [] => ""
  | [item] => compact item
  | item :: rest => compact item ++ "," ++ compactItems rest

/-- The members of an object, separated by commas. -/
def compactMembers : List (String × Json) → String
  | [] => ""
  | [(key, value)] => quoted key ++ ":" ++ compact value
  | (key, value) :: rest => quoted key ++ ":" ++ compact value ++ "," ++ compactMembers rest

end

/-- Puts a member into a list sorted by key; a repeated key takes the new value. -/
def insertMember (key : String) (value : Json) : List (String × Json) → List (String × Json)
  | [] => [(key, value)]
  | (k, v) :: rest =>
    if key = k then (key, value) :: rest
    else if key < k then (key, value) :: (k, v) :: rest
    else (k, v) :: insertMember key value rest

mutual

/-- A document with the members of every object sorted by key; of equal keys the last one stays. -/
def sorted : Json → Json
  | .arr items => .arr (sortedItems items)
  | .obj members => .obj (sortedMembers members [])
  | other => other

/-- Sorts every item of an array. -/
def sortedItems : List Json → List Json
  | [] => []
  | item :: rest => sorted item :: sortedItems rest

/-- Sorts the members of an object into those already placed. -/
def sortedMembers : List (String × Json) → List (String × Json) → List (String × Json)
  | [], placed => placed
  | (key, value) :: rest, placed => sortedMembers rest (insertMember key (sorted value) placed)

end

/-- The value of an object's member; of equal keys the last one counts. -/
def member? (key : String) : Json → Option Json
  | .obj members => (members.reverse.find? (·.1 = key)).map (·.2)
  | _ => none

end Json

end WebHost
