/-!
# Cutting and joining text

Paths, header values, host names and command lines are all read by cutting a text at a
separator. The functions here work on lists of characters by structural recursion, and
`intercalate_split` says that cutting loses nothing.
-/

set_option autoImplicit false

namespace WebHost.Text

/-- Cuts a text at every separator; the empty text has one empty part. -/
def split (sep : Char) : List Char → List (List Char)
  | [] => [[]]
  | c :: rest =>
    if c = sep then [] :: split sep rest
    else
      match split sep rest with
      | [] => [[c]]
      | part :: parts => (c :: part) :: parts

/-- Writes the parts with the separator between them. -/
def joinWith (sep : String) (parts : List String) : String :=
  String.intercalate sep parts

/-- The texts before and after the first separator, if there is one. -/
def cutFirst (sep : Char) : List Char → Option (List Char × List Char)
  | [] => none
  | c :: rest =>
    if c = sep then some ([], rest)
    else (cutFirst sep rest).map fun (before, after) => (c :: before, after)

/-- The texts before and after the last separator, if there is one. -/
def cutLast (sep : Char) : List Char → Option (List Char × List Char)
  | [] => none
  | c :: rest =>
    match cutLast sep rest with
    | some (before, after) => some (c :: before, after)
    | none => if c = sep then some ([], rest) else none

/-- The rest of a text after a known beginning. -/
def after? : List Char → List Char → Option (List Char)
  | [], text => some text
  | _ :: _, [] => none
  | b :: beginning, c :: text => if b = c then after? beginning text else none

/-- The text before a known ending. -/
def before? (ending text : List Char) : Option (List Char) :=
  (after? ending.reverse text.reverse).map List.reverse

/-- A text without its trailing copies of a character. -/
def dropTrailing (c : Char) (text : List Char) : List Char :=
  (text.reverse.dropWhile (· = c)).reverse

/-- The white space of Unicode: the blanks that trimming removes. -/
def isBlank (c : Char) : Bool :=
  let n := c.toNat
  (9 ≤ n && n ≤ 13) || n = 0x20 || n = 0x85 || n = 0xA0 || n = 0x1680 ||
    (0x2000 ≤ n && n ≤ 0x200A) || n = 0x2028 || n = 0x2029 || n = 0x202F || n = 0x205F ||
    n = 0x3000

/-- A text without the blanks around it. -/
def trim (text : List Char) : List Char :=
  ((text.dropWhile isBlank).reverse.dropWhile isBlank).reverse

/-- A character with the capital letters of ASCII made small. -/
def lowerChar (c : Char) : Char :=
  if 'A' ≤ c ∧ c ≤ 'Z' then Char.ofNat (c.toNat + 32) else c

/-- A text with the capital letters of ASCII made small; no other character changes. -/
def lower (text : String) : String :=
  String.ofList (text.toList.map lowerChar)

/-- Whether two texts agree up to the case of ASCII letters. -/
def sameIgnoringCase (a b : String) : Bool := lower a == lower b

/-- Even an empty text has one part. -/
theorem split_ne_nil (sep : Char) (text : List Char) : split sep text ≠ [] := by
  cases text with
  | nil => simp [split]
  | cons c rest =>
    simp only [split]
    split
    · simp
    · split <;> simp

/-- Cutting loses nothing: the parts joined by the separator are the text. -/
theorem intercalate_split (sep : Char) (text : List Char) :
    [sep].intercalate (split sep text) = text := by
  induction text with
  | nil => rfl
  | cons c rest ih =>
    simp only [split]
    split
    · rename_i h
      subst h
      cases hs : split c rest with
      | nil => exact absurd hs (split_ne_nil c rest)
      | cons part parts =>
        rw [hs] at ih
        rw [List.intercalate_cons_cons, ih]
        rfl
    · cases hs : split sep rest with
      | nil => exact absurd hs (split_ne_nil sep rest)
      | cons part parts =>
        rw [hs] at ih
        cases parts with
        | nil => simpa [List.intercalate] using ih
        | cons p ps =>
          rw [List.intercalate_cons_cons] at ih ⊢
          simp [← ih]

end WebHost.Text
