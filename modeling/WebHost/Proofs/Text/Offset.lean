import Mathlib.Tactic.SplitIfs
import WebHost.Text.Cut

/-!
# Byte offsets

A text is encoded by a row of bytes, one to four for each character, and may be cut at an offset into
that row. A cut is possible at the end of a character only: an offset beyond the text, or one within
a character, gives no text at all. So a cut at an offset is the same as a choice of the characters
before it, and an offset at which a character was found is always one where the text can be cut.
-/

set_option autoImplicit false

namespace WebHost.Text

/-- The number of bytes that encode a text. -/
def byteSize : List Char → Nat
  | [] => 0
  | c :: text => c.utf8Size + byteSize text

/-- The bytes that encode a text. -/
def bytes (text : List Char) : List UInt8 := text.flatMap String.utf8EncodeChar

/-- The text from a byte offset on; none if the text cannot be cut there. -/
def dropBytes? : Nat → List Char → Option (List Char)
  | 0, text => some text
  | _ + 1, [] => none
  | n + 1, c :: text => if c.utf8Size ≤ n + 1 then dropBytes? (n + 1 - c.utf8Size) text else none

/-- The text up to a byte offset; none if the text cannot be cut there. -/
def takeBytes? : Nat → List Char → Option (List Char)
  | 0, _ => some []
  | _ + 1, [] => none
  | n + 1, c :: text =>
    if c.utf8Size ≤ n + 1 then (takeBytes? (n + 1 - c.utf8Size) text).map (c :: ·) else none

/-- The text between two byte offsets; none if they are out of order or the text cannot be cut at
one of them. -/
def slice? (first last : Nat) (text : List Char) : Option (List Char) :=
  if first ≤ last then (dropBytes? first text).bind (takeBytes? (last - first)) else none

/-- The byte offset at which a character stands first. -/
def findByte? (sep : Char) : List Char → Option Nat
  | [] => none
  | c :: text => if c = sep then some 0 else (findByte? sep text).map (c.utf8Size + ·)

/-- The byte offset at which a character stands last. -/
def findLastByte? (sep : Char) : List Char → Option Nat
  | [] => none
  | c :: text =>
    match findLastByte? sep text with
    | some n => some (c.utf8Size + n)
    | none => if c = sep then some 0 else none

variable {text front rest : List Char}

/-- Two texts in a row have the bytes of both. -/
@[simp] theorem byteSize_append (front rest : List Char) :
    byteSize (front ++ rest) = byteSize front + byteSize rest := by
  induction front with
  | nil => simp [byteSize]
  | cons c front ih => simp [byteSize, ih, Nat.add_assoc]

/-- A text has as many bytes as its size says. -/
theorem length_bytes (text : List Char) : (bytes text).length = byteSize text := by
  induction text with
  | nil => rfl
  | cons c text ih =>
    have htext : (text.flatMap String.utf8EncodeChar).length = byteSize text := ih
    rw [bytes, List.flatMap_cons, List.length_append, String.length_utf8EncodeChar, htext, byteSize]

/-- The byte after a text is the first one of what follows it. -/
theorem getElem?_bytes_append (front rest : List Char) :
    (bytes (front ++ rest))[byteSize front]? = (bytes rest)[0]? := by
  have hsplit : bytes (front ++ rest) = bytes front ++ bytes rest := List.flatMap_append
  have hlength := length_bytes front
  rw [hsplit, List.getElem?_append_right (Nat.le_of_eq hlength), hlength, Nat.sub_self]

/-! ## Cutting at an offset -/

/-- The size of a character is never taken from an offset before it. -/
theorem dropBytes?_cons (n : Nat) (c : Char) (text : List Char) :
    dropBytes? (c.utf8Size + n) (c :: text) = dropBytes? n text := by
  obtain ⟨k, hk⟩ : ∃ k, c.utf8Size + n = k + 1 :=
    Nat.exists_eq_add_one.mpr (Nat.add_pos_left c.utf8Size_pos n)
  have hle : c.utf8Size ≤ k + 1 := hk ▸ Nat.le_add_right _ n
  rw [hk, dropBytes?, if_pos hle, ← hk, Nat.add_sub_cancel_left]

/-- To take the bytes of a first sign and more is to take the sign and then the rest. -/
theorem takeBytes?_cons (n : Nat) (c : Char) (text : List Char) :
    takeBytes? (c.utf8Size + n) (c :: text) = (takeBytes? n text).map (c :: ·) := by
  obtain ⟨k, hk⟩ : ∃ k, c.utf8Size + n = k + 1 :=
    Nat.exists_eq_add_one.mpr (Nat.add_pos_left c.utf8Size_pos n)
  have hle : c.utf8Size ≤ k + 1 := hk ▸ Nat.le_add_right _ n
  rw [hk, takeBytes?, if_pos hle, ← hk, Nat.add_sub_cancel_left]

/-- A text can be cut after any of its characters. -/
theorem dropBytes?_append (front rest : List Char) :
    dropBytes? (byteSize front) (front ++ rest) = some rest := by
  induction front with
  | nil => rw [byteSize, List.nil_append, dropBytes?]
  | cons c front ih => rw [byteSize, List.cons_append, dropBytes?_cons, ih]

/-- To take the bytes of a front is to take the front. -/
theorem takeBytes?_append (front rest : List Char) :
    takeBytes? (byteSize front) (front ++ rest) = some front := by
  induction front with
  | nil => rw [byteSize, takeBytes?]
  | cons c front ih => rw [byteSize, List.cons_append, takeBytes?_cons, ih, Option.map_some]

/-- The second character has two bytes, and the text cannot be cut between them. -/
example : dropBytes? 2 ['[', 'é', ']'] = none ∧ dropBytes? 3 ['[', 'é', ']'] = some [']'] := by
  decide

/-- The text between two cuts. -/
theorem slice?_append (front middle rest : List Char) :
    slice? (byteSize front) (byteSize (front ++ middle)) (front ++ middle ++ rest) =
      some middle := by
  have hle : byteSize front ≤ byteSize (front ++ middle) := by simp
  have hsize : byteSize (front ++ middle) - byteSize front = byteSize middle := by simp
  rw [slice?, if_pos hle, hsize, List.append_assoc, dropBytes?_append, Option.bind_some,
    takeBytes?_append]

/-! ## Finding a character -/

/-- A character is found behind the text before it. -/
theorem findByte?_eq_map (sep : Char) (text : List Char) :
    findByte? sep text = (cutFirst sep text).map fun parts => byteSize parts.1 := by
  induction text with
  | nil => rfl
  | cons c text ih =>
    rw [findByte?, cutFirst]
    split_ifs
    · rfl
    · rw [ih]
      cases cutFirst sep text <;> rfl

/-- The last separator is found behind the bytes of what is in front of it. -/
theorem findLastByte?_eq_map (sep : Char) (text : List Char) :
    findLastByte? sep text = (cutLast sep text).map fun parts => byteSize parts.1 := by
  induction text with
  | nil => rfl
  | cons c text ih =>
    rw [findLastByte?, cutLast, ih]
    cases cutLast sep text with
    | some parts => rfl
    | none =>
      simp only [Option.map_none]
      split_ifs <;> rfl

end WebHost.Text
