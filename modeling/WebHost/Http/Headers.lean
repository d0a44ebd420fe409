import WebHost.Text.Cut
import WebHost.Text.Utf8

/-!
# Header fields

A header map keeps the fields of a message in the order they were added. Names are tokens in lower
case; values are bytes without control characters other than the tab. Setting a field replaces all
values of its name, appending keeps them.
-/

set_option autoImplicit false

namespace WebHost

/-- Whether a character may stand in a token such as a method or a header name. -/
def isTokenChar (c : Char) : Bool :=
  c.isAlphanum || c ∈ "!#$%&'*+-.^_|~".toList || c.toNat = 0x60

/-- Whether a text is a token. -/
def isToken (s : String) : Bool := !s.isEmpty && s.toList.all isTokenChar

/-- A token is a text with at least one character, all of which may stand in one. -/
theorem isToken_iff {s : String} :
    isToken s = true ↔ s.toList ≠ [] ∧ ∀ c ∈ s.toList, isTokenChar c = true := by
  rw [isToken, Bool.and_eq_true, List.all_eq_true]
  simp

/-- The header name that a text spells: a token, in lower case. -/
def headerName? (s : String) : Option String := if isToken s then some (Text.lower s) else none

/-- Whether bytes may be a header value. -/
def isHeaderValue (bytes : Bytes) : Bool :=
  bytes.all fun b => (0x20 ≤ b && b ≠ 0x7F) || b = 9

/-- The text of a header value; none unless every byte is visible ASCII, a space or a tab. -/
def headerText? (bytes : Bytes) : Option String :=
  if bytes.all fun b => (0x20 ≤ b && b < 0x7F) || b = 9 then
    some (String.ofList (bytes.map fun b => Char.ofNat b.toNat))
  else none

/-- The fields of a message, in the order they were added. -/
structure Headers where
  fields : List (String × Bytes) := []
  deriving DecidableEq, Repr, Inhabited

namespace Headers

/-- No fields. -/
def empty : Headers := ⟨[]⟩

/-- The values of a name, in order. -/
def values (h : Headers) (name : String) : List Bytes :=
  (h.fields.filter (·.1 = name)).map (·.2)

/-- The first value of a name. -/
def get? (h : Headers) (name : String) : Option Bytes := (h.values name).head?

/-- Whether a name has a value. -/
def contains (h : Headers) (name : String) : Bool := h.fields.any (·.1 = name)

/-- The text of the first value of a name, where it is text. -/
def text? (h : Headers) (name : String) : Option String := (h.get? name).bind headerText?

/-- Removes every value of a name. -/
def erase (h : Headers) (name : String) : Headers := ⟨h.fields.filter (·.1 ≠ name)⟩

/-- Adds a value after those the name already has. -/
def append (h : Headers) (name : String) (value : Bytes) : Headers := ⟨h.fields ++ [(name, value)]⟩

/-- Replaces the values of a name by one. -/
def set (h : Headers) (name : String) (value : Bytes) : Headers := (h.erase name).append name value

/-- Replaces the values of a name by a text. -/
def setText (h : Headers) (name value : String) : Headers := h.set name (Utf8.encode value)

/-- The names that have values, each once, in the order of their first value. -/
def names (h : Headers) : List String := (h.fields.map (·.1)).eraseDups

/-- The values of a name as a walk meets them: the first one under the name, the others under none. -/
def entries (h : Headers) (name : String) : List (Option String × Bytes) :=
  match h.values name with
  | [] => []
  | value :: more => (some name, value) :: more.map (none, ·)

/-- A walk over the fields, name by name in the order of their first values. -/
def walk (h : Headers) : List (Option String × Bytes) := h.names.flatMap h.entries

/-- A value that is added comes behind the other values of its name. -/
@[simp] theorem values_append (h : Headers) (name other : String) (value : Bytes) :
    (h.append name value).values other =
      if name = other then h.values other ++ [value] else h.values other := by
  by_cases e : name = other <;> simp [append, values, List.filter_append, e]

/-- A name that is erased has no value any more, and the other names keep theirs. -/
@[simp] theorem values_erase (h : Headers) (name other : String) :
    (h.erase name).values other = if name = other then [] else h.values other := by
  by_cases e : name = other
  · subst e
    simp [erase, values, List.filter_filter]
  · simp only [erase, values, List.filter_filter, e, if_false]
    congr 1
    refine List.filter_congr fun x _ => ?_
    by_cases hx : x.1 = other
    · simp [hx, Ne.symm e]
    · simp [hx]

/-- A name that is set has one value, and the other names keep theirs. -/
@[simp] theorem values_set (h : Headers) (name other : String) (value : Bytes) :
    (h.set name value).values other = if name = other then [value] else h.values other := by
  by_cases e : name = other <;> simp [set, e]

/-- A name is there if it has a value. -/
theorem contains_iff {h : Headers} {name : String} :
    h.contains name = true ↔ h.values name ≠ [] := by
  simp [contains, values, List.filter_eq_nil_iff]

/-- The names are those that are there. -/
theorem mem_names_iff {h : Headers} {name : String} : name ∈ h.names ↔ h.contains name = true := by
  simp [names, contains]

end Headers

end WebHost
