import WebHost.Json.Value

/-!
# Records in documents

A section of a configuration is written as an object with known members or as an array with the
values in order. What is left out keeps its value, an unknown or repeated member is an error, and
so is a value of the wrong kind. `decode` reads such a record over values to start from.
-/

set_option autoImplicit false

namespace WebHost

/-- A field of a record: its key, and how a value is put into the record. -/
structure Field (α : Type) where
  key : String
  put : Json → α → Option α

namespace Field

variable {α β : Type}

/-- A field that holds a text. -/
def text (key : String) (put : String → α → α) : Field α where
  key := key
  put
    | .str s, record => some (put s record)
    | _, _ => none

/-- A field that holds a truth value. -/
def flag (key : String) (put : Bool → α → α) : Field α where
  key := key
  put
    | .bool b, record => some (put b record)
    | _, _ => none

/-- A field that holds a whole number from zero on. -/
def natural (key : String) (put : Nat → α → α) : Field α where
  key := key
  put
    | .int (.ofNat n), record => some (put n record)
    | _, _ => none

/-- A field that holds a text or nothing. -/
def textOrNull (key : String) (put : Option String → α → α) : Field α where
  key := key
  put
    | .str s, record => some (put (some s) record)
    | .null, record => some (put none record)
    | _, _ => none

/-- A field that holds a text or a whole number from zero on, which is kept as its decimal text. -/
def textOrNatural (key : String) (put : String → α → α) : Field α where
  key := key
  put
    | .str s, record => some (put s record)
    | .int (.ofNat n), record => some (put (toString n) record)
    | _, _ => none

/-- A field that holds a value of its own kind. -/
def nested (key : String) (read : Json → Option β) (put : β → α → α) : Field α where
  key := key
  put value record := (read value).map fun b => put b record

end Field

/-- Whether an array that stands for a record may have more items than the record has fields. -/
inductive Surplus where
  | ignored
  | refused
  deriving DecidableEq, Repr

namespace Record

variable {α : Type}

/-- Whether every key stands there once. -/
def distinctKeys : List (String × Json) → Bool
  | [] => true
  | (key, _) :: rest => !rest.any (·.1 = key) && distinctKeys rest

/-- Puts one member into a record; its key has to be known. -/
def putMember (fields : List (Field α)) (record : α) (member : String × Json) : Option α :=
  (fields.find? (·.key = member.1)).bind fun field => field.put member.2 record

/-- Puts members into a record. -/
def putMembers (fields : List (Field α)) (record : α) (members : List (String × Json)) :
    Option α :=
  members.foldlM (putMember fields) record

/-- Puts items into the fields in order. -/
def putItems : List (Field α) → α → List Json → Option α
  | field :: fields, record, item :: items =>
    (field.put item record).bind fun record => putItems fields record items
  | _, record, _ => some record

/-- Reads a record. What the document leaves out stays as it is at the start. -/
def decode (surplus : Surplus) (fields : List (Field α)) (start : α) : Json → Option α
  | .obj members => if distinctKeys members then putMembers fields start members else none
  | .arr items =>
    if surplus = .refused ∧ fields.length < items.length then none
    else putItems fields start items
  | _ => none

end Record

end WebHost
