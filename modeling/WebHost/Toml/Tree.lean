import WebHost.Json.Value

/-!
# Tables in the making

A document in sections names its tables in any order, so tables are made step by step. A table
remembers how it came to be, because that decides who may still add to it: a table under a header is
defined once, a table that is only passed on the way to another may still get its header, and a
table made by a dotted key takes members by dotted keys alone.
-/

set_option autoImplicit false

namespace WebHost.Toml

/-- How a table came to be. -/
inductive Origin where
  /-- Under a header of its own. -/
  | header
  /-- On the way to a header below it. -/
  | passing
  /-- By a dotted key. -/
  | dotted
  deriving DecidableEq, Repr

/-- A value, a table, or a row of tables under one name. -/
inductive Node where
  | value (value : Json)
  | table (origin : Origin) (members : List (String × Node))
  | row (tables : List Node)

/-- The members of a table. -/
abbrev Members := List (String × Node)

namespace Members

/-- The member with a key. -/
def find? (members : Members) (key : String) : Option Node :=
  (List.find? (·.1 = key) members).map (·.2)

/-- Puts a member in the place of the one with its key, or at the end. -/
def put (members : Members) (key : String) (node : Node) : Members :=
  if members.any (·.1 = key) then members.map fun m => if m.1 = key then (key, node) else m
  else members ++ [(key, node)]

/-- A change of the members of a table, which may depend on how the table came to be. -/
abbrev Change := Origin → Members → Option Members

/-- Makes a change in the table at a path, and the tables on the way that are missing. In a row of
tables the way leads through the last one. -/
def within (dotted : Bool) : List String → Change → Change
  | [], change, origin, members => change origin members
  | key :: path, change, _, members =>
    match members.find? key with
    | none =>
      let origin := if dotted then .dotted else .passing
      (within dotted path change origin []).map fun inner => members.put key (.table origin inner)
    | some (.table origin inner) =>
      if dotted ∧ origin = .header then none
      else
        (within dotted path change origin inner).map fun inner =>
          members.put key (.table origin inner)
    | some (.row tables) =>
      match tables.getLast? with
      | some (.table origin inner) =>
        (within dotted path change origin inner).map fun inner =>
          members.put key (.row (tables.dropLast ++ [.table origin inner]))
      | _ => none
    | some (.value _) => none

/-- Adds a value under a key that is not there yet. A dotted key has to end in a table that dotted
keys made. -/
def addValue (members : Members) (path : List String) (key : String) (value : Json) :
    Option Members :=
  within true path (fun origin members =>
    if path.isEmpty = decide (origin = .dotted) then none
    else if (members.find? key).isSome then none
    else some (members.put key (.value value))) .header members

/-- Opens the table under a header. -/
def openTable (path : List String) (key : String) (members : Members) : Option Members :=
  within false path (fun _ members =>
    match members.find? key with
    | none => some (members.put key (.table .header []))
    | some (.table .passing inner) => some (members.put key (.table .header inner))
    | some _ => none) .header members

/-- Opens one more table in the row under a header. -/
def openRow (path : List String) (key : String) (members : Members) : Option Members :=
  within false path (fun _ members =>
    match members.find? key with
    | none => some (members.put key (.row [.table .header []]))
    | some (.row tables) => some (members.put key (.row (tables ++ [.table .header []])))
    | some _ => none) .header members

end Members

mutual

/-- What a node amounts to in the end. -/
def Node.toJson : Node → Json
  | .value v => v
  | .table _ members => .obj (membersJson members)
  | .row tables => .arr (rowJson tables)

/-- The members of a table in the end. -/
def membersJson : List (String × Node) → List (String × Json)
  | [] => []
  | (key, node) :: rest => (key, node.toJson) :: membersJson rest

/-- The tables of a row in the end. -/
def rowJson : List Node → List Json
  | [] => []
  | node :: rest => node.toJson :: rowJson rest

end

end WebHost.Toml
