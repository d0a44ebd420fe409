import WebHost.Toml.Scalar
import WebHost.Toml.Tree

/-!
# Reading documents in sections

A document is a list of lines: headers, which open a table, and keys with values, which go into the
table opened last. Values nest in brackets and braces, to a limit.
-/

set_option autoImplicit false

namespace WebHost.Toml

/-- How deep values and keys may nest. -/
def maxDepth : Nat := 79

/-- A key with its parts before the last one. -/
def pathAndKey (parts : List String) : Option (List String × String) :=
  if maxDepth < parts.length then none
  else parts.getLast?.map fun last => (parts.dropLast, last)

mutual

/-- Reads a value. The first number bounds the steps, the second the nesting that is left. -/
def value : Nat → Nat → Reader Json
  | 0, _, _ => none
  | fuel + 1, depth, text =>
    match text with
    | '"' :: _ | '\'' :: _ => (anyText text).map fun (s, rest) => (.str s, rest)
    | '[' :: rest => if depth = 0 then none else items fuel (depth - 1) [] rest
    | '\x7b' :: rest =>
      if depth = 0 then none
      else
        match skipSpace rest with
        | '\x7d' :: rest => some (.obj [], rest)
        | rest => members fuel (depth - 1) [] rest
    | 't' :: 'r' :: 'u' :: 'e' :: rest => some (.bool true, rest)
    | 'f' :: 'a' :: 'l' :: 's' :: 'e' :: rest => some (.bool false, rest)
    | _ =>
      match moment text with
      | some found => some found
      | none => number text

/-- Reads the items of an array after those already read; it may spread over lines. -/
def items : Nat → Nat → List Json → Reader Json
  | 0, _, _, _ => none
  | fuel + 1, depth, acc, text =>
    (skipLines (text.length + 1) text).bind fun text =>
      match text with
      | ']' :: rest => some (.arr acc.reverse, rest)
      | _ =>
        (value fuel depth text).bind fun (item, rest) =>
          (skipLines (rest.length + 1) rest).bind fun rest =>
            match rest with
            | ',' :: rest => items fuel depth (item :: acc) rest
            | ']' :: rest => some (.arr (item :: acc).reverse, rest)
            | _ => none

/-- Reads the members of a table in braces after those already read; it stands on one line. -/
def members : Nat → Nat → Members → Reader Json
  | 0, _, _, _ => none
  | fuel + 1, depth, acc, text =>
    (key (text.length + 1) text).bind fun (parts, rest) =>
      (pathAndKey parts).bind fun (path, last) =>
        match rest with
        | '=' :: rest =>
          (value fuel depth (skipSpace rest)).bind fun (v, rest) =>
            (acc.addValue path last v).bind fun acc =>
              match skipSpace rest with
              | ',' :: rest => members fuel depth acc rest
              | '\x7d' :: rest => some (.obj (membersJson acc), rest)
              | _ => none
        | _ => none

end

/-- The state of reading a document: the root table, and the path of the table opened last. -/
structure Reading where
  root : Members := []
  open_ : List String := []

namespace Reading

/-- Opens a table or one more table of a row. -/
def openAt (r : Reading) (row : Bool) (parts : List String) : Option Reading :=
  (pathAndKey parts).bind fun (path, last) =>
    (if row then r.root.openRow path last else r.root.openTable path last).map fun root =>
      { root, open_ := parts }

/-- Adds a value to the table opened last. -/
def add (r : Reading) (parts : List String) (v : Json) : Option Reading :=
  (pathAndKey parts).bind fun (path, last) =>
    (Members.within false r.open_ (fun _ table => table.addValue path last v) .header r.root).map
      fun root => { r with root }

/-- Reads the line at the start of a text. -/
def line (r : Reading) (text : List Char) : Option (Reading × List Char) :=
  match skipSpace text with
  | '[' :: '[' :: rest =>
    (key (rest.length + 1) rest).bind fun (parts, rest) =>
      match rest with
      | ']' :: ']' :: rest => (r.openAt true parts).bind fun r => (restOfLine? rest).map (r, ·)
      | _ => none
  | '[' :: rest =>
    (key (rest.length + 1) rest).bind fun (parts, rest) =>
      match rest with
      | ']' :: rest => (r.openAt false parts).bind fun r => (restOfLine? rest).map (r, ·)
      | _ => none
  | rest =>
    match restOfLine? rest with
    | some rest => some (r, rest)
    | none =>
      (key (rest.length + 1) rest).bind fun (parts, rest) =>
        match rest with
        | '=' :: rest =>
          (value (2 * rest.length + 2) maxDepth (skipSpace rest)).bind fun (v, rest) =>
            (r.add parts v).bind fun r => (restOfLine? rest).map (r, ·)
        | _ => none

/-- Reads all lines. -/
def lines : Nat → Reading → List Char → Option Reading
  | _, r, [] => some r
  | 0, _, _ => none
  | fuel + 1, r, text => (r.line text).bind fun (r, rest) => lines fuel r rest

end Reading

/-- The text after a mark of the byte order. -/
def dropMark : List Char → List Char
  | c :: rest => if c.toNat = 0xFEFF then rest else c :: rest
  | [] => []

/-- The document a text holds. -/
def parse? (text : String) : Option Json :=
  let chars := shortBreaks (dropMark text.toList)
  (Reading.lines (chars.length + 1) {} chars).map fun r => .obj (membersJson r.root)

end WebHost.Toml
