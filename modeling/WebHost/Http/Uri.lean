import WebHost.Text.Cut

/-!
# Request targets

A target is a path with an optional query, an absolute address with scheme and authority, a bare
authority, or the asterisk. The reader checks every character against the set its part allows and
drops a fragment.
-/

set_option autoImplicit false

namespace WebHost

/-- A request target. The path is kept as written; `path` below reads an empty one as `/` where a
scheme or a query stands beside it. -/
structure Uri where
  scheme : Option String
  authority : Option String
  rawPath : String
  query : Option String
  deriving DecidableEq, Repr, Inhabited

namespace Uri

/-- Characters that may stand in an authority, delimiters included. -/
def isUriChar (c : Char) : Bool :=
  c.isAlphanum || c ∈ "!#$&'()*+,-./:;=?@[]_~".toList

/-- Characters that may stand in a scheme. -/
def isSchemeChar (c : Char) : Bool :=
  c.isAlphanum || c ∈ ['+', '-', '.', '~']

/-- Characters that may stand in a path. Of those beyond seven bits all may; the last one of seven bits,
the deletion, may not. -/
def isPathChar (c : Char) : Bool :=
  let n := c.toNat
  n = 0x21 || (0x24 ≤ n && n ≤ 0x3B) || n = 0x3D || (0x40 ≤ n && n ≤ 0x5F) ||
    (0x61 ≤ n && n ≤ 0x7A) || n = 0x7C || n = 0x7E || n = 0x22 || n = 0x7B || n = 0x7D || 0x80 ≤ n

/-- Characters that may stand in a query, again without the deletion. -/
def isQueryChar (c : Char) : Bool :=
  let n := c.toNat
  n = 0x21 || (0x24 ≤ n && n ≤ 0x3B) || n = 0x3D || (0x3F ≤ n && n ≤ 0x7E) || 0x80 ≤ n

/-- What the reader of an authority has seen so far. -/
structure AuthorityScan where
  colons : Nat := 0
  opened : Bool := false
  closed : Bool := false
  percent : Bool := false
  /-- Whether the last character was an at sign. -/
  atSign : Bool := false

/-- Takes one character of an authority into account; none when it may not stand there. -/
def AuthorityScan.step (scan : AuthorityScan) (c : Char) : Option AuthorityScan :=
  let scan := { scan with atSign := false }
  if c = ':' then if 8 ≤ scan.colons then none else some { scan with colons := scan.colons + 1 }
  else if c = '[' then
    if scan.percent || scan.opened then none else some { scan with opened := true }
  else if c = ']' then
    if !scan.opened || scan.closed then none
    else some { scan with closed := true, colons := 0, percent := false }
  else if c = '@' then some { scan with colons := 0, percent := false, atSign := true }
  else if c = '%' then some { scan with percent := true }
  else if isUriChar c then some scan
  else none

/-- Whether an authority may end here: brackets are paired, one colon at most stands before a
port, a host follows the user information, and no percent sign stands in it. -/
def AuthorityScan.complete (scan : AuthorityScan) : Bool :=
  scan.opened == scan.closed && scan.colons ≤ 1 && !scan.atSign && !scan.percent

/-- Whether a character ends an authority. -/
def endsAuthority (c : Char) : Bool := c = '/' || c = '?' || c = '#'

/-- Whether a text is an authority. -/
def isAuthority (text : List Char) : Bool :=
  let start : Option AuthorityScan := some {}
  match text.foldl (fun scan c => scan.bind (AuthorityScan.step · c)) start with
  | some scan => scan.complete
  | none => false

/-- Reads an authority up to its delimiter: the authority and the rest of the text. -/
def readAuthority (text : List Char) : Option (List Char × List Char) :=
  let authority := text.takeWhile (!endsAuthority ·)
  if isAuthority authority then some (authority, text.dropWhile (!endsAuthority ·)) else none

/-- Reads a path and its query, dropping a fragment. -/
def readPath (text : List Char) : Option (String × Option String) :=
  let text := text.takeWhile (· ≠ '#')
  let path := text.takeWhile (· ≠ '?')
  if !path.all isPathChar then none
  else
    match text.dropWhile (· ≠ '?') with
    | [] => some (String.ofList path, none)
    | _ :: query =>
      if query.all isQueryChar then some (String.ofList path, some (String.ofList query)) else none

/-- Splits a scheme off a text. The first answer tells an overlong scheme from no scheme. -/
def readScheme (text : List Char) : Option (Option String × List Char) :=
  let s := text.takeWhile isSchemeChar
  match text.dropWhile isSchemeChar with
  | ':' :: '/' :: '/' :: rest =>
    let name := String.ofList s
    if Text.sameIgnoringCase name "http" then some (some "http", rest)
    else if Text.sameIgnoringCase name "https" then some (some "https", rest)
    else if text.length ≤ 3 then some (none, text)
    else if 64 < s.length then none
    else some (some name, rest)
  | _ => some (none, text)

/-- The longest target, in bytes. -/
def maxLength : Nat := 65534

/-- Reads a request target. -/
def parse? (s : String) : Option Uri :=
  let text := s.toList
  if s.utf8ByteSize = 0 || maxLength < s.utf8ByteSize then none
  else if text = ['*'] then some ⟨none, none, "*", none⟩
  else if text.head? = some '/' then
    (readPath text).map fun (path, query) => ⟨none, none, path, query⟩
  else
    match readScheme text with
    | none => none
    | some (scheme, rest) =>
      match readAuthority rest with
      | none => none
      | some (authority, rest) =>
        match scheme with
        | none =>
          if rest.isEmpty then some ⟨none, some (String.ofList authority), "", none⟩ else none
        | some _ =>
          if authority.isEmpty then none
          else
            (readPath rest).map fun (path, query) =>
              ⟨scheme, some (String.ofList authority), path, query⟩

/-- The path of a target: empty for a bare authority, and `/` where nothing else is written. -/
def path (u : Uri) : String :=
  if !u.rawPath.isEmpty then u.rawPath
  else if u.scheme.isSome || u.query.isSome then "/"
  else ""

/-- The path and query as written, with `/` for nothing at all; none for a bare authority. -/
def pathAndQuery? (u : Uri) : Option String :=
  if u.rawPath.isEmpty && u.query.isNone then
    if u.scheme.isSome then some "/" else none
  else
    some (u.rawPath ++ match u.query with
      | some q => "?" ++ q
      | none => "")

/-- The host inside an authority: what follows the user information, without a port. -/
def hostOf (authority : String) : String :=
  let text := authority.toList
  let hostPort := match Text.cutLast '@' text with
    | some (_, rest) => rest
    | none => text
  match hostPort with
  | '[' :: _ =>
    match Text.cutFirst ']' hostPort with
    | some (inside, _) => String.ofList (inside ++ [']'])
    | none => String.ofList hostPort
  | _ => String.ofList (hostPort.takeWhile (· ≠ ':'))

/-- The host of a target, if it has an authority. -/
def host? (u : Uri) : Option String := u.authority.map hostOf

/-- The text of a target. -/
def text (u : Uri) : String :=
  (match u.scheme with
    | some s => s ++ "://"
    | none => "") ++
  u.authority.getD "" ++ u.path ++
  (match u.query with
    | some q => "?" ++ q
    | none => "")

end Uri

end WebHost
