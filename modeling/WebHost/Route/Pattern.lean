import WebHost.Text.Cut

/-!
# Path patterns

A pattern is a path whose segments are literals or wildcards: `{name}` stands for one non-empty
segment and `{name...}`, at the end, for all that remains. A pattern that ends in a slash matches
everything below it, and `{$}` at the end makes it match that slash alone.
-/

set_option autoImplicit false

namespace WebHost

/-- One segment of a pattern. -/
inductive Segment where
  | literal (text : String)
  | param (name : String)
  | rest (name : String)
  deriving DecidableEq, Repr

/-- How a pattern ends. -/
inductive Tail where
  | exact
  | rest
  | subtree
  deriving DecidableEq, Repr

/-- A parsed pattern. -/
structure Pattern where
  segments : List Segment
  tail : Tail
  deriving DecidableEq, Repr

/-- Why a text is no pattern. -/
inductive PatternFault where
  | noLeadingSlash
  | restNotLast
  | emptyWildcard
  | partialWildcard
  | emptySegment
  deriving DecidableEq, Repr

/-- The wording of a pattern's fault. -/
def PatternFault.message : PatternFault → String
  | .noLeadingSlash => "must start with '/'"
  | .restNotLast => "'...' wildcard must be the last segment"
  | .emptyWildcard => "empty or misplaced wildcard"
  | .partialWildcard => "wildcards must span a whole segment"
  | .emptySegment => "empty segment"

namespace Pattern

/-- What stands between the braces of a part that is one wildcard. -/
def inBraces? (part : List Char) : Option (List Char) :=
  match part with
  | '\x7b' :: inner => Text.before? ['\x7d'] inner
  | _ => none

/-- Whether a part contains a brace. -/
def hasBrace (part : List Char) : Bool := '\x7b' ∈ part || '\x7d' ∈ part

/-- Reads one part of a pattern. -/
def readPart (isLast : Bool) (part : List Char) : Except PatternFault Segment :=
  match inBraces? part with
  | some inner =>
    match Text.before? ['.', '.', '.'] inner with
    | some name => if isLast then .ok (.rest (String.ofList name)) else .error .restNotLast
    | none =>
      if inner.isEmpty || inner = ['$'] then .error .emptyWildcard
      else .ok (.param (String.ofList inner))
  | none =>
    if hasBrace part then .error .partialWildcard
    else if part.isEmpty && !isLast then .error .emptySegment
    else .ok (.literal (String.ofList part))

/-- Reads the parts of a pattern in order; the first fault decides. -/
def readParts : List (List Char) → Except PatternFault (List Segment)
  | [] => .ok []
  | part :: rest =>
    match readPart rest.isEmpty part with
    | .error fault => .error fault
    | .ok segment => (readParts rest).map (segment :: ·)

/-- The parts of a pattern that are segments, and how its last part ends it. -/
def trimEnd (parts : List (List Char)) : List (List Char) × Tail :=
  match parts.getLast? with
  | some [] => (parts.dropLast, .subtree)
  | some ['\x7b', '$', '\x7d'] =>
    let front := parts.dropLast
    (if front.isEmpty then [] else front ++ [[]], .exact)
  | _ => (parts, .exact)

/-- Whether a segment stands for all that remains. -/
def isRest : Segment → Bool
  | .rest _ => true
  | _ => false

/-- Reads a pattern. -/
def parse (text : String) : Except PatternFault Pattern :=
  match text.toList with
  | '/' :: body =>
    let (parts, tail) := trimEnd (Text.split '/' body)
    match readParts parts with
    | .error fault => .error fault
    | .ok segments => .ok ⟨segments, if segments.any isRest then .rest else tail⟩
  | _ => .error .noLeadingSlash

/-- The parts of a path: what its slashes separate, without the leading slash. -/
def pathParts (path : String) : List String :=
  let body := match path.toList with
    | '/' :: body => body
    | text => text
  (Text.split '/' body).map String.ofList

/-- Matches segments with the parts of a path, collecting what the wildcards capture. The answer
also holds the parts that remain, or nothing when a wildcard took all of them. -/
def matchSegments : List Segment → List String → Option (List (String × String) × Option (List String))
  | [], parts => some ([], some parts)
  | .literal text :: segments, part :: parts =>
    if part = text then matchSegments segments parts else none
  | .literal _ :: _, [] => none
  | .param name :: segments, part :: parts =>
    if part.isEmpty then none
    else (matchSegments segments parts).map fun (params, rest) => ((name, part) :: params, rest)
  | .param _ :: _, [] => none
  | .rest name :: _, parts => some ([(name, Text.joinWith "/" parts)], none)

/-- The parameters a pattern captures from a path, if it matches. -/
def matches? (p : Pattern) (path : String) : Option (List (String × String)) :=
  match matchSegments p.segments (pathParts path) with
  | none => none
  | some (params, none) => some params
  | some (params, some remaining) =>
    if p.tail = .subtree || remaining.isEmpty || (p.segments.isEmpty && remaining = [""]) then
      some params
    else none

/-- Whether a segment is a literal. -/
def isLiteral : Segment → Bool
  | .literal _ => true
  | _ => false

/-- Whether a segment is a wildcard for one part. -/
def isParam : Segment → Bool
  | .param _ => true
  | _ => false

/-- How specific a pattern is. -/
structure Rank where
  literals : Nat
  params : Nat
  /-- 2 for an exact pattern, 1 for a wildcard at the end, 0 for a subtree. -/
  closeness : Nat
  deriving DecidableEq, Repr

/-- How specific a pattern is: literals count before wildcards, and these before the tail. -/
def rank (p : Pattern) : Rank where
  literals := p.segments.countP isLiteral
  params := p.segments.countP isParam
  closeness := match p.tail with
    | .exact => 2
    | .rest => 1
    | .subtree => 0

/-- Ranks are compared by literals, then by wildcards, then by the tail. -/
def Rank.exceeds (a b : Rank) : Bool :=
  b.literals < a.literals ||
    (a.literals = b.literals &&
      (b.params < a.params || (a.params = b.params && b.closeness < a.closeness)))

end Pattern

end WebHost
