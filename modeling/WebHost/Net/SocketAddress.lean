import WebHost.Number.Numeral
import WebHost.Text.Cut

/-!
# Socket addresses

The address of a peer is an IPv4 or IPv6 address with a port. Reading is strict: octets have no
leading zeros, an IPv6 address stands in brackets, and a port is required. Printing an IPv6 address
shortens its longest run of zero groups.
-/

set_option autoImplicit false

namespace WebHost

/-- An address of a network host. -/
inductive IpAddress where
  | v4 (a b c d : Nat)
  | v6 (groups : List Nat)
  deriving DecidableEq, Repr

/-- A host address with a port. The scope names an interface and belongs to IPv6 alone. -/
structure SocketAddress where
  ip : IpAddress
  scope : Nat
  port : Nat
  deriving DecidableEq, Repr

namespace SocketAddress

/-- Reads a number of at most `width` digits, at least one. -/
def readNumber (base width bound : Nat) (zeroFirst : Bool) (text : List Char) :
    Option (Nat × List Char) :=
  let isDigit := fun c => (Numeral.digit? base c).isSome
  let digits := text.takeWhile isDigit
  if digits.isEmpty || width < digits.length then none
  else if !zeroFirst && digits.head? = some '0' && 1 < digits.length then none
  else
    match Numeral.value? base digits with
    | some n => if n ≤ bound then some (n, text.dropWhile isDigit) else none
    | none => none

/-- Reads the four octets of an IPv4 address. -/
def readV4 (text : List Char) : Option ((Nat × Nat × Nat × Nat) × List Char) := do
  let octet := readNumber 10 3 255 false
  let dot : List Char → Option (List Char) := fun
    | '.' :: rest => some rest
    | _ => none
  let (a, text) ← octet text
  let (b, text) ← octet (← dot text)
  let (c, text) ← octet (← dot text)
  let (d, text) ← octet (← dot text)
  return ((a, b, c, d), text)

/-- Reads up to `limit` groups of an IPv6 address. An IPv4 address may stand for the last two. The
answer says whether it did. -/
def readGroups : Nat → Bool → List Char → List Nat × Bool × List Char
  | 0, _, text => ([], false, text)
  | limit + 1, first, text =>
    let start : Option (List Char) :=
      if first then some text
      else match text with
        | ':' :: rest => some rest
        | _ => none
    match start with
    | none => ([], false, text)
    | some rest =>
      let v4 := if 0 < limit then readV4 rest else none
      match v4 with
      | some ((a, b, c, d), rest) => ([a * 256 + b, c * 256 + d], true, rest)
      | none =>
        match readNumber 16 4 65535 true rest with
        | some (group, rest) =>
          let (groups, v4, rest) := readGroups limit false rest
          (group :: groups, v4, rest)
        | none => ([], false, text)

/-- Reads an IPv6 address; two colons stand for at least one zero group. -/
def readV6 (text : List Char) : Option (List Nat × List Char) :=
  let (front, v4, rest) := readGroups 8 true text
  if front.length = 8 then some (front, rest)
  else if v4 then none
  else
    match rest with
    | ':' :: ':' :: rest =>
      let (back, _, rest) := readGroups (7 - front.length) true rest
      some (front ++ List.replicate (8 - front.length - back.length) 0 ++ back, rest)
    | _ => none

/-- Reads a colon and a port to the end of the text. -/
def readPort : List Char → Option Nat
  | ':' :: digits =>
    match readNumber 10 digits.length 65535 true digits with
    | some (port, []) => some port
    | _ => none
  | _ => none

/-- Reads a socket address. -/
def parse? (s : String) : Option SocketAddress :=
  match s.toList with
  | '[' :: text => do
    let (groups, text) ← readV6 text
    let (scope, text) ← match text with
      | '%' :: more => readNumber 10 more.length (Nat.pow 2 32 - 1) true more
      | text => some (0, text)
    match text with
    | ']' :: rest => return ⟨.v6 groups, scope, ← readPort rest⟩
    | _ => none
  | text => do
    let ((a, b, c, d), rest) ← readV4 text
    return ⟨.v4 a b c d, 0, ← readPort rest⟩

/-- The start and length of the first longest run of zero groups. -/
def longestZeros (groups : List Nat) : Nat × Nat :=
  go groups 0 (0, 0) (0, 0)
where
  go : List Nat → Nat → Nat × Nat → Nat × Nat → Nat × Nat
    | [], _, _, best => best
    | g :: rest, i, run, best =>
      if g = 0 then
        let run := if run.2 = 0 then (i, 1) else (run.1, run.2 + 1)
        go rest (i + 1) run (if best.2 < run.2 then run else best)
      else go rest (i + 1) (0, 0) best

end SocketAddress

/-- The text of a host address. -/
def IpAddress.text : IpAddress → String
  | .v4 a b c d => Text.joinWith "." ([a, b, c, d].map toString)
  | .v6 groups =>
    match groups with
    | [0, 0, 0, 0, 0, 0xFFFF, high, low] =>
      "::ffff:" ++ Text.joinWith "." ([high / 256, high % 256, low / 256, low % 256].map toString)
    | _ =>
      let colons := fun gs => Text.joinWith ":" (gs.map Numeral.hex)
      let (start, length) := SocketAddress.longestZeros groups
      if 1 < length then colons (groups.take start) ++ "::" ++ colons (groups.drop (start + length))
      else colons groups

/-- The text of a socket address. -/
def SocketAddress.text (a : SocketAddress) : String :=
  let port := ":" ++ toString a.port
  match a.ip with
  | .v4 .. => a.ip.text ++ port
  | .v6 _ =>
    let scope := if a.scope = 0 then "" else "%" ++ toString a.scope
    "[" ++ a.ip.text ++ scope ++ "]" ++ port

end WebHost
