import WebHost.Encoding.Base64
import WebHost.Text.Cut
import WebHost.Tls.Material

/-!
# Armoured data

Certificates and keys come as lines of text: a section begins with a line that names its kind, holds
base64, and ends with a line that names its kind again. Lines outside sections are passed over, and
so are sections of an unknown kind. A section that is malformed is a fault, after which reading goes
on with the next line.
-/

set_option autoImplicit false

namespace WebHost.Pem

/-- The kinds of sections that are known. -/
inductive Kind where
  | certificate
  | certificateRequest
  | revocationList
  | publicKey
  /-- A private key with the name of its algorithm. -/
  | privateKey
  | rsaPrivateKey
  | ecPrivateKey
  deriving DecidableEq, Repr

namespace Kind

/-- The kinds with their labels. -/
def labels : List (String × Kind) :=
  [("CERTIFICATE", .certificate), ("CERTIFICATE REQUEST", .certificateRequest),
    ("X509 CRL", .revocationList), ("PUBLIC KEY", .publicKey), ("PRIVATE KEY", .privateKey),
    ("RSA PRIVATE KEY", .rsaPrivateKey), ("EC PRIVATE KEY", .ecPrivateKey)]

/-- The kind with a label. -/
def ofLabel? (label : List Char) : Option Kind :=
  (labels.find? (·.1.toList = label)).map (·.2)

/-- The form of the private keys that sections of this kind hold, if they hold any. -/
def keyForm? : Kind → Option KeyForm
  | .privateKey => some .named
  | .rsaPrivateKey => some .rsa
  | .ecPrivateKey => some .elliptic
  | _ => none

end Kind

/-- A section of armoured data. -/
structure Section where
  kind : Kind
  data : Bytes
  deriving DecidableEq, Repr

/-- What stands next in armoured data. -/
inductive Found where
  | item (item : Section)
  | fault
  | nothing
  deriving DecidableEq, Repr

/-- The lines of armoured data, byte by byte; either of the two characters of a line break ends a
line. -/
def lines (data : Bytes) : List (List Char) :=
  (Text.split '\n' (data.map fun b =>
    if b = 13 then '\n' else Char.ofNat b.toNat))

/-- The label of a line that begins a section: it ends before exactly five dashes, with blanks
passed over. -/
def labelOf? (line : List Char) : Option (List Char) :=
  let tail := line.reverse.takeWhile fun c => c = '-' || c = ' '
  let dashes := tail.reverse.dropWhile (· ≠ '-')
  if dashes.count '-' = 5 then some (line.take (line.length - dashes.length)) else none

/-- The data of base64 with blanks in it. -/
def decodeBody (body : List Char) : Option Bytes :=
  Base64.decodeChars (body.filter fun c => !Text.isBlank c)

/-- What stands next in some lines, and the lines after it. The section that is open has a label and
the base64 that was collected. -/
def next (label : Option (List Char)) (body : List Char) :
    List (List Char) → Found × List (List Char)
  | [] => (if label.isSome then .fault else .nothing, [])
  | line :: rest =>
    match Text.after? "-----BEGIN ".toList line with
    | some tail =>
      match labelOf? tail with
      | some label => next (some label) body rest
      | none => (.fault, rest)
    | none =>
      match label with
      | none => next none body rest
      | some open_ =>
        if (Text.after? ("-----END ".toList ++ open_ ++ "-----".toList) line).isSome then
          match Kind.ofLabel? open_ with
          | none => next none [] rest
          | some kind =>
            match decodeBody body with
            | some data => (.item ⟨kind, data⟩, rest)
            | none => (.fault, rest)
        else next label (body ++ line) rest

/-- Everything that stands in some lines, faults included. -/
def allOf : Nat → List (List Char) → List (Except Unit Section)
  | 0, _ => []
  | fuel + 1, lines =>
    match next none [] lines with
    | (.nothing, _) => []
    | (.fault, rest) => .error () :: allOf fuel rest
    | (.item s, rest) => .ok s :: allOf fuel rest

/-- Everything that stands in armoured data, faults included. -/
def sections (data : Bytes) : List (Except Unit Section) :=
  let rows := lines data
  allOf (rows.length + 1) rows

/-- The certificates among sections, with the faults. -/
def certificates (data : Bytes) : List (Except Unit Bytes) :=
  (sections data).filterMap fun
    | .ok s => if s.kind = .certificate then some (.ok s.data) else none
    | .error () => some (.error ())

/-- The first private key among sections, unless a fault stands before it. -/
def firstPrivateKey : List (Except Unit Section) → Except Unit (Option PrivateKey)
  | [] => .ok none
  | .error () :: _ => .error ()
  | .ok s :: rest =>
    match s.kind.keyForm? with
    | some form => .ok (some ⟨form, s.data⟩)
    | none => firstPrivateKey rest

end WebHost.Pem
