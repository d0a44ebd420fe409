import WebHost.Files.Tree
import WebHost.Tls.Suite

/-!
# Certificates with their keys

A certificate with its private key is loaded from two files or from two blocks of armoured data.
Every certificate of the chain has to be readable; the key is the first private key, and it has to
be one that signatures can be made with. What armoured data holds, and which keys and certificates
can be used, is for a library to say: here it may be any reader at all.
-/

set_option autoImplicit false

namespace WebHost

/-- Why a setting of secure connections was refused. -/
inductive TlsError where
  | unreadable (path : String)
  | malformed
  | missingCertificate
  | missingPrivateKey
  /-- The private key, the versions or the suites cannot be used. -/
  | unusable
  | appendRootFailed
  | noCertificates
  | clientVerifier
  deriving DecidableEq, Repr

namespace TlsError

/-- The wording of a refusal. What cannot be used is worded elsewhere. -/
def message? : TlsError → Option String
  | .unreadable path => some ("failed to read " ++ path)
  | .malformed => some "failed to decode pem data"
  | .missingCertificate => some "no certificate found in pem data"
  | .missingPrivateKey => some "no private key found in pem data"
  | .unusable => none
  | .appendRootFailed => some "failed to append certificate to root ca pool"
  | .noCertificates => some "tls config has no certificates"
  | .clientVerifier => some "failed to build client certificate verifier"

end TlsError

/-- The forms in which a private key is written: with the name of its algorithm, or for one algorithm
alone. -/
inductive KeyForm where
  | named
  | rsa
  | elliptic
  deriving DecidableEq, Repr

/-- A private key as it was read. -/
structure PrivateKey where
  form : KeyForm
  data : Bytes
  deriving DecidableEq, Repr

/-- A chain of certificates with the private key of the first one. -/
structure Certified where
  chain : List Bytes
  key : Bytes
  signature : SignatureKind
  deriving DecidableEq, Repr

/-- What a library makes of armoured data, of keys and of certificates. Without a library nothing is
found. -/
structure CertificateReader where
  /-- The certificates in armoured data, with the faults between them. -/
  certificates : Bytes → List (Except Unit Bytes) := fun _ => []
  /-- The first private key in armoured data, unless a fault stands before it. -/
  privateKey : Bytes → Except Unit (Option PrivateKey) := fun _ => .ok none
  /-- How a private key makes signatures, if it can be used at all. -/
  signature : PrivateKey → Option SignatureKind := fun _ => none
  /-- Whether the certificates of clients can be traced back to a certificate. -/
  acceptsRoot : Bytes → Bool := fun _ => false

/-- A certificate with its key from armoured data. -/
def CertificateReader.certified (r : CertificateReader) (certificate key : Bytes) :
    Except TlsError Certified :=
  match (r.certificates certificate).mapM id with
  | .error () => .error .malformed
  | .ok [] => .error .missingCertificate
  | .ok chain =>
    match r.privateKey key with
    | .error () => .error .malformed
    | .ok none => .error .missingPrivateKey
    | .ok (some found) =>
      match r.signature found with
      | none => .error .unusable
      | some signature => .ok ⟨chain, found.data, signature⟩

/-- Where certificates are found: the files as they are at a moment, a library that reads them, and what
the resolvers of others answer at that moment. A resolver is told from the others by its number. -/
structure Vault where
  files : FileTree := {}
  reader : CertificateReader := {}
  resolvers : Nat → ClientHello → Option Certified := fun _ _ => none

/-- Reads a file for a setting of secure connections. -/
def Vault.read (vault : Vault) (path : String) : Except TlsError Bytes :=
  match vault.files.read path with
  | .ok (data, _) => .ok data
  | .error _ => .error (.unreadable path)

/-- Where a certificate with its key comes from. -/
inductive KeySource where
  | files (certificate key : String)
  | blocks (certificate key : Bytes)
  deriving DecidableEq, Repr

namespace KeySource

/-- Whether a source names nothing at all. -/
def isEmpty : KeySource → Bool
  | .files certificate key => certificate.isEmpty && key.isEmpty
  | .blocks certificate key => certificate.isEmpty && key.isEmpty

/-- Loads what a source names; an empty source names nothing. -/
def load (source : KeySource) (vault : Vault) : Except TlsError (Option Certified) :=
  if source.isEmpty then .ok none
  else
    match source with
    | .files certificate key => do
      let certificate ← vault.read certificate
      let key ← vault.read key
      return some (← vault.reader.certified certificate key)
    | .blocks certificate key => (vault.reader.certified certificate key).map some

/-- The certificate that a source yields, if it can be loaded and names one. -/
def loaded? (source : KeySource) (vault : Vault) : Option Certified :=
  match source.load vault with
  | .ok found => found
  | .error _ => none

/-- Blocks as a report shows them: the key stays hidden. -/
def blocksReport (certificate : Bytes) : String :=
  "TlsPemBlocks \x7b cert: " ++ toString certificate.length ++ ", key: \"<redacted>\" \x7d"

end KeySource

end WebHost
