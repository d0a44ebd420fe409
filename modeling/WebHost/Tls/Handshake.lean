import WebHost.Tls.Profile

/-!
# Secure connections

From a profile a server builds what it needs to accept secure connections. At a handshake both sides
agree on a version, a suite and a protocol, the server shows a certificate, and it checks the
client's if it was told to.
-/

set_option autoImplicit false

namespace WebHost

/-- What accepts secure connections. -/
structure TlsAcceptor where
  versions : List TlsVersion
  suites : List CipherSuite
  groups : List String
  /-- Whether a client has to show a certificate. -/
  needsClient : Bool
  protocols : List Bytes
  supply : Option CertificateSupply
  certificates : List Certified
  deriving DecidableEq, Repr

/-- What both sides agreed on. -/
structure Agreement where
  version : TlsVersion
  suite : CipherSuite
  protocol : Option Bytes
  certified : Certified
  deriving DecidableEq, Repr

namespace TlsProfile

/-- Builds what accepts connections. There has to be a certificate to show, a suite for one of the
versions, and a root for the certificates of clients if these are checked. -/
def build (p : TlsProfile) : Except TlsError TlsAcceptor :=
  if !p.hasCertificates then .error .noCertificates
  else if !p.usedSuites.any (p.versions.contains ·.version) then .error .unusable
  else if p.clientAuth ≠ .none ∧ p.skipVerify = false ∧ p.clientRoots.isEmpty then
    .error .clientVerifier
  else
    .ok {
      versions := p.versions
      suites := p.usedSuites
      groups := p.usedGroups
      needsClient := p.clientAuth = .requireAndVerify && !p.skipVerify
      protocols := p.protocols
      supply := p.supply
      certificates := p.certificates }

/-- What is built has everything from the profile. -/
theorem eq_of_build {p : TlsProfile} {a : TlsAcceptor} (h : p.build = .ok a) :
    a = ⟨p.versions, p.usedSuites, p.usedGroups,
      p.clientAuth = .requireAndVerify && !p.skipVerify, p.protocols, p.supply, p.certificates⟩ := by
  unfold build at h
  repeat' split at h
  all_goals cases h
  rfl

end TlsProfile

namespace CertificateSupply

/-- The certificate that is supplied to a client now, if there is one. A source that is loaded anew
makes no difference between clients. -/
def now (vault : Vault) (hello : ClientHello) : CertificateSupply → Option Certified
  | .resolver number => vault.resolvers number hello
  | .loader source => source.loaded? vault

end CertificateSupply

namespace TlsAcceptor

/-- The certificate that is shown to a client: the one supplied now, else the first of the profile. -/
def certified (a : TlsAcceptor) (vault : Vault) (hello : ClientHello) : Option Certified :=
  (a.supply.bind (·.now vault hello)).orElse fun _ => a.certificates.head?

/-- The version that both sides accept, the newer one if they can. A version needs a suite. -/
def version (a : TlsAcceptor) (hello : ClientHello) : Option TlsVersion :=
  [TlsVersion.tls13, .tls12].find? fun v =>
    a.versions.contains v && hello.versions.contains v && a.suites.any (·.version = v)

/-- The suite for a version: the first that the client names and the server accepts. -/
def suite (a : TlsAcceptor) (hello : ClientHello) (v : TlsVersion) (kind : SignatureKind) :
    Option CipherSuite :=
  hello.suites.find? fun s => a.suites.contains s && s.version = v && s.signatures.contains kind

/-- The protocol that both sides speak: the first that the server names. Where both name protocols,
one has to be common. -/
def protocol (a : TlsAcceptor) (hello : ClientHello) : Option (Option Bytes) :=
  if a.protocols.isEmpty ∨ hello.protocols.isEmpty then some none
  else (a.protocols.find? hello.protocols.contains).map some

/-- A handshake, which fails at the server or ends in an agreement. -/
def handshake (a : TlsAcceptor) (vault : Vault) (hello : ClientHello) : Option Agreement := do
  let version ← a.version hello
  let certified ← a.certified vault hello
  let suite ← a.suite hello version certified.signature
  let protocol ← a.protocol hello
  guard (a.groups.any hello.groups.contains && !a.needsClient)
  return { version, suite, protocol, certified }

end TlsAcceptor

end WebHost
