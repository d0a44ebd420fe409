import WebHost.Text.Utf8

/-!
# What both sides of a handshake may offer

Versions, suites of ciphers and groups are known by their names. The library that encrypts has an order
of its own for them, and the standard settings have another one.
-/

set_option autoImplicit false

namespace WebHost

/-- The versions of secure connections. -/
inductive TlsVersion where
  | tls12
  | tls13
  deriving DecidableEq, Repr

namespace TlsVersion

/-- A version as a report shows it. -/
def report : TlsVersion → String
  | .tls12 => "Tls12"
  | .tls13 => "Tls13"

/-- The name of a version. -/
def name : TlsVersion → String
  | .tls12 => "TLSv1_2"
  | .tls13 => "TLSv1_3"

end TlsVersion

/-- How a private key makes signatures. -/
inductive SignatureKind where
  | elliptic
  | edwards
  | rsa
  deriving DecidableEq, Repr

/-- A suite of ciphers: its name, its version, and the signatures it needs. -/
structure CipherSuite where
  name : String
  version : TlsVersion
  /-- The kinds of signatures that go with the suite. -/
  signatures : List SignatureKind
  deriving DecidableEq, Repr

namespace CipherSuite

/-- A suite of the newer version, which goes with any signature. -/
def newer (cipher : String) : CipherSuite :=
  ⟨"TLS13_" ++ cipher, .tls13, [.elliptic, .edwards, .rsa]⟩

/-- A suite of the older version for signatures on curves. -/
def elliptic (cipher : String) : CipherSuite :=
  ⟨"TLS_ECDHE_ECDSA_WITH_" ++ cipher, .tls12, [.elliptic, .edwards]⟩

/-- A suite of the older version for signatures with two primes. -/
def rsa (cipher : String) : CipherSuite := ⟨"TLS_ECDHE_RSA_WITH_" ++ cipher, .tls12, [.rsa]⟩

/-- The three ciphers. -/
def aes256 : String := "AES_256_GCM_SHA384"
/-- The shorter of the two block ciphers. -/
def aes128 : String := "AES_128_GCM_SHA256"
/-- The stream cipher. -/
def chacha : String := "CHACHA20_POLY1305_SHA256"

/-- The suites of the provider, in its order of preference. -/
def provider : List CipherSuite :=
  [newer aes256, newer aes128, newer chacha, elliptic aes256, elliptic aes128, elliptic chacha,
    rsa aes256, rsa aes128, rsa chacha]

/-- The suites of the standard profile, in its order of preference. -/
def standard : List CipherSuite :=
  [newer aes256, newer aes128, newer chacha, elliptic aes256, rsa aes256, elliptic chacha,
    rsa chacha, elliptic aes128, rsa aes128]

end CipherSuite

/-- The groups of the provider in which keys are agreed on. -/
def KeyGroup.provider : List String := ["X25519", "secp256r1", "secp384r1"]

/-- The groups of the standard profile. -/
def KeyGroup.standard : List String := ["secp256r1", "X25519"]

/-- What a client offers at a handshake. It has no certificate. -/
structure ClientHello where
  versions : List TlsVersion
  suites : List CipherSuite := CipherSuite.provider
  groups : List String := KeyGroup.provider
  protocols : List Bytes := []
  deriving DecidableEq, Repr

end WebHost
