import WebHost.Encoding.Der
import WebHost.Tls.Pem

/-!
# A reader of armoured data

The program needs a reader of certificates to run with. This one reads armoured data in full, and goes
by the shape of keys and certificates alone: it takes a key for usable that has the parts of one, and
does not calculate with them. Nothing that is proved of servers rests on it.
-/

set_option autoImplicit false

namespace WebHost

namespace PrivateKey

/-- The registered name of keys on elliptic curves. -/
def ellipticName : Bytes := [0x2a, 0x86, 0x48, 0xce, 0x3d, 0x02, 0x01]
/-- The registered name of the curve on 256 bits. -/
def curve256 : Bytes := [0x2a, 0x86, 0x48, 0xce, 0x3d, 0x03, 0x01, 0x07]
/-- The registered name of the curve on 384 bits. -/
def curve384 : Bytes := [0x2b, 0x81, 0x04, 0x00, 0x22]
/-- The registered name of keys on the twisted curve on 255 bits. -/
def edwardsName : Bytes := [0x2b, 0x65, 0x70]
/-- The registered name of keys of two primes. -/
def rsaName : Bytes := [0x2a, 0x86, 0x48, 0x86, 0xf7, 0x0d, 0x01, 0x01, 0x01]

/-- The length of a secret on a curve. -/
def secretLength? (curve : Bytes) : Option Nat :=
  if curve = curve256 then some 32 else if curve = curve384 then some 48 else none

/-- Whether bytes are a key on a curve: a version and a secret of the right length. -/
def isEllipticSecret (curve : Bytes) (bytes : Bytes) : Bool :=
  match Der.sequence? bytes with
  | some (version :: secret :: _) =>
    version = ⟨Der.integerTag, [1]⟩ && secret.tag = Der.bytesTag &&
      secretLength? curve = some secret.content.length
  | _ => false

/-- Whether bytes are a key of two primes: nine numbers with a modulus of at least 2048 bits. -/
def isRsaSecret (bytes : Bytes) : Bool :=
  match Der.sequence? bytes with
  | some (version :: modulus :: rest) =>
    version = ⟨Der.integerTag, [0]⟩ && rest.length = 7 &&
      (modulus :: rest).all (·.tag = Der.integerTag) && Nat.pow 2 2047 ≤ Der.number modulus.content
  | _ => false

/-- How a key whose algorithm is named makes signatures. -/
def kindOfNamed? (bytes : Bytes) : Option SignatureKind :=
  match Der.sequence? bytes with
  | some (_ :: algorithm :: secret :: _) =>
    if algorithm.tag = Der.sequenceTag ∧ secret.tag = Der.bytesTag then
      match algorithm.parts with
      | some (name :: rest) =>
        if name.content = rsaName then if isRsaSecret secret.content then some .rsa else none
        else if name.content = ellipticName then
          match rest with
          | [curve] => if isEllipticSecret curve.content secret.content then some .elliptic else none
          | _ => none
        else if name.content = edwardsName then
          match Der.read secret.content with
          | some (seed, []) =>
            if seed.tag = Der.bytesTag ∧ seed.content.length = 32 then some .edwards else none
          | _ => none
        else none
      | _ => none
    else none
  | _ => none

/-- How a private key makes signatures, as far as its form tells. -/
def kindOf? (key : PrivateKey) : Option SignatureKind :=
  match key.form with
  | .named => kindOfNamed? key.data
  | .rsa => if isRsaSecret key.data then some .rsa else none
  | .elliptic =>
    if isEllipticSecret curve256 key.data || isEllipticSecret curve384 key.data then some .elliptic
    else none

end PrivateKey

namespace TrustAnchor

/-- The tag of the version of a certificate. -/
def versionTag : Nat := 0xa0

/-- Whether bytes are a certificate that others can be traced back to: signed data of the right
shape whose subject has a public key. -/
def accepts (certificate : Bytes) : Bool :=
  match Der.sequence? certificate with
  | some [signed, algorithm, signature] =>
    signed.tag = Der.sequenceTag && algorithm.tag = Der.sequenceTag &&
      signature.tag = Der.bitsTag &&
      match signed.parts with
      | some (first :: rest) =>
        let rest := if first.tag = versionTag then rest else first :: rest
        match rest with
        | serial :: algorithm :: issuer :: validity :: subject :: key :: _ =>
          serial.tag = Der.integerTag &&
            [algorithm, issuer, validity, subject, key].all (·.tag = Der.sequenceTag)
        | _ => false
      | _ => false
  | _ => false

end TrustAnchor

/-- The reader that goes by the shape of what it reads. -/
def CertificateReader.byShape : CertificateReader where
  certificates := Pem.certificates
  privateKey data := Pem.firstPrivateKey (Pem.sections data)
  signature := PrivateKey.kindOf?
  acceptsRoot := TrustAnchor.accepts

end WebHost
