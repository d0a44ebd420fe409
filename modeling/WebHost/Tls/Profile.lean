import WebHost.Tls.Material

/-!
# Settings of secure connections

A profile says which versions and suites a server accepts, whose certificates it shows and how it
checks those of its clients. Certificates come from a source that is asked at every handshake, or
stand in the profile itself. Where no suites or groups are listed, those of the provider count.
-/

set_option autoImplicit false

namespace WebHost

/-- How the certificates of clients are checked. -/
inductive ClientAuth where
  | none
  /-- Asked for, and checked if one is shown. -/
  | request
  | requireAndVerify
  deriving DecidableEq, Repr

/-- A way of checking clients as a report shows it. -/
def ClientAuth.report : ClientAuth → String
  | .none => "None"
  | .request => "Request"
  | .requireAndVerify => "RequireAndVerify"

/-- Who supplies certificates at a handshake. -/
inductive CertificateSupply where
  /-- Loads a certificate anew each time. -/
  | loader (source : KeySource)
  /-- The resolver of somebody else, by its number. -/
  | resolver (number : Nat)
  deriving DecidableEq, Repr

/-- Settings of secure connections. -/
structure TlsProfile where
  minVersion : TlsVersion := .tls12
  suites : List CipherSuite := []
  groups : List String := []
  clientAuth : ClientAuth := .none
  skipVerify : Bool := false
  protocols : List Bytes := []
  certificates : List Certified := []
  supply : Option CertificateSupply := none
  clientRoots : List Bytes := []
  deriving DecidableEq, Repr

namespace TlsProfile

/-- The standard profile: only strong suites, from the older version on. -/
def standard : TlsProfile where
  suites := CipherSuite.standard
  groups := KeyGroup.standard

/-- Whether there is a certificate to show or somebody who may supply one. -/
def hasCertificates (p : TlsProfile) : Bool := !p.certificates.isEmpty || p.supply.isSome

/-- Adds a certificate. -/
def addCertificate (p : TlsProfile) (c : Certified) : TlsProfile :=
  { p with certificates := p.certificates ++ [c] }

/-- The suites that are accepted. -/
def usedSuites (p : TlsProfile) : List CipherSuite :=
  if p.suites.isEmpty then CipherSuite.provider else p.suites

/-- The groups that are accepted. -/
def usedGroups (p : TlsProfile) : List String :=
  if p.groups.isEmpty then KeyGroup.provider else p.groups

/-- The versions that are accepted. -/
def versions (p : TlsProfile) : List TlsVersion :=
  match p.minVersion with
  | .tls12 => [.tls13, .tls12]
  | .tls13 => [.tls13]

/-- A profile as a report shows it. -/
def report (p : TlsProfile) : String :=
  let word (b : Bool) := if b then "true" else "false"
  "TlsConfig \x7b min_version: " ++ p.minVersion.report ++
    ", cipher_suites: " ++ toString p.suites.length ++
    ", client_auth: " ++ p.clientAuth.report ++
    ", insecure_skip_verify: " ++ word p.skipVerify ++
    ", certificates: " ++ toString p.certificates.length ++
    ", resolver: " ++ word p.supply.isSome ++
    ", client_cas: " ++ toString p.clientRoots.length ++ ", .. \x7d"

end TlsProfile

/-- The files that a program names for secure connections. -/
structure TlsFiles where
  rootFile : Option String := none
  certificateFile : Option String := none
  keyFile : Option String := none
  verifyClient : Bool := false
  skipVerify : Bool := false
  deriving DecidableEq, Repr

/-- Whether both a certificate and its key are named. -/
def TlsFiles.hasKeyPair (f : TlsFiles) : Bool := f.certificateFile.isSome && f.keyFile.isSome

namespace TlsProfile

/-- The certificates in a file that clients can be traced back to are added to the roots; there has
to be one. Faults in the file are passed over. -/
def addRoots (p : TlsProfile) (vault : Vault) (path : String) :
    Except TlsError TlsProfile := do
  let data ← vault.read path
  let found := (vault.reader.certificates data).filterMap Except.toOption
  let roots := found.filter vault.reader.acceptsRoot
  if roots.isEmpty then .error .appendRootFailed
  else .ok { p with clientRoots := p.clientRoots ++ roots }

/-- Takes up a source of a certificate. The first one is not loaded but asked at every handshake;
each later one is loaded at once and its certificate is added. An empty source changes nothing. -/
def take (p : TlsProfile) (vault : Vault) (source : KeySource) : Except TlsError TlsProfile :=
  if source.isEmpty then .ok p
  else if p.supply.isNone then .ok { p with supply := some (.loader source) }
  else
    match source.load vault with
    | .error e => .error e
    | .ok none => .ok p
    | .ok (some c) => .ok (p.addCertificate c)

end TlsProfile

/-- What may be done to a profile. What fails gives its error together with the profile as far as it
was changed. -/
inductive TlsChange where
  | source (source : KeySource)
  | files (files : TlsFiles)
  | roots (path : String)
  | supply (supply : CertificateSupply)
  /-- A source that is loaded at once, whether there is a supply or not. -/
  | certificate (source : KeySource)
  | clearRoots
  | minVersion (version : TlsVersion)
  | clientAuth (mode : ClientAuth)
  | skipVerify (skip : Bool)
  | protocols (protocols : List Bytes)
  | keepSuites (count : Nat)
  | keepGroups (count : Nat)
  deriving DecidableEq, Repr

namespace TlsProfile

/-- A profile after a change, with the error of the change if it failed. -/
abbrev Changed := TlsProfile × Option TlsError

/-- The profile after something that may fail without leaving a trace. -/
def keep (p : TlsProfile) : Except TlsError TlsProfile → Changed
  | .ok p => (p, none)
  | .error e => (p, some e)

/-- Takes up files: first the roots, then how clients are checked, last the certificate. What was
done before a failure stays. -/
def takeFiles (p : TlsProfile) (vault : Vault) (f : TlsFiles) : Changed :=
  match f.rootFile.elim (.ok p) (p.addRoots vault) with
  | .error e => (p, some e)
  | .ok p =>
    let p :=
      { p with
        skipVerify := f.skipVerify
        clientAuth := if f.verifyClient then .requireAndVerify else p.clientAuth }
    match f.certificateFile, f.keyFile with
    | some certificate, some key => p.keep (p.take vault (.files certificate key))
    | _, _ => (p, none)

/-- Makes a change. -/
def change (p : TlsProfile) (vault : Vault) : TlsChange → Changed
  | .source s => p.keep (p.take vault s)
  | .files f => p.takeFiles vault f
  | .roots path => p.keep (p.addRoots vault path)
  | .supply s => ({ p with supply := some s }, none)
  | .certificate s => p.keep ((s.load vault).map fun c => c.elim p p.addCertificate)
  | .clearRoots => ({ p with clientRoots := [] }, none)
  | .minVersion v => ({ p with minVersion := v }, none)
  | .clientAuth m => ({ p with clientAuth := m }, none)
  | .skipVerify s => ({ p with skipVerify := s }, none)
  | .protocols ps => ({ p with protocols := ps }, none)
  | .keepSuites n => ({ p with suites := p.suites.take n }, none)
  | .keepGroups n => ({ p with groups := p.groups.take n }, none)

/-- Makes changes up to the first that fails. -/
def changeUntil (p : TlsProfile) (vault : Vault) : List TlsChange → Changed
  | [] => (p, none)
  | c :: rest =>
    match p.change vault c with
    | (p, none) => changeUntil p vault rest
    | failed => failed

end TlsProfile

end WebHost
