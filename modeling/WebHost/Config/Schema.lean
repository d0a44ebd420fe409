import WebHost.Json.Access
import WebHost.Server.Settings
import WebHost.Telemetry.Settings

/-!
# The configuration of a program

A configuration has four sections: the server, its certificates, logs and metrics. Zero limits and
empty texts are not set. Some values can be read but not used; `validate` tells which.
-/

set_option autoImplicit false

namespace WebHost

/-- The section on the server. -/
structure ServerSection where
  name : String := ""
  address : String := ""
  port : String := ""
  readTimeoutMs : Nat := 0
  readHeaderTimeoutMs : Nat := 0
  writeTimeoutMs : Nat := 0
  idleTimeoutSecs : Nat := 0
  shutdownTimeoutSecs : Nat := 0
  maxHeaderBytes : Nat := 0
  deriving DecidableEq, Repr

namespace ServerSection

/-- The fields of the section, in order. -/
def fields : List (Field ServerSection) :=
  [.text "name" fun v s => { s with name := v },
    .text "addr" fun v s => { s with address := v },
    .textOrNatural "port" fun v s => { s with port := v },
    .natural "read_timeout_ms" fun v s => { s with readTimeoutMs := v },
    .natural "read_header_timeout_ms" fun v s => { s with readHeaderTimeoutMs := v },
    .natural "write_timeout_ms" fun v s => { s with writeTimeoutMs := v },
    .natural "idle_timeout_secs" fun v s => { s with idleTimeoutSecs := v },
    .natural "shutdown_timeout_secs" fun v s => { s with shutdownTimeoutSecs := v },
    .natural "max_header_bytes" fun v s => { s with maxHeaderBytes := v }]

/-- The section as a document. -/
def toJson (s : ServerSection) : Json :=
  .obj [("name", .str s.name), ("addr", .str s.address), ("port", .str s.port),
    ("read_timeout_ms", .ofNat s.readTimeoutMs),
    ("read_header_timeout_ms", .ofNat s.readHeaderTimeoutMs),
    ("write_timeout_ms", .ofNat s.writeTimeoutMs),
    ("idle_timeout_secs", .ofNat s.idleTimeoutSecs),
    ("shutdown_timeout_secs", .ofNat s.shutdownTimeoutSecs),
    ("max_header_bytes", .ofNat s.maxHeaderBytes)]

end ServerSection

/-- The section on certificates. -/
structure TlsSection where
  rootFile : Option String := none
  certificateFile : Option String := none
  keyFile : Option String := none
  verifyClient : Bool := false
  skipVerify : Bool := false
  deriving DecidableEq, Repr

namespace TlsSection

/-- The fields of the section, in order. -/
def fields : List (Field TlsSection) :=
  [.textOrNull "ca_cert_file" fun v s => { s with rootFile := v },
    .textOrNull "cert_file" fun v s => { s with certificateFile := v },
    .textOrNull "key_file" fun v s => { s with keyFile := v },
    .flag "verify_client" fun v s => { s with verifyClient := v },
    .flag "insecure_skip_verify" fun v s => { s with skipVerify := v }]

/-- The section as a document. -/
def toJson (s : TlsSection) : Json :=
  .obj [("ca_cert_file", .ofOption .str s.rootFile),
    ("cert_file", .ofOption .str s.certificateFile), ("key_file", .ofOption .str s.keyFile),
    ("verify_client", .bool s.verifyClient), ("insecure_skip_verify", .bool s.skipVerify)]

/-- Whether the section names no file. -/
def isEmpty (s : TlsSection) : Bool :=
  s.rootFile.isNone && s.certificateFile.isNone && s.keyFile.isNone

/-- The files that the section names, and how clients are checked. -/
def files (s : TlsSection) : TlsFiles :=
  ⟨s.rootFile, s.certificateFile, s.keyFile, s.verifyClient, s.skipVerify⟩

end TlsSection

/-- The configuration of a program. -/
structure HostConfig where
  server : ServerSection := {}
  tls : TlsSection := {}
  logging : LogSettings := .production
  metrics : MetricsSettings := {}
  deriving DecidableEq, Repr

/-- Why a configuration was refused. -/
inductive ConfigError where
  | fileNotFound (path : String)
  | unreadable (path : String)
  | unsupportedFormat (format : String)
  | invalidToml
  | invalidJson
  | invalidValue (field reason : String)
  | invalidVariable (name reason : String)
  deriving DecidableEq, Repr

/-- The wording of a refusal; where a document is malformed, the place of the fault is worded
elsewhere. -/
def ConfigError.message? : ConfigError → Option String
  | .fileNotFound path => some ("configuration file not found: " ++ path)
  | .unreadable path => some ("failed to read configuration file: " ++ path)
  | .unsupportedFormat format => some ("unsupported configuration format: " ++ format)
  | .invalidToml | .invalidJson => none
  | .invalidValue field reason =>
    some ("invalid configuration value for " ++ field ++ ": " ++ reason)
  | .invalidVariable name reason =>
    some ("failed to parse environment variable " ++ name ++ ": " ++ reason)

namespace HostConfig

/-- The defaults with logs for people. -/
def development : HostConfig := { logging := .development }

/-- The defaults with logs for machines. -/
def production : HostConfig := { logging := .production }

/-- The sections of a configuration, in order. What a section leaves out has its default. -/
def fields (surplus : Surplus) : List (Field HostConfig) :=
  [.nested "server" (Record.decode surplus ServerSection.fields {})
      fun v c => { c with server := v },
    .nested "tls" (Record.decode surplus TlsSection.fields {}) fun v c => { c with tls := v },
    .nested "logging" (LogSettings.ofJson? surplus) fun v c => { c with logging := v },
    .nested "metrics" (MetricsSettings.ofJson? surplus) fun v c => { c with metrics := v }]

/-- Reads a configuration. What it leaves out has its default. -/
def ofJson? (surplus : Surplus) (document : Json) : Option HostConfig :=
  Record.decode surplus (fields surplus) {} document

/-- A configuration as a document. -/
def toJson (c : HostConfig) : Json :=
  .obj [("server", c.server.toJson), ("tls", c.tls.toJson), ("logging", c.logging.toJson),
    ("metrics", c.metrics.toJson)]

/-- The port that is set, if one is; it has to be one. -/
def port (c : HostConfig) : Except ConfigError (Option Port) :=
  let text := Text.trim c.server.port.toList
  if text.isEmpty then .ok none
  else
    match Port.parse (String.ofList text) with
    | .ok p => .ok (some p)
    | .error e => .error (.invalidValue "server.port" e.message)

/-- Whether a configuration can be used: its port is one, and certificate and key come together. -/
def validate (c : HostConfig) : Except ConfigError Unit :=
  match c.port with
  | .error e => .error e
  | .ok _ =>
    match c.tls.certificateFile, c.tls.keyFile with
    | some _, none =>
      .error (.invalidValue "tls.key_file" "a key file is required when cert_file is set")
    | none, some _ =>
      .error (.invalidValue "tls.cert_file" "a certificate file is required when key_file is set")
    | _, _ => .ok ()

/-- A length of time in milliseconds. -/
def milliseconds (n : Nat) : Duration := ⟨n / 1000, n % 1000 * 1000000, by omega⟩

/-- The limits that a configuration sets. -/
def limits (c : HostConfig) : LimitSettings where
  readTimeout := milliseconds c.server.readTimeoutMs
  readHeaderTimeout := milliseconds c.server.readHeaderTimeoutMs
  writeTimeout := milliseconds c.server.writeTimeoutMs
  idleTimeout := .ofSeconds c.server.idleTimeoutSecs
  shutdownTimeout := ⟨c.server.shutdownTimeoutSecs, 0⟩
  maxHeaderBytes := c.server.maxHeaderBytes

/-- The options for everything that a configuration sets. -/
def serverOptions (c : HostConfig) : Except ConfigError (List ServerOption) :=
  match c.port with
  | .error e => .error e
  | .ok port =>
    .ok ((if c.server.name.isEmpty then [] else [.name c.server.name]) ++
      (if c.server.address.isEmpty then [] else [.address c.server.address]) ++
      (port.map ServerOption.port).toList ++
      (if c.limits.isUnset then [] else [.limits c.limits]) ++
      (if c.tls.isEmpty then [] else [.tlsFiles c.tls.files]))

end HostConfig

end WebHost
