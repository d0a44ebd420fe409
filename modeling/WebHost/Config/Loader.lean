import WebHost.Config.Schema
import WebHost.Files.ContentType
import WebHost.Json.Parser
import WebHost.Text.Unicode.Case
import WebHost.Toml.Parser

/-!
# Loading configurations

A configuration is put together in layers: a preset, then texts or files, then variables of the
environment. A text takes the place of everything before it, with defaults for what it leaves out;
a variable changes its own key alone.
-/

set_option autoImplicit false

namespace WebHost

namespace HostConfig

/-- Reads a configuration from a text in a format, whose name may be in any case. -/
def parse (content format : String) : Except ConfigError HostConfig :=
  match Unicode.lower format with
  | "toml" => ((Toml.parse? content).bind (ofJson? .ignored)).elim (.error .invalidToml) .ok
  | "json" => ((Json.parse? content).bind (ofJson? .refused)).elim (.error .invalidJson) .ok
  | other => .error (.unsupportedFormat other)

end HostConfig

/-- A variable of the environment with its value. -/
abbrev Variable := String × String

/-- A key of the configuration that a variable sets: the name of its section and its own, and how a
value is put into the configuration. What is wrong with a value is said in words. -/
structure OverrideKey where
  section_ : String
  key : String
  put : String → HostConfig → Except String HostConfig

namespace OverrideKey

/-- The name of a key in a variable, after the prefix. -/
def name (k : OverrideKey) : String := k.section_ ++ "__" ++ k.key

/-- The greatest whole number that a variable may hold. -/
def greatest : Nat := Nat.pow 2 64 - 1

/-- A truth value in one of its words, in any case. -/
def truth? (value : String) : Option Bool :=
  match Unicode.lower value with
  | "true" | "1" | "yes" | "on" => some true
  | "false" | "0" | "no" | "off" => some false
  | _ => none

/-- A key that holds a text. -/
def text (section_ key : String) (put : String → HostConfig → HostConfig) : OverrideKey :=
  ⟨section_, key, fun value c => .ok (put value c)⟩

/-- A key that holds a path; the empty text is none. -/
def path (section_ key : String) (put : Option String → HostConfig → HostConfig) : OverrideKey :=
  ⟨section_, key, fun value c => .ok (put (if value.isEmpty then none else some value) c)⟩

/-- A key that holds a truth value. -/
def flag (section_ key : String) (put : Bool → HostConfig → HostConfig) : OverrideKey :=
  ⟨section_, key, fun value c =>
    match truth? value with
    | some b => .ok (put b c)
    | none => .error "expected boolean"⟩

/-- A key that holds a whole number exactly as written. -/
def exact (section_ key : String) (put : Nat → HostConfig → HostConfig) : OverrideKey :=
  ⟨section_, key, fun value c =>
    match Numeral.readNatural greatest value.toList with
    | .ok n => .ok (put n c)
    | .error _ => .error "expected integer"⟩

/-- A key that holds a whole number, with blanks around it. -/
def natural (section_ key : String) (put : Nat → HostConfig → HostConfig) : OverrideKey :=
  ⟨section_, key, fun value c =>
    (exact section_ key put).put (String.ofList (Text.trim value.toList)) c⟩

/-- A change of the section on the server. -/
def server (f : ServerSection → ServerSection) (c : HostConfig) : HostConfig :=
  { c with server := f c.server }

/-- A change of the section on certificates. -/
def tls (f : TlsSection → TlsSection) (c : HostConfig) : HostConfig := { c with tls := f c.tls }

/-- A change of the section on logs. -/
def logging (f : LogSettings → LogSettings) (c : HostConfig) : HostConfig :=
  { c with logging := f c.logging }

/-- A change of the section on metrics. -/
def metrics (f : MetricsSettings → MetricsSettings) (c : HostConfig) : HostConfig :=
  { c with metrics := f c.metrics }

/-- All keys that variables set. -/
def all : List OverrideKey :=
  [text "SERVER" "NAME" fun v => server fun s => { s with name := v },
    text "SERVER" "ADDR" fun v => server fun s => { s with address := v },
    text "SERVER" "PORT" fun v => server fun s => { s with port := v },
    natural "SERVER" "READ_TIMEOUT_MS" fun v => server fun s => { s with readTimeoutMs := v },
    natural "SERVER" "READ_HEADER_TIMEOUT_MS" fun v =>
      server fun s => { s with readHeaderTimeoutMs := v },
    natural "SERVER" "WRITE_TIMEOUT_MS" fun v => server fun s => { s with writeTimeoutMs := v },
    natural "SERVER" "IDLE_TIMEOUT_SECS" fun v => server fun s => { s with idleTimeoutSecs := v },
    natural "SERVER" "SHUTDOWN_TIMEOUT_SECS" fun v =>
      server fun s => { s with shutdownTimeoutSecs := v },
    exact "SERVER" "MAX_HEADER_BYTES" fun v => server fun s => { s with maxHeaderBytes := v },
    path "TLS" "CA_CERT_FILE" fun v => tls fun s => { s with rootFile := v },
    path "TLS" "CERT_FILE" fun v => tls fun s => { s with certificateFile := v },
    path "TLS" "KEY_FILE" fun v => tls fun s => { s with keyFile := v },
    flag "TLS" "VERIFY_CLIENT" fun v => tls fun s => { s with verifyClient := v },
    flag "TLS" "INSECURE_SKIP_VERIFY" fun v => tls fun s => { s with skipVerify := v },
    flag "LOGGING" "ENABLED" fun v => logging fun s => { s with enabled := v },
    text "LOGGING" "LEVEL" fun v => logging fun s => { s with level := v },
    flag "LOGGING" "JSON_FORMAT" fun v => logging fun s => { s with jsonFormat := v },
    flag "LOGGING" "INCLUDE_TARGET" fun v => logging fun s => { s with includeTarget := v },
    flag "LOGGING" "INCLUDE_LOCATION" fun v => logging fun s => { s with includeLocation := v },
    flag "LOGGING" "SPAN_EVENTS" fun v => logging fun s => { s with spanEvents := v },
    flag "METRICS" "ENABLED" fun v => metrics fun s => { s with enabled := v },
    text "METRICS" "NAMESPACE" fun v => metrics fun s => { s with namespace_ := v },
    text "METRICS" "SUBSYSTEM" fun v => metrics fun s => { s with subsystem := v }]

/-- The key that a variable names after a prefix. -/
def ofName? (pre name : String) : Option OverrideKey :=
  (Text.after? (pre ++ "__").toList name.toList).bind fun rest =>
    all.find? fun k => k.name.toList = rest

end OverrideKey

namespace HostConfig

/-- Lets a variable set its key. A variable that names no key changes nothing. -/
def override (pre : String) (c : HostConfig) (v : Variable) : Except ConfigError HostConfig :=
  match OverrideKey.ofName? pre v.1 with
  | none => .ok c
  | some k =>
    match k.put v.2 c with
    | .ok c => .ok c
    | .error reason => .error (.invalidVariable v.1 reason)

/-- Lets variables set their keys in order, up to the first that holds no value for its key. -/
def overrideAll (pre : String) (c : HostConfig) (environment : List Variable) :
    Except ConfigError HostConfig :=
  environment.foldlM (override pre) c

end HostConfig

/-- A configuration in the making. -/
structure ConfigLoader where
  config : HostConfig := {}
  /-- The prefix of the variables that count, if any do. -/
  envPrefix : Option String := none
  /-- The file that was loaded last. -/
  source : Option String := none

namespace ConfigLoader

/-- Takes a text in a format. -/
def withText (l : ConfigLoader) (content format : String) : Except ConfigError ConfigLoader :=
  (HostConfig.parse content format).map fun config => { l with config }

/-- Takes a file, whose extension tells the format. -/
def withFile (l : ConfigLoader) (files : FileTree) (path : String) :
    Except ConfigError ConfigLoader :=
  match files.resolve path with
  | .error _ => .error (.fileNotFound path)
  | .ok _ =>
    match (files.read path).toOption.bind fun (data, _) => Utf8.decode? data with
    | none => .error (.unreadable path)
    | some content =>
      let format := ((ContentType.fileName? path).bind ContentType.extension?).getD ""
      (HostConfig.parse content format).map fun config => { l with config, source := some path }

/-- Takes a file if there is one. -/
def withOptionalFile (l : ConfigLoader) (files : FileTree) (path : String) :
    Except ConfigError ConfigLoader :=
  match files.resolve path with
  | .error _ => .ok l
  | .ok _ => l.withFile files path

/-- Lets the variables with a prefix count; the prefix is in capitals. -/
def withEnvironment (l : ConfigLoader) (pre : String) : ConfigLoader :=
  { l with envPrefix := some (Unicode.upper pre) }

/-- The configuration with the variables that count; it has to be usable. -/
def load (l : ConfigLoader) (environment : List Variable) : Except ConfigError HostConfig := do
  let config ←
    match l.envPrefix with
    | some pre => l.config.overrideAll pre environment
    | none => .ok l.config
  config.validate
  return config

/-- The configuration as it is, without variables and whether it can be used or not. -/
def loadUnvalidated (l : ConfigLoader) : HostConfig := l.config

end ConfigLoader

end WebHost
