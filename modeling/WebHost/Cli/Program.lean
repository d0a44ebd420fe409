import WebHost.Cli.Arguments
import WebHost.Config.Loader
import WebHost.Files.Server
import WebHost.Middleware.AccessLog
import WebHost.Server.Rehearsal

/-!
# The program

The program serves a directory. It reads its command line, loads and completes its configuration,
sets up the log, finds the directory and configures a server; then it serves until it is told to
stop. Each of these may fail, and the first failure ends the program with one line that names it.
-/

set_option autoImplicit false

namespace WebHost

/-- What a program finds around itself. -/
structure Surroundings where
  files : FileTree
  /-- The variables of the environment, each once. -/
  environment : List Variable := []
  /-- The library that reads certificates. -/
  reader : CertificateReader := {}

/-- The filter of the log that the environment names. -/
def Surroundings.logFilter (around : Surroundings) : Option String :=
  (around.environment.find? (·.1 = "RUST_LOG")).map (·.2)

/-- Where the program finds certificates. -/
def Surroundings.vault (around : Surroundings) : Vault :=
  { files := around.files, reader := around.reader }

/-- A program that is ready to serve. -/
structure Program where
  rehearsal : Rehearsal
  settings : LogSettings
  log : LogSettings.Outcome

/-- How a program ended, and what it wrote. -/
structure ProgramReport where
  status : Nat
  /-- The line about a failure. -/
  fault : Option String := none
  /-- What was asked for on the command line. -/
  output : List String := []
  /-- Whether it served at all. -/
  served : Bool := false
  /-- The messages of the log that machines can read. -/
  messages : List Event := []

namespace CommandLine

/-- The prefix of the variables that set keys of a configuration. -/
def environmentPrefix : String := "SERV"

/-- The port that is used when neither a port nor an address is set. -/
def defaultPort : String := "8080"

/-- A configuration with what the command line sets. -/
def amend (c : CommandLine) (config : HostConfig) : HostConfig :=
  let server :=
    { config.server with
      port := (c.value? .port).getD config.server.port
      name := (c.value? .name).getD config.server.name }
  let server :=
    if server.port.isEmpty ∧ server.address.isEmpty then { server with port := defaultPort }
    else server
  let tls :=
    if (c.value? .certificate).isSome then
      { config.tls with certificateFile := c.value? .certificate, keyFile := c.value? .key }
    else config.tls
  let tls :=
    match c.value? .roots with
    | some path => { tls with rootFile := some path, verifyClient := true }
    | none => tls
  { config with server, tls }

/-- The configuration of the program, or what failed in words. It is taken as loaded, before any
variable of the environment is applied, and completed by the command line. -/
def configuration (c : CommandLine) (around : Surroundings) : Except String HostConfig := do
  let loader : ConfigLoader := {}
  let loader ←
    match c.value? .config with
    | none => .ok loader
    | some path => (loader.withFile around.files path).mapError fun _ => "loading " ++ path
  let config := c.amend (loader.withEnvironment environmentPrefix).loadUnvalidated
  config.validate.mapError fun e => e.message?.getD ""
  return config

end CommandLine

namespace Program

/-- The time that the program gives requests in flight when it stops. -/
def shutdownTimeout : Duration := .ofSeconds 3

/-- The logger of the chosen access log, of which only errors are written. -/
def accessLogger? : AccessLogChoice → Option AccessLogger
  | .generic => some ((AccessLogger.generic (.diagnostics .access)).limited .errors)
  | .common => some ((AccessLogger.common (.diagnostics .access)).limited .errors)
  | .none => none

/-- The middleware of the program: an access log, and measurements if they are enabled. Each has a
counter of its own. -/
def middleware (choice : AccessLogChoice) (metrics : MetricsSettings) : List Middleware :=
  ((accessLogger? choice).map (AccessLog.middleware 0)).toList ++
    (metrics.names?.map fun names => Collector.middleware 1 [names.recorder]).toList

/-- The options of the server of the program. -/
def options (c : CommandLine) (config : HostConfig) (files : FileTree) (root : List String) :
    Except ConfigError (List ServerOption) :=
  config.serverOptions.map fun configured =>
    [.group configured, .logger (.lines (.diagnostics .server)),
      .handler (FileServer.handle ⟨FileTree.pathText root, false⟩ files)] ++
      (middleware c.accessLog config.metrics).map .middleware

/-- Sets up the program that a command line asks for. -/
def setUp (around : Surroundings) (c : CommandLine) : Except String Program := do
  let config ← c.configuration around
  let log := config.logging.install around.logFilter false
  match log with
  | .invalidFilter _ | .alreadyInstalled => throw "initializing logging"
  | .off | .installed _ => pure ()
  let root ← (around.files.resolve c.directoryOrHere).mapError fun _ =>
    "opening " ++ c.directoryOrHere
  let options ← (options c config around.files root).mapError fun e => e.message?.getD ""
  let server ← (Server.build around.vault options).mapError fun _ => "configuring server"
  return { rehearsal := { server, vault := around.vault }, settings := config.logging, log }

/-- How talkative the log has to be for a message. -/
def levelOf : Severity → LogLevel
  | .debug => .debug
  | .info => .info
  | .warn => .warn
  | .error => .error

/-- The name of a channel as filters know it. -/
def target : Channel → String
  | .server => "serv::server"
  | .access => "serv::access"
  | .program => "serv"

/-- Whether the log lets an event through. -/
def lets (p : Program) : Event → Bool
  | .trace channel severity _ =>
    match p.log with
    | .installed filter => (levelOf severity).rank ≤ (filter.levelFor (target channel)).rank
    | _ => false
  | _ => false

/-- What the program says before it begins to serve. -/
def readyTrace : Event := .trace .program .info "serving directory"

/-- The messages that the log let through so far. -/
def messages (p : Program) : List Event :=
  (readyTrace :: p.rehearsal.server.events).filter p.lets

/-- The messages among them that machines can read: all of them or none. -/
def readableMessages (p : Program) : List Event := if p.settings.jsonFormat then p.messages else []

/-- Starts to serve, or fails. -/
def start (p : Program) : Program × Option String :=
  let (rehearsal, outcome) := p.rehearsal.play (.start none none)
  let fault :=
    match outcome with
    | .started => none
    | _ => some "server stopped"
  ({ p with rehearsal }, fault)

/-- Stops serving. -/
def stop (p : Program) : Program :=
  { p with rehearsal := (p.rehearsal.play (.shutdown (some shutdownTimeout) none)).1 }

/-- The name and the version of the program. -/
def versionLines : List String := ["serv 0.1.0"]

/-- What the program says of its command line. -/
def helpLines : List String :=
  ["Serve a directory over HTTP",
    "",
    "Usage: serv [OPTIONS] [DIR]",
    "",
    "Arguments:",
    "  [DIR]  Directory to serve [default: ./]",
    "",
    "Options:",
    "  -p, --port <PORT>              Port to listen on [default: 8080]",
    "      --config <CONFIG>          TOML or JSON configuration file",
    "      --name <NAME>              Server name used in logs",
    "      --tls-cert <TLS_CERT>      PEM encoded certificate; enables HTTPS",
    "      --tls-key <TLS_KEY>        PEM encoded private key",
    "      --tls-ca <TLS_CA>          CA used to verify client certificates; enables mutual TLS",
    "      --access-log <ACCESS_LOG>  Access log format. Only requests answered with an error " ++
      "status are logged [default: generic] [possible values: generic, clf, none]",
    "  -h, --help                     Print help",
    "  -V, --version                  Print version"]

/-- The first line of a text. -/
def firstLine (text : String) : String := String.ofList (text.toList.takeWhile (· ≠ '\n'))

/-- The line about a failure. -/
def faultLine (fault : String) : String := firstLine ("Error: " ++ fault)

/-- The report of a program that failed. -/
def failed (fault : String) : ProgramReport := { status := 1, fault := some (faultLine fault) }

/-- Plays a whole run of the program: it starts, and once it serves it is told to stop. -/
def play (around : Surroundings) (arguments : List String) : ProgramReport :=
  match Invocation.of arguments with
  | .help => { status := 0, output := helpLines }
  | .version => { status := 0, output := versionLines }
  | .faulty _ => { status := 2 }
  | .run line =>
    match setUp around line with
    | .error fault => failed fault
    | .ok p =>
      match p.start with
      | (p, some fault) => { failed fault with messages := p.readableMessages }
      | (p, none) => { status := 0, served := true, messages := p.stop.readableMessages }

end Program

end WebHost
