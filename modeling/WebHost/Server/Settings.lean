import WebHost.Handler.Chain
import WebHost.Net.Address
import WebHost.Server.Connection
import WebHost.Server.Error
import WebHost.Server.Limits
import WebHost.Server.Logger
import WebHost.Tls.Profile

/-!
# Settings and options

Options change the settings of a server one after the other. Every option is applied, also after one
that failed, and all failures are reported together. Options may be grouped; a group is applied like
its members in a row.
-/

set_option autoImplicit false

namespace WebHost

/-- Everything that options can change. -/
structure Settings where
  limits : LimitSettings := .standard
  address : String := ""
  /-- The handler of all requests; without one the mux handles them. -/
  handler : Option Handler := none
  name : String := ""
  logger : Option Logger := none
  /-- Around the handler, the outermost first. -/
  middleware : List Middleware := []
  mux : Mux := {}
  tls : Option TlsProfile := none
  /-- Who is told about the states of connections. -/
  hook : Option ConnectionHook := none
  errorSink : Option ErrorSink := none
  /-- What is attached to every request. -/
  extensions : Option Extensions := none

/-- One change of the settings of a server. -/
inductive ServerOption where
  | name (name : String)
  | address (address : String)
  | port (port : Port)
  | limits (limits : LimitSettings)
  | tlsFiles (files : TlsFiles)
  | tlsProfile (profile : TlsProfile)
  /-- A profile with changes, of which none is kept if one fails. -/
  | tlsChanges (profile : TlsProfile) (changes : List TlsChange)
  | supply (supply : CertificateSupply)
  | handler (handler : Handler)
  | middleware (middleware : Middleware)
  | routes (routes : List Route)
  | logger (logger : Logger)
  | errorSink (sink : ErrorSink)
  | hook (hook : ConnectionHook)
  | extensions (extensions : Extensions)
  | group (options : List ServerOption)
  /-- An option of somebody else: any change of the settings, with the error if it fails. -/
  | custom (change : Vault → Settings → Settings × Option ServerError)

namespace Settings

/-- The profile of secure connections, the standard one if there is none. -/
def tlsOrStandard (s : Settings) : TlsProfile := s.tls.getD .standard

/-- Whether there is anything to show on secure connections. -/
def usesTls (s : Settings) : Bool := s.tls.any (·.hasCertificates)

/-- Applies an option that is no group. -/
def applyLeaf (vault : Vault) (s : Settings) : ServerOption → Settings × Option ServerError
  | .name name => ({ s with name }, none)
  | .address address => ({ s with address }, none)
  | .port port => ({ s with address := port.applyToAddr s.address }, none)
  | .limits limits => ({ s with limits }, none)
  | .tlsFiles f =>
    if !f.hasKeyPair then (s, none)
    else
      let (profile, error) := s.tlsOrStandard.takeFiles vault f
      ({ s with tls := some profile }, error.map .tls)
  | .tlsProfile profile => ({ s with tls := some profile }, none)
  | .tlsChanges profile changes =>
    match profile.changeUntil vault changes with
    | (profile, none) => ({ s with tls := some profile }, none)
    | (_, some e) => (s, some (.tls e))
  | .supply supply => ({ s with tls := some { s.tlsOrStandard with supply := some supply } }, none)
  | .handler handler => ({ s with handler := some handler }, none)
  | .middleware m => ({ s with middleware := s.middleware ++ [m] }, none)
  | .routes routes =>
    let (mux, errors) := s.mux.addAll routes
    ({ s with mux }, ServerError.collapse (errors.map .route))
  | .logger logger => ({ s with logger := some logger }, none)
  | .errorSink sink => ({ s with errorSink := some sink }, none)
  | .hook hook => ({ s with hook := some hook }, none)
  | .extensions extensions => ({ s with extensions := some extensions }, none)
  | .group _ => (s, none)
  | .custom change => change vault s

mutual

/-- Applies an option, with the error if it failed. -/
def applyOne (vault : Vault) (s : Settings) : ServerOption → Settings × Option ServerError
  | .group options =>
    let (s, errors) := applyEach vault s options
    (s, ServerError.collapse errors)
  | option => s.applyLeaf vault option

/-- Applies options in order, with the errors of those that failed. -/
def applyEach (vault : Vault) (s : Settings) : List ServerOption → Settings × List ServerError
  | [] => (s, [])
  | option :: rest =>
    let (s, error) := applyOne vault s option
    let (s, errors) := applyEach vault s rest
    (s, error.toList ++ errors)

end

/-- Applies options in order. All failures are reported as one error. -/
def apply (vault : Vault) (s : Settings) (options : List ServerOption) :
    Settings × Option ServerError :=
  let (s, errors) := s.applyEach vault options
  (s, ServerError.collapse errors)

/-- Settings as a report shows them. -/
def report (s : Settings) : String :=
  let word (b : Bool) := if b then "true" else "false"
  let tls :=
    match s.tls with
    | none => "None"
    | some p => "Some(" ++ p.report ++ ")"
  "Settings \x7b config: " ++ s.limits.report ++ ", addr: " ++ Text.quoted s.address ++
    ", name: " ++ Text.quoted s.name ++ ", handler: " ++ word s.handler.isSome ++
    ", logger: " ++ word s.logger.isSome ++ ", middleware: " ++ toString s.middleware.length ++
    ", mux: " ++ s.mux.report ++ ", tls: " ++ tls ++ ", .. \x7d"

end Settings

mutual

/-- The options of a group and of the groups in it, from left to right. -/
def ServerOption.leaves : ServerOption → List ServerOption
  | .group options => leavesOf options
  | option => [option]

/-- The options of some options and of the groups among them, from left to right. -/
def leavesOf : List ServerOption → List ServerOption
  | [] => []
  | option :: rest => option.leaves ++ leavesOf rest

end

end WebHost
