import WebHost.Server.Run

/-!
# The life of a server

A server is configured, started, shut down or closed, and started again. Starting, recording how a
run ended, beginning and ending a shutdown, closing and configuring each happen at once; between
them everything else may happen. An operation that the state forbids changes nothing. Runs are
numbered in the order of their starts, and only the current run may change the state when it ends.
-/

set_option autoImplicit false

namespace WebHost

/-- How a server is started: on a listener that the caller brings or on the configured address, and
with plain or secure connections, the latter with the files of a certificate. -/
inductive Entry where
  | serve
  | serveSecure (certificate key : String)
  | listen
  | listenSecure (certificate key : String)
  deriving DecidableEq, Repr

namespace Entry

/-- Whether the caller brings a listener. -/
def bringsListener : Entry → Bool
  | .serve | .serveSecure _ _ => true
  | .listen | .listenSecure _ _ => false

/-- The files named for secure connections. -/
def secure? : Entry → Option (String × String)
  | .serve | .listen => none
  | .serveSecure certificate key | .listenSecure certificate key => some (certificate, key)

/-- The entry that listens on the configured address, with secure connections or not. -/
def choose (secure : Bool) : Entry := if secure then .listenSecure "" "" else .listen

/-- What the logger is told about a start. -/
def milestone (e : Entry) (address : String) : Milestone :=
  match e.secure? with
  | none => .started address
  | some (certificate, key) => .startedSecure address certificate key

/-- What accepts the secure connections of a start; nothing for plain ones. -/
def acceptor (e : Entry) (vault : Vault) (s : Settings) :
    Except TlsError (Option TlsAcceptor) :=
  match e.secure? with
  | none => .ok none
  | some (certificate, key) => (s.acceptor vault certificate key).map some

end Entry

/-- A server with all its runs, the oldest first. -/
structure Server where
  settings : Settings := {}
  state : ServerState := .unstarted
  runs : List Run := []
  /-- The number of the current run. -/
  running : Option Nat := none
  /-- What those who start by the settings have read of them. -/
  choices : List (Option Bool) := []
  events : List Event := []

namespace Server

/-- Tells the logger about a milestone. -/
def tell (s : Server) (m : Milestone) : Server :=
  { s with events := s.events ++ s.settings.loggerOrDiscard.log s.settings.name m }

/-- The refusal of an operation in the current state. -/
def refuse (s : Server) (refusal : Refusal) : ServerError := .invalidState refusal s.state

/-- Applies options, unless the server is started. -/
def configure (s : Server) (vault : Vault) (options : List ServerOption) :
    Server × Option ServerError :=
  if s.state = .started then (s, some (s.refuse .alreadyStarted))
  else
    let (settings, error) := s.settings.apply vault options
    ({ s with settings }, error)

/-- A new server with options. -/
def build (vault : Vault) (options : List ServerOption) : Except ServerError Server :=
  match ({} : Server).configure vault options with
  | (s, none) => .ok s
  | (_, some error) => .error error

/-- The run that a start begins. -/
def newRun (s : Server) (e : Entry) (acceptor : Option TlsAcceptor) : Run where
  serving := s.settings.serving
  address := s.settings.address
  acceptor := acceptor
  previous := s.running
  listener := e.bringsListener

/-- Starts a server and gives the number of the run. Everything that may fail comes before the first
change. -/
def start (s : Server) (vault : Vault) (e : Entry) : Server × Except ServerError Nat :=
  if !s.state.mayStart then (s, .error (s.refuse .unableToStart))
  else
    match e.acceptor vault s.settings with
    | .error error => (s, .error (.tls error))
    | .ok acceptor =>
      let number := s.runs.length
      ({ s with
          settings := s.settings.atStart
          state := .started
          runs := s.runs ++ [s.newRun e acceptor]
          running := some number }.tell (e.milestone s.settings.address), .ok number)

/-- The current run of a started server. -/
def startedRun? (s : Server) : Option Nat := if s.state = .started then s.running else none

/-- Changes a run. -/
def updateRun (s : Server) (number : Nat) (change : Run → Run) : Server :=
  { s with runs := s.runs.modify number change }

/-- Begins a graceful shutdown and gives the run that is to drain, with the time it may take. -/
def beginShutdown (s : Server) (allowed : Option Duration) :
    Server × Except ServerError (Nat × Option Duration) :=
  match s.startedRun? with
  | none => (s, .error (s.refuse .unableToShutdown))
  | some number =>
    ({ s with state := .closing }.updateRun number (·.step .beginDrain) |>.tell .shuttingDown,
      .ok (number, s.settings.limits.shutdownDeadline allowed))

/-- Stops a server at once. -/
def close (s : Server) : Server × Option ServerError :=
  match s.startedRun? with
  | none => (s, some (s.refuse .unableToClose))
  | some number =>
    ({ s with state := .closed }.updateRun number (·.step .close) |>.tell .closing, none)

/-- The state after the current run has ended. A shutdown that goes on sets the state itself. -/
def stateAfter (state : ServerState) (error : ServerError) : ServerState :=
  match state with
  | .closing => .closing
  | .started => if error.isClosed then .closed else .errored
  | _ => .closed

/-- The message about a run that failed. -/
def failureTrace : Event := .trace .server .error "server stopped with an error"

/-- Records how a run ended. A run that was replaced leaves the state alone. -/
def finish (s : Server) (number : Nat) (error : ServerError) : Server :=
  if s.running = some number then
    { s with
      state := stateAfter s.state error
      events :=
        if s.state = .started ∧ !error.isClosed then s.events ++ [failureTrace] else s.events }
  else s

/-- Records that a graceful shutdown of a run is over. -/
def markClosed (s : Server) (number : Nat) : Server :=
  if s.running = some number ∧ s.state = .closing then { s with state := .closed } else s

/-- Whether the run before a run has stopped. -/
def predecessorStopped (s : Server) (r : Run) : Bool :=
  match r.previous.bind (s.runs[·]?) with
  | some p => p.stopped.isSet
  | none => true

/-- A step of a run. It may have to wait for the run before it, and some of its steps are recorded
in the state of the server. -/
def stepRun (s : Server) (number : Nat) (step : Run.Step) : Server :=
  match s.runs[number]? with
  | none => s
  | some r =>
    let next := { s with events := s.events ++ r.eventsOf step }.updateRun number (·.step step)
    match step with
    | .proceed => if s.predecessorStopped r then next else s
    | .record =>
      match r.stage with
      | .ended error => next.finish number error
      | _ => s
    | .drain call .close =>
      match r.drains[call]? with
      | some (.ended _) => next.markClosed number
      | _ => s
    | .beginDrain | .close => s
    | _ => next

/-- One step of a server or of one of its runs. -/
inductive Step where
  | configure (vault : Vault) (options : List ServerOption)
  | start (vault : Vault) (entry : Entry)
  /-- Somebody who starts by the settings reads whether connections are to be secure. -/
  | choose
  /-- One who has read that starts. -/
  | startChosen (vault : Vault) (caller : Nat)
  | beginShutdown (allowed : Option Duration)
  | close
  | run (number : Nat) (step : Run.Step)

/-- What a step does; a step that is not possible does nothing. -/
def step (s : Server) : Step → Server
  | .configure vault options => (s.configure vault options).1
  | .start vault entry => (s.start vault entry).1
  | .choose => { s with choices := s.choices ++ [some s.settings.usesTls] }
  | .startChosen vault caller =>
    match s.choices[caller]? with
    | some (some secure) =>
      ({ s with choices := s.choices.set caller none }.start vault (Entry.choose secure)).1
    | _ => s
  | .beginShutdown allowed => (s.beginShutdown allowed).1
  | .close => s.close.1
  | .run number step => s.stepRun number step

/-- Steps one after the other. -/
def steps (s : Server) (l : List Step) : Server := l.foldl step s

/-- The address of the current run is known once its accept loop is reached. -/
def isListening (s : Server) : Bool :=
  match s.running.bind (s.runs[·]?) with
  | some r => r.listened
  | none => false

/-- A server as a report shows it. -/
def report (s : Server) : String :=
  "Server \x7b name: " ++ Text.quoted s.settings.name ++ ", addr: " ++
    Text.quoted s.settings.address ++ ", state: " ++ s.state.report ++ ", .. \x7d"

/-- What a caller learns who started by the settings: a regular end is no failure. -/
def resultOfRun (error : ServerError) : Option ServerError :=
  if error.isClosed then none else some error

/-- The collected options of a server to be built, as a report shows them. -/
def builderReport (options : List ServerOption) : String :=
  "ServerBuilder \x7b options: " ++ toString options.length ++ " \x7d"

end Server

end WebHost
