import WebHost.Server.Lifecycle

/-!
# Rehearsals

A rehearsal plays operations on a server one after the other, on a network that no peer reaches: the
server listens, but no request arrives and none is answered. Between two operations every run goes
as far as it can by itself, so that the outcome of each operation is settled.
-/

set_option autoImplicit false

namespace WebHost

/-- One operation of a rehearsal. -/
inductive Act where
  /-- Starts the server, by its settings without an entry. The address may be impossible to bind. -/
  | start (entry : Option Entry) (failure : Option String)
  /-- Sends something and waits for an answer. -/
  | send
  /-- Sends something under a name without waiting. -/
  | sendLater (name : String)
  /-- Asks for the answer to what was sent under a name. -/
  | collect (name : String)
  /-- Gives up what was sent under a name. -/
  | giveUp (name : String)
  /-- Opens the gate, or lets time pass. -/
  | pass
  | connect
  /-- Shuts the server down; another operation may follow before the shutdown is over. -/
  | shutdown (allowed : Option Duration) (meanwhile : Option Act)
  | close
  | configure (options : List ServerOption)
  /-- Asks for the result of the oldest run that was not asked for yet. -/
  | join
  | breakListener
  | report

/-- What an operation of a rehearsal came to. -/
inductive Outcome where
  | done
  /-- A run began and goes on. -/
  | started
  /-- The run that was asked for goes on. -/
  | running
  /-- There is nothing to ask for. -/
  | nothing
  | unanswered
  /-- There was never an address to send anything to. -/
  | notStarted
  /-- Whether what was sent is held back at the gate. -/
  | held (isHeld : Bool)
  | unknown
  | connected
  | broken (isBroken : Bool)
  /-- It ended, with an error or without. -/
  | ended (error : Option ServerError)
  | shutDown (first : Option ServerError) (second : Option Outcome)
  | report (text : String)

/-- A server in a rehearsal. -/
structure Rehearsal where
  server : Server
  vault : Vault
  /-- The runs that were not asked for yet, with whether they were started by the settings. -/
  unasked : List (Nat × Bool) := []
  /-- The number of runs whose listeners are broken, counted from the oldest. -/
  brokenRuns : Nat := 0
  /-- What was sent under a name, with what asking for it will come to. -/
  sent : List (String × Outcome) := []
  /-- Whether the server ever had an address. -/
  hadAddress : Bool := false

namespace Rehearsal

/-- The steps of a run that is left alone. Those that are not possible do nothing. -/
def ownSteps (bindFailure acceptFailure : Option String) : List Run.Step :=
  [.proceed, .bind bindFailure] ++ (acceptFailure.map (Run.Step.failAccept 22)).toList ++
    [.notice true, .farewell, .farewell, .farewell, .record, .farewell, .farewell]

/-- The steps of a shutdown once the run has stopped and no connection is left. -/
def drainSteps : List Run.DrainStep := [.observe, .register, .look, .conclude, .close]

/-- Lets every run go as far as it can, the oldest first. -/
def settle (r : Rehearsal) (bindFailure : Option String) : Rehearsal :=
  let server := (List.range r.server.runs.length).foldl (fun s number =>
    let acceptFailure :=
      if number < r.brokenRuns then some ServerError.invalidArgument else none
    s.steps ((ownSteps bindFailure acceptFailure).map (.run number))) r.server
  { r with server, hadAddress := r.hadAddress || server.isListening }

/-- What sending something comes to. -/
def unanswered (r : Rehearsal) : Outcome := if r.hadAddress then .unanswered else .notStarted

/-- How a run ended, for whoever started it. -/
def resultOf (r : Rehearsal) (number : Nat) (bySettings : Bool) : Option (Option ServerError) :=
  (r.server.runs[number]?.bind (·.result)).map fun error =>
    if bySettings then Server.resultOfRun error else some error

/-- Starts the server. A run that ends at once answers with its result. -/
def start (r : Rehearsal) (entry : Option Entry) (failure : Option String) :
    Rehearsal × Outcome :=
  let chosen := entry.getD (Entry.choose r.server.settings.usesTls)
  match r.server.start r.vault chosen with
  | (server, .error error) => ({ r with server }, .ended (some error))
  | (server, .ok number) =>
    let r := { r with server }.settle failure
    match r.resultOf number entry.isNone with
    | some result => (r, .ended result)
    | none => ({ r with unasked := r.unasked ++ [(number, entry.isNone)] }, .started)

/-- Closes the server. -/
def close (r : Rehearsal) : Rehearsal × Outcome :=
  let (server, error) := r.server.close
  ({ r with server }, .ended error)

/-- Configures the server. -/
def configure (r : Rehearsal) (options : List ServerOption) : Rehearsal × Outcome :=
  let (server, error) := r.server.configure r.vault options
  ({ r with server }, .ended error)

/-- An operation in the course of a shutdown, before anything else goes on. -/
def playMeanwhile (r : Rehearsal) : Act → Rehearsal × Outcome
  | .close => r.close
  | .configure options => r.configure options
  | .start entry _ =>
    let (server, result) :=
      r.server.start r.vault (entry.getD (Entry.choose r.server.settings.usesTls))
    match result with
    | .error error => ({ r with server }, .ended (some error))
    | .ok _ => ({ r with server }, .started)
  | .shutdown allowed _ =>
    match r.server.beginShutdown allowed with
    | (server, .error error) => ({ r with server }, .ended (some error))
    | (server, .ok _) => ({ r with server }, .done)
  | _ => (r, .done)

/-- Shuts the server down. Without connections nothing keeps the shutdown from its end. -/
def shutdown (r : Rehearsal) (allowed : Option Duration) (meanwhile : Option Act) :
    Rehearsal × Outcome :=
  match r.server.beginShutdown allowed with
  | (server, .error error) => ({ r with server }, .shutDown (some error) none)
  | (server, .ok (number, _)) =>
    let drain (s : Server) (steps : List Run.DrainStep) :=
      s.steps (steps.map fun step => .run number (.drain 0 step))
    let r := { r with server := drain server [.tell] }
    let (r, second) :=
      match meanwhile with
      | none => (r, none)
      | some act =>
        let (r, outcome) := r.playMeanwhile act
        (r, some outcome)
    let r := r.settle none
    ({ r with server := drain r.server drainSteps }, .shutDown none second)

/-- Plays an operation. -/
def play (r : Rehearsal) : Act → Rehearsal × Outcome
  | .start entry failure => r.settle none |>.start entry failure
  | .send =>
    let r := r.settle none
    (r, r.unanswered)
  | .sendLater name =>
    let r := r.settle none
    ({ r with sent := (name, r.unanswered) :: r.sent.filter (·.1 ≠ name) }, .held false)
  | .collect name =>
    let r := r.settle none
    match r.sent.find? (·.1 = name) with
    | some (_, outcome) => ({ r with sent := r.sent.filter (·.1 ≠ name) }, outcome)
    | none => (r, .unknown)
  | .giveUp name => ({ r with sent := r.sent.filter (·.1 ≠ name) }, .done)
  | .pass => (r.settle none, .done)
  | .connect => (r.settle none, .connected)
  | .shutdown allowed meanwhile => r.settle none |>.shutdown allowed meanwhile
  | .close => r.close
  | .configure options => r.configure options
  | .join =>
    let r := r.settle none
    match r.unasked with
    | [] => (r, .nothing)
    | (number, bySettings) :: rest =>
      match r.resultOf number bySettings with
      | some result => ({ r with unasked := rest }, .ended result)
      | none => (r, .running)
  | .breakListener => ({ r with brokenRuns := r.server.runs.length }, .broken r.hadAddress)
  | .report => (r, .report r.server.report)

/-- Ends a rehearsal: a server that is still started is closed. -/
def finish (r : Rehearsal) : Rehearsal :=
  let r := r.settle none
  if r.server.state = .started then r.close.1.settle none else r

end Rehearsal

end WebHost
