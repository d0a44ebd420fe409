import WebHost.Server.Connection
import WebHost.Server.Serving
import WebHost.Server.Tracker

/-!
# One run of a server

A run waits until its predecessor has let go of the address, binds it unless it was given a listener,
and accepts connections until it is told to stop, fails or is dropped. Then it lets the listener go,
says that it has stopped, and its result is recorded. Whoever shuts a run down tells it to stop,
waits until it has said so, and then waits for the last connection. All of them take turns in any
order, so every turn is a step of its own.
-/

set_option autoImplicit false

namespace WebHost

/-- What a run does on its way out. -/
inductive Farewell where
  /-- Lets the listener go. -/
  | release
  /-- Says that the run has stopped. -/
  | announce
  deriving DecidableEq, Repr

/-- Where a run stands. -/
inductive RunStage where
  /-- Waits for the run before it. -/
  | waiting
  /-- About to bind the address. -/
  | binding
  | accepting
  /-- The accept loop is over; some things are left to do. -/
  | leaving (duties : List Farewell) (error : ServerError)
  /-- The result is about to be recorded. -/
  | ended (error : ServerError)
  /-- Nobody waits for the result; some things are left to do. -/
  | dropped (duties : List Farewell)
  | gone

/-- How a shutdown came out. -/
inductive DrainOutcome where
  | drained
  /-- The deadline passed first. -/
  | expired
  /-- The caller gave up. -/
  | abandoned
  deriving DecidableEq, Repr

/-- Where a call stands that shuts a run down. -/
inductive DrainStage where
  /-- About to tell the run. -/
  | called
  /-- Waits until the run has stopped. -/
  | stopping
  /-- Waits for the last connection. -/
  | counting (waiter : Nat)
  /-- The end of the shutdown is about to be recorded. -/
  | ended (outcome : DrainOutcome)
  | recorded (outcome : DrainOutcome)
  deriving DecidableEq, Repr

/-- One run of a server, with its connections and with the calls that shut it down. Each connection
holds the token of its own number. -/
structure Run where
  serving : Serving
  /-- The address as it was set. -/
  address : String
  /-- What accepts secure connections; plain ones without it. -/
  acceptor : Option TlsAcceptor := none
  /-- The run before this one. -/
  previous : Option Nat := none
  /-- Whether the run holds a listener. -/
  listener : Bool := false
  stage : RunStage := .waiting
  /-- Whether the accept loop was ever reached. -/
  listened : Bool := false
  shutdown : Latch := {}
  force : Latch := {}
  stopped : Latch := {}
  keepAlive : Bool := true
  /-- The pause after the last failure to accept, in milliseconds. -/
  backoff : Nat := 0
  tracker : Tracker := {}
  connections : List Connection := []
  drains : List DrainStage := []
  /-- How the run ended, once that is recorded. -/
  result : Option ServerError := none

namespace Run

/-- One step of a call that shuts a run down. -/
inductive DrainStep where
  | tell
  | observe
  | register
  | look
  | rise
  | conclude
  | expire
  | abandon
  | close
  deriving DecidableEq, Repr

/-- One step of a run, of one of its connections, or of somebody who stops it. -/
inductive Step where
  /-- Goes on, the run before this one having stopped. -/
  | proceed
  /-- Binds the address, or fails with a reason. -/
  | bind (failure : Option String)
  | accept (remote : SocketAddress)
  /-- Fails to accept, with the number and the reason of the failure. -/
  | failAccept (code : Nat) (reason : String)
  /-- Notices that it is to stop, while it waits for a connection or before. -/
  | notice (waiting : Bool)
  | farewell
  /-- The result is recorded. -/
  | record
  /-- Nobody waits for the run any more. -/
  | drop
  | connection (number : Nat) (step : Connection.Step)
  | beginDrain
  | drain (call : Nat) (step : DrainStep)
  /-- Stops accepting and cuts every connection off. -/
  | close

/-- Whether connections of the run are secure. -/
def isSecure (r : Run) : Bool := r.acceptor.isSome

/-- The address that the run binds. -/
def bindAddress (r : Run) : String := Address.listenOn r.address r.isSecure

/-- The pause after another failure to accept. -/
def nextBackoff (backoff : Nat) : Nat := max 5 (min (backoff * 2) 1000)

/-- Enters the accept loop. -/
def enterLoop (r : Run) : Run := { r with listener := true, listened := true, stage := .accepting }

/-- Leaves the accept loop, with everything still to do. -/
def leave (r : Run) (error : ServerError) : Run :=
  { r with stage := .leaving [.release, .announce] error }

/-- Does one thing on the way out. -/
def bid (r : Run) : Farewell → Run
  | .release => { r with listener := false }
  | .announce => { r with stopped := r.stopped.set }

/-- Accepts a connection to an address. It is counted before anything else happens to it. -/
def accept (r : Run) (remote : SocketAddress) : Run :=
  { r with
    backoff := 0
    tracker := r.tracker.acquire
    connections := r.connections ++ [{ remote, secure := r.isSecure }] }

/-- What the connections of a run hear of it. -/
def signals (r : Run) : Connection.Signals where
  shutdown := r.shutdown.isSet
  force := r.force.isSet
  expires := !r.serving.limits.idleTimeout.isZero

/-- A step of a connection. When the connection is counted no more, so is its token. -/
def stepConnection (r : Run) (number : Nat) (step : Connection.Step) : Run :=
  match r.connections[number]? with
  | none => r
  | some c =>
    let tracker :=
      match c.stage, step with
      | .reported, .uncount => r.tracker.release number
      | .uncounted, .announce => r.tracker.announce number
      | _, _ => r.tracker
    { r with tracker, connections := r.connections.set number (c.step r.signals step) }

/-- A call that shuts the run down goes to another stage. -/
def setDrain (r : Run) (call : Nat) (stage : DrainStage) : Run :=
  { r with drains := r.drains.set call stage }

/-- A step of a call that shuts the run down. -/
def stepDrain (r : Run) (call : Nat) (step : DrainStep) : Run :=
  match r.drains[call]?, step with
  | some .called, .tell => { r with shutdown := r.shutdown.set }.setDrain call .stopping
  | some .stopping, .observe =>
    if r.stopped.isSet then
      { r with tracker := r.tracker.step .wait }.setDrain call (.counting r.tracker.waiters.length)
    else r
  | some (.counting w), .register => { r with tracker := r.tracker.step (.register w) }
  | some (.counting w), .look => { r with tracker := r.tracker.step (.look w) }
  | some (.counting w), .rise => { r with tracker := r.tracker.step (.rise w) }
  | some (.counting w), .conclude =>
    if r.tracker.hasReturned w then r.setDrain call (.ended .drained) else r
  | some .stopping, .expire => { r with force := r.force.set }.setDrain call (.ended .expired)
  | some (.counting w), .expire =>
    { r with force := r.force.set, tracker := r.tracker.step (.giveUp w) }.setDrain call
      (.ended .expired)
  | some .stopping, .abandon => r.setDrain call (.ended .abandoned)
  | some (.counting w), .abandon =>
    { r with tracker := r.tracker.step (.giveUp w) }.setDrain call (.ended .abandoned)
  | some (.ended outcome), .close => r.setDrain call (.recorded outcome)
  | _, _ => r

/-- What a run does when nobody waits for it any more. While it waits with a listener it was given,
it says that it has stopped before it lets that listener go. -/
def drop (r : Run) : Run :=
  match r.stage with
  | .waiting =>
    { r with stage := .dropped (if r.listener then [.announce, .release] else [.announce]) }
  | .binding => { r with stage := .dropped [.announce] }
  | .accepting => { r with stage := .dropped [.release, .announce] }
  | _ => r

/-- What a step does; a step that is not possible does nothing. -/
def step (r : Run) : Step → Run
  | .proceed =>
    match r.stage with
    | .waiting => if r.listener then r.enterLoop else { r with stage := .binding }
    | _ => r
  | .bind failure =>
    match r.stage, failure with
    | .binding, none => r.enterLoop
    | .binding, some reason => { r with stage := .ended (.bind r.bindAddress reason) }
    | _, _ => r
  | .accept remote =>
    match r.stage with
    | .accepting => r.accept remote
    | _ => r
  | .failAccept code reason =>
    match r.stage with
    | .accepting =>
      if ServerError.transientCodes.contains code then { r with backoff := nextBackoff r.backoff }
      else r.leave (.accept reason)
    | _ => r
  | .notice _ =>
    match r.stage with
    | .accepting => if r.shutdown.isSet then r.leave .closed else r
    | _ => r
  | .farewell =>
    match r.stage with
    | .leaving [] error => { r with stage := .ended error }
    | .leaving (duty :: duties) error => { r.bid duty with stage := .leaving duties error }
    | .dropped [] => { r with stage := .gone }
    | .dropped (duty :: duties) => { r.bid duty with stage := .dropped duties }
    | _ => r
  | .record =>
    match r.stage with
    | .ended error => { r with stage := .dropped [.announce], result := some error }
    | _ => r
  | .drop => r.drop
  | .connection number step => r.stepConnection number step
  | .beginDrain => { r with keepAlive := false, drains := r.drains ++ [.called] }
  | .drain call step => r.stepDrain call step
  | .close => { r with shutdown := r.shutdown.set, force := r.force.set }

/-- Steps one after the other. -/
def steps (r : Run) (l : List Step) : Run := l.foldl step r

/-- The message about an accept loop that is told to stop. -/
def stopTrace : Event := .trace .server .debug "accept loop stopped"

/-- The warning about connections that are left when a deadline passes. -/
def deadlineWarning : Event :=
  .trace .server .warn "shutdown deadline exceeded, closing remaining connections"

/-- The events that a step causes: failures go where the run sends its errors, and what is told about
connections goes to whoever wants to know. -/
def eventsOf (r : Run) : Step → List Event
  | .failAccept code reason =>
    match r.stage with
    | .accepting =>
      if ServerError.transientCodes.contains code then r.serving.errorSink.log "accept" reason else []
    | _ => []
  | .notice true =>
    match r.stage with
    | .accepting => if r.shutdown.isSet then [stopTrace] else []
    | _ => []
  | .connection number step =>
    match r.connections[number]? with
    | none => []
    | some c =>
      ((c.failure? step).elim [] fun (context, reason) => r.serving.errorSink.log context reason) ++
        (c.news r.signals step).flatMap (r.serving.tell c.remote)
  | .drain call .expire =>
    match r.drains[call]? with
    | some .stopping | some (.counting _) => [deadlineWarning]
    | _ => []
  | _ => []

end Run

end WebHost
