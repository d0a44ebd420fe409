import WebHost.Handler.Event

/-!
# The life of a connection

A connection is counted as soon as it is accepted. The task that serves it reports that it is new,
makes the handshake if it is a secure one, answers its requests one at a time, and at the end reports
that it is closed and is counted no more.

While it serves, a connection listens to its run. It is asked once to end when it can, because the run
stops or because it was idle for too long; and when it is cut off it ends at once, also while a request
is being answered. The end is reported all the same.
-/

set_option autoImplicit false

namespace WebHost

/-- What is told about a connection. -/
inductive ConnectionState where
  | new
  | active
  | idle
  | closed
  deriving DecidableEq, Repr

/-- The name of a state. -/
def ConnectionState.text : ConnectionState → String
  | .new => "new"
  | .active => "active"
  | .idle => "idle"
  | .closed => "closed"

/-- Somebody who is told about connections: the events of what is told of the connection to an
address. -/
abbrev ConnectionHook := SocketAddress → ConnectionState → List Event

/-- Where the task of a connection stands. -/
inductive ConnectionStage where
  /-- About to begin. -/
  | accepted
  /-- In the handshake. -/
  | shaking
  /-- Between two requests. -/
  | idle
  /-- Answering a request. -/
  | active
  /-- About to report the end. -/
  | leaving
  /-- About to be counted no more. -/
  | reported
  /-- Counted no more, and about to say so to those who wait. -/
  | uncounted
  | gone
  deriving DecidableEq, Repr

/-- A connection with what was told about it, the oldest report first. -/
structure Connection where
  remote : SocketAddress
  secure : Bool
  stage : ConnectionStage := .accepted
  /-- Whether it was asked to end when it can. -/
  draining : Bool := false
  reports : List ConnectionState := []
  deriving DecidableEq, Repr

namespace Connection

/-- What a connection hears of its run. -/
structure Signals where
  /-- The run is to stop. -/
  shutdown : Bool
  /-- Every connection is to be cut off. -/
  force : Bool
  /-- A connection may be idle for too long. -/
  expires : Bool
  deriving DecidableEq, Repr

/-- One step of the task of a connection. -/
inductive Step where
  | begin
  /-- The handshake ends, well or with a reason. -/
  | shake (failure : Option String)
  /-- A request has arrived. -/
  | request
  /-- The response is ready. -/
  | respond
  /-- It hears that the run is to stop. -/
  | drain
  /-- It was idle for too long. -/
  | expire
  /-- It hears that it is to be cut off. -/
  | cut
  /-- Serving ends: the peer is gone, nothing more is to be read, or it ends as it was asked to. What
  the peer sent may be at fault. -/
  | leave (failure : Option String)
  | report
  | uncount
  | announce
  deriving DecidableEq, Repr

/-- Whether the connection counts: from when it is accepted until after its end is reported. -/
def counts (c : Connection) : Bool :=
  match c.stage with
  | .uncounted | .gone => false
  | _ => true

/-- Whether requests are served. -/
def serves (c : Connection) : Bool :=
  match c.stage with
  | .idle | .active => true
  | _ => false

/-- A connection in another stage, with a report on the way there. -/
def moveTo (c : Connection) (stage : ConnectionStage) (reports : List ConnectionState) :
    Connection :=
  { c with stage, reports := c.reports ++ reports }

/-- What a step does; a step that is not possible does nothing. -/
def step (c : Connection) (heard : Signals) : Step → Connection
  | .begin =>
    if c.stage = .accepted then c.moveTo (if c.secure then .shaking else .idle) [.new] else c
  | .shake failure =>
    if c.stage = .shaking then c.moveTo (if failure.isNone then .idle else .leaving) [] else c
  | .request => if c.stage = .idle then c.moveTo .active [.active] else c
  | .respond => if c.stage = .active then c.moveTo .idle [.idle] else c
  | .drain => if heard.shutdown && c.serves && !c.draining then { c with draining := true } else c
  | .expire =>
    if heard.expires && c.stage = .idle && !c.draining then { c with draining := true } else c
  | .cut => if heard.force && c.serves then c.moveTo .leaving [] else c
  | .leave _ => if c.serves then c.moveTo .leaving [] else c
  | .report => if c.stage = .leaving then c.moveTo .reported [.closed] else c
  | .uncount => if c.stage = .reported then c.moveTo .uncounted [] else c
  | .announce => if c.stage = .uncounted then c.moveTo .gone [] else c

/-- What a step tells about the connection. -/
def news (c : Connection) (heard : Signals) (a : Step) : List ConnectionState :=
  (c.step heard a).reports.drop c.reports.length

/-- What goes wrong in a step: what was being done, and the reason. -/
def failure? (c : Connection) : Step → Option (String × String)
  | .shake failure => if c.stage = .shaking then failure.map ("tls handshake", ·) else none
  | .leave failure =>
    if c.serves then failure.map ("serve connection", ·) else none
  | _ => none

end Connection

end WebHost
