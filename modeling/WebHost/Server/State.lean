/-!
# States of a server

A server is started, stopped and started again. Each operation is allowed in some states only; in
any other state it is refused with its own reason.
-/

set_option autoImplicit false

namespace WebHost

/-- Where a server stands in its life. -/
inductive ServerState where
  /-- Never started. -/
  | unstarted
  /-- Accepting and serving connections. -/
  | started
  /-- The last run ended with an error. -/
  | errored
  /-- A graceful shutdown is going on. -/
  | closing
  /-- Stopped; it may be started again. -/
  | closed
  deriving DecidableEq, Repr, Inhabited

namespace ServerState

/-- The name of a state. -/
def text : ServerState → String
  | .unstarted => "unstarted"
  | .started => "started"
  | .errored => "errored"
  | .closing => "closing"
  | .closed => "closed"

/-- The name of a state in a report. -/
def report : ServerState → String
  | .unstarted => "Unstarted"
  | .started => "Started"
  | .errored => "Errored"
  | .closing => "Closing"
  | .closed => "Closed"

/-- Whether a server in this state may be started. -/
def mayStart : ServerState → Bool
  | .started | .closing => false
  | .unstarted | .errored | .closed => true

end ServerState

/-- The operation that a state forbade. -/
inductive Refusal where
  | alreadyStarted
  | unableToStart
  | unableToShutdown
  | unableToClose
  deriving DecidableEq, Repr

namespace Refusal

/-- The name of a refusal. -/
def report : Refusal → String
  | .alreadyStarted => "AlreadyStarted"
  | .unableToStart => "UnableToStart"
  | .unableToShutdown => "UnableToShutdown"
  | .unableToClose => "UnableToClose"

/-- A refusal in words. -/
def text : Refusal → String
  | .alreadyStarted => "server has already started"
  | .unableToStart => "unable to start server"
  | .unableToShutdown => "unable to shutdown server"
  | .unableToClose => "unable to close server"

/-- The message of an operation refused in a state. -/
def message (refusal : Refusal) (state : ServerState) : String :=
  refusal.text ++ ": unexpected state " ++ state.text

end Refusal

end WebHost
