import WebHost.Handler.Event

/-!
# Lifecycle logs

A server tells its logger when it starts, shuts down and closes. A logger that writes lines also
takes the errors of connections and of the accept loop, unless another place is named for them.
-/

set_option autoImplicit false

namespace WebHost

/-- What a server tells its logger. -/
inductive Milestone where
  | started (address : String)
  | startedSecure (address certificate key : String)
  | shuttingDown
  | closing
  deriving DecidableEq, Repr

namespace Milestone

/-- A milestone in words. A secure start names its files unless it was given none. -/
def text : Milestone → String
  | .started address => "starting on " ++ address
  | .startedSecure address certificate key =>
    if certificate.isEmpty && key.isEmpty then "starting on " ++ address ++ " (tls)"
    else "starting on " ++ address ++ " (tls, cert: " ++ certificate ++ ", key: " ++ key ++ ")"
  | .shuttingDown => "shutting down"
  | .closing => "closing"

/-- The line for a milestone of the server with a name. -/
def line (name : String) (m : Milestone) : String :=
  if name.isEmpty then "server " ++ m.text else "server " ++ name ++ " " ++ m.text

end Milestone

/-- Where errors of connections and of the accept loop go: the events of an error, with what was being
done. -/
structure ErrorSink where
  log : String → String → List Event

/-- Where the milestones of a server go: the events of a milestone, with the name of the server. A logger
may offer a place for errors too. -/
structure Logger where
  log : String → Milestone → List Event
  errorSink? : Option ErrorSink := none

namespace ErrorSink

/-- A line for each error. -/
def lines (sink : Sink) : ErrorSink where
  log context message := [sink.write ("server error: " ++ context ++ ": " ++ message)]

/-- A warning in the diagnostic log. It says what was being done and carries the error beside it. -/
def warnings : ErrorSink where
  log context _ := [.trace .server .warn context]

/-- The error itself. -/
def handOn : ErrorSink where
  log context message := [.failure context message]

/-- Nothing is logged. -/
def discard : ErrorSink where
  log _ _ := []

/-- Where a server's errors go: to the place that is named, else to what its logger offers, else
they become warnings. -/
def choose (named : Option ErrorSink) (logger : Logger) : ErrorSink :=
  (named.orElse fun _ => logger.errorSink?).getD .warnings

end ErrorSink

namespace Logger

/-- A line for each milestone and for each error. -/
def lines (sink : Sink) : Logger where
  log name m := [sink.write (m.line name)]
  errorSink? := some (.lines sink)

/-- Nothing is logged. -/
def discard : Logger where
  log _ _ := []

/-- A logger of lines as a report shows it. -/
def report : String := "DefaultLogger \x7b .. \x7d"

end Logger

end WebHost
