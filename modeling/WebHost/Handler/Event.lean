import WebHost.Http.Message
import WebHost.Net.SocketAddress

/-!
# What serving a request leaves behind

Loggers, recorders and hooks report to the outside. Everything they report is an event; the order
of events is the order in which they happened.
-/

set_option autoImplicit false

namespace WebHost

/-- A moment in a time zone: seconds since the start of 1970 and seconds east of Greenwich. -/
structure ZonedTime where
  seconds : Int := 0
  offset : Int := 0
  deriving DecidableEq, Repr, Inhabited

/-- The parts of a request that logs and metrics need. They are taken before the request is
handled. -/
structure RequestInfo where
  remote : Option SocketAddress
  method : String
  uri : String
  version : Version
  username : Option String
  deriving DecidableEq, Repr

/-- The address of the peer without its port, or a dash. -/
def RequestInfo.remoteHost (info : RequestInfo) : String :=
  match info.remote with
  | some address => address.ip.text
  | none => "-"

/-- What an access log learns about a completed request. -/
structure AccessRecord where
  serverName : String
  handlerName : String
  userAgent : String
  status : Nat
  start : ZonedTime
  bytesWritten : Nat
  /-- Requests in flight through the same log when this one entered, itself included. -/
  requestCount : Nat
  deriving DecidableEq, Repr

/-- What a collector measures of a completed request. -/
structure Measurement where
  status : Nat
  written : Nat
  /-- Requests in flight through the same collector when this one entered, itself included. -/
  traffic : Nat
  serverName : String
  handlerName : String
  deriving DecidableEq, Repr

/-- The channels of the diagnostic log. -/
inductive Channel where
  | server
  | access
  | program
  deriving DecidableEq, Repr

/-- How urgent a diagnostic message is. -/
inductive Severity where
  | debug
  | info
  | warn
  | error
  deriving DecidableEq, Repr

/-- A change of a metric. -/
inductive MetricChange where
  | addCount
  | raiseGauge
  | lowerGauge
  | observe
  deriving DecidableEq, Repr

/-- The kinds of metrics. -/
inductive MetricKind where
  | counter
  | gauge
  | histogram
  deriving DecidableEq, Repr

/-- Something that happened while the host served requests. -/
inductive Event where
  /-- A line kept in memory. -/
  | line (text : String)
  /-- Bytes written to a stream in one piece. -/
  | wrote (bytes : Bytes)
  /-- A write that the stream refused. -/
  | writeFailed
  /-- A diagnostic message. -/
  | trace (channel : Channel) (severity : Severity) (message : String)
  | access (entry : AccessRecord) (info : RequestInfo)
  | started (info : RequestInfo) (server : String)
  | finished (info : RequestInfo) (server : String)
  | measured (measurement : Measurement) (info : RequestInfo)
  | tallied (status written : Nat) (uri : String)
  /-- A metric changed. The value is absent where it is a length of time. -/
  | metric (change : MetricChange) (name : String) (labels : List (String × String))
      (value : Option Nat)
  | described (kind : MetricKind) (name unit text : String)
  /-- A connection or an accept loop failed. -/
  | failure (context message : String)
  deriving DecidableEq, Repr

/-- Where lines of text go. -/
inductive Sink where
  | memory
  | stream
  | brokenStream
  | diagnostics (channel : Channel)
  deriving DecidableEq, Repr

/-- The event that writing a line causes. A stream receives the line and its break in one piece. -/
def Sink.write : Sink → String → Event
  | .memory, line => .line line
  | .stream, line => .wrote (Utf8.encode (line ++ "\n"))
  | .brokenStream, _ => .writeFailed
  | .diagnostics channel, line => .trace channel .info line

end WebHost
