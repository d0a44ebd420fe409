import WebHost.Handler.Ledger
import WebHost.Json.Access

/-!
# Responses and events as documents

What a server answers and reports can be shown as documents: responses with their fields sorted by
name, the requests in logs, and the events that loggers, recorders and hooks receive.
-/

set_option autoImplicit false

namespace WebHost

/-- Fields as a document, sorted by name; fields of one name stay in order. -/
def Headers.toJson (h : Headers) : Json :=
  .arr ((h.fields.mergeSort fun a b => a.1 ≤ b.1).map fun (name, value) =>
    .arr [.str name, .ofBytes value])

/-- A response as a document. -/
def Response.toJson (r : Response) : Json :=
  .obj [("status", .ofNat r.status), ("headers", r.headers.toJson), ("len", .ofNat r.size),
    ("body", .ofBytes r.body)]

/-- The notes on a request as a document. -/
def Notes.toJson (n : Notes) : Json :=
  .obj [("remote", .ofOption (fun a => .str a.text) n.remote), ("secure", .bool n.secure),
    ("server_name", .ofOption .str n.serverName), ("handler_name", .ofOption .str n.handlerName),
    ("ignore", .bool n.ignore)]

/-- What is logged of a request as a document. -/
def RequestInfo.toJson (i : RequestInfo) : Json :=
  .obj [("remote_host", .str i.remoteHost), ("method", .str i.method), ("uri", .str i.uri),
    ("proto", .str i.version.text), ("username", .ofOption .str i.username)]

/-- An entry of an access log as a document. -/
def AccessRecord.toJson (a : AccessRecord) (i : RequestInfo) : Json :=
  .obj [("server_name", .str a.serverName), ("handler_name", .str a.handlerName),
    ("user_agent", .str a.userAgent), ("status", .ofNat a.status),
    ("bytes_written", .ofNat a.bytesWritten), ("request_count", .ofNat a.requestCount),
    ("request", i.toJson)]

/-- What was measured of a request as a document. -/
def Measurement.toJson (m : Measurement) (i : RequestInfo) : Json :=
  .obj [("code", .ofNat m.status), ("written", .ofNat m.written), ("traffic", .ofNat m.traffic),
    ("server_name", .str m.serverName), ("handler_name", .str m.handlerName),
    ("request", i.toJson)]

/-- A change of a metric in a word. -/
def MetricChange.word : MetricChange → String
  | .addCount => "counter+"
  | .raiseGauge => "gauge+"
  | .lowerGauge => "gauge-"
  | .observe => "histogram"

/-- A kind of metrics in a word. -/
def MetricKind.word : MetricKind → String
  | .counter => "counter"
  | .gauge => "gauge"
  | .histogram => "histogram"

/-- The name of a channel of the diagnostic log. -/
def Channel.name : Channel → String
  | .server => "serv::server"
  | .access => "serv::access"
  | .program => "serv"

/-- The name of an urgency. -/
def Severity.name : Severity → String
  | .debug => "DEBUG"
  | .info => "INFO"
  | .warn => "WARN"
  | .error => "ERROR"

namespace Event

/-- An event as a document. Streams and the diagnostic log are shown elsewhere. -/
def toJson? : Event → Option Json
  | .line text => some (.obj [("line", .str text)])
  | .access a i => some (.obj [("access", a.toJson i)])
  | .started i server => some (.obj [("started", .ofTexts [i.method, i.uri, server])])
  | .finished i server => some (.obj [("finished", .ofTexts [i.method, i.uri, server])])
  | .measured m i => some (.obj [("record", m.toJson i)])
  | .tallied status written uri =>
    some (.obj [("record_only", .arr [.ofNat status, .ofNat written, .str uri])])
  | .metric change name labels value =>
    let pairs := labels.map fun (label, value) => Json.ofTexts [label, value]
    some (.obj [("metric",
      .arr [.str change.word, .str name, .arr pairs, .ofOption .ofNat value])])
  | .described kind name unit text =>
    some (.obj [("describe", .ofTexts [kind.word, name, unit, text])])
  | .failure context message => some (.obj [("conn_error", .ofTexts [context, message])])
  | .wrote _ | .writeFailed | .trace .. => none

/-- Events as a document. -/
def allToJson (events : List Event) : Json := .arr (events.filterMap toJson?)

/-- A message of the diagnostic log as a document. -/
def traceToJson? : Event → Option Json
  | .trace channel severity message => some (.ofTexts [channel.name, severity.name, message])
  | _ => none

/-- The messages of the diagnostic log among events, as a document. Those for the search of faults
are left out. -/
def tracesToJson (events : List Event) : Json :=
  .arr (events.filterMap fun
    | .trace _ .debug _ => none
    | e => traceToJson? e)

/-- The lines kept in memory among events. -/
def linesOf (events : List Event) : List String :=
  events.filterMap fun
    | .line text => some text
    | _ => none

end Event

end WebHost
