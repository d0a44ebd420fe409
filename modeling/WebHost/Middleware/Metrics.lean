import WebHost.Middleware.AccessLog

/-!
# Metrics

A collector measures every request that passes through it and tells its recorders when the request
begins, what was measured once it is complete, and when it is over. A request that is dropped is
over, too, so what begins always ends.
-/

set_option autoImplicit false

namespace WebHost

/-- Receives what a collector measures. -/
structure Recorder where
  started : RequestInfo → String → List Event := fun _ _ => []
  finished : RequestInfo → String → List Event := fun _ _ => []
  completed : Measurement → RequestInfo → List Event

namespace Recorder

/-- Hands on everything it is told. -/
def handOn : Recorder where
  started info server := [.started info server]
  finished info server := [.finished info server]
  completed m info := [.measured m info]

/-- Only tallies completed requests. -/
def tally : Recorder where
  completed m info := [.tallied m.status m.written info.uri]

/-- Records only responses of some classes; beginnings and ends always pass. -/
def limited (classes : StatusClasses) (inner : Recorder) : Recorder :=
  { inner with completed := fun m info =>
      if classes.covers m.status then inner.completed m info else [] }

end Recorder

/-- The names of the metrics of a server. -/
structure MetricNames where
  activeRequests : String
  requestsTotal : String
  duration : String
  responseSize : String
  deriving DecidableEq, Repr

namespace MetricNames

/-- The part of a metric's name that stands for the kind of server. -/
def defaultSubsystem : String := "http_server"

/-- The names of metrics in a namespace and a subsystem; empty parts are left out. -/
def of (ns subsystem : String) : MetricNames :=
  let name := fun metric => Text.joinWith "_" ([ns, subsystem, metric].filter (!·.isEmpty))
  ⟨name "active_requests", name "requests_total", name "duration_ms", name "response_size_bytes"⟩

/-- The descriptions of the metrics. -/
def describe (names : MetricNames) : List Event :=
  [.described .gauge names.activeRequests "count"
      "Number of HTTP requests currently being processed",
    .described .counter names.requestsTotal "count" "Total number of HTTP requests processed",
    .described .histogram names.duration "milliseconds" "HTTP request duration in milliseconds",
    .described .histogram names.responseSize "bytes" "HTTP response body size in bytes"]

/-- Keeps the metrics of a server: a gauge of requests in flight, a counter and two histograms. -/
def recorder (names : MetricNames) : Recorder where
  started _ server := [.metric .raiseGauge names.activeRequests [("server", server)] (some 1)]
  finished _ server := [.metric .lowerGauge names.activeRequests [("server", server)] (some 1)]
  completed m info :=
    let labels := [("server", m.serverName), ("handler", m.handlerName), ("method", info.method),
      ("code", toString m.status)]
    [.metric .addCount names.requestsTotal labels (some 1),
      .metric .observe names.duration labels none,
      .metric .observe names.responseSize labels (some m.written)]

end MetricNames

namespace Collector

/-- A collector as a report shows it. -/
def report (recorders active : Nat) : String :=
  "Collector \x7b recorders: " ++ toString recorders ++ ", active_requests: " ++ toString active ++
    " \x7d"

/-- What is measured of a completed request. -/
def measure (notes : Notes) (response : Response) (server : String) (traffic : Nat) :
    Measurement where
  status := response.status
  written := response.size
  traffic := traffic
  serverName := server
  handlerName := notes.handlerName.getD ""

/-- A collector as middleware. The counter holds the number of requests inside it. Without
recorders a request passes untouched. -/
def middleware (counter : Nat) (recorders : List Recorder) : Middleware where
  name := "metrics"
  around next request :=
    if recorders.isEmpty then next.run request
    else do
      let (handle, request) ← request.ensureNotes
      let info ← request.info
      let server ← request.serverName
      Job.change (·.enter counter)
      let traffic ← Job.read (·.countAt counter)
      Job.change (·.noteAll (recorders.flatMap (·.started info server)))
      let finish : Change := fun l =>
        (l.leave counter).noteAll (recorders.flatMap (·.finished info server))
      Job.under finish do
        let response ← next.run request
        let notes ← Job.read (·.notesAt handle)
        if !notes.ignore then
          let m := measure notes response server traffic
          Job.change (·.noteAll (recorders.flatMap (·.completed m info)))
        return response

end Collector

end WebHost
