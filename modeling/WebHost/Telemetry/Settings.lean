import WebHost.Json.Record
import WebHost.Middleware.Metrics
import WebHost.Telemetry.Filter

/-!
# Logs and metrics of a program

What a program logs and measures is configured by two records. The environment may name a filter
that takes the place of the configured one, unless it is blank.
-/

set_option autoImplicit false

namespace WebHost

/-- What a program logs. -/
structure LogSettings where
  enabled : Bool
  /-- A level or a filter. -/
  level : String
  /-- One JSON object for each message instead of a text for people. -/
  jsonFormat : Bool
  includeTarget : Bool
  includeLocation : Bool
  /-- Also report where spans begin and end. -/
  spanEvents : Bool
  deriving DecidableEq, Repr

namespace LogSettings

/-- Logs for people at work on a program. -/
def development : LogSettings where
  enabled := true
  level := "debug"
  jsonFormat := false
  includeTarget := true
  includeLocation := true
  spanEvents := true

/-- Logs for machines. -/
def production : LogSettings where
  enabled := true
  level := "info"
  jsonFormat := true
  includeTarget := true
  includeLocation := false
  spanEvents := false

/-- The fields of a configuration of logs, in order. -/
def fields : List (Field LogSettings) :=
  [.flag "enabled" fun v s => { s with enabled := v },
    .text "level" fun v s => { s with level := v },
    .flag "json_format" fun v s => { s with jsonFormat := v },
    .flag "include_target" fun v s => { s with includeTarget := v },
    .flag "include_location" fun v s => { s with includeLocation := v },
    .flag "span_events" fun v s => { s with spanEvents := v }]

/-- Reads a configuration of logs; what it leaves out is as in production. -/
def ofJson? (surplus : Surplus) (document : Json) : Option LogSettings :=
  Record.decode surplus fields production document

/-- A configuration of logs as a document. -/
def toJson (s : LogSettings) : Json :=
  .obj [("enabled", .bool s.enabled), ("level", .str s.level), ("json_format", .bool s.jsonFormat),
    ("include_target", .bool s.includeTarget), ("include_location", .bool s.includeLocation),
    ("span_events", .bool s.spanEvents)]

/-- The text of the filter that holds: the one of the environment, unless it is blank. -/
def filterText (s : LogSettings) (environment : Option String) : String :=
  match environment with
  | some text => if (Text.trim text.toList).isEmpty then s.level else text
  | none => s.level

/-- What comes of setting up the log. -/
inductive Outcome where
  /-- Logging is switched off. -/
  | off
  | installed (filter : LogFilter)
  | invalidFilter (text : String)
  /-- There is a log already. -/
  | alreadyInstalled
  deriving DecidableEq, Repr

/-- Sets up the log, unless there is one already. -/
def install (s : LogSettings) (environment : Option String) (installed : Bool) : Outcome :=
  if !s.enabled then .off
  else
    match LogFilter.parse? (s.filterText environment) with
    | none => .invalidFilter (s.filterText environment)
    | some filter => if installed then .alreadyInstalled else .installed filter

/-- The message that there is a log already. -/
def alreadyInstalledMessage : String := "logging is already initialized"

end LogSettings

/-- What a program measures. -/
structure MetricsSettings where
  enabled : Bool := true
  /-- The first part of the names of metrics. -/
  namespace_ : String := "serv"
  /-- The second part of the names of metrics. -/
  subsystem : String := MetricNames.defaultSubsystem
  deriving DecidableEq, Repr

namespace MetricsSettings

/-- The fields of a configuration of metrics, in order. -/
def fields : List (Field MetricsSettings) :=
  [.flag "enabled" fun v s => { s with enabled := v },
    .text "namespace" fun v s => { s with namespace_ := v },
    .text "subsystem" fun v s => { s with subsystem := v }]

/-- Reads a configuration of metrics over the defaults. -/
def ofJson? (surplus : Surplus) (document : Json) : Option MetricsSettings :=
  Record.decode surplus fields {} document

/-- A configuration of metrics as a document. -/
def toJson (s : MetricsSettings) : Json :=
  .obj [("enabled", .bool s.enabled), ("namespace", .str s.namespace_),
    ("subsystem", .str s.subsystem)]

/-- The names of the metrics, if anything is measured. -/
def names? (s : MetricsSettings) : Option MetricNames :=
  if s.enabled then some (MetricNames.of s.namespace_ s.subsystem) else none

end MetricsSettings

end WebHost
