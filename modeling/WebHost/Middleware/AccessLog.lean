import WebHost.Http.StatusClass
import WebHost.Middleware.BasicAuth
import WebHost.Time.Civil

/-!
# The access log

The access log takes down every request that passes through it, once its response is known. A line
is written in one of two formats. Requests that were marked as to be ignored are not logged.
-/

set_option autoImplicit false

namespace WebHost

namespace RequestInfo

/-- The user that the target of a request names. -/
def userOfUri? (uri : Uri) : Option String := do
  let authority ← uri.authority
  let (userInfo, _) ← Text.cutLast '@' authority.toList
  let user := userInfo.takeWhile (· ≠ ':')
  guard (!user.isEmpty)
  return String.ofList user

/-- The user that the authorization field of a request names. -/
def userOfHeader? (headers : Headers) : Option String := do
  let value ← headers.text? "authorization"
  let (user, _) ← Credentials.readBasic? value.toList
  guard (!user.isEmpty)
  return user

/-- The user that a request names: in its target, or else in its authorization field. -/
def user? (request : Request) : Option String :=
  (userOfUri? request.uri).or (userOfHeader? request.headers)

/-- The parts of a request that logs need, with the address its notes hold. -/
def of (request : Request) (remote : Option SocketAddress) : RequestInfo where
  remote := remote
  method := request.method
  uri := request.uri.text
  version := request.version
  username := user? request

end RequestInfo

namespace Request

/-- The parts of a request that logs need. -/
def info (request : Request) : Job RequestInfo := do
  return RequestInfo.of request (← request.readNotes (·.remote))

/-- The text of the user-agent field, or nothing. -/
def userAgent (request : Request) : String := (request.headers.text? "user-agent").getD ""

end Request

namespace AccessRecord

/-- A text, with a dash for nothing. -/
def orDash (s : String) : String := if s.isEmpty then "-" else s

/-- The request line of a log entry, in quotes. -/
def requestLine (info : RequestInfo) : String :=
  "\"" ++ info.method ++ " " ++ info.uri ++ " " ++ info.version.text ++ "\""

/-- A log line that names the route. -/
def genericLine (entry : AccessRecord) (info : RequestInfo) : String :=
  info.remoteHost ++ " " ++ orDash entry.handlerName ++ " " ++ requestLine info ++ " " ++
    toString entry.status ++ " " ++ toString entry.bytesWritten ++ "b"

/-- A year of at least four digits; years outside 0 to 9999 carry a sign. -/
def yearText (year : Int) : String :=
  if 0 ≤ year ∧ year ≤ 9999 then Numeral.padded 4 year.toNat
  else (if year < 0 then "-" else "+") ++ Numeral.padded 4 year.natAbs

/-- The distance from Greenwich in hours and minutes, rounded to the nearest minute. -/
def offsetText (offset : Int) : String :=
  let minutes := (offset.natAbs + 30) / 60
  (if offset < 0 then "-" else "+") ++ Numeral.twoDigits (minutes / 60) ++
    Numeral.twoDigits (minutes % 60)

/-- A moment as the common log format writes it. -/
def timeText (t : ZonedTime) : String :=
  let d := DateTime.ofSeconds (t.seconds + t.offset)
  Numeral.twoDigits d.date.day ++ "/" ++ CivilDate.monthName d.date.month ++ "/" ++
    yearText d.date.year ++ ":" ++ Numeral.twoDigits d.hour ++ ":" ++
    Numeral.twoDigits d.minute ++ ":" ++ Numeral.twoDigits d.second ++ " " ++ offsetText t.offset

/-- A log line in the common log format. -/
def commonLine (entry : AccessRecord) (info : RequestInfo) : String :=
  info.remoteHost ++ " - " ++ orDash (info.username.getD "") ++ " [" ++ timeText entry.start ++
    "] " ++ requestLine info ++ " " ++ toString entry.status ++ " " ++ toString entry.bytesWritten

end AccessRecord

/-- What an access log does with an entry: the events it causes. -/
abbrev AccessLogger := AccessRecord → RequestInfo → List Event

namespace AccessLogger

/-- Discards every entry. -/
def discard : AccessLogger := fun _ _ => []

/-- Writes lines that name the route. -/
def generic (sink : Sink) : AccessLogger := fun entry info => [sink.write (entry.genericLine info)]

/-- Writes lines in the common log format. -/
def common (sink : Sink) : AccessLogger := fun entry info => [sink.write (entry.commonLine info)]

/-- Hands entries on as they are. -/
def handOn : AccessLogger := fun entry info => [.access entry info]

/-- Logs only responses of some classes. -/
def limited (classes : StatusClasses) (inner : AccessLogger) : AccessLogger := fun entry info =>
  if classes.covers entry.status then inner entry info else []

/-- Logs entries as if their requests had come at a given time. -/
def startingAt (t : ZonedTime) (inner : AccessLogger) : AccessLogger := fun entry info =>
  inner { entry with start := t } info

end AccessLogger

namespace AccessLog

/-- An access log as a report shows it. -/
def report (active : Nat) : String :=
  "AccessLog \x7b active_requests: " ++ toString active ++ ", .. \x7d"

/-- The entry of a completed request. -/
def entryOf (notes : Notes) (response : Response) (userAgent : String) (start : ZonedTime)
    (count : Nat) : AccessRecord where
  serverName := notes.serverName.getD ""
  handlerName := notes.handlerName.getD ""
  userAgent := userAgent
  status := response.status
  start := start
  bytesWritten := response.size
  requestCount := count

/-- An access log as middleware. The counter holds the number of requests inside it. -/
def middleware (counter : Nat) (logger : AccessLogger) : Middleware where
  name := "access_log"
  around next request := do
    let start ← Job.read (·.clock)
    Job.change (·.enter counter)
    let count ← Job.read (·.countAt counter)
    Job.under (·.leave counter) do
      let (handle, request) ← request.ensureNotes
      let info ← request.info
      let response ← next.run request
      let notes ← Job.read (·.notesAt handle)
      if !notes.ignore then
        Job.change (·.noteAll (logger (entryOf notes response request.userAgent start count) info))
      return response

end AccessLog

end WebHost
