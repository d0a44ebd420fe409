import WebHost.Config.Schema
import WebHost.Json.Access
import WebHost.Server.Error

/-!
# Errors as documents

An error is shown as a document that names its kind, words it, and carries what it is about.
-/

set_option autoImplicit false

namespace WebHost

/-- The document of an error of a kind. -/
def Json.error (kind : String) (more : List (String × Json)) : Json :=
  .obj (("error", .str kind) :: more)

/-- A wording, if there is one, as a member. -/
def Json.wording (message : Option String) : List (String × Json) :=
  (message.map fun m => ("message", Json.str m)).toList

/-- An error of a port or an address as a document. -/
def PortError.toJson (e : PortError) : Json :=
  let kind :=
    match e.fault with
    | .missingPort => "MissingPort"
    | .invalidFormat => "InvalidFormat"
    | _ => "Address"
  .error kind [("message", .str e.message), ("input", .str e.input),
    ("cause", .ofOption (fun c => .str c.message) e.cause),
    ("missing", .bool (e.fault = .missingPort)), ("invalid", .bool (e.fault = .invalidFormat))]

/-- An error of a route as a document. -/
def RouteError.toJson (e : RouteError) : Json :=
  match e with
  | .invalidPattern pattern fault =>
    .error "InvalidPattern" [("message", .str e.message), ("pattern", .str pattern),
      ("reason", .str fault.message)]
  | .conflict key => .error "Conflict" [("message", .str e.message), ("key", .str key)]

/-- An error of a configuration as a document. -/
def ConfigError.toJson (e : ConfigError) : Json :=
  let (kind, more) : String × List (String × String) :=
    match e with
    | .fileNotFound _ => ("FileNotFound", [])
    | .unreadable _ => ("ReadError", [])
    | .unsupportedFormat _ => ("UnsupportedFormat", [])
    | .invalidToml => ("TomlError", [])
    | .invalidJson => ("JsonError", [])
    | .invalidValue field reason => ("InvalidValue", [("field", field), ("reason", reason)])
    | .invalidVariable name reason => ("EnvParseError", [("var", name), ("reason", reason)])
  .error kind (Json.wording e.message? ++ more.map fun (k, v) => (k, .str v))

mutual

/-- An error of a server as a document, given what one of secure connections looks like. -/
def ServerError.toJson (tls : TlsError → Json) : ServerError → Json
  | .closed => .error "Closed" [("message", .str "server closed"), ("closed", .bool true)]
  | .deadlineExceeded =>
    .error "DeadlineExceeded" [("message", .str "shutdown deadline exceeded"),
      ("deadline", .bool true)]
  | .tls e => .error "Tls" [("tls", tls e)]
  | .port e => .error "Port" [("port", e.toJson)]
  | .route e => .error "Route" [("route", e.toJson)]
  | .invalidState refusal state =>
    .error "InvalidState" [("message", .str (refusal.message state)),
      ("reason", .str refusal.report), ("state", .str state.text)]
  | .options errors =>
    .error "Options" [("message", .ofOption .str (ServerError.options errors).message?),
      ("errors", .arr (serverErrorsToJson tls errors))]
  | .bind address reason =>
    .error "Bind" [("message", .ofOption .str (ServerError.bind address reason).message?),
      ("addr", .str address)]
  | .accept reason =>
    .error "Accept" [("message", .ofOption .str (ServerError.accept reason).message?)]

/-- Errors of a server as documents. -/
def serverErrorsToJson (tls : TlsError → Json) : List ServerError → List Json
  | [] => []
  | e :: rest => e.toJson tls :: serverErrorsToJson tls rest

end

end WebHost
