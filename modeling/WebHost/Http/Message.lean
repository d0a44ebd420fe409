import WebHost.Http.Headers
import WebHost.Http.Uri
import WebHost.Json.Value

/-!
# Requests and responses

Messages have whole bodies. A request also carries what the host attaches to it on its way: a
handle on its notes, the parameters of the route that matched it, and whatever else is attached to
every request.
-/

set_option autoImplicit false

namespace WebHost

/-- A version of the protocol. -/
inductive Version where
  | http09
  | http10
  | http11
  | http2
  | http3
  deriving DecidableEq, Repr, Inhabited

/-- A version as a request line writes it. -/
def Version.text : Version → String
  | .http09 => "HTTP/0.9"
  | .http10 => "HTTP/1.0"
  | .http11 => "HTTP/1.1"
  | .http2 => "HTTP/2.0"
  | .http3 => "HTTP/3.0"

/-- The values captured by the wildcards of a route, in the order of the pattern. -/
abbrev PathParams := List (String × String)

/-- The value captured for a name; of equal names the first one counts. -/
def PathParams.get? (params : PathParams) (name : String) : Option String :=
  (params.find? (·.1 = name)).map (·.2)

/-- Something that is attached to a request. It is found by its kind, of which a request has one. -/
structure Extension where
  kind : String
  content : String := ""
  deriving DecidableEq, Repr

/-- What is attached to a request. -/
abbrev Extensions := List Extension

/-- More is attached, in place of what was there of the same kinds. -/
def Extensions.extend (own more : Extensions) : Extensions :=
  own.filter (fun e => !more.any (·.kind = e.kind)) ++ more

/-- What makes a request wait at the gates that it meets. -/
def Extension.gate : Extension := ⟨"gate", ""⟩

/-- A request on its way through the host. -/
structure Request where
  method : String := "GET"
  uri : Uri := ⟨none, none, "/", none⟩
  version : Version := .http11
  headers : Headers := {}
  body : Bytes := []
  /-- The handle of the notes attached to the request. -/
  notes : Option Nat := none
  params : Option PathParams := none
  extensions : Extensions := []
  deriving Inhabited

/-- Whether a request waits at the gates that it meets. -/
def Request.isGated (request : Request) : Bool :=
  request.extensions.any (·.kind = Extension.gate.kind)

/-- A response with its whole body. -/
structure Response where
  status : Nat
  headers : Headers := {}
  body : Bytes := []
  deriving DecidableEq, Repr, Inhabited

namespace Response

/-- The media type of plain text. -/
def textType : String := "text/plain; charset=utf-8"

/-- The media type of JSON documents. -/
def jsonType : String := "application/json"

/-- A response without body and headers. -/
def empty (status : Nat) : Response := { status }

/-- A response whose body is text. -/
def text (status : Nat) (body : String) : Response :=
  { status, headers := Headers.empty.setText "content-type" textType, body := Utf8.encode body }

/-- The response to a request that needs no answer. -/
def noContent : Response := empty 204

/-- The response where nothing is found. -/
def notFound : Response := text 404 "404 page not found\n"

/-- A response whose body is a document; a value without a document is an internal error. -/
def json (status : Nat) : Option Json → Response
  | some document =>
    { status, headers := Headers.empty.setText "content-type" jsonType
      body := Utf8.encode document.sorted.compact }
  | none => text 500 "internal server error\n"

/-- The number of bytes in the body. -/
def size (r : Response) : Nat := r.body.length

/-- The status that moves a request elsewhere: permanent for `GET`, and for every other method one
that keeps method and body. -/
def redirectStatus (method : String) : Nat := if method = "GET" then 301 else 307

/-- Sends a request elsewhere; a place that no header can hold is a bad request. -/
def redirect (method location : String) : Response :=
  let value := Utf8.encode location
  if isHeaderValue value then
    { status := redirectStatus method, headers := Headers.empty.set "location" value }
  else empty 400

end Response

end WebHost
