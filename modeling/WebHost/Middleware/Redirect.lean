import WebHost.Handler.Chain

/-!
# Redirecting requests

Two middleware that send a request elsewhere before the handler sees it: to the secure scheme, and
to the path without trailing slashes.
-/

set_option autoImplicit false

namespace WebHost

/-- The host that the text of a host field names, if the text is an authority. -/
def Uri.hostOfField? (text : String) : Option String :=
  let chars := text.toList
  if !chars.isEmpty && !chars.any Uri.endsAuthority && Uri.isAuthority chars then
    some (Uri.hostOf text)
  else none

namespace Redirect

/-- The host that a request is for: that of its target, or else of its host field. -/
def host? (request : Request) : Option String :=
  match request.uri.host? with
  | some host => some host
  | none => (request.headers.text? "host").bind Uri.hostOfField?

/-- The secure place of a request that is not for the secure scheme. -/
def secureLocation? (request : Request) : Option String :=
  if request.uri.scheme = some "https" then none
  else (host? request).map fun host => "https://" ++ host ++ request.uri.pathAndQuery?.getD "/"

/-- Sends requests to the secure scheme, unless they came over a secure connection or name no
host. -/
def toHttps : Middleware where
  name := "redirect_https"
  around next request := do
    let secure ← request.readNotes (·.secure)
    match secureLocation? request with
    | some location =>
      if secure then next.run request else return Response.redirect request.method location
    | none => next.run request

/-- The place of a request without the slashes at the end of its path; the root stays. -/
def slashlessLocation? (request : Request) : Option String :=
  let path := request.uri.path.toList
  if path = ['/'] || path.getLast? ≠ some '/' then none
  else
    let trimmed := Text.dropTrailing '/' path
    let target := if trimmed.isEmpty then "/" else String.ofList trimmed
    some (match request.uri.query with
      | some query => target ++ "?" ++ query
      | none => target)

/-- Sends requests for paths that end in slashes to the path without them. -/
def removeTrailingSlash : Middleware where
  name := "remove_trailing_slash"
  around next request :=
    match slashlessLocation? request with
    | some location => pure (Response.redirect request.method location)
    | none => next.run request

end Redirect

end WebHost
