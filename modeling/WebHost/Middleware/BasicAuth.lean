import WebHost.Encoding.Sha256
import WebHost.Middleware.Headers

/-!
# Basic authentication

A gate in front of a handler that lets a request through only with the right user and password.
The gate keeps digests of the expected credentials and compares digests.
-/

set_option autoImplicit false

namespace WebHost

/-- Reads user and password from the encoded part of an authorization field. -/
def Credentials.decodeBasic? (encoded : List Char) : Option (String × String) := do
  let bytes ← Base64.decode? (String.ofList (Text.trim encoded))
  let text ← Utf8.decode? bytes
  let (user, pass) ← Text.cutFirst ':' text.toList
  return (String.ofList user, String.ofList pass)

/-- Reads user and password from the text of an authorization field whose scheme is basic. -/
def Credentials.readBasic? (value : List Char) : Option (String × String) := do
  let (scheme, encoded) ← Text.cutFirst ' ' value
  guard (Text.sameIgnoringCase (String.ofList scheme) "basic")
  Credentials.decodeBasic? encoded

/-- The user and password that a request presents. -/
def Request.basicCredentials? (request : Request) : Option (String × String) := do
  let value ← request.headers.text? "authorization"
  Credentials.readBasic? (Text.trim value.toList)

/-- The expected credentials. -/
structure BasicAuth where
  user : Bytes
  pass : Bytes
  enabled : Bool
  deriving DecidableEq, Repr

namespace BasicAuth

/-- Expects a user and a password; an empty password lets every request through. -/
def expect (user pass : String) : BasicAuth where
  user := Sha256.digest (Utf8.encode user)
  pass := Sha256.digest (Utf8.encode pass)
  enabled := !pass.isEmpty

/-- Whether two digests are the same. The differences of all bytes are gathered first, so how long
it takes does not tell where they differ. -/
def sameDigest (a b : Bytes) : Bool :=
  (a.zip b).foldl (fun gathered (x, y) => gathered ||| (x ^^^ y)) (0 : UInt8) == 0

/-- Whether a user and a password are the expected ones. Both are compared in any case. -/
def accepts (auth : BasicAuth) (user pass : String) : Bool :=
  let userAgrees := sameDigest auth.user (Sha256.digest (Utf8.encode user))
  let passAgrees := sameDigest auth.pass (Sha256.digest (Utf8.encode pass))
  userAgrees && passAgrees

/-- Whether a request presents the expected credentials. -/
def authorized (auth : BasicAuth) (request : Request) : Bool :=
  match request.basicCredentials? with
  | some (user, pass) => auth.accepts user pass
  | none => false

/-- The challenge that asks for credentials. -/
def challenge : String := "Basic charset=\"UTF-8\""

/-- The answer to a request without the right credentials. -/
def unauthorized : Response :=
  let r := Response.text 401 "Unauthorized\n"
  { r with headers := r.headers.setText "www-authenticate" challenge }

/-- The gate as a report shows it. -/
def report (auth : BasicAuth) : String :=
  "BasicAuth \x7b enabled: " ++ (if auth.enabled then "true" else "false") ++ ", .. \x7d"

/-- The gate as middleware. -/
def middleware (auth : BasicAuth) : Middleware where
  name := "basic_auth"
  around next request :=
    if !auth.enabled || auth.authorized request then next.run request else pure unauthorized

end BasicAuth

end WebHost
