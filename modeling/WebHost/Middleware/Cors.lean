import WebHost.Middleware.Headers
import WebHost.Number.Binary64

/-!
# Cross-origin access

The fields that tell a browser which origins may read a response. A preflight request is answered
without the handler; every answer carries the fields.
-/

set_option autoImplicit false

namespace WebHost

/-- What other origins may do. -/
structure AccessControl where
  allowCredentials : Bool := false
  allowHeaders : List String := []
  allowMethods : List String := []
  allowOrigin : List String := []
  exposeHeaders : List String := []
  maxAge : Duration := .zero
  deriving DecidableEq, Repr

namespace AccessControl

/-- Methods commonly allowed across origins. -/
def commonMethods : List String := ["GET", "POST", "PATCH", "PUT", "DELETE", "OPTIONS"]

/-- The origin that a request names, as far as it names one. -/
def named? (origin : Option String) : Option String := origin.filter (!·.isEmpty)

/-- The origin that may read the answer to a request from an origin. -/
def resolveOrigin (a : AccessControl) (origin : Option String) : Option String :=
  match a.allowOrigin, named? origin with
  | [], _ => none
  | [only], some o => if only = "*" && a.allowCredentials then some o else some only
  | [only], none => some only
  | listed, some o =>
    if (listed.contains "*" && a.allowCredentials) || listed.contains o then some o
    else if listed.contains "*" then some "*" else none
  | listed, none => if listed.contains "*" then some "*" else none

/-- Values in one text; a wildcard among them stands for all. -/
def joined (values : List String) : String :=
  if values.contains "*" then "*" else Text.joinWith ", " values

/-- The largest age that a field can hold. -/
def maxSeconds : Nat := 18446744073709551615

/-- A length of time as the nearest binary64 number of seconds: numerator and denominator. -/
def secondsFraction (d : Duration) : Nat × Nat :=
  let whole := (Binary64.nearest d.seconds 1).getD ⟨0, 0⟩
  let part := (Binary64.nearest d.nanos 1000000000).getD ⟨0, 0⟩
  -- both exponents are at least -1074
  let scaled (x : Binary64) : Nat := x.mantissa * Nat.pow 2 (x.exponent + 1074).toNat
  let sum := (Binary64.nearest (scaled whole + scaled part) (Nat.pow 2 1074)).getD ⟨0, 0⟩
  (scaled sum, Nat.pow 2 1074)

/-- The age in whole seconds, halves upwards; none below one second. -/
def maxAgeSeconds (d : Duration) : Option Nat :=
  let (num, den) := secondsFraction d
  let seconds := (2 * num + den) / (2 * den)
  if 1 ≤ seconds then some (min seconds maxSeconds) else none

/-- A change made where a condition holds. -/
def changeIf (condition : Bool) (change : Headers → Headers) (h : Headers) : Headers :=
  if condition then change h else h

/-- Names the origin that was resolved, and marks the response as one that varies by origin. -/
def writeOrigin (resolved : Option String) (h : Headers) : Headers :=
  match resolved with
  | some allowed =>
    (HeaderModifier.setIfValid "access-control-allow-origin" allowed h).append "vary"
      (Utf8.encode "Origin")
  | none => h

/-- Writes the age, if there is one. -/
def writeAge (age : Option Nat) (h : Headers) : Headers :=
  match age with
  | some seconds => h.setText "access-control-max-age" (toString seconds)
  | none => h

/-- Writes the fields for a request from an origin. -/
def apply (a : AccessControl) (origin : Option String) (h : Headers) : Headers :=
  let h := changeIf a.allowCredentials (·.setText "access-control-allow-credentials" "true") h
  let h := changeIf (!a.allowHeaders.isEmpty)
    (HeaderModifier.setIfValid "access-control-allow-headers" (joined a.allowHeaders)) h
  let h := changeIf (!a.allowMethods.isEmpty)
    (HeaderModifier.setIfValid "access-control-allow-methods" (Text.joinWith ", " a.allowMethods)) h
  let h := writeOrigin (a.resolveOrigin origin) h
  let h := changeIf (!a.exposeHeaders.isEmpty)
    (HeaderModifier.setIfValid "access-control-expose-headers" (joined a.exposeHeaders)) h
  writeAge (maxAgeSeconds a.maxAge) h

/-- The fields for a request that names no origin. -/
def modifier (a : AccessControl) : HeaderModifier := HeaderModifier.ofChange (a.apply none)

/-- Whether a request only asks what a later request may do. -/
def isPreflight (request : Request) : Bool :=
  request.method = "OPTIONS" && request.headers.contains "access-control-request-method"

/-- Cross-origin access as middleware. -/
def middleware (a : AccessControl) : Middleware where
  name := "cors"
  around next request := do
    let origin := request.headers.text? "origin"
    let response ← if isPreflight request then pure (Response.empty 204) else next.run request
    return { response with headers := a.apply origin response.headers }

end AccessControl

end WebHost
