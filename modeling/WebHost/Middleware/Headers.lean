import WebHost.Encoding.Base64
import WebHost.Handler.Chain
import WebHost.Middleware.CacheControl
import WebHost.Time.HttpDate

/-!
# Changing header fields

A header modifier changes a header map, or breaks down on a date that cannot be written. As
middleware it provides defaults: a field that the handler set stays as the handler set it.
-/

set_option autoImplicit false

namespace WebHost

/-- A change of header fields. -/
abbrev HeaderModifier := Headers → Except HttpDate.Fault Headers

namespace HeaderModifier

/-- A modifier that always succeeds. -/
def ofChange (change : Headers → Headers) : HeaderModifier := fun h => .ok (change h)

/-- Sets a field to a text; a text that no field can hold leaves the fields alone. -/
def setIfValid (name value : String) (h : Headers) : Headers :=
  let bytes := Utf8.encode value
  if isHeaderValue bytes then h.set name bytes else h

/-- Sets a field to a date. -/
def date (name : String) (t : HttpDate.Timestamp) : HeaderModifier := fun h =>
  (HttpDate.text t).map fun text => setIfValid name text h

/-- The directives of a response that must not be reused. -/
def uncached : CacheControl := { isPrivate := true, noCache := true }

/-- Marks a response as not to be reused: it expired long ago. -/
def noCache : HeaderModifier :=
  ofChange fun h => uncached.modify (setIfValid "expires" (HttpDate.textOfSeconds 0) h)

/-- A kind of data that a site may be told to clear. -/
inductive SiteData where
  | all
  | cache
  | cookies
  | storage
  | executionContexts
  deriving DecidableEq, Repr

/-- The word for a kind of data. -/
def SiteData.word : SiteData → String
  | .all => "*"
  | .cache => "cache"
  | .cookies => "cookies"
  | .storage => "storage"
  | .executionContexts => "executionContexts"

/-- Asks for data to be cleared; without any kind of data the field is removed. -/
def clearSiteData (kinds : List SiteData) : HeaderModifier := ofChange fun h =>
  let h := h.erase "clear-site-data"
  if kinds.isEmpty then h
  else setIfValid "clear-site-data" (Text.joinWith ", " (kinds.map fun k => "\"" ++ k.word ++ "\"")) h

/-- Applies modifiers in order. -/
def applyAll : List HeaderModifier → HeaderModifier
  | [], h => .ok h
  | m :: rest, h =>
    match m h with
    | .ok h => applyAll rest h
    | .error e => .error e

/-- Fields to which defaults are added, with the name whose values are being added; there is none
while values are passed over. -/
structure Filling where
  headers : Headers
  current : Option String := none
  deriving DecidableEq, Repr

/-- Takes the next value of the defaults. Whether a name is there yet is asked at its first value only:
the value itself makes it be there. -/
def Filling.take (f : Filling) : Option String × Bytes → Filling
  | (some name, value) =>
    if f.headers.contains name then { f with current := none }
    else { headers := f.headers.append name value, current := some name }
  | (none, value) =>
    { f with headers := f.current.elim f.headers (f.headers.append · value) }

/-- Adds the fields that the modifier makes on its own, for every name that is not there yet. -/
def withDefaults (h defaults : Headers) : Headers :=
  (defaults.walk.foldl Filling.take { headers := h }).headers

/-- Middleware that gives every response the fields of a modifier as defaults. -/
def middleware (name : String) (m : HeaderModifier) : Middleware where
  name := name
  around next request := do
    let response ← next.run request
    match m Headers.empty with
    | .ok defaults => return { response with headers := withDefaults response.headers defaults }
    | .error fault => .breakDown fault.message

end HeaderModifier

/-- The value of an authorization field. -/
inductive Credentials where
  | basic (username password : String)
  | bearer (token : String)
  deriving DecidableEq, Repr

namespace Credentials

/-- The name of the scheme. -/
def scheme : Credentials → String
  | basic .. => "Basic"
  | bearer _ => "Bearer"

/-- The text of the field. -/
def value : Credentials → String
  | basic username password => "Basic " ++ Base64.encode (Utf8.encode (username ++ ":" ++ password))
  | bearer token => "Bearer " ++ token

/-- Credentials as a report shows them: nothing secret is in it. -/
def report : Credentials → String
  | basic username _ => "BasicAuth \x7b username: " ++ Text.quoted username ++ ", .. \x7d"
  | bearer _ => "BearerAuth(..)"

/-- Sets the authorization field. -/
def modifier (c : Credentials) : HeaderModifier :=
  HeaderModifier.ofChange (HeaderModifier.setIfValid "authorization" c.value)

end Credentials

end WebHost
