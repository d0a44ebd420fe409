import WebHost.Http.Headers
import WebHost.Time.Duration

/-!
# Cache-Control

The directives of a cache-control field are written in a fixed order, durations in whole seconds
and only when they exceed one second.
-/

set_option autoImplicit false

namespace WebHost

/-- The directives that tell caches what to do with a response. -/
structure CacheControl where
  isPrivate : Bool := false
  isPublic : Bool := false
  maxAge : Duration := .zero
  sharedMaxAge : Duration := .zero
  staleWhileRevalidate : Duration := .zero
  staleIfError : Duration := .zero
  mustRevalidate : Bool := false
  proxyRevalidate : Bool := false
  mustUnderstand : Bool := false
  noCache : Bool := false
  noStore : Bool := false
  noTransform : Bool := false
  immutable : Bool := false
  deriving DecidableEq, Repr

namespace CacheControl

/-- A directive without a value, where it is set. -/
def flag (isSet : Bool) (name : String) : List String := if isSet then [name] else []

/-- A directive with a length of time, where that exceeds one second. -/
def seconds (name : String) (d : Duration) : List String :=
  if Duration.ofSeconds 1 < d then [name ++ "=" ++ toString d.seconds] else []

/-- The directive for the age of a response. Private responses that must not be reused without a
check are stale at once. -/
def age (c : CacheControl) : List String :=
  let told := seconds "max-age" c.maxAge
  told ++ flag (told.isEmpty && c.isPrivate && c.noCache) "max-age=0"

/-- The directives in their order. -/
def directives (c : CacheControl) : List String :=
  flag c.isPrivate "private" ++ flag c.isPublic "public" ++ c.age ++
    seconds "s-maxage" c.sharedMaxAge ++
    seconds "stale-while-revalidate" c.staleWhileRevalidate ++
    seconds "stale-if-error" c.staleIfError ++
    flag c.mustRevalidate "must-revalidate" ++ flag c.proxyRevalidate "proxy-revalidate" ++
    flag c.mustUnderstand "must-understand" ++ flag c.noCache "no-cache" ++
    flag c.noStore "no-store" ++ flag c.noTransform "no-transform" ++ flag c.immutable "immutable"

/-- The text of a cache-control field. -/
def text (c : CacheControl) : String := Text.joinWith ", " c.directives

/-- Writes the field, or removes it when there is no directive. Responses that must not be reused
without a check also say so to older caches. -/
def modify (c : CacheControl) (h : Headers) : Headers :=
  if c.text.isEmpty then h.erase "cache-control"
  else
    let h := h.setText "cache-control" c.text
    if c.noCache then h.setText "pragma" "no-cache" else h

end CacheControl

end WebHost
