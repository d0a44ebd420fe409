import WebHost.Time.Duration

/-!
# Limits of a server

A server's limits are lengths of time and a size. In a setting zero means "not set"; when a run
begins, what is set is copied onto the limits of the run. The size of request headers is never held
below the least size that the protocol reader can work with.
-/

set_option autoImplicit false

namespace WebHost

/-- The limits that a run enforces. A limit that is zero is not enforced. -/
structure Limits where
  readTimeout : Duration := .zero
  readHeaderTimeout : Duration := .zero
  writeTimeout : Duration := .zero
  idleTimeout : Duration := .zero
  maxHeaderBytes : Nat := 0
  deriving DecidableEq, Repr, Inhabited

/-- The configured limits of a server, with the bound on a graceful shutdown. A field that is zero
is not set. -/
structure LimitSettings where
  readTimeout : Duration := .zero
  readHeaderTimeout : Duration := .zero
  writeTimeout : Duration := .zero
  idleTimeout : Duration := .zero
  shutdownTimeout : Duration := .zero
  maxHeaderBytes : Nat := 0
  deriving DecidableEq, Repr, Inhabited

/-- The first length of time if it is set, else the second. -/
def Duration.orElse (set other : Duration) : Duration := if set.isZero then other else set

namespace LimitSettings

/-- The limits that a server uses where none are set. -/
def standard : LimitSettings where
  readTimeout := .ofSeconds 5
  readHeaderTimeout := .ofSeconds 2
  writeTimeout := .ofSeconds 10
  idleTimeout := .ofSeconds 120
  shutdownTimeout := .ofSeconds 60
  maxHeaderBytes := 10240

/-- The least size of request headers that can be enforced. -/
def leastHeaderBytes : Nat := 8192

/-- Whether nothing is set. -/
def isUnset (s : LimitSettings) : Bool := s == {}

/-- Every field that is not set is taken from the standard. -/
def orStandard (s : LimitSettings) : LimitSettings where
  readTimeout := s.readTimeout.orElse standard.readTimeout
  readHeaderTimeout := s.readHeaderTimeout.orElse standard.readHeaderTimeout
  writeTimeout := s.writeTimeout.orElse standard.writeTimeout
  idleTimeout := s.idleTimeout.orElse standard.idleTimeout
  shutdownTimeout := s.shutdownTimeout.orElse standard.shutdownTimeout
  maxHeaderBytes := if s.maxHeaderBytes = 0 then standard.maxHeaderBytes else s.maxHeaderBytes

/-- Copies what is set onto limits; a header size that is too small is raised. -/
def applyTo (s : LimitSettings) (l : Limits) : Limits where
  readTimeout := s.readTimeout.orElse l.readTimeout
  readHeaderTimeout := s.readHeaderTimeout.orElse l.readHeaderTimeout
  writeTimeout := s.writeTimeout.orElse l.writeTimeout
  idleTimeout := s.idleTimeout.orElse l.idleTimeout
  maxHeaderBytes :=
    if s.maxHeaderBytes = 0 then l.maxHeaderBytes else max s.maxHeaderBytes leastHeaderBytes

/-- The settings with which a run begins: the standard if nothing at all is set. -/
def atStart (s : LimitSettings) : LimitSettings := if s.isUnset then standard else s

/-- The time that a graceful shutdown may take: the shorter of what the caller allows and what is
set; no bound if there is neither. -/
def shutdownDeadline (allowed : Option Duration) (s : LimitSettings) : Option Duration :=
  match allowed, s.shutdownTimeout.isZero with
  | none, true => none
  | none, false => some s.shutdownTimeout
  | some d, true => some d
  | some d, false => some (if s.shutdownTimeout < d then s.shutdownTimeout else d)

/-- The settings as a report shows them. -/
def report (s : LimitSettings) : String :=
  "Config \x7b read_timeout: " ++ s.readTimeout.text ++
    ", read_header_timeout: " ++ s.readHeaderTimeout.text ++
    ", write_timeout: " ++ s.writeTimeout.text ++
    ", idle_timeout: " ++ s.idleTimeout.text ++
    ", shutdown_timeout: " ++ s.shutdownTimeout.text ++
    ", max_header_bytes: " ++ toString s.maxHeaderBytes ++ " \x7d"

end LimitSettings

end WebHost
