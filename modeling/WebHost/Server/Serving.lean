import WebHost.Server.Settings
import WebHost.Tls.Handshake

/-!
# What a run serves with

When a server starts, its settings are turned into what the run serves with: one handler, the limits
that are enforced, and where errors go. Starting fills in a logger and limits where none are set and
changes nothing else in the settings, so starting again finds the same.
-/

set_option autoImplicit false

namespace WebHost

/-- What a run serves with. It stays the same until the run ends. -/
structure Serving where
  handler : Handler
  limits : Limits
  /-- Who is told about the states of connections. -/
  hook : Option ConnectionHook
  errorSink : ErrorSink
  /-- What is attached to every request. -/
  extensions : Option Extensions

namespace Settings

/-- The logger that a server tells, which discards everything if none is set. -/
def loggerOrDiscard (s : Settings) : Logger := s.logger.getD .discard

/-- The settings as starting leaves them: with a logger and with limits. -/
def atStart (s : Settings) : Settings :=
  { s with logger := some s.loggerOrDiscard, limits := s.limits.atStart }

/-- The handler of all requests: the name of the server is noted first, then the middleware has its
turn, and last the handler or the mux answers. -/
def effectiveHandler (s : Settings) : Handler :=
  (wrap (s.handler.getD s.mux.handle) s.middleware).withServerName s.name

/-- What a run serves with that is started now. -/
def serving (s : Settings) : Serving where
  handler := s.effectiveHandler
  limits := s.limits.atStart.applyTo {}
  hook := s.hook
  errorSink := ErrorSink.choose s.errorSink s.loggerOrDiscard
  extensions := s.extensions

/-- The protocol that is spoken on secure connections when none is named. -/
def standardProtocol : Bytes := Utf8.encode "http/1.1"

/-- What accepts the secure connections of a run. The files that the caller names are loaded now, so
that wrong ones fail the start; the settings keep the profile without them. -/
def acceptor (s : Settings) (vault : Vault) (certificate key : String) :
    Except TlsError TlsAcceptor := do
  let found ← (KeySource.files certificate key).load vault
  let profile := found.elim s.tlsOrStandard s.tlsOrStandard.addCertificate
  let protocols :=
    if profile.protocols.isEmpty then [standardProtocol] else profile.protocols
  { profile with protocols }.build

end Settings

/-- How reading the body of a request ended. -/
inductive BodyRead where
  | whole (body : Bytes)
  | broken (reason : String)
  /-- It took longer than the limit. -/
  | late
  deriving DecidableEq, Repr

/-- A connection as its requests see it. -/
structure Peer where
  remote : SocketAddress
  secure : Bool
  deriving DecidableEq, Repr

namespace Serving

/-- The response to a request whose body cannot be read. -/
def badRequest : Response := Response.text 400 "bad request\n"

/-- The response to a request whose body takes too long. -/
def requestTimeout : Response := Response.text 408 "request timeout\n"

/-- The response in place of one that takes too long. -/
def unavailable : Response := Response.text 503 "service unavailable\n"

/-- The events of telling whoever wants to know the state of a connection. -/
def tell (s : Serving) (remote : SocketAddress) (state : ConnectionState) : List Event :=
  s.hook.elim [] fun hook => hook remote state

/-- Answers a request of a peer. The handler sees it with what is attached to every request, and with
fresh notes on the peer. -/
def dispatch (s : Serving) (peer : Peer) (request : Request) : BodyRead → Job Response
  | .whole body => do
    let notes ← Job.exchange fun l => l.addNotes { remote := some peer.remote, secure := peer.secure }
    s.handler {
      request with
      body
      notes := some notes
      extensions := s.extensions.elim request.extensions request.extensions.extend }
  | .broken reason => do
    Job.change fun l => l.noteAll (s.errorSink.log "read request body" reason)
    return badRequest
  | .late => pure requestTimeout

/-- The response as it is sent: when connections are not kept, it says so. -/
def asSent (keepAlive : Bool) (response : Response) : Response :=
  if keepAlive then response
  else { response with headers := response.headers.setText "connection" "close" }

/-- Answers a request on a connection. -/
def answer (s : Serving) (peer : Peer) (keepAlive : Bool) (request : Request) (read : BodyRead) :
    Job Response := do
  return asSent keepAlive (← s.dispatch peer request read)

/-- Gives up a request that takes too long: what was begun is undone, and another response is sent
in its place. -/
def giveUp (keepAlive : Bool) (flight : Flight Response) (l : Ledger) : Response × Ledger :=
  (asSent keepAlive unavailable, flight.drop l)

end Serving

end WebHost
