import WebHost.Handler.Job
import WebHost.Text.Quoted

/-!
# Handlers and middleware

A handler turns a request into a job that ends with a response. Middleware stands around a handler:
it may change the request, answer by itself, and change the response. In a chain the first
middleware is the outermost one.
-/

set_option autoImplicit false

namespace WebHost

/-- Turns a request into the job of answering it. -/
abbrev Handler := Request → Job Response

/-- The rest of a chain, as a middleware sees it: the name of the next middleware, if there is one,
and what runs the rest. -/
structure Next where
  middleware : Option String
  run : Handler

/-- The rest of a chain as a report shows it. -/
def Next.report (next : Next) : String :=
  match next.middleware with
  | some name => "Next \x7b middleware: " ++ Text.quoted name ++ ", .. \x7d"
  | none => "Next(handler)"

/-- Behaviour around a handler. -/
structure Middleware where
  name : String
  around : Next → Handler

/-- The rest of a chain that begins with the given middleware. -/
def Next.of : List Middleware → Handler → Next
  | [], handler => ⟨none, handler⟩
  | m :: rest, handler => ⟨some m.name, m.around (Next.of rest handler)⟩

/-- A handler with middleware around it. -/
structure Chain where
  middleware : List Middleware
  handler : Handler

namespace Chain

/-- The names of the middleware, outermost first. -/
def names (c : Chain) : List String := c.middleware.map (·.name)

/-- A chain as a handler. -/
def handle (c : Chain) : Handler := (Next.of c.middleware c.handler).run

/-- A chain as a report shows it. -/
def report (c : Chain) : String :=
  "Chain \x7b middleware: " ++ Text.quotedRow c.names ++ ", .. \x7d"

end Chain

/-- Puts middleware around a handler; without any the handler stays as it is. -/
def wrap (handler : Handler) (middleware : List Middleware) : Handler :=
  if middleware.isEmpty then handler else (Chain.mk middleware handler).handle

namespace Handler

/-- Answers every request with the same response. -/
def always (response : Response) : Handler := fun _ => pure response

/-- The handler that has nothing to say. -/
def noContent : Handler := always Response.noContent

/-- The handler that finds nothing. -/
def notFound : Handler := always Response.notFound

/-- Holds a request back at a gate before the inner handler runs. -/
def atGate (inner : Handler) : Handler := fun request =>
  if request.isGated then .pause (inner request) else inner request

end Handler

namespace Request

/-- The notes of a request, attached first when there are none. -/
def ensureNotes (request : Request) : Job (Nat × Request) :=
  match request.notes with
  | some handle => pure (handle, request)
  | none => do
    let handle ← Job.exchange fun l => l.addNotes {}
    return (handle, { request with notes := some handle })

/-- Reads something off the notes of a request; blank notes stand for none. -/
def readNotes {α : Type} (request : Request) (f : Notes → α) : Job α :=
  match request.notes with
  | some handle => Job.read fun l => f (l.notesAt handle)
  | none => pure (f {})

/-- The name of the server that accepted a request, or nothing. -/
def serverName (request : Request) : Job String := request.readNotes (·.serverName.getD "")

/-- The name of the route that handles a request, or nothing. -/
def handlerName (request : Request) : Job String := request.readNotes (·.handlerName.getD "")

end Request

namespace Handler

/-- Notes on every request whether logs and metrics skip it. -/
def marking (ignore : Bool) (inner : Handler) : Handler := fun request => do
  let (handle, request) ← request.ensureNotes
  Job.change fun l => l.setIgnore handle ignore
  inner request

/-- Notes the name of the server on every request; without a name the handler stays as it is. -/
def withServerName (name : String) (inner : Handler) : Handler :=
  if name.isEmpty then inner
  else fun request => do
    let (handle, request) ← request.ensureNotes
    Job.change fun l => l.setServerName handle name
    inner request

end Handler

end WebHost
