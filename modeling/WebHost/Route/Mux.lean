import WebHost.Handler.Chain
import WebHost.Route.Pattern

/-!
# Routes and the multiplexer

A route binds a pattern, and possibly a method, to a handler. The multiplexer sends a request to
the most specific route that matches its path and allows its method; of equally specific routes
the one registered first wins.
-/

set_option autoImplicit false

namespace WebHost

/-- A binding of method and pattern to a handler. An anonymous route has an empty name. -/
structure Route where
  name : String := ""
  method : Option String := none
  pattern : String
  handler : Handler

/-- Why a route was not registered. -/
inductive RouteError where
  | invalidPattern (pattern : String) (fault : PatternFault)
  | conflict (key : String)
  deriving DecidableEq, Repr

/-- The wording of a refused registration. -/
def RouteError.message : RouteError → String
  | .invalidPattern pattern fault => "invalid pattern `" ++ pattern ++ "`: " ++ fault.message
  | .conflict key => "route `" ++ key ++ "` is already registered"

namespace Route

/-- The text that identifies a route: method and pattern, or the pattern alone. -/
def key (r : Route) : String :=
  match r.method with
  | some m => m ++ " " ++ r.pattern
  | none => r.pattern

/-- A route as a report shows it. -/
def report (r : Route) : String :=
  let method := match r.method with
    | some m => "Some(" ++ m ++ ")"
    | none => "None"
  "Route \x7b name: " ++ Text.quoted r.name ++ ", method: " ++ method ++ ", pattern: " ++
    Text.quoted r.pattern ++ ", .. \x7d"

/-- A route as a handler: it notes its name and hands the request on. -/
def handle (r : Route) : Handler :=
  if r.name.isEmpty then r.handler
  else fun request => do
    let (handle, request) ← request.ensureNotes
    Job.change fun l => l.setHandlerName handle r.name
    r.handler request

/-- Whether a route takes a method. A route for `GET` also takes `HEAD`. -/
def allows (r : Route) (method : String) : Bool :=
  match r.method with
  | none => true
  | some m => m = method || (m = "GET" && method = "HEAD")

end Route

/-- Registered routes with their parsed patterns, and the handler for everything else. -/
structure Mux where
  entries : List (Pattern × Route) := []
  fallback : Handler := Handler.notFound

/-- Where a request goes. -/
inductive Dispatch where
  | route (route : Route) (params : PathParams)
  | methodNotAllowed (methods : List String)
  | notFound

namespace Mux

/-- The number of routes. -/
def size (m : Mux) : Nat := m.entries.length

/-- The keys of the routes in the order of registration. -/
def keys (m : Mux) : List String := m.entries.map (·.2.key)

/-- A multiplexer as a report shows it. -/
def report (m : Mux) : String := "ServeMux \x7b routes: " ++ Text.quotedRow m.keys ++ ", .. \x7d"

/-- Registers a route. -/
def add (m : Mux) (r : Route) : Except RouteError Mux :=
  match Pattern.parse r.pattern with
  | .error fault => .error (.invalidPattern r.pattern fault)
  | .ok pattern =>
    if m.keys.contains r.key then .error (.conflict r.key)
    else .ok { m with entries := m.entries ++ [(pattern, r)] }

/-- Registers routes one after the other, keeping the errors of those refused. -/
def addAll (m : Mux) : List Route → Mux × List RouteError
  | [] => (m, [])
  | r :: rest =>
    match m.add r with
    | .ok m => m.addAll rest
    | .error e =>
      let (m, es) := m.addAll rest
      (m, e :: es)

/-- Registers routes up to the first one that is refused. -/
def addUntil (m : Mux) : List Route → Mux × Option RouteError
  | [] => (m, none)
  | r :: rest =>
    match m.add r with
    | .ok m => m.addUntil rest
    | .error e => (m, some e)

/-- The entries that match a path, with what they capture. -/
def candidates (m : Mux) (path : String) : List (Pattern × Route × PathParams) :=
  m.entries.filterMap fun (pattern, route) =>
    (pattern.matches? path).map (pattern, route, ·)

/-- The first of the most specific candidates. -/
def mostSpecific : List (Pattern × Route × PathParams) → Option (Pattern × Route × PathParams)
  | cs => cs.foldl (fun best c =>
      match best with
      | none => some c
      | some b => if c.1.rank.exceeds b.1.rank then some c else some b) none

/-- Where a request with a method and a path goes. -/
def dispatch (m : Mux) (method path : String) : Dispatch :=
  let matching := m.candidates path
  match mostSpecific (matching.filter (·.2.1.allows method)) with
  | some (_, route, params) => .route route params
  | none =>
    match matching.filterMap (·.2.1.method) with
    | [] => .notFound
    | methods => .methodNotAllowed methods

/-- Texts in order, each once. -/
def sortedOnce (texts : List String) : List String :=
  (texts.mergeSort (fun a b => a ≤ b)).eraseDups

/-- The response to a method that no matching route takes. -/
def methodNotAllowed (methods : List String) : Response :=
  let r := Response.text 405 "method not allowed\n"
  { r with headers := r.headers.setText "allow" (Text.joinWith ", " (sortedOnce methods)) }

/-- A multiplexer as a handler. -/
def handle (m : Mux) : Handler := fun request =>
  match m.dispatch request.method request.uri.path with
  | .route route params => route.handle { request with params := some params }
  | .methodNotAllowed methods => pure (methodNotAllowed methods)
  | .notFound => m.fallback request

end Mux

end WebHost
