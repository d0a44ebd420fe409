import WebHost.Middleware.Cors
import WebHost.Middleware.Headers
import WebHost.Middleware.Metrics
import WebHost.Middleware.Redirect
import WebHost.Proofs.Handler.Notes
import WebHost.Proofs.Middleware.AccessLog

/-!
# The middleware as layers

Header defaults, cross-origin access, the gate with a password, redirects, access logs and collectors
are layers, each of which hands its request on with the notes it came with. Most decide at once what
becomes of a request; a redirect reads its notes before, and a log or a collector counts the request,
tells about it and keeps an eye on its notes.
-/

set_option autoImplicit false

namespace WebHost

/-- A layer is a middleware if it does the same around everything. -/
theorem Layer.middleware_eq {layer : Layer} {m : Middleware} (hname : layer.name = m.name)
    (haround : ∀ next request, layer.around next.run request = m.around next request) :
    layer.middleware = m := by
  obtain ⟨name, around⟩ := m
  obtain rfl : layer.name = name := hname
  have hsame : layer.middleware.around = around := by
    funext next request
    exact haround next request
  rw [← hsame]
  rfl

/-- A layer that decides at once. -/
def Layer.deciding (name : String) (decide : Request → Verdict) : Layer where
  name := name
  receive request := .done (decide request)

/-- A middleware that decides on the request alone shares notes if each verdict does. -/
theorem Middleware.sharesNotes_of_deciding {m : Middleware} (decide : Request → Verdict)
    (haround : ∀ next request, m.around next request = (decide request).carryOut next.run)
    (hshares : ∀ request handle, request.notes = some handle → (decide request).Shares handle) :
    m.SharesNotes := by
  refine ⟨.deciding m.name decide, ?_, fun request handle _ h _ => hshares request handle h⟩
  apply Layer.middleware_eq rfl
  intro next request
  exact (haround next request).symm

namespace HeaderModifier

/-- Gives a response the fields of a modifier as defaults. -/
def finish (m : HeaderModifier) (response : Response) : Job Response :=
  match m Headers.empty with
  | .ok defaults => .done { response with headers := withDefaults response.headers defaults }
  | .error fault => .breakDown fault.message

/-- Header defaults share notes. -/
theorem sharesNotes (name : String) (m : HeaderModifier) : (middleware name m).SharesNotes := by
  apply Middleware.sharesNotes_of_deciding fun request => .handOn request m.finish
  · intro next request
    rfl
  · intro request handle hrequest
    refine ⟨hrequest, fun response l _ => ?_⟩
    unfold finish
    split <;> trivial

end HeaderModifier

/-- Access control shares notes. -/
theorem AccessControl.sharesNotes (a : AccessControl) : a.middleware.SharesNotes := by
  let finish (request : Request) (response : Response) : Response :=
    { response with headers := a.apply (request.headers.text? "origin") response.headers }
  apply Middleware.sharesNotes_of_deciding fun request =>
    if isPreflight request then .answer (finish request (Response.empty 204))
    else .handOn request fun response => .done (finish request response)
  · intro next request
    simp only [middleware]
    cases isPreflight request <;> rfl
  · intro request handle hrequest
    split_ifs
    · trivial
    · exact ⟨hrequest, fun response l _ => trivial⟩

/-- A request that is handed on as it is, for a response that stays as it is. -/
theorem Verdict.carryOut_handOn (inner : Handler) (request : Request) :
    (Verdict.handOn request .done).carryOut inner = inner request := Job.bind_pure _

/-- To hand a request on as it came shares its notes. -/
theorem Verdict.shares_handOn {request : Request} {handle : ℕ}
    (hrequest : request.notes = some handle) : (Verdict.handOn request .done).Shares handle :=
  ⟨hrequest, fun _ _ _ => trivial⟩

/-- Authentication shares notes. -/
theorem BasicAuth.sharesNotes (auth : BasicAuth) : auth.middleware.SharesNotes := by
  apply Middleware.sharesNotes_of_deciding fun request =>
    if !auth.enabled || auth.authorized request then .handOn request .done
    else .answer unauthorized
  · intro next request
    simp only [middleware]
    split_ifs
    · exact (Verdict.carryOut_handOn _ _).symm
    · rfl
  · intro request handle hrequest
    split_ifs
    · exact Verdict.shares_handOn hrequest
    · trivial

namespace Redirect

/-- The redirect that removes trailing slashes shares notes. -/
theorem sharesNotes_removeTrailingSlash : removeTrailingSlash.SharesNotes := by
  apply Middleware.sharesNotes_of_deciding fun request =>
    (slashlessLocation? request).elim (.handOn request .done) fun location =>
      .answer (Response.redirect request.method location)
  · intro next request
    simp only [removeTrailingSlash]
    cases slashlessLocation? request with
    | some location => rfl
    | none => exact (Verdict.carryOut_handOn _ _).symm
  · intro request handle hrequest
    cases slashlessLocation? request with
    | some location => trivial
    | none => exact Verdict.shares_handOn hrequest

/-- The layer that sends requests to the secure scheme. -/
def securing : Layer where
  name := "redirect_https"
  receive request := do
    let secure ← request.readNotes (·.secure)
    match secureLocation? request with
    | some location =>
      if secure then return .handOn request .done
      else return .answer (Response.redirect request.method location)
    | none => return .handOn request .done

/-- The redirect to the secure scheme shares notes. -/
theorem sharesNotes_toHttps : toHttps.SharesNotes := by
  refine ⟨securing, ?_, ?_⟩
  · apply Layer.middleware_eq rfl
    intro next request
    simp only [Layer.around, securing, toHttps, bind, Job.bind_assoc]
    congr 1
    funext secure
    cases secureLocation? request with
    | none => exact Verdict.carryOut_handOn _ _
    | some location =>
      cases secure with
      | false => rfl
      | true => exact Verdict.carryOut_handOn _ _
  · intro request handle l hrequest _
    simp only [securing, Request.readNotes, hrequest, bind, Job.read, Job.bind, Job.LeavesNotes]
    split
    · split_ifs
      · exact Verdict.shares_handOn hrequest
      · trivial
    · exact Verdict.shares_handOn hrequest

end Redirect

/-! ## Logs and collectors -/

/-- Writes events down about a response unless its request is to be ignored, and performs the innermost
duty. -/
def reporting (handle : ℕ) (events : Notes → Response → List Event) (response : Response) :
    Job Response :=
  .ask fun l =>
    if (l.notesAt handle).ignore then .perform (.done response)
    else .tell (·.noteAll (events (l.notesAt handle) response)) (.perform (.done response))

/-- A report reads the notes of its request once the response is there, and notes its events unless
it is to be ignored. -/
theorem reporting_eq (handle : ℕ) (events : Notes → Response → List Event) :
    reporting handle events = fun response => .ask fun l =>
      Job.bind (if !(l.notesAt handle).ignore then
        .tell (·.noteAll (events (l.notesAt handle) response)) (.done response)
      else .done response) fun response => .perform (.done response) := by
  funext response
  simp only [reporting]
  congr 1
  funext l
  cases (l.notesAt handle).ignore <;> rfl

/-- To hand a request on and report on it afterwards shares its notes. -/
theorem shares_reporting {request : Request} {handle : ℕ} (hrequest : request.notes = some handle)
    (events : Notes → Response → List Event) :
    (Verdict.handOn request (reporting handle events)).Shares handle := by
  refine ⟨hrequest, fun response l _ => ?_⟩
  simp only [reporting, Job.LeavesNotes]
  split_ifs
  · exact fun l _ => trivial
  · exact ⟨rfl, fun l _ => trivial⟩

namespace AccessLog

/-- An access log as a layer. -/
def layer (counter : ℕ) (logger : AccessLogger) : Layer where
  name := "access_log"
  receive request := do
    let start ← Job.read (·.clock)
    Job.change (·.enter counter)
    let count ← Job.read (·.countAt counter)
    .takeOn (·.leave counter) do
      let (handle, request) ← request.ensureNotes
      let info ← request.info
      return .handOn request (reporting handle fun notes response =>
        logger (entryOf notes response request.userAgent start count) info)

/-- The layer of an access log stands for its middleware. -/
theorem middleware_layer (counter : ℕ) (logger : AccessLogger) :
    (layer counter logger).middleware = middleware counter logger := by
  apply Layer.middleware_eq rfl
  intro next request
  simp only [Layer.around, layer, middleware, Job.under, bind, Job.read, Job.change, Job.bind,
    Job.bind_assoc, pure, Verdict.carryOut]
  -- up to the moment when the response is known both are the same job already
  congr! 9 with start count noted
  funext info
  congr 1
  exact reporting_eq noted.1 _

/-- An access log shares notes. -/
theorem sharesNotes (counter : ℕ) (logger : AccessLogger) :
    (middleware counter logger).SharesNotes := by
  refine ⟨layer counter logger, middleware_layer counter logger, ?_⟩
  intro request handle l hrequest _
  simp only [layer, Request.ensureNotes, hrequest, bind, Job.read, Job.change, pure, Job.bind,
    Job.LeavesNotes, Request.info, Request.readNotes]
  exact ⟨rfl, fun _ _ => rfl, shares_reporting hrequest _⟩

end AccessLog

namespace Collector

/-- A collector with recorders as a layer. -/
def layer (counter : ℕ) (recorders : List Recorder) : Layer where
  name := "metrics"
  receive request := do
    let (handle, request) ← request.ensureNotes
    let info ← request.info
    let server ← request.serverName
    Job.change (·.enter counter)
    let traffic ← Job.read (·.countAt counter)
    Job.change (·.noteAll (recorders.flatMap (·.started info server)))
    let finish : Change := fun l =>
      (l.leave counter).noteAll (recorders.flatMap (·.finished info server))
    .takeOn finish (return .handOn request (reporting handle fun notes response =>
      recorders.flatMap (·.completed (measure notes response server traffic) info)))

/-- The layer of a metrics middleware with recorders stands for it. -/
theorem middleware_layer (counter : ℕ) {recorders : List Recorder}
    (hsome : recorders.isEmpty = false) :
    (layer counter recorders).middleware = middleware counter recorders := by
  apply Layer.middleware_eq rfl
  intro next request
  simp only [Layer.around, layer, middleware, hsome, Bool.false_eq_true, if_false, Job.under, bind,
    Job.read, Job.change, Job.bind, Job.bind_assoc, pure, Verdict.carryOut]
  congr! 12 with noted info server l
  exact reporting_eq noted.1 _

/-- A metrics middleware shares notes. -/
theorem sharesNotes (counter : ℕ) (recorders : List Recorder) :
    (middleware counter recorders).SharesNotes := by
  cases hempty : recorders.isEmpty with
  | true =>
    apply Middleware.sharesNotes_of_deciding fun request => .handOn request .done
    · intro next request
      simp only [middleware, hempty, if_true]
      exact (Verdict.carryOut_handOn _ _).symm
    · intro request handle hrequest
      exact Verdict.shares_handOn hrequest
  | false =>
    refine ⟨layer counter recorders, middleware_layer counter hempty, ?_⟩
    intro request handle l hrequest _
    simp only [layer, Request.ensureNotes, hrequest, bind, Job.read, Job.change, pure, Job.bind,
      Job.LeavesNotes, Request.info, Request.serverName, Request.readNotes]
    exact ⟨rfl, rfl, fun _ _ => rfl, shares_reporting hrequest _⟩

end Collector

/-! ## All of them -/

namespace Middleware

/-- A middleware of this library. -/
inductive IsProvided : Middleware → Prop
  | headers (name : String) (m : HeaderModifier) : IsProvided (m.middleware name)
  | accessControl (a : AccessControl) : IsProvided a.middleware
  | basicAuth (auth : BasicAuth) : IsProvided auth.middleware
  | removeTrailingSlash : IsProvided Redirect.removeTrailingSlash
  | toHttps : IsProvided Redirect.toHttps
  | accessLog (counter : ℕ) (logger : AccessLogger) : IsProvided (AccessLog.middleware counter logger)
  | collector (counter : ℕ) (recorders : List Recorder) :
    IsProvided (Collector.middleware counter recorders)

/-- Every middleware of this library is a layer that hands its request on with the notes it came with. -/
theorem IsProvided.sharesNotes {m : Middleware} (h : m.IsProvided) : m.SharesNotes := by
  cases h with
  | headers name m => exact m.sharesNotes name
  | accessControl a => exact a.sharesNotes
  | basicAuth auth => exact auth.sharesNotes
  | removeTrailingSlash => exact Redirect.sharesNotes_removeTrailingSlash
  | toHttps => exact Redirect.sharesNotes_toHttps
  | accessLog counter logger => exact AccessLog.sharesNotes counter logger
  | collector counter recorders => exact Collector.sharesNotes counter recorders

end Middleware

end WebHost
