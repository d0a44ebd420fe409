import WebHost.Proofs.Handler.Notes
import WebHost.Proofs.Route.Selection

/-!
# The path of a request through a tree of handlers

Handlers are built from others: routes and servers note their names on a request and hand it on, a
handler may mark it as to be ignored, a multiplexer chooses one of its routes, and layers stand around
what they protect. What remains of all this in the notes of a request depends only on the path that the
request takes: every name counts until a later one replaces it, and so does the mark. Blank names leave
nothing, and a layer that answers by itself cuts the path off.
-/

set_option autoImplicit false

namespace WebHost

/-- What is noted on a request on its way to the handler that answers it. -/
inductive Mark where
  | route (name : String)
  | server (name : String)
  | flag (ignore : Bool)

namespace Mark

/-- The name of a route. An anonymous one has none. -/
def routeName? : Mark → Option String
  | route name => if name.isEmpty then none else some name
  | _ => none

def serverName? : Mark → Option String
  | server name => if name.isEmpty then none else some name
  | _ => none

def flag? : Mark → Option Bool
  | flag ignore => some ignore
  | _ => none

/-- A mark with a blank name. -/
def isBlank : Mark → Bool
  | route name => name.isEmpty
  | server name => name.isEmpty
  | flag _ => false

/-- How a mark gets into the ledger. -/
def change (handle : ℕ) : Mark → Change
  | route name => fun l => l.setHandlerName handle name
  | server name => fun l => l.setServerName handle name
  | flag ignore => fun l => l.setIgnore handle ignore

/-- Leaves a mark on a request; one with a blank name is not worth any notes. -/
def leave (mark : Mark) (request : Request) : Job Request :=
  if mark.isBlank then pure request
  else do
    let (handle, request) ← request.ensureNotes
    Job.change (mark.change handle)
    return request

/-- Notes with a mark on them. -/
def note (mark : Mark) (n : Notes) : Notes where
  remote := n.remote
  secure := n.secure
  serverName := mark.serverName?.or n.serverName
  handlerName := mark.routeName?.or n.handlerName
  ignore := mark.flag?.getD n.ignore

/-- A blank mark changes no notes. -/
theorem note_of_isBlank {mark : Mark} (hblank : mark.isBlank = true) (n : Notes) :
    mark.note n = n := by
  cases mark with
  | route name => simp_all [isBlank, note, routeName?, serverName?, flag?]
  | server name => simp_all [isBlank, note, routeName?, serverName?, flag?]
  | flag ignore => cases hblank

/-- A mark that is not blank changes the notes behind its handle. -/
theorem change_eq {mark : Mark} (hblank : mark.isBlank = false) (handle : ℕ) (l : Ledger) :
    mark.change handle l = l.updateNotes handle mark.note := by
  cases mark with
  | route name =>
    have hname : name.isEmpty = false := hblank
    have hnote : note (route name) = fun n => { n with handlerName := some name } := by
      funext n
      simp [note, routeName?, serverName?, flag?, hname]
    simp [change, Ledger.setHandlerName, hname, hnote]
  | server name =>
    have hname : name.isEmpty = false := hblank
    have hnote : note (server name) = fun n => { n with serverName := some name } := by
      funext n
      simp [note, routeName?, serverName?, flag?, hname]
    simp [change, Ledger.setServerName, hname, hnote]
  | flag ignore => rfl

/-- To leave a mark that is not blank is to make sure of notes and change them. -/
theorem leave_bind {mark : Mark} (hblank : mark.isBlank = false) (request : Request) (h : Handler) :
    (mark.leave request).bind h = request.ensureNotes.bind fun noted =>
      .tell (mark.change noted.1) (h noted.2) := by
  simp only [leave, hblank, Bool.false_eq_true, if_false, bind, Job.bind_assoc]
  rfl

/-- On a request with notes a mark is left there, and nowhere if it is blank. -/
theorem leave_of_notes {request : Request} {handle : ℕ} (hnotes : request.notes = some handle)
    (mark : Mark) : mark.leave request =
      if mark.isBlank then .done request else .tell (mark.change handle) (.done request) := by
  simp only [leave, Request.ensureNotes, hnotes]
  rfl

end Mark

/-- A route leaves the mark of its name. -/
theorem Route.handle_eq (r : Route) (request : Request) :
    r.handle request = ((Mark.route r.name).leave request).bind r.handler := by
  cases hblank : r.name.isEmpty with
  | true => simp [Route.handle, Mark.leave, Mark.isBlank, hblank, pure]
  | false =>
    have hmark : (Mark.route r.name).isBlank = false := hblank
    rw [Mark.leave_bind hmark]
    simp only [Route.handle, hblank]
    rfl

namespace Handler

/-- A server leaves the mark of its name. -/
theorem withServerName_eq (name : String) (h : Handler) (request : Request) :
    h.withServerName name request = ((Mark.server name).leave request).bind h := by
  cases hblank : name.isEmpty with
  | true => simp [withServerName, Mark.leave, Mark.isBlank, hblank, pure]
  | false =>
    have hmark : (Mark.server name).isBlank = false := hblank
    rw [Mark.leave_bind hmark]
    simp only [withServerName, hblank]
    rfl

/-- A handler that sets the flag leaves the mark of the flag. -/
theorem marking_eq (ignore : Bool) (h : Handler) (request : Request) :
    h.marking ignore request = ((Mark.flag ignore).leave request).bind h := by
  rw [Mark.leave_bind rfl]
  rfl

end Handler

/-- Notes after a path: each name is the last one on the path, and so is the flag; what the path does
not name stays. -/
def Notes.after (n : Notes) (path : List Mark) : Notes where
  remote := n.remote
  secure := n.secure
  serverName := (path.filterMap Mark.serverName?).getLast?.or n.serverName
  handlerName := (path.filterMap Mark.routeName?).getLast?.or n.handlerName
  ignore := (path.filterMap Mark.flag?).getLast?.getD n.ignore

/-- What is found last in a list is found in its tail, or else at its head. -/
theorem getLast?_filterMap_cons {α β : Type} (f : α → Option β) (a : α) (l : List α) :
    ((a :: l).filterMap f).getLast? = (l.filterMap f).getLast?.or (f a) := by
  cases h : f a with
  | none => simp [h]
  | some b => cases hl : (l.filterMap f).getLast? <;> simp [h, hl, List.getLast?_cons]

/-- The notes after a path are those that its first mark leaves, after the rest of it. -/
theorem Notes.after_cons (n : Notes) (mark : Mark) (path : List Mark) :
    n.after (mark :: path) = (mark.note n).after path := by
  have hflag : ((path.filterMap Mark.flag?).getLast?.or mark.flag?).getD n.ignore =
      (path.filterMap Mark.flag?).getLast?.getD (mark.flag?.getD n.ignore) := by
    cases (path.filterMap Mark.flag?).getLast? <;> rfl
  simp only [Notes.after, getLast?_filterMap_cons, Mark.note, Option.or_assoc, hflag]

/-- What a request is sent to is one of the routes. -/
theorem Mux.exists_entry_of_dispatch {m : Mux} {method path : String} {r : Route}
    {params : PathParams} (h : m.dispatch method path = .route r params) :
    ∃ entry ∈ m.entries, entry.2 = r := by
  cases hc : m.entries.filterMap (candidateOf method path) with
  | nil =>
    rw [dispatch_of_no_candidate hc] at h
    split_ifs at h
  | cons first rest =>
    obtain ⟨before, best, after, hbest, hsplit, -⟩ := mostSpecific_cons first rest
    have hmem : best ∈ m.entries.filterMap (candidateOf method path) := by
      rw [hc, hsplit]
      simp
    obtain ⟨entry, hentry, hcandidate⟩ := List.mem_filterMap.mp hmem
    obtain ⟨captured, -, -, rfl⟩ := candidateOf_eq_some_iff.mp hcandidate
    simp only [dispatch, filter_candidates, hc, hbest, Dispatch.route.injEq] at h
    exact ⟨entry, hentry, h.1⟩

/-! ## Trees -/

/-- A handler that is built from others. -/
inductive HandlerTree : Handler → Type
  /-- A handler that answers, and leaves the notes of its requests alone. -/
  | plain {h : Handler} (hnotes : h.LeavesNotes) : HandlerTree h
  | route (r : Route) (inner : HandlerTree r.handler) : HandlerTree r.handle
  /-- A handler whose requests are marked as to be ignored, or as not to be. -/
  | marking (ignore : Bool) {h : Handler} (inner : HandlerTree h) : HandlerTree (h.marking ignore)
  | named (name : String) {h : Handler} (inner : HandlerTree h) : HandlerTree (h.withServerName name)
  | mux (m : Mux) (routes : ∀ entry ∈ m.entries, HandlerTree entry.2.handler)
    (fallback : HandlerTree m.fallback) : HandlerTree m.handle
  | layer (m : Layer) (hnotes : m.LeavesNotes) {h : Handler} (inner : HandlerTree h) :
    HandlerTree (m.around h)

namespace HandlerTree

/-- A tree within a chain of middleware is a tree. -/
theorem nonempty_chain {h : Handler} (t : HandlerTree h) (middleware : List Middleware)
    (hshares : ∀ m ∈ middleware, m.SharesNotes) :
    Nonempty (HandlerTree (Chain.mk middleware h).handle) := by
  induction middleware with
  | nil => exact ⟨t⟩
  | cons m rest ih =>
    obtain ⟨hm, hrest⟩ := List.forall_mem_cons.mp hshares
    obtain ⟨inner⟩ := ih hrest
    obtain ⟨layer, rfl, hnotes⟩ := hm
    exact ⟨.layer layer hnotes inner⟩

/-- A request goes through a tree and is answered; its path is the row of marks that it came by, the
innermost last. -/
inductive Takes : {h : Handler} → HandlerTree h → Request → List Deed → List Mark → Response → Prop
  | plain {h : Handler} {hnotes : h.LeavesNotes} {request : Request} {ds : List Deed}
    {response : Response} : (h request).Does ds (some response) →
    Takes (.plain hnotes) request ds [] response
  | route {r : Route} {inner : HandlerTree r.handler} {request noted : Request}
    {front back : List Deed} {path : List Mark} {response : Response} :
    ((Mark.route r.name).leave request).Does front (some noted) →
    Takes inner noted back path response →
    Takes (.route r inner) request (front ++ back) (.route r.name :: path) response
  | marking {ignore : Bool} {h : Handler} {inner : HandlerTree h} {request noted : Request}
    {front back : List Deed} {path : List Mark} {response : Response} :
    ((Mark.flag ignore).leave request).Does front (some noted) →
    Takes inner noted back path response →
    Takes (.marking ignore inner) request (front ++ back) (.flag ignore :: path) response
  | named {name : String} {h : Handler} {inner : HandlerTree h} {request noted : Request}
    {front back : List Deed} {path : List Mark} {response : Response} :
    ((Mark.server name).leave request).Does front (some noted) →
    Takes inner noted back path response →
    Takes (.named name inner) request (front ++ back) (.server name :: path) response
  /-- The multiplexer sends the request to one of its routes. -/
  | dispatched {m : Mux} {routes : ∀ entry ∈ m.entries, HandlerTree entry.2.handler}
    {fallback : HandlerTree m.fallback} {request : Request} {entry : Pattern × Route}
    {hmem : entry ∈ m.entries} {params : PathParams} {ds : List Deed} {path : List Mark}
    {response : Response} :
    m.dispatch request.method request.uri.path = .route entry.2 params →
    Takes (.route entry.2 (routes entry hmem)) { request with params := some params } ds path
      response →
    Takes (.mux m routes fallback) request ds path response
  | refused {m : Mux} {routes : ∀ entry ∈ m.entries, HandlerTree entry.2.handler}
    {fallback : HandlerTree m.fallback} {request : Request} {methods : List String} :
    m.dispatch request.method request.uri.path = .methodNotAllowed methods →
    Takes (.mux m routes fallback) request [] [] (Mux.methodNotAllowed methods)
  | missed {m : Mux} {routes : ∀ entry ∈ m.entries, HandlerTree entry.2.handler}
    {fallback : HandlerTree m.fallback} {request : Request} {ds : List Deed} {path : List Mark}
    {response : Response} : m.dispatch request.method request.uri.path = .notFound →
    Takes fallback request ds path response →
    Takes (.mux m routes fallback) request ds path response
  /-- A layer that answers by itself cuts the path off. -/
  | answered {m : Layer} {hnotes : m.LeavesNotes} {h : Handler} {inner : HandlerTree h}
    {request : Request} {ds : List Deed} {response : Response} :
    (m.receive request).Does ds (some (.answer response)) →
    Takes (.layer m hnotes inner) request ds [] response
  | handedOn {m : Layer} {hnotes : m.LeavesNotes} {h : Handler} {inner : HandlerTree h}
    {request onward : Request} {finish : Response → Job Response} {front middle back : List Deed}
    {path : List Mark} {reply response : Response} :
    (m.receive request).Does front (some (.handOn onward finish)) →
    Takes inner onward middle path reply → (finish reply).Does back (some response) →
    Takes (.layer m hnotes inner) request (front ++ (middle ++ back)) path response

variable {h : Handler} {request : Request} {ds : List Deed} {response : Response}

/-- What a request is answered with is what it was answered with on some path. -/
theorem exists_takes (t : HandlerTree h) (hdoes : (h request).Does ds (some response)) :
    ∃ path, t.Takes request ds path response := by
  induction t generalizing request ds response with
  | plain hnotes => exact ⟨[], .plain hdoes⟩
  | route r inner ih =>
    rw [Route.handle_eq] at hdoes
    obtain ⟨noted, front, back, hfront, hback, rfl⟩ := Job.does_bind_some_iff.mp hdoes
    obtain ⟨path, htakes⟩ := ih hback
    exact ⟨_, .route hfront htakes⟩
  | marking ignore inner ih =>
    rw [Handler.marking_eq] at hdoes
    obtain ⟨noted, front, back, hfront, hback, rfl⟩ := Job.does_bind_some_iff.mp hdoes
    obtain ⟨path, htakes⟩ := ih hback
    exact ⟨_, .marking hfront htakes⟩
  | named name inner ih =>
    rw [Handler.withServerName_eq] at hdoes
    obtain ⟨noted, front, back, hfront, hback, rfl⟩ := Job.does_bind_some_iff.mp hdoes
    obtain ⟨path, htakes⟩ := ih hback
    exact ⟨_, .named hfront htakes⟩
  | mux m routes fallback ihroutes ihfallback =>
    rw [Mux.handle] at hdoes
    cases hdispatch : m.dispatch request.method request.uri.path with
    | route r params =>
      simp only [hdispatch] at hdoes
      obtain ⟨entry, hmem, rfl⟩ := Mux.exists_entry_of_dispatch hdispatch
      rw [Route.handle_eq] at hdoes
      obtain ⟨noted, front, back, hfront, hback, rfl⟩ := Job.does_bind_some_iff.mp hdoes
      obtain ⟨path, htakes⟩ := ihroutes entry hmem hback
      exact ⟨_, .dispatched hdispatch (.route hfront htakes)⟩
    | methodNotAllowed methods =>
      simp only [hdispatch] at hdoes
      obtain ⟨rfl, rfl⟩ := Job.does_done_some_iff.mp hdoes
      exact ⟨[], .refused hdispatch⟩
    | notFound =>
      simp only [hdispatch] at hdoes
      obtain ⟨path, htakes⟩ := ihfallback hdoes
      exact ⟨path, .missed hdispatch htakes⟩
  | layer m hnotes inner ih =>
    obtain ⟨verdict, front, back, hfront, hback, rfl⟩ := Job.does_bind_some_iff.mp hdoes
    cases verdict with
    | answer reply =>
      obtain ⟨rfl, rfl⟩ := Job.does_done_some_iff.mp hback
      rw [List.append_nil]
      exact ⟨[], .answered hfront⟩
    | handOn onward finish =>
      obtain ⟨reply, middle, last, hmiddle, hlast, rfl⟩ := Job.does_bind_some_iff.mp hback
      obtain ⟨path, htakes⟩ := ih hmiddle
      exact ⟨path, .handedOn hfront htakes hlast⟩

/-- Every path through a tree is one that its handler may be seen to take. -/
theorem Takes.does {t : HandlerTree h} {path : List Mark} (htakes : t.Takes request ds path response) :
    (h request).Does ds (some response) := by
  induction htakes with
  | plain hdoes => exact hdoes
  | route hfront _ ih =>
    rw [Route.handle_eq]
    exact hfront.bind ih
  | marking hfront _ ih =>
    rw [Handler.marking_eq]
    exact hfront.bind ih
  | named hfront _ ih =>
    rw [Handler.withServerName_eq]
    exact hfront.bind ih
  | dispatched hdispatch _ ih =>
    simp only [Mux.handle, hdispatch]
    exact ih
  | refused hdispatch =>
    simp only [Mux.handle, hdispatch]
    exact .done
  | missed hdispatch _ ih =>
    simp only [Mux.handle, hdispatch]
    exact ih
  | @answered m _ _ _ _ ds _ hreceive =>
    rw [← List.append_nil ds]
    exact hreceive.bind (f := Verdict.carryOut _) .done
  | handedOn hreceive _ hfinish ih =>
    exact hreceive.bind (f := Verdict.carryOut _) (ih.bind hfinish)

section Notes

variable {others : Ledger → Ledger → Prop} {handle : ℕ} {n : Notes} {s s' : Scene}

/-- A mark is left in the notes that a request comes with. -/
theorem holds_leave {mark : Mark} {noted : Request} (hrequest : request.notes = some handle)
    (hdoes : (mark.leave request).Does ds (some noted)) (hlead : Lead others ds s s')
    (hs : s.Holds handle n) : s'.Holds handle (mark.note n) ∧ noted = request := by
  rw [Mark.leave_of_notes hrequest] at hdoes
  split_ifs at hdoes with hblank
  · obtain ⟨rfl, rfl⟩ := Job.does_done_some_iff.mp hdoes
    cases hlead
    rw [Mark.note_of_isBlank hblank]
    exact ⟨hs, rfl⟩
  · obtain _ | _ | ⟨⟨⟩, hdone⟩ := hdoes
    obtain ⟨rfl, rfl⟩ := Job.does_done_some_iff.mp hdone
    obtain _ | ⟨⟨⟩, hnil⟩ := hlead
    cases hnil
    refine ⟨⟨?_, hs.duties⟩, rfl⟩
    rw [Mark.change_eq (by simpa using hblank)]
    simp [Ledger.updateNotes, hs.notes]

/-- A path through a tree leaves its marks in the notes of the request. -/
theorem Takes.holds {t : HandlerTree h} {path : List Mark}
    (htakes : t.Takes request ds path response) (hrequest : request.notes = some handle)
    (hlead : Lead others ds s s') (hothers : LeaveNotes handle others) (hs : s.Holds handle n) :
    s'.Holds handle (n.after path) := by
  -- a layer works on both ends of the path, everything else at its beginning
  induction htakes generalizing n s s' with
  | @plain h hnotes request ds response hdoes =>
    have hleaves := hnotes request handle s.ledger hrequest hs.lt_length
    exact (hleaves.holds hdoes hlead hothers hs).1
  | route hfront _ ih | marking hfront _ ih | named hfront _ ih =>
    obtain ⟨s₁, hfirst, hrest⟩ := lead_append_iff.mp hlead
    obtain ⟨hmarked, rfl⟩ := holds_leave hrequest hfront hfirst hs
    rw [Notes.after_cons]
    exact ih hrequest hrest hmarked
  | dispatched _ _ ih => exact ih hrequest hlead hs
  | refused => cases hlead; exact hs
  | missed _ _ ih => exact ih hrequest hlead hs
  | @answered m hnotes h inner request ds response hreceive =>
    have hleaves := hnotes request handle s.ledger hrequest hs.lt_length
    exact (hleaves.holds hreceive hlead hothers hs).1
  | @handedOn m hnotes h inner request onward finish front middle back path reply response hreceive
      _ hfinish ih =>
    obtain ⟨s₁, hfirst, hrest⟩ := lead_append_iff.mp hlead
    obtain ⟨s₂, hsecond, hlast⟩ := lead_append_iff.mp hrest
    have hleaves := hnotes request handle s.ledger hrequest hs.lt_length
    obtain ⟨hs₁, honward, hback⟩ := hleaves.holds hreceive hfirst hothers hs
    have hs₂ := ih honward hsecond hs₁
    exact ((hback reply s₂.ledger hs₂.lt_length).holds hfinish hlast hothers hs₂).1

end Notes

end HandlerTree

end WebHost
