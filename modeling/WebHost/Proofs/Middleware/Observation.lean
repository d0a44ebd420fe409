import WebHost.Cli.Program
import WebHost.Proofs.Handler.Tree
import WebHost.Proofs.Middleware.Layers

/-!
# What an access log observes

An access log gives a request notes unless it has some, hands it on with them, and reads them when the
response is known. Around a tree of handlers it therefore finds in them what the path through the tree
left there: the name of the innermost route that has one, the name of the innermost server that has
one, and the flag that was set last. Where the path leaves nothing the notes say what they said before.
-/

set_option autoImplicit false

namespace WebHost

/-! ## What is served is a tree -/

/-- What a server serves with is a tree if what it is given is one, in middleware of this library. -/
theorem HandlerTree.nonempty_effectiveHandler {s : Settings}
    (t : HandlerTree (s.handler.getD s.mux.handle)) (hprovided : ∀ m ∈ s.middleware, m.IsProvided) :
    Nonempty (HandlerTree s.effectiveHandler) := by
  obtain ⟨chain⟩ := t.nonempty_chain s.middleware fun m hm => (hprovided m hm).sharesNotes
  rw [Settings.effectiveHandler, wrap_eq]
  exact ⟨.named s.name chain⟩

/-- A file server has nothing to do with notes. -/
theorem FileServer.leavesNotes_handle (server : FileServer) (tree : FileTree) :
    Handler.LeavesNotes (server.handle tree) := by
  intro request own l _ _
  unfold handle
  split <;> trivial

/-- The middleware of the program is of this library. -/
theorem Program.isProvided_of_mem {choice : AccessLogChoice} {metrics : MetricsSettings}
    {m : Middleware} (hm : m ∈ Program.middleware choice metrics) : m.IsProvided := by
  rcases List.mem_append.mp hm with hm | hm
  · obtain ⟨logger, -, rfl⟩ := Option.map_eq_some_iff.mp (Option.mem_toList.mp hm)
    exact .accessLog 0 logger
  · obtain ⟨names, -, rfl⟩ := Option.map_eq_some_iff.mp (Option.mem_toList.mp hm)
    exact .collector 1 [names.recorder]

/-- What the program serves with is a tree: its files, in the middleware that was asked for. -/
theorem Program.nonempty_tree {s : Settings} {server : FileServer} {tree : FileTree}
    {choice : AccessLogChoice} {metrics : MetricsSettings}
    (hhandler : s.handler = some (server.handle tree))
    (hmiddleware : s.middleware = Program.middleware choice metrics) :
    Nonempty (HandlerTree s.effectiveHandler) := by
  have files : HandlerTree (s.handler.getD s.mux.handle) := by
    rw [hhandler]
    exact .plain (server.leavesNotes_handle tree)
  exact files.nonempty_effectiveHandler fun m hm =>
    Program.isProvided_of_mem (hmiddleware ▸ hm)

/-! ## The notes of a request that is logged -/

namespace Middleware

/-- The notes of a request are known when it has been given some. -/
def Arrival.IsGiven (a : Arrival) : Prop :=
  ∀ handle, a.request.notes = some handle → handle < a.ledger.notes.length

/-- A request that has entered holds the notes that came with it. -/
theorem Arrival.holds_entered {a : Arrival} (hgiven : a.IsGiven) (counter : ℕ) :
    Scene.Holds ⟨a.entered counter, [(·.leave counter)]⟩ a.handle (a.ledger.notesAt a.handle) where
  notes := by
    obtain ⟨request, l⟩ := a
    cases hrequest : request.notes with
    | some handle =>
      have hlt : handle < l.notes.length := hgiven handle hrequest
      simp [entered, Arrival.handle, hrequest, Ledger.enter, Ledger.notesAt,
        List.getElem?_eq_getElem hlt]
    | none =>
      simp [entered, Arrival.handle, hrequest, Ledger.enter, Ledger.addNotes, Ledger.notesAt]
  duties := by
    intro duty hduty
    obtain rfl := List.mem_singleton.mp hduty
    exact fun _ _ => rfl

end Middleware

namespace AccessLog

open Middleware (Arrival)

section Ends

variable {counter : ℕ} {logger : AccessLogger} {a : Arrival} {others : Ledger → Ledger → Prop}
  {response : Response} {l' : Ledger}

/-- A request that came to its end did so behind the log, and then the log was done with it. -/
theorem exists_deeds_of_ends {next : Next}
    (hends : (Flight.start ((middleware counter logger).around next a.request)).Ends others a.ledger
      response l') :
    ∃ reply ds back s duties, (next.run a.noted).Does ds (some reply) ∧
      (a.report counter logger reply).Does back (some response) ∧
      Lead others ds ⟨a.entered counter, [(·.leave counter)]⟩ s ∧
      Lead others back s ⟨l', duties⟩ := by
  have hsame : (Flight.start ((middleware counter logger).around next a.request)).advance a.ledger =
      Flight.advance ⟨(next.run a.noted).bind (a.report counter logger), [(·.leave counter)]⟩
        (a.entered counter) := run_around_logger counter logger next a
  have hinside : Flight.Ends others
      ⟨(next.run a.noted).bind (a.report counter logger), [(·.leave counter)]⟩ (a.entered counter)
      response l' := by
    cases hends with
    | ended hadvance => exact .ended (hsame ▸ hadvance)
    | resumed hadvance hothers hrest => exact .resumed (hsame ▸ hadvance) hothers hrest
  obtain ⟨ds, duties, hdoes, hlead⟩ := hinside.exists_deeds
  obtain ⟨reply, front, back, hfront, hback, rfl⟩ := Job.does_bind_some_iff.mp hdoes
  obtain ⟨s, hfirst, hlast⟩ := lead_append_iff.mp hlead
  exact ⟨reply, front, back, s, duties, hfront, hback, hfirst, hlast⟩

/-- Whoever is seen to perform a duty and end has performed the innermost one. -/
theorem run_perform_of_lead {reply : Response} {ds : List Deed} {s s' : Scene}
    (hdoes : (Job.perform (.done reply)).Does ds (some response)) (hlead : Lead others ds s s') :
    response = reply ∧
      (Job.perform (.done reply)).run false s.duties s.ledger = (.ended response, s'.ledger) := by
  obtain _ | _ | ⟨⟨⟩, hdone⟩ := hdoes
  obtain ⟨rfl, rfl⟩ := Job.does_done_some_iff.mp hdone
  obtain _ | ⟨hperform, hnil⟩ := hlead
  cases hnil
  cases hperform <;> exact ⟨rfl, rfl⟩

/-- Whoever is seen to report on a response reads the notes as they are then. -/
theorem run_report_of_lead {reply : Response} {ds : List Deed} {s s' : Scene}
    (hdoes : (a.report counter logger reply).Does ds (some response)) (hlead : Lead others ds s s') :
    response = reply ∧
      (a.report counter logger reply).run false s.duties s.ledger = (.ended response, s'.ledger) := by
  obtain _ | _ | ⟨hask, hrest⟩ := hdoes
  cases hask
  obtain _ | ⟨⟨⟩, hlead⟩ := hlead
  simp only [Arrival.report, Job.run] at hrest ⊢
  cases hignore : (s.ledger.notesAt a.handle).ignore with
  | true =>
    simp only [hignore, if_true] at hrest ⊢
    exact run_perform_of_lead hrest hlead
  | false =>
    simp only [hignore, Bool.false_eq_true, if_false] at hrest ⊢
    obtain _ | _ | ⟨htell, hrest⟩ := hrest
    cases htell
    obtain _ | ⟨⟨⟩, hlead⟩ := hlead
    exact run_perform_of_lead hrest hlead

end Ends

/-- What an access log around a tree of handlers observes of a request that was answered: the deeds in
the tree, the path that the request took there, and the scene when the response came. -/
structure Observes {h : Handler} (t : HandlerTree h) (counter : ℕ) (logger : AccessLogger)
    (others : Ledger → Ledger → Prop) (a : Arrival) (response : Response) (l' : Ledger)
    (ds : List Deed) (path : List Mark) (s : Scene) : Prop where
  taken : t.Takes a.noted ds path response
  reached : Lead others ds ⟨a.entered counter, [(·.leave counter)]⟩ s
  /-- The log takes down the name of the innermost route on the path that has one. -/
  handlerName : (a.record counter (s.ledger.notesAt a.handle) response).handlerName =
    ((path.filterMap Mark.routeName?).getLast?.or (a.ledger.notesAt a.handle).handlerName).getD ""
  serverName : (a.record counter (s.ledger.notesAt a.handle) response).serverName =
    ((path.filterMap Mark.serverName?).getLast?.or (a.ledger.notesAt a.handle).serverName).getD ""
  flag : (s.ledger.notesAt a.handle).ignore =
    (path.filterMap Mark.flag?).getLast?.getD (a.ledger.notesAt a.handle).ignore
  /-- From there on the log does nothing but report what it has observed. -/
  reported : (a.report counter logger response).run false s.duties s.ledger = (.ended response, l')

/-- Around a tree of handlers an access log observes what the path of the request left in its notes:
the innermost names, and the flag that was set last. -/
theorem observes {h : Handler} (t : HandlerTree h) (counter : ℕ) (logger : AccessLogger)
    (next : Option String) {others : Ledger → Ledger → Prop} {a : Arrival} {response : Response}
    {l' : Ledger} (hgiven : a.IsGiven) (hothers : LeaveNotes a.handle others)
    (hends : (Flight.start ((middleware counter logger).around ⟨next, h⟩ a.request)).Ends others
      a.ledger response l') :
    ∃ ds s, (∃ path, t.Takes a.noted ds path response) ∧
      ∀ path, t.Takes a.noted ds path response →
        Observes t counter logger others a response l' ds path s := by
  obtain ⟨reply, ds, back, s, duties, hdoes, hreport, hreached, hlast⟩ := exists_deeds_of_ends hends
  obtain ⟨rfl, hrun⟩ := run_report_of_lead hreport hlast
  refine ⟨ds, s, t.exists_takes hdoes, fun path htakes => ?_⟩
  have hholds := htakes.holds rfl hreached hothers (a.holds_entered hgiven counter)
  have hnotes := hholds.notesAt
  refine ⟨htakes, hreached, ?_, ?_, ?_, hrun⟩
  · rw [hnotes]
    rfl
  · rw [hnotes]
    rfl
  · rw [hnotes]
    rfl

/-! A visit to a site whose routes lie within each other. -/

/-- A route that has a name, and whose requests are to be logged after all. -/
def users : Route where
  name := "users"
  pattern := "/users"
  handler := Handler.marking false Handler.noContent

def usersMux : Mux where
  entries := [(⟨[.literal "users"], .exact⟩, users)]

/-- An anonymous route whose requests are to be ignored, to the multiplexer. -/
def unnamed : Route where
  pattern := "/"
  handler := Handler.marking true usersMux.handle

/-- The anonymous route within one that has a name, on a server that has one. -/
def site : Handler :=
  let outer : Route := { name := "api", pattern := "/", handler := unnamed.handle }
  Handler.withServerName "edge" outer.handle

def siteTree : HandlerTree site :=
  .named "edge" (.route _ (.route unnamed (.marking true (.mux usersMux
    (fun entry hentry => by
      obtain rfl := List.mem_singleton.mp hentry
      exact .marking false (.plain (Handler.leavesNotes_always _)))
    (.plain (Handler.leavesNotes_always _))))))

/-- A request without notes that comes to the site. -/
def siteVisit : Arrival := ⟨{ uri := ⟨none, none, "/users", none⟩ }, {}⟩

/-- The site with a log around it that hands on what it observes. -/
def siteFlight : Flight Response :=
  .start ((middleware 0 .handOn).around ⟨none, site⟩ siteVisit.request)

/-- A visit to a site whose routes and servers leave their names is logged under them. -/
theorem observes_of_siteVisit :
    siteVisit.IsGiven ∧ LeaveNotes siteVisit.handle (fun _ _ => False) ∧
    ∃ l' record info, l'.events = [.access record info] ∧ record.handlerName = "users" ∧
      record.serverName = "edge" ∧
      siteFlight.Ends (fun _ _ => False) siteVisit.ledger Response.noContent l' ∧
      ∃ ds s, (∃ path, siteTree.Takes siteVisit.noted ds path Response.noContent) ∧
        ∀ path, siteTree.Takes siteVisit.noted ds path Response.noContent →
          Observes siteTree 0 .handOn (fun _ _ => False) siteVisit Response.noContent l' ds path s := by
  have hgiven : siteVisit.IsGiven := by
    intro handle hhandle
    cases hhandle
  have hothers : LeaveNotes siteVisit.handle fun _ _ => False := fun _ _ h => h.elim
  have hends : siteFlight.Ends (fun _ _ => False) siteVisit.ledger Response.noContent
      (siteFlight.advance siteVisit.ledger).2 := .ended rfl
  exact ⟨hgiven, hothers, _, _, _, rfl, rfl, rfl, hends,
    observes siteTree 0 .handOn none hgiven hothers hends⟩

end AccessLog

end WebHost
