import WebHost.Middleware.Metrics
import WebHost.Proofs.Middleware.Accounting

/-!
# What begins always ends

A collector calls its recorders when a request has entered, when its answer is known, and when it is
over. The last call is a duty, so it comes however the request ends, and it names what the first one
named, whatever was noted on the request meanwhile. Between the two stands at most the record of an
answer, which limits of any depth may keep back; they keep back nothing else. So a gauge that the first
call raises and the last one lowers shows, for every server, the number of its requests inside.
-/

set_option autoImplicit false

namespace WebHost

open Middleware (Entry IsMetered Meter Moment Step Story Visit present)

namespace Collector

/-! ## What a collector tells -/

/-- The name of the server of a request when it entered. -/
def serverOf (e : Entry) : String := (e.ledger.notesAt e.handle).serverName.getD ""

/-- What is measured of an answer. -/
def measured (e : Entry) (response : Response) (notes : Notes) : Measurement :=
  measure notes response (serverOf e) e.company

/-- A collector tells all its recorders of entries, answers and ends. -/
def meter (recorders : List Recorder) : Meter where
  opened e := recorders.flatMap (·.started e.info (serverOf e))
  told e response notes := recorders.flatMap (·.completed (measured e response notes) e.info)
  closed e := recorders.flatMap (·.finished e.info (serverOf e))

/-- A metrics middleware with recorders is a metered one. -/
theorem isMetered (counter : ℕ) {recorders : List Recorder} (hsome : recorders ≠ []) :
    IsMetered (middleware counter recorders) counter (meter recorders) := by
  have hempty : recorders.isEmpty = false := by simpa using hsome
  intro next a
  have hserver : a.noted.serverName =
      .ask fun l => .done ((l.notesAt a.handle).serverName.getD "") := rfl
  have hentered : (a.attach a.ledger).enter counter = a.entered counter := by
    unfold Middleware.Arrival.attach Middleware.Arrival.entered
    cases a.request.notes <;> rfl
  have hcompany : (a.entered counter).countAt counter = (Entry.of counter a).company := by
    unfold Middleware.Arrival.entered
    cases a.request.notes <;> rfl
  simp only [middleware, hempty, Bool.false_eq_true, if_false, bind, pure, Job.bind, Job.read,
    Job.change, Job.under, Job.bind_assoc]
  rw [a.run_ensureNotes rfl]
  simp only [Middleware.Arrival.info_noted, hserver, Job.bind, Job.run, a.notesAt_attach rfl,
    hentered, hcompany]
  congr 2
  funext response
  simp only [Meter.conclude]
  congr 1
  funext l
  change _ = ite ((l.notesAt a.handle).ignore = true) _ _
  cases (l.notesAt a.handle).ignore <;> rfl

/-! ## Calls of the recorders -/

/-- A call of a recorder. -/
inductive Call where
  | started (info : RequestInfo) (server : String)
  | recorded (m : Measurement) (info : RequestInfo)
  | finished (info : RequestInfo) (server : String)

/-- Limits keep back the records of answers outside one of them, and nothing else. -/
def Call.Passes (limits : List StatusClasses) : Call → Prop
  | .recorded m _ => ∀ classes ∈ limits, classes.Includes m.status
  | .started _ _ => True
  | .finished _ _ => True

instance (limits : List StatusClasses) : DecidablePred (Call.Passes limits)
  | .recorded m _ => inferInstanceAs (Decidable (∀ classes ∈ limits, classes.Includes m.status))
  | .started _ _ => isTrue trivial
  | .finished _ _ => isTrue trivial

end Collector

namespace Recorder

/-- What a recorder does at a call. -/
def hear (r : Recorder) : Collector.Call → List Event
  | .started info server => r.started info server
  | .recorded m info => r.completed m info
  | .finished info server => r.finished info server

/-- A recorder inside limits. -/
def within (inner : Recorder) (limits : List StatusClasses) : Recorder := limits.foldr limited inner

/-- A limited recorder hears the calls that pass its limits. -/
theorem hear_within (inner : Recorder) (limits : List StatusClasses) (call : Collector.Call) :
    (inner.within limits).hear call = if call.Passes limits then inner.hear call else [] := by
  induction limits with
  | nil => cases call <;> simp [within, hear, Collector.Call.Passes]
  | cons classes limits ih =>
    cases call with
    | started info server => exact ih
    | finished info server => exact ih
    | recorded m info =>
      have houter : (inner.within (classes :: limits)).hear (.recorded m info) =
          if classes.Includes m.status then (inner.within limits).hear (.recorded m info) else [] := by
        simp only [← StatusClasses.covers_iff_includes]
        rfl
      rw [houter, ih]
      have hboth : (Collector.Call.recorded m info).Passes (classes :: limits) ↔
          classes.Includes m.status ∧ (Collector.Call.recorded m info).Passes limits :=
        List.forall_mem_cons
      split_ifs <;> tauto

end Recorder

namespace Collector

/-- The calls at a moment. -/
def callsAt : Moment → List Call
  | .entered _ e => [.started e.info (serverOf e)]
  | .answered _ e response notes =>
    (if notes.ignore then [] else [.recorded (measured e response notes) e.info]) ++
      [.finished e.info (serverOf e)]
  | .lost _ e => [.finished e.info (serverOf e)]

/-- The calls that a recorder inside limits sees. -/
def seen (limits : List StatusClasses) (moments : List Moment) : List Call :=
  (moments.flatMap callsAt).filter (Call.Passes limits)

/-- What is seen of two rows of moments is seen of each in turn. -/
theorem seen_append (limits : List StatusClasses) (front back : List Moment) :
    seen limits (front ++ back) = seen limits front ++ seen limits back := by
  simp [seen]

/-- A request that enters is seen as started. -/
theorem seen_entered (limits : List StatusClasses) (visit : ℕ) (e : Entry) :
    seen limits [.entered visit e] = [.started e.info (serverOf e)] := rfl

/-- A request that is lost is seen as finished. -/
theorem seen_lost (limits : List StatusClasses) (visit : ℕ) (e : Entry) :
    seen limits [.lost visit e] = [.finished e.info (serverOf e)] := rfl

/-- An answer is recorded unless its request is to be ignored or a limit leaves out its status. -/
theorem seen_answered (limits : List StatusClasses) (visit : ℕ) (e : Entry) (response : Response)
    (notes : Notes) :
    seen limits [.answered visit e response notes] =
      (if notes.ignore = false ∧ ∀ classes ∈ limits, classes.Includes response.status then
        [.recorded (measured e response notes) e.info] else []) ++
        [.finished e.info (serverOf e)] := by
  have hcalls : seen limits [.answered visit e response notes] =
      (if notes.ignore then [] else [Call.recorded (measured e response notes) e.info]).filter
        (Call.Passes limits) ++ [.finished e.info (serverOf e)] := by
    simp only [seen, List.flatMap_singleton, callsAt, List.filter_append]
    rfl
  have hpasses : (Call.recorded (measured e response notes) e.info).Passes limits ↔
      ∀ classes ∈ limits, classes.Includes response.status := Iff.rfl
  rw [hcalls]
  congr 1
  cases hignore : notes.ignore with
  | true => simp
  | false => simp [← hpasses, List.filter_singleton]

/-- What the meter of the recorders notes is what each of them hears of each call. -/
theorem flatMap_events (recorders : List Recorder) (moments : List Moment) :
    moments.flatMap (meter recorders).events =
      (moments.flatMap callsAt).flatMap fun call => recorders.flatMap (·.hear call) := by
  have hmoment (moment : Moment) : (meter recorders).events moment =
      (callsAt moment).flatMap fun call => recorders.flatMap (·.hear call) := by
    cases moment with
    | entered visit e => simp [Meter.events, meter, callsAt, Recorder.hear]
    | lost visit e => simp [Meter.events, meter, callsAt, Recorder.hear]
    | answered visit e response notes =>
      cases hignore : notes.ignore <;>
        simp [Meter.events, Meter.ended, meter, callsAt, Recorder.hear, hignore]
  rw [List.flatMap_assoc]
  exact List.flatMap_congr fun moment _ => hmoment moment

/-- Recorders that cause no event of some kind. -/
def AreForeign (own : Event → Bool) (recorders : List Recorder) : Prop :=
  ∀ r ∈ recorders, ∀ call, ∀ event ∈ r.hear call, own event = false

/-- Recorders that are foreign to some events note none of them. -/
theorem AreForeign.filter_eq_nil {own : Event → Bool} {recorders : List Recorder}
    (h : AreForeign own recorders) (call : Call) :
    (recorders.flatMap (·.hear call)).filter own = [] := by
  rw [List.filter_eq_nil_iff]
  intro event hevent
  obtain ⟨r, hr, hmem⟩ := List.mem_flatMap.mp hevent
  rw [h r hr call event hmem]
  exact Bool.false_ne_true

/-- Among foreign recorders, the events of one inside limits are those of the calls that it sees. -/
theorem filter_flatMap_hear {own : Event → Bool} {front back : List Recorder}
    (hforeign : AreForeign own (front ++ back)) (limits : List StatusClasses) (inner : Recorder)
    (row : List Call) :
    (row.flatMap fun call => (front ++ inner.within limits :: back).flatMap (·.hear call)).filter own =
      ((row.filter (Call.Passes limits)).flatMap inner.hear).filter own := by
  have hfront : AreForeign own front := fun r hr => hforeign r (List.mem_append_left back hr)
  have hback : AreForeign own back := fun r hr => hforeign r (List.mem_append_right front hr)
  induction row with
  | nil => rfl
  | cons call row ih =>
    have hcall : ((front ++ inner.within limits :: back).flatMap (·.hear call)).filter own =
        ((inner.within limits).hear call).filter own := by
      rw [List.flatMap_append, List.flatMap_cons, List.filter_append, List.filter_append,
        hfront.filter_eq_nil, hback.filter_eq_nil, List.nil_append, List.append_nil]
    rw [List.flatMap_cons, List.filter_append, ih, hcall, Recorder.hear_within]
    by_cases hpasses : call.Passes limits
    · rw [if_pos hpasses, List.filter_cons_of_pos (by simpa using hpasses), List.flatMap_cons,
        List.filter_append]
    · rw [if_neg hpasses, List.filter_cons_of_neg (by simpa using hpasses), List.filter_nil,
        List.nil_append]

/-! ## Gauges -/

/-- By how much an event changes the gauge of a server. -/
def gaugeChange (name server : String) : Event → ℤ
  | .metric .raiseGauge n labels value =>
    if n = name ∧ labels = [("server", server)] then value.getD 0 else 0
  | .metric .lowerGauge n labels value =>
    if n = name ∧ labels = [("server", server)] then -(value.getD 0 : ℤ) else 0
  | _ => 0

/-- What the gauge of a server shows after some events. -/
def gauge (name server : String) (events : List Event) : ℤ :=
  (events.map (gaugeChange name server)).sum

/-- An event changes a gauge of some name. -/
def movesGauge (name : String) : Event → Bool
  | .metric .raiseGauge n _ _ => n = name
  | .metric .lowerGauge n _ _ => n = name
  | _ => false

/-- A gauge moves by what it moves over each part of a row of events. -/
theorem gauge_append (name server : String) (front back : List Event) :
    gauge name server (front ++ back) = gauge name server front + gauge name server back := by
  simp [gauge]

/-- An event that does not move a gauge changes it by nothing. -/
theorem gaugeChange_eq_zero {name : String} {event : Event} (h : movesGauge name event = false)
    (server : String) : gaugeChange name server event = 0 := by
  unfold movesGauge at h
  unfold gaugeChange
  split at h <;> simp_all

/-- A gauge may be read off any events among which are all that move it. -/
theorem gauge_filter {name : String} {own : Event → Bool}
    (hown : ∀ event, movesGauge name event = true → own event = true) (server : String)
    (events : List Event) : gauge name server (events.filter own) = gauge name server events := by
  induction events with
  | nil => rfl
  | cons event events ih =>
    have hcons (l : List Event) :
        gauge name server (event :: l) = gaugeChange name server event + gauge name server l := rfl
    cases howned : own event with
    | true => rw [List.filter_cons_of_pos howned, hcons, hcons, ih]
    | false =>
      have hstill : movesGauge name event = false := by
        by_contra hmoves
        simp [hown event (by simpa using hmoves)] at howned
      rw [List.filter_cons_of_neg (by simp [howned]), hcons, gaugeChange_eq_zero hstill, ih, Int.zero_add]

/-- By how much a call changes the gauge of a server. -/
theorem gauge_hear (names : MetricNames) (server : String) (call : Call) :
    gauge names.activeRequests server (names.recorder.hear call) =
      match call with
      | .started _ s => if s = server then 1 else 0
      | .recorded _ _ => 0
      | .finished _ s => if s = server then -1 else 0 := by
  cases call <;> simp [gauge, Recorder.hear, MetricNames.recorder, gaugeChange]

/-- The calls that a recorder inside limits sees at a moment move its gauge like the number of requests
inside. -/
theorem gauge_seen_moment (names : MetricNames) (server : String) (limits : List StatusClasses)
    (moment : Moment) :
    gauge names.activeRequests server ((seen limits [moment]).flatMap names.recorder.hear) =
      moment.change fun e => serverOf e = server := by
  have hone (call : Call) : [call].flatMap names.recorder.hear = names.recorder.hear call := by simp
  cases moment with
  | entered visit e =>
    rw [seen_entered, hone, gauge_hear]
    simp [Moment.change]
  | lost visit e =>
    rw [seen_lost, hone, gauge_hear]
    simp [Moment.change]
  | answered visit e response notes =>
    rw [seen_answered, List.flatMap_append, gauge_append, hone, gauge_hear]
    split_ifs with hrecorded
    · rw [hone, gauge_hear]
      simp [Moment.change]
    · simp [gauge, Moment.change]

/-- The gauge of a recorder is the number of requests that are inside for that server. -/
theorem gauge_flatMap_seen (names : MetricNames) (server : String) (limits : List StatusClasses)
    (moments : List Moment) :
    gauge names.activeRequests server ((seen limits moments).flatMap names.recorder.hear) =
      present (fun e => serverOf e = server) moments := by
  induction moments with
  | nil => rfl
  | cons moment moments ih =>
    have hsplit := seen_append limits [moment] moments
    rw [List.singleton_append] at hsplit
    rw [hsplit, List.flatMap_append, gauge_append, gauge_seen_moment, ih]
    rfl

/-! ## Balance -/

/-- How the calls of a collector's recorders are balanced at a moment. -/
structure IsBalanced (counter : ℕ) (recorders : List Recorder) (own : Event → Bool) (before : Ledger)
    (t : Middleware.Traffic) : Prop where
  active : t.ledger.countAt counter = t.inside
  stories : ∀ visit, Story visit t.visits[visit]? (t.story visit)
  /-- Every recorder is told of every moment. -/
  told : t.ledger.events.filter own = before.events.filter own ++
    ((t.chronicle.flatMap callsAt).flatMap fun call => recorders.flatMap (·.hear call)).filter own
  /-- A recorder inside limits hears what it sees. -/
  heard : ∀ (front : List Recorder) (inner : Recorder) (limits : List StatusClasses)
    (back : List Recorder), recorders = front ++ inner.within limits :: back →
    AreForeign own (front ++ back) → t.ledger.events.filter own = before.events.filter own ++
      ((seen limits t.chronicle).flatMap inner.hear).filter own
  begun : ∀ limits visit v, t.visits[visit]? = some (some v) →
    seen limits (t.story visit) = [.started v.entry.info (serverOf v.entry)]
  answered : ∀ limits visit e response notes, .answered visit e response notes ∈ t.chronicle →
    seen limits (t.story visit) = [.started e.info (serverOf e)] ++
      (if notes.ignore = false ∧ ∀ classes ∈ limits, classes.Includes response.status then
        [.recorded (measured e response notes) e.info] else []) ++
      [.finished e.info (serverOf e)]
  lost : ∀ limits visit e, .lost visit e ∈ t.chronicle →
    seen limits (t.story visit) = [.started e.info (serverOf e), .finished e.info (serverOf e)]
  /-- The gauge of a server has risen by the number of its requests inside. -/
  gauged : ∀ (front : List Recorder) (names : MetricNames) (limits : List StatusClasses)
    (back : List Recorder), recorders = front ++ names.recorder.within limits :: back →
    AreForeign own (front ++ back) →
    (∀ event, movesGauge names.activeRequests event = true → own event = true) →
    ∀ server, gauge names.activeRequests server t.ledger.events =
      gauge names.activeRequests server before.events + t.insideOf fun e => serverOf e = server

/-- While the account of the meter is right, everything is balanced. -/
theorem isBalanced_of_holds {counter : ℕ} {recorders : List Recorder} {own : Event → Bool}
    {before : Ledger} {t : Middleware.Traffic}
    (h : ((meter recorders).account counter own before).Holds t) :
    IsBalanced counter recorders own before t := by
  have htold : t.ledger.events.filter own = before.events.filter own ++
      ((t.chronicle.flatMap callsAt).flatMap fun call =>
        recorders.flatMap (·.hear call)).filter own := by
    rw [Meter.events_of_holds h, flatMap_events]
  have hheard (front : List Recorder) (inner : Recorder) (limits : List StatusClasses)
      (back : List Recorder) (hrecorders : recorders = front ++ inner.within limits :: back)
      (hforeign : AreForeign own (front ++ back)) :
      t.ledger.events.filter own = before.events.filter own ++
        ((seen limits t.chronicle).flatMap inner.hear).filter own := by
    rw [htold, hrecorders, filter_flatMap_hear hforeign]
    rfl
  have hcons (limits : List StatusClasses) (moment : Moment) (moments : List Moment) :
      seen limits (moment :: moments) = seen limits [moment] ++ seen limits moments :=
    seen_append limits [moment] moments
  refine ⟨Meter.countAt_of_holds h, h.kept.stories, htold, hheard, ?_, ?_, ?_, ?_⟩
  · intro limits visit v hv
    have hstory := h.kept.stories visit
    rw [hv] at hstory
    rw [hstory.eq_of_inside, seen_entered]
  · intro limits visit e response notes hmem
    have hstory := (h.kept.stories visit).eq_of_answered (Middleware.Traffic.mem_story hmem)
    rw [hstory, hcons, seen_entered, seen_answered, List.append_assoc]
  · intro limits visit e hmem
    have hstory := (h.kept.stories visit).eq_of_lost (Middleware.Traffic.mem_story hmem)
    rw [hstory, hcons, seen_entered, seen_lost]
    rfl
  · intro front names limits back hrecorders hforeign hown server
    have hevents := hheard front names.recorder limits back hrecorders hforeign
    rw [← gauge_filter hown server t.ledger.events, hevents, gauge_append, gauge_filter hown,
      gauge_filter hown, gauge_flatMap_seen, h.kept.present]

/-- Whatever requests a collector with a recorder sees, and in whatever order they enter, wait, go on,
are given up and end: at every moment each recorder has seen, of every request that entered, its
beginning, at most one record within its limits, and, once it is over, its end; and the gauge of every
server shows the requests inside. -/
theorem isBalanced_steps (l : Ledger) {recorders : List Recorder} (hsome : recorders ≠ [])
    (own : Event → Bool) {next : Next}
    (hnext : Handler.LeavesAlone (Ledger.holdings l.addCounter.1 own) next.run) {steps : List Step}
    (helse : ∀ change, .elsewhere change ∈ steps →
      change.LeavesAlone (Ledger.holdings l.addCounter.1 own)) :
    IsBalanced l.addCounter.1 recorders own l
      (Middleware.Traffic.steps (middleware l.addCounter.1 recorders) next
        { ledger := l.addCounter.2 } steps) :=
  isBalanced_of_holds (Meter.holds_steps l (isMetered _ hsome) hnext helse)

/-- The metrics of a server outside any namespace. -/
def plainNames : MetricNames := .of "" MetricNames.defaultSubsystem

/-- A tally, and the metrics of errors. -/
def watchers : List Recorder := [.tally, plainNames.recorder.within [.errors]]

/-- An access log inside a collector. -/
def loggedInside : Next := .of [AccessLog.middleware 0 .handOn] Middleware.probed.run

/-- A collector with two recorders after requests that crossed each other. -/
def crossed : Middleware.Traffic :=
  .steps (middleware 1 watchers) loggedInside { ledger := { inFlight := [0, 0] } }
    Middleware.crossing

/-- Requests that overtake each other around a logged handler leave the gauge balanced. -/
theorem isBalanced_of_crossing :
    watchers ≠ [] ∧
    Handler.LeavesAlone (Ledger.holdings 1 (movesGauge plainNames.activeRequests))
      loggedInside.run ∧
    (∀ change, .elsewhere change ∈ Middleware.crossing →
      change.LeavesAlone (Ledger.holdings 1 (movesGauge plainNames.activeRequests))) ∧
    IsBalanced 1 watchers (movesGauge plainNames.activeRequests) { inFlight := [0] } crossed ∧
    ∀ server, gauge plainNames.activeRequests server crossed.ledger.events =
      crossed.insideOf fun e => serverOf e = server := by
  have hsome : watchers ≠ [] := by simp [watchers]
  have hlogger : ∀ entry info, ∀ event ∈ AccessLogger.handOn entry info,
      movesGauge plainNames.activeRequests event = false := by
    simp [AccessLogger.handOn, movesGauge]
  have hnext : Handler.LeavesAlone (Ledger.holdings 1 (movesGauge plainNames.activeRequests))
      loggedInside.run :=
    AccessLog.leavesAlone_around (by decide) hlogger (Middleware.leavesAlone_probed 1 _)
  have helse := Middleware.leavesAlone_of_crossing 1 (movesGauge plainNames.activeRequests)
  have hbalanced : IsBalanced 1 watchers (movesGauge plainNames.activeRequests)
      { inFlight := [0] } crossed :=
    isBalanced_steps { inFlight := [0] } hsome _ hnext helse
  refine ⟨hsome, hnext, helse, hbalanced, ?_⟩
  have htally : AreForeign (movesGauge plainNames.activeRequests) [.tally] := by
    intro r hr call event hevent
    obtain rfl := List.mem_singleton.mp hr
    cases call <;> simp [Recorder.hear, Recorder.tally] at hevent
    simp [hevent, movesGauge]
  intro server
  have hgauge := hbalanced.gauged [.tally] plainNames [.errors] [] rfl htally (fun _ h => h) server
  rw [hgauge]
  exact Int.zero_add _

end Collector

end WebHost
