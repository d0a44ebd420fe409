import WebHost.Proofs.Middleware.AccessLog
import WebHost.Proofs.Middleware.Meter

/-!
# What an access log accounts for

An access log holds the number of requests inside, and calls its logger once for each answer whose
request is not to be ignored at that moment. The call tells how many requests were inside when this
one entered, itself included. Requests that are given up or break down are counted off without a call.
A limit hands on the calls whose status lies in its classes, and no others.

All this holds in every order in which requests enter, wait, go on and end, beside whatever happens to
the ledger elsewhere, as long as nobody else touches the counter and the events of the logger.
-/

set_option autoImplicit false

namespace WebHost

namespace AccessLog

open Middleware (Entry IsCounted IsMetered Meter Moment Step Story Visit present)

/-! ## What an access log tells -/

/-- What is taken down of an answer. -/
def recordOf (e : Entry) (response : Response) (notes : Notes) : AccessRecord :=
  entryOf notes response e.request.userAgent e.ledger.clock e.company

/-- An access log tells its logger of answers, and nobody of entries and ends. -/
def meter (logger : AccessLogger) : Meter where
  opened _ := []
  told e response notes := logger (recordOf e response notes) e.info
  closed _ := []

/-- The access log is a metered middleware. -/
theorem isMetered (counter : ℕ) (logger : AccessLogger) :
    IsMetered (middleware counter logger) counter (meter logger) := by
  intro next a
  have hnone (l : Ledger) : l.noteAll [] = l := by simp [Ledger.noteAll]
  have hclose : (meter logger).close counter (.of counter a) = (·.leave counter) := by
    funext l
    exact hnone (l.leave counter)
  have hon : (meter logger).handOn counter (.of counter a) = a.entered counter := hnone _
  have hconclude : (meter logger).conclude (.of counter a) = a.report counter logger := rfl
  rw [run_around_logger, hclose, hon, hconclude]

/-- An access log with another counter and other events leaves a counter and its events alone. -/
theorem leavesAlone_around {counter other : ℕ} {own : Event → Bool} {logger : AccessLogger}
    {next : Next} (hcounter : other ≠ counter)
    (hlogger : ∀ entry info, ∀ event ∈ logger entry info, own event = false)
    (hnext : Handler.LeavesAlone (Ledger.holdings counter own) next.run) :
    Handler.LeavesAlone (Ledger.holdings counter own) ((middleware other logger).around next) := by
  intro request l
  refine ⟨Middleware.holdings_enter hcounter l, ?_⟩
  apply Job.LeavesAlone.under (Middleware.holdings_leave hcounter)
  apply Job.LeavesAlone.bind (m := 0) (Middleware.leavesAlone_ensureNotes request _)
  rintro ⟨handle, noted⟩ l
  apply Job.LeavesAlone.bind (m := 0) (n := 0)
  · apply Job.LeavesAlone.bind (m := 0) (Middleware.leavesAlone_readNotes noted _ l)
    intro remote l
    rfl
  intro info l
  apply Job.LeavesAlone.bind (m := 0) (hnext noted l)
  intro response l
  change Job.LeavesAlone _ (ite _ _ _) _ _
  split_ifs
  · exact ⟨Middleware.holdings_noteAll (hlogger _ _) l, rfl⟩
  · rfl

/-! ## Calls of the logger -/

/-- The call of the logger at a moment. -/
def call? : Moment → Option (AccessRecord × RequestInfo)
  | .answered _ e response notes =>
    if notes.ignore then none else some (recordOf e response notes, e.info)
  | _ => none

/-- The calls of the logger, one moment after the other. -/
def calls (moments : List Moment) : List (AccessRecord × RequestInfo) := moments.filterMap call?

/-- What the meter of the access log notes is what its logger says to each call. -/
theorem flatMap_events (logger : AccessLogger) (moments : List Moment) :
    moments.flatMap (meter logger).events = (calls moments).flatMap fun call => logger call.1 call.2 := by
  have hmoment (moment : Moment) : (meter logger).events moment =
      (call? moment).toList.flatMap fun call => logger call.1 call.2 := by
    cases moment with
    | entered visit e => rfl
    | lost visit e => rfl
    | answered visit e response notes =>
      cases hignore : notes.ignore <;> simp [Meter.events, Meter.ended, meter, call?, hignore]
  rw [calls, List.filterMap_eq_flatMap_toList, List.flatMap_assoc]
  exact List.flatMap_congr fun moment _ => hmoment moment

/-- What an access log accounts for at a moment. -/
structure IsAccounted (counter : ℕ) (logger : AccessLogger) (own : Event → Bool) (before : Ledger)
    (t : Middleware.Traffic) : Prop where
  /-- The counter holds the number of requests inside. -/
  active : t.ledger.countAt counter = t.inside
  /-- These are the requests that entered without those that were answered or lost. -/
  balance : t.ledger.countAt counter = present (fun _ => true) t.chronicle
  idle : (∀ fate ∈ t.visits, fate = none) → t.ledger.countAt counter = 0
  counted : IsCounted t.chronicle
  stories : ∀ visit, Story visit t.visits[visit]? (t.story visit)
  /-- The events of the logger are those of its calls. -/
  called : t.ledger.events.filter own = before.events.filter own ++
    ((calls t.chronicle).flatMap fun call => logger call.1 call.2).filter own
  answered : ∀ visit e response notes, .answered visit e response notes ∈ t.chronicle →
    calls (t.story visit) = if notes.ignore then [] else [(recordOf e response notes, e.info)]
  lost : ∀ visit e, .lost visit e ∈ t.chronicle → calls (t.story visit) = []
  /-- What a limit hands on. -/
  limited : ∀ classes inner, logger = .limited classes inner →
    t.ledger.events.filter own = before.events.filter own ++
      (((calls t.chronicle).filter fun call => classes.Includes call.1.status).flatMap
        fun call => inner call.1 call.2).filter own

/-- A limited logger says what the inner one says to the calls of its classes. -/
theorem flatMap_limited (classes : StatusClasses) (inner : AccessLogger)
    (row : List (AccessRecord × RequestInfo)) :
    (row.flatMap fun call => AccessLogger.limited classes inner call.1 call.2) =
      (row.filter fun call => classes.Includes call.1.status).flatMap
        fun call => inner call.1 call.2 := by
  induction row with
  | nil => rfl
  | cons call row ih =>
    rw [List.flatMap_cons, ih]
    by_cases hclass : classes.Includes call.1.status
    · have hcovers := (classes.covers_iff_includes call.1.status).mpr hclass
      rw [List.filter_cons_of_pos (by simpa using hclass), List.flatMap_cons]
      rw [AccessLogger.limited, if_pos hcovers]
    · have hcovers := mt (classes.covers_iff_includes call.1.status).mp hclass
      rw [List.filter_cons_of_neg (by simpa using hclass)]
      rw [AccessLogger.limited, if_neg hcovers, List.nil_append]

/-- While the account of the meter is right, everything is accounted for. -/
theorem isAccounted_of_holds {counter : ℕ} {logger : AccessLogger} {own : Event → Bool}
    {before : Ledger} {t : Middleware.Traffic} (h : ((meter logger).account counter own before).Holds t) :
    IsAccounted counter logger own before t := by
  have hactive := Meter.countAt_of_holds h
  have hcalled : t.ledger.events.filter own = before.events.filter own ++
      ((calls t.chronicle).flatMap fun call => logger call.1 call.2).filter own := by
    rw [Meter.events_of_holds h, flatMap_events]
  refine ⟨hactive, ?_, ?_, h.kept.counted, h.kept.stories, hcalled, ?_, ?_, ?_⟩
  · rw [hactive, h.kept.present]
    rfl
  · intro hover
    rw [hactive]
    apply List.countP_eq_zero.mpr
    intro fate hfate
    simp [hover fate hfate]
  · intro visit e response notes hmem
    rw [(h.kept.stories visit).eq_of_answered (Middleware.Traffic.mem_story hmem)]
    cases hignore : notes.ignore <;> simp [calls, List.filterMap_cons, call?, hignore]
  · intro visit e hmem
    rw [(h.kept.stories visit).eq_of_lost (Middleware.Traffic.mem_story hmem)]
    rfl
  · rintro classes inner rfl
    rw [hcalled, flatMap_limited]

/-- Whatever requests an access log sees, and in whatever order they enter, wait, go on, are given up
and end: at every moment its counter holds the number of requests inside, and its logger was called
once for each answer whose request was not to be ignored. -/
theorem isAccounted_steps (l : Ledger) (logger : AccessLogger) (own : Event → Bool) {next : Next}
    (hnext : Handler.LeavesAlone (Ledger.holdings l.addCounter.1 own) next.run) {steps : List Step}
    (helse : ∀ change, .elsewhere change ∈ steps →
      change.LeavesAlone (Ledger.holdings l.addCounter.1 own)) :
    IsAccounted l.addCounter.1 logger own l
      (Middleware.Traffic.steps (middleware l.addCounter.1 logger) next
        { ledger := l.addCounter.2 } steps) :=
  isAccounted_of_holds (Meter.holds_steps l (isMetered _ logger) hnext helse)

/-- The calls that are handed on as they are. -/
def isAccess : Event → Bool
  | .access _ _ => true
  | _ => false

/-- Requests that overtake each other before a second access log are all accounted for. -/
theorem isAccounted_of_crossing :
    Handler.LeavesAlone (Ledger.holdings 0 isAccess) Middleware.probed.run ∧
    (∀ change, .elsewhere change ∈ Middleware.crossing →
      change.LeavesAlone (Ledger.holdings 0 isAccess)) ∧
    IsAccounted 0 (.limited { success := true } .handOn) isAccess {}
      (Middleware.Traffic.steps (middleware 0 (.limited { success := true } .handOn))
        Middleware.probed { ledger := { inFlight := [0] } } Middleware.crossing) := by
  have hnext := Middleware.leavesAlone_probed 0 isAccess
  have helse := Middleware.leavesAlone_of_crossing 0 isAccess
  exact ⟨hnext, helse, isAccounted_steps {} _ isAccess hnext helse⟩

end AccessLog

end WebHost
