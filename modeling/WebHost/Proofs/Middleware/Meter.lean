import WebHost.Proofs.Handler.Scope
import WebHost.Proofs.Middleware.Traffic

/-!
# Requests through a middleware that counts them

An access log and a collector treat a request alike. They count it when it enters, under the duty to
count it no more when it is over, and tell somebody about it: when it has entered, when its answer is
known and it is not to be ignored, and when it is over. What they tell is their meter.

As long as nobody else touches the counter and the events of the middleware's own kind, the counter
holds the number of requests inside at every moment, and those events are what the meter tells of one
moment after the other.
-/

set_option autoImplicit false

namespace WebHost

/-- What a middleware keeps in the ledger: its counter, and the events of its own kind. -/
def Ledger.holdings (counter : ℕ) (own : Event → Bool) (l : Ledger) : Option ℕ × List Event :=
  (l.inFlight[counter]?, l.events.filter own)

namespace Middleware

/-! ## What is told -/

/-- What a middleware tells about a request. -/
structure Meter where
  opened : Entry → List Event
  told : Entry → Response → Notes → List Event
  closed : Entry → List Event

namespace Meter

/-- What is told when an answer is known, with the end of the request. -/
def ended (μ : Meter) (e : Entry) (response : Response) (notes : Notes) : List Event :=
  (if notes.ignore then [] else μ.told e response notes) ++ μ.closed e

/-- What is told at a moment. -/
def events (μ : Meter) : Moment → List Event
  | .entered _ e => μ.opened e
  | .answered _ e response notes => μ.ended e response notes
  | .lost _ e => μ.closed e

/-- The ledger when a request is handed on. -/
def handOn (μ : Meter) (counter : ℕ) (e : Entry) : Ledger :=
  (e.entered counter).noteAll (μ.opened e)

/-- What has to be done when a request is over. -/
def close (μ : Meter) (counter : ℕ) (e : Entry) : Change := fun l =>
  (l.leave counter).noteAll (μ.closed e)

/-- What is left to do when the answer is known. -/
def conclude (μ : Meter) (e : Entry) (response : Response) : Job Response :=
  .ask fun l =>
    let notes := l.notesAt e.handle
    if notes.ignore then .perform (.done response)
    else .tell (·.noteAll (μ.told e response notes)) (.perform (.done response))

end Meter

/-- The entry of a request that arrives, as the counter has it. -/
def Entry.of (counter : ℕ) (a : Arrival) : Entry where
  toArrival := a
  company := (a.ledger.enter counter).countAt counter

/-- A middleware counts requests and tells about them. -/
def IsMetered (m : Middleware) (counter : ℕ) (μ : Meter) : Prop :=
  ∀ (next : Next) (a : Arrival),
    (m.around next a.request).run false [] a.ledger =
      ((next.run a.noted).bind (μ.conclude (.of counter a))).run false
        [μ.close counter (.of counter a)] (μ.handOn counter (.of counter a))

/-! ## Handlers that leave counters and events alone -/

section Inside

variable {counter : ℕ} {own : Event → Bool} {inner : Handler}

/-- A request that enters elsewhere does not change what a counter holds. -/
theorem holdings_enter {other : ℕ} (hother : other ≠ counter) (l : Ledger) :
    (l.enter other).holdings counter own = l.holdings counter own :=
  Prod.ext (List.getElem?_modify_ne _ _ hother) rfl

/-- A request that leaves elsewhere does not change what a counter holds. -/
theorem holdings_leave {other : ℕ} (hother : other ≠ counter) (l : Ledger) :
    (l.leave other).holdings counter own = l.holdings counter own :=
  Prod.ext (List.getElem?_modify_ne _ _ hother) rfl

/-- Events of somebody else do not change what a counter holds. -/
theorem holdings_noteAll {es : List Event} (hforeign : ∀ event ∈ es, own event = false)
    (l : Ledger) : (l.noteAll es).holdings counter own = l.holdings counter own := by
  have hnone : es.filter own = [] := by
    rw [List.filter_eq_nil_iff]
    intro event hevent
    rw [hforeign event hevent]
    exact Bool.false_ne_true
  simp [Ledger.holdings, Ledger.noteAll, hnone]

/-- Making sure of notes leaves what a counter holds alone. -/
theorem leavesAlone_ensureNotes (request : Request) (l : Ledger) :
    request.ensureNotes.LeavesAlone (Ledger.holdings counter own) 0 l := by
  unfold Request.ensureNotes
  cases request.notes with
  | some handle => rfl
  | none => exact ⟨rfl, rfl⟩

/-- Reading notes leaves what a counter holds alone. -/
theorem leavesAlone_readNotes {α : Type} (request : Request) (f : Notes → α) (l : Ledger) :
    (request.readNotes f).LeavesAlone (Ledger.holdings counter own) 0 l := by
  unfold Request.readNotes
  cases request.notes <;> rfl

/-- A handler that always answers alike leaves what a counter holds alone. -/
theorem leavesAlone_always (response : Response) :
    Handler.LeavesAlone (Ledger.holdings counter own) (Handler.always response) :=
  fun _ _ => rfl

/-- A gate before a handler leaves alone what the handler does. -/
theorem leavesAlone_atGate (h : Handler.LeavesAlone (Ledger.holdings counter own) inner) :
    Handler.LeavesAlone (Ledger.holdings counter own) (Handler.atGate inner) := by
  intro request l
  unfold Handler.atGate
  split_ifs
  · exact h request
  · exact h request l

/-- A mark before a handler leaves alone what the handler does. -/
theorem leavesAlone_marking (ignore : Bool)
    (h : Handler.LeavesAlone (Ledger.holdings counter own) inner) :
    Handler.LeavesAlone (Ledger.holdings counter own) (Handler.marking ignore inner) := by
  intro request l
  apply Job.LeavesAlone.bind (m := 0) (leavesAlone_ensureNotes request l)
  rintro ⟨handle, noted⟩ l'
  exact ⟨rfl, h noted _⟩

end Inside

/-! ## An advance of a request -/

section Advance

variable {counter : ℕ} {own : Event → Bool} {μ : Meter} {e : Entry} {before : Ledger}

/-- A request was counted off, and events were told. -/
structure IsOff (counter : ℕ) (own : Event → Bool) (es : List Event) (l l' : Ledger) : Prop where
  count : l'.inFlight[counter]? = l.inFlight[counter]?.map (· - 1)
  events : l'.events.filter own = l.events.filter own ++ es.filter own

/-- What a step is compared with may be any ledger that holds the same. -/
theorem IsOff.congr {es : List Event} {l l₁ l' : Ledger} (h : IsOff counter own es l₁ l')
    (hsame : l₁.holdings counter own = l.holdings counter own) : IsOff counter own es l l' := by
  obtain ⟨hcount, hevents⟩ := Prod.mk.inj hsame
  exact ⟨by rw [h.count, hcount], by rw [h.events, hevents]⟩

/-- Closing an entry takes it off the counter and notes what the meter says to it. -/
theorem isOff_close (μ : Meter) (counter : ℕ) (own : Event → Bool) (e : Entry) (l : Ledger) :
    IsOff counter own (μ.closed e) l (μ.close counter e l) := by
  constructor
  · simp [Meter.close, Ledger.noteAll, Ledger.leave]
  · simp [Meter.close, Ledger.noteAll, Ledger.leave]

/-- Whoever watches the counter and the events of the middleware's own kind reads the number of requests
inside, and what the meter tells of one moment after the other. A request inside was handed on and is
not over: what is left of its handling leaves alone what the middleware keeps, and the duty to count it
no more is the outermost one. -/
def Meter.account (μ : Meter) (counter : ℕ) (own : Event → Bool) (before : Ledger) :
    Account (Option ℕ × List Event) where
  reading := Ledger.holdings counter own
  expected inside moments :=
    (some inside, before.events.filter own ++ (moments.flatMap μ.events).filter own)
  IsUnderWay v := ∃ (job : Job Response) (duties : List Change),
    v.flight = ⟨job.bind (μ.conclude v.entry), duties ++ [μ.close counter v.entry]⟩ ∧
    (∀ l, job.LeavesAlone (Ledger.holdings counter own) duties.length l) ∧
    ∀ duty ∈ duties, duty.LeavesAlone (Ledger.holdings counter own)

/-- Somebody who is counted off, and of whom is told what the meter tells, comes to his end as he
should. -/
theorem IsOff.ends {moment : Moment} {l l' : Ledger}
    (h : IsOff counter own (μ.events moment) l l') :
    (μ.account counter own before).Ends l moment l' := by
  intro inside moments hreading
  obtain ⟨hcount, hevents⟩ : l.inFlight[counter]? = some (inside + 1) ∧
      l.events.filter own =
        before.events.filter own ++ (moments.flatMap μ.events).filter own :=
    Prod.mk.inj hreading
  refine Prod.ext ?_ ?_
  · exact h.count.trans (by rw [hcount]; rfl)
  · refine h.events.trans ?_
    rw [hevents]
    simp [Meter.account]

/-- To conclude is to tell about the answer, unless the request is to be ignored, and to count it off. -/
theorem run_conclude (μ : Meter) (counter : ℕ) (own : Event → Bool) (e : Entry) (response : Response)
    (l : Ledger) :
    ∃ l', (μ.conclude e response).run false [μ.close counter e] l = (.ended response, l') ∧
      IsOff counter own (μ.ended e response (l'.notesAt e.handle)) l l' := by
  cases hignore : (l.notesAt e.handle).ignore with
  | true =>
    refine ⟨μ.close counter e l, ?_, ?_⟩
    · simp only [Meter.conclude, Job.run, hignore, if_true]
    · have hnotes : (μ.close counter e l).notesAt e.handle = l.notesAt e.handle := rfl
      rw [hnotes, Meter.ended, if_pos hignore, List.nil_append]
      exact isOff_close μ counter own e l
  | false =>
    let told := l.noteAll (μ.told e response (l.notesAt e.handle))
    refine ⟨μ.close counter e told, ?_, ?_⟩
    · simp only [Meter.conclude, Job.run, hignore, Bool.false_eq_true, if_false]
      rfl
    · have hnotes : (μ.close counter e told).notesAt e.handle = l.notesAt e.handle := rfl
      have hoff := isOff_close μ counter own e told
      rw [hnotes, Meter.ended, if_neg (by simp [hignore])]
      refine ⟨hoff.count, ?_⟩
      rw [hoff.events]
      simp [told, Ledger.noteAll]

/-- How an advance of a request comes out that was to be concluded. -/
theorem outcome_of_came {visit : ℕ} {l : Ledger} {outcome : Progress Response × Ledger}
    (h : Job.Came (Ledger.holdings counter own) (μ.conclude e) [μ.close counter e] l outcome) :
    (μ.account counter own before).Outcome visit e l outcome := by
  cases h with
  | waits hjob hduties hsame => exact .waits ⟨_, _, rfl, hjob, hduties⟩ hsame
  | @broke message l' hsame =>
    have hoff : IsOff counter own (μ.events (.lost visit e)) l (μ.close counter e l') :=
      (isOff_close μ counter own e l').congr hsame
    exact .broke hoff.ends
  | @went response l₁ hsame =>
    obtain ⟨l', hrun, hoff⟩ := run_conclude μ counter own e response l₁
    have hended : IsOff counter own
        (μ.events (.answered visit e response (l'.notesAt e.handle))) l l' := hoff.congr hsame
    rw [hrun]
    exact .answered hended.ends

end Advance

/-! ## Every moment -/

section Moments

variable {counter : ℕ} {own : Event → Bool} {μ : Meter} {before : Ledger} {t : Traffic}
  {m : Middleware} {next : Next}

/-- While the account is right, the counter holds the number of requests inside. -/
theorem Meter.countAt_of_holds (h : (μ.account counter own before).Holds t) :
    t.ledger.countAt counter = t.inside := by
  have hcount : t.ledger.inFlight[counter]? = some t.inside := (Prod.mk.inj h.reading).1
  rw [Ledger.countAt, List.getD_eq_getElem?_getD, hcount, Option.getD_some]

/-- While the account is right, the events of the middleware's own kind are what was told. -/
theorem Meter.events_of_holds (h : (μ.account counter own before).Holds t) :
    t.ledger.events.filter own =
      before.events.filter own ++ (t.chronicle.flatMap μ.events).filter own :=
  (Prod.mk.inj h.reading).2

/-- The ledger when a request is handed on shows that it has entered. -/
theorem Meter.reading_handOn {e : Entry} (hledger : e.ledger = t.ledger)
    (h : (μ.account counter own before).Holds t) :
    (μ.handOn counter e).holdings counter own =
      (μ.account counter own before).expected (t.inside + 1)
        (t.chronicle ++ [.entered t.visits.length e]) := by
  have hcount : t.ledger.inFlight[counter]? = some t.inside := (Prod.mk.inj h.reading).1
  have hsame : (e.entered counter).inFlight = (t.ledger.enter counter).inFlight ∧
      (e.entered counter).events = t.ledger.events := by
    rw [← hledger]
    unfold Arrival.entered
    cases e.request.notes <;> exact ⟨rfl, rfl⟩
  refine Prod.ext ?_ ?_
  · change (e.entered counter).inFlight[counter]? = some (t.inside + 1)
    rw [hsame.1]
    simp [Ledger.enter, hcount]
  · change ((e.entered counter).events ++ μ.opened e).filter own = _
    rw [hsame.2, List.filter_append, events_of_holds h]
    simp [Meter.account, Meter.events]

/-- A meter keeps account of its middleware, around everything that leaves its counter and its events
alone. -/
theorem Meter.account_covers (before : Ledger) (hmetered : IsMetered m counter μ)
    (hnext : Handler.LeavesAlone (Ledger.holdings counter own) next.run) :
    (μ.account counter own before).Covers m next where
  arrive t request h := by
    have hcompany : Entry.of counter ⟨request, t.ledger⟩ = t.entry request := by
      have hcount : t.ledger.inFlight[counter]? = some t.inside := (Prod.mk.inj h.reading).1
      simp [Entry.of, Traffic.entry, Ledger.enter, Ledger.countAt, hcount]
    refine ⟨⟨(next.run (t.entry request).noted).bind (μ.conclude (t.entry request)),
      [μ.close counter (t.entry request)]⟩, μ.handOn counter (t.entry request), ?_,
      ⟨next.run (t.entry request).noted, [], rfl, hnext _, by simp⟩,
      reading_handOn rfl h⟩
    rw [← hcompany]
    exact hmetered next ⟨request, t.ledger⟩
  resume v hv visit l := by
    obtain ⟨job, duties, hflight, hjob, hduties⟩ := hv
    rw [hflight]
    exact outcome_of_came (Job.came_bind (hjob l) hduties _ _)
  drop v hv visit l := by
    obtain ⟨job, duties, hflight, -, hduties⟩ := hv
    have hoff : IsOff counter own (μ.events (.lost visit v.entry)) l (v.flight.drop l) := by
      rw [hflight, Flight.drop, Job.performAll_append]
      exact (isOff_close μ counter own v.entry _).congr (Job.kept_performAll hduties l)
    exact hoff.ends

/-- The account of a meter is right at every moment, in whatever order requests come, wait, go on and
end, as long as nobody else touches the counter and the events of the middleware's own kind. -/
theorem Meter.holds_steps (l : Ledger) (hmetered : IsMetered m l.addCounter.1 μ)
    (hnext : Handler.LeavesAlone (Ledger.holdings l.addCounter.1 own) next.run) {steps : List Step}
    (helse : ∀ change, .elsewhere change ∈ steps →
      change.LeavesAlone (Ledger.holdings l.addCounter.1 own)) :
    (μ.account l.addCounter.1 own l).Holds
      (Traffic.steps m next { ledger := l.addCounter.2 } steps) := by
  have hfresh : (μ.account l.addCounter.1 own l).Holds { ledger := l.addCounter.2 } := by
    refine Account.holds_fresh (Prod.ext ?_ ?_)
    · simp [Meter.account, Ledger.holdings, Ledger.addCounter]
    · simp [Meter.account, Ledger.holdings, Ledger.addCounter]
  exact hfresh.steps (account_covers l hmetered hnext) helse

end Moments

/-! ## Requests that cross each other -/

/-- Probes of health are to be ignored; other requests may wait at a gate. -/
def probed : Next where
  middleware := none
  run request :=
    if request.uri.path = "/health" then Handler.marking true Handler.noContent request
    else Handler.atGate Handler.noContent request

/-- The probed chain leaves alone what a counter holds. -/
theorem leavesAlone_probed (counter : ℕ) (own : Event → Bool) :
    Handler.LeavesAlone (Ledger.holdings counter own) probed.run := by
  intro request l
  simp only [probed]
  split_ifs
  · exact leavesAlone_marking true (leavesAlone_always _) request l
  · exact leavesAlone_atGate (leavesAlone_always _) request l

/-- Two requests wait, the first of them on a server with a name. A probe overtakes them, the first is
given up, the clock goes on, a third request is answered at once, and the second one goes on. -/
def crossing : List Step :=
  [.elsewhere fun l => (l.addNotes { serverName := some "api" }).2,
    .arrive { uri := ⟨none, none, "/first", none⟩, notes := some 0, extensions := [.gate] },
    .arrive { uri := ⟨none, none, "/second", none⟩, extensions := [.gate] },
    .arrive { uri := ⟨none, none, "/health", none⟩ }, .drop 0,
    .elsewhere fun l => { l with clock := { seconds := 60 } },
    .arrive { uri := ⟨none, none, "/third", none⟩ }, .resume 1]

/-- Changes that come from elsewhere while requests cross leave alone what a counter holds. -/
theorem leavesAlone_of_crossing (counter : ℕ) (own : Event → Bool) (change : Change)
    (hmem : .elsewhere change ∈ crossing) : change.LeavesAlone (Ledger.holdings counter own) := by
  have hcases : change = (fun l => (l.addNotes { serverName := some "api" }).2) ∨
      change = fun l => { l with clock := { seconds := 60 } } := by
    simpa [crossing] using hmem
  rcases hcases with rfl | rfl
  · exact fun l => rfl
  · exact fun l => rfl

end Middleware

end WebHost
