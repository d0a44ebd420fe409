import Mathlib.Algebra.Ring.Int.Defs
import Mathlib.Data.List.Basic
import WebHost.Middleware.AccessLog

/-!
# Requests through a middleware

Requests come to a middleware at any time, wait, go on, are answered, break down or are given up, in
any order, while others change the ledger. Whatever the middleware is, the moments of each request are
its entry and at most one end, and those that entered without those that are over are inside.

What the ledger shows of all this depends on the middleware. Whoever keeps account of the traffic reads
something in the ledger, knows what he should read there, and knows how it stands with the requests
inside. If a request that enters, one that goes on and one that is given up leave behind what he should
read, his account is right at every moment.
-/

set_option autoImplicit false

namespace WebHost

namespace Middleware

/-! ## Requests that enter -/

/-- A request that enters, with the ledger at that moment. -/
structure Arrival where
  request : Request
  ledger : Ledger

namespace Arrival

/-- The handle of the notes of the request. -/
def handle (a : Arrival) : ℕ := a.request.notes.getD a.ledger.notes.length

/-- The request as it is handed on. -/
def noted (a : Arrival) : Request := { a.request with notes := some a.handle }

/-- The ledger when the request is handed on. -/
def entered (a : Arrival) (counter : ℕ) : Ledger :=
  let l := a.ledger.enter counter
  if a.request.notes.isSome then l else (l.addNotes {}).2

/-- What is taken down about the request. -/
def info (a : Arrival) : RequestInfo := RequestInfo.of a.request (a.ledger.notesAt a.handle).remote

/-- A ledger with notes for the request. -/
def attach (a : Arrival) (l : Ledger) : Ledger :=
  if a.request.notes.isSome then l else (l.addNotes {}).2

/-- To make sure of notes is to go on with the request as it is handed on. -/
theorem run_ensureNotes {α : Type} (a : Arrival) {l : Ledger} (hnotes : l.notes = a.ledger.notes)
    (f : ℕ × Request → Job α) (duties : List Change) :
    (a.request.ensureNotes.bind f).run false duties l =
      (f (a.handle, a.noted)).run false duties (a.attach l) := by
  obtain ⟨request, before⟩ := a
  cases hrequest : request.notes with
  | some own =>
    have hhandle : handle ⟨request, before⟩ = own := by simp [handle, hrequest]
    have hnoted : noted ⟨request, before⟩ = request := by rw [noted, hhandle, ← hrequest]
    have hattach : attach ⟨request, before⟩ l = l := by simp [attach, hrequest]
    have hensure : request.ensureNotes = .done (own, request) := by
      simp only [Request.ensureNotes, hrequest]
      rfl
    rw [hhandle, hnoted, hattach, hensure, Job.bind_done]
  | none =>
    have hhandle : handle ⟨request, before⟩ = l.notes.length := by simp [handle, hrequest, hnotes]
    have hattach : attach ⟨request, before⟩ l = (l.addNotes {}).2 := by simp [attach, hrequest]
    rw [noted, hhandle, hattach]
    simp only [Request.ensureNotes, hrequest]
    rfl

/-- Notes that are attached say what the notes of the request said when it entered. -/
theorem notesAt_attach (a : Arrival) {l : Ledger} (hnotes : l.notes = a.ledger.notes) :
    (a.attach l).notesAt a.handle = a.ledger.notesAt a.handle := by
  obtain ⟨request, l₀⟩ := a
  cases hrequest : request.notes with
  | some handle => simp [attach, Ledger.notesAt, hrequest, hnotes]
  | none => simp [attach, Ledger.notesAt, Ledger.addNotes, handle, hrequest, hnotes]

/-- What is taken down about a request that was handed on goes by its notes. -/
theorem info_noted (a : Arrival) : a.noted.info =
    .ask fun l => .done (RequestInfo.of a.request (l.notesAt a.handle).remote) := rfl

end Arrival

/-- A request that entered, with the number of requests that were inside then, itself included. -/
structure Entry extends Arrival where
  company : ℕ

/-! ## Moments -/

/-- Something that happened to a request. Requests are numbered in the order of their entries. -/
inductive Moment where
  | entered (visit : ℕ) (e : Entry)
  /-- It was answered; the notes are those of that moment. -/
  | answered (visit : ℕ) (e : Entry) (response : Response) (notes : Notes)
  /-- It was given up, or it broke down. -/
  | lost (visit : ℕ) (e : Entry)

/-- The number of the request that a moment is about. -/
def Moment.visit : Moment → ℕ
  | .entered visit _ => visit
  | .answered visit _ _ _ => visit
  | .lost visit _ => visit

/-- The entry of the request that a moment is about. -/
def Moment.entry : Moment → Entry
  | .entered _ e => e
  | .answered _ e _ _ => e
  | .lost _ e => e

/-- By how much a moment changes the number of requests of some kind that are inside. -/
def Moment.change (kind : Entry → Bool) : Moment → ℤ
  | .entered _ e => if kind e then 1 else 0
  | .answered _ e _ _ => if kind e then -1 else 0
  | .lost _ e => if kind e then -1 else 0

/-- The number of requests of some kind that are inside after some moments: those that entered without
those that were answered or lost. -/
def present (kind : Entry → Bool) (moments : List Moment) : ℤ := (moments.map (·.change kind)).sum

/-- Each request that entered knows how many were inside then, itself included. -/
def IsCounted (moments : List Moment) : Prop :=
  ∀ (front : List Moment) (visit : ℕ) (e : Entry) (back : List Moment),
    moments = front ++ .entered visit e :: back → e.company = present (fun _ => true) front + 1

/-! ## Traffic -/

/-- A request inside, with what is left to do for it. -/
structure Visit where
  entry : Entry
  flight : Flight Response

/-- The number of requests of some kind among those inside. -/
def countInside (kind : Entry → Bool) (visits : List (Option Visit)) : ℕ :=
  visits.countP fun fate => fate.any fun v => kind v.entry

/-- The requests that entered, where those that are over have left a gap, everything that happened to
them in order, and the ledger that they share with everybody else. -/
structure Traffic where
  ledger : Ledger
  visits : List (Option Visit) := []
  chronicle : List Moment := []

/-- What happens to a middleware, or around it. -/
inductive Step where
  /-- A request enters. -/
  | arrive (request : Request)
  /-- A request that waits goes on. -/
  | resume (visit : ℕ)
  /-- A request that waits is given up. -/
  | drop (visit : ℕ)
  /-- Somebody else changes the ledger. -/
  | elsewhere (change : Change)

namespace Traffic

/-- The number of requests of some kind inside. -/
def insideOf (t : Traffic) (kind : Entry → Bool) : ℕ := countInside kind t.visits

/-- The number of requests inside. -/
def inside (t : Traffic) : ℕ := t.insideOf fun _ => true

/-- Everything that happened to one request. -/
def story (t : Traffic) (visit : ℕ) : List Moment := t.chronicle.filter (·.visit = visit)

/-- The entry of a request that comes now. -/
def entry (t : Traffic) (request : Request) : Entry where
  request := request
  ledger := t.ledger
  company := t.inside + 1

/-- The traffic when a request has entered, with what is left to do for it and another ledger. -/
def enter (t : Traffic) (e : Entry) (flight : Flight Response) (l : Ledger) : Traffic where
  ledger := l
  visits := t.visits ++ [some ⟨e, flight⟩]
  chronicle := t.chronicle ++ [.entered t.visits.length e]

/-- The traffic when a request is over, at its last moment and with another ledger. -/
def close (t : Traffic) (moment : Moment) (l : Ledger) : Traffic where
  ledger := l
  visits := t.visits.set moment.visit none
  chronicle := t.chronicle ++ [moment]

/-- Takes down how an advance of a request came out. -/
def settle (t : Traffic) (visit : ℕ) (e : Entry) : Progress Response × Ledger → Traffic
  | (.ended response, l) => t.close (.answered visit e response (l.notesAt e.handle)) l
  | (.paused flight, l) => { t with ledger := l, visits := t.visits.set visit (some ⟨e, flight⟩) }
  | (.broken _, l) => t.close (.lost visit e) l

/-- What a step does; a step of a request that is not inside does nothing. -/
def step (m : Middleware) (next : Next) (t : Traffic) : Step → Traffic
  | .arrive request =>
    let flight := Flight.start (m.around next request)
    (t.enter (t.entry request) flight t.ledger).settle t.visits.length (t.entry request)
      (flight.advance t.ledger)
  | .resume visit =>
    match t.visits[visit]? with
    | some (some v) => t.settle visit v.entry (v.flight.advance t.ledger)
    | _ => t
  | .drop visit =>
    match t.visits[visit]? with
    | some (some v) => t.close (.lost visit v.entry) (v.flight.drop t.ledger)
    | _ => t
  | .elsewhere change => { t with ledger := change t.ledger }

/-- Steps one after the other. -/
def steps (m : Middleware) (next : Next) (t : Traffic) (l : List Step) : Traffic :=
  l.foldl (step m next) t

/-- The outcome of an advance replaces the ledger and what was left to do for its request, so it is
settled alike whatever these were. -/
theorem settle_enter (t : Traffic) (e : Entry) (flight flight' : Flight Response) (l l' : Ledger)
    (outcome : Progress Response × Ledger) :
    (t.enter e flight l).settle t.visits.length e outcome =
      (t.enter e flight' l').settle t.visits.length e outcome := by
  obtain ⟨progress, after⟩ := outcome
  cases progress <;> simp [settle, enter, close, Moment.visit]

end Traffic

/-- How the moments of a request fit what is known of it: it has not come, is inside, or is over. -/
inductive Story (visit : ℕ) : Option (Option Visit) → List Moment → Prop
  | awaited : Story visit none []
  | inside {v : Visit} : Story visit (some (some v)) [.entered visit v.entry]
  | answered {e : Entry} {response : Response} {notes : Notes} :
    Story visit (some none) [.entered visit e, .answered visit e response notes]
  | lost {e : Entry} : Story visit (some none) [.entered visit e, .lost visit e]

section Stories

variable {visit : ℕ} {v : Visit}

/-- A request inside has entered, and nothing else has happened to it. -/
theorem Story.eq_of_inside {story : List Moment} (h : Story visit (some (some v)) story) :
    story = [.entered visit v.entry] := by
  cases h
  rfl

/-- Nothing has happened to a request that has not come. -/
theorem Story.eq_of_awaited {story : List Moment} (h : Story visit none story) : story = [] := by
  cases h
  rfl

/-- A request that was answered entered before, and nothing else happened to it. -/
theorem Story.eq_of_answered {fate : Option (Option Visit)} {story : List Moment}
    (h : Story visit fate story) {e : Entry} {response : Response} {notes : Notes}
    (hmem : .answered visit e response notes ∈ story) :
    story = [.entered visit e, .answered visit e response notes] := by
  cases h <;> simp at hmem
  obtain ⟨rfl, rfl, rfl⟩ := hmem
  rfl

/-- A request that was lost entered before, and nothing else happened to it. -/
theorem Story.eq_of_lost {fate : Option (Option Visit)} {story : List Moment}
    (h : Story visit fate story) {e : Entry} (hmem : .lost visit e ∈ story) :
    story = [.entered visit e, .lost visit e] := by
  cases h <;> simp at hmem
  obtain rfl := hmem
  rfl

/-- What happened belongs to the story of the request that it happened to. -/
theorem Traffic.mem_story {t : Traffic} {moment : Moment} (h : moment ∈ t.chronicle) :
    moment ∈ t.story moment.visit := by
  simp [Traffic.story, h]

/-- A moment of a request makes its story longer. -/
theorem filter_visit_self (moments : List Moment) {moment : Moment} (h : moment.visit = visit) :
    (moments ++ [moment]).filter (·.visit = visit) =
      moments.filter (·.visit = visit) ++ [moment] := by
  simp [h]

/-- A moment of another request leaves a story as it is. -/
theorem filter_visit_of_ne (moments : List Moment) {moment : Moment} (h : moment.visit ≠ visit) :
    (moments ++ [moment]).filter (·.visit = visit) = moments.filter (·.visit = visit) := by
  simp [h]

/-- One more moment changes the number of requests inside by what it says. -/
theorem present_concat (kind : Entry → Bool) (moments : List Moment) (moment : Moment) :
    present kind (moments ++ [moment]) = present kind moments + moment.change kind := by
  simp [present]

/-- Moments stay counted with one more of them, if it is no entry or a counted one. -/
theorem IsCounted.concat {moments : List Moment} (h : IsCounted moments) {moment : Moment}
    (hentry : ∀ visit e, moment = .entered visit e →
      e.company = present (fun _ => true) moments + 1) : IsCounted (moments ++ [moment]) := by
  intro front visit e back hsplit
  -- the entry in question is the last moment, or stands before it
  rcases List.eq_nil_or_concat back with rfl | ⟨before, last, rfl⟩
  · obtain ⟨rfl, hlast⟩ := List.append_inj' hsplit rfl
    exact hentry visit e (List.singleton_inj.mp hlast)
  · rw [List.concat_eq_append, ← List.cons_append, ← List.append_assoc] at hsplit
    exact h front visit e before (List.append_inj' hsplit rfl).1

/-- Another fate of a request inside changes the number of requests inside by that request alone. -/
theorem countInside_set {visits : List (Option Visit)} (hv : visits[visit]? = some (some v))
    (fate : Option Visit) (kind : Entry → Bool) :
    countInside kind (visits.set visit fate) + (if kind v.entry then 1 else 0) =
      countInside kind visits + if fate.any fun v => kind v.entry then 1 else 0 := by
  obtain ⟨hlt, hget⟩ := List.getElem?_eq_some_iff.mp hv
  have hle : (if kind v.entry then 1 else 0) ≤ countInside kind visits := by
    split_ifs with hkind
    · apply List.countP_pos_iff.mpr
      exact ⟨some v, List.mem_of_getElem? hv, hkind⟩
    · exact Nat.zero_le _
  unfold countInside at hle ⊢
  rw [List.countP_set hlt, hget, Option.any_some]
  omega

end Stories

/-! ## What holds around every middleware -/

namespace Traffic

variable {m : Middleware} {next : Next} {t : Traffic} {visit : ℕ} {v : Visit}

/-- The chronicle fits the requests: each has its story, those inside are those that entered without
those that are over, and each entry knows how many were inside. -/
structure IsKept (t : Traffic) : Prop where
  stories : ∀ visit, Story visit t.visits[visit]? (t.story visit)
  present : ∀ kind, Middleware.present kind t.chronicle = t.insideOf kind
  counted : IsCounted t.chronicle

/-- After a request is over there is one request less inside. -/
theorem inside_close (hv : t.visits[visit]? = some (some v)) {moment : Moment}
    (hvisit : moment.visit = visit) (l : Ledger) : (t.close moment l).inside + 1 = t.inside := by
  rw [← hvisit] at hv
  exact countInside_set hv none fun _ => true

/-- A request inside is over. -/
theorem IsKept.close (h : t.IsKept) (hv : t.visits[visit]? = some (some v)) {moment : Moment}
    (hstory : Story visit (some none) [.entered visit v.entry, moment]) (l : Ledger) :
    (t.close moment l).IsKept := by
  have hlt := (List.getElem?_eq_some_iff.mp hv).1
  have hover : moment.visit = visit ∧ (∀ i e, moment ≠ .entered i e) ∧
      ∀ kind, moment.change kind = if kind v.entry then -1 else 0 := by
    cases hstory <;> exact ⟨rfl, by simp, fun _ => rfl⟩
  obtain ⟨rfl, hend, hchange⟩ := hover
  refine ⟨?_, ?_, ?_⟩
  · intro i
    change Story i (t.visits.set moment.visit none)[i]?
      ((t.chronicle ++ [moment]).filter (·.visit = i))
    -- this request gets the end of its story, and no other story changes
    by_cases hi : moment.visit = i
    · subst hi
      have hentered := h.stories moment.visit
      rw [hv] at hentered
      have hbefore : t.chronicle.filter (·.visit = moment.visit) =
          [.entered moment.visit v.entry] := hentered.eq_of_inside
      rw [List.getElem?_set_self hlt, filter_visit_self _ rfl, hbefore]
      exact hstory
    · rw [List.getElem?_set_ne hi, filter_visit_of_ne _ hi]
      exact h.stories i
  · intro kind
    have hkind : countInside kind (t.visits.set moment.visit none) +
        (if kind v.entry then 1 else 0) = t.insideOf kind := countInside_set hv none kind
    change Middleware.present kind (t.chronicle ++ [moment]) =
      (countInside kind (t.visits.set moment.visit none) : ℤ)
    rw [present_concat, h.present, hchange]
    split_ifs at hkind ⊢ <;> omega
  · exact h.counted.concat fun i e hentry => absurd hentry (hend i e)

/-- A request that waits again is inside as before. -/
theorem IsKept.wait (h : t.IsKept) (hv : t.visits[visit]? = some (some v))
    (flight : Flight Response) (l : Ledger) :
    (t.settle visit v.entry (.paused flight, l)).IsKept := by
  have hlt := (List.getElem?_eq_some_iff.mp hv).1
  refine ⟨?_, ?_, h.counted⟩
  · intro i
    change Story i (t.visits.set visit _)[i]? (t.story i)
    by_cases hi : visit = i
    · subst hi
      have hentered := h.stories visit
      rw [hv] at hentered
      rw [List.getElem?_set_self hlt, hentered.eq_of_inside]
      exact .inside
    · rw [List.getElem?_set_ne hi]
      exact h.stories i
  · intro kind
    have hsame : (t.settle visit v.entry (.paused flight, l)).insideOf kind = t.insideOf kind :=
      Nat.add_right_cancel (countInside_set hv (some ⟨v.entry, flight⟩) kind)
    rw [hsame]
    exact h.present kind

/-- A request enters. -/
theorem IsKept.enter (h : t.IsKept) {e : Entry} (hcompany : e.company = t.inside + 1)
    (flight : Flight Response) (l : Ledger) : (t.enter e flight l).IsKept where
  stories i := by
    change Story i (t.visits ++ [some ⟨e, flight⟩])[i]?
      ((t.chronicle ++ [Moment.entered t.visits.length e]).filter (·.visit = i))
    have hold := h.stories i
    have hvisit : (Moment.entered t.visits.length e).visit = t.visits.length := rfl
    rcases Nat.lt_trichotomy i t.visits.length with hi | rfl | hi
    · rw [List.getElem?_append_left hi, filter_visit_of_ne _ (hvisit.trans_ne (Nat.ne_of_gt hi))]
      exact hold
    · rw [List.getElem?_eq_none le_rfl] at hold
      have hnone : t.chronicle.filter (·.visit = t.visits.length) = [] := hold.eq_of_awaited
      rw [List.getElem?_concat_length, filter_visit_self _ hvisit, hnone]
      exact .inside
    · have hlong : (t.visits ++ [some ⟨e, flight⟩])[i]? = none := by
        apply List.getElem?_eq_none
        rw [List.length_append, List.length_singleton]
        omega
      rw [List.getElem?_eq_none (Nat.le_of_lt hi)] at hold
      rw [hlong, filter_visit_of_ne _ (hvisit.trans_ne (Nat.ne_of_lt hi))]
      exact hold
  present kind := by
    change Middleware.present kind (t.chronicle ++ [.entered t.visits.length e]) =
      (countInside kind (t.visits ++ _) : ℤ)
    rw [present_concat, h.present]
    cases hkind : kind e <;> simp [Moment.change, countInside, insideOf, hkind]
  counted := by
    apply h.counted.concat
    intro visit e' hentry
    obtain ⟨-, rfl⟩ := Moment.entered.inj hentry
    rw [hcompany, h.present]
    rfl

/-- The chronicle of no moments is right. -/
theorem isKept_fresh (l : Ledger) : ({ ledger := l } : Traffic).IsKept where
  stories visit := by
    simpa [story] using Story.awaited
  present kind := rfl
  counted := by
    intro front visit e back hsplit
    simp at hsplit

/-! ## Requests of some kind -/

/-- All requests that came are of some kind. -/
structure IsAll (p : Request → Prop) (t : Traffic) : Prop where
  inside : ∀ v, some v ∈ t.visits → p v.entry.request
  past : ∀ moment ∈ t.chronicle, p moment.entry.request

/-- Who is inside after one request has left was inside before. -/
theorem mem_of_mem_set_none {visits : List (Option Visit)} {w : Visit}
    (h : some w ∈ visits.set visit none) : some w ∈ visits := by
  rcases List.mem_or_eq_of_mem_set h with h | h
  · exact h
  · exact absurd h (by simp)

section IsAll

variable {p : Request → Prop}

/-- One that came is over. -/
theorem IsAll.close (h : t.IsAll p) (moment : Moment) (hp : p moment.entry.request) (l : Ledger) :
    (t.close moment l).IsAll p := by
  refine ⟨fun w hw => h.inside w (mem_of_mem_set_none hw), fun past hpast => ?_⟩
  rcases List.mem_append.mp hpast with hpast | hpast
  · exact h.past past hpast
  · obtain rfl := List.mem_singleton.mp hpast
    exact hp

/-- However an advance of one that came comes out. -/
theorem IsAll.settle (h : t.IsAll p) {e : Entry} (hp : p e.request)
    (outcome : Progress Response × Ledger) : (t.settle visit e outcome).IsAll p := by
  obtain ⟨progress, l⟩ := outcome
  cases progress with
  | ended response => exact h.close (.answered visit e response _) hp l
  | broken message => exact h.close (.lost visit e) hp l
  | paused flight =>
    refine ⟨fun w hw => ?_, h.past⟩
    rcases List.mem_or_eq_of_mem_set hw with hw | hw
    · exact h.inside w hw
    · obtain rfl := Option.some.inj hw
      exact hp

/-- Whatever else happens, those that came stay of the kind of which those are that enter. -/
theorem IsAll.step (h : t.IsAll p) {a : Step} (ha : ∀ request, a = .arrive request → p request) :
    (t.step m next a).IsAll p := by
  cases a with
  | arrive request =>
    have hp := ha request rfl
    refine IsAll.settle ⟨fun w hw => ?_, fun past hpast => ?_⟩ hp _
    · rcases List.mem_append.mp hw with hw | hw
      · exact h.inside w hw
      · obtain rfl := Option.some.inj (List.mem_singleton.mp hw)
        exact hp
    · rcases List.mem_append.mp hpast with hpast | hpast
      · exact h.past past hpast
      · obtain rfl := List.mem_singleton.mp hpast
        exact hp
  | resume visit =>
    simp only [Traffic.step]
    split
    · rename_i v hv
      exact h.settle (h.inside v (List.mem_of_getElem? hv)) _
    · exact h
  | drop visit =>
    simp only [Traffic.step]
    split
    · rename_i v hv
      exact h.close (.lost visit v.entry) (h.inside v (List.mem_of_getElem? hv)) _
    · exact h
  | elsewhere change => exact ⟨h.inside, h.past⟩

/-- If all requests that enter are of some kind, then so are all those that came. -/
theorem IsAll.steps (h : t.IsAll p) {l : List Step} (hl : ∀ request, .arrive request ∈ l → p request) :
    (t.steps m next l).IsAll p := by
  induction l generalizing t with
  | nil => exact h
  | cons a l ih =>
    have hfirst : ∀ request, a = .arrive request → p request := by
      rintro request rfl
      exact hl request List.mem_cons_self
    exact ih (h.step hfirst) fun request hmem => hl request (List.mem_cons_of_mem _ hmem)

end IsAll

end Traffic

/-! ## What is read in the ledger -/

/-- An account of the traffic: what is read in the ledger, what should be read there with so many
requests inside after some moments, and how it stands with a request inside. -/
structure Account (σ : Type) where
  reading : Ledger → σ
  expected : ℕ → List Moment → σ
  IsUnderWay : Visit → Prop

namespace Account

variable {σ : Type} {α : Account σ} {m : Middleware} {next : Next} {t : Traffic} {visit : ℕ}
  {v : Visit}

/-- From a ledger to another a request came to its last moment, and what should be read is read. -/
def Ends (α : Account σ) (l : Ledger) (moment : Moment) (l' : Ledger) : Prop :=
  ∀ inside moments, α.reading l = α.expected (inside + 1) moments →
    α.reading l' = α.expected inside (moments ++ [moment])

/-- How an advance of a request comes out, and what it leaves behind. -/
inductive Outcome (α : Account σ) (visit : ℕ) (e : Entry) (l : Ledger) :
    Progress Response × Ledger → Prop
  | waits {flight : Flight Response} {l' : Ledger} : α.IsUnderWay ⟨e, flight⟩ →
    α.reading l' = α.reading l → Outcome α visit e l (.paused flight, l')
  | broke {message : String} {l' : Ledger} : α.Ends l (.lost visit e) l' →
    Outcome α visit e l (.broken message, l')
  | answered {response : Response} {l' : Ledger} :
    α.Ends l (.answered visit e response (l'.notesAt e.handle)) l' →
    Outcome α visit e l (.ended response, l')

/-- The account is right: what is read in the ledger is what should be read, and it stands with those
inside as it should. -/
structure Holds (α : Account σ) (t : Traffic) : Prop where
  kept : t.IsKept
  reading : α.reading t.ledger = α.expected t.inside t.chronicle
  underWay : ∀ v, some v ∈ t.visits → α.IsUnderWay v

/-- The account covers a middleware. A request that enters goes on like one with which it stands as it
should, from a ledger that shows its entry; one with which it stands so leaves what it should wherever
it is resumed, and also where it is given up. -/
structure Covers (α : Account σ) (m : Middleware) (next : Next) : Prop where
  arrive : ∀ t request, α.Holds t → ∃ flight l,
    (Flight.start (m.around next request)).advance t.ledger = flight.advance l ∧
      α.IsUnderWay ⟨t.entry request, flight⟩ ∧
      α.reading l = α.expected (t.inside + 1)
        (t.chronicle ++ [.entered t.visits.length (t.entry request)])
  resume : ∀ v, α.IsUnderWay v → ∀ visit l, α.Outcome visit v.entry l (v.flight.advance l)
  drop : ∀ v, α.IsUnderWay v → ∀ visit l, α.Ends l (.lost visit v.entry) (v.flight.drop l)

/-- A request inside is over. -/
theorem Holds.close (h : α.Holds t) (hv : t.visits[visit]? = some (some v)) {moment : Moment}
    (hstory : Story visit (some none) [.entered visit v.entry, moment]) {l : Ledger}
    (hends : α.Ends t.ledger moment l) : α.Holds (t.close moment l) where
  kept := h.kept.close hv hstory l
  reading := by
    have hvisit : moment.visit = visit := by cases hstory <;> rfl
    refine hends _ _ ?_
    rw [Traffic.inside_close hv hvisit]
    exact h.reading
  underWay w hw := h.underWay w (Traffic.mem_of_mem_set_none hw)

/-- However an advance of a request inside comes out. -/
theorem Holds.settle (h : α.Holds t) (hv : t.visits[visit]? = some (some v))
    {outcome : Progress Response × Ledger} (houtcome : α.Outcome visit v.entry t.ledger outcome) :
    α.Holds (t.settle visit v.entry outcome) := by
  cases houtcome with
  | broke hends => exact h.close hv .lost hends
  | answered hends => exact h.close hv .answered hends
  | @waits flight l hway hsame =>
    refine ⟨h.kept.wait hv flight l, ?_, fun w hw => ?_⟩
    · have hinside : (t.settle visit v.entry (.paused flight, l)).inside = t.inside :=
        Nat.add_right_cancel (countInside_set hv (some ⟨v.entry, flight⟩) fun _ => true)
      rw [hinside]
      exact hsame.trans h.reading
    · rcases List.mem_or_eq_of_mem_set hw with hw | hw
      · exact h.underWay w hw
      · obtain rfl := Option.some.inj hw
        exact hway

/-- A request enters. -/
theorem Holds.enter (h : α.Holds t) {e : Entry} (hcompany : e.company = t.inside + 1)
    {flight : Flight Response} {l : Ledger} (hway : α.IsUnderWay ⟨e, flight⟩)
    (hreading : α.reading l =
      α.expected (t.inside + 1) (t.chronicle ++ [.entered t.visits.length e])) :
    α.Holds (t.enter e flight l) where
  kept := h.kept.enter hcompany flight l
  reading := by
    have hinside : (t.enter e flight l).inside = t.inside + 1 := by
      simp [Traffic.inside, Traffic.insideOf, Traffic.enter, countInside]
    rw [hinside]
    exact hreading
  underWay w hw := by
    rcases List.mem_append.mp hw with hw | hw
    · exact h.underWay w hw
    · obtain rfl := Option.some.inj (List.mem_singleton.mp hw)
      exact hway

/-- A right account stays right, if nobody else changes what is read. -/
theorem Holds.step (h : α.Holds t) (hcovers : α.Covers m next) {a : Step}
    (helse : ∀ change, a = .elsewhere change → ∀ l, α.reading (change l) = α.reading l) :
    α.Holds (t.step m next a) := by
  cases a with
  | arrive request =>
    obtain ⟨flight, l, hadvance, hway, hreading⟩ := hcovers.arrive t request h
    simp only [Traffic.step]
    rw [t.settle_enter _ _ flight _ l, hadvance]
    exact (h.enter rfl hway hreading).settle List.getElem?_concat_length
      (hcovers.resume _ hway _ l)
  | resume visit =>
    simp only [Traffic.step]
    split
    · rename_i v hv
      exact h.settle hv (hcovers.resume v (h.underWay v (List.mem_of_getElem? hv)) visit t.ledger)
    · exact h
  | drop visit =>
    simp only [Traffic.step]
    split
    · rename_i v hv
      exact h.close hv .lost
        (hcovers.drop v (h.underWay v (List.mem_of_getElem? hv)) visit t.ledger)
    · exact h
  | elsewhere change =>
    exact ⟨⟨h.kept.stories, h.kept.present, h.kept.counted⟩,
      (helse change rfl t.ledger).trans h.reading, h.underWay⟩

/-- A right account stays right whatever happens and in whatever order, if nobody else changes what is
read. -/
theorem Holds.steps (h : α.Holds t) (hcovers : α.Covers m next) {l : List Step}
    (helse : ∀ change, .elsewhere change ∈ l → ∀ l, α.reading (change l) = α.reading l) :
    α.Holds (t.steps m next l) := by
  induction l generalizing t with
  | nil => exact h
  | cons a l ih =>
    have hfirst : ∀ change, a = .elsewhere change → ∀ l, α.reading (change l) = α.reading l := by
      rintro change rfl
      exact helse change List.mem_cons_self
    exact ih (h.step hcovers hfirst) fun change hmem => helse change (List.mem_cons_of_mem _ hmem)

/-- Before the first request an account is right that expects what is read then. -/
theorem holds_fresh {l : Ledger} (h : α.reading l = α.expected 0 []) :
    α.Holds { ledger := l } where
  kept := Traffic.isKept_fresh l
  reading := h
  underWay _ hv := absurd hv List.not_mem_nil

end Account

end Middleware

end WebHost
