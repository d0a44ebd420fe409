import WebHost.Proofs.Server.Departure
import WebHost.Proofs.Server.Safety

/-!
# Runs succeed each other

Each run waits for the run before it only, which may itself still be waiting when it is closed. So
runs form a queue: a run that waits no more knows that the run before it has stopped, and a run that
has stopped waits no more either, so every earlier run has stopped as well. As long as no run is
given up, a run that has stopped holds no listener, and no run binds the address while an earlier
one still listens on it.
-/

set_option autoImplicit false

namespace WebHost

namespace Server

/-! ## What a step does to the runs -/

/-- What a step does to the runs of a server. -/
inductive RunEffect (s : Server) (runs : List Run) : Step → Prop where
  /-- Nothing. -/
  | idle {a : Step} : runs = s.runs → RunEffect s runs a
  /-- It starts a run. -/
  | begin {a : Step} {e : Entry} {acceptor : Option TlsAcceptor} :
    runs = s.runs ++ [s.newRun e acceptor] → RunEffect s runs a
  /-- A run takes a step. -/
  | move {a : Step} {n : Nat} {b : Run.Step} : runs = s.runs.modify n (·.step b) →
    (b = .proceed → ∀ r, s.runs[n]? = some r → s.predecessorStopped r = true) →
    (b = .drop → a = .run n .drop) → RunEffect s runs a

/-- A start adds no run or a new one at the end. -/
theorem runs_start (s : Server) (vault : Vault) (e : Entry) :
    (s.start vault e).1.runs = s.runs ∨
      ∃ acceptor, (s.start vault e).1.runs = s.runs ++ [s.newRun e acceptor] := by
  unfold start
  split
  · exact .inl rfl
  · split
    · exact .inl rfl
    · exact .inr ⟨_, rfl⟩

/-- Recording a result adds and removes no run. -/
theorem runs_finish (s : Server) (n : Nat) (error : ServerError) :
    (s.finish n error).runs = s.runs := by
  unfold finish
  split <;> rfl

/-- Marking a server closed adds and removes no run. -/
theorem runs_markClosed (s : Server) (n : Nat) : (s.markClosed n).runs = s.runs := by
  unfold markClosed
  split <;> rfl

/-- What a step of a run does to the runs of the server is what its effects say. -/
theorem stepRun_runs (s : Server) (n : Nat) (b : Run.Step) :
    RunEffect s (s.stepRun n b).runs (.run n b) := by
  cases hr : s.runs[n]? with
  | none => simpa only [stepRun, hr] using .idle rfl
  | some r =>
    cases b with
    | beginDrain | close => simpa only [stepRun, hr] using .idle rfl
    | proceed =>
      simp only [stepRun, hr]
      split
      · rename_i hstopped
        refine .move rfl (fun _ r' hr' => ?_) (by simp)
        obtain rfl : r = r' := by simpa [hr] using hr'
        exact hstopped
      · exact .idle rfl
    | record =>
      simp only [stepRun, hr]
      split
      · rw [runs_finish]
        exact .move rfl (by simp) (by simp)
      · exact .idle rfl
    | drain call drainStep =>
      cases drainStep with
      | close =>
        simp only [stepRun, hr]
        split
        · rw [runs_markClosed]
          exact .move rfl (by simp) (by simp)
        · exact .idle rfl
      | _ =>
        simp only [stepRun, hr]
        exact .move rfl (by simp) (by simp)
    | _ =>
      simp only [stepRun, hr]
      exact .move rfl (by simp) (by simp)

/-- What any step does to the runs of a server. -/
theorem step_runs (s : Server) (a : Step) : RunEffect s (s.step a).runs a := by
  cases a with
  | configure vault options =>
    have hlife := congrArg Life.runs (s.life_configure vault options)
    exact .idle hlife
  | start vault entry =>
    rcases s.runs_start vault entry with hruns | ⟨acceptor, hruns⟩
    · exact .idle hruns
    · exact .begin hruns
  | choose => exact .idle rfl
  | startChosen vault caller =>
    simp only [step]
    split
    · rename_i secure _
      rcases runs_start { s with choices := s.choices.set caller none } vault (.choose secure) with
        hruns | ⟨acceptor, hruns⟩
      · exact .idle hruns
      · exact .begin hruns
    · exact .idle rfl
  | beginShutdown allowed =>
    simp only [step, beginShutdown]
    split
    · exact .idle rfl
    · exact .move rfl (by simp) (by simp)
  | close =>
    simp only [step, close]
    split
    · exact .idle rfl
    · exact .move rfl (by simp) (by simp)
  | run n b => exact s.stepRun_runs n b

/-! ## The queue of runs -/

section Queue

variable {runs : List Run}

/-- Runs that wait for each other in the order of their starts, none of which was given up. -/
structure IsQueue (runs : List Run) : Prop where
  orderly : ∀ (n : Nat) (r : Run), runs[n]? = some r → r.IsOrderly ∧ ¬ r.stage.IsForsaken
  previous : ∀ (n : Nat) (r : Run), runs[n]? = some r → r.previous = (List.range n).getLast?
  waited : ∀ (n : Nat) (p r : Run), runs[n]? = some p → runs[n + 1]? = some r → r.stage ≠ .waiting →
    p.stopped.isSet = true

/-- A run that waits no more comes after runs that have all stopped. -/
theorem IsQueue.stopped_of_lt (h : IsQueue runs) {m n : Nat} {p r : Run} (hlt : m < n)
    (hp : runs[m]? = some p) (hr : runs[n]? = some r) (hstage : r.stage ≠ .waiting) :
    p.stopped.isSet = true := by
  induction n generalizing r with
  | zero => exact absurd hlt (Nat.not_lt_zero m)
  | succ n ih =>
    by_cases hm : m = n
    · subst hm
      exact h.waited m p r hp hr hstage
    · -- the run in between has stopped, so it does not wait either
      have hbound : n < runs.length := by
        have := (List.getElem?_eq_some_iff.mp hr).1
        omega
      obtain ⟨q, hq⟩ : ∃ q, runs[n]? = some q := ⟨_, List.getElem?_eq_getElem hbound⟩
      have hstopped : q.stopped.isSet = true := h.waited n q r hq hr hstage
      exact ih (by omega) hq ((h.orderly n q hq).1.stage_of_stopped hstopped).1

/-- A run that waits for the one before it joins the queue. -/
theorem IsQueue.begin (h : IsQueue runs) {r : Run} (hr : r.IsOrderly)
    (hwaiting : r.stage = .waiting)
    (hprevious : r.previous = (List.range runs.length).getLast?) : IsQueue (runs ++ [r]) := by
  have hcases {n : Nat} {r' : Run} (hn : (runs ++ [r])[n]? = some r') :
      runs[n]? = some r' ∨ n = runs.length ∧ r' = r := by
    rw [List.getElem?_append] at hn
    split at hn
    · exact .inl hn
    · rw [List.getElem?_singleton] at hn
      split at hn
      · exact .inr ⟨by omega, (Option.some.inj hn).symm⟩
      · simp at hn
  refine ⟨fun n r' hn => ?_, fun n r' hn => ?_, fun n p r' hp hn hstage => ?_⟩
  · rcases hcases hn with hn | ⟨-, rfl⟩
    · exact h.orderly n r' hn
    · exact ⟨hr, by rw [hwaiting]; exact id⟩
  · rcases hcases hn with hn | ⟨rfl, rfl⟩
    · exact h.previous n r' hn
    · exact hprevious
  · rcases hcases hn with hn | ⟨-, rfl⟩
    · have hbound := (List.getElem?_eq_some_iff.mp hn).1
      rcases hcases hp with hp | ⟨rfl, -⟩
      · exact h.waited n p r' hp hn hstage
      · omega
    · exact absurd hwaiting hstage

end Queue

variable {s : Server} {a : Step}

/-- Runs stay a queue while none is dropped and each proceeds only behind one that has stopped. -/
theorem IsQueue.move (h : IsQueue s.runs) {n : Nat} {b : Run.Step} (hdrop : b ≠ .drop)
    (hproceed : b = .proceed → ∀ r, s.runs[n]? = some r → s.predecessorStopped r = true) :
    IsQueue (s.runs.modify n (·.step b)) := by
  have hcases {m : Nat} {r' : Run} (hm : (s.runs.modify n (·.step b))[m]? = some r') :
      ∃ r, s.runs[m]? = some r ∧ (r' = r ∨ n = m ∧ r' = r.step b) := by
    rw [List.getElem?_modify] at hm
    obtain ⟨r, hr, rfl⟩ := Option.map_eq_some_iff.mp hm
    refine ⟨r, hr, ?_⟩
    split
    · exact .inr ⟨‹_›, rfl⟩
    · exact .inl rfl
  refine ⟨fun m r' hm => ?_, fun m r' hm => ?_, fun m p' r' hpm hrm hstage => ?_⟩
  · obtain ⟨r, hr, rfl | ⟨-, rfl⟩⟩ := hcases hm
    · exact h.orderly m r' hr
    · obtain ⟨horderly, hkept⟩ := h.orderly m r hr
      have hkept' := horderly.not_isForsaken (r.step_move b) hkept fun hb => absurd hb hdrop
      exact ⟨horderly.step b, hkept'⟩
  · obtain ⟨r, hr, rfl | ⟨-, rfl⟩⟩ := hcases hm
    · exact h.previous m r' hr
    · rw [(r.step_move b).previous_eq]
      exact h.previous m r hr
  · obtain ⟨p, hp, hp'⟩ := hcases hpm
    obtain ⟨r, hr, hr'⟩ := hcases hrm
    have hstopped : p.stopped.isSet = true := by
      by_cases hwaiting : r.stage = .waiting
      · -- the run has just been told that it may go on
        rcases hr' with rfl | ⟨rfl, rfl⟩
        · exact absurd hwaiting hstage
        · have hb : b = .proceed := by
            by_contra hb
            exact hstage ((r.step_move b).waiting hwaiting hb hdrop)
          have hpredecessor := hproceed hb r hr
          have hprevious : r.previous = some m := by
            rw [h.previous _ r hr, List.range_succ]
            simp
          simpa [predecessorStopped, hprevious, hp] using hpredecessor
      · exact h.waited m p r hp hr hwaiting
    rcases hp' with rfl | ⟨-, rfl⟩
    · exact hstopped
    · exact (p.step_move b).stopped hstopped

/-- As long as no run is given up, the runs of a server are a queue. -/
theorem isQueue_steps (settings : Settings) (l : List Step) (hdrop : ∀ n, Step.run n .drop ∉ l) :
    IsQueue (({ settings } : Server).steps l).runs := by
  induction l using List.reverseRecOn with
  | nil => exact ⟨by simp [steps], by simp [steps], by simp [steps]⟩
  | append_singleton l a ih =>
    have hqueue := ih fun n hn => hdrop n (List.mem_append_left _ hn)
    rw [steps_concat]
    rcases step_runs (({ settings } : Server).steps l) a with hruns | hruns | ⟨hruns, hproceed, hb⟩
    · rwa [hruns]
    · rw [hruns]
      refine hqueue.begin ⟨rfl, rfl⟩ rfl ?_
      rw [← collect_begun?_eq (s := { settings }) rfl l]
      exact running_eq_getLast? rfl l
    · rw [hruns]
      refine hqueue.move (fun h => ?_) hproceed
      exact hdrop _ (List.mem_append_right l (by rw [hb h]; exact List.mem_singleton_self _))

/-! ## No two listeners -/

/-- A run that does not wait any more does not meet the listener of an earlier run. -/
structure IsExclusive (s : Server) : Prop where
  /-- When a run has waited for the run before it, every earlier run has let its listener go. -/
  released : ∀ (m n : Nat) (p r : Run), m < n → s.runs[m]? = some p → s.runs[n]? = some r →
    r.stage ≠ .waiting → p.listener = false
  /-- When a run comes to hold a listener, no earlier run holds one. -/
  bound : ∀ (a : Step) (m n : Nat) (p r r' : Run), m < n → s.runs[m]? = some p →
    s.runs[n]? = some r → (s.step a).runs[n]? = some r' → r.listener = false →
    r'.listener = true → p.listener = false

/-- A run that comes to hold a listener was about to bind the address. -/
theorem stage_of_listener {n : Nat} {r r' : Run} (hr : s.runs[n]? = some r)
    (hr' : (s.step a).runs[n]? = some r') (h : r.listener = false) (h' : r'.listener = true) :
    r.stage = .binding := by
  have hsame (hsame : some r' = some r) : r.stage = .binding := by
    obtain rfl := Option.some.inj hsame
    simp [h] at h'
  rcases s.step_runs a with hruns | hruns | ⟨hruns, -, -⟩
  · rw [hruns, hr] at hr'
    exact hsame hr'.symm
  · rw [hruns, List.getElem?_append_left (List.getElem?_eq_some_iff.mp hr).1, hr] at hr'
    exact hsame hr'.symm
  · rw [hruns, List.getElem?_modify, hr] at hr'
    obtain ⟨r₀, hr₀, heq⟩ := Option.map_eq_some_iff.mp hr'
    obtain rfl := Option.some.inj hr₀
    split at heq
    · subst heq
      exact (r.step_move _).binding h h'
    · exact hsame (by rw [heq])

/-- Listeners exclude each other across any number of starts, shutdowns, closes and exits of the
accept loops in any order, as long as no run is given up midway. -/
theorem isExclusive_steps (settings : Settings) (l : List Step)
    (hdrop : ∀ n, Step.run n .drop ∉ l) : IsExclusive (({ settings } : Server).steps l) := by
  have hqueue := isQueue_steps settings l hdrop
  have hreleased {m n : Nat} {p r : Run} (hlt : m < n)
      (hp : (({ settings } : Server).steps l).runs[m]? = some p)
      (hr : (({ settings } : Server).steps l).runs[n]? = some r) (hstage : r.stage ≠ .waiting) :
      p.listener = false := by
    have hstopped := hqueue.stopped_of_lt hlt hp hr hstage
    obtain ⟨horderly, hkept⟩ := hqueue.orderly m p hp
    exact horderly.listener_of_stopped hstopped hkept
  refine ⟨fun m n p r hlt hp hr hstage => hreleased hlt hp hr hstage,
    fun a m n p r r' hlt hp hr hr' h h' => ?_⟩
  have hbinding := stage_of_listener hr hr' h h'
  exact hreleased hlt hp hr (by simp [hbinding])

/-- A server is restarted twice before its first accept loop notices, and each run binds in turn. -/
theorem isExclusive_of_restarts :
    let l : List Step := [.start {} .listen, .run 0 .proceed, .run 0 (.bind none), .close,
      .start {} .listen, .beginShutdown none, .run 1 (.drain 0 .tell), .run 1 (.drain 0 .expire),
      .run 1 (.drain 0 .close), .start {} .listen, .run 1 .proceed, .run 2 .proceed,
      .run 0 (.notice true), .run 0 .farewell, .run 0 .farewell, .run 1 .proceed, .run 2 .proceed,
      .run 1 (.bind none), .run 1 (.notice false), .run 1 .farewell, .run 1 .farewell,
      .run 2 .proceed, .run 2 (.bind none)]
    (∀ n, Step.run n .drop ∉ l) ∧ IsExclusive (({} : Server).steps l) ∧
      (({} : Server).steps l).runs.map (fun r => (r.listened, r.listener)) =
        [(true, false), (true, false), (true, true)] :=
  ⟨by simp, isExclusive_steps {} _ (by simp), by decide +kernel⟩

/-- A run that is given up while it waits lets the next run pass the one before it. -/
example :
    let s := ({} : Server).steps [.start {} .listen, .run 0 .proceed, .run 0 (.bind none), .close,
      .start {} .listen, .run 1 .drop, .run 1 .farewell, .close, .start {} .listen,
      .run 2 .proceed, .run 2 (.bind none)]
    s.runs.map (·.listener) = [true, false, true] := by
  decide +kernel

end Server

end WebHost
