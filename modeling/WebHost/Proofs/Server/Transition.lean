import Mathlib.Tactic.SplitIfs
import WebHost.Server.Lifecycle

/-!
# What one step of a server does

Seen from its life, a server is a state, a current run and a row of runs. One step leaves all three
alone, starts a run, begins a shutdown, closes, lets a run take one of its own steps, records how
the current run ended, or records that the shutdown of the current run is over. Everything that
holds of the life of a server is derived from this one case distinction.

The current run carries what the state claims about it. It is told to drain only when a shutdown
begins, so it has no drain while the server is started and one while it is closing; and once an
error was recorded, it has no result left that could be recorded again.
-/

set_option autoImplicit false

namespace WebHost

namespace Run

variable {r : Run}

/-- A run that has no result to be recorded any more. -/
def IsSettled (r : Run) : Prop :=
  match r.stage with
  | .dropped _ | .gone => True
  | _ => False

/-! ## Steps of a run -/

/-- A step of a connection leaves the stage of its run. -/
theorem stage_stepConnection (r : Run) (number : Nat) (step : Connection.Step) :
    (r.stepConnection number step).stage = r.stage := by
  unfold stepConnection
  split <;> rfl

/-- A step of a connection leaves the shutdowns of its run. -/
theorem drains_stepConnection (r : Run) (number : Nat) (step : Connection.Step) :
    (r.stepConnection number step).drains = r.drains := by
  unfold stepConnection
  split <;> rfl

/-- A step of a shutdown leaves the stage of its run. -/
theorem stage_stepDrain (r : Run) (call : Nat) (step : DrainStep) :
    (r.stepDrain call step).stage = r.stage := by
  unfold stepDrain
  split <;> first | rfl | (split <;> rfl)

/-- A step of a shutdown neither begins nor forgets one. -/
theorem length_drains_stepDrain (r : Run) (call : Nat) (step : DrainStep) :
    (r.stepDrain call step).drains.length = r.drains.length := by
  unfold stepDrain
  split
  -- to observe the end of a run and to conclude may have to wait
  case h_2 | h_6 => split <;> simp [setDrain]
  all_goals simp [setDrain]

/-- To give up a run leaves its shutdowns. -/
theorem drains_drop (r : Run) : r.drop.drains = r.drains := by
  unfold drop
  split <;> rfl

/-- Bidding farewell leaves the shutdowns. -/
theorem drains_bid (r : Run) (duty : Farewell) : (r.bid duty).drains = r.drains := by
  cases duty <;> rfl

/-- Only a shutdown that begins adds a drain. -/
theorem length_drains_step {a : Step} (h : a ≠ .beginDrain) :
    (r.step a).drains.length = r.drains.length := by
  cases a with
  | beginDrain => exact absurd rfl h
  | connection number connectionStep => simp only [step, drains_stepConnection]
  | drain call drainStep => exact length_drains_stepDrain r call drainStep
  | drop => simp only [step, drains_drop]
  | close => rfl
  | farewell =>
    simp only [step]
    split <;> simp [drains_bid]
  | proceed | bind | accept | failAccept | notice | record =>
    simp only [step]
    repeat' split
    all_goals rfl

/-- A run that is settled stays so. -/
theorem IsSettled.step (h : r.IsSettled) (a : Step) : (r.step a).IsSettled := by
  unfold IsSettled at h
  cases hs : r.stage with
  | dropped duties =>
    cases a with
    | connection number step =>
      simp [IsSettled, Run.step, stage_stepConnection, hs]
    | drain call step => simp [IsSettled, Run.step, stage_stepDrain, hs]
    | farewell => cases duties <;> simp [IsSettled, Run.step, hs]
    | bind failure => cases failure <;> simp [IsSettled, Run.step, hs]
    | _ => simp [IsSettled, Run.step, Run.drop, hs]
  | gone =>
    cases a with
    | connection number step =>
      simp [IsSettled, Run.step, stage_stepConnection, hs]
    | drain call step => simp [IsSettled, Run.step, stage_stepDrain, hs]
    | bind failure => cases failure <;> simp [IsSettled, Run.step, hs]
    | _ => simp [IsSettled, Run.step, Run.drop, hs]
  | _ => simp [hs] at h

end Run

namespace Server

/-! ## What is seen of a step -/

/-- The number of the run that a step starts. -/
def begun? (s : Server) : Step → Option Nat
  | .start vault entry => (s.start vault entry).2.toOption
  | .startChosen vault caller =>
    match s.choices[caller]? with
    | some (some secure) =>
      ({ s with choices := s.choices.set caller none }.start vault (Entry.choose secure)).2.toOption
    | _ => none
  | _ => none

/-- The number that the next shutdown of a run gets among those of the run. -/
def nextCall (s : Server) (number : Nat) : Nat :=
  match s.runs[number]? with
  | some r => r.drains.length
  | none => 0

/-- The run that a step begins to shut down, with the number of the shutdown. -/
def shutDown? (s : Server) : Step → Option (Nat × Nat)
  | .beginShutdown allowed =>
    (s.beginShutdown allowed).2.toOption.map fun (number, _) => (number, s.nextCall number)
  | _ => none

/-- The run that a step closes. -/
def closed? (s : Server) : Step → Option Nat
  | .close =>
    match s.close.2 with
    | none => s.running
    | some _ => none
  | _ => none

/-- The run that a step shuts down or closes. -/
def stopped? (s : Server) (a : Step) : Option Nat := ((s.shutDown? a).map (·.1)).or (s.closed? a)

/-- What the life of a server consists of. -/
structure Life where
  state : ServerState
  running : Option Nat
  runs : List Run

/-- The state of a server, its current run and all its runs. -/
def life (s : Server) : Life := ⟨s.state, s.running, s.runs⟩

/-- What a step does to the life of a server, and what is seen of it. -/
inductive Effect (s : Server) (life : Life) : Step → Prop
  /-- Nothing. -/
  | idle {a : Step} : life = s.life → s.begun? a = none → s.shutDown? a = none →
    s.closed? a = none → Effect s life a
  /-- It starts a run. -/
  | begin {a : Step} {r : Run} : s.state.mayStart = true →
    life = ⟨.started, some s.runs.length, s.runs ++ [r]⟩ → r.drains = [] →
    s.begun? a = some s.runs.length → s.shutDown? a = none → s.closed? a = none → Effect s life a
  /-- It begins to shut the current run down. -/
  | shutdown {allowed : Option Duration} {n : Nat} : s.state = .started → s.running = some n →
    life = ⟨.closing, s.running, s.runs.modify n (·.step .beginDrain)⟩ →
    s.shutDown? (.beginShutdown allowed) = some (n, s.nextCall n) →
    Effect s life (.beginShutdown allowed)
  /-- It closes the current run. -/
  | close {n : Nat} : s.state = .started → s.running = some n →
    life = ⟨.closed, s.running, s.runs.modify n (·.step .close)⟩ → s.closed? .close = some n →
    Effect s life .close
  /-- A run takes a step of its own. -/
  | run {n : Nat} {a : Run.Step} : a ≠ .beginDrain →
    life = ⟨s.state, s.running, s.runs.modify n (·.step a)⟩ → Effect s life (.run n a)
  /-- It records how the current run ended. -/
  | record {n : Nat} {r : Run} {error : ServerError} : s.running = some n → s.runs[n]? = some r →
    r.stage = .ended error →
    life = ⟨stateAfter s.state error, s.running, s.runs.modify n (·.step .record)⟩ →
    Effect s life (.run n .record)
  /-- It records that a shutdown of the current run is over. -/
  | drained {n call : Nat} {r : Run} {outcome : DrainOutcome} : s.state = .closing →
    s.running = some n → s.runs[n]? = some r → r.drains[call]? = some (.ended outcome) →
    life = ⟨.closed, s.running, s.runs.modify n (·.step (.drain call .close))⟩ →
    Effect s life (.run n (.drain call .close))

/-! ## The operations, one by one -/

/-- To configure a server leaves its life alone. -/
theorem life_configure (s : Server) (vault : Vault) (options : List ServerOption) :
    (s.configure vault options).1.life = s.life := by
  unfold configure
  split_ifs <;> rfl

/-- A start is refused or fails, and then nothing has happened, or it begins the next run. -/
theorem start_cases (s : Server) (vault : Vault) (e : Entry) :
    (∃ error, s.start vault e = (s, .error error)) ∨
      s.state.mayStart = true ∧ ∃ s' r, s.start vault e = (s', .ok s.runs.length) ∧
        s'.life = ⟨.started, some s.runs.length, s.runs ++ [r]⟩ ∧ r.drains = [] := by
  unfold start
  by_cases hmay : s.state.mayStart = true
  · rw [if_neg (by simp [hmay])]
    cases e.acceptor vault s.settings with
    | error error => exact .inl ⟨_, rfl⟩
    | ok acceptor => exact .inr ⟨hmay, _, s.newRun e acceptor, rfl, rfl, rfl⟩
  · rw [if_pos (by simpa using hmay)]
    exact .inl ⟨_, rfl⟩

/-- A shutdown gets past its check exactly in a started server. -/
theorem startedRun?_eq_some_iff {s : Server} {n : Nat} :
    s.startedRun? = some n ↔ s.state = .started ∧ s.running = some n := by
  unfold startedRun?
  split_ifs with h <;> simp [h]

/-- A start, with what is seen of it. -/
theorem start_effect {s : Server} {a : Step} {vault : Vault} {e : Entry} {s₀ : Server}
    (hlife : s₀.life = s.life) (hbegun : s.begun? a = (s₀.start vault e).2.toOption)
    (hshutDown : s.shutDown? a = none) (hclosed : s.closed? a = none) :
    Effect s (s₀.start vault e).1.life a := by
  have hstate : s₀.state = s.state := congrArg Life.state hlife
  have hruns : s₀.runs = s.runs := congrArg Life.runs hlife
  rcases s₀.start_cases vault e with ⟨error, hstart⟩ | ⟨hmay, s', r, hstart, hlife', hr⟩
  · rw [hstart] at hbegun ⊢
    exact .idle hlife hbegun hshutDown hclosed
  · rw [hstart] at hbegun ⊢
    rw [hruns] at hlife' hbegun
    exact .begin (by rwa [← hstate]) hlife' hr hbegun hshutDown hclosed

/-- What a shutdown does to the life of a server is one of its effects. -/
theorem shutdown_effect (s : Server) (allowed : Option Duration) :
    Effect s (s.beginShutdown allowed).1.life (.beginShutdown allowed) := by
  cases hn : s.startedRun? with
  | none =>
    have heq : s.beginShutdown allowed = (s, .error (s.refuse .unableToShutdown)) := by
      simp only [beginShutdown, hn]
    rw [heq]
    exact .idle rfl rfl (by rw [shutDown?, heq]; rfl) rfl
  | some n =>
    obtain ⟨hstate, hrunning⟩ := startedRun?_eq_some_iff.mp hn
    refine .shutdown hstate hrunning ?_ ?_
    · simp only [beginShutdown, hn]
      rfl
    · simp only [shutDown?, beginShutdown, hn]
      rfl

/-- What a close does to the life of a server is one of its effects. -/
theorem close_effect (s : Server) : Effect s s.close.1.life .close := by
  cases hn : s.startedRun? with
  | none =>
    have heq : s.close = (s, some (s.refuse .unableToClose)) := by
      simp only [close, hn]
    rw [heq]
    exact .idle rfl rfl rfl (by rw [closed?, heq])
  | some n =>
    obtain ⟨hstate, hrunning⟩ := startedRun?_eq_some_iff.mp hn
    refine .close hstate hrunning ?_ ?_
    · simp only [close, hn]
      rfl
    · simp only [closed?, close, hn, hrunning]

/-- Recording a result changes the state for the current run only. -/
theorem life_finish (s : Server) (n : Nat) (error : ServerError) :
    (s.finish n error).life =
      if s.running = some n then ⟨stateAfter s.state error, s.running, s.runs⟩ else s.life := by
  unfold finish
  split_ifs <;> rfl

/-- Marking a server closed moves it from closing to closed, if the run is the current one. -/
theorem life_markClosed (s : Server) (n : Nat) :
    (s.markClosed n).life =
      if s.running = some n ∧ s.state = .closing then ⟨.closed, s.running, s.runs⟩
      else s.life := by
  unfold markClosed
  split_ifs <;> rfl

/-- What a step of a run does to the life of a server is one of its effects. -/
theorem run_effect (s : Server) (n : Nat) (a : Run.Step) :
    Effect s (s.stepRun n a).life (.run n a) := by
  have hidle : Effect s s.life (.run n a) := .idle rfl rfl rfl rfl
  cases hr : s.runs[n]? with
  | none => simpa only [stepRun, hr] using hidle
  | some r =>
    have hrun (h : a ≠ .beginDrain) :
        Effect s ⟨s.state, s.running, s.runs.modify n (·.step a)⟩ (.run n a) := .run h rfl
    cases a with
    | beginDrain | close => simpa only [stepRun, hr] using hidle
    | proceed =>
      simp only [stepRun, hr]
      split
      · exact hrun (by simp)
      · exact hidle
    | record =>
      simp only [stepRun, hr]
      split
      · rename_i error hstage
        rw [life_finish]
        split_ifs with hcurrent
        · exact .record hcurrent hr hstage rfl
        · exact hrun (by simp)
      · exact hidle
    | drain call drainStep =>
      cases drainStep with
      | close =>
        simp only [stepRun, hr]
        split
        · rename_i outcome hdrain
          rw [life_markClosed]
          split_ifs with hcurrent
          · exact .drained hcurrent.2 hcurrent.1 hr hdrain rfl
          · exact hrun (by simp)
        · exact hidle
      | _ =>
        simp only [stepRun, hr]
        exact hrun (by simp)
    | _ =>
      simp only [stepRun, hr]
      exact hrun (by simp)

/-- What any step does to the life of a server. -/
theorem step_effect (s : Server) (a : Step) : Effect s (s.step a).life a := by
  cases a with
  | configure vault options => exact .idle (s.life_configure vault options) rfl rfl rfl
  | start vault entry => exact start_effect rfl rfl rfl rfl
  | choose => exact .idle rfl rfl rfl rfl
  | startChosen vault caller =>
    rcases hc : s.choices[caller]? with _ | _ | secure
    case none | some.none =>
      have hbegun : s.begun? (.startChosen vault caller) = none := by simp only [begun?, hc]
      simp only [step, hc]
      exact .idle rfl hbegun rfl rfl
    case some.some =>
      simp only [step, hc]
      exact start_effect rfl (by simp only [begun?, hc]) rfl rfl
  | beginShutdown allowed => exact s.shutdown_effect allowed
  | close => exact s.close_effect
  | run n a => exact s.run_effect n a

/-! ## A single run -/

section Single

variable {s : Server} {n : Nat} {r : Run}

/-- A run that was there before a step is there after it, and has made at most one step in it. -/
theorem exists_run_step (hr : s.runs[n]? = some r) (a : Step) :
    ∃ r', (s.step a).runs[n]? = some r' ∧
      (r' = r ∨ ∃ b, r' = r.step b ∧ (b = .drop ∨ b = .record → a = .run n b)) := by
  have hmodify {m : Nat} {b : Run.Step} (hruns : (s.step a).runs = s.runs.modify m (·.step b))
      (hb : b = .drop ∨ b = .record → a = .run m b) :
      ∃ r', (s.step a).runs[n]? = some r' ∧
        (r' = r ∨ ∃ b, r' = r.step b ∧ (b = .drop ∨ b = .record → a = .run n b)) := by
    rw [hruns, List.getElem?_modify, hr]
    by_cases hmn : m = n
    · subst hmn
      exact ⟨r.step b, by simp, .inr ⟨b, rfl, hb⟩⟩
    · exact ⟨r, by simp [hmn], .inl rfl⟩
  have hlife : (s.step a).life.runs = (s.step a).runs := rfl
  cases step_effect s a with
  | idle hidle =>
    rw [← hlife, hidle]
    exact ⟨r, hr, .inl rfl⟩
  | begin _ hbegin =>
    rw [← hlife, hbegin, List.getElem?_append_left (List.getElem?_eq_some_iff.mp hr).1]
    exact ⟨r, hr, .inl rfl⟩
  | shutdown _ _ hshutdown => exact hmodify (congrArg Life.runs hshutdown) (by simp)
  | close _ _ hclose => exact hmodify (congrArg Life.runs hclose) (by simp)
  | run _ hrun => exact hmodify (congrArg Life.runs hrun) fun _ => rfl
  | record _ _ _ hrecord => exact hmodify (congrArg Life.runs hrecord) fun _ => rfl
  | drained _ _ _ _ hdrained => exact hmodify (congrArg Life.runs hdrained) (by simp)

end Single

end Server

end WebHost
