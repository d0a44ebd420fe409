import Mathlib.Data.List.Basic
import Mathlib.Data.List.Induction
import WebHost.Proofs.Server.Transition

/-!
# The life of a server is safe

Whatever steps are taken in whatever order, the state of a server changes only in five ways, and a
started or closing server runs the run of its latest start. Between two starts one shutdown or close
gets past its check, and a run that was replaced changes nothing any more, however late its end or
the end of its shutdown is recorded. What carries the argument is what each state says about the
current run; every step keeps it.
-/

set_option autoImplicit false

namespace WebHost

namespace ServerState

/-- The ways in which the state of a server changes. -/
def MayBecome : ServerState → ServerState → Prop
  | .unstarted, .started | .errored, .started | .closed, .started => True
  | .started, .closing | .started, .closed | .started, .errored => True
  | .closing, .closed => True
  | _, _ => False

/-- What a state says about the current run. -/
def Allows : ServerState → Run → Prop
  | .started, r => r.drains = []
  | .closing, r => r.drains.length = 1
  | .errored, r => r.IsSettled
  | .unstarted, _ | .closed, _ => True

/-- What a state says about a run stays true, unless a shutdown of the run begins. -/
theorem Allows.step {state : ServerState} {r : Run} (h : state.Allows r) {a : Run.Step}
    (ha : a ≠ .beginDrain) : state.Allows (r.step a) := by
  have hlength := Run.length_drains_step (r := r) ha
  cases state with
  | unstarted | closed => trivial
  | errored => exact Run.IsSettled.step h a
  | started =>
    rw [show r.drains = [] from h] at hlength
    exact List.length_eq_zero_iff.mp hlength
  | closing => exact hlength.trans h

end ServerState

namespace Server

/-- A life in which the state, the current run and the runs belong together. -/
structure Life.IsSound (life : Life) : Prop where
  unstarted_iff : life.state = .unstarted ↔ life.running = none
  length_runs : ∀ n, life.running = some n → life.runs.length = n + 1
  current : ∀ n r, life.running = some n → life.runs[n]? = some r → life.state.Allows r

section Step

variable {s : Server} {a : Step} {life : Life}

/-- The current run of a sound life, after a change of one of its runs. -/
theorem Life.IsSound.modify (h : s.life.IsSound) {state : ServerState} {n : Nat}
    {change : Run → Run} (hstate : state = .unstarted ↔ s.running = none)
    (hallows : ∀ m r, s.running = some m → s.runs[m]? = some r →
      state.Allows (if n = m then change r else r)) :
    Life.IsSound ⟨state, s.running, s.runs.modify n change⟩ where
  unstarted_iff := hstate
  length_runs m hm := by
    show (s.runs.modify n change).length = m + 1
    rw [List.length_modify]
    exact h.length_runs m hm
  current m r hm hr := by
    have hr : (s.runs.modify n change)[m]? = some r := hr
    rw [List.getElem?_modify] at hr
    obtain ⟨r', hr', rfl⟩ := Option.map_eq_some_iff.mp hr
    exact hallows m r' hm hr'

/-- What the effects of a step leave of a sound life is sound. -/
theorem Life.IsSound.effect (h : s.life.IsSound) (heffect : Effect s life a) : life.IsSound := by
  have hcurrent : ∀ m r, s.running = some m → s.runs[m]? = some r → s.state.Allows r := h.current
  have hunstarted : s.state = .unstarted ↔ s.running = none := h.unstarted_iff
  cases heffect with
  | idle hlife =>
    rw [hlife]
    exact h
  | @begin _ r _ hlife hr =>
    rw [hlife]
    refine ⟨by simp, fun n hn => ?_, fun n r' hn hr' => ?_⟩
    · obtain rfl : s.runs.length = n := by simpa using hn
      simp
    · obtain rfl : s.runs.length = n := by simpa using hn
      obtain rfl : r = r' := by simpa using hr'
      exact hr
  | @shutdown _ n hstate hrunning hlife =>
    rw [hlife]
    refine h.modify (by simp [hrunning]) fun m r hm hr => ?_
    obtain rfl : n = m := by simpa [hrunning] using hm
    have hdrains : r.drains = [] := by
      simpa [hstate, ServerState.Allows] using hcurrent n r hrunning hr
    simp [ServerState.Allows, Run.step, hdrains]
  | @close n hstate hrunning hlife =>
    rw [hlife]
    exact h.modify (by simp [hrunning]) fun _ _ _ _ => trivial
  | @run n a ha hlife =>
    rw [hlife]
    refine h.modify hunstarted fun m r hm hr => ?_
    split_ifs
    · exact (hcurrent m r hm hr).step ha
    · exact hcurrent m r hm hr
  | @record n r error hrunning hr hstage hlife =>
    rw [hlife]
    have hallows := hcurrent n r hrunning hr
    have hno : s.state ≠ .unstarted := by simp [hunstarted, hrunning]
    have hafter : stateAfter s.state error ≠ .unstarted := by
      cases hs : s.state <;> simp [stateAfter]
      split_ifs <;> simp
    refine h.modify (by simp [hrunning, hafter]) fun m r' hm hr' => ?_
    obtain rfl : n = m := by simpa [hrunning] using hm
    obtain rfl : r = r' := by simpa [hr] using hr'
    rw [if_pos rfl]
    -- a shutdown that goes on sets the state itself
    cases hs : s.state with
    | unstarted => exact absurd hs hno
    | started =>
      simp only [stateAfter]
      split_ifs
      · trivial
      · simp [ServerState.Allows, Run.IsSettled, Run.step, hstage]
    | closing =>
      rw [hs] at hallows
      exact hallows.step (by simp)
    | errored => trivial
    | closed => trivial
  | @drained n call r outcome hstate hrunning hr hdrain hlife =>
    rw [hlife]
    exact h.modify (by simp [hrunning]) fun _ _ _ _ => trivial

/-- One step changes the state in one of the five ways, or not at all. -/
theorem Life.IsSound.mayBecome (h : s.life.IsSound) (heffect : Effect s life a) :
    life.state = s.state ∨ s.state.MayBecome life.state := by
  cases heffect with
  | idle hlife =>
    rw [hlife]
    exact .inl rfl
  | begin hmay hlife =>
    rw [hlife]
    cases hs : s.state <;> simp [hs, ServerState.mayStart] at hmay <;> exact .inr trivial
  | shutdown hstate _ hlife =>
    rw [hlife, hstate]
    exact .inr trivial
  | close hstate _ hlife =>
    rw [hlife, hstate]
    exact .inr trivial
  | run _ hlife =>
    rw [hlife]
    exact .inl rfl
  | @record n r error hrunning hr hstage hlife =>
    rw [hlife]
    have hallows : s.state.Allows r := h.current n r hrunning hr
    cases hs : s.state with
    | unstarted =>
      have hnone : s.running = none := h.unstarted_iff.mp hs
      simp [hnone] at hrunning
    | started =>
      simp only [stateAfter]
      split_ifs <;> exact .inr trivial
    | errored =>
      -- the result of this run was recorded before
      simp [hs, ServerState.Allows, Run.IsSettled, hstage] at hallows
    | closing => exact .inl rfl
    | closed => exact .inl rfl
  | drained hstate _ _ _ hlife =>
    rw [hlife, hstate]
    exact .inr trivial

/-- Recording a result neither begins a shutdown nor ends one. -/
theorem stateAfter_eq_closing_iff {state : ServerState} {error : ServerError} :
    stateAfter state error = .closing ↔ state = .closing := by
  cases state with
  | started =>
    simp only [stateAfter]
    split_ifs <;> simp
  | _ => simp [stateAfter]

/-- A run that ends does not leave the server started. -/
theorem stateAfter_ne_started (state : ServerState) (error : ServerError) :
    stateAfter state error ≠ .started := by
  cases state with
  | started =>
    simp only [stateAfter]
    split_ifs <;> simp
  | _ => simp [stateAfter]

/-- A step either begins a run with the next number, or leaves the current run the current one. -/
theorem Effect.begun (heffect : Effect s life a) :
    (s.begun? a = some s.runs.length ∧ life.running = some s.runs.length ∧
        life.runs.length = s.runs.length + 1) ∨
      (s.begun? a = none ∧ life.running = s.running ∧ life.runs.length = s.runs.length) := by
  cases heffect with
  | idle hlife hbegun => exact .inr ⟨hbegun, by rw [hlife]; rfl, by rw [hlife]; rfl⟩
  | begin _ hlife _ hbegun => exact .inl ⟨hbegun, by rw [hlife], by simp [hlife]⟩
  | shutdown _ _ hlife => exact .inr ⟨rfl, by rw [hlife], by simp [hlife]⟩
  | close _ _ hlife => exact .inr ⟨rfl, by rw [hlife], by simp [hlife]⟩
  | run _ hlife => exact .inr ⟨rfl, by rw [hlife], by simp [hlife]⟩
  | record _ _ _ hlife => exact .inr ⟨rfl, by rw [hlife], by simp [hlife]⟩
  | drained _ _ _ _ hlife => exact .inr ⟨rfl, by rw [hlife], by simp [hlife]⟩

/-- Only a start leads to the started state. -/
theorem Effect.started (heffect : Effect s life a) (hbegun : s.begun? a = none)
    (hstarted : life.state = .started) : s.state = .started := by
  cases heffect with
  | idle hlife => rwa [hlife] at hstarted
  | begin _ _ _ hsome => simp [hsome] at hbegun
  | shutdown hstate => exact hstate
  | close hstate => exact hstate
  | run _ hlife => rwa [hlife] at hstarted
  | record _ _ _ hlife =>
    rw [hlife] at hstarted
    exact absurd hstarted (stateAfter_ne_started _ _)
  | drained _ _ _ _ hlife => simp [hlife] at hstarted

/-- A shutdown or close gets past its check in a started server only, which is not started then. -/
theorem Effect.stopped (heffect : Effect s life a) :
    s.stopped? a = none ∨ s.state = .started ∧ life.state ≠ .started := by
  cases heffect with
  | idle _ _ hshutDown hclosed => exact .inl (by simp [stopped?, hshutDown, hclosed])
  | begin _ _ _ _ hshutDown hclosed => exact .inl (by simp [stopped?, hshutDown, hclosed])
  | shutdown hstate _ hlife => exact .inr ⟨hstate, by simp [hlife]⟩
  | close hstate _ hlife => exact .inr ⟨hstate, by simp [hlife]⟩
  | run => exact .inl rfl
  | record => exact .inl rfl
  | drained => exact .inl rfl

/-- Only a shutdown leads to the closing state, and it does not change the current run. -/
theorem Effect.shutDown (heffect : Effect s life a) (hclosing : life.state = .closing) :
    life.running = s.running ∧
      ((s.state = .closing ∧ s.shutDown? a = none) ∨
        ∃ n, s.state = .started ∧ s.running = some n ∧ s.shutDown? a = some (n, s.nextCall n)) := by
  cases heffect with
  | idle hlife _ hshutDown =>
    rw [hlife] at hclosing ⊢
    exact ⟨rfl, .inl ⟨hclosing, hshutDown⟩⟩
  | begin _ hlife => simp [hlife] at hclosing
  | @shutdown _ n hstate hrunning hlife hshutDown =>
    exact ⟨by rw [hlife], .inr ⟨n, hstate, hrunning, hshutDown⟩⟩
  | close _ _ hlife => simp [hlife] at hclosing
  | run _ hlife =>
    rw [hlife] at hclosing ⊢
    exact ⟨rfl, .inl ⟨hclosing, rfl⟩⟩
  | record _ _ _ hlife =>
    rw [hlife] at hclosing ⊢
    exact ⟨rfl, .inl ⟨stateAfter_eq_closing_iff.mp hclosing, rfl⟩⟩
  | drained _ _ _ _ hlife => simp [hlife] at hclosing

/-- The closing state is left when the end of a shutdown of the current run is recorded. -/
theorem Effect.drained_of_closing (heffect : Effect s life a) (hclosing : s.state = .closing)
    (hleft : life.state ≠ .closing) :
    life.state = .closed ∧ ∃ n call r outcome, a = .run n (.drain call .close) ∧
      s.running = some n ∧ s.runs[n]? = some r ∧ r.drains[call]? = some (.ended outcome) := by
  cases heffect with
  | idle hlife => exact absurd (by rw [hlife]; exact hclosing) hleft
  | begin hmay => simp [hclosing, ServerState.mayStart] at hmay
  | shutdown hstate => simp [hclosing] at hstate
  | close hstate => simp [hclosing] at hstate
  | run _ hlife => exact absurd (by rw [hlife]; exact hclosing) hleft
  | record _ _ _ hlife =>
    exact absurd (by rw [hlife]; exact stateAfter_eq_closing_iff.mpr hclosing) hleft
  | drained _ hrunning hr hdrain hlife =>
    exact ⟨by rw [hlife], _, _, _, _, rfl, hrunning, hr, hdrain⟩

end Step

/-! ## Steps in a row -/

section Steps

variable {s : Server} {l : List Step}

/-- What is seen of steps that are taken one after the other. -/
def collect {α : Type} (seen : Server → Step → Option α) : Server → List Step → List α
  | _, [] => []
  | s, a :: l => (seen s a).toList ++ collect seen (s.step a) l

/-- The last of some steps is taken after the others. -/
theorem steps_concat (s : Server) (l : List Step) (a : Step) :
    s.steps (l ++ [a]) = (s.steps l).step a := by
  simp [steps]

/-- A step among others is taken after those before it. -/
theorem steps_append_cons (s : Server) (before : List Step) (a : Step) (after : List Step) :
    s.steps (before ++ a :: after) = ((s.steps before).step a).steps after := by
  simp [steps]

/-- What every step of a run keeps holds of a run after any steps of the server. -/
theorem exists_run_steps (P : Run → Prop) (hkeep : ∀ r, P r → ∀ b, P (r.step b)) {n : Nat} {r : Run}
    (hr : s.runs[n]? = some r) (h : P r) (l : List Step) :
    ∃ r', (s.steps l).runs[n]? = some r' ∧ P r' := by
  induction l using List.reverseRecOn with
  | nil => exact ⟨r, hr, h⟩
  | append_singleton l a ih =>
    obtain ⟨r', hr', hkept⟩ := ih
    rw [steps_concat]
    obtain ⟨r'', hr'', rfl | ⟨b, rfl, -⟩⟩ := exists_run_step hr' a
    · exact ⟨r'', hr'', hkept⟩
    · exact ⟨_, hr'', hkeep r' hkept b⟩

/-- What is collected over some steps is collected before the last one and at it. -/
theorem collect_concat {α : Type} (seen : Server → Step → Option α) (s : Server) (l : List Step)
    (a : Step) : collect seen s (l ++ [a]) = collect seen s l ++ (seen (s.steps l) a).toList := by
  induction l generalizing s with
  | nil => simp [collect, steps]
  | cons b l ih => simp [collect, ih, steps]

/-- A sound life stays sound after any steps. -/
theorem Life.IsSound.steps (h : s.life.IsSound) (l : List Step) : (s.steps l).life.IsSound := by
  induction l using List.reverseRecOn with
  | nil => exact h
  | append_singleton l a ih =>
    rw [steps_concat]
    exact ih.effect (step_effect _ a)

/-- Runs are numbered in the order of their starts. -/
theorem collect_begun?_eq (hruns : s.runs = []) (l : List Step) :
    collect begun? s l = List.range (s.steps l).runs.length := by
  induction l using List.reverseRecOn with
  | nil => simp [collect, steps, hruns]
  | append_singleton l a ih =>
    rw [collect_concat, steps_concat, ih]
    rcases (step_effect (s.steps l) a).begun with ⟨hbegun, -, hlength⟩ | ⟨hbegun, -, hlength⟩
    · rw [hbegun, show ((s.steps l).step a).runs.length = _ from hlength, List.range_succ]
      rfl
    · rw [hbegun, show ((s.steps l).step a).runs.length = _ from hlength]
      simp

/-- The current run is that of the latest start. -/
theorem running_eq_getLast? (hrunning : s.running = none) (l : List Step) :
    (s.steps l).running = (collect begun? s l).getLast? := by
  induction l using List.reverseRecOn with
  | nil => simpa [collect, steps] using hrunning
  | append_singleton l a ih =>
    rw [collect_concat, steps_concat]
    rcases (step_effect (s.steps l) a).begun with ⟨hbegun, hrun, -⟩ | ⟨hbegun, hrun, -⟩
    · rw [hbegun, show ((s.steps l).step a).running = _ from hrun]
      simp
    · rw [hbegun, show ((s.steps l).step a).running = _ from hrun]
      simpa using ih

/-- A server that is not started is stopped by nobody before the next start. -/
theorem collect_stopped?_eq_nil (hstate : s.state ≠ .started) (hbegun : collect begun? s l = []) :
    collect stopped? s l = [] := by
  induction l generalizing s with
  | nil => rfl
  | cons a l ih =>
    obtain ⟨hnone, hrest⟩ := List.append_eq_nil_iff.mp hbegun
    rw [Option.toList_eq_nil_iff] at hnone
    have heffect := step_effect s a
    have hnext : (s.step a).state ≠ .started := fun h => hstate (heffect.started hnone h)
    have hstopped : s.stopped? a = none := heffect.stopped.resolve_right fun h => hstate h.1
    simp [collect, hstopped, ih hnext hrest]

/-- Between two starts a server is stopped at most once. -/
theorem length_collect_stopped?_le (hbegun : collect begun? s l = []) :
    (collect stopped? s l).length ≤ 1 := by
  induction l generalizing s with
  | nil => simp [collect]
  | cons a l ih =>
    obtain ⟨-, hrest⟩ := List.append_eq_nil_iff.mp hbegun
    rcases (step_effect s a).stopped with hstopped | ⟨-, hnext⟩
    · simpa [collect, hstopped] using ih hrest
    · have hnil := collect_stopped?_eq_nil hnext hrest
      cases h : s.stopped? a <;> simp [collect, h, hnil]

/-- The number of the next shutdown of a started server's run is the first. -/
theorem Life.IsSound.nextCall_eq_zero (h : s.life.IsSound) (hstate : s.state = .started) {n : Nat}
    (hrunning : s.running = some n) : s.nextCall n = 0 := by
  unfold nextCall
  split
  · rename_i r hr
    have hallows : s.state.Allows r := h.current n r hrunning hr
    simpa [hstate, ServerState.Allows] using hallows
  · rfl

/-- A closing server has one shutdown, the latest, and it is one of the current run. -/
theorem getLast?_collect_shutDown? (h : s.life.IsSound) (hstate : s.state ≠ .closing)
    (l : List Step) (hclosing : (s.steps l).state = .closing) :
    ∃ n, (s.steps l).running = some n ∧ (collect shutDown? s l).getLast? = some (n, 0) := by
  induction l using List.reverseRecOn with
  | nil => exact absurd hclosing hstate
  | append_singleton l a ih =>
    rw [steps_concat] at hclosing
    rw [steps_concat, collect_concat]
    obtain ⟨hsame, hbefore | hbefore⟩ := (step_effect (s.steps l) a).shutDown hclosing
    · obtain ⟨hclosing, hnone⟩ := hbefore
      obtain ⟨n, hrunning, hlast⟩ := ih hclosing
      exact ⟨n, hsame.trans hrunning, by simpa [hnone] using hlast⟩
    · obtain ⟨n, hstarted, hrunning, hsome⟩ := hbefore
      refine ⟨n, hsame.trans hrunning, ?_⟩
      rw [hsome, (h.steps l).nextCall_eq_zero hstarted hrunning]
      simp

end Steps

/-- The guarantees of a server, given the runs begun so far and the shutdowns begun so far. -/
structure IsSafe (s : Server) (begun : List Nat) (shutDowns : List (Nat × Nat)) : Prop where
  /-- The state changes in one of the five ways, or not at all. -/
  mayBecome : ∀ a, (s.step a).state = s.state ∨ s.state.MayBecome (s.step a).state
  /-- Every start has a number of its own. -/
  begun_eq : begun = List.range s.runs.length
  /-- A started or closing server runs the run of the latest start. -/
  running_eq : s.state = .started ∨ s.state = .closing →
    s.running = begun.getLast? ∧ s.running.isSome
  /-- Until the next start one shutdown or close at most gets past its check. -/
  stopped_once : ∀ l, collect begun? s l = [] → (collect stopped? s l).length ≤ 1
  /-- A shutdown that does not get past it is refused in this state, and changes nothing. -/
  shutdown_refused : ∀ allowed, s.shutDown? (.beginShutdown allowed) = none →
    s.beginShutdown allowed = (s, .error (.invalidState .unableToShutdown s.state))
  /-- So is a close. -/
  close_refused : s.closed? .close = none →
    s.close = (s, some (.invalidState .unableToClose s.state))
  /-- The end of a run that was replaced changes nothing, nor does the end of its shutdown, and no
  other step of it changes the state. -/
  replaced : ∀ n, begun.getLast? ≠ some n → (∀ error, s.finish n error = s) ∧
    s.markClosed n = s ∧ ∀ a, (s.step (.run n a)).state = s.state
  /-- The closing state is entered by a shutdown that gets past its check. -/
  closing_entered : ∀ a, s.state ≠ .closing → (s.step a).state = .closing →
    (s.shutDown? a).isSome
  /-- It is left when that same shutdown is over, and the server is closed then. -/
  closing_left : ∀ a, s.state = .closing → (s.step a).state ≠ .closing →
    (s.step a).state = .closed ∧
      ∃ n call, shutDowns.getLast? = some (n, call) ∧ a = .run n (.drain call .close)

/-- A shutdown that finds nothing to shut down is refused for the state, and changes nothing. -/
theorem shutdown_refused (s : Server) (allowed : Option Duration)
    (h : s.shutDown? (.beginShutdown allowed) = none) :
    s.beginShutdown allowed = (s, .error (.invalidState .unableToShutdown s.state)) := by
  cases hn : s.startedRun? with
  | none =>
    simp only [beginShutdown, hn]
    rfl
  | some n =>
    simp [shutDown?, beginShutdown, hn, Except.toOption] at h

/-- A close that finds nothing to close is refused for the state, and changes nothing. -/
theorem close_refused (s : Server) (h : s.closed? .close = none) :
    s.close = (s, some (.invalidState .unableToClose s.state)) := by
  cases hn : s.startedRun? with
  | none =>
    simp only [close, hn]
    rfl
  | some n =>
    have hrunning := (startedRun?_eq_some_iff.mp hn).2
    simp [closed?, close, hn, hrunning] at h

/-- Only the current run changes the state. -/
theorem Effect.state_eq_of_ne {s : Server} {life : Life} {n : Nat} {a : Run.Step}
    (heffect : Effect s life (.run n a)) (hn : s.running ≠ some n) : life.state = s.state := by
  cases heffect with
  | idle hlife => rw [hlife]; rfl
  | begin _ _ _ hbegun => simp [begun?] at hbegun
  | run _ hlife => rw [hlife]
  | record hrunning => exact absurd hrunning hn
  | drained _ hrunning => exact absurd hrunning hn

/-- A server that was never started is safe after any steps, taken by whomever in any order. -/
theorem isSafe_steps (settings : Settings) (l : List Step) :
    IsSafe (({ settings } : Server).steps l) (collect begun? { settings } l)
      (collect shutDown? { settings } l) := by
  have hfresh : ({ settings } : Server).life.IsSound :=
    ⟨by simp [life], by simp [life], by simp [life]⟩
  have hsound := hfresh.steps l
  have hrunning := running_eq_getLast? (s := { settings }) rfl l
  refine {
    mayBecome := fun a => hsound.mayBecome (step_effect _ a)
    begun_eq := collect_begun?_eq rfl l
    running_eq := fun hstate => ⟨hrunning, ?_⟩
    stopped_once := fun l' => length_collect_stopped?_le
    shutdown_refused := shutdown_refused _
    close_refused := close_refused _
    replaced := fun n hn => ?_
    closing_entered := fun a hbefore hafter => ?_
    closing_left := fun a hclosing hleft => ?_ }
  · have hno : (({ settings } : Server).steps l).running ≠ none := by
      intro hnone
      have hunstarted := hsound.unstarted_iff.mpr hnone
      rcases hstate with hstate | hstate <;> simp [life, hstate] at hunstarted
    exact Option.isSome_iff_ne_none.mpr hno
  · rw [← hrunning] at hn
    exact ⟨fun error => if_neg hn, if_neg fun h => hn h.1, fun a =>
      (step_effect _ (.run n a)).state_eq_of_ne hn⟩
  · rcases ((step_effect _ a).shutDown hafter).2 with ⟨hclosing, -⟩ | ⟨n, -, -, hsome⟩
    · exact absurd hclosing hbefore
    · simp [hsome]
  · obtain ⟨hclosed, n, call, r, outcome, ha, hcurrent, hr, hdrain⟩ :=
      (step_effect _ a).drained_of_closing hclosing hleft
    obtain ⟨m, hm, hlast⟩ := getLast?_collect_shutDown? hfresh (by simp) l hclosing
    obtain rfl : m = n := by simpa [hcurrent] using hm.symm
    -- the only shutdown of the run has the number 0
    have hallows : (({ settings } : Server).steps l).state.Allows r :=
      hsound.current _ r hcurrent hr
    have hone : r.drains.length = 1 := by simpa [hclosing, ServerState.Allows] using hallows
    have hcall : call < r.drains.length := (List.getElem?_eq_some_iff.mp hdrain).1
    obtain rfl : call = 0 := by omega
    exact ⟨hclosed, m, 0, hlast, ha⟩

/-- A run that was closed and replaced comes to its end late, and the server stays started. -/
example :
    let s := ({} : Server).steps [.start {} .serve, .run 0 .proceed, .close, .start {} .serve,
      .run 0 (.notice true), .run 0 .farewell, .run 0 .farewell, .run 0 .farewell, .run 0 .record]
    s.state = .started ∧ s.running = some 1 ∧
      (s.runs[0]?.bind (·.result)).isSome = true := by
  decide +kernel

end Server

end WebHost
