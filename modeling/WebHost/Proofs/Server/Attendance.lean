import WebHost.Proofs.Server.Refusal
import WebHost.Proofs.Server.Succession

/-!
# Who attends a started server

A server is started for as long as its current run goes on, or so its state says. A run leaves in
two ways. When its result is recorded, the state is changed along with it. When nobody waits for the
run any more, its listener is let go and its end is announced, but no result is recorded: the state
stays as it was, and every later start is refused. This happens wherever a run can be given up, and
it is the only way in which a started server comes to be unattended.
-/

set_option autoImplicit false

namespace WebHost

namespace Run

variable {r r' : Run} {a : Step}

/-- A run that waits for something: for the run before it, for the address or for a connection. -/
def IsPending (r : Run) : Prop :=
  match r.stage with
  | .waiting | .binding | .accepting => True
  | _ => False

/-- A run that is given up while it waits for something is settled. -/
theorem IsPending.isSettled_drop (h : r.IsPending) : r.drop.IsSettled := by
  unfold IsPending at h
  cases hstage : r.stage with
  | waiting | binding | accepting => simp [drop, hstage, IsSettled]
  | _ => simp [hstage] at h

/-- A run is settled in one of two ways: it is given up, or its result is recorded. -/
theorem Move.settle (hmove : Move r a r') (h : ¬ r.IsSettled) (h' : r'.IsSettled) :
    (a = .drop ∧ r.IsPending) ∨ (a = .record ∧ ∃ error, r.stage = .ended error) := by
  cases hmove with
  | same hsame =>
    unfold IsSettled at h h'
    rw [hsame.stage] at h'
    exact absurd h' h
  | record hstage => exact .inr ⟨rfl, _, hstage⟩
  | dropWaiting hstage | dropBinding hstage | dropAccepting hstage =>
    exact .inl ⟨rfl, by simp [IsPending, hstage]⟩
  | bidDropped hstage | vanish hstage => exact absurd (by simp [IsSettled, hstage]) h
  | turnToBind | resume | bind | failToBind | leave | bid | finish =>
    simp [IsSettled, enterLoop, Run.leave] at h'

end Run

namespace Server

section Step

variable {s : Server} {a : Step} {n : Nat} {r r' : Run}

/-- A run that has just begun waits for the one before it. -/
theorem stage_of_begun (hbegun : s.begun? a = some s.runs.length)
    (hr : (s.step a).runs[s.runs.length]? = some r) : r.stage = .waiting := by
  have hlength : (s.step a).runs.length = s.runs.length + 1 := by
    rcases (step_effect s a).begun with ⟨-, -, hlength⟩ | ⟨hnone, -, -⟩
    · exact hlength
    · rw [hnone] at hbegun
      exact absurd hbegun (by simp)
  rcases step_runs s a with hruns | hruns | ⟨hruns, -, -⟩
  · rw [hruns] at hlength
    omega
  · rw [hruns, List.getElem?_concat_length] at hr
    rw [← Option.some.inj hr]
    rfl
  · rw [hruns, List.length_modify] at hlength
    omega

/-- A run comes to be settled when it is given up, or when its own result is recorded. -/
theorem settle_of_step (hr : s.runs[n]? = some r) (hr' : (s.step a).runs[n]? = some r')
    (h : ¬ r.IsSettled) (h' : r'.IsSettled) :
    (a = .run n .drop ∧ r.IsPending) ∨ (a = .run n .record ∧ ∃ error, r.stage = .ended error) := by
  obtain ⟨r'', hr'', hstep⟩ := exists_run_step hr a
  obtain rfl : r' = r'' := Option.some.inj (hr'.symm.trans hr'')
  rcases hstep with rfl | ⟨b, rfl, hb⟩
  · exact absurd h' h
  · rcases (r.step_move b).settle h h' with ⟨hdrop, hpending⟩ | ⟨hrecord, hended⟩
    · exact .inl ⟨hdrop ▸ hb (.inl hdrop), hpending⟩
    · exact .inr ⟨hrecord ▸ hb (.inr hrecord), hended⟩

/-- When the result of the current run is recorded, the state changes with it. -/
theorem state_record {error : ServerError} (hrunning : s.running = some n)
    (hr : s.runs[n]? = some r) (hstage : r.stage = .ended error) :
    (s.step (.run n .record)).state = stateAfter s.state error := by
  simp [step, stepRun, hr, hstage, finish, updateRun, hrunning]

end Step

/-! ## Steps in a row -/

section Steps

variable {s : Server} {l : List Step} {n : Nat}

/-- Run `n` is given up in the course of some steps, at a point where it waits for something. -/
def GivesUp (s : Server) (l : List Step) (n : Nat) : Prop :=
  ∃ before after r, l = before ++ .run n .drop :: after ∧
    (s.steps before).runs[n]? = some r ∧ r.IsPending

/-- Who has given up a run has done so after another step. -/
theorem GivesUp.concat (h : GivesUp s l n) (a : Step) : GivesUp s (l ++ [a]) n := by
  obtain ⟨before, after, r, rfl, hr, hpending⟩ := h
  exact ⟨before, after ++ [a], r, by simp, hr, hpending⟩

/-- A run that was given up is settled from then on. -/
theorem GivesUp.exists_settled (h : GivesUp s l n) :
    ∃ r, (s.steps l).runs[n]? = some r ∧ r.IsSettled := by
  obtain ⟨before, after, r, rfl, hr, hpending⟩ := h
  have hdrop : ((s.steps before).step (.run n .drop)).runs[n]? = some r.drop := by
    simp [step, stepRun, hr, updateRun, Run.step]
  rw [steps_append_cons]
  exact exists_run_steps Run.IsSettled (fun _ h b => h.step b) hdrop hpending.isSettled_drop after

/-- If the current run of a started server is settled, it was given up. -/
theorem givesUp_of_settled (settings : Settings) (l : List Step) {r : Run}
    (hstate : (({ settings } : Server).steps l).state = .started)
    (hrunning : (({ settings } : Server).steps l).running = some n)
    (hr : (({ settings } : Server).steps l).runs[n]? = some r) (h : r.IsSettled) :
    GivesUp { settings } l n := by
  -- the last step either settles the run, or finds it settled and leaves the rest to the induction
  induction l using List.reverseRecOn generalizing r with
  | nil => simp [steps] at hstate
  | append_singleton l a ih =>
    rw [steps_concat] at hstate hrunning hr
    have heffect := step_effect (({ settings } : Server).steps l) a
    rcases heffect.begun with ⟨hbegun, hcurrent, -⟩ | ⟨hbegun, hcurrent, hlength⟩
    · -- the run has just been begun, so it still waits
      obtain rfl := Option.some.inj (hcurrent.symm.trans hrunning)
      have hwaiting := stage_of_begun hbegun hr
      simp [Run.IsSettled, hwaiting] at h
    · have hstarted := heffect.started hbegun hstate
      have hrunning' := hcurrent.symm.trans hrunning
      have hlt : n < (({ settings } : Server).steps l).runs.length :=
        hlength ▸ (List.getElem?_eq_some_iff.mp hr).1
      have hr' := List.getElem?_eq_getElem hlt
      by_cases hbefore : ((({ settings } : Server).steps l).runs[n]).IsSettled
      · exact (ih hstarted hrunning' hr' hbefore).concat a
      · rcases settle_of_step hr' hr hbefore h with ⟨rfl, hpending⟩ | ⟨rfl, error, hstage⟩
        · exact ⟨l, [], _, rfl, hr', hpending⟩
        · rw [state_record hrunning' hr' hstage] at hstate
          exact absurd hstate (stateAfter_ne_started _ error)

end Steps

/-! ## Started servers -/

/-- A server that is started only while somebody attends it. -/
structure IsAttended (s : Server) : Prop where
  /-- The current run of a started server still goes on. -/
  served : s.state = .started →
    ∃ n r, s.running = some n ∧ s.runs[n]? = some r ∧ ¬ r.IsSettled
  /-- Once the current run is over, no start is refused because the server is started. -/
  restart : ∀ n r, s.running = some n → s.runs[n]? = some r → r.IsSettled → ∀ vault entry,
    (s.start vault entry).2 ≠ .error (.invalidState .unableToStart .started)

/-- A start that is refused because the server has started finds it started. -/
theorem started_of_refused {s : Server} {vault : Vault} {entry : Entry}
    (h : (s.start vault entry).2 = .error (.invalidState .unableToStart .started)) :
    s.state = .started := by
  unfold start at h
  split at h
  · simpa [refuse] using h
  · split at h <;> simp at h

/-- After any steps in any order, a server is attended unless it is still started after its current
run was given up, be it while that waited for the run before it, for the address or for a
connection. -/
theorem isAttended_steps_iff (settings : Settings) (l : List Step) :
    IsAttended (({ settings } : Server).steps l) ↔
      ¬ ∃ n, (({ settings } : Server).steps l).state = .started ∧
        (({ settings } : Server).steps l).running = some n ∧ GivesUp { settings } l n := by
  constructor
  · rintro hattended ⟨n, hstate, hrunning, hgivesUp⟩
    obtain ⟨m, r, hrunning', hr, hgoesOn⟩ := hattended.served hstate
    obtain rfl := Option.some.inj (hrunning'.symm.trans hrunning)
    obtain ⟨r', hr', hsettled⟩ := hgivesUp.exists_settled
    obtain rfl := Option.some.inj (hr'.symm.trans hr)
    exact hgoesOn hsettled
  · intro hkept
    have hover (n : Nat) (r : Run) (hstate : (({ settings } : Server).steps l).state = .started)
        (hrunning : (({ settings } : Server).steps l).running = some n)
        (hr : (({ settings } : Server).steps l).runs[n]? = some r) : ¬ r.IsSettled := by
      intro hsettled
      exact hkept ⟨n, hstate, hrunning, givesUp_of_settled settings l hstate hrunning hr hsettled⟩
    constructor
    · intro hstate
      have hsound := (isSound_fresh settings).steps l
      cases hrunning : (({ settings } : Server).steps l).running with
      | none =>
        have hunstarted := hsound.unstarted_iff.mpr hrunning
        simp [life, hstate] at hunstarted
      | some n =>
        have hlength := hsound.length_runs n hrunning
        have hr := List.getElem?_eq_getElem (l := (({ settings } : Server).steps l).runs) (i := n)
          (by simp [life] at hlength; omega)
        exact ⟨n, _, rfl, hr, hover n _ hstate hrunning hr⟩
    · intro n r hrunning hr hsettled vault entry hrefused
      exact hover n r (started_of_refused hrefused) hrunning hr hsettled

/-- Somebody serves on a listener and gives up while the accept loop waits for a connection. The
listener is gone, the server stays started, and nobody can start it again. -/
theorem not_isAttended_of_drop :
    let s := ({} : Server).steps [.start {} .serve, .run 0 .proceed, .run 0 .drop, .run 0 .farewell,
      .run 0 .farewell, .run 0 .farewell]
    s.state = .started ∧ s.runs.map (·.listener) = [false] ∧
      (s.start {} .serve).2 = .error (.invalidState .unableToStart .started) ∧ ¬ IsAttended s := by
  intro s
  have hgone : ∃ r, s.runs[0]? = some r ∧ r.IsSettled := ⟨_, rfl, trivial⟩
  obtain ⟨r, hr, hsettled⟩ := hgone
  refine ⟨rfl, rfl, rfl, fun hattended => ?_⟩
  exact hattended.restart 0 r rfl hr hsettled {} .serve rfl

end Server

end WebHost
