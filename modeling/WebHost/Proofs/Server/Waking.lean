import Mathlib.Data.List.Induction
import Mathlib.Tactic.ByContra
import WebHost.Proofs.Server.Drain

/-!
# No wake-up is lost

Whoever waits for the last token registers first and looks at the count then, so between the look and
the sleep no wake-up can pass by unnoticed. While somebody sleeps who was not woken, a token is alive,
or the one that left last has yet to say so: a sleeper has seen a count that was not zero, the count
falls to zero only when a token leaves as the last one, and when that token says so nobody who has
registered is left unwoken. Which token it is may change in between, for tokens are taken and dropped
all the time, so the invariant names none. Once every token is gone, all who wait come back.
-/

set_option autoImplicit false

namespace WebHost

namespace Waiter

variable {w : Waiter}

/-- Who is asleep and unwoken after registering was so before. -/
theorem asleep_of_register (h : w.register = .asleep false) : w = .asleep false := by
  cases w <;> simp_all [register]

/-- Who is asleep and unwoken after getting up was so before. -/
theorem asleep_of_rise (h : w.rise = .asleep false) : w = .asleep false := by
  unfold rise at h
  split at h
  · simp at h
  · exact h

/-- Who falls asleep has seen that the count is not zero. -/
theorem asleep_of_look {count : Nat} (h : w.look count = .asleep false) :
    w = .asleep false ∨ count ≠ 0 := by
  unfold look at h
  split at h
  · split at h
    · simp at h
    · exact .inr ‹_›
  · exact .inl h

/-- Nobody who was woken is asleep and unwoken. -/
theorem wake_ne_asleep (w : Waiter) : w.wake ≠ .asleep false := by
  cases w <;> simp [wake]

/-- Who returns by looking was looking, and at a count of zero. -/
theorem looking_of_look {count : Nat} (h : w.look count = .returned) (hw : w ≠ .returned) :
    count = 0 ∧ ∃ woken, w = .looking woken := by
  refine ⟨(returned_of_look h).resolve_left hw, ?_⟩
  unfold look at h
  split at h
  · exact ⟨_, rfl⟩
  · exact absurd h hw

/-- Who is not asleep unwoken and has not given up finds out in one turn that the count is zero. -/
theorem look_register_rise (hasleep : w ≠ .asleep false) (habsent : w ≠ .absent) :
    (w.rise.register).look 0 = .returned := by
  cases w with
  | entering | looking | returned => rfl
  | absent => exact absurd rfl habsent
  | asleep woken =>
    cases woken with
    | false => exact absurd rfl hasleep
    | true => rfl

end Waiter

namespace Tracker

variable {t : Tracker}

/-! ## Who sleeps will be woken -/

/-- Nobody sleeps unwoken unless a token is alive, or one that left last has yet to say so. -/
def IsWatchful (t : Tracker) : Prop :=
  .asleep false ∈ t.waiters → .alive ∈ t.tokens ∨ .leaving true ∈ t.tokens

/-- A count that is not zero counts a token. -/
theorem IsExact.alive_mem (h : t.IsExact) (hactive : t.active ≠ 0) : .alive ∈ t.tokens := by
  rw [h, ← Nat.pos_iff_ne_zero, List.countP_pos_iff] at hactive
  obtain ⟨token, hmem, hcounts⟩ := hactive
  cases token with
  | alive => exact hmem
  | leaving | gone => exact absurd hcounts Bool.false_ne_true

/-- A tracker stays watchful when a token is given back. -/
theorem IsWatchful.release (h : t.IsWatchful) (hexact : t.IsExact) (token : Nat) :
    (t.release token).IsWatchful := by
  have hexact' := isExact_release hexact token
  unfold Tracker.release at hexact' ⊢
  split
  · rename_i halive
    rw [halive] at hexact'
    intro _
    by_cases hlast : t.active = 1
    · right
      obtain ⟨hlt, -⟩ := List.getElem?_eq_some_iff.mp halive
      simp [hlast, List.mem_set, hlt]
    · left
      -- the token that leaves is counted, so there is another one
      have hpos : t.active ≠ 0 := by
        rw [hexact, ← Nat.pos_iff_ne_zero, List.countP_pos_iff]
        exact ⟨_, List.mem_of_getElem? halive, rfl⟩
      exact hexact'.alive_mem (show t.active - 1 ≠ 0 by omega)
  · exact h

/-- A tracker stays watchful when those who wait are told. -/
theorem IsWatchful.announce (h : t.IsWatchful) (token : Nat) : (t.announce token).IsWatchful := by
  unfold Tracker.announce
  split
  · rename_i last hleaving
    cases last with
    | true =>
      -- everyone who sleeps has registered, so everyone is woken
      intro hasleep
      obtain ⟨w, -, hw⟩ := List.mem_map.mp hasleep
      exact absurd hw w.wake_ne_asleep
    | false =>
      have hkept {other : Token} (hother : other ∈ t.tokens) (hne : other ≠ .leaving false) :
          other ∈ t.tokens.set token .gone := by
        obtain ⟨i, hi⟩ := List.mem_iff_getElem?.mp hother
        have hdiffers : token ≠ i := by
          rintro rfl
          exact hne (Option.some.inj (hi.symm.trans hleaving))
        exact List.mem_of_getElem? ((List.getElem?_set_ne hdiffers).trans hi)
      intro hasleep
      rcases h hasleep with halive | hlast
      · exact .inl (hkept halive (by simp))
      · exact .inr (hkept hlast (by simp))
  · exact h

/-- A tracker stays watchful when somebody falls asleep only while a token is alive. -/
theorem isWatchful_modify (h : t.IsWatchful) {w : Nat} {f : Waiter → Waiter}
    (hf : ∀ x, f x = .asleep false → x = .asleep false ∨ .alive ∈ t.tokens) :
    IsWatchful { t with waiters := t.waiters.modify w f } := by
  intro hasleep
  rcases mem_waiters_of_modify hasleep with hasleep | ⟨x, hx, hx'⟩
  · exact h hasleep
  · rcases hf x hx' with rfl | halive
    · exact h hx
    · exact .inl halive

/-- No step of anybody leaves a sleeper behind. -/
theorem IsWatchful.step (h : t.IsWatchful) (hexact : t.IsExact) (a : Step) :
    (t.step a).IsWatchful := by
  cases a with
  | acquire => exact fun _ => .inl (by simp [Tracker.step, acquire])
  | release token => exact h.release hexact token
  | announce token => exact h.announce token
  | wait =>
    intro hasleep
    rcases List.mem_append.mp hasleep with hasleep | hasleep
    · exact h hasleep
    · simp at hasleep
  | register w => exact isWatchful_modify h fun x hx => .inl (Waiter.asleep_of_register hx)
  | look w =>
    exact isWatchful_modify h fun x hx => (Waiter.asleep_of_look hx).imp_right hexact.alive_mem
  | rise w => exact isWatchful_modify h fun x hx => .inl (Waiter.asleep_of_rise hx)
  | giveUp w => exact isWatchful_modify h fun x hx => by simp at hx

/-! ## Who returns has read zero -/

/-- A waiter is about to look at the count, and the count is zero. -/
structure ReadsZero (t : Tracker) (w : Nat) : Prop where
  looking : ∃ woken, t.waiters[w]? = some (.looking woken)
  active : t.active = 0

/-- Who has returned is found so among those who wait. -/
theorem hasReturned_iff {w : Nat} : t.hasReturned w = true ↔ t.waiters[w]? = some .returned :=
  decide_eq_true_iff

/-- Who has returned after a change had returned before, or the change made them. -/
theorem returned_of_getElem?_modify {v w : Nat} {f : Waiter → Waiter}
    (h : (t.waiters.modify v f)[w]? = some .returned) :
    t.waiters[w]? = some .returned ∨
      v = w ∧ ∃ x, t.waiters[w]? = some x ∧ x ≠ .returned ∧ f x = .returned := by
  rw [List.getElem?_modify] at h
  obtain ⟨x, hx, hx'⟩ := Option.map_eq_some_iff.mp h
  by_cases hreturned : x = .returned
  · exact .inl (hreturned ▸ hx)
  · split at hx'
    · exact .inr ⟨‹_›, x, hx, hreturned, hx'⟩
    · exact absurd hx' hreturned

/-- A waiter returns in no other way than by reading a count of zero. -/
theorem hasReturned_step {a : Step} {w : Nat} (h : (t.step a).hasReturned w = true) :
    t.hasReturned w = true ∨ a = .look w ∧ t.ReadsZero w := by
  rw [hasReturned_iff] at h ⊢
  cases a with
  | acquire => exact .inl h
  | release token =>
    simp only [step, release] at h
    split at h <;> exact .inl h
  | announce token =>
    simp only [step, announce] at h
    split at h
    · split at h
      · rw [List.getElem?_map] at h
        obtain ⟨x, hx, hwake⟩ := Option.map_eq_some_iff.mp h
        exact .inl (Waiter.returned_of_wake hwake ▸ hx)
      · exact .inl h
    · exact .inl h
  | wait =>
    left
    have hw : (t.waiters ++ [.entering])[w]? = some .returned := h
    rw [List.getElem?_append] at hw
    split at hw
    · exact hw
    · exact absurd (List.mem_of_getElem? hw) (by simp)
  | register v =>
    refine (returned_of_getElem?_modify h).imp_right ?_
    rintro ⟨-, x, -, hne, hx⟩
    exact absurd (Waiter.returned_of_register hx) hne
  | look v =>
    refine (returned_of_getElem?_modify h).imp_right ?_
    rintro ⟨rfl, x, hx, hne, hlook⟩
    obtain ⟨hzero, woken, rfl⟩ := Waiter.looking_of_look hlook hne
    exact ⟨rfl, ⟨woken, hx⟩, hzero⟩
  | rise v =>
    refine (returned_of_getElem?_modify h).imp_right ?_
    rintro ⟨-, x, -, hne, hx⟩
    exact absurd (Waiter.returned_of_rise hx) hne
  | giveUp v =>
    refine (returned_of_getElem?_modify h).imp_right ?_
    rintro ⟨-, x, -, -, hx⟩
    simp at hx

/-! ## Runs of a tracker -/

/-- To run over two rows of steps is to run over the second from where the first ends. -/
theorem run_append (t : Tracker) (steps later : List Step) :
    t.run (steps ++ later) = (t.run steps).run later :=
  List.foldl_append

/-- A fresh tracker is exact. -/
theorem isExact_fresh : IsExact {} := rfl

/-- At a fresh tracker nobody sleeps. -/
theorem isWatchful_fresh : IsWatchful {} := fun h => absurd h List.not_mem_nil

/-- The count is exact after any steps. -/
theorem isExact_run (h : t.IsExact) (steps : List Step) : (t.run steps).IsExact := by
  induction steps using List.reverseRecOn with
  | nil => exact h
  | append_singleton steps a ih =>
    rw [run_append]
    exact ih.step a

/-- A watchful tracker is so after any steps. -/
theorem isWatchful_run (h : t.IsWatchful) (hexact : t.IsExact) (steps : List Step) :
    (t.run steps).IsWatchful := by
  induction steps using List.reverseRecOn with
  | nil => exact h
  | append_singleton steps a ih =>
    rw [run_append]
    exact ih.step (isExact_run hexact steps) a

/-- Who returns in the course of some steps reads a count of zero at one of them. -/
theorem exists_readsZero {w : Nat} {steps : List Step} (hfresh : t.hasReturned w = false)
    (h : (t.run steps).hasReturned w = true) :
    ∃ before after, steps = before ++ .look w :: after ∧ (t.run before).ReadsZero w := by
  induction steps using List.reverseRecOn with
  | nil => exact absurd h (by simp [run, hfresh])
  | append_singleton steps a ih =>
    rw [run_append] at h
    rcases hasReturned_step h with h | ⟨rfl, hzero⟩
    · obtain ⟨before, after, rfl, hzero⟩ := ih h
      exact ⟨before, after ++ [a], by simp, hzero⟩
    · exact ⟨steps, [], rfl, hzero⟩

/-- A tracker without a token that is alive or about to wake somebody lets every waiter return who has
not given up. -/
theorem IsWatchful.hasReturned (h : t.IsWatchful) (hexact : t.IsExact)
    (halive : .alive ∉ t.tokens) (hlast : .leaving true ∉ t.tokens) {w : Nat} {x : Waiter}
    (hx : t.waiters[w]? = some x) (habsent : x ≠ .absent) :
    (t.run [.rise w, .register w, .look w]).hasReturned w = true := by
  have hzero : t.active = 0 := by
    by_contra hactive
    exact halive (hexact.alive_mem hactive)
  have hasleep : x ≠ .asleep false := by
    rintro rfl
    exact (h (List.mem_of_getElem? hx)).elim halive hlast
  rw [hasReturned_iff]
  simp [run, Tracker.step, hx, hzero, Waiter.look_register_rise hasleep habsent]

/-- What is true of a tracker after some steps, whoever took them. -/
structure IsReliable (steps : List Step) : Prop where
  /-- The count is the number of tokens alive. -/
  active : (run {} steps).active = (run {} steps).tokens.count .alive
  /-- Who has returned has read a count of zero. -/
  returned : ∀ w, (run {} steps).hasReturned w = true →
    ∃ before after, steps = before ++ .look w :: after ∧ (run {} before).ReadsZero w
  /-- Nobody sleeps unwoken without a token that is alive or about to wake everyone. -/
  asleep : .asleep false ∈ (run {} steps).waiters →
    .alive ∈ (run {} steps).tokens ∨ .leaving true ∈ (run {} steps).tokens
  /-- Without such a token, whoever still waits returns in its next turn. -/
  returns : .alive ∉ (run {} steps).tokens → .leaving true ∉ (run {} steps).tokens →
    ∀ w x, (run {} steps).waiters[w]? = some x → x ≠ .absent →
      (run {} (steps ++ [.rise w, .register w, .look w])).hasReturned w = true

/-- No wake-up is lost, in whatever order tokens are taken and dropped and waiters come, look, sleep and
give up. -/
theorem isReliable_run (steps : List Step) : IsReliable steps := by
  have hexact : (run {} steps).IsExact := isExact_run isExact_fresh steps
  have hwatchful : (run {} steps).IsWatchful :=
    isWatchful_run isWatchful_fresh isExact_fresh steps
  refine ⟨?_, fun w hw => exists_readsZero rfl hw, hwatchful, ?_⟩
  · rw [hexact, List.count]
    refine List.countP_congr fun token _ => ?_
    cases token <;> simp [Token.counts]
  · intro halive hlast w x hx habsent
    rw [run_append]
    exact hwatchful.hasReturned hexact halive hlast hx habsent

/-- A token that is taken while the last one has left but not said so keeps nobody asleep who slept
before. -/
example :
    let steps : List Step := [.acquire, .wait, .register 0, .look 0, .release 0, .acquire, .release 1]
    (run {} steps).waiters = [.asleep false] ∧ (run {} (steps ++ [.announce 0])).waiters = [.asleep true]
      ∧ (run {} (steps ++ [.announce 0, .rise 0, .register 0, .look 0])).hasReturned 0 = true := by
  decide

end Tracker

namespace Run

/-- Whoever shuts a run down and sleeps unwoken waits for a connection that is still counted, or for one
that is about to wake everyone. -/
theorem isWatchful_steps (s : Server) (e : Entry) (acceptor : Option TlsAcceptor) (l : List Step) :
    ((s.newRun e acceptor).steps l).tracker.IsWatchful := by
  induction l using List.reverseRecOn with
  | nil => exact Tracker.isWatchful_fresh
  | append_singleton l a ih =>
    have hexact := ((isDraining_newRun s e acceptor).steps l).counted.exact
    rw [steps_append]
    rcases (step_tally ((s.newRun e acceptor).steps l) a).tracker_cases with
      htracker | ⟨b, htracker, -⟩
    · exact htracker ▸ ih
    · exact htracker ▸ ih.step hexact b

/-- Once all tokens of a run are gone, a shutdown that waits for the last connection and has not given up
comes out well in its next turn. -/
theorem drains_of_gone (s : Server) (e : Entry) (acceptor : Option TlsAcceptor) (l : List Step)
    {call w : Nat} {x : Waiter}
    (hcall : ((s.newRun e acceptor).steps l).drains[call]? = some (.counting w))
    (hx : ((s.newRun e acceptor).steps l).tracker.waiters[w]? = some x) (habsent : x ≠ .absent)
    (hgone : ∀ token ∈ ((s.newRun e acceptor).steps l).tracker.tokens, token = .gone) :
    (((s.newRun e acceptor).steps l).steps [.drain call .rise, .drain call .register,
      .drain call .look, .drain call .conclude]).drains[call]? = some (.ended .drained) := by
  have hwatchful := isWatchful_steps s e acceptor l
  have hexact := ((isDraining_newRun s e acceptor).steps l).counted.exact
  generalize (s.newRun e acceptor).steps l = r at hcall hx hgone hwatchful hexact ⊢
  have halive : .alive ∉ r.tracker.tokens := fun hmem => by simpa using hgone _ hmem
  have hlast : .leaving true ∉ r.tracker.tokens := fun hmem => by simpa using hgone _ hmem
  have hturn : r.steps [.drain call .rise, .drain call .register, .drain call .look] =
      { r with tracker := r.tracker.run [.rise w, .register w, .look w] } := by
    simp [steps, step, stepDrain, hcall, Tracker.run]
  have hreturned := hwatchful.hasReturned hexact halive hlast hx habsent
  obtain ⟨hlt, -⟩ := List.getElem?_eq_some_iff.mp hcall
  have hends : r.steps [.drain call .rise, .drain call .register, .drain call .look,
      .drain call .conclude] = (r.steps [.drain call .rise, .drain call .register,
        .drain call .look]).step (.drain call .conclude) := rfl
  rw [hends, hturn]
  simp only [step, stepDrain, hcall]
  rw [if_pos hreturned]
  exact List.getElem?_set_self hlt

end Run

end WebHost
