import WebHost.Proofs.Server.Counting
import WebHost.Proofs.Server.Transition

/-!
# A graceful shutdown drains

Whoever shuts a run down waits until the run has said that it stopped, and then until the count is
zero. Once a run has stopped it accepts nothing, so from then on the count only goes down; and a
waiter returns only after it has read a count of zero. A shutdown that comes out well therefore
leaves a run without a listener and without a connection, and nothing that happens later changes
that.
-/

set_option autoImplicit false

namespace WebHost

/-! ## Waiters -/

namespace Waiter

/-- Waking somebody does not make them return. -/
theorem returned_of_wake {w : Waiter} (h : w.wake = .returned) : w = .returned := by
  cases w <;> simp_all [wake]

/-- Registering does not make anybody return. -/
theorem returned_of_register {w : Waiter} (h : w.register = .returned) : w = .returned := by
  cases w <;> simp_all [register]

/-- Getting up does not make anybody return. -/
theorem returned_of_rise {w : Waiter} (h : w.rise = .returned) : w = .returned := by
  unfold rise at h
  split at h
  · simp at h
  · exact h

/-- Who looks returns only at a count of zero. -/
theorem returned_of_look {w : Waiter} {count : Nat} (h : w.look count = .returned) :
    w = .returned ∨ count = 0 := by
  unfold look at h
  split at h
  · split at h
    · exact .inr ‹_›
    · simp at h
  · exact .inl h

end Waiter

namespace Tracker

variable {t : Tracker} {a : Step}

/-- Only taking a token adds to the count. -/
theorem active_step_le (h : a ≠ .acquire) : (t.step a).active ≤ t.active := by
  cases a with
  | acquire => exact absurd rfl h
  | release token =>
    simp only [step, release]
    split
    · exact Nat.sub_le _ _
    · exact Nat.le_refl _
  | announce token =>
    simp only [step, announce]
    split <;> exact Nat.le_refl _
  | wait | register | look | rise | giveUp => exact Nat.le_refl _

/-- Only a call to wait adds to those who wait. -/
theorem length_waiters_step (h : a ≠ .wait) : (t.step a).waiters.length = t.waiters.length := by
  cases a with
  | wait => exact absurd rfl h
  | acquire => rfl
  | release token =>
    simp only [step, release]
    split <;> rfl
  | announce token =>
    simp only [step, announce]
    repeat' split
    all_goals simp
  | register | look | rise | giveUp => exact List.length_modify ..

/-- After one waiter has moved, a waiter stands where some waiter stood or moved to. -/
theorem mem_waiters_of_modify {x : Waiter} {w : Nat} {f : Waiter → Waiter}
    (h : x ∈ t.waiters.modify w f) : x ∈ t.waiters ∨ ∃ y ∈ t.waiters, f y = x := by
  obtain ⟨i, hi⟩ := List.mem_iff_getElem?.mp h
  rw [List.getElem?_modify] at hi
  obtain ⟨y, hy, hmoved⟩ := Option.map_eq_some_iff.mp hi
  have hmem : y ∈ t.waiters := List.mem_of_getElem? hy
  split at hmoved
  · exact .inr ⟨y, hmem, hmoved⟩
  · exact .inl (hmoved ▸ hmem)

/-- A change that lets somebody return only at a count of zero does so for all who wait. -/
theorem returned_of_modify {w : Nat} {f : Waiter → Waiter}
    (hf : ∀ x, f x = .returned → x = .returned ∨ t.active = 0)
    (h : .returned ∈ t.waiters.modify w f) : .returned ∈ t.waiters ∨ t.active = 0 := by
  rcases mem_waiters_of_modify h with h | ⟨x, hx, hreturned⟩
  · exact .inl h
  · rcases hf x hreturned with rfl | hzero
    · exact .inl hx
    · exact .inr hzero

/-- A waiter returns only after it has read a count of zero. -/
theorem returned_step (h : .returned ∈ (t.step a).waiters) :
    .returned ∈ t.waiters ∨ (t.step a).active = 0 := by
  cases a with
  | acquire => exact .inl h
  | release token =>
    simp only [step, release] at h
    split at h <;> exact .inl h
  | announce token =>
    simp only [step, announce] at h
    split at h
    · split at h
      · obtain ⟨w, hw, hwake⟩ := List.mem_map.mp h
        exact .inl (Waiter.returned_of_wake hwake ▸ hw)
      · exact .inl h
    · exact .inl h
  | wait =>
    rcases List.mem_append.mp h with h | h
    · exact .inl h
    · simp at h
  | register w => exact returned_of_modify (fun x hx => .inl (Waiter.returned_of_register hx)) h
  | look w => exact returned_of_modify (fun x hx => Waiter.returned_of_look hx) h
  | rise w => exact returned_of_modify (fun x hx => .inl (Waiter.returned_of_rise hx)) h
  | giveUp w => exact returned_of_modify (fun x hx => by simp at hx) h

end Tracker

namespace Run

variable {r r' : Run}

/-! ## What ends a shutdown well -/

/-- A shutdown of the run came out well. -/
def HasDrained (r : Run) : Prop :=
  .ended .drained ∈ r.drains ∨ .recorded .drained ∈ r.drains

/-- A shutdown that moves on has drained a run only if it comes to that end. -/
theorem hasDrained_setDrain {call : Nat} {stage : DrainStage}
    (h : (r.setDrain call stage).HasDrained) :
    r.HasDrained ∨ stage = .ended .drained ∨ stage = .recorded .drained := by
  rcases h with h | h
  · rcases List.mem_or_eq_of_mem_set h with h | h
    · exact .inl (.inl h)
    · exact .inr (.inl h.symm)
  · rcases List.mem_or_eq_of_mem_set h with h | h
    · exact .inl (.inr h)
    · exact .inr (.inr h.symm)

/-- A step of a shutdown has drained a run only if somebody who waited has returned. -/
theorem hasDrained_stepDrain {call : Nat} {step : DrainStep}
    (h : (r.stepDrain call step).HasDrained) : r.HasDrained ∨ .returned ∈ r.tracker.waiters := by
  unfold stepDrain at h
  split at h
  case h_6 w _ =>
    -- a shutdown concludes
    split at h
    · rename_i hreturned
      exact .inr (List.mem_of_getElem? (of_decide_eq_true hreturned))
    · exact .inl h
  case h_11 outcome hended =>
    -- the outcome of a shutdown is recorded
    rcases hasDrained_setDrain h with h | h | h
    · exact .inl h
    · simp at h
    · obtain rfl : outcome = .drained := by simpa using h
      exact .inl (.inl (List.mem_of_getElem? hended))
  case h_2 =>
    split at h
    · exact .inl ((hasDrained_setDrain h).resolve_right (by simp))
    · exact .inl h
  case h_3 | h_4 | h_5 | h_12 => exact .inl h
  all_goals exact .inl ((hasDrained_setDrain h).resolve_right (by simp))

/-- A shutdown comes out well only when its waiter has returned. -/
theorem hasDrained_step {a : Step} (h : (r.step a).HasDrained) :
    r.HasDrained ∨ .returned ∈ r.tracker.waiters := by
  have hsame (hdrains : (r.step a).drains = r.drains) :
      r.HasDrained ∨ .returned ∈ r.tracker.waiters := by
    unfold HasDrained at h
    rw [hdrains] at h
    exact .inl h
  cases a with
  | drain call drainStep => exact hasDrained_stepDrain h
  | beginDrain =>
    have h : .ended .drained ∈ r.drains ++ [.called] ∨
        .recorded .drained ∈ r.drains ++ [.called] := h
    exact .inl (by simpa [HasDrained] using h)
  | connection number connectionStep => exact hsame (r.drains_stepConnection _ _)
  | drop => exact hsame r.drains_drop
  | close => exact hsame rfl
  | farewell =>
    refine hsame ?_
    simp only [step]
    split <;> simp [drains_bid]
  | proceed | bind | accept | failAccept | notice | record =>
    refine hsame ?_
    simp only [step]
    repeat' split
    all_goals rfl

/-! ## What holds while a run is shut down -/

/-- A run of which the shutdowns tell the truth. -/
structure IsDraining (r : Run) : Prop where
  orderly : r.IsOrderly
  counted : r.IsCounted
  waiting : r.tracker.waiters ≠ [] → r.stopped.isSet = true
  returned : .returned ∈ r.tracker.waiters → r.tracker.active = 0
  drained : r.HasDrained → r.stopped.isSet = true ∧ r.tracker.active = 0

/-- What a step does to the tracker: the accept loop adds to the count, and who waits for the last
connection begins to wait after the run has stopped. -/
theorem Tally.tracker_cases (htally : Tally r r') :
    r'.tracker = r.tracker ∨ ∃ b, r'.tracker = r.tracker.step b ∧
      (b = .acquire → r.stage = .accepting) ∧ (b = .wait → r.stopped.isSet = true) := by
  cases htally with
  | same htracker => exact .inl htracker
  | accept haccepting htracker => exact .inr ⟨_, htracker, fun _ => haccepting, by simp⟩
  | uncount _ _ _ htracker => exact .inr ⟨_, htracker, by simp, by simp⟩
  | progress _ _ _ htracker =>
    rcases htracker with htracker | htracker
    · exact .inl htracker
    · exact .inr ⟨_, htracker, by simp, by simp⟩
  | wait hstopped htracker => exact .inr ⟨_, htracker, by simp, fun _ => hstopped⟩
  | waiter hb htracker =>
    exact .inr ⟨_, htracker, by rintro rfl; exact hb.elim, by rintro rfl; exact hb.elim⟩

/-- A run that has stopped takes no connection any more, so that its count only goes down. -/
theorem IsOrderly.step_of_stopped (h : r.IsOrderly) (hstopped : r.stopped.isSet = true) (a : Step) :
    (r.step a).stopped.isSet = true ∧ (r.step a).tracker.active ≤ r.tracker.active ∧
      (r.step a).connections.length = r.connections.length := by
  have hstage : r.stage ≠ .accepting := (h.stage_of_stopped hstopped).2
  have htally := r.step_tally a
  refine ⟨(r.step_move a).stopped hstopped, ?_, ?_⟩
  · rcases htally.tracker_cases with htracker | ⟨b, htracker, hacquire, -⟩
    · exact Nat.le_of_eq (by rw [htracker])
    · rw [htracker]
      exact Tracker.active_step_le fun hb => hstage (hacquire hb)
  · cases htally with
    | accept haccepting => exact absurd haccepting hstage
    | same _ hconnections | wait _ _ hconnections | waiter _ _ hconnections => rw [hconnections]
    | uncount _ _ _ _ hconnections | progress _ _ _ _ hconnections =>
      rw [hconnections, List.length_set]

/-- The shutdowns of a run go on telling the truth, step by step. -/
theorem IsDraining.step (h : r.IsDraining) (a : Step) : (r.step a).IsDraining := by
  have hmove := r.step_move a
  have htally := r.step_tally a
  have hquiet (hstopped : r.stopped.isSet = true) (hzero : r.tracker.active = 0) :
      (r.step a).stopped.isSet = true ∧ (r.step a).tracker.active = 0 := by
    obtain ⟨hstopped', hle, -⟩ := h.orderly.step_of_stopped hstopped a
    exact ⟨hstopped', by omega⟩
  have hwaiter (hw : .returned ∈ r.tracker.waiters) :
      (r.step a).stopped.isSet = true ∧ (r.step a).tracker.active = 0 :=
    hquiet (h.waiting (List.ne_nil_of_mem hw)) (h.returned hw)
  refine ⟨h.orderly.step a, h.counted.tally htally, fun hw => ?_, fun hw => ?_, fun hd => ?_⟩
  · rcases htally.tracker_cases with htracker | ⟨b, htracker, -, hwait⟩
    · rw [htracker] at hw
      exact hmove.stopped (h.waiting hw)
    · by_cases hb : b = .wait
      · exact hmove.stopped (hwait hb)
      · have hlength := Tracker.length_waiters_step (t := r.tracker) hb
        refine hmove.stopped (h.waiting fun hnil => hw ?_)
        rw [htracker]
        exact List.length_eq_zero_iff.mp (by rw [hlength, hnil]; rfl)
  · rcases htally.tracker_cases with htracker | ⟨b, htracker, -, -⟩
    · rw [htracker] at hw
      exact (hwaiter hw).2
    · rw [htracker] at hw ⊢
      rcases Tracker.returned_step hw with hw | hzero
      · rw [← htracker]
        exact (hwaiter hw).2
      · exact hzero
  · rcases hasDrained_step hd with hd | hw
    · exact hquiet (h.drained hd).1 (h.drained hd).2
    · exact hwaiter hw

/-! ## After a shutdown -/

instance (r : Run) : Decidable r.HasDrained := inferInstanceAs (Decidable (_ ∨ _))

/-- Nobody gives the run up while it waits with a listener that it was given. Whoever does that
closes the listener himself, after the run has said that it stopped. -/
def KeepsListener (r : Run) : List Step → Prop
  | [] => True
  | a :: l => (a = .drop → r.stage = .waiting → r.listener = false) ∧ (r.step a).KeepsListener l

/-- To take two rows of steps is to take the first and then the second. -/
theorem steps_append (r : Run) (l l' : List Step) : r.steps (l ++ l') = (r.steps l).steps l' :=
  List.foldl_append

/-- The shutdowns of a run tell the truth after any steps. -/
theorem IsDraining.steps (h : r.IsDraining) (l : List Step) : (r.steps l).IsDraining := by
  induction l generalizing r with
  | nil => exact h
  | cons a l ih => exact ih (h.step a)

/-- A run that keeps its listener to itself is not forsaken. -/
theorem IsOrderly.not_isForsaken_steps (h : r.IsOrderly) {l : List Step}
    (hkeeps : r.KeepsListener l) (hstage : ¬ r.stage.IsForsaken) : ¬ (r.steps l).stage.IsForsaken := by
  induction l generalizing r with
  | nil => exact hstage
  | cons a l ih =>
    have hnext := h.not_isForsaken (r.step_move a) hstage hkeeps.1
    exact ih (h.step a) hkeeps.2 hnext

/-- A run that is to bind the address has no listener that it could be given up with. -/
theorem keepsListener_of_waiting (h : r.stage = .waiting → r.listener = false) (l : List Step) :
    r.KeepsListener l := by
  induction l generalizing r with
  | nil => trivial
  | cons a l ih =>
    refine ⟨fun _ => h, ih fun hwaiting => ?_⟩
    have hmove := r.step_move a
    generalize r.step a = r' at hmove hwaiting ⊢
    cases hmove with
    | same hsame =>
      rw [hsame.listener]
      exact h (hsame.stage ▸ hwaiting)
    | _ => simp [enterLoop, leave] at hwaiting

/-- After a run has stopped, it stays stopped, its count does not grow and it takes no connection.
-/
theorem IsOrderly.steps_of_stopped (h : r.IsOrderly) (hstopped : r.stopped.isSet = true)
    (l : List Step) :
    (r.steps l).stopped.isSet = true ∧ (r.steps l).tracker.active ≤ r.tracker.active ∧
      (r.steps l).connections.length = r.connections.length := by
  induction l generalizing r with
  | nil => exact ⟨hstopped, Nat.le_refl _, rfl⟩
  | cons a l ih =>
    obtain ⟨hstopped', hle, hlength⟩ := h.step_of_stopped hstopped a
    obtain ⟨hlast, hle', hlength'⟩ := ih (h.step a) hstopped'
    exact ⟨hlast, Nat.le_trans hle' hle, hlength'.trans hlength⟩

/-- What is true of a run that took some steps, until a shutdown of it came out well, and then took
some more. -/
structure IsOver (fresh : Run) (before after : List Step) : Prop where
  /-- It holds a listener exactly while it is to let go of one that it was given up with as it
  waited: -/
  listener_iff : (fresh.steps (before ++ after)).listener = true ↔
    (fresh.steps (before ++ after)).stage.IsForsaken
  /-- the accept loop has let its listener go, -/
  loop_released : (fresh.steps (before ++ after)).listened = true →
    (fresh.steps (before ++ after)).listener = false
  /-- a run that was to bind the address holds no listener, -/
  bound_released : fresh.listener = false → (fresh.steps (before ++ after)).listener = false
  /-- and a listener that the run was given is gone as well if it never came to the accept loop. -/
  released : fresh.KeepsListener (before ++ after) →
    (fresh.steps (before ++ after)).listener = false
  /-- No connection counts, -/
  connections : ∀ c ∈ (fresh.steps (before ++ after)).connections, c.counts = false
  /-- so the count is zero, -/
  active : (fresh.steps (before ++ after)).tracker.active = 0
  /-- and no connection was accepted since. -/
  accepted : (fresh.steps (before ++ after)).connections.length =
    (fresh.steps before).connections.length

/-- Of a new run there is nothing false to tell. -/
theorem isDraining_newRun (s : Server) (e : Entry) (acceptor : Option TlsAcceptor) :
    (s.newRun e acceptor).IsDraining where
  orderly := ⟨rfl, rfl⟩
  counted := ⟨rfl, rfl⟩
  waiting h := absurd rfl h
  returned h := absurd h List.not_mem_nil
  drained h := by simp [HasDrained, Server.newRun] at h

/-- A graceful shutdown that comes out well has drained its run, in whatever order the accept loop,
the connections and everybody who stops the run take their turns, and the run stays so. -/
theorem isOver_of_hasDrained (s : Server) (e : Entry) (acceptor : Option TlsAcceptor)
    (before after : List Step) (h : ((s.newRun e acceptor).steps before).HasDrained) :
    IsOver (s.newRun e acceptor) before after := by
  have hfresh := isDraining_newRun s e acceptor
  have hbefore := hfresh.steps before
  have hlater := hfresh.steps (before ++ after)
  obtain ⟨hstopped, hzero⟩ := hbefore.drained h
  obtain ⟨hstopped', hle, haccepted⟩ := hbefore.orderly.steps_of_stopped hstopped after
  rw [← steps_append] at hstopped' hle haccepted
  have hactive : ((s.newRun e acceptor).steps (before ++ after)).tracker.active = 0 := by omega
  have hreleased (hkeeps : (s.newRun e acceptor).KeepsListener (before ++ after)) :
      ((s.newRun e acceptor).steps (before ++ after)).listener = false :=
    hlater.orderly.listener_of_stopped hstopped'
      (hfresh.orderly.not_isForsaken_steps hkeeps id)
  refine ⟨hlater.orderly.listener_iff_of_stopped hstopped', fun hlistened => ?_, fun hfree => ?_,
    hreleased, fun c hc => ?_, hactive, haccepted⟩
  · refine hlater.orderly.listener_of_stopped hstopped' fun hforsaken => ?_
    rw [hlater.orderly.of_isForsaken hforsaken |>.2] at hlistened
    simp at hlistened
  · exact hreleased (keepsListener_of_waiting (fun _ => hfree) _)
  · rw [hlater.counted.active_eq, List.countP_eq_zero] at hactive
    exact Bool.eq_false_iff.mpr (hactive c hc)

/-- A peer of the examples. -/
def examplePeer : SocketAddress := ⟨.v4 127 0 0 1, 0, 50000⟩

/-- A connection that is accepted after the run was told to stop is waited for like any other. -/
theorem isOver_of_late_connection :
    let fresh := ({} : Server).newRun .listen none
    let before : List Step := [.proceed, .bind none, .beginDrain, .drain 0 .tell,
      .accept examplePeer, .notice true, .farewell, .farewell, .farewell, .drain 0 .observe,
      .drain 0 .register, .drain 0 .look, .connection 0 .begin, .connection 0 (.leave none),
      .connection 0 .report, .connection 0 .uncount, .connection 0 .announce, .drain 0 .rise,
      .drain 0 .register, .drain 0 .look, .drain 0 .conclude]
    (fresh.steps before).HasDrained ∧
      IsOver fresh before [.accept examplePeer, .record, .farewell] :=
  ⟨by decide, isOver_of_hasDrained {} .listen none _ _ (by decide)⟩

/-- A run that is given up while it waits with a listener has stopped before that is closed: a
shutdown of it comes out well, and the listener is still held. -/
theorem holds_listener_of_drop :
    let drained := (({} : Server).newRun .serve none).steps [.beginDrain, .drain 0 .tell, .drop,
      .farewell, .drain 0 .observe, .drain 0 .register, .drain 0 .look, .drain 0 .conclude]
    drained.HasDrained ∧ drained.listener = true ∧ (drained.step .farewell).listener = false := by
  decide

end Run

end WebHost
