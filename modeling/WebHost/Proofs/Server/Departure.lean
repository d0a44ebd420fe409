import WebHost.Server.Run

/-!
# How a run leaves

Where a run stands says whether it holds a listener, whether it has said that it stopped, and
whether its accept loop was ever reached. A run lets its listener go before it says that it has
stopped, with one exception: a run that is given up while it still waits with a listener it was
given says so first. A run that has stopped neither binds nor accepts any more, whatever happens.
-/

set_option autoImplicit false

namespace WebHost

namespace RunStage

/-- What a stage says about the listener, about the announcement of the end, and about whether the
accept loop was reached. -/
def Fits : RunStage → (listener stopped listened : Bool) → Prop
  | .waiting, _, stopped, listened => stopped = false ∧ listened = false
  | .binding, listener, stopped, _ => listener = false ∧ stopped = false
  | .accepting, _, stopped, listened => stopped = false ∧ listened = true
  | .leaving [.release, .announce] _, _, stopped, _ => stopped = false
  | .leaving [.announce] _, listener, stopped, _ => listener = false ∧ stopped = false
  | .leaving [] _, listener, _, _ => listener = false
  | .ended _, listener, _, _ => listener = false
  | .dropped [.announce, .release], listener, stopped, listened =>
    listener = true ∧ stopped = false ∧ listened = false
  | .dropped [.release], listener, _, listened => listener = true ∧ listened = false
  | .dropped [.release, .announce], _, stopped, _ => stopped = false
  | .dropped [.announce], listener, _, _ => listener = false
  | .dropped [], listener, _, _ => listener = false
  | .gone, listener, _, _ => listener = false
  | _, _, _, _ => False

/-- A run in this stage was given up while it waited with a listener it was given. -/
def IsForsaken : RunStage → Prop
  | .dropped [.announce, .release] | .dropped [.release] => True
  | _ => False

end RunStage

namespace Run

variable {r r' : Run}

/-- A run of which the stage tells the truth. -/
def IsOrderly (r : Run) : Prop := r.stage.Fits r.listener r.stopped.isSet r.listened

/-- In an orderly run the listener and the signals fit the stage. -/
theorem IsOrderly.fits (h : r.IsOrderly) {stage : RunStage} (hs : r.stage = stage) :
    stage.Fits r.listener r.stopped.isSet r.listened := by
  rw [← hs]
  exact h

/-! ## The moves of a run -/

/-- The part of a run that its way through the stages is about. -/
structure SameCourse (r r' : Run) : Prop where
  stage : r'.stage = r.stage
  listener : r'.listener = r.listener
  stopped : r'.stopped = r.stopped
  listened : r'.listened = r.listened
  previous : r'.previous = r.previous

/-- Where nothing changes, a run is on the same course. -/
theorem SameCourse.refl (r : Run) : SameCourse r r := ⟨rfl, rfl, rfl, rfl, rfl⟩

/-- What a step does to the way of a run through the stages. -/
inductive Move (r : Run) : Step → Run → Prop where
  /-- Nothing. -/
  | same {a : Step} {r' : Run} : SameCourse r r' → Move r a r'
  | turnToBind : r.stage = .waiting → r.listener = false →
    Move r .proceed { r with stage := .binding }
  | resume : r.stage = .waiting → r.listener = true → Move r .proceed r.enterLoop
  | bind : r.stage = .binding → Move r (.bind none) r.enterLoop
  | failToBind {reason : String} : r.stage = .binding →
    Move r (.bind (some reason)) { r with stage := .ended (.bind r.bindAddress reason) }
  | leave {a : Step} {error : ServerError} : r.stage = .accepting → Move r a (r.leave error)
  | bid {duty : Farewell} {duties : List Farewell} {error : ServerError} :
    r.stage = .leaving (duty :: duties) error →
    Move r .farewell { r.bid duty with stage := .leaving duties error }
  | finish {error : ServerError} : r.stage = .leaving [] error →
    Move r .farewell { r with stage := .ended error }
  | record {error : ServerError} : r.stage = .ended error →
    Move r .record { r with stage := .dropped [.announce], result := some error }
  | dropWaiting : r.stage = .waiting →
    Move r .drop
      { r with stage := .dropped (if r.listener then [.announce, .release] else [.announce]) }
  | dropBinding : r.stage = .binding → Move r .drop { r with stage := .dropped [.announce] }
  | dropAccepting : r.stage = .accepting →
    Move r .drop { r with stage := .dropped [.release, .announce] }
  | bidDropped {duty : Farewell} {duties : List Farewell} : r.stage = .dropped (duty :: duties) →
    Move r .farewell { r.bid duty with stage := .dropped duties }
  | vanish : r.stage = .dropped [] → Move r .farewell { r with stage := .gone }

/-- A step of a connection leaves a run on its course. -/
theorem sameCourse_stepConnection (r : Run) (number : Nat) (step : Connection.Step) :
    SameCourse r (r.stepConnection number step) := by
  unfold stepConnection
  split <;> exact ⟨rfl, rfl, rfl, rfl, rfl⟩

/-- A step of a shutdown leaves a run on its course. -/
theorem sameCourse_stepDrain (r : Run) (call : Nat) (step : DrainStep) :
    SameCourse r (r.stepDrain call step) := by
  unfold stepDrain
  split
  -- to observe the end of a run and to conclude may have to wait
  case h_2 | h_6 => split <;> exact ⟨rfl, rfl, rfl, rfl, rfl⟩
  all_goals exact ⟨rfl, rfl, rfl, rfl, rfl⟩

/-- To give up a run is one of its moves. -/
theorem drop_move (r : Run) : Move r .drop r.drop := by
  unfold drop
  split
  · exact .dropWaiting ‹_›
  · exact .dropBinding ‹_›
  · exact .dropAccepting ‹_›
  · exact .same (.refl r)

/-- What any step does to the way of a run. -/
theorem step_move (r : Run) (a : Step) : Move r a (r.step a) := by
  have hsame : Move r a r := .same (.refl r)
  cases a with
  | connection number connectionStep => exact .same (sameCourse_stepConnection r _ _)
  | drain call drainStep => exact .same (sameCourse_stepDrain r _ _)
  | beginDrain | close => exact .same ⟨rfl, rfl, rfl, rfl, rfl⟩
  | drop => exact r.drop_move
  | proceed =>
    simp only [step]
    split
    · split
      · exact .resume ‹_› ‹_›
      · exact .turnToBind ‹_› (Bool.eq_false_iff.mpr ‹_›)
    · exact hsame
  | bind failure =>
    simp only [step]
    split
    · exact .bind ‹_›
    · exact .failToBind ‹_›
    · exact hsame
  | accept =>
    simp only [step]
    split
    · exact .same ⟨rfl, rfl, rfl, rfl, rfl⟩
    · exact hsame
  | failAccept code reason =>
    simp only [step]
    split
    · split
      · exact .same ⟨rfl, rfl, rfl, rfl, rfl⟩
      · exact .leave ‹_›
    · exact hsame
  | notice waiting =>
    simp only [step]
    split
    · split
      · exact .leave ‹_›
      · exact hsame
    · exact hsame
  | farewell =>
    simp only [step]
    split
    · exact .finish ‹_›
    · exact .bid ‹_›
    · exact .vanish ‹_›
    · exact .bidDropped ‹_›
    · exact hsame
  | record =>
    simp only [step]
    split
    · exact .record ‹_›
    · exact hsame

section Move

variable {a : Step}

/-- The stage keeps telling the truth. -/
theorem IsOrderly.move (h : r.IsOrderly) (hmove : Move r a r') : r'.IsOrderly := by
  cases hmove with
  | same hsame =>
    unfold IsOrderly
    rw [hsame.stage, hsame.listener, hsame.stopped, hsame.listened]
    exact h
  | turnToBind hs hlistener =>
    have hfits : r.stopped.isSet = false ∧ r.listened = false := h.fits hs
    exact ⟨hlistener, hfits.1⟩
  | resume hs =>
    have hfits : r.stopped.isSet = false ∧ r.listened = false := h.fits hs
    exact ⟨hfits.1, rfl⟩
  | bind hs =>
    have hfits : r.listener = false ∧ r.stopped.isSet = false := h.fits hs
    exact ⟨hfits.2, rfl⟩
  | failToBind hs =>
    have hfits : r.listener = false ∧ r.stopped.isSet = false := h.fits hs
    exact hfits.1
  | leave hs =>
    have hfits : r.stopped.isSet = false ∧ r.listened = true := h.fits hs
    exact hfits.1
  | finish hs | record hs | vanish hs =>
    have hfits : r.listener = false := h.fits hs
    exact hfits
  | dropWaiting hs =>
    have hfits : r.stopped.isSet = false ∧ r.listened = false := h.fits hs
    unfold IsOrderly
    -- a listener that the run was given is let go last
    cases hlistener : r.listener with
    | false => exact rfl
    | true => exact ⟨rfl, hfits⟩
  | dropBinding hs =>
    have hfits : r.listener = false ∧ r.stopped.isSet = false := h.fits hs
    exact hfits.1
  | dropAccepting hs =>
    have hfits : r.stopped.isSet = false ∧ r.listened = true := h.fits hs
    exact hfits.1
  | bid hs | bidDropped hs =>
    have hfits := h.fits hs
    unfold RunStage.Fits at hfits
    split at hfits
    all_goals simp_all [IsOrderly, RunStage.Fits, Run.bid]

/-- The run before a run stays the same. -/
theorem Move.previous_eq (hmove : Move r a r') : r'.previous = r.previous := by
  cases hmove with
  | same hsame => exact hsame.previous
  | @bid duty | @bidDropped duty => cases duty <;> rfl
  | _ => rfl

/-- Once it has said that it stopped, a run does not take it back. -/
theorem Move.stopped (hmove : Move r a r') (h : r.stopped.isSet = true) :
    r'.stopped.isSet = true := by
  cases hmove with
  | same hsame => rwa [hsame.stopped]
  | @bid duty | @bidDropped duty =>
    cases duty with
    | release => exact h
    | announce => rfl
  | _ => exact h

/-- A run that waits goes on only when it is told that it may, or when it is given up. -/
theorem Move.waiting (hmove : Move r a r') (h : r.stage = .waiting) (hproceed : a ≠ .proceed)
    (hdrop : a ≠ .drop) : r'.stage = .waiting := by
  cases hmove with
  | same hsame => rwa [hsame.stage]
  | turnToBind | resume => exact absurd rfl hproceed
  | dropWaiting => exact absurd rfl hdrop
  | _ hs => simp [h] at hs

/-- A run comes to hold a listener when it binds the address, and not otherwise. -/
theorem Move.binding (hmove : Move r a r') (h : r.listener = false) (h' : r'.listener = true) :
    r.stage = .binding := by
  cases hmove with
  | same hsame => simp [hsame.listener, h] at h'
  | resume _ hlistener => simp [h] at hlistener
  | bind hs => exact hs
  | @bid duty | @bidDropped duty => cases duty <;> simp [Run.bid, h] at h'
  | _ => simp [Run.leave, h] at h'

/-- Only a run that waits with a listener can be given up too early. -/
theorem IsOrderly.not_isForsaken (h : r.IsOrderly) (hmove : Move r a r')
    (hstage : ¬ r.stage.IsForsaken) (hdrop : a = .drop → r.stage = .waiting → r.listener = false) :
    ¬ r'.stage.IsForsaken := by
  cases hmove with
  | same hsame => rwa [hsame.stage]
  | dropWaiting hs =>
    rw [hdrop rfl hs]
    exact id
  | bidDropped hs =>
    have hfits := h.fits hs
    unfold RunStage.Fits at hfits
    split at hfits
    all_goals simp_all [RunStage.IsForsaken]
  | _ => exact id

end Move

/-- A run stays orderly step by step. -/
theorem IsOrderly.step (h : r.IsOrderly) (a : Step) : (r.step a).IsOrderly := h.move (r.step_move a)

/-! ## What a run that has stopped is like -/

/-- A run that has stopped neither waits nor accepts. -/
theorem IsOrderly.stage_of_stopped (h : r.IsOrderly) (hstopped : r.stopped.isSet = true) :
    r.stage ≠ .waiting ∧ r.stage ≠ .accepting := by
  constructor
  · intro hs
    have hfits : r.stopped.isSet = false ∧ r.listened = false := h.fits hs
    simp [hstopped] at hfits
  · intro hs
    have hfits : r.stopped.isSet = false ∧ r.listened = true := h.fits hs
    simp [hstopped] at hfits

/-- A run that was given up too early still holds its listener, and never reached its accept
loop. -/
theorem IsOrderly.of_isForsaken (h : r.IsOrderly) (hstage : r.stage.IsForsaken) :
    r.listener = true ∧ r.listened = false := by
  unfold RunStage.IsForsaken at hstage
  split at hstage
  · rename_i hs
    have hfits : r.listener = true ∧ r.stopped.isSet = false ∧ r.listened = false := h.fits hs
    exact ⟨hfits.1, hfits.2.2⟩
  · rename_i hs
    exact h.fits hs
  · exact hstage.elim

/-- A run that has stopped holds no listener, unless it was given up too early. -/
theorem IsOrderly.listener_of_stopped (h : r.IsOrderly) (hstopped : r.stopped.isSet = true)
    (hstage : ¬ r.stage.IsForsaken) : r.listener = false := by
  unfold IsOrderly RunStage.Fits at h
  split at h
  all_goals simp_all [RunStage.IsForsaken]

/-- A run that has stopped holds a listener exactly while it is to let go of one that it was given up
with as it waited. -/
theorem IsOrderly.listener_iff_of_stopped (h : r.IsOrderly) (hstopped : r.stopped.isSet = true) :
    r.listener = true ↔ r.stage.IsForsaken := by
  refine ⟨fun hlistener => Classical.byContradiction fun hstage => ?_,
    fun hstage => (h.of_isForsaken hstage).1⟩
  simp [h.listener_of_stopped hstopped hstage] at hlistener

end Run

end WebHost
