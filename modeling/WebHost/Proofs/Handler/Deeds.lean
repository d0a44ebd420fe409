import Mathlib.Data.List.Basic
import WebHost.Handler.Chain

/-!
# What a job does, one deed after the other

A job that is watched does one deed after the other: it looks at the ledger, changes it, waits, takes on
a duty or performs one. Whoever watches it to its end also learns its value. Deeds know nothing of the
ledger they meet; they lead from one scene to the next, and while a job waits the others may have
changed the ledger. What two jobs in a row do is what the first does and then what the second does, and
the deeds of a flight that comes to its end lead from its beginning to its end.
-/

set_option autoImplicit false

namespace WebHost

/-- One thing that a job does. -/
inductive Deed where
  /-- It looked at the ledger, which was this one. -/
  | saw (l : Ledger)
  | changed (change : Change)
  | waited
  | tookOn (duty : Change)
  /-- It performed its innermost duty. -/
  | performed

namespace Job

variable {α β : Type}

/-- A job does one deed and becomes another job. -/
inductive Step : Job α → Deed → Job α → Prop
  | ask (next : Ledger → Job α) (l : Ledger) : Step (ask next) (.saw l) (next l)
  | tell (change : Change) (next : Job α) : Step (tell change next) (.changed change) next
  | pause (next : Job α) : Step (pause next) .waited next
  | takeOn (duty : Change) (next : Job α) : Step (takeOn duty next) (.tookOn duty) next
  | perform (next : Job α) : Step (perform next) .performed next

/-- What a job may be seen to do, and the value that it ends with. Without a value it was watched for a
while only: it may go on, may have been given up, or broke down. -/
inductive Does : Job α → List Deed → Option α → Prop
  | done {a : α} : Does (done a) [] (some a)
  | soFar {job : Job α} : Does job [] none
  | step {job job' : Job α} {d : Deed} {ds : List Deed} {o : Option α} : job.Step d job' →
    Does job' ds o → Does job (d :: ds) o

variable {job : Job α} {f : α → Job β}

/-- A job that is done does nothing more. -/
theorem does_done_iff {a : α} {ds : List Deed} {o : Option α} :
    (done a).Does ds o ↔ ds = [] ∧ (o = some a ∨ o = none) := by
  constructor
  · rintro (_ | _ | ⟨⟨⟩, _⟩)
    · exact ⟨rfl, .inl rfl⟩
    · exact ⟨rfl, .inr rfl⟩
  · rintro ⟨rfl, rfl | rfl⟩
    · exact .done
    · exact .soFar

/-- What is done does nothing more and ends with its value. -/
theorem does_done_some_iff {a b : α} {ds : List Deed} :
    (done a).Does ds (some b) ↔ ds = [] ∧ b = a := by
  simp [does_done_iff]

/-- Without a deed a job has not ended, or it was done at once. -/
theorem does_nil_iff {o : Option α} : job.Does [] o ↔ o = none ∨ ∃ a, job = .done a ∧ o = some a := by
  constructor
  · rintro (_ | _)
    · exact .inr ⟨_, rfl, rfl⟩
    · exact .inl rfl
  · rintro (rfl | ⟨a, rfl, rfl⟩)
    · exact .soFar
    · exact .done

/-- A row of deeds is a first step and what is done after it. -/
theorem does_cons_iff {d : Deed} {ds : List Deed} {o : Option α} :
    job.Does (d :: ds) o ↔ ∃ job', job.Step d job' ∧ job'.Does ds o := by
  constructor
  · rintro (_ | _ | ⟨hstep, hrest⟩)
    exact ⟨_, hstep, hrest⟩
  · rintro ⟨job', hstep, hrest⟩
    exact .step hstep hrest

/-- Whoever watched a job to its end has watched it for a while. -/
theorem Does.forget {ds : List Deed} {o : Option α} (h : job.Does ds o) : job.Does ds none := by
  induction h with
  | done | soFar => exact .soFar
  | step hstep _ ih => exact .step hstep ih

/-- A step of a job is a step of it and the job that follows. -/
theorem Step.bind {job' : Job α} {d : Deed} (h : job.Step d job') (f : α → Job β) :
    (job.bind f).Step d (job'.bind f) := by
  cases h with
  | ask next l => exact .ask (fun l => (next l).bind f) l
  | tell change => exact .tell change (job'.bind f)
  | pause => exact .pause (job'.bind f)
  | takeOn duty => exact .takeOn duty (job'.bind f)
  | perform => exact .perform (job'.bind f)

/-- Two jobs in a row are done only if the first is. -/
theorem exists_eq_done {b : β} (h : job.bind f = .done b) : ∃ a, job = .done a := by
  cases job with
  | done a => exact ⟨a, rfl⟩
  | _ => cases h

/-- A job in front of another does its own steps, as long as it is not done. -/
theorem exists_step_of_bind {rest : Job β} {d : Deed} (h : (job.bind f).Step d rest) :
    (∃ a, job = .done a) ∨ ∃ job', job.Step d job' ∧ rest = job'.bind f := by
  cases job with
  | done a => exact .inl ⟨a, rfl⟩
  | ask next => cases h with | ask _ l => exact .inr ⟨next l, .ask next l, rfl⟩
  | tell change next => cases h; exact .inr ⟨next, .tell change next, rfl⟩
  | pause next => cases h; exact .inr ⟨next, .pause next, rfl⟩
  | takeOn duty next => cases h; exact .inr ⟨next, .takeOn duty next, rfl⟩
  | perform next => cases h; exact .inr ⟨next, .perform next, rfl⟩
  | breakDown message => cases h

/-- The deeds of two jobs in a row are those of the one and then those of the other. -/
theorem Does.bind {a : α} {front back : List Deed} {o : Option β} (hjob : job.Does front (some a))
    (hrest : (f a).Does back o) : (job.bind f).Does (front ++ back) o := by
  induction front generalizing job with
  | nil =>
    cases hjob
    exact hrest
  | cons d front ih =>
    obtain ⟨job', hstep, hjob'⟩ := does_cons_iff.mp hjob
    exact .step (hstep.bind f) (ih hjob')

/-- Before a job has ended, the job that follows has done nothing. -/
theorem Does.bind_none {ds : List Deed} (hjob : job.Does ds none) : (job.bind f).Does ds none := by
  induction ds generalizing job with
  | nil => exact .soFar
  | cons d ds ih =>
    obtain ⟨job', hstep, hjob'⟩ := does_cons_iff.mp hjob
    exact .step (hstep.bind f) (ih hjob')

/-- A job in front of another does what it does, and then the other does what it does; unless it was not
watched to its end. -/
theorem does_bind_iff {ds : List Deed} {o : Option β} :
    (job.bind f).Does ds o ↔ (o = none ∧ job.Does ds none) ∨
      ∃ a front back, job.Does front (some a) ∧ (f a).Does back o ∧ ds = front ++ back := by
  constructor
  · intro h
    induction ds generalizing job with
    | nil =>
      rcases does_nil_iff.mp h with rfl | ⟨b, hdone, rfl⟩
      · exact .inl ⟨rfl, .soFar⟩
      · obtain ⟨a, rfl⟩ := exists_eq_done hdone
        exact .inr ⟨a, [], [], .done, h, rfl⟩
    | cons d ds ih =>
      obtain ⟨rest, hstep, hrest⟩ := does_cons_iff.mp h
      rcases exists_step_of_bind hstep with ⟨a, rfl⟩ | ⟨job', hjob, rfl⟩
      · exact .inr ⟨a, [], d :: ds, .done, .step hstep hrest, rfl⟩
      · rcases ih hrest with ⟨ho, hjob'⟩ | ⟨a, front, back, hfront, hback, rfl⟩
        · exact .inl ⟨ho, .step hjob hjob'⟩
        · exact .inr ⟨a, d :: front, back, .step hjob hfront, hback, rfl⟩
  · rintro (⟨rfl, hjob⟩ | ⟨a, front, back, hfront, hback, rfl⟩)
    · exact hjob.bind_none
    · exact hfront.bind hback

/-- Seen to its end, a job in front of another has ended before the other began. -/
theorem does_bind_some_iff {ds : List Deed} {b : β} :
    (job.bind f).Does ds (some b) ↔
      ∃ a front back, job.Does front (some a) ∧ (f a).Does back (some b) ∧ ds = front ++ back := by
  simp [does_bind_iff]

end Job

/-! ## Where deeds lead -/

/-- The ledger, and the duties of a job that is under way, the innermost one first. -/
structure Scene where
  ledger : Ledger
  duties : List Change := []

/-- A deed leads from one scene to another. While a job waits, the others may change the ledger. -/
inductive Deed.Leads (others : Ledger → Ledger → Prop) : Deed → Scene → Scene → Prop
  | saw (s : Scene) : Leads others (.saw s.ledger) s s
  | changed (change : Change) (s : Scene) :
    Leads others (.changed change) s { s with ledger := change s.ledger }
  | waited (s : Scene) {l : Ledger} : others s.ledger l → Leads others .waited s { s with ledger := l }
  | tookOn (duty : Change) (s : Scene) :
    Leads others (.tookOn duty) s { s with duties := duty :: s.duties }
  | performed (duty : Change) (duties : List Change) (l : Ledger) :
    Leads others .performed ⟨l, duty :: duties⟩ ⟨duty l, duties⟩
  | idle (l : Ledger) : Leads others .performed ⟨l, []⟩ ⟨l, []⟩

/-- Deeds lead from one scene to another, one after the other. -/
inductive Lead (others : Ledger → Ledger → Prop) : List Deed → Scene → Scene → Prop
  | nil (s : Scene) : Lead others [] s s
  | cons {d : Deed} {ds : List Deed} {s s' s'' : Scene} : d.Leads others s s' →
    Lead others ds s' s'' → Lead others (d :: ds) s s''

section Lead

variable {others : Ledger → Ledger → Prop}

/-- A row of deeds leads from one scene to another through the scene between its halves. -/
theorem lead_append_iff {front back : List Deed} {s s'' : Scene} :
    Lead others (front ++ back) s s'' ↔
      ∃ s', Lead others front s s' ∧ Lead others back s' s'' := by
  constructor
  · intro h
    induction front generalizing s with
    | nil => exact ⟨s, .nil s, h⟩
    | cons d front ih =>
      cases h with
      | cons hd hds =>
        obtain ⟨s', hfront, hback⟩ := ih hds
        exact ⟨s', .cons hd hfront, hback⟩
  · rintro ⟨s', hfront, hback⟩
    induction hfront with
    | nil => exact hback
    | cons hd _ ih => exact .cons hd (ih hback)

end Lead

/-! ## Flights that come to their end -/

namespace Flight

variable {α : Type}

/-- A flight comes to its end: it is advanced, and the others may change the ledger whenever it waits. -/
inductive Ends (others : Ledger → Ledger → Prop) : Flight α → Ledger → α → Ledger → Prop
  | ended {f : Flight α} {l l' : Ledger} {a : α} : f.advance l = (.ended a, l') → Ends others f l a l'
  | resumed {f f' : Flight α} {l l₁ l₂ l' : Ledger} {a : α} : f.advance l = (.paused f', l₁) →
    others l₁ l₂ → Ends others f' l₂ a l' → Ends others f l a l'

end Flight

namespace Job

variable {α : Type} {others : Ledger → Ledger → Prop}

/-- How an advance comes out, and the deeds that lead there. -/
inductive Advances (others : Ledger → Ledger → Prop) (job : Job α) (s : Scene) :
    Progress α × Ledger → Prop
  | ended {a : α} {s' : Scene} {ds : List Deed} : job.Does ds (some a) → Lead others ds s s' →
    Advances others job s (.ended a, s'.ledger)
  /-- Whatever it does later, it has waited before. -/
  | paused {next : Job α} {s' : Scene} {ds : List Deed} :
    (∀ later o, next.Does later o → job.Does (ds ++ .waited :: later) o) → Lead others ds s s' →
    Advances others job s (.paused ⟨next, s'.duties⟩, s'.ledger)
  | broken {message : String} {l : Ledger} : Advances others job s (.broken message, l)

/-- What an advance comes to after a step, it comes to with that step before. -/
theorem Advances.after {job job' : Job α} {d : Deed} {s s' : Scene} {outcome : Progress α × Ledger}
    (h : Advances others job' s' outcome) (hstep : job.Step d job') (hlead : d.Leads others s s') :
    Advances others job s outcome := by
  cases h with
  | ended hdoes hds => exact .ended (.step hstep hdoes) (.cons hlead hds)
  | paused hdoes hds =>
    exact .paused (fun later o hlater => .step hstep (hdoes later o hlater)) (.cons hlead hds)
  | broken => exact .broken

/-- To run a job is to advance it. -/
theorem advances_run (others : Ledger → Ledger → Prop) (job : Job α) (s : Scene) :
    Advances others job s (job.run false s.duties s.ledger) := by
  induction job generalizing s with
  | done a => exact .ended .done (.nil s)
  | ask next ih => exact (ih s.ledger s).after (.ask next s.ledger) (.saw s)
  | tell change next ih =>
    exact (ih ⟨change s.ledger, s.duties⟩).after (.tell change next) (.changed change s)
  | pause next ih =>
    have hwaited (later : List Deed) (o : Option α) (h : next.Does later o) :
        (pause next).Does ([] ++ .waited :: later) o := .step (.pause next) h
    exact .paused hwaited (.nil s)
  | takeOn duty next ih =>
    exact (ih ⟨s.ledger, duty :: s.duties⟩).after (.takeOn duty next) (.tookOn duty s)
  | perform next ih =>
    obtain ⟨l, duties⟩ := s
    cases duties with
    | nil => exact (ih ⟨l, []⟩).after (.perform next) (.idle l)
    | cons duty duties => exact (ih ⟨duty l, duties⟩).after (.perform next) (.performed duty duties l)
  | breakDown message => exact .broken

end Job

/-- A flight that came to its end did deeds that lead from its beginning to its end. -/
theorem Flight.Ends.exists_deeds {α : Type} {others : Ledger → Ledger → Prop} {f : Flight α}
    {l l' : Ledger} {a : α} (h : f.Ends others l a l') :
    ∃ ds duties, f.job.Does ds (some a) ∧ Lead others ds ⟨l, f.duties⟩ ⟨l', duties⟩ := by
  induction h with
  | @ended f l l' a hadvance =>
    have hcame := Job.advances_run others f.job ⟨l, f.duties⟩
    rw [show f.job.run false f.duties l = f.advance l from rfl, hadvance] at hcame
    cases hcame with
    | ended hdoes hlead => exact ⟨_, _, hdoes, hlead⟩
  | @resumed f f' l l₁ l₂ l' a hadvance hothers _ ih =>
    have hcame := Job.advances_run others f.job ⟨l, f.duties⟩
    rw [show f.job.run false f.duties l = f.advance l from rfl, hadvance] at hcame
    obtain ⟨later, duties, hlater, hrest⟩ := ih
    cases hcame with
    | paused hdoes hlead =>
      refine ⟨_, duties, hdoes later _ hlater, lead_append_iff.mpr ⟨_, hlead, ?_⟩⟩
      exact .cons (.waited _ hothers) hrest

end WebHost
