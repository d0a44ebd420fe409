import WebHost.Handler.Ledger

/-!
# Jobs

Handling a request is a job: it reads and changes the ledger, may pause, and ends with a response.
What has to be undone however the job ends is put on a stack of duties, innermost last. A job that
is dropped while it pauses performs its duties from the innermost outwards and does nothing else.
-/

set_option autoImplicit false

namespace WebHost

/-- A change of the ledger. -/
abbrev Change := Ledger → Ledger

/-- A computation over the ledger that may pause and may be dropped. -/
inductive Job (α : Type) where
  | done (value : α)
  /-- Reads the ledger. -/
  | ask (next : Ledger → Job α)
  /-- Changes the ledger. -/
  | tell (change : Change) (next : Job α)
  /-- Waits until the job is resumed. -/
  | pause (next : Job α)
  /-- Takes on a duty. -/
  | takeOn (duty : Change) (next : Job α)
  /-- Performs the innermost duty. -/
  | perform (next : Job α)
  /-- Breaks down with a message. -/
  | breakDown (message : String)

namespace Job

variable {α β : Type}

/-- A job followed by another that uses its value. -/
def bind : Job α → (α → Job β) → Job β
  | done a, f => f a
  | ask next, f => ask fun l => (next l).bind f
  | tell change next, f => tell change (next.bind f)
  | pause next, f => pause (next.bind f)
  | takeOn duty next, f => takeOn duty (next.bind f)
  | perform next, f => perform (next.bind f)
  | breakDown message, _ => breakDown message

instance : Monad Job where
  pure := done
  bind := bind

/-- Reads something off the ledger. -/
def read (f : Ledger → α) : Job α := ask fun l => done (f l)

/-- Changes the ledger. -/
def change (f : Change) : Job Unit := tell f (done ())

/-- Changes the ledger and keeps an answer. -/
def exchange (f : Ledger → α × Ledger) : Job α := ask fun l => tell (fun _ => (f l).2) (done (f l).1)

/-- Does a job under a duty, which is performed when the job ends or is dropped. -/
def under (duty : Change) (job : Job α) : Job α :=
  takeOn duty (job.bind fun a => perform (done a))

/-- What is done at once is followed by the next job right away. -/
@[simp] theorem bind_done (a : α) (f : α → Job β) : (done a).bind f = f a := rfl

/-- To follow a job by its own value changes nothing. -/
theorem bind_pure (job : Job α) : job.bind done = job := by
  induction job with
  | done => rfl
  | ask next ih => simp [bind, ih]
  | tell _ _ ih => simp [bind, ih]
  | pause _ ih => simp [bind, ih]
  | takeOn _ _ ih => simp [bind, ih]
  | perform _ ih => simp [bind, ih]
  | breakDown => rfl

/-- Jobs in a row may be grouped in either way. -/
theorem bind_assoc {γ : Type} (job : Job α) (f : α → Job β) (g : β → Job γ) :
    (job.bind f).bind g = job.bind fun a => (f a).bind g := by
  induction job with
  | done => rfl
  | ask next ih => simp [bind, ih]
  | tell _ _ ih => simp [bind, ih]
  | pause _ ih => simp [bind, ih]
  | takeOn _ _ ih => simp [bind, ih]
  | perform _ ih => simp [bind, ih]
  | breakDown => rfl

end Job

/-- A job that has begun, with its duties, the innermost one first. -/
structure Flight (α : Type) where
  job : Job α
  duties : List Change := []

/-- How far a job came. -/
inductive Progress (α : Type) where
  | ended (value : α)
  | paused (flight : Flight α)
  | broken (message : String)

namespace Job

variable {α : Type}

/-- Performs duties from the innermost outwards. -/
def performAll (duties : List Change) (l : Ledger) : Ledger :=
  duties.foldl (fun l duty => duty l) l

/-- Runs a job until it ends or pauses; with `through`, pauses are passed. -/
def run (through : Bool) : Job α → List Change → Ledger → Progress α × Ledger
  | done a, _, l => (.ended a, l)
  | ask next, duties, l => run through (next l) duties l
  | tell f next, duties, l => run through next duties (f l)
  | pause next, duties, l =>
    if through then run through next duties l else (.paused ⟨next, duties⟩, l)
  | takeOn duty next, duties, l => run through next (duty :: duties) l
  | perform next, duty :: duties, l => run through next duties (duty l)
  | perform next, [], l => run through next [] l
  | breakDown message, duties, l => (.broken message, performAll duties l)

end Job

namespace Flight

variable {α : Type}

/-- A job about to begin. -/
def start (job : Job α) : Flight α := ⟨job, []⟩

/-- Runs a flight until it pauses or ends. -/
def advance (f : Flight α) (l : Ledger) : Progress α × Ledger := f.job.run false f.duties l

/-- Runs a flight to its end. -/
def finish (f : Flight α) (l : Ledger) : Progress α × Ledger := f.job.run true f.duties l

/-- Gives a flight up. -/
def drop (f : Flight α) (l : Ledger) : Ledger := Job.performAll f.duties l

end Flight

end WebHost
