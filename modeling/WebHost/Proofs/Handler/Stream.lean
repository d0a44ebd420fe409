import WebHost.Handler.Job

/-!
# What is written to the stream

Of the events in a ledger the writes make up the stream: its bytes are the bytes of the writes, in
order. A job is silent when no step of it adds to the stream, whatever happens elsewhere while it
pauses. Of a silent job that is followed by another, an advance sees nothing written before the
other begins.
-/

set_option autoImplicit false

namespace WebHost

/-- The bytes that an event adds to the stream. -/
def Event.written : Event → Bytes
  | .wrote bytes => bytes
  | _ => []

/-- The bytes of the stream. -/
def Ledger.stream (l : Ledger) : Bytes := l.events.flatMap Event.written

/-- Events that are noted add what they write to the stream. -/
theorem Ledger.stream_noteAll (l : Ledger) (es : List Event) :
    (l.noteAll es).stream = l.stream ++ es.flatMap Event.written := by
  simp [stream, noteAll]

/-- A change that leaves the stream alone and the notes of all requests. -/
structure Change.IsQuiet (f : Change) : Prop where
  stream : ∀ l, (f l).stream = l.stream
  notes : ∀ l, (f l).notes = l.notes

namespace Job

variable {α β : Type}

/-- Nothing that a job does from a ledger on adds to the stream, nor do the duties that it takes on;
what others do while it pauses is not known. -/
def IsSilent : Job α → Ledger → Prop
  | done _, _ => True
  | ask next, l => (next l).IsSilent l
  | tell f next, l => (f l).stream = l.stream ∧ next.IsSilent (f l)
  | pause next, _ => ∀ l, next.IsSilent l
  | takeOn duty next, l => duty.IsQuiet ∧ next.IsSilent l
  | perform next, _ => ∀ l, next.IsSilent l
  | breakDown _, _ => True

/-- How an advance of a silent job comes out that is followed by another. -/
inductive Advanced (f : α → Job β) (l : Ledger) : Progress β × Ledger → Prop
  /-- The silent job waits. -/
  | waits {job : Job α} {duties : List Change} {l' : Ledger} : (∀ l, job.IsSilent l) →
    (∀ duty ∈ duties, duty.IsQuiet) → l'.stream = l.stream →
    Advanced f l (.paused ⟨job.bind f, duties⟩, l')
  /-- It broke down. -/
  | broke {message : String} {l' : Ledger} : l'.stream = l.stream →
    Advanced f l (.broken message, l')
  /-- It ended, and the other has begun. -/
  | went {a : α} {duties : List Change} {l' : Ledger} : (∀ duty ∈ duties, duty.IsQuiet) →
    l'.stream = l.stream → Advanced f l ((f a).run false duties l')

/-- Quiet duties add nothing to the stream. -/
theorem stream_performAll {duties : List Change} (h : ∀ duty ∈ duties, duty.IsQuiet) (l : Ledger) :
    (performAll duties l).stream = l.stream := by
  induction duties generalizing l with
  | nil => rfl
  | cons duty duties ih =>
    obtain ⟨hduty, hrest⟩ := List.forall_mem_cons.mp h
    exact (ih hrest (duty l)).trans (hduty.stream l)

/-- The ledger that an outcome is compared with may be any with the same stream. -/
theorem Advanced.congr {f : α → Job β} {l l' : Ledger} {outcome : Progress β × Ledger}
    (h : Advanced f l' outcome) (hstream : l'.stream = l.stream) : Advanced f l outcome := by
  cases h with
  | waits hsilent hduties hsame => exact .waits hsilent hduties (hsame.trans hstream)
  | broke hsame => exact .broke (hsame.trans hstream)
  | went hduties hsame => exact .went hduties (hsame.trans hstream)

/-- However an advance comes out, a silent job has added nothing to the stream before the job that
follows has begun. -/
theorem advanced_bind {job : Job α} {l : Ledger} (hsilent : job.IsSilent l) (f : α → Job β)
    {duties : List Change} (hduties : ∀ duty ∈ duties, duty.IsQuiet) :
    Advanced f l ((job.bind f).run false duties l) := by
  induction job generalizing l duties with
  | done a => exact .went hduties rfl
  | ask next ih => exact ih l hsilent hduties
  | tell change next ih => exact (ih hsilent.2 hduties).congr hsilent.1
  | pause next ih => exact .waits hsilent hduties rfl
  | takeOn duty next ih => exact ih hsilent.2 (List.forall_mem_cons.mpr ⟨hsilent.1, hduties⟩)
  | perform next ih =>
    cases duties with
    | nil => exact ih (hsilent l) hduties
    | cons duty duties =>
      obtain ⟨hduty, hrest⟩ := List.forall_mem_cons.mp hduties
      exact (ih (hsilent _) hrest).congr (hduty.stream l)
  | breakDown message => exact .broke (stream_performAll hduties l)

end Job

end WebHost
