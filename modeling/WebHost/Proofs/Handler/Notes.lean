import WebHost.Proofs.Handler.Layer

/-!
# What leaves the notes of a request alone

The notes behind a handle belong to a request. A job leaves them alone if no change it makes shows in
them, whatever it reads and however long it waits, and if the duties it takes on leave them alone as
well. The handlers at the end of a path leave the notes of their requests alone, and so do layers that
hand a request on with the notes it came with.
-/

set_option autoImplicit false

namespace WebHost

/-- A change of the ledger that does not show in notes that have been given out. -/
def Change.LeavesNotes (handle : ℕ) (f : Change) : Prop :=
  ∀ l, handle < l.notes.length → (f l).notes[handle]? = l.notes[handle]?

/-- Others who leave the notes behind a handle alone. -/
def LeaveNotes (handle : ℕ) (others : Ledger → Ledger → Prop) : Prop :=
  ∀ l l', others l l' → handle < l.notes.length → l'.notes[handle]? = l.notes[handle]?

/-- The notes behind a handle are known, and no duty will change them. -/
structure Scene.Holds (s : Scene) (handle : ℕ) (n : Notes) : Prop where
  notes : s.ledger.notes[handle]? = some n
  duties : ∀ duty ∈ s.duties, duty.LeavesNotes handle

/-- Notes that a scene holds are in its ledger. -/
theorem Scene.Holds.lt_length {s : Scene} {handle : ℕ} {n : Notes} (h : s.Holds handle n) :
    handle < s.ledger.notes.length := (List.getElem?_eq_some_iff.mp h.notes).1

/-- Notes that a scene holds are what is read there. -/
theorem Scene.Holds.notesAt {s : Scene} {handle : ℕ} {n : Notes} (h : s.Holds handle n) :
    s.ledger.notesAt handle = n := by
  rw [Ledger.notesAt, List.getD_eq_getElem?_getD, h.notes]
  rfl

namespace Job

variable {α β : Type}

/-- From a ledger on a job leaves the notes behind a handle alone, and it ends well if at all. -/
def LeavesNotes (handle : ℕ) (good : α → Prop) : Job α → Ledger → Prop
  | done a, _ => good a
  | ask next, l => (next l).LeavesNotes handle good l
  | tell f next, l => (f l).notes[handle]? = l.notes[handle]? ∧ next.LeavesNotes handle good (f l)
  | pause next, _ => ∀ l, handle < l.notes.length → next.LeavesNotes handle good l
  | takeOn duty next, l => duty.LeavesNotes handle ∧ next.LeavesNotes handle good l
  | perform next, _ => ∀ l, handle < l.notes.length → next.LeavesNotes handle good l
  | breakDown _, _ => True

variable {handle : ℕ} {good : α → Prop} {others : Ledger → Ledger → Prop} {n : Notes}

/-- Whatever a job that leaves notes alone may be seen to do, they are the same afterwards. -/
theorem LeavesNotes.holds {job : Job α} {a : α} {ds : List Deed} {s s' : Scene}
    (hjob : job.LeavesNotes handle good s.ledger) (hdoes : job.Does ds (some a))
    (hlead : Lead others ds s s') (hothers : LeaveNotes handle others) (hs : s.Holds handle n) :
    s'.Holds handle n ∧ good a := by
  induction hlead generalizing job with
  | nil =>
    cases hdoes
    exact ⟨hs, hjob⟩
  | cons hd _ ih =>
    obtain ⟨job', hstep, hrest⟩ := does_cons_iff.mp hdoes
    -- what is known holds after the deed as well, and the rest of the job goes on from there
    cases hstep with
    | ask =>
      cases hd
      refine ih ?_ hrest hs
      exact hjob
    | tell =>
      cases hd
      exact ih hjob.2 hrest ⟨hjob.1.trans hs.notes, hs.duties⟩
    | pause =>
      cases hd with
      | waited s hothers' =>
        have hnotes := (hothers _ _ hothers' hs.lt_length).trans hs.notes
        exact ih (hjob _ (List.getElem?_eq_some_iff.mp hnotes).1) hrest ⟨hnotes, hs.duties⟩
    | takeOn =>
      cases hd
      exact ih hjob.2 hrest ⟨hs.notes, List.forall_mem_cons.mpr ⟨hjob.1, hs.duties⟩⟩
    | perform =>
      cases hd with
      | performed duty duties l =>
        obtain ⟨hduty, hduties⟩ := List.forall_mem_cons.mp hs.duties
        have hnotes := (hduty l hs.lt_length).trans hs.notes
        exact ih (hjob _ (List.getElem?_eq_some_iff.mp hnotes).1) hrest ⟨hnotes, hduties⟩
      | idle l => exact ih (hjob l hs.lt_length) hrest hs

end Job

/-- A handler that leaves the notes of its requests alone. -/
def Handler.LeavesNotes (h : Handler) : Prop :=
  ∀ request handle l, request.notes = some handle → handle < l.notes.length →
    (h request).LeavesNotes handle (fun _ => True) l

/-- A handler that always answers alike has nothing to do with notes. -/
theorem Handler.leavesNotes_always (response : Response) : (Handler.always response).LeavesNotes :=
  fun _ _ _ _ _ => trivial

/-- What is handed on comes with the same notes, and they are left alone when the response is
finished. -/
def Verdict.Shares (handle : ℕ) : Verdict → Prop
  | .answer _ => True
  | .handOn request finish => request.notes = some handle ∧
    ∀ response l, handle < l.notes.length → (finish response).LeavesNotes handle (fun _ => True) l

/-- A layer that leaves the notes of its requests alone and hands them on. -/
def Layer.LeavesNotes (m : Layer) : Prop :=
  ∀ request handle l, request.notes = some handle → handle < l.notes.length →
    (m.receive request).LeavesNotes handle (Verdict.Shares handle) l

/-- A middleware that is a layer and leaves the notes of its requests alone. -/
def Middleware.SharesNotes (m : Middleware) : Prop :=
  ∃ layer : Layer, layer.middleware = m ∧ layer.LeavesNotes

end WebHost
