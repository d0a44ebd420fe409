import Mathlib.Data.List.Basic
import WebHost.Handler.Chain

/-!
# What a job leaves alone

Somebody keeps something in the ledger: a counter, or the events of some kind. A job leaves that alone
when no step of it changes it, whatever others do while it pauses, and when it performs its own duties
only, and all of them before it ends. Run under the duties of somebody else and followed by another job,
it is invisible: what is kept changes only by those duties, or in the job that follows.
-/

set_option autoImplicit false

namespace WebHost

variable {α β γ : Type}

/-- A change that what is kept does not show. -/
def Change.LeavesAlone (kept : Ledger → β) (f : Change) : Prop := ∀ l, kept (f l) = kept l

namespace Job

/-- From a ledger on and with a number of own duties still to be performed, a job does not change what
is kept, and it ends without any own duty. -/
def LeavesAlone (kept : Ledger → β) : Job α → ℕ → Ledger → Prop
  | done _, n, _ => n = 0
  | ask next, n, l => (next l).LeavesAlone kept n l
  | tell f next, n, l => kept (f l) = kept l ∧ next.LeavesAlone kept n (f l)
  | pause next, n, _ => ∀ l, next.LeavesAlone kept n l
  | takeOn duty next, n, l => duty.LeavesAlone kept ∧ next.LeavesAlone kept (n + 1) l
  | perform next, n + 1, _ => ∀ l, next.LeavesAlone kept n l
  | perform _, 0, _ => False
  | breakDown _, _, _ => True

variable {kept : Ledger → β}

/-- A job may be followed by one that leaves the same alone. -/
theorem LeavesAlone.bind {job : Job α} {f : α → Job γ} {n m : ℕ} {l : Ledger}
    (h : job.LeavesAlone kept n l) (hf : ∀ a l, (f a).LeavesAlone kept m l) :
    (job.bind f).LeavesAlone kept (n + m) l := by
  induction job generalizing n l with
  | done a =>
    obtain rfl : n = 0 := h
    rw [Nat.zero_add]
    exact hf a l
  | ask next ih => exact ih l h
  | tell change next ih => exact ⟨h.1, ih h.2⟩
  | pause next ih => exact fun l => ih (h l)
  | takeOn duty next ih =>
    refine ⟨h.1, ?_⟩
    rw [Nat.add_right_comm]
    exact ih h.2
  | perform next ih =>
    cases n with
    | zero => exact h.elim
    | succ n =>
      rw [Nat.add_right_comm]
      exact fun l => ih (h l)
  | breakDown message => trivial

/-- A job may be done under a duty that leaves the same alone. -/
theorem LeavesAlone.under {job : Job α} {duty : Change} {l : Ledger}
    (hduty : duty.LeavesAlone kept) (hjob : job.LeavesAlone kept 0 l) :
    (Job.under duty job).LeavesAlone kept 0 l := by
  have hperform : ∀ (a : α) (l : Ledger), (perform (done a)).LeavesAlone kept 1 l :=
    fun a l _ => rfl
  exact ⟨hduty, hjob.bind hperform⟩

/-- Duties in a row are performed like the first of them and then the others. -/
theorem performAll_append (own base : List Change) (l : Ledger) :
    performAll (own ++ base) l = performAll base (performAll own l) :=
  List.foldl_append

/-- Duties that leave something alone leave it alone together. -/
theorem kept_performAll {duties : List Change} (h : ∀ duty ∈ duties, duty.LeavesAlone kept)
    (l : Ledger) : kept (performAll duties l) = kept l := by
  induction duties generalizing l with
  | nil => rfl
  | cons duty duties ih =>
    obtain ⟨hduty, hrest⟩ := List.forall_mem_cons.mp h
    exact (ih hrest (duty l)).trans (hduty l)

/-- How an advance comes out of a job that is followed by another, under the duties of somebody else. -/
inductive Came (kept : Ledger → β) (f : α → Job γ) (base : List Change) (l : Ledger) :
    Progress γ × Ledger → Prop
  /-- It waits, with its own duties inside those of somebody else. -/
  | waits {job : Job α} {own : List Change} {l' : Ledger} :
    (∀ l, job.LeavesAlone kept own.length l) → (∀ duty ∈ own, duty.LeavesAlone kept) →
    kept l' = kept l → Came kept f base l (.paused ⟨job.bind f, own ++ base⟩, l')
  /-- It broke down, and nothing but the duties of somebody else shows. -/
  | broke {message : String} {l' : Ledger} : kept l' = kept l →
    Came kept f base l (.broken message, performAll base l')
  /-- It ended, and the other has begun. -/
  | went {a : α} {l' : Ledger} : kept l' = kept l → Came kept f base l ((f a).run false base l')

/-- The ledger that an outcome is compared with may be any that shows the same. -/
theorem Came.congr {f : α → Job γ} {base : List Change} {l l' : Ledger}
    {outcome : Progress γ × Ledger} (h : Came kept f base l' outcome) (hkept : kept l' = kept l) :
    Came kept f base l outcome := by
  cases h with
  | waits hjob hown hsame => exact .waits hjob hown (hsame.trans hkept)
  | broke hsame => exact .broke (hsame.trans hkept)
  | went hsame => exact .went (hsame.trans hkept)

/-- However an advance comes out, a job that leaves something alone has left it alone, and the
duties of somebody else are left for later. -/
theorem came_bind {job : Job α} {own : List Change} {l : Ledger}
    (hjob : job.LeavesAlone kept own.length l) (hown : ∀ duty ∈ own, duty.LeavesAlone kept)
    (f : α → Job γ) (base : List Change) :
    Came kept f base l ((job.bind f).run false (own ++ base) l) := by
  -- whatever the job takes on comes on top of its own duties, so those of the base stay last
  induction job generalizing own l with
  | done a =>
    obtain rfl : own = [] := List.length_eq_zero_iff.mp hjob
    exact .went rfl
  | ask next ih => exact ih l hjob hown
  | tell change next ih => exact (ih hjob.2 hown).congr hjob.1
  | pause next ih => exact .waits hjob hown rfl
  | takeOn duty next ih => exact @ih (duty :: own) l hjob.2 (List.forall_mem_cons.mpr ⟨hjob.1, hown⟩)
  | perform next ih =>
    cases own with
    | nil => exact hjob.elim
    | cons duty own =>
      obtain ⟨hduty, hrest⟩ := List.forall_mem_cons.mp hown
      exact (@ih own (duty l) (hjob _) hrest).congr (hduty l)
  | breakDown message =>
    have hout : ((breakDown message : Job α).bind f).run false (own ++ base) l =
        (.broken message, performAll base (performAll own l)) := by
      rw [← performAll_append]
      rfl
    rw [hout]
    exact .broke (kept_performAll hown l)

end Job

/-- A handler whose jobs leave what is kept alone, whenever they begin. -/
def Handler.LeavesAlone (kept : Ledger → β) (handler : Handler) : Prop :=
  ∀ request l, (handler request).LeavesAlone kept 0 l

end WebHost
