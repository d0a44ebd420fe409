import WebHost.Server.Settings

/-!
# Options in a row

A group of options is applied like its members, so what options leave behind is what the options in
all their groups leave behind one after the other.
-/

set_option autoImplicit false

namespace WebHost

namespace Settings

/-- The leaves of two rows of options come in a row. -/
theorem leavesOf_append (first second : List ServerOption) :
    leavesOf (first ++ second) = leavesOf first ++ leavesOf second := by
  induction first with
  | nil => rfl
  | cons option first ih => rw [List.cons_append, leavesOf, leavesOf, ih, List.append_assoc]

/-- The settings after options none of which is a group. -/
def afterLeaves (vault : Vault) (s : Settings) (options : List ServerOption) : Settings :=
  options.foldl (fun s option => (s.applyLeaf vault option).1) s

/-- Leaves in two rows leave what the second leaves after the first. -/
theorem afterLeaves_append (vault : Vault) (s : Settings) (first second : List ServerOption) :
    s.afterLeaves vault (first ++ second) =
      (s.afterLeaves vault first).afterLeaves vault second := by
  simp only [afterLeaves, List.foldl_append]

mutual

/-- An option leaves the settings that its leaves leave. -/
theorem applyOne_eq_afterLeaves (vault : Vault) (s : Settings) (option : ServerOption) :
    (s.applyOne vault option).1 = s.afterLeaves vault option.leaves := by
  cases option with
  | group options =>
    rw [applyOne, ServerOption.leaves]
    exact applyEach_eq_afterLeaves vault s options
  | _ => rfl

/-- Grouping options makes no difference to the settings that they leave. -/
theorem applyEach_eq_afterLeaves (vault : Vault) (s : Settings) (options : List ServerOption) :
    (s.applyEach vault options).1 = s.afterLeaves vault (leavesOf options) := by
  cases options with
  | nil => rfl
  | cons option rest =>
    rw [applyEach, leavesOf, afterLeaves_append, ← applyOne_eq_afterLeaves vault s option]
    exact applyEach_eq_afterLeaves vault _ rest

end

end Settings

end WebHost
