import WebHost.Text.Cut

/-!
# Classes of status codes

Access logs and recorders can be limited to some classes of responses. Informational responses
belong to no class.
-/

set_option autoImplicit false

namespace WebHost

/-- A set of classes of status codes. -/
structure StatusClasses where
  success : Bool := false
  redirect : Bool := false
  clientError : Bool := false
  serverError : Bool := false
  deriving DecidableEq, Repr

namespace StatusClasses

/-- No class. -/
def none : StatusClasses := {}

/-- Every class. -/
def all : StatusClasses := ⟨true, true, true, true⟩

/-- The two classes of errors. -/
def errors : StatusClasses := { clientError := true, serverError := true }

/-- The class of a status code. -/
def of (status : Nat) : StatusClasses :=
  match status / 100 with
  | 2 => { success := true }
  | 3 => { redirect := true }
  | 4 => { clientError := true }
  | 5 => { serverError := true }
  | _ => {}

/-- The classes of either set. -/
def union (a b : StatusClasses) : StatusClasses :=
  ⟨a.success || b.success, a.redirect || b.redirect, a.clientError || b.clientError,
    a.serverError || b.serverError⟩

/-- The classes of both sets. -/
def inter (a b : StatusClasses) : StatusClasses :=
  ⟨a.success && b.success, a.redirect && b.redirect, a.clientError && b.clientError,
    a.serverError && b.serverError⟩

/-- Whether a set has no class. -/
def isNone (a : StatusClasses) : Bool := a = none

/-- Whether a set has every class of another one. -/
def contains (a b : StatusClasses) : Bool := a.inter b = b

/-- Whether a status code belongs to a class of the set. -/
def covers (a : StatusClasses) (status : Nat) : Bool := !(a.inter (of status)).isNone

/-- A status code lies in the range of a class of the set. -/
def Includes (a : StatusClasses) (status : Nat) : Prop :=
  (200 ≤ status ∧ status ≤ 299 ∧ a.success = true) ∨
    (300 ≤ status ∧ status ≤ 399 ∧ a.redirect = true) ∨
    (400 ≤ status ∧ status ≤ 499 ∧ a.clientError = true) ∨
    (500 ≤ status ∧ status ≤ 599 ∧ a.serverError = true)

instance (a : StatusClasses) (status : Nat) : Decidable (a.Includes status) :=
  inferInstanceAs (Decidable (_ ∨ _))

/-- The check of a status agrees with what the classes include. -/
theorem covers_iff_includes (a : StatusClasses) (status : Nat) :
    a.covers status = true ↔ a.Includes status := by
  have hrange (k : Nat) : 100 * k ≤ status ∧ status ≤ 100 * k + 99 ↔ status / 100 = k := by omega
  have hhundreds : a.Includes status ↔ (status / 100 = 2 ∧ a.success = true) ∨
      (status / 100 = 3 ∧ a.redirect = true) ∨ (status / 100 = 4 ∧ a.clientError = true) ∨
      (status / 100 = 5 ∧ a.serverError = true) := by
    simp only [Includes, ← and_assoc, ← hrange]
  rw [hhundreds, covers, of]
  split <;> simp_all [inter, isNone, none]

/-- The names of the classes, joined by bars. -/
def text (a : StatusClasses) : String :=
  let named := [(a.success, "success"), (a.redirect, "redirect"), (a.clientError, "client_error"),
    (a.serverError, "server_error")]
  if a.isNone then "none" else Text.joinWith "|" ((named.filter (·.1)).map (·.2))

/-- The set that a name stands for. -/
def ofName? : String → Option StatusClasses
  | "success" => some { success := true }
  | "redirect" => some { redirect := true }
  | "client_error" => some { clientError := true }
  | "server_error" => some { serverError := true }
  | "all" => some all
  | "errors" => some errors
  | "none" => some none
  | _ => Option.none

/-- The union of the sets that names stand for. -/
def ofNames? (names : List String) : Option StatusClasses :=
  (names.mapM ofName?).map fun sets => sets.foldl union none

end StatusClasses

end WebHost
