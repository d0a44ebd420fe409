/-!
# Computations that ended well

A computation that may end with an error ended well only if each of its steps did. A proof about what
ended well takes the computation apart with these lemmas, one step at a time.
-/

set_option autoImplicit false

namespace Except

universe u v w

variable {ε : Type u} {ε' : Type v} {α β : Type w}

/-- Two computations in a row succeed if the first does, and then the second. -/
theorem bind_eq_ok_iff {x : Except ε α} {f : α → Except ε β} {b : β} :
    (x >>= f) = .ok b ↔ ∃ a, x = .ok a ∧ f a = .ok b := by
  cases x <;> simp [Bind.bind, Except.bind]

/-- What a function makes of a result is a result only if there was one. -/
theorem map_eq_ok_iff {x : Except ε α} {f : α → β} {b : β} :
    x.map f = .ok b ↔ ∃ a, x = .ok a ∧ f a = b := by
  cases x <;> simp [Except.map]

/-- Another error is still an error. -/
theorem mapError_eq_ok_iff {x : Except ε α} {f : ε → ε'} {a : α} :
    x.mapError f = .ok a ↔ x = .ok a := by
  cases x with
  | error e => exact iff_of_false nofun nofun
  | ok b =>
    constructor
    · intro h
      exact congrArg ok (ok.inj h)
    · intro h
      exact congrArg ok (ok.inj h)

end Except
