import WebHost.Number.Numeral

/-!
# Lengths of time

A duration is a whole number of seconds and a rest below one second in nanoseconds.
-/

set_option autoImplicit false

namespace WebHost

/-- A length of time. -/
structure Duration where
  seconds : Nat
  nanos : Fin 1000000000
  deriving DecidableEq, Repr, Inhabited

namespace Duration

/-- A whole number of seconds. -/
def ofSeconds (seconds : Nat) : Duration := ⟨seconds, 0, by decide⟩

/-- No time at all. -/
def zero : Duration := ofSeconds 0

/-- Whether a duration is no time at all. -/
def isZero (d : Duration) : Bool := d.seconds = 0 && d.nanos.val = 0

/-- A duration in nanoseconds. -/
def toNanos (d : Duration) : Nat := d.seconds * 1000000000 + d.nanos

/-- Durations are ordered by their length. -/
instance : LT Duration := ⟨fun a b => a.toNanos < b.toNanos⟩

instance (a b : Duration) : Decidable (a < b) := inferInstanceAs (Decidable (a.toNanos < b.toNanos))

/-- A number of units with a fraction of `width` digits, without zeros at its end. -/
def fractional (whole fraction width : Nat) (unit : String) : String :=
  let digits := (Numeral.padded width fraction).toList.reverse.dropWhile (· = '0')
  if digits.isEmpty then toString whole ++ unit
  else toString whole ++ "." ++ String.ofList digits.reverse ++ unit

/-- A duration in the largest unit in which it is at least one. -/
def text (d : Duration) : String :=
  let nanos := d.nanos.val
  if 0 < d.seconds then fractional d.seconds nanos 9 "s"
  else if 1000000 ≤ nanos then fractional (nanos / 1000000) (nanos % 1000000) 6 "ms"
  else if 1000 ≤ nanos then fractional (nanos / 1000) (nanos % 1000) 3 "µs"
  else toString nanos ++ "ns"

end Duration

end WebHost
