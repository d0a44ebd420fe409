/-!
# Decimal numbers in binary64

A decimal literal stands for the binary64 number nearest to it, and such a number is written with
the fewest decimal digits that read back as the same number. Both directions are computed in exact
arithmetic on natural numbers.
-/

set_option autoImplicit false

namespace WebHost

/-- A finite binary64 magnitude: `mantissa · 2 ^ exponent`. -/
structure Binary64 where
  mantissa : Nat
  exponent : Int
  deriving DecidableEq, Repr

namespace Binary64

/-- A decimal row of digits and the power of ten of its last place. -/
structure Decimal where
  digits : Nat
  exponent : Int
  deriving DecidableEq, Repr

/-- The quotient rounded to the nearest whole number, halves to even. -/
def roundHalfEven (num den : Nat) : Nat :=
  let q := num / den
  let r := num % den
  if 2 * r < den then q else if den < 2 * r then q + 1 else if q % 2 = 0 then q else q + 1

/-- The binary64 nearest to a fraction; none when it is too large for the format. -/
def nearest (num den : Nat) : Option Binary64 :=
  if num = 0 then some ⟨0, -1074⟩
  else
    let guess : Int := max ((num.log2 : Int) - (den.log2 : Int) - 52) (-1074)
    -- the scale for which the quotient has at most 53 bits
    let scaled (q : Int) : Nat × Nat :=
      if 0 ≤ q then (num, den * Nat.pow 2 q.toNat) else (num * Nat.pow 2 (-q).toNat, den)
    let fits (q : Int) : Bool := let (a, b) := scaled q; a / b < Nat.pow 2 53
    let enough (q : Int) : Bool := let (a, b) := scaled q; Nat.pow 2 52 ≤ a / b || q = -1074
    let q := if !fits guess then guess + 1 else if enough guess then guess else max (guess - 1) (-1074)
    let (a, b) := scaled q
    let m := roundHalfEven a b
    let (m, q) := if m = Nat.pow 2 53 then (Nat.pow 2 52, q + 1) else (m, q)
    if 971 < q then none else some ⟨m, q⟩

/-- The binary64 nearest to a decimal; none when it is too large for the format. -/
def ofDecimal (d : Decimal) : Option Binary64 :=
  let places : Int := (toString d.digits).length
  if d.digits = 0 ∨ places + d.exponent < -330 then some ⟨0, -1074⟩
  else if 310 < places + d.exponent then none
  else if 0 ≤ d.exponent then nearest (d.digits * Nat.pow 10 d.exponent.toNat) 1
  else nearest d.digits (Nat.pow 10 (-d.exponent).toNat)

/-- The leading digits of a decimal, as many as fit 64 bits; the others only hold their places. -/
def Decimal.leading (d : Decimal) : Decimal :=
  let without (count : Nat) : Decimal := ⟨d.digits / Nat.pow 10 count, d.exponent + count⟩
  let places := (toString d.digits).length
  if d.digits < Nat.pow 2 64 then d
  else if (without (places - 20)).digits < Nat.pow 2 64 then without (places - 20)
  else without (places - 19)

/-- A number as a fraction. -/
def fraction (x : Binary64) : Nat × Nat :=
  if 0 ≤ x.exponent then (x.mantissa * Nat.pow 2 x.exponent.toNat, 1)
  else (x.mantissa, Nat.pow 2 (-x.exponent).toNat)

/-- The product of two numbers, rounded. -/
def times (x y : Binary64) : Option Binary64 :=
  nearest (x.fraction.1 * y.fraction.1) (x.fraction.2 * y.fraction.2)

/-- The quotient of two numbers, rounded. -/
def quotient (x y : Binary64) : Option Binary64 :=
  nearest (x.fraction.1 * y.fraction.2) (x.fraction.2 * y.fraction.1)

/-- A number times a power of ten. The power itself is rounded, and a power below the least one that
the format can hold is applied in two or three steps. -/
def scale : Nat → Binary64 → Int → Option Binary64
  | 0, x, _ => some x
  | fuel + 1, x, e =>
    let power (n : Nat) := nearest (Nat.pow 10 n) 1
    if x.mantissa = 0 then some x
    else if 308 < e then none
    else if 0 ≤ e then (power e.toNat).bind x.times
    else if -308 ≤ e then (power (-e).toNat).bind x.quotient
    else ((power 308).bind x.quotient).bind fun x => scale fuel x (e + 308)

/-- The binary64 of a decimal as JSON documents are read: the leading digits are rounded to a number,
which is then scaled. It may differ from the nearest one in its last place; none when it is too large
for the format. -/
def ofLeading (d : Decimal) : Option Binary64 :=
  (nearest d.leading.digits 1).bind fun x => scale 4 x d.leading.exponent

/-- A decimal without zeros at its end. -/
def Decimal.normal (d : Decimal) : Decimal :=
  go (toString d.digits).length d
where
  go : Nat → Decimal → Decimal
    | 0, d => d
    | fuel + 1, d =>
      if d.digits ≠ 0 ∧ d.digits % 10 = 0 then go fuel ⟨d.digits / 10, d.exponent + 1⟩ else d

/-- The shortest decimal that reads back as the number, and of those the nearest to it. -/
def shortest (x : Binary64) : Decimal :=
  if x.mantissa = 0 then ⟨0, 0⟩
  else
    -- everything in quarters of the last place, so that both ends of the interval are whole
    let lower := if x.mantissa = Nat.pow 2 52 ∧ -1074 < x.exponent then 1 else 2
    let (num, low, high, den) :=
      if 0 ≤ x.exponent then
        let u := Nat.pow 2 x.exponent.toNat
        (4 * x.mantissa * u, (4 * x.mantissa - lower) * u, (4 * x.mantissa + 2) * u, 4)
      else (4 * x.mantissa, 4 * x.mantissa - lower, 4 * x.mantissa + 2, 4 * Nat.pow 2 (-x.exponent).toNat)
    let closed := x.mantissa % 2 = 0
    let inside (a : Nat) (unit : Nat) (shrink : Nat) : Bool :=
      -- a · unit / shrink against the interval
      let v := a * unit * den
      if closed then low * shrink ≤ v && v ≤ high * shrink else low * shrink < v && v < high * shrink
    let magnitude : Int := digitsBefore num den
    let rec search : Nat → Nat → Decimal
      | 0, _ => ⟨0, 0⟩
      | fuel + 1, n =>
        let e : Int := magnitude - n
        let (unit, shrink) := if 0 ≤ e then (Nat.pow 10 e.toNat, 1) else (1, Nat.pow 10 (-e).toNat)
        let below := num * shrink / (den * unit)
        let hitBelow := 0 < below && inside below unit shrink
        let hitAbove := inside (below + 1) unit shrink
        -- twice the distance from below, compared with one grid step
        let nearBelow := 2 * (num * shrink - below * den * unit) ≤ den * unit
        if hitBelow && (nearBelow || !hitAbove) then ⟨below, e⟩
        else if hitAbove then ⟨below + 1, e⟩
        else search fuel (n + 1)
    (search 18 1).normal
where
  /-- The number of digits before the decimal point (zero or negative for small fractions). -/
  digitsBefore (num den : Nat) : Int :=
    if den ≤ num then (toString (num / den)).length
    else
      let rec go : Nat → Nat → Int → Int
        | 0, _, k => k
        | fuel + 1, n, k => if den ≤ n * 10 then k else go fuel (n * 10) (k - 1)
      go 400 num 0

/-- A row of zeros. -/
def zeros (n : Nat) : String := String.ofList (List.replicate n '0')

/-- The positional text of a decimal, with at least one digit on each side of the point. -/
def Decimal.positional (d : Decimal) : String :=
  let digits := toString d.digits
  if 0 ≤ d.exponent then digits ++ zeros d.exponent.toNat ++ ".0"
  else
    let places := (-d.exponent).toNat
    if places < digits.length then
      let whole := digits.length - places
      String.ofList (digits.toList.take whole) ++ "." ++ String.ofList (digits.toList.drop whole)
    else "0." ++ zeros (places - digits.length) ++ digits

/-- The compact text of a decimal: positional while the point stands within sixteen places of the
first digit or five places before it, and scientific otherwise. -/
def Decimal.compact (d : Decimal) : String :=
  let digits := toString d.digits
  let point : Int := digits.length + d.exponent
  if d.digits = 0 then "0.0"
  else if -5 < point ∧ point ≤ 16 then d.positional
  else
    let rest := String.ofList (digits.toList.drop 1)
    let head := String.ofList (digits.toList.take 1)
    (if rest.isEmpty then head else head ++ "." ++ rest) ++ "e" ++ toString (point - 1)

end Binary64

end WebHost
