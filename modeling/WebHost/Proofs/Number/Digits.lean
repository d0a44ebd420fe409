import Mathlib.Data.List.Forall2
import Mathlib.Data.Nat.Digits.Defs
import Mathlib.Tactic.Ring
import WebHost.Number.Numeral

/-!
# Digits of a radix

The digits of a radix up to sixteen are the first of the hexadecimal digits, with small letters or
with capitals. A row of digits stands for the sum of its digits, each times a power of the radix.
Reading goes from the left and gives up as soon as the bound is passed; since every further digit
only makes a value greater, it accepts exactly the rows whose whole value is in bounds.
-/

set_option autoImplicit false

namespace WebHost.Numeral

variable {base bound value n : Nat} {c : Char} {text : List Char}

/-- A character is the digit of a radix for a number. -/
def IsDigit (base : Nat) (c : Char) (d : Nat) : Prop :=
  d < base ∧ (c = d.digitChar ∨ c = d.digitChar.toUpper)

/-- A row of digits, most significant first, stands for a number. -/
def Denotes (base : Nat) (text : List Char) (n : Nat) : Prop :=
  ∃ digits, List.Forall₂ (IsDigit base) text digits ∧ Nat.ofDigits base digits.reverse = n

/-- The digits from ten on are written in letters, small or capital. -/
theorem toNat_digitChar_letter : ∀ d < 16, 10 ≤ d →
    d.digitChar.toNat = 87 + d ∧ d.digitChar.toUpper.toNat = 55 + d := by decide

/-- A hexadecimal digit is read back from its letter, small or capital. -/
theorem digit?_digitChar : ∀ d < 16,
    digit? 16 d.digitChar = some d ∧ digit? 16 d.digitChar.toUpper = some d := by decide

/-- A digit is below its base. -/
theorem lt_of_digit? {d : Nat} (h : digit? base c = some d) : d < base := by
  obtain ⟨v, -, hv⟩ := Option.bind_eq_some_iff.mp h
  split at hv
  · obtain rfl : v = d := by simpa using hv
    assumption
  · simp at hv

/-- A digit of one radix is one of another if it is small enough. -/
theorem digit?_of_lt {other d : Nat} (h : digit? other c = some d) (hd : d < base) :
    digit? base c = some d := by
  obtain ⟨v, hvalue, hv⟩ := Option.bind_eq_some_iff.mp h
  split at hv
  · obtain rfl : v = d := by simpa using hv
    apply Option.bind_eq_some_iff.mpr
    exact ⟨v, hvalue, if_pos hd⟩
  · simp at hv

/-- A digit that is read is a digit of its base. -/
theorem isDigit_of_digit? (hbase : base ≤ 16) {d : Nat} (h : digit? base c = some d) :
    IsDigit base c d := by
  have hlt := lt_of_digit? h
  refine ⟨hlt, ?_⟩
  obtain ⟨v, hvalue, hv⟩ := Option.bind_eq_some_iff.mp h
  obtain rfl : v = d := by
    split at hv
    · simpa using hv
    · simp at hv
  split at hvalue
  · rename_i hbounds
    have hlow : 48 ≤ c.toNat := hbounds.1
    have hhigh : c.toNat ≤ 57 := hbounds.2
    have hnumber : c.toNat - 48 = v := by simpa using hvalue
    left
    apply Char.toNat_inj.mp
    rw [Nat.toNat_digitChar_of_lt_ten (by omega)]
    omega
  split at hvalue
  · rename_i hbounds
    have hlow : 97 ≤ c.toNat := hbounds.1
    have hnumber : c.toNat - 97 + 10 = v := by simpa using hvalue
    left
    apply Char.toNat_inj.mp
    rw [(toNat_digitChar_letter v (by omega) (by omega)).1]
    omega
  split at hvalue
  · rename_i hbounds
    have hlow : 65 ≤ c.toNat := hbounds.1
    have hnumber : c.toNat - 65 + 10 = v := by simpa using hvalue
    right
    apply Char.toNat_inj.mp
    rw [(toNat_digitChar_letter v (by omega) (by omega)).2]
    omega
  · simp at hvalue

/-- The digits that are read are those of the base. -/
theorem digit?_eq_some_iff (hbase : base ≤ 16) {d : Nat} :
    digit? base c = some d ↔ IsDigit base c d := by
  constructor
  · exact isDigit_of_digit? hbase
  · rintro ⟨hd, rfl | rfl⟩
    · exact digit?_of_lt (digit?_digitChar d (by omega)).1 hd
    · exact digit?_of_lt (digit?_digitChar d (by omega)).2 hd

/-! ## Rows of digits -/

/-- A row of digits stands for a number when another value has been read before it. -/
def DenotesAfter (base value : Nat) (text : List Char) (n : Nat) : Prop :=
  ∃ digits, List.Forall₂ (IsDigit base) text digits ∧
    Nat.ofDigits base (digits.reverse ++ [value]) = n

/-- After nothing, digits denote what they denote alone. -/
theorem denotesAfter_zero_iff : DenotesAfter base 0 text n ↔ Denotes base text n := by
  simp only [DenotesAfter, Denotes, Nat.ofDigits_append_zero]

/-- Without digits, the value so far is what is denoted. -/
theorem denotesAfter_nil_iff : DenotesAfter base value [] n ↔ value = n := by
  simp [DenotesAfter, List.forall₂_nil_left_iff]

/-- A value already read counts like one more digit in front. -/
theorem denotesAfter_cons_iff (hbase : base ≤ 16) :
    DenotesAfter base value (c :: text) n ↔
      ∃ d, digit? base c = some d ∧ DenotesAfter base (value * base + d) text n := by
  have hshift (digits : List Nat) (d : Nat) :
      Nat.ofDigits base ((d :: digits).reverse ++ [value]) =
        Nat.ofDigits base (digits.reverse ++ [value * base + d]) := by
    simp only [List.reverse_cons, List.append_assoc, List.singleton_append, Nat.ofDigits_append,
      Nat.ofDigits_cons, Nat.ofDigits_nil]
    ring
  constructor
  · rintro ⟨digits, hdigits, hsum⟩
    obtain ⟨d, digits, hd, hrest, rfl⟩ := List.forall₂_cons_left_iff.mp hdigits
    rw [hshift] at hsum
    exact ⟨d, (digit?_eq_some_iff hbase).mpr hd, digits, hrest, hsum⟩
  · rintro ⟨d, hd, digits, hrest, hsum⟩
    refine ⟨d :: digits, .cons ((digit?_eq_some_iff hbase).mp hd) hrest, ?_⟩
    rw [hshift, hsum]

/-- No digit makes a value smaller. -/
theorem DenotesAfter.le (h : DenotesAfter base value text n) (hbase : 0 < base) : value ≤ n := by
  obtain ⟨digits, -, rfl⟩ := h
  have hpow : 1 ≤ base ^ digits.reverse.length := Nat.one_le_pow _ _ hbase
  rw [Nat.ofDigits_append, Nat.ofDigits_singleton]
  calc value = 1 * value := (Nat.one_mul value).symm
    _ ≤ base ^ digits.reverse.length * value := Nat.mul_le_mul_right value hpow
    _ ≤ Nat.ofDigits base digits.reverse + base ^ digits.reverse.length * value :=
      Nat.le_add_left _ _

/-- Digits are read on from a value exactly if the whole value is in bounds. -/
theorem readFrom_eq_ok_iff (hbase : base ≤ 16) (hvalue : value ≤ bound) :
    readFrom base bound value text = .ok n ↔ DenotesAfter base value text n ∧ n ≤ bound := by
  induction text generalizing value with
  | nil =>
    rw [readFrom, denotesAfter_nil_iff]
    constructor
    · intro h
      obtain rfl := Except.ok.inj h
      exact ⟨rfl, hvalue⟩
    · rintro ⟨rfl, -⟩
      rfl
  | cons c text ih =>
    rw [readFrom, denotesAfter_cons_iff hbase]
    cases hc : digit? base c with
    | none => simp
    | some d =>
      have hpos : 0 < base := Nat.zero_lt_of_lt (lt_of_digit? hc)
      simp only [Option.some.injEq, exists_eq_left']
      split
      · rename_i hpassed
        constructor
        · intro h
          simp at h
        -- a bound that was passed stays passed
        · rintro ⟨hrest, hn⟩
          have hle := hrest.le hpos
          omega
      · rename_i hbelow
        exact ih (Nat.le_of_not_lt hbelow)

/-- A text is read exactly if it is a row of digits whose value is in bounds, and as that value. -/
theorem read_eq_ok_iff (hbase : base ≤ 16) :
    read base bound text = .ok n ↔ text ≠ [] ∧ Denotes base text n ∧ n ≤ bound := by
  rw [read]
  cases text with
  | nil => simp
  | cons c text =>
    rw [if_neg (by simp), readFrom_eq_ok_iff hbase (Nat.zero_le bound), denotesAfter_zero_iff]
    simp

end WebHost.Numeral
