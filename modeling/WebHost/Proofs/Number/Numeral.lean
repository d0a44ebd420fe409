import Mathlib.Data.List.Basic
import Mathlib.Tactic.SplitIfs
import WebHost.Number.Numeral

/-!
# Decimal numerals

A row of decimal digits is read as the value that its digits have, with or without a bound, and the
numeral that a number is written in has that number as its value. Zeros in front change the length of
a numeral and not its value.
-/

set_option autoImplicit false

namespace WebHost.Numeral

/-- A decimal digit lies between zero and nine. -/
theorem bounds_of_isDigit {c : Char} (h : c.isDigit = true) : '0' ≤ c ∧ c ≤ '9' := by
  simp only [Char.isDigit, Bool.and_eq_true, decide_eq_true_eq] at h
  exact h

/-- A decimal digit is read as its distance from zero. -/
theorem digit?_ten {c : Char} (h : c.isDigit = true) :
    digit? 10 c = some (c.toNat - '0'.toNat) := by
  have hbounds : '0' ≤ c ∧ c ≤ '9' := bounds_of_isDigit h
  have hvalue : c.toNat ≤ '9'.toNat := hbounds.2
  have hlt : c.toNat - '0'.toNat < 10 := by
    have hnine : '9'.toNat = '0'.toNat + 9 := by decide
    omega
  rw [digit?, if_pos hbounds, Option.bind_some, if_pos hlt]

/-- Further digits make a value no smaller. -/
theorem le_ofDigitChars (text : List Char) (value : Nat) :
    value ≤ Nat.ofDigitChars 10 text value := by
  induction text generalizing value with
  | nil => exact Nat.le_refl value
  | cons c text ih =>
    rw [Nat.ofDigitChars_cons]
    have hrest := ih (10 * value + (c.toNat - '0'.toNat))
    omega

/-- Decimal digits whose value is in bounds are read as that value. -/
theorem readFrom_ten {bound value : Nat} {text : List Char} (h : ∀ c ∈ text, c.isDigit = true)
    (hbound : Nat.ofDigitChars 10 text value ≤ bound) :
    readFrom 10 bound value text = .ok (Nat.ofDigitChars 10 text value) := by
  induction text generalizing value with
  | nil => rfl
  | cons c text ih =>
    obtain ⟨hc, htext⟩ := List.forall_mem_cons.mp h
    rw [Nat.ofDigitChars_cons, Nat.mul_comm] at hbound ⊢
    have hnext := Nat.le_trans (le_ofDigitChars text _) hbound
    rw [readFrom, digit?_ten hc]
    simp only [if_neg (Nat.not_lt.mpr hnext), ih htext hbound]

/-- A digit that is not zero is not written as zero. -/
theorem digitChar_ne_zero : ∀ n < 10, n ≠ 0 → n.digitChar ≠ '0' := by decide

/-- A number other than zero is not written with a zero in front. -/
theorem head?_toDigits {n : Nat} (h : n ≠ 0) : (Nat.toDigits 10 n).head? ≠ some '0' := by
  induction n using Nat.strongRecOn with
  | _ n ih =>
    rw [Nat.toDigits_eq_if (by decide)]
    split_ifs with hsmall
    · have hdigit := digitChar_ne_zero n hsmall h
      simpa using hdigit
    · have hfront := ih (n / 10) (by omega) (by omega)
      rwa [List.head?_append_of_ne_nil _ Nat.toDigits_ne_nil]

/-- Decimal digits are read as the value that they have after the value already read. -/
theorem foldl_value_ten {text : List Char} (h : ∀ c ∈ text, c.isDigit = true) (value : Nat) :
    text.foldl (fun acc c => acc.bind fun v => (digit? 10 c).map (v * 10 + ·)) (some value) =
      some (Nat.ofDigitChars 10 text value) := by
  induction text generalizing value with
  | nil => rfl
  | cons c text ih =>
    obtain ⟨hc, htext⟩ := List.forall_mem_cons.mp h
    rw [List.foldl_cons, Option.bind_some, digit?_ten hc, Option.map_some, ih htext,
      Nat.ofDigitChars_cons, Nat.mul_comm]

/-- Decimal digits are read as the number they make. -/
theorem value?_ten {text : List Char} (h : ∀ c ∈ text, c.isDigit = true) :
    value? 10 text = some (Nat.ofDigitChars 10 text 0) := by
  exact foldl_value_ten h 0

/-! ## Numerals of a width -/

/-- A padded number is its digits, behind zeros up to the width. -/
theorem toList_padded (width n : Nat) :
    (padded width n).toList =
      List.replicate (width - (Nat.toDigits 10 n).length) '0' ++ Nat.toDigits 10 n := by
  have hdigits : (toString n).toList = Nat.toDigits 10 n := by
    rw [Nat.toString_eq_repr, Nat.repr_eq_ofList_toDigits, String.toList_ofList]
  rw [padded, String.toList_append, String.toList_ofList, ← String.length_toList, hdigits]

/-- A padded number consists of digits. -/
theorem isDigit_of_mem_padded {width n : Nat} {c : Char} (hc : c ∈ (padded width n).toList) :
    c.isDigit = true := by
  rw [toList_padded, List.mem_append] at hc
  rcases hc with hc | hc
  · rw [List.eq_of_mem_replicate hc]
    rfl
  · exact Nat.isDigit_of_mem_toDigits (by omega) (by omega) hc

/-- A numeral with zeros in front is read as the number that it was written for. -/
theorem value?_padded (width n : Nat) : value? 10 (padded width n).toList = some n := by
  have hdigits : ∀ c ∈ (padded width n).toList, c.isDigit = true :=
    fun c hc => isDigit_of_mem_padded hc
  rw [value?_ten hdigits, toList_padded, Nat.ofDigitChars_append, Nat.ofDigitChars_replicate_zero,
    Nat.mul_zero, Nat.ofDigitChars_ten_toDigits]

/-- A number that fits a width is written in it. -/
theorem length_padded {width n : Nat} (h : (Nat.toDigits 10 n).length ≤ width) :
    (padded width n).toList.length = width := by
  rw [toList_padded, List.length_append, List.length_replicate]
  omega

/-- Two digits are written as a number padded to two. -/
theorem twoDigits_eq_padded : ∀ n < 100, twoDigits n = padded 2 n := by decide +kernel

end WebHost.Numeral
