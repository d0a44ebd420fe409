import WebHost.Number.Numeral
import WebHost.Proofs.Text.Parts
import WebHost.Proofs.Text.Utf8

/-!
# Words

A text that is put together from numerals, fixed words and parts that are words has neither a space
nor a control character, so it ends no field of a line and no line either.
-/

set_option autoImplicit false

namespace WebHost

namespace Text

/-- Words joined by a word are one. -/
theorem isWord_joinWith {sep : String} (hsep : IsWord sep) {parts : List String}
    (h : ∀ part ∈ parts, IsWord part) : IsWord (joinWith sep parts) :=
  forall_mem_joinWith hsep h

end Text

namespace Numeral

open Text

/-- A digit is no gap. -/
theorem not_gap_digitChar : ∀ n < 16, ¬ IsGap n.digitChar := by decide

/-- Every digit of a number is printed. -/
theorem not_gap_of_mem_toDigits {base n : ℕ} (hlow : 1 < base) (hhigh : base ≤ 16) {c : Char}
    (hc : c ∈ Nat.toDigits base n) : ¬ IsGap c := by
  induction n using Nat.strongRecOn with
  | _ n ih =>
    rw [Nat.toDigits_eq_if hlow] at hc
    split_ifs at hc with hsmall
    · obtain rfl := List.mem_singleton.mp hc
      exact not_gap_digitChar n (by omega)
    · rw [List.mem_append, List.mem_singleton] at hc
      rcases hc with hc | rfl
      · exact ih (n / base) (Nat.div_lt_self (by omega) hlow) hc
      · have hdigit : n % base < base := Nat.mod_lt n (by omega)
        exact not_gap_digitChar _ (by omega)

/-- A number is written as one word. -/
theorem isWord_toString (n : ℕ) : IsWord (toString n) := by
  intro c hc
  rw [Nat.toString_eq_ofList_toDigits, String.toList_ofList] at hc
  exact not_gap_of_mem_toDigits (by decide) (by decide) hc

/-- Numbers are told apart by what is written for them. -/
theorem toString_inj {n m : ℕ} : toString n = toString m ↔ n = m := by
  constructor
  · intro h
    have hdigits : Nat.toDigits 10 n = Nat.toDigits 10 m := by
      rwa [Nat.toString_eq_ofList_toDigits, Nat.toString_eq_ofList_toDigits, String.ofList_inj] at h
    rw [← Nat.ofDigitChars_ten_toDigits (n := n), hdigits, Nat.ofDigitChars_ten_toDigits]
  · rintro rfl
    rfl

/-- A hexadecimal number is written as one word. -/
theorem isWord_hex (n : ℕ) : IsWord (hex n) := by
  intro c hc
  rw [hex, String.toList_ofList] at hc
  exact not_gap_of_mem_toDigits (by decide) (by decide) hc

/-- Two digits are one word. -/
theorem isWord_twoDigits (n : ℕ) : IsWord (twoDigits n) := by
  have hzero : IsWord "0" := by decide
  unfold twoDigits
  split_ifs
  · exact hzero.append (isWord_toString n)
  · exact isWord_toString n

/-- A padded number is one word. -/
theorem isWord_padded (width n : ℕ) : IsWord (padded width n) := by
  apply IsWord.append
  · intro c hc
    obtain rfl : c = '0' := by
      rw [String.toList_ofList] at hc
      exact (List.mem_replicate.mp hc).2
    decide
  · exact isWord_toString n

end Numeral

end WebHost
