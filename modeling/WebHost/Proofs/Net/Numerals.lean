import WebHost.Proofs.Net.Offsets
import WebHost.Proofs.Number.Digits

/-!
# The numerals of ports

A port is written as a numeral in one of four radices, which its beginning announces, with or without
a colon before it. The numerals in bounds are read as their exact value, however many zeros they
begin with, and nothing else is read. What is refused is told apart by its first colon alone: if
characters stand before it the text looks like an address, and otherwise the port is missing.
-/

set_option autoImplicit false

namespace WebHost.Port

open Text

variable {text digits : List Char} {base n : Nat} {s : String}

/-- A text begins like a numeral of a radix, and these are its digits. -/
inductive Announces : List Char → Nat → List Char → Prop
  | hexadecimal {mark : Char} (hmark : mark = 'x' ∨ mark = 'X') (digits : List Char) :
    Announces ('0' :: mark :: digits) 16 digits
  | octal {mark : Char} (hmark : mark = 'o' ∨ mark = 'O') (digits : List Char) :
    Announces ('0' :: mark :: digits) 8 digits
  | binary {mark : Char} (hmark : mark = 'b' ∨ mark = 'B') (digits : List Char) :
    Announces ('0' :: mark :: digits) 2 digits
  /-- A zero before anything else is octal, too. -/
  | zero {d : Char} (hd : d ∉ ['x', 'X', 'o', 'O', 'b', 'B']) (digits : List Char) :
    Announces ('0' :: d :: digits) 8 (d :: digits)
  | decimal {text : List Char} (htext : ∀ d digits, text ≠ '0' :: d :: digits) :
    Announces text 10 text

/-- A text spells a number: with or without a colon before them there are digits of a radix. -/
def Spells (s : String) (n : Nat) : Prop :=
  ∃ numeral base digits, (s.toList = numeral ∨ s.toList = ':' :: numeral) ∧
    Announces numeral base digits ∧ digits ≠ [] ∧ Numeral.Denotes base digits n

/-! ## The radix -/

/-- The radix that is found in front of a numeral is announced there. -/
theorem announces_radix (text : List Char) : Announces text (radix text).1 (radix text).2 := by
  unfold radix
  split
  case h_1 digits => exact .hexadecimal (.inl rfl) digits
  case h_2 digits => exact .hexadecimal (.inr rfl) digits
  case h_3 digits => exact .octal (.inl rfl) digits
  case h_4 digits => exact .octal (.inr rfl) digits
  case h_5 digits => exact .binary (.inl rfl) digits
  case h_6 digits => exact .binary (.inr rfl) digits
  case h_7 d digits hx hX ho hO hb hB =>
    apply Announces.zero
    simp only [List.mem_cons, List.not_mem_nil, or_false, not_or]
    exact ⟨hx, hX, ho, hO, hb, hB⟩
  case h_8 h => exact .decimal h

/-- What a numeral announces is the radix that is found. -/
theorem radix_of_announces (h : Announces text base digits) : radix text = (base, digits) := by
  cases h with
  | hexadecimal hmark => rcases hmark with rfl | rfl <;> rfl
  | octal hmark => rcases hmark with rfl | rfl <;> rfl
  | binary hmark => rcases hmark with rfl | rfl <;> rfl
  | zero hd digits =>
    simp only [List.mem_cons, List.not_mem_nil, or_false, not_or] at hd
    obtain ⟨hx, hX, ho, hO, hb, hB⟩ := hd
    unfold radix
    split <;> simp_all
  | decimal htext =>
    unfold radix
    split
    case h_8 => rfl
    all_goals exact absurd rfl (htext _ _)

/-- No numeral announces a base above sixteen. -/
theorem Announces.le (h : Announces text base digits) : base ≤ 16 := by
  cases h <;> decide

/-! ## Numerals -/

/-- A plus sign is no digit. -/
theorem not_isDigit_plus (base d : Nat) (hbase : base ≤ 16) : ¬ Numeral.IsDigit base '+' d := by
  intro h
  have hdigit := (Numeral.digit?_eq_some_iff hbase).mpr h
  have hnone : Numeral.digit? base '+' = none := rfl
  rw [hnone] at hdigit
  simp at hdigit

/-- A numeral in bounds is read as its value, and nothing else is read. -/
theorem readNumeral_eq_ok_iff (h : Announces text base digits) :
    readNumeral text = .ok n ↔ digits ≠ [] ∧ Numeral.Denotes base digits n ∧ n < 65536 := by
  rw [readNumeral, radix_of_announces h]
  simp only
  split
  · rename_i rest
    constructor
    · intro herror
      simp at herror
    -- a sign is not read, and no digit of any radix
    · rintro ⟨-, ⟨values, hvalues, -⟩, -⟩
      obtain ⟨d, -, hd, -⟩ := List.forall₂_cons_left_iff.mp hvalues
      exact absurd hd (not_isDigit_plus base d h.le)
  · rw [Numeral.read_eq_ok_iff h.le, Nat.lt_succ_iff]

/-- There is no numeral exactly if there is a colon and the text does not begin with one. -/
theorem numeralOf_eq_none_iff : numeralOf text = none ↔ ':' ∈ text ∧ text.head? ≠ some ':' := by
  unfold numeralOf
  split
  · simp
  · rename_i hhead
    have hne : text.head? ≠ some ':' := by
      intro h
      obtain ⟨rest, rfl⟩ := List.head?_eq_some_iff.mp h
      exact hhead rest rfl
    simp [hne]

/-- The numeral is what is behind a leading colon, or a text without colons. -/
theorem numeralOf_eq_some_iff {numeral : List Char} :
    numeralOf text = some numeral ↔ text = ':' :: numeral ∨ text = numeral ∧ ':' ∉ text := by
  unfold numeralOf
  split
  · simp [eq_comm]
  · rename_i hhead
    have hne : text ≠ ':' :: numeral := hhead numeral
    by_cases hcolon : ':' ∈ text
    · simp [hcolon, hne]
    · simp [hcolon, hne]

/-- A port is read exactly if its numeral reads as its number. -/
theorem parse_eq_ok_iff {port : Port} :
    parse s = .ok port ↔
      ∃ numeral, numeralOf s.toList = some numeral ∧ readNumeral numeral = .ok port.toNat := by
  unfold parse
  split_ifs with hempty
  · have hs : s.toList = [] := by simpa using hempty
    rw [hs]
    constructor
    · intro h
      simp at h
    · rintro ⟨numeral, hnumeral, hread⟩
      obtain rfl : [] = numeral := by simpa [numeralOf] using hnumeral
      simp [readNumeral, radix, Numeral.read] at hread
  · cases hnumeral : numeralOf s.toList with
    | none => simp
    | some numeral =>
      simp only [Option.some.injEq, exists_eq_left']
      cases hread : readNumeral numeral with
      | error fault => simp
      | ok n =>
        have hbound : n < 65536 :=
          ((readNumeral_eq_ok_iff (announces_radix numeral)).mp hread).2.2
        have hexact : (UInt16.ofNat n).toNat = n := UInt16.toNat_ofNat_of_lt' hbound
        simp only [Except.ok.injEq]
        constructor
        · rintro rfl
          exact hexact.symm
        · intro h
          rw [h, toNat, UInt16.ofNat_toNat]

/-- A refusal tells by the first colon what it takes the text for. -/
theorem fault_of_parse {e : PortError} (h : parse s = .error e) :
    e.fault = if ':' ∈ s.toList ∧ s.toList.head? ≠ some ':' then .invalidFormat
      else .missingPort := by
  unfold parse at h
  split_ifs at h with hempty
  · have hs : s.toList = [] := by simpa using hempty
    obtain rfl := Except.error.inj h
    simp [hs]
  · cases hnumeral : numeralOf s.toList with
    | none =>
      simp only [hnumeral] at h
      obtain rfl := Except.error.inj h
      rw [if_pos (numeralOf_eq_none_iff.mp hnumeral)]
    | some numeral =>
      have hcolon : ¬ (':' ∈ s.toList ∧ s.toList.head? ≠ some ':') := by
        rw [← numeralOf_eq_none_iff, hnumeral]
        simp
      simp only [hnumeral] at h
      rw [if_neg hcolon]
      split at h
      · simp at h
      · obtain rfl := Except.error.inj h
        rfl

/-! ## Ports -/

/-- A text with a numeral spells a port exactly if the numeral reads as its number. -/
theorem spells_iff_of_numeralOf {numeral : List Char} (hnumeral : numeralOf s.toList = some numeral) :
    Spells s n ∧ n < 65536 ↔ readNumeral numeral = .ok n := by
  constructor
  · rintro ⟨⟨numeral', base, digits, hs, hannounces, hne, hdenotes⟩, hn⟩
    have hread : readNumeral numeral' = .ok n :=
      (readNumeral_eq_ok_iff hannounces).mpr ⟨hne, hdenotes, hn⟩
    have hcolon : ':' ∉ numeral' := by
      intro hmem
      exact absurd (isAlphanum_of_readNumeral hread ':' hmem) (by decide)
    have hsame : numeral' = numeral := by
      rcases numeralOf_eq_some_iff.mp hnumeral with h | ⟨h, hno⟩
      · rcases hs with hs | hs
        · rw [← hs, h] at hcolon
          exact absurd List.mem_cons_self hcolon
        · exact (List.cons.inj (hs.symm.trans h)).2
      · rcases hs with hs | hs
        · exact hs.symm.trans h
        · rw [hs] at hno
          exact absurd List.mem_cons_self hno
    rwa [← hsame]
  · intro hread
    obtain ⟨hne, hdenotes, hn⟩ := (readNumeral_eq_ok_iff (announces_radix numeral)).mp hread
    refine ⟨⟨numeral, _, _, ?_, announces_radix numeral, hne, hdenotes⟩, hn⟩
    rcases numeralOf_eq_some_iff.mp hnumeral with h | ⟨h, -⟩
    · exact .inr h
    · exact .inl h

/-- A text that looks like an address spells no number. -/
theorem not_spells_of_numeralOf (hnumeral : numeralOf s.toList = none) (hn : n < 65536) :
    ¬ Spells s n := by
  rintro ⟨numeral, base, digits, hs, hannounces, hne, hdenotes⟩
  have hread : readNumeral numeral = .ok n :=
    (readNumeral_eq_ok_iff hannounces).mpr ⟨hne, hdenotes, hn⟩
  obtain ⟨hcolon, hhead⟩ := numeralOf_eq_none_iff.mp hnumeral
  rcases hs with hs | hs
  · rw [hs] at hcolon
    exact absurd (isAlphanum_of_readNumeral hread ':' hcolon) (by decide)
  · rw [hs] at hhead
    exact hhead rfl

/-- A text is read as a port exactly if it spells its number, and that is below 65536. -/
theorem exists_port_iff : (∃ p, parse s = .ok p ∧ p.toNat = n) ↔ Spells s n ∧ n < 65536 := by
  constructor
  · rintro ⟨p, hparse, rfl⟩
    obtain ⟨numeral, hnumeral, hread⟩ := parse_eq_ok_iff.mp hparse
    exact (spells_iff_of_numeralOf hnumeral).mpr hread
  · intro h
    cases hnumeral : numeralOf s.toList with
    | none => exact absurd h.1 (not_spells_of_numeralOf hnumeral h.2)
    | some numeral =>
      have hread := (spells_iff_of_numeralOf hnumeral).mp h
      have hexact : (UInt16.ofNat n).toNat = n := UInt16.toNat_ofNat_of_lt' h.2
      refine ⟨⟨UInt16.ofNat n⟩, parse_eq_ok_iff.mpr ⟨numeral, hnumeral, ?_⟩, hexact⟩
      rwa [toNat, hexact]

/-- A text is refused exactly if it spells no port. -/
theorem exists_refusal_iff : (∃ e, parse s = .error e) ↔ ¬ ∃ n < 65536, Spells s n := by
  cases hparse : parse s with
  | ok p =>
    have hspells := exists_port_iff.mp ⟨p, hparse, rfl⟩
    simpa using ⟨p.toNat, hspells.2, hspells.1⟩
  | error e =>
    simp only [Except.error.injEq, exists_eq', true_iff]
    rintro ⟨n, hn, hspells⟩
    obtain ⟨p, hp, -⟩ := exists_port_iff.mpr ⟨hspells, hn⟩
    rw [hparse] at hp
    simp at hp

/-- A refused text is faulted for its format if it has a colon and does not begin with one, and else
for its port. -/
theorem exists_fault_iff {fault : AddressFault} :
    (∃ e, parse s = .error e ∧ e.fault = fault) ↔
      (¬ ∃ n < 65536, Spells s n) ∧
        fault = if ':' ∈ s.toList ∧ s.toList.head? ≠ some ':' then .invalidFormat
          else .missingPort := by
  rw [← exists_refusal_iff]
  constructor
  · rintro ⟨e, hparse, rfl⟩
    exact ⟨⟨e, hparse⟩, fault_of_parse hparse⟩
  · rintro ⟨⟨e, hparse⟩, rfl⟩
    exact ⟨e, hparse, fault_of_parse hparse⟩

/-- The numbers below the bound are read exactly from the texts that spell them, a refusal is for the
format if something stands before the first colon and for a missing port otherwise, and the text is
cut only where it can be cut. -/
theorem parse_reads_numerals (s : String) :
    (∀ n, (∃ p, parse s = .ok p ∧ p.toNat = n) ↔ Spells s n ∧ n < 65536) ∧
    ((∃ e, parse s = .error e ∧ e.fault = .invalidFormat) ↔
      (¬ ∃ n < 65536, Spells s n) ∧ ':' ∈ s.toList ∧ s.toList.head? ≠ some ':') ∧
    ((∃ e, parse s = .error e ∧ e.fault = .missingPort) ↔
      (¬ ∃ n < 65536, Spells s n) ∧ ¬ (':' ∈ s.toList ∧ s.toList.head? ≠ some ':')) ∧
    parseAt? s = some (parse s) := by
  refine ⟨fun n => exists_port_iff, ?_, ?_, parseAt?_eq s⟩
  · rw [exists_fault_iff]
    by_cases hcolon : ':' ∈ s.toList ∧ s.toList.head? ≠ some ':' <;> simp [hcolon]
  · rw [exists_fault_iff]
    by_cases hcolon : ':' ∈ s.toList ∧ s.toList.head? ≠ some ':' <;> simp [hcolon]

end WebHost.Port
