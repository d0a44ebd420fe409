import WebHost.Proofs.Encoding.Percent
import WebHost.Proofs.Number.Digits
import WebHost.Proofs.Text.Offset

/-!
# Escaped texts

The bytes of a text may be written as escapes, each as a percent sign and two hexadecimal digits, as
long as every percent sign is. Such a text is decoded to the one that was written, whichever bytes
were chosen and whichever case the digits have. Conversely, what is decoded is written in this way,
unless a plus sign stands for the first digit of an escape: a number may have a sign, and so such an
escape is taken for the byte of its second digit.
-/

set_option autoImplicit false

namespace WebHost.Percent

open Text Numeral

variable {c : Char} {text rest : List Char} {bytes written : Bytes}

/-- The byte of an ASCII character. -/
def octet (c : Char) : UInt8 := UInt8.ofNat c.toNat

/-- Bytes are written with some of them as escapes, and with every percent sign as one. -/
inductive Escapes : Bytes → Bytes → Prop
  | nil : Escapes [] []
  | plain {b : UInt8} {bytes written : Bytes} (hb : b ≠ octet '%') (h : Escapes bytes written) :
    Escapes (b :: bytes) (b :: written)
  | escape {high low : Char} {first second : Nat} {bytes written : Bytes}
    (hhigh : IsDigit 16 high first) (hlow : IsDigit 16 low second) (h : Escapes bytes written) :
    Escapes (UInt8.ofNat (first * 16 + second) :: bytes)
      (octet '%' :: octet high :: octet low :: written)

/-- Two hexadecimal digits follow every percent sign of a text. -/
def HasWholeEscapes (text : List Char) : Prop :=
  ∀ front rest, text = front ++ '%' :: rest →
    ∃ high low after, rest = high :: low :: after ∧
      (∃ d, IsDigit 16 high d) ∧ ∃ d, IsDigit 16 low d

/-! ## Digits -/

/-- What is not read as a digit denotes none. -/
theorem not_isDigit {c : Char} (hc : digit? 16 c = none) (d : Nat) : ¬ IsDigit 16 c d := by
  intro h
  rw [(digit?_eq_some_iff le_rfl).mpr h] at hc
  simp at hc

/-- Digits are characters of seven bits. -/
theorem ascii_of_isDigit {d : Nat} (h : IsDigit 16 c d) : c.toNat < 0x80 := by
  have hascii : ∀ d < 16, d.digitChar.toNat < 0x80 ∧ d.digitChar.toUpper.toNat < 0x80 := by decide
  obtain ⟨hd, rfl | rfl⟩ := h
  · exact (hascii d hd).1
  · exact (hascii d hd).2

/-- An escape has two digits, or a sign and a digit. -/
theorem byte?_eq_some_iff {high low : Char} {b : UInt8} :
    byte? high low = some b ↔
      ∃ second, IsDigit 16 low second ∧
        (high = '+' ∧ b = UInt8.ofNat second ∨
          ∃ first, IsDigit 16 high first ∧ b = UInt8.ofNat (first * 16 + second)) := by
  have hiff (c : Char) (d : Nat) : IsDigit 16 c d ↔ digit? 16 c = some d :=
    (digit?_eq_some_iff le_rfl).symm
  have hplus : digit? 16 '+' = none := rfl
  unfold byte?
  cases hlow : digit? 16 low with
  | none => simp [hiff, hlow]
  | some l =>
    by_cases hsign : high = '+'
    · subst hsign
      simp [hiff, hlow, hplus, eq_comm]
    · cases hhigh : digit? 16 high <;> simp [hiff, hlow, hhigh, hsign, eq_comm]

/-! ## Bytes of a text -/

/-- The bytes of a text are those of its first character and then those of the rest. -/
theorem bytes_cons (c : Char) (text : List Char) :
    Text.bytes (c :: text) = String.utf8EncodeChar c ++ Text.bytes text := List.flatMap_cons

/-- A character of seven bits is a single byte. -/
theorem bytes_cons_ascii (hc : c.toNat < 0x80) (text : List Char) :
    Text.bytes (c :: text) = octet c :: Text.bytes text := by
  rw [bytes_cons, Utf8.encodeChar_of_ascii hc]
  rfl

/-- The encoding of a text is its bytes. -/
theorem encode_eq_bytes (text : String) : Utf8.encode text = Text.bytes text.toList :=
  Utf8.encode_eq_flatMap text

/-- Different characters of seven bits are different bytes. -/
theorem octet_inj {d : Char} (hc : c.toNat < 0x80) (hd : d.toNat < 0x80) (h : octet c = octet d) :
    c = d := by
  have hnat := congrArg UInt8.toNat h
  rw [octet, octet, UInt8.toNat_ofNat', UInt8.toNat_ofNat'] at hnat
  apply Char.toNat_inj.mp
  omega

/-- The byte of an ASCII character begins the encoding of no other character. -/
theorem eq_of_octet_mem_encodeChar {d : Char} (hc : c.toNat < 0x80)
    (h : octet c ∈ String.utf8EncodeChar d) : d = c := by
  by_cases hd : d.toNat < 0x80
  · rw [Utf8.encodeChar_of_ascii hd, List.mem_singleton] at h
    exact (octet_inj hc hd h).symm
  · have hlarge := Utf8.le_of_mem_encodeChar (Nat.le_of_not_lt hd) h
    rw [octet, UInt8.toNat_ofNat'] at hlarge
    omega

/-- A byte of seven bits at the front comes from a character at the front. -/
theorem exists_eq_cons_of_bytes (hc : c.toNat < 0x80) (h : Text.bytes text = octet c :: written) :
    ∃ rest, text = c :: rest ∧ Text.bytes rest = written := by
  cases text with
  | nil => simp [Text.bytes] at h
  | cons d rest =>
    have hne : String.utf8EncodeChar d ≠ [] := by
      intro hnil
      have hpos := d.utf8Size_pos
      rw [← String.length_utf8EncodeChar, hnil] at hpos
      exact absurd hpos (by decide)
    obtain ⟨b, more, hd⟩ := List.exists_cons_of_ne_nil hne
    have hmem : octet c ∈ String.utf8EncodeChar d := by
      rw [bytes_cons, hd, List.cons_append] at h
      rw [hd, (List.cons.inj h).1]
      exact List.mem_cons_self
    obtain rfl := eq_of_octet_mem_encodeChar hc hmem
    rw [bytes_cons_ascii hc] at h
    exact ⟨rest, rfl, (List.cons.inj h).2⟩

/-- The percent sign has seven bits. -/
theorem percent_ascii : '%'.toNat < 0x80 := by decide

/-- The byte of the percent sign stands in no other character. -/
theorem ne_percent_of_mem_encodeChar (hc : c ≠ '%') :
    ∀ b ∈ String.utf8EncodeChar c, b ≠ octet '%' := by
  rintro b hb rfl
  exact hc (eq_of_octet_mem_encodeChar percent_ascii hb)

/-! ## What is written -/

/-- Bytes that are no percent signs may stand for themselves. -/
theorem Escapes.append_plain {front : Bytes} (hfront : ∀ b ∈ front, b ≠ octet '%')
    (h : Escapes bytes written) : Escapes (front ++ bytes) (front ++ written) := by
  induction front with
  | nil => exact h
  | cons b front ih =>
    obtain ⟨hb, hfront⟩ := List.forall_mem_cons.mp hfront
    exact .plain hb (ih hfront)

/-- No escape begins with another byte, so that those without a percent sign stand for themselves. -/
theorem Escapes.of_append_plain {front : Bytes} (hfront : ∀ b ∈ front, b ≠ octet '%')
    (h : Escapes bytes (front ++ written)) : ∃ after, bytes = front ++ after ∧ Escapes after written := by
  induction front generalizing bytes with
  | nil => exact ⟨bytes, rfl, h⟩
  | cons b front ih =>
    obtain ⟨hb, hfront⟩ := List.forall_mem_cons.mp hfront
    generalize hall : b :: front ++ written = all at h
    cases h with
    | nil => simp at hall
    | plain _ h =>
      obtain ⟨rfl, rfl⟩ := List.cons.inj hall
      obtain ⟨after, rfl, hafter⟩ := ih hfront h
      exact ⟨after, rfl, hafter⟩
    | escape => exact absurd (List.cons.inj hall).1 hb

/-- A plain character stands for its own bytes. -/
theorem escapes_plain_iff (hc : c ≠ '%') :
    Escapes bytes (Text.bytes (c :: rest)) ↔
      ∃ after, bytes = String.utf8EncodeChar c ++ after ∧ Escapes after (Text.bytes rest) := by
  rw [bytes_cons]
  constructor
  · exact Escapes.of_append_plain (ne_percent_of_mem_encodeChar hc)
  · rintro ⟨after, rfl, h⟩
    exact h.append_plain (ne_percent_of_mem_encodeChar hc)

/-- A percent sign stands for a byte, with the two digits behind it. -/
theorem escapes_percent_iff :
    Escapes bytes (Text.bytes ('%' :: rest)) ↔
      ∃ high low after first second behind, rest = high :: low :: after ∧
        IsDigit 16 high first ∧ IsDigit 16 low second ∧
        bytes = UInt8.ofNat (first * 16 + second) :: behind ∧
        Escapes behind (Text.bytes after) := by
  rw [bytes_cons_ascii percent_ascii]
  constructor
  · intro h
    generalize hwritten : octet '%' :: Text.bytes rest = written at h
    cases h with
    | nil => simp at hwritten
    | plain hb => exact absurd (List.cons.inj hwritten).1.symm hb
    | escape hhigh hlow h =>
      -- the digits are ASCII, and so they are characters of their own
      obtain ⟨after, rfl, hafter⟩ :=
        exists_eq_cons_of_bytes (ascii_of_isDigit hhigh) (List.cons.inj hwritten).2
      obtain ⟨after', rfl, rfl⟩ := exists_eq_cons_of_bytes (ascii_of_isDigit hlow) hafter
      exact ⟨_, _, after', _, _, _, rfl, hhigh, hlow, rfl, h⟩
  · rintro ⟨high, low, after, first, second, behind, rfl, hhigh, hlow, rfl, h⟩
    rw [bytes_cons_ascii (ascii_of_isDigit hhigh), bytes_cons_ascii (ascii_of_isDigit hlow)]
    exact .escape hhigh hlow h

/-! ## Whole escapes -/

/-- The empty text has no broken escape. -/
theorem hasWholeEscapes_nil : HasWholeEscapes [] := by
  intro front rest h
  simp at h

/-- A plain character breaks no escape. -/
theorem hasWholeEscapes_plain_iff (hc : c ≠ '%') :
    HasWholeEscapes (c :: rest) ↔ HasWholeEscapes rest := by
  constructor
  · intro h front after hrest
    exact h (c :: front) after (by rw [hrest, List.cons_append])
  · intro h front after htext
    cases front with
    | nil => exact absurd (List.cons.inj htext).1 hc
    | cons d front => exact h front after (List.cons.inj htext).2

/-- An escape is whole if two digits stand behind its percent sign. -/
theorem hasWholeEscapes_percent_iff :
    HasWholeEscapes ('%' :: rest) ↔
      ∃ high low after, rest = high :: low :: after ∧ (∃ d, IsDigit 16 high d) ∧
        (∃ d, IsDigit 16 low d) ∧ HasWholeEscapes after := by
  have hpercent : ∀ d, ¬ IsDigit 16 '%' d := fun d => not_isDigit rfl d
  constructor
  · intro h
    obtain ⟨high, low, after, rfl, hhigh, hlow⟩ := h [] rest rfl
    refine ⟨high, low, after, rfl, hhigh, hlow, ?_⟩
    intro front rest hafter
    exact h ('%' :: high :: low :: front) rest (by rw [hafter]; rfl)
  · rintro ⟨high, low, after, rfl, ⟨d, hhigh⟩, ⟨d', hlow⟩, h⟩ front rest htext
    -- no digit is a percent sign, so the next one stands behind the escape
    match front with
    | [] => exact ⟨high, low, after, (List.cons.inj htext).2.symm, ⟨d, hhigh⟩, ⟨d', hlow⟩⟩
    | [_] =>
      obtain ⟨rfl, -⟩ := List.cons.inj (List.cons.inj htext).2
      exact absurd hhigh (hpercent d)
    | [_, _] =>
      obtain ⟨rfl, -⟩ := List.cons.inj (List.cons.inj (List.cons.inj htext).2).2
      exact absurd hlow (hpercent d')
    | _ :: _ :: _ :: front =>
      exact h front rest (List.cons.inj (List.cons.inj (List.cons.inj htext).2).2).2

/-- A text is written with escapes exactly if its percent signs begin whole ones. -/
theorem exists_escapes_iff : (∃ bytes, Escapes bytes (Text.bytes text)) ↔ HasWholeEscapes text := by
  induction text using induction_on_signs with
  | nil => exact ⟨fun _ => hasWholeEscapes_nil, fun _ => ⟨[], .nil⟩⟩
  | plain c rest hc ih =>
    rw [hasWholeEscapes_plain_iff hc, ← ih]
    simp only [escapes_plain_iff hc]
    constructor
    · rintro ⟨bytes, after, -, h⟩
      exact ⟨after, h⟩
    · rintro ⟨after, h⟩
      exact ⟨_, after, rfl, h⟩
  | percent rest ih =>
    simp only [escapes_percent_iff, hasWholeEscapes_percent_iff]
    constructor
    · rintro ⟨bytes, high, low, after, first, second, behind, hrest, hhigh, hlow, -, h⟩
      have hafter := (ih high low after hrest).mp ⟨behind, h⟩
      exact ⟨high, low, after, hrest, ⟨first, hhigh⟩, ⟨second, hlow⟩, hafter⟩
    · rintro ⟨high, low, after, hrest, ⟨first, hhigh⟩, ⟨second, hlow⟩, hafter⟩
      obtain ⟨behind, h⟩ := (ih high low after hrest).mpr hafter
      exact ⟨_, high, low, after, first, second, behind, hrest, hhigh, hlow, rfl, h⟩

/-! ## Decoding -/

/-- A text spells the bytes that its escapes and its plain characters stand for. -/
theorem spells_of_escapes (h : Escapes bytes (Text.bytes text)) : Spells text bytes := by
  induction text using induction_on_signs generalizing bytes with
  | nil =>
    cases h
    exact .nil
  | plain c rest hc ih =>
    obtain ⟨after, rfl, hafter⟩ := (escapes_plain_iff hc).mp h
    exact .plain hc (ih hafter)
  | percent rest ih =>
    obtain ⟨high, low, after, first, second, behind, rfl, hhigh, hlow, rfl, hbehind⟩ :=
      escapes_percent_iff.mp h
    have hbyte : byte? high low = some (UInt8.ofNat (first * 16 + second)) :=
      byte?_eq_some_iff.mpr ⟨second, hlow, .inr ⟨first, hhigh, rfl⟩⟩
    exact .escape hbyte (ih high low after rfl hbehind)

/-- A text without a sign in an escape is written as it is read. -/
theorem escapes_of_spells (h : Spells text bytes) (hsign : ¬ ['%', '+'] <:+: text) :
    Escapes bytes (Text.bytes text) := by
  induction h with
  | nil => exact .nil
  | @plain c rest bytes hc h ih =>
    have hrest := ih fun hinfix => hsign (List.infix_cons hinfix)
    exact (escapes_plain_iff hc).mpr ⟨bytes, rfl, hrest⟩
  | @escape high low b rest bytes hb h ih =>
    have hrest := ih fun hinfix =>
      hsign (List.infix_cons (List.infix_cons (List.infix_cons hinfix)))
    obtain ⟨second, hlow, ⟨rfl, -⟩ | ⟨first, hhigh, rfl⟩⟩ := byte?_eq_some_iff.mp hb
    · exact absurd ⟨[], low :: rest, rfl⟩ hsign
    · apply escapes_percent_iff.mpr
      exact ⟨high, low, rest, first, second, bytes, rfl, hhigh, hlow, rfl, hrest⟩

/-- However a text was written with escapes, it is decoded. -/
theorem decode?_of_escapes {text decoded : String}
    (h : Escapes (Utf8.encode decoded) (Utf8.encode text)) : decode? text = some decoded := by
  rw [encode_eq_bytes text] at h
  exact decode?_eq_some_iff.mpr (spells_of_escapes h)

/-- A text is decoded if its percent signs begin whole escapes and the bytes that it is written for
are those of a text, and then to this text. -/
structure IsExact (text : String) : Prop where
  succeeds : (decode? text).isSome ↔ HasWholeEscapes text.toList ∧
    ∃ decoded, Escapes (Utf8.encode decoded) (Utf8.encode text)
  result : ∀ decoded, decode? text = some decoded → Escapes (Utf8.encode decoded) (Utf8.encode text)

/-- A text is decoded as it should be unless it is decoded with a plus sign in an escape. -/
theorem isExact_iff (text : String) :
    IsExact text ↔ ¬ ((decode? text).isSome ∧ ['%', '+'] <:+: text.toList) := by
  constructor
  · rintro hexact ⟨hsome, front, rest, htext⟩
    obtain ⟨high, low, after, hrest, ⟨d, hhigh⟩, -⟩ :=
      (hexact.succeeds.mp hsome).1 front ('+' :: rest) (by simpa using htext.symm)
    obtain rfl : '+' = high := (List.cons.inj hrest).1
    exact not_isDigit rfl d hhigh
  · intro hsign
    have hresult : ∀ decoded, decode? text = some decoded →
        Escapes (Utf8.encode decoded) (Utf8.encode text) := by
      intro decoded h
      have hno : ¬ ['%', '+'] <:+: text.toList := fun hinfix => hsign ⟨by rw [h]; rfl, hinfix⟩
      rw [encode_eq_bytes text]
      exact escapes_of_spells (decode?_eq_some_iff.mp h) hno
    refine ⟨?_, hresult⟩
    constructor
    · intro hsome
      obtain ⟨decoded, h⟩ := Option.isSome_iff_exists.mp hsome
      have hwritten := hresult decoded h
      refine ⟨exists_escapes_iff.mp ⟨Utf8.encode decoded, ?_⟩, decoded, hwritten⟩
      rwa [← encode_eq_bytes]
    · rintro ⟨-, decoded, h⟩
      rw [decode?_of_escapes h]
      rfl

end WebHost.Percent
