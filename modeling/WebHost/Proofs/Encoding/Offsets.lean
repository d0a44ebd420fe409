import WebHost.Proofs.Encoding.Escapes

/-!
# Reading escapes in place

A text can be decoded by offsets into its bytes: a percent sign is looked for byte by byte, and what
follows it is cut out of the text and read as a number. No byte of a longer character is that of a
percent sign, so that one is found only where a character begins. The cut may still fall within a
character, or hold one character of two bytes; neither gives a number, just as characters that are no
digits do not. So both ways to decode a text agree.
-/

set_option autoImplicit false

namespace WebHost.Percent

open Text Numeral

variable {c : Char} {text rest : List Char}

/-- A byte in hexadecimal, read like any number: it may have a sign. -/
def number? (hex : List Char) : Option UInt8 :=
  let digits := match hex with
    | '+' :: d :: digits => d :: digits
    | _ => hex
  (Numeral.read 16 255 digits).toOption.map UInt8.ofNat

/-- Reads the bytes of a text from an offset on, those of an escape as one. -/
def bytesFrom? (text : List Char) (i : Nat) : Option Bytes :=
  match h : (Text.bytes text)[i]? with
  | none => some []
  | some b =>
    if b = octet '%' then
      ((slice? (i + 1) (i + 3) text).bind number?).bind fun v =>
        (bytesFrom? text (i + 3)).map (v :: ·)
    else (bytesFrom? text (i + 1)).map (b :: ·)
termination_by (Text.bytes text).length - i
decreasing_by
  all_goals
    have hlt := (List.getElem?_eq_some_iff.mp h).1
    omega

/-- Decodes a text by offsets into its bytes; one without a percent sign is left as it is. -/
def decodeInPlace? (text : String) : Option String :=
  if '%' ∈ text.toList then (bytesFrom? text.toList 0).bind Utf8.decode? else some text

/-! ## What follows a percent sign -/

/-- A number without a sign in front is its digits. -/
theorem number?_of_ne_plus (hc : c ≠ '+') (rest : List Char) :
    number? (c :: rest) = (Numeral.read 16 255 (c :: rest)).toOption.map UInt8.ofNat := by
  unfold number?
  split
  · rename_i heq
    exact absurd (List.cons.inj heq).1 hc
  · rfl

/-- One more digit is read if the value stays in bounds. -/
theorem readFrom_of_digit? {base bound value d : Nat} (hd : digit? base c = some d)
    (hbound : value * base + d ≤ bound) (rest : List Char) :
    readFrom base bound value (c :: rest) = readFrom base bound (value * base + d) rest := by
  rw [readFrom, hd]
  exact if_neg (Nat.not_lt_of_le hbound)

/-- To read a number from a digit on is to go on from its value. -/
theorem read_of_digit? {d : Nat} (hd : digit? 16 c = some d) (rest : List Char) :
    Numeral.read 16 255 (c :: rest) = readFrom 16 255 d rest := by
  have hlt := lt_of_digit? hd
  have hfirst := readFrom_of_digit? hd (by omega : 0 * 16 + d ≤ 255) rest
  rw [Nat.zero_mul, Nat.zero_add] at hfirst
  exact hfirst

/-- The number of two characters is the byte that they write. -/
theorem number?_pair (high low : Char) : number? [high, low] = byte? high low := by
  unfold byte?
  by_cases hsign : high = '+'
  · subst hsign
    show (Numeral.read 16 255 [low]).toOption.map UInt8.ofNat = _
    cases hlow : digit? 16 low with
    | none =>
      simp only [Numeral.read, readFrom, hlow]
      rfl
    | some l =>
      rw [read_of_digit? hlow]
      rfl
  · rw [number?_of_ne_plus hsign]
    cases hhigh : digit? 16 high with
    | none =>
      simp only [Numeral.read, readFrom, hhigh, if_neg hsign]
      cases digit? 16 low <;> rfl
    | some h =>
      have hh := lt_of_digit? hhigh
      rw [read_of_digit? hhigh]
      cases hlow : digit? 16 low with
      | none =>
        rw [readFrom, hlow]
        rfl
      | some l =>
        have hl := lt_of_digit? hlow
        rw [readFrom_of_digit? hlow (by omega)]
        simp only [if_neg hsign]
        rfl

/-- A single character of more than seven bits is no number. -/
theorem number?_singleton (hc : ¬ c.toNat < 0x80) : number? [c] = none := by
  have hsign : c ≠ '+' := by
    rintro rfl
    exact hc (by decide)
  have hdigit : digit? 16 c = none := by
    cases h : digit? 16 c with
    | none => rfl
    | some d => exact absurd (ascii_of_isDigit ((digit?_eq_some_iff le_rfl).mp h)) hc
  rw [number?_of_ne_plus hsign, Numeral.read, readFrom, hdigit]
  rfl

/-- The characters that write a byte have seven bits. -/
theorem ascii_of_byte? {high low : Char} {b : UInt8} (h : byte? high low = some b) :
    high.toNat < 0x80 ∧ low.toNat < 0x80 := by
  obtain ⟨second, hlow, hhigh⟩ := byte?_eq_some_iff.mp h
  refine ⟨?_, ascii_of_isDigit hlow⟩
  obtain ⟨rfl, -⟩ | ⟨first, hfirst, -⟩ := hhigh
  · decide
  · exact ascii_of_isDigit hfirst

/-- A character takes one byte if it has seven bits. -/
theorem utf8Size_eq_one_iff : c.utf8Size = 1 ↔ c.toNat < 0x80 := by
  rw [Char.utf8Size_eq_one_iff, UInt32.le_iff_toNat_le]
  exact Nat.le_iff_lt_add_one

/-- A character of more than seven bits takes more than one byte. -/
theorem one_lt_utf8Size (hc : ¬ c.toNat < 0x80) : 1 < c.utf8Size := by
  have hpos := c.utf8Size_pos
  have hone : c.utf8Size ≠ 1 := fun hone => hc (utf8Size_eq_one_iff.mp hone)
  omega

/-- One byte more, if the first character has seven bits, is that character and the rest. -/
theorem takeBytes?_succ_ascii (hc : c.toNat < 0x80) (n : Nat) (rest : List Char) :
    takeBytes? (n + 1) (c :: rest) = (takeBytes? n rest).map (c :: ·) := by
  rw [Nat.add_comm, ← utf8Size_eq_one_iff.mpr hc, takeBytes?_cons]

/-- A cut of two bytes is no number if it holds a longer character. -/
theorem takeBytes?_bind_number?_of_long (hc : ¬ c.toNat < 0x80) (rest : List Char) :
    (takeBytes? 2 (c :: rest)).bind number? = none := by
  have hsize := one_lt_utf8Size hc
  rw [takeBytes?]
  split
  · have hzero : 1 + 1 - c.utf8Size = 0 := by omega
    rw [hzero, takeBytes?]
    exact number?_singleton hc
  · rfl

/-- Two bytes are a number exactly if they are two characters that make an escape. -/
theorem takeBytes?_bind_number? (rest : List Char) :
    (takeBytes? 2 rest).bind number? =
      match rest with
      | high :: low :: _ => byte? high low
      | _ => none := by
  match rest with
  | [] => rfl
  | [high] =>
    by_cases hhigh : high.toNat < 0x80
    · rw [takeBytes?_succ_ascii hhigh]
      rfl
    · exact takeBytes?_bind_number?_of_long hhigh []
  | high :: low :: after =>
    by_cases hascii : high.toNat < 0x80 ∧ low.toNat < 0x80
    · rw [takeBytes?_succ_ascii hascii.1, takeBytes?_succ_ascii hascii.2, takeBytes?]
      exact number?_pair high low
    · have hnone : byte? high low = none := by
        cases hb : byte? high low with
        | none => rfl
        | some b => exact absurd (ascii_of_byte? hb) hascii
      simp only [hnone]
      by_cases hhigh : high.toNat < 0x80
      · have hlow : ¬ low.toNat < 0x80 := fun hlow => hascii ⟨hhigh, hlow⟩
        have hlong : ¬ low.utf8Size ≤ 0 + 1 := Nat.not_le_of_lt (one_lt_utf8Size hlow)
        rw [takeBytes?_succ_ascii hhigh, takeBytes?, if_neg hlong]
        rfl
      · exact takeBytes?_bind_number?_of_long hhigh (low :: after)

/-! ## Offsets -/

/-- What is read from an offset on, one byte or one escape after the other. -/
theorem bytesFrom?_eq (text : List Char) (i : Nat) :
    bytesFrom? text i =
      match (Text.bytes text)[i]? with
      | none => some []
      | some b =>
        if b = octet '%' then
          ((slice? (i + 1) (i + 3) text).bind number?).bind fun v =>
            (bytesFrom? text (i + 3)).map (v :: ·)
        else (bytesFrom? text (i + 1)).map (b :: ·) := by
  rw [bytesFrom?]
  split
  · rename_i h
    rw [h]
  · rename_i b h
    rw [h]

/-- Bytes that are no percent signs are passed one by one. -/
theorem bytesFrom?_plain {middle behind : Bytes} (front : Bytes)
    (hmiddle : ∀ b ∈ middle, b ≠ octet '%')
    (htext : Text.bytes text = front ++ (middle ++ behind)) :
    bytesFrom? text front.length =
      (bytesFrom? text (front ++ middle).length).map (middle ++ ·) := by
  induction middle generalizing front with
  | nil => simp
  | cons b middle ih =>
    obtain ⟨hb, hmiddle⟩ := List.forall_mem_cons.mp hmiddle
    have hget : (Text.bytes text)[front.length]? = some b := by
      rw [htext, List.getElem?_append_right (Nat.le_refl _), Nat.sub_self]
      rfl
    have hnext := ih (front ++ [b]) hmiddle (by rw [htext]; simp)
    rw [bytesFrom?_eq, hget]
    simp only [if_neg hb]
    rw [List.length_append, List.length_singleton] at hnext
    rw [hnext, Option.map_map]
    simp [Function.comp_def]

/-- The slice behind a percent sign is the front of the text behind it. -/
theorem slice?_after_percent (front rest : List Char) :
    slice? (byteSize front + 1) (byteSize front + 3) (front ++ '%' :: rest) =
      takeBytes? 2 rest := by
  have hsize : byteSize (front ++ ['%']) = byteSize front + 1 := by simp [byteSize]; decide
  have hdrop := dropBytes?_append (front ++ ['%']) rest
  rw [hsize, List.append_assoc, List.singleton_append] at hdrop
  rw [slice?, if_pos (by omega), hdrop, Option.bind_some]
  congr 1
  omega

/-- From the end of some characters on, the bytes are read that the others spell. -/
theorem bytesFrom?_append (front rest : List Char) :
    bytesFrom? (front ++ rest) (byteSize front) = bytes? rest := by
  induction rest using induction_on_signs generalizing front with
  | nil =>
    rw [bytesFrom?_eq, getElem?_bytes_append]
    rfl
  | plain c rest hc ih =>
    have htext : Text.bytes (front ++ c :: rest) =
        Text.bytes front ++ (String.utf8EncodeChar c ++ Text.bytes rest) := by
      rw [← bytes_cons]
      exact List.flatMap_append
    have hsize : (Text.bytes front ++ String.utf8EncodeChar c).length =
        byteSize (front ++ [c]) := by
      rw [List.length_append, length_bytes, String.length_utf8EncodeChar, byteSize_append,
        byteSize, byteSize, Nat.add_zero]
    have hskip := bytesFrom?_plain (Text.bytes front) (ne_percent_of_mem_encodeChar hc) htext
    have hnext := ih (front ++ [c])
    rw [List.append_assoc, List.singleton_append] at hnext
    rw [length_bytes, hsize, hnext] at hskip
    rw [hskip, bytes?_plain hc]
  | percent rest ih =>
    have hget : (Text.bytes ('%' :: rest))[0]? = some (octet '%') := by
      rw [bytes_cons_ascii percent_ascii]
      rfl
    rw [bytesFrom?_eq, getElem?_bytes_append, hget]
    simp only [if_pos]
    rw [slice?_after_percent, takeBytes?_bind_number?]
    rcases rest with _ | ⟨high, _ | ⟨low, after⟩⟩
    · rfl
    · rfl
    rw [bytes?_escape]
    cases hb : byte? high low with
    | none =>
      simp only [hb]
      rfl
    | some b =>
      obtain ⟨hhigh, hlow⟩ := ascii_of_byte? hb
      have hsize : byteSize (front ++ ['%', high, low]) = byteSize front + 3 := by
        simp only [byteSize_append, byteSize, utf8Size_eq_one_iff.mpr hhigh,
          utf8Size_eq_one_iff.mpr hlow]
        rfl
      have hnext := ih high low after rfl (front ++ ['%', high, low])
      rw [hsize, List.append_assoc] at hnext
      simp only [hb, Option.bind_some]
      exact congrArg (Option.map (b :: ·)) hnext

/-- To decode by offsets is to decode by characters. -/
theorem decodeInPlace?_eq (text : String) : decodeInPlace? text = decode? text := by
  unfold decodeInPlace?
  split
  · have hbytes : bytesFrom? text.toList 0 = bytes? text.toList := bytesFrom?_append [] text.toList
    rw [hbytes, decode?]
  · rename_i hpercent
    have hplain : ∀ b ∈ Utf8.encode text, b ≠ octet '%' := by
      intro b hb
      rw [encode_eq_bytes] at hb
      obtain ⟨c, hc, hb⟩ := List.mem_flatMap.mp hb
      apply ne_percent_of_mem_encodeChar _ b hb
      rintro rfl
      exact hpercent hc
    have hself : Escapes (Utf8.encode text ++ []) (Utf8.encode text ++ []) :=
      Escapes.nil.append_plain hplain
    rw [List.append_nil] at hself
    exact (decode?_of_escapes hself).symm

/-! ## Exactness -/

/-- A text is decoded exactly unless a sign stands in one of its escapes and it is decoded all the
same. Whatever was written with escapes is decoded, whether in place or sign by sign. -/
theorem decodes_exactly_iff (text : String) :
    decodeInPlace? text = decode? text ∧
      (IsExact text ↔ ¬ ((decode? text).isSome ∧ ['%', '+'] <:+: text.toList)) ∧
      ∀ decoded, Escapes (Utf8.encode decoded) (Utf8.encode text) → decode? text = some decoded := by
  refine ⟨decodeInPlace?_eq text, isExact_iff text, ?_⟩
  intro decoded h
  exact decode?_of_escapes h

/-- A percent sign and both bytes of a letter are written as escapes, with digits of either case. -/
theorem decodes_exactly_mixed_digits :
    Escapes (Utf8.encode "%é/") (Utf8.encode "%25%c3%A9/") ∧ decode? "%25%c3%A9/" = some "%é/" ∧
      IsExact "%25%c3%A9/" := by
  obtain ⟨-, hexact, hdecoded⟩ := decodes_exactly_iff "%25%c3%A9/"
  have hwritten : Escapes (Utf8.encode "%é/") (Utf8.encode "%25%c3%A9/") := by
    have hslash : Escapes (Text.bytes ['/']) (Text.bytes ['/']) := .plain (by decide) .nil
    have hsecond : Escapes (0xA9 :: Text.bytes ['/']) (Text.bytes ['%', 'A', '9', '/']) :=
      escapes_percent_iff.mpr ⟨'A', '9', ['/'], 10, 9, _, rfl, isDigit_of_digit? le_rfl rfl,
        isDigit_of_digit? le_rfl rfl, rfl, hslash⟩
    have hletter : Escapes (Text.bytes ['é', '/'])
        (Text.bytes ['%', 'c', '3', '%', 'A', '9', '/']) :=
      escapes_percent_iff.mpr ⟨'c', '3', _, 12, 3, _, rfl, isDigit_of_digit? le_rfl rfl,
        isDigit_of_digit? le_rfl rfl, by decide +kernel, hsecond⟩
    rw [encode_eq_bytes, encode_eq_bytes]
    exact escapes_percent_iff.mpr ⟨'2', '5', _, 2, 5, _, rfl, isDigit_of_digit? le_rfl rfl,
      isDigit_of_digit? le_rfl rfl, rfl, hletter⟩
  refine ⟨hwritten, hdecoded _ hwritten, hexact.mpr ?_⟩
  rintro ⟨-, hsign⟩
  exact absurd hsign (by decide +kernel)

/-- An escape with a sign is decoded, to the byte of its one digit. -/
theorem signed_escape_decoded :
    decode? "/a%+9b.txt" = some "/a\tb.txt" ∧ ¬ HasWholeEscapes "/a%+9b.txt".toList ∧
      ¬ IsExact "/a%+9b.txt" := by
  have hdecoded : decode? "/a%+9b.txt" = some "/a\tb.txt" := by
    rw [decode?_eq_some_iff, encode_eq_bytes]
    exact bytes?_eq_some_iff.mp (by decide +kernel)
  have hwhole : ¬ HasWholeEscapes "/a%+9b.txt".toList := by
    intro h
    obtain ⟨high, low, after, hrest, ⟨d, hhigh⟩, -⟩ := h ['/', 'a'] "+9b.txt".toList rfl
    obtain rfl : '+' = high := (List.cons.inj hrest).1
    exact not_isDigit rfl d hhigh
  refine ⟨hdecoded, hwhole, ?_⟩
  intro hexact
  exact hwhole (hexact.succeeds.mp (by rw [hdecoded]; rfl)).1

end WebHost.Percent
