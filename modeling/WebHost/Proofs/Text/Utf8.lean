import Mathlib.Data.List.Basic
import WebHost.Http.Headers

/-!
# Texts and the bytes that encode them

Decoding is the inverse of encoding on well-formed bytes and fails on all others. A text of visible
ASCII characters is encoded by its own character codes, so a header field can hold it and gives it
back unchanged.
-/

set_option autoImplicit false

namespace WebHost

namespace Utf8

/-- The octets of a byte array, read from an index on, are those of its underlying array. -/
theorem toList_loop (b : ByteArray) (i : Nat) (r : List UInt8) :
    ByteArray.toList.loop b i r = r.reverse ++ b.data.toList.drop i := by
  fun_induction ByteArray.toList.loop b i r with
  | case1 i r hlt ih =>
    have hi : i < b.data.toList.length := by simpa using hlt
    have hget : b.get! i = b.data.toList[i] := by
      show b.data[i]! = b.data.toList[i]
      rw [getElem!_pos b.data i (by simpa using hi), Array.getElem_toList]
    rw [ih, hget, List.drop_eq_getElem_cons hi]
    simp
  | case2 i r hlt =>
    rw [List.drop_eq_nil_of_le (by simpa using hlt)]
    simp

/-- The bytes of an array in a row are its data. -/
theorem toList_eq_data (b : ByteArray) : b.toList = b.data.toList := by
  rw [ByteArray.toList, toList_loop]
  simp

/-- A text is encoded as its own bytes. -/
theorem mk_encode (text : String) : ByteArray.mk (encode text).toArray = text.toByteArray := by
  show ByteArray.mk text.toByteArray.toList.toArray = text.toByteArray
  rw [toList_eq_data]

/-- Bytes are read as the text that they encode, and as no other. -/
theorem decode?_eq_some_iff {bytes : Bytes} {text : String} :
    decode? bytes = some text ↔ bytes = encode text := by
  constructor
  · intro h
    unfold decode? String.fromUTF8? at h
    split_ifs at h with hvalid
    obtain rfl : String.fromUTF8 _ hvalid = text := by simpa using h
    show bytes = (ByteArray.mk bytes.toArray).toList
    rw [toList_eq_data]
  · rintro rfl
    have hvalid : (ByteArray.mk (encode text).toArray).IsValidUTF8 := by
      rw [mk_encode]
      exact text.isValidUTF8
    rw [decode?, String.fromUTF8?, dif_pos hvalid, Option.some_inj]
    exact String.toByteArray_inj.mp (mk_encode text)

/-- Texts are told apart by their bytes. -/
theorem encode_inj {s t : String} : encode s = encode t ↔ s = t := by
  constructor
  · intro h
    have hs : decode? (encode s) = some s := decode?_eq_some_iff.mpr rfl
    have ht : decode? (encode s) = some t := decode?_eq_some_iff.mpr h
    exact Option.some.inj (hs.symm.trans ht)
  · rintro rfl
    rfl

/-- A text is encoded sign by sign. -/
theorem encode_eq_flatMap (text : String) :
    encode text = text.toList.flatMap String.utf8EncodeChar := by
  show text.toByteArray.toList = _
  rw [toList_eq_data, ← String.utf8Encode_toList, List.utf8Encode, List.toList_data_toByteArray]

/-- Two texts in a row are encoded in a row. -/
theorem encode_append (s t : String) : encode (s ++ t) = encode s ++ encode t := by
  simp only [encode_eq_flatMap, String.toList_append, List.flatMap_append]

/-- An ASCII character is encoded by its code. -/
theorem encodeChar_of_ascii {c : Char} (hc : c.toNat < 0x80) :
    String.utf8EncodeChar c = [UInt8.ofNat c.toNat] := by
  rw [String.utf8EncodeChar]
  exact if_pos (Nat.le_of_lt_succ hc)

/-- A text of ASCII characters is encoded by their codes. -/
theorem encode_of_ascii {text : String} (h : ∀ c ∈ text.toList, c.toNat < 0x80) :
    encode text = text.toList.map fun c => UInt8.ofNat c.toNat := by
  rw [encode_eq_flatMap]
  generalize text.toList = l at h
  induction l with
  | nil => rfl
  | cons c l ih =>
    rw [List.flatMap_cons, encodeChar_of_ascii (h c List.mem_cons_self),
      ih fun d hd => h d (List.mem_cons_of_mem _ hd)]
    rfl

/-- The octets of a character beyond ASCII are beyond ASCII as well. -/
theorem le_of_mem_encodeChar {c : Char} (hc : 0x80 ≤ c.toNat) {b : UInt8}
    (hb : b ∈ String.utf8EncodeChar c) : 0x80 ≤ b.toNat := by
  have hlarge : ¬ c.val.toNat ≤ 0x7F := Nat.not_le_of_gt hc
  rw [String.utf8EncodeChar] at hb
  simp only [if_neg hlarge] at hb
  split_ifs at hb
  all_goals
    simp only [List.mem_cons, List.not_mem_nil, or_false] at hb
    rcases hb with rfl | rfl | rfl | rfl
  all_goals
    rw [UInt8.toNat_ofNat']
    omega

/-- An octet of a text is beyond ASCII or is the code of one of its characters. -/
theorem exists_of_mem_encode {text : String} {b : UInt8} (hb : b ∈ encode text) :
    0x80 ≤ b.toNat ∨ ∃ c ∈ text.toList, c.toNat = b.toNat := by
  rw [encode_eq_flatMap, List.mem_flatMap] at hb
  obtain ⟨c, hc, hmem⟩ := hb
  by_cases hsmall : c.toNat < 0x80
  · rw [encodeChar_of_ascii hsmall, List.mem_singleton] at hmem
    refine .inr ⟨c, hc, ?_⟩
    rw [hmem, UInt8.toNat_ofNat']
    omega
  · exact .inl (le_of_mem_encodeChar (Nat.le_of_not_lt hsmall) hmem)

/-- An ASCII character stands in a text exactly if its code stands among the octets of the text. -/
theorem mem_encode_iff {text : String} {c : Char} (hc : c.toNat < 0x80) :
    UInt8.ofNat c.toNat ∈ encode text ↔ c ∈ text.toList := by
  have hcode : (UInt8.ofNat c.toNat).toNat = c.toNat := by
    rw [UInt8.toNat_ofNat']
    omega
  constructor
  · intro h
    rcases exists_of_mem_encode h with hlarge | ⟨d, hd, hnat⟩
    · omega
    · obtain rfl : d = c := Char.toNat_inj.mp (hnat.trans hcode)
      exact hd
  · intro h
    rw [encode_eq_flatMap, List.mem_flatMap]
    exact ⟨c, h, by rw [encodeChar_of_ascii hc]; exact List.mem_singleton_self _⟩

end Utf8

/-- A character of ASCII that is not printed. -/
def IsControl (c : Char) : Prop := c.toNat < 0x20 ∨ c.toNat = 0x7F

instance (c : Char) : Decidable (IsControl c) := inferInstanceAs (Decidable (_ ∨ _))

/-- No character of a text is a control character. -/
def Text.IsClean (s : String) : Prop := ∀ c ∈ s.toList, ¬ IsControl c

-- characters are finitely many, so the instance has to be told to go through those of the text only
instance (s : String) : Decidable (Text.IsClean s) := s.toList.decidableBAll (¬ IsControl ·)

/-- Clean texts in a row are clean. -/
theorem Text.IsClean.append {s t : String} (hs : IsClean s) (ht : IsClean t) :
    IsClean (s ++ t) := by
  intro c hc
  rw [String.toList_append, List.mem_append] at hc
  exact hc.elim (hs c) (ht c)

/-- A control character or a space: what no word holds. -/
def IsGap (c : Char) : Prop := c.toNat ≤ 0x20 ∨ c.toNat = 0x7F

instance (c : Char) : Decidable (IsGap c) := inferInstanceAs (Decidable (_ ∨ _))

/-- What is no gap is no control. -/
theorem not_control_of_not_gap {c : Char} (h : ¬ IsGap c) : ¬ IsControl c :=
  fun hcontrol => h (hcontrol.imp_left Nat.le_of_lt)

/-- No character of a text is a space or a control character. -/
def Text.IsWord (s : String) : Prop := ∀ c ∈ s.toList, ¬ IsGap c

instance (s : String) : Decidable (Text.IsWord s) := s.toList.decidableBAll (¬ IsGap ·)

/-- A word is clean. -/
theorem Text.IsWord.isClean {s : String} (h : IsWord s) : IsClean s :=
  fun c hc => not_control_of_not_gap (h c hc)

/-- Two words without a space between are one. -/
theorem Text.IsWord.append {s t : String} (hs : IsWord s) (ht : IsWord t) : IsWord (s ++ t) := by
  intro c hc
  rw [String.toList_append, List.mem_append] at hc
  exact hc.elim (hs c) (ht c)

/-- A word has no space. -/
theorem Text.IsWord.not_mem_space {s : String} (h : IsWord s) : ' ' ∉ s.toList :=
  fun hmem => h ' ' hmem (by decide)

/-- A class of characters without gaps, as far as ASCII goes, has none at all. -/
theorem not_gap_of_class {p : Char → Bool}
    (hp : ∀ n < 0x80, IsGap (Char.ofNat n) → p (Char.ofNat n) = false) {c : Char}
    (hc : p c = true) : ¬ IsGap c := by
  intro hgap
  have hlt : c.toNat < 0x80 := by
    unfold IsGap at hgap
    omega
  have hno := hp c.toNat hlt
  rw [Char.ofNat_toNat] at hno
  rw [hno hgap] at hc
  exact absurd hc (by decide)

/-- The signs of a token are no gaps. -/
theorem not_gap_of_isTokenChar {c : Char} (h : isTokenChar c = true) : ¬ IsGap c :=
  not_gap_of_class (by decide +kernel) h

/-- A header field can hold a text without control characters. -/
theorem isHeaderValue_of_no_control {text : String} (h : Text.IsClean text) :
    isHeaderValue (Utf8.encode text) = true := by
  rw [isHeaderValue, List.all_eq_true]
  intro b hb
  have hplain : 0x20 ≤ b.toNat ∧ b.toNat ≠ 0x7F := by
    rcases Utf8.exists_of_mem_encode hb with hlarge | ⟨c, hc, hnat⟩
    · omega
    · have hno : ¬ (c.toNat < 0x20 ∨ c.toNat = 0x7F) := h c hc
      omega
  have hlow : 0x20 ≤ b := UInt8.le_iff_toNat_le.mpr hplain.1
  have hdelete : b ≠ 0x7F := by
    rintro rfl
    exact hplain.2 rfl
  simp [hlow, hdelete]

/-- A space or a printed character of ASCII. -/
def IsVisible (c : Char) : Prop := 0x20 ≤ c.toNat ∧ c.toNat < 0x7F

instance (c : Char) : Decidable (IsVisible c) := inferInstanceAs (Decidable (_ ∧ _))

/-- A visible sign is ASCII. -/
theorem IsVisible.lt {c : Char} (h : IsVisible c) : c.toNat < 0x80 :=
  Nat.lt_of_lt_of_le h.2 (by decide)

/-- A visible sign is its own byte. -/
theorem IsVisible.toNat_ofNat {c : Char} (h : IsVisible c) :
    (UInt8.ofNat c.toNat).toNat = c.toNat :=
  UInt8.toNat_ofNat_of_lt' (Nat.lt_of_lt_of_le h.lt (by decide))

section Visible

variable {text : String}

/-- Visible signs are encoded in visible bytes. -/
theorem mem_encode_of_visible (h : ∀ c ∈ text.toList, IsVisible c) {b : UInt8}
    (hb : b ∈ Utf8.encode text) : 0x20 ≤ b ∧ b < 0x7F := by
  rw [Utf8.encode_of_ascii fun c hc => (h c hc).lt, List.mem_map] at hb
  obtain ⟨c, hc, rfl⟩ := hb
  have hvisible := h c hc
  rw [UInt8.le_iff_toNat_le, UInt8.lt_iff_toNat_lt, hvisible.toNat_ofNat]
  exact hvisible

/-- A header field can hold a visible text. -/
theorem isHeaderValue_of_visible (h : ∀ c ∈ text.toList, IsVisible c) :
    isHeaderValue (Utf8.encode text) = true := by
  refine isHeaderValue_of_no_control fun c hc => ?_
  obtain ⟨hlow, hhigh⟩ := h c hc
  rintro (hcontrol | hcontrol) <;> omega

/-- A visible text in a header field is read back. -/
theorem headerText?_of_visible (h : ∀ c ∈ text.toList, IsVisible c) :
    headerText? (Utf8.encode text) = some text := by
  have hall : (Utf8.encode text).all (fun b => (0x20 ≤ b && b < 0x7F) || b = 9) = true := by
    rw [List.all_eq_true]
    intro b hb
    have hvisible := mem_encode_of_visible h hb
    simp [hvisible.1, hvisible.2]
  have hback : (Utf8.encode text).map (fun b => Char.ofNat b.toNat) = text.toList := by
    rw [Utf8.encode_of_ascii fun c hc => (h c hc).lt, List.map_map]
    refine (List.map_congr_left fun c hc => ?_).trans (List.map_id _)
    rw [Function.comp_apply, (h c hc).toNat_ofNat, Char.ofNat_toNat, id]
  rw [headerText?, if_pos hall, hback, String.ofList_toList]

end Visible

/-- A header field can hold a text that was read off a header field. -/
theorem isHeaderValue_of_headerText? {bytes : Bytes} {text : String}
    (h : headerText? bytes = some text) : isHeaderValue (Utf8.encode text) = true := by
  unfold headerText? at h
  split_ifs at h with hall
  obtain rfl := Option.some.inj h
  rw [List.all_eq_true] at hall
  have hascii : ∀ b ∈ bytes, b < 0x80 := by
    intro b hb
    have hb := hall b hb
    simp only [Bool.or_eq_true, Bool.and_eq_true, decide_eq_true_eq] at hb
    rw [UInt8.lt_iff_toNat_lt]
    rcases hb with ⟨-, hhigh⟩ | rfl
    · exact Nat.lt_trans (UInt8.lt_iff_toNat_lt.mp hhigh) (by decide)
    · decide
  have hchar : ∀ b ∈ bytes, (Char.ofNat b.toNat).toNat = b.toNat := by
    intro b hb
    have hlt := UInt8.lt_iff_toNat_lt.mp (hascii b hb)
    have hvalid : b.toNat.isValidChar := Or.inl (Nat.lt_trans hlt (by decide))
    rw [Char.ofNat, dif_pos hvalid]
    rfl
  have hback : Utf8.encode (String.ofList (bytes.map fun b => Char.ofNat b.toNat)) = bytes := by
    rw [Utf8.encode_of_ascii, String.toList_ofList, List.map_map]
    · refine (List.map_congr_left fun b hb => ?_).trans (List.map_id _)
      rw [Function.comp_apply, hchar b hb, UInt8.ofNat_toNat, id]
    · intro c hc
      rw [String.toList_ofList] at hc
      obtain ⟨b, hb, rfl⟩ := List.mem_map.mp hc
      rw [hchar b hb]
      exact UInt8.lt_iff_toNat_lt.mp (hascii b hb)
  rw [hback, isHeaderValue, List.all_eq_true]
  intro b hb
  have hb := hall b hb
  simp only [Bool.or_eq_true, Bool.and_eq_true, decide_eq_true_eq] at hb ⊢
  refine hb.imp_left fun hb => ⟨hb.1, ?_⟩
  rintro rfl
  exact absurd hb.2 (by decide)

end WebHost
