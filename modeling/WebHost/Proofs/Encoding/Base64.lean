import Mathlib.Data.List.Basic
import WebHost.Encoding.Base64

/-!
# One written form for every byte sequence

Reading accepts exactly what writing produces: the padding has to be there and the bits that it
leaves over have to be zero. Both directions go group by group, and a group is a number below
2 ^ 24 that is cut once into three bytes and once into four digits.
-/

set_option autoImplicit false

namespace WebHost.Base64

/-- A character that may stand in a written form. -/
def IsWritten (c : Char) : Prop := 0x21 ≤ c.toNat ∧ c.toNat < 0x7F

/-- Every digit has the value that it is the digit of. -/
theorem value?_digit : ∀ n < 64, value? (digit n) = some n := by decide +kernel

/-- Digits are characters that are written. -/
theorem isWritten_digit : ∀ n < 64, IsWritten (digit n) := by
  unfold IsWritten
  decide +kernel

/-- The padding is no digit. -/
theorem value?_pad : value? '=' = none := by decide

/-- No digit is the padding. -/
theorem digit_ne_pad {n : Nat} (h : n < 64) : digit n ≠ '=' := by
  intro he
  have hv := value?_digit n h
  rw [he, value?_pad] at hv
  exact absurd hv (by simp)

/-- A character has a value exactly if it is the digit of that value. -/
theorem value?_eq_some_iff {c : Char} {n : Nat} : value? c = some n ↔ n < 64 ∧ digit n = c := by
  constructor
  · intro h
    have hA : 'A'.toNat = 65 := rfl
    have hZ : 'Z'.toNat = 90 := rfl
    have ha : 'a'.toNat = 97 := rfl
    have hz : 'z'.toNat = 122 := rfl
    have h0 : '0'.toNat = 48 := rfl
    have h9 : '9'.toNat = 57 := rfl
    have hofNat : Char.ofNat c.toNat = c := Char.ofNat_toNat c
    unfold value? at h
    split_ifs at h with hcap hsmall hdigit hplus hslash
    · have hlow : 'A'.toNat ≤ c.toNat := hcap.1
      have hhigh : c.toNat ≤ 'Z'.toNat := hcap.2
      obtain rfl : c.toNat - 'A'.toNat = n := by simpa using h
      refine ⟨by omega, ?_⟩
      rw [digit, if_pos (by omega), show 'A'.toNat + (c.toNat - 'A'.toNat) = c.toNat by omega, hofNat]
    · have hlow : 'a'.toNat ≤ c.toNat := hsmall.1
      have hhigh : c.toNat ≤ 'z'.toNat := hsmall.2
      obtain rfl : c.toNat - 'a'.toNat + 26 = n := by simpa using h
      refine ⟨by omega, ?_⟩
      rw [digit, if_neg (by omega), if_pos (by omega),
        show 'a'.toNat + (c.toNat - 'a'.toNat + 26 - 26) = c.toNat by omega, hofNat]
    · have hlow : '0'.toNat ≤ c.toNat := hdigit.1
      have hhigh : c.toNat ≤ '9'.toNat := hdigit.2
      obtain rfl : c.toNat - '0'.toNat + 52 = n := by simpa using h
      refine ⟨by omega, ?_⟩
      rw [digit, if_neg (by omega), if_neg (by omega), if_pos (by omega),
        show '0'.toNat + (c.toNat - '0'.toNat + 52 - 52) = c.toNat by omega, hofNat]
    · obtain rfl : 62 = n := by simpa using h
      exact ⟨by omega, hplus ▸ rfl⟩
    · obtain rfl : 63 = n := by simpa using h
      exact ⟨by omega, hslash ▸ rfl⟩
  · rintro ⟨hn, rfl⟩
    exact value?_digit n hn

/-- A group of four that does not end with padding is read as three bytes. -/
theorem decodeChars_group {a b c d : Char} (hd : d ≠ '=') (rest : List Char) :
    decodeChars (a :: b :: c :: d :: rest) = (do
      let a ← value? a
      let b ← value? b
      let c ← value? c
      let d ← value? d
      let n := a * 262144 + b * 4096 + c * 64 + d
      let tail ← decodeChars rest
      some (UInt8.ofNat (n / 65536) :: UInt8.ofNat (n / 256 % 256) :: UInt8.ofNat (n % 256) ::
        tail)) := by
  rw [decodeChars]
  · intro _ h _
    exact hd h
  · intro h _
    exact hd h

/-- A number of three bytes is put together from them. -/
theorem sum_bytes (n : Nat) : n / 65536 * 65536 + n / 256 % 256 * 256 + n % 256 = n := by omega

/-- A number of four digits is put together from them. -/
theorem sum_digits (n : Nat) :
    n / 262144 * 262144 + n / 4096 % 64 * 4096 + n / 64 % 64 * 64 + n % 64 = n := by omega

/-- What was written is read. -/
theorem decodeChars_encodeChars (bytes : Bytes) : decodeChars (encodeChars bytes) = some bytes := by
  fun_induction encodeChars bytes with
  | case1 a b c rest n ih =>
    have ha : a.toNat < 256 := a.toNat_lt
    have hb : b.toNat < 256 := b.toNat_lt
    have hc : c.toNat < 256 := c.toNat_lt
    have hn : n = a.toNat * 65536 + b.toNat * 256 + c.toNat := rfl
    clear_value n
    rw [decodeChars_group (digit_ne_pad (by omega)), value?_digit _ (by omega),
      value?_digit _ (by omega), value?_digit _ (by omega), value?_digit _ (by omega), ih]
    have hsum := sum_digits n
    simp only [Option.bind_eq_bind, Option.bind_some, hsum]
    rw [show n / 65536 = a.toNat by omega, show n / 256 % 256 = b.toNat by omega,
      show n % 256 = c.toNat by omega]
    simp
  | case2 a b n =>
    have ha : a.toNat < 256 := a.toNat_lt
    have hb : b.toNat < 256 := b.toNat_lt
    have hn : n = a.toNat * 256 + b.toNat := rfl
    clear_value n
    rw [decodeChars]
    · rw [value?_digit _ (by omega), value?_digit _ (by omega), value?_digit _ (by omega)]
      simp only [Option.bind_eq_bind, Option.bind_some]
      rw [if_pos (by omega), show
        n / 1024 * 4096 + n / 16 % 64 * 64 + n % 16 * 4 = n * 4 by omega,
        show n * 4 / 1024 = a.toNat by omega, show n * 4 / 4 % 256 = b.toNat by omega]
      simp
    · intro h
      exact digit_ne_pad (by omega) h
  | case3 a =>
    have ha : a.toNat < 256 := a.toNat_lt
    rw [decodeChars, value?_digit _ (by omega), value?_digit _ (by omega)]
    simp only [Option.bind_eq_bind, Option.bind_some]
    rw [if_pos (by omega), show a.toNat / 4 * 4 + a.toNat % 4 * 16 / 16 = a.toNat by omega]
    simp
  | case4 => rfl

/-- What is read was written so. -/
theorem eq_encodeChars_of_decodeChars {text : List Char} {bytes : Bytes}
    (h : decodeChars text = some bytes) : text = encodeChars bytes := by
  have hsize : UInt8.size = 256 := rfl
  fun_induction decodeChars text generalizing bytes with
  | case1 =>
    obtain rfl : [] = bytes := by simpa using h
    rfl
  | case2 a b =>
    simp only [Option.bind_eq_bind, Option.bind_eq_some_iff, value?_eq_some_iff] at h
    obtain ⟨x, ⟨hx, rfl⟩, y, ⟨hy, rfl⟩, h⟩ := h
    split_ifs at h with hzero
    obtain rfl : [UInt8.ofNat (x * 4 + y / 16)] = bytes := by simpa using h
    have hbyte : (UInt8.ofNat (x * 4 + y / 16)).toNat = x * 4 + y / 16 :=
      UInt8.toNat_ofNat_of_lt' (by omega)
    simp only [encodeChars, hbyte]
    rw [show (x * 4 + y / 16) / 4 = x by omega, show (x * 4 + y / 16) % 4 * 16 = y by omega]
  | case3 a b c =>
    simp only [Option.bind_eq_bind, Option.bind_eq_some_iff, value?_eq_some_iff] at h
    obtain ⟨x, ⟨hx, rfl⟩, y, ⟨hy, rfl⟩, z, ⟨hz, rfl⟩, h⟩ := h
    split_ifs at h with hzero
    have hn : x * 4096 + y * 64 + z < 262144 := by omega
    generalize hg : x * 4096 + y * 64 + z = n at h hn
    obtain rfl : [UInt8.ofNat (n / 1024), UInt8.ofNat (n / 4 % 256)] = bytes := by simpa using h
    have hfirst : (UInt8.ofNat (n / 1024)).toNat = n / 1024 := UInt8.toNat_ofNat_of_lt' (by omega)
    have hsecond : (UInt8.ofNat (n / 4 % 256)).toNat = n / 4 % 256 :=
      UInt8.toNat_ofNat_of_lt' (by omega)
    simp only [encodeChars, hfirst, hsecond]
    rw [show (n / 1024 * 256 + n / 4 % 256) / 1024 = x by omega,
      show (n / 1024 * 256 + n / 4 % 256) / 16 % 64 = y by omega,
      show (n / 1024 * 256 + n / 4 % 256) % 16 * 4 = z by omega]
  | case4 a b c d rest _ _ ih =>
    simp only [Option.bind_eq_bind, Option.bind_eq_some_iff, value?_eq_some_iff] at h
    obtain ⟨x, ⟨hx, rfl⟩, y, ⟨hy, rfl⟩, z, ⟨hz, rfl⟩, w, ⟨hw, rfl⟩, tail, htail, h⟩ := h
    have hn : x * 262144 + y * 4096 + z * 64 + w < 16777216 := by omega
    generalize hg : x * 262144 + y * 4096 + z * 64 + w = n at h hn
    obtain rfl : UInt8.ofNat (n / 65536) :: UInt8.ofNat (n / 256 % 256) :: UInt8.ofNat (n % 256) ::
      tail = bytes := by simpa using h
    have hfirst : (UInt8.ofNat (n / 65536)).toNat = n / 65536 :=
      UInt8.toNat_ofNat_of_lt' (by omega)
    have hsecond : (UInt8.ofNat (n / 256 % 256)).toNat = n / 256 % 256 :=
      UInt8.toNat_ofNat_of_lt' (by omega)
    have hthird : (UInt8.ofNat (n % 256)).toNat = n % 256 := UInt8.toNat_ofNat_of_lt' (by omega)
    have hsum := sum_bytes n
    simp only [encodeChars, hfirst, hsecond, hthird, hsum]
    rw [show n / 262144 = x by omega, show n / 4096 % 64 = y by omega,
      show n / 64 % 64 = z by omega, show n % 64 = w by omega, ih htail]
  | case5 => simp at h

/-- A text is read as the bytes whose written form it is, and as no others. -/
theorem decode?_eq_some_iff {text : String} {bytes : Bytes} :
    decode? text = some bytes ↔ text = encode bytes := by
  constructor
  · intro h
    rw [encode, ← eq_encodeChars_of_decodeChars h, String.ofList_toList]
  · rintro rfl
    rw [decode?, encode, String.toList_ofList, decodeChars_encodeChars]

/-- Only digits and padding are written. -/
theorem isWritten_of_mem_encodeChars {bytes : Bytes} {c : Char} (h : c ∈ encodeChars bytes) :
    IsWritten c := by
  have hpad : IsWritten '=' := by
    unfold IsWritten
    decide
  fun_induction encodeChars bytes with
  | case1 x y z rest n ih =>
    have hx : x.toNat < 256 := x.toNat_lt
    have hy : y.toNat < 256 := y.toNat_lt
    have hz : z.toNat < 256 := z.toNat_lt
    have hn : n = x.toNat * 65536 + y.toNat * 256 + z.toNat := rfl
    simp only [List.mem_cons] at h
    rcases h with rfl | rfl | rfl | rfl | h
    · exact isWritten_digit _ (by omega)
    · exact isWritten_digit _ (by omega)
    · exact isWritten_digit _ (by omega)
    · exact isWritten_digit _ (by omega)
    · exact ih h
  | case2 x y n =>
    have hx : x.toNat < 256 := x.toNat_lt
    have hy : y.toNat < 256 := y.toNat_lt
    have hn : n = x.toNat * 256 + y.toNat := rfl
    simp only [List.mem_cons, List.not_mem_nil, or_false] at h
    rcases h with rfl | rfl | rfl | rfl
    · exact isWritten_digit _ (by omega)
    · exact isWritten_digit _ (by omega)
    · exact isWritten_digit _ (by omega)
    · exact hpad
  | case3 x =>
    have hx : x.toNat < 256 := x.toNat_lt
    simp only [List.mem_cons, List.not_mem_nil, or_false] at h
    rcases h with rfl | rfl | rfl | rfl
    · exact isWritten_digit _ (by omega)
    · exact isWritten_digit _ (by omega)
    · exact hpad
    · exact hpad
  | case4 => simp at h

/-- Nothing is written for no bytes, and only for those. -/
theorem encodeChars_eq_nil_iff {bytes : Bytes} : encodeChars bytes = [] ↔ bytes = [] := by
  fun_induction encodeChars bytes <;> simp

end WebHost.Base64
