import WebHost.Encoding.Percent
import WebHost.Proofs.Text.Utf8

/-!
# What a text with percent escapes spells

A text spells bytes by a rule for each of its signs: an escape stands for its byte, any other
character for its own encoding. Reading escapes follows these rules and no others, and it goes over
the text once: a percent sign that an escape stands for begins no escape again.
-/

set_option autoImplicit false

namespace WebHost.Percent

/-- A text stands for bytes. -/
inductive Spells : List Char → Bytes → Prop
  | nil : Spells [] []
  | plain {c : Char} {rest : List Char} {bytes : Bytes} (hc : c ≠ '%') (h : Spells rest bytes) :
      Spells (c :: rest) (String.utf8EncodeChar c ++ bytes)
  | escape {high low : Char} {b : UInt8} {rest : List Char} {bytes : Bytes}
      (hb : byte? high low = some b) (h : Spells rest bytes) :
      Spells ('%' :: high :: low :: rest) (b :: bytes)

/-- A text is gone through sign by sign, where a percent sign takes the two characters behind it along,
if there are as many. -/
@[elab_as_elim]
theorem induction_on_signs {motive : List Char → Prop} (nil : motive [])
    (plain : ∀ c rest, c ≠ '%' → motive rest → motive (c :: rest))
    (percent : ∀ rest, (∀ high low after, rest = high :: low :: after → motive after) →
      motive ('%' :: rest))
    (text : List Char) : motive text := by
  induction hn : text.length using Nat.strongRecOn generalizing text with
  | ind n ih =>
    subst hn
    cases text with
    | nil => exact nil
    | cons c rest =>
      by_cases hc : c = '%'
      · subst hc
        apply percent
        rintro high low after rfl
        exact ih after.length (by simp only [List.length_cons]; omega) after rfl
      · exact plain c rest hc (ih rest.length (by simp only [List.length_cons]; omega) rest rfl)

/-- A plain character stands for its own bytes. -/
theorem bytes?_plain {c : Char} (hc : c ≠ '%') (rest : List Char) :
    bytes? (c :: rest) = (bytes? rest).map (String.utf8EncodeChar c ++ ·) := by
  match rest with
  | [] => simp [bytes?, hc]
  | [d] => simp only [bytes?, if_neg hc]
  | d :: e :: rest => rw [bytes?, if_neg hc]

/-- An escape stands for the byte that its two characters write. -/
theorem bytes?_escape (high low : Char) (rest : List Char) :
    bytes? ('%' :: high :: low :: rest) =
      (byte? high low).bind fun b => (bytes? rest).map (b :: ·) := by
  rw [bytes?, if_pos rfl]
  cases byte? high low <;> rfl

/-- Reading escapes finds the bytes that a text spells. -/
theorem bytes?_eq_some_iff {text : List Char} {bytes : Bytes} :
    bytes? text = some bytes ↔ Spells text bytes := by
  constructor
  · intro h
    induction text using induction_on_signs generalizing bytes with
    | nil =>
      obtain rfl : [] = bytes := by simpa [bytes?] using h
      exact .nil
    | plain c rest hc ih =>
      rw [bytes?_plain hc] at h
      obtain ⟨after, hafter, rfl⟩ := Option.map_eq_some_iff.mp h
      exact .plain hc (ih hafter)
    | percent rest ih =>
      match rest with
      | [] => simp [bytes?] at h
      | [_] => simp [bytes?] at h
      | high :: low :: rest =>
        rw [bytes?_escape] at h
        obtain ⟨b, hb, h⟩ := Option.bind_eq_some_iff.mp h
        obtain ⟨after, hafter, rfl⟩ := Option.map_eq_some_iff.mp h
        exact .escape hb (ih high low rest rfl hafter)
  · intro h
    induction h with
    | nil => rfl
    | plain hc _ ih => rw [bytes?_plain hc, ih, Option.map_some]
    | escape hb _ ih => rw [bytes?_escape, hb, Option.bind_some, ih, Option.map_some]

/-- A text is decoded to the text whose encoding it spells. -/
theorem decode?_eq_some_iff {text decoded : String} :
    decode? text = some decoded ↔ Spells text.toList (Utf8.encode decoded) := by
  rw [decode?, Option.bind_eq_some_iff]
  constructor
  · rintro ⟨bytes, hbytes, hdecoded⟩
    rw [← Utf8.decode?_eq_some_iff.mp hdecoded]
    exact bytes?_eq_some_iff.mp hbytes
  · intro h
    exact ⟨_, bytes?_eq_some_iff.mpr h, Utf8.decode?_eq_some_iff.mpr rfl⟩

end WebHost.Percent
