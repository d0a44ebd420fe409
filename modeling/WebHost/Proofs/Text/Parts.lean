import Mathlib.Data.List.Basic
import Mathlib.Data.List.DropRight
import WebHost.Text.Cut

/-!
# Parts of a text

Cutting a text at a separator and joining the parts again are inverse to each other on parts that
are free of the separator. Paths of file trees and patterns of routes are both read this way, so
the facts stand here once, on lists of characters, with the step to `String` at the end.
-/

set_option autoImplicit false

namespace WebHost.Text

/-- A separator cuts a text into the parts before it and the parts after it. -/
theorem split_append_sep (sep : Char) (a b : List Char) :
    split sep (a ++ sep :: b) = split sep a ++ split sep b := by
  induction a with
  | nil => simp [split]
  | cons c rest ih =>
    by_cases h : c = sep
    · simp only [List.cons_append, split, if_pos h, ih]
    · simp only [List.cons_append, split, if_neg h, ih]
      cases hs : split sep rest with
      | nil => exact absurd hs (split_ne_nil sep rest)
      | cons part parts => rfl

/-- A text without the separator is its own only part. -/
theorem split_eq_singleton {sep : Char} {text : List Char} (h : sep ∉ text) :
    split sep text = [text] := by
  induction text with
  | nil => rfl
  | cons c rest ih =>
    rw [List.mem_cons, not_or] at h
    simp only [split, if_neg (Ne.symm h.1), ih h.2]

/-- No part contains the separator. -/
theorem not_mem_of_mem_split {sep : Char} {text part : List Char} (h : part ∈ split sep text) :
    sep ∉ part := by
  induction text generalizing part with
  | nil =>
    have hp : part = [] := by simpa [split] using h
    simp [hp]
  | cons c rest ih =>
    by_cases hc : c = sep
    · simp only [split, if_pos hc, List.mem_cons] at h
      rcases h with rfl | h
      · simp
      · exact ih h
    · cases hs : split sep rest with
      | nil => exact absurd hs (split_ne_nil sep rest)
      | cons first parts =>
        simp only [split, if_neg hc, hs, List.mem_cons] at h
        rcases h with rfl | h
        · have hfirst : sep ∉ first := ih (by rw [hs]; exact List.mem_cons_self)
          simp [Ne.symm hc, hfirst]
        · exact ih (by rw [hs]; exact List.mem_cons_of_mem _ h)

/-- Joining loses nothing: parts without the separator are cut apart again. -/
theorem split_intercalate {sep : Char} {parts : List (List Char)} (hne : parts ≠ [])
    (h : ∀ part ∈ parts, sep ∉ part) : split sep ([sep].intercalate parts) = parts := by
  induction parts with
  | nil => exact absurd rfl hne
  | cons part rest ih =>
    have hpart : sep ∉ part := h part List.mem_cons_self
    cases rest with
    | nil => simpa [List.intercalate] using split_eq_singleton hpart
    | cons second rest =>
      have hrest := ih (by simp) fun p hp => h p (List.mem_cons_of_mem _ hp)
      rw [List.intercalate_cons_cons, List.append_assoc, List.singleton_append, split_append_sep,
        split_eq_singleton hpart, hrest, List.singleton_append]

/-- A text holds a part between two of its separators, or between a separator and an end. -/
def HoldsPart (sep : Char) (text part : List Char) : Prop :=
  sep ∉ part ∧ ∃ front back, text = front ++ part ++ back ∧
    (front = [] ∨ front.getLast? = some sep) ∧ (back = [] ∨ back.head? = some sep)

/-- A part of joined parts stands after a separator or at the beginning, and before a separator or at
the end. -/
theorem exists_around_mem (sep : Char) {parts : List (List Char)} {part : List Char}
    (h : part ∈ parts) :
    ∃ front back, [sep].intercalate parts = front ++ part ++ back ∧
      (front = [] ∨ front.getLast? = some sep) ∧ (back = [] ∨ back.head? = some sep) := by
  induction parts with
  | nil => exact absurd h List.not_mem_nil
  | cons first rest ih =>
    cases rest with
    | nil =>
      obtain rfl : part = first := by simpa using h
      exact ⟨[], [], by simp [List.intercalate], .inl rfl, .inl rfl⟩
    | cons second rest =>
      rw [List.intercalate_cons_cons]
      rcases List.mem_cons.mp h with rfl | h
      · exact ⟨[], [sep] ++ [sep].intercalate (second :: rest), by simp, .inl rfl, .inr rfl⟩
      · obtain ⟨front, back, heq, hfront, hback⟩ := ih h
        refine ⟨first ++ [sep] ++ front, back, ?_, .inr ?_, hback⟩
        · rw [heq]
          simp only [List.append_assoc]
        · rcases hfront with rfl | hfront
          · simp
          · rw [List.getLast?_append, hfront]
            rfl

/-- Cutting finds the parts that a text holds. -/
theorem mem_split_iff {sep : Char} {text part : List Char} :
    part ∈ split sep text ↔ HoldsPart sep text part := by
  constructor
  · intro h
    refine ⟨not_mem_of_mem_split h, ?_⟩
    have haround := exists_around_mem sep h
    rwa [intercalate_split] at haround
  · rintro ⟨hpart, front, back, rfl, hfront, hback⟩
    have hrest : part ∈ split sep (part ++ back) := by
      rcases hback with rfl | hback
      · rw [List.append_nil, split_eq_singleton hpart]
        exact List.mem_singleton_self part
      · obtain ⟨after, rfl⟩ := List.head?_eq_some_iff.mp hback
        rw [split_append_sep, split_eq_singleton hpart]
        exact List.mem_cons_self
    rcases hfront with rfl | hfront
    · exact hrest
    · obtain ⟨before, rfl⟩ := List.getLast?_eq_some_iff.mp hfront
      rw [List.append_assoc, List.append_assoc, List.singleton_append, split_append_sep]
      exact List.mem_append_right _ hrest

/-- The characters of joined texts. -/
theorem toList_joinWith_slash (parts : List String) :
    (joinWith "/" parts).toList = ['/'].intercalate (parts.map String.toList) := by
  simp [joinWith, String.toList_intercalate]

/-- What holds of the characters of the parts and of the separator holds of those of the whole. -/
theorem forall_mem_joinWith {P : Char → Prop} {sep : String} (hsep : ∀ c ∈ sep.toList, P c)
    {parts : List String} (h : ∀ part ∈ parts, ∀ c ∈ part.toList, P c) :
    ∀ c ∈ (joinWith sep parts).toList, P c := by
  intro c hc
  rw [joinWith, String.toList_intercalate] at hc
  induction parts with
  | nil => simp [List.intercalate] at hc
  | cons part rest ih =>
    obtain ⟨hpart, hrest⟩ := List.forall_mem_cons.mp h
    cases rest with
    | nil => exact hpart c (by simpa [List.intercalate] using hc)
    | cons second rest =>
      rw [List.map_cons, List.map_cons, List.intercalate_cons_cons, List.mem_append,
        List.mem_append] at hc
      rcases hc with (hc | hc) | hc
      · exact hpart c hc
      · exact hsep c hc
      · exact ih hrest hc

/-! ## Lists -/

/-- Cuts a text at every comma with a space behind it; the empty text has one empty part. -/
def listed : List Char → List (List Char)
  | [] => [[]]
  | ',' :: ' ' :: text => [] :: listed text
  | c :: text => (listed text).modifyHead (c :: ·)

/-- A sign belongs to the first part of a list, unless it is followed by a space. -/
theorem listed_cons {c : Char} {text : List Char} (h : text.head? ≠ some ' ') :
    listed (c :: text) = (listed text).modifyHead (c :: ·) := by
  rw [listed]
  rintro behind - rfl
  exact h rfl

/-- The first space of a text ends its first part. -/
theorem listed_append (part rest : List Char) (h : ' ' ∉ part) :
    listed (part ++ ',' :: ' ' :: rest) = part :: listed rest := by
  induction part with
  | nil => rfl
  | cons c part ih =>
    obtain ⟨-, hpart⟩ : ' ' ≠ c ∧ ' ' ∉ part := by simpa using h
    have hhead : (part ++ ',' :: ' ' :: rest).head? ≠ some ' ' := by
      cases part with
      | nil => simp
      | cons d part => simpa using fun hd : d = ' ' => hpart (hd ▸ List.mem_cons_self)
    rw [List.cons_append, listed_cons hhead, ih hpart, List.modifyHead_cons]

/-- A text without a space is a list of one part. -/
theorem listed_eq_singleton {text : List Char} (h : ' ' ∉ text) : listed text = [text] := by
  induction text with
  | nil => rfl
  | cons c text ih =>
    have htext : ' ' ∉ text := fun hmem => h (List.mem_cons_of_mem c hmem)
    have hhead : text.head? ≠ some ' ' := fun hhead => htext (List.mem_of_head? hhead)
    rw [listed_cons hhead, ih htext, List.modifyHead_cons]

/-- Listing loses nothing: parts without a space are cut apart again, whatever else is in them. -/
theorem listed_intercalate {parts : List (List Char)} (hne : parts ≠ [])
    (h : ∀ part ∈ parts, ' ' ∉ part) : listed ([',', ' '].intercalate parts) = parts := by
  induction parts with
  | nil => exact absurd rfl hne
  | cons part rest ih =>
    obtain ⟨hpart, hrest⟩ := List.forall_mem_cons.mp h
    cases rest with
    | nil => simpa using listed_eq_singleton hpart
    | cons second rest =>
      have hsecond := ih (List.cons_ne_nil second rest) hrest
      rw [List.intercalate_cons_cons, List.append_assoc, List.cons_append, List.singleton_append,
        listed_append _ _ hpart, hsecond]

/-! ## Known beginnings and endings -/

/-- What follows a known beginning. -/
theorem after?_eq_some_iff {beginning text rest : List Char} :
    after? beginning text = some rest ↔ text = beginning ++ rest := by
  induction beginning generalizing text with
  | nil => simp [after?]
  | cons b beginning ih =>
    cases text with
    | nil => simp [after?]
    | cons c text =>
      by_cases h : b = c
      · simp [after?, h, ih]
      · simp [after?, h, Ne.symm h]

/-- What comes before a known ending. -/
theorem before?_eq_some_iff {ending text front : List Char} :
    before? ending text = some front ↔ text = front ++ ending := by
  simp only [before?, Option.map_eq_some_iff, after?_eq_some_iff]
  constructor
  · rintro ⟨back, h, rfl⟩
    rw [← List.reverse_reverse text, h]
    simp
  · rintro rfl
    exact ⟨front.reverse, by simp, by simp⟩

/-! ## The first separator -/

/-- The first cut is the one with no separator before it. -/
theorem cutFirst_eq_some_iff {sep : Char} {text front rest : List Char} :
    cutFirst sep text = some (front, rest) ↔ text = front ++ sep :: rest ∧ sep ∉ front := by
  induction text generalizing front with
  | nil => simp [cutFirst]
  | cons c text ih =>
    by_cases hc : c = sep
    · subst hc
      rw [cutFirst, if_pos rfl]
      cases front with
      | nil => simp
      | cons d front =>
        constructor
        · intro h
          simp at h
        · rintro ⟨h, hfront⟩
          obtain rfl : c = d := (List.cons.inj h).1
          exact absurd List.mem_cons_self hfront
    · rw [cutFirst, if_neg hc, Option.map_eq_some_iff]
      cases front with
      | nil => simp [hc]
      | cons d front =>
        constructor
        · rintro ⟨⟨before, after⟩, hcut, h⟩
          obtain ⟨⟨rfl, rfl⟩, rfl⟩ : (c = d ∧ before = front) ∧ after = rest := by simpa using h
          obtain ⟨rfl, hbefore⟩ := ih.mp hcut
          exact ⟨rfl, by simp [Ne.symm hc, hbefore]⟩
        · rintro ⟨h, hfront⟩
          obtain ⟨rfl, rfl⟩ := List.cons.inj h
          exact ⟨(front, rest), ih.mpr ⟨rfl, fun hmem => hfront (List.mem_cons_of_mem _ hmem)⟩, rfl⟩

/-- A text is not cut exactly if it lacks the separator. -/
theorem cutFirst_eq_none_iff {sep : Char} {text : List Char} :
    cutFirst sep text = none ↔ sep ∉ text := by
  induction text with
  | nil => simp [cutFirst]
  | cons c text ih =>
    by_cases hc : c = sep
    · simp [cutFirst, hc]
    · simp [cutFirst, hc, ih, Ne.symm hc]

/-! ## The last separator -/

/-- From its end too, a text is not cut exactly if it lacks the separator. -/
theorem cutLast_eq_none_iff {sep : Char} {text : List Char} :
    cutLast sep text = none ↔ sep ∉ text := by
  induction text with
  | nil => simp [cutLast]
  | cons c text ih =>
    rw [cutLast]
    split
    · rename_i before after hcut
      have hmem : sep ∈ text := by
        by_contra hno
        rw [ih.mpr hno] at hcut
        exact absurd hcut (by simp)
      simp [hmem]
    · rename_i hcut
      have hno := ih.mp hcut
      by_cases hc : c = sep
      · simp [hc]
      · simp [hc, hno, Ne.symm hc]

/-- The last cut is the one with no separator after it. -/
theorem cutLast_append {sep : Char} (front : List Char) {rest : List Char} (h : sep ∉ rest) :
    cutLast sep (front ++ sep :: rest) = some (front, rest) := by
  induction front with
  | nil => simp [cutLast, cutLast_eq_none_iff.mpr h]
  | cons c front ih => simp [cutLast, ih]

/-- The last cut loses nothing, and no separator is left after it. -/
theorem cutLast_eq_some_iff {sep : Char} {text front rest : List Char} :
    cutLast sep text = some (front, rest) ↔ text = front ++ sep :: rest ∧ sep ∉ rest := by
  constructor
  · intro h
    induction text generalizing front with
    | nil => simp [cutLast] at h
    | cons c text ih =>
      rw [cutLast] at h
      split at h
      · rename_i before after hcut
        obtain ⟨rfl, rfl⟩ : c :: before = front ∧ after = rest := by simpa using h
        obtain ⟨rfl, hrest⟩ := ih hcut
        exact ⟨rfl, hrest⟩
      · rename_i hcut
        split_ifs at h with hc
        obtain ⟨rfl, rfl⟩ : [] = front ∧ text = rest := by simpa using h
        exact ⟨by rw [hc, List.nil_append], cutLast_eq_none_iff.mp hcut⟩
  · rintro ⟨rfl, hrest⟩
    exact cutLast_append front hrest

/-! ## Trailing copies -/

/-- What is left before the trailing copies of a character. -/
theorem dropTrailing_append_replicate {c : Char} {front : List Char} (h : front.getLast? ≠ some c)
    (n : ℕ) : dropTrailing c (front ++ List.replicate n c) = front := by
  have hback : front.reverse.dropWhile (· = c) = front.reverse := by
    rw [← List.head?_reverse] at h
    cases hr : front.reverse with
    | nil => rfl
    | cons d rest =>
      have hd : d ≠ c := by simpa [hr] using h
      simp [hd]
  rw [dropTrailing, List.reverse_append, List.dropWhile_append_of_pos (by simp), hback,
    List.reverse_reverse]

/-- A text is a front with copies of a character behind it, which the front does not end in. -/
theorem exists_trailing (c : Char) (text : List Char) :
    ∃ front n, text = front ++ List.replicate n c ∧ front.getLast? ≠ some c := by
  have hcopies : text.rtakeWhile (· = c) =
      List.replicate (text.rtakeWhile (· = c)).length c :=
    List.eq_replicate_length.mpr fun d hd => by simpa using List.mem_rtakeWhile_imp hd
  refine ⟨text.rdropWhile (· = c), (text.rtakeWhile (· = c)).length, ?_, fun hlast => ?_⟩
  · rw [← hcopies, List.rdropWhile_append_rtakeWhile]
  · obtain ⟨before, hfront⟩ := List.getLast?_eq_some_iff.mp hlast
    have hno := List.rdropWhile_last_not (· = c) text (by simp [hfront])
    simp [hfront] at hno

/-! ## Lines -/

section Lines

variable {α : Type} [BEq α] [LawfulBEq α] {sep : α}

/-- No piece of a split holds what was split at. -/
theorem not_mem_of_mem_splitOn {text piece : List α} (h : piece ∈ text.splitOn sep) :
    sep ∉ piece := by
  induction text generalizing piece with
  | nil =>
    obtain rfl : piece = [] := by simpa using h
    exact List.not_mem_nil
  | cons c text ih =>
    rw [List.splitOn_cons_eq_if_modifyHead] at h
    split_ifs at h with hc
    · rcases List.mem_cons.mp h with rfl | h
      · exact List.not_mem_nil
      · exact ih h
    · cases hs : text.splitOn sep with
      | nil => exact absurd hs (List.splitOn_ne_nil sep text)
      | cons first pieces =>
        rw [hs] at ih h
        rw [List.modifyHead_cons, List.mem_cons] at h
        rcases h with rfl | h
        · have hne : sep ≠ c := fun heq => hc (by simp [heq])
          exact fun hmem => (List.mem_cons.mp hmem).elim hne (ih List.mem_cons_self)
        · exact ih (List.mem_cons_of_mem _ h)

/-- Lines that are each ended by a break are what is found between the breaks exactly if no line holds
a break itself. -/
theorem splitOn_ended_lines_iff {lines : List (List α)} :
    (lines.flatMap (· ++ [sep])).splitOn sep = lines ++ [[]] ↔ ∀ line ∈ lines, sep ∉ line := by
  constructor
  · intro h line hline
    have hpiece : line ∈ (lines.flatMap (· ++ [sep])).splitOn sep := by
      rw [h]
      exact List.mem_append_left _ hline
    exact not_mem_of_mem_splitOn hpiece
  · intro h
    induction lines with
    | nil => rfl
    | cons line lines ih =>
      obtain ⟨hline, hrest⟩ := List.forall_mem_cons.mp h
      rw [List.flatMap_cons, List.append_assoc, List.singleton_append,
        List.splitOn_append_cons_self, List.splitOn_eq_singleton hline, ih hrest]
      rfl

end Lines

/-! ## Blanks around a text -/

/-- Trimming drops blanks in front and then behind. -/
theorem trim_eq_rdropWhile (text : List Char) :
    trim text = (text.dropWhile isBlank).rdropWhile isBlank := rfl

/-- Trimming takes blanks away, before the text and after it, and nothing else. -/
theorem exists_blanks_around_trim (text : List Char) :
    ∃ before after, (∀ c ∈ before, isBlank c = true) ∧ (∀ c ∈ after, isBlank c = true) ∧
      text = before ++ trim text ++ after := by
  refine ⟨text.takeWhile isBlank, (text.dropWhile isBlank).rtakeWhile isBlank, ?_, ?_, ?_⟩
  · intro c hc
    exact List.mem_takeWhile_imp hc
  · intro c hc
    exact List.mem_rtakeWhile_imp hc
  · rw [trim_eq_rdropWhile, List.append_assoc, List.rdropWhile_append_rtakeWhile,
      List.takeWhile_append_dropWhile]

/-- A text that begins and ends with no blank is what is left of it between blanks. -/
theorem trim_between_blanks {before text after : List Char}
    (hbefore : ∀ c ∈ before, isBlank c = true) (hafter : ∀ c ∈ after, isBlank c = true)
    (htext : text ≠ []) (hhead : isBlank (text.head htext) = false)
    (hlast : isBlank (text.getLast htext) = false) : trim (before ++ text ++ after) = text := by
  have hfront : (before ++ text ++ after).dropWhile isBlank = text ++ after := by
    rw [List.append_assoc, List.dropWhile_append_of_pos hbefore]
    cases text with
    | nil => exact absurd rfl htext
    | cons c text => exact List.dropWhile_cons_of_neg (by simpa using hhead)
  have hback : text.reverse.dropWhile isBlank = text.reverse := by
    rw [List.dropWhile_eq_self_iff]
    intro _
    rw [List.getElem_reverse]
    simpa [List.getLast_eq_getElem] using hlast
  rw [trim, hfront, List.reverse_append, List.dropWhile_append_of_pos (by simpa using hafter), hback,
    List.reverse_reverse]

end WebHost.Text
