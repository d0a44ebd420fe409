import WebHost.Proofs.Text.Parts
import WebHost.Route.Pattern

/-!
# The texts of patterns

A pattern is written as a slash and segments between slashes. A segment is a text without braces or
a name in braces. After the segments the pattern may go on with a wildcard for all that remains,
with a slash, or with a slash that is meant alone. Every text of this grammar is read as the pattern
that it spells.
-/

set_option autoImplicit false

namespace WebHost

/-- A text without slashes and braces, and with at least one character. -/
structure IsPlainText (text : String) : Prop where
  not_empty : text ≠ ""
  no_slash : '/' ∉ text.toList
  no_open : '\x7b' ∉ text.toList
  no_close : '\x7d' ∉ text.toList

/-- A text that may stand between the braces of a wildcard. -/
structure IsWildcardName (name : String) : Prop where
  not_empty : name ≠ ""
  no_slash : '/' ∉ name.toList

/-- A segment that may stand before the end of a pattern. A name that ends in three dots would be
the name of a wildcard for all that remains. -/
def Segment.IsPlain : Segment → Prop
  | .literal text => IsPlainText text
  | .param name => IsWildcardName name ∧ name ≠ "$" ∧ ¬ ['.', '.', '.'] <:+ name.toList
  | .rest _ => False

/-- The text of a segment. -/
def Segment.text : Segment → String
  | .literal text => text
  | .param name => "\x7b" ++ name ++ "\x7d"
  | .rest name => "\x7b" ++ name ++ "...\x7d"

/-- How a pattern goes on after its segments. -/
inductive Ending where
  /-- Not at all. -/
  | exact
  /-- With a wildcard for all that remains. -/
  | rest (name : String)
  /-- With a slash and everything below it. -/
  | subtree
  /-- With a slash alone. -/
  | slash
  deriving DecidableEq, Repr

/-- The texts that an ending adds after the segments. -/
def Ending.texts : Ending → List String
  | .exact => []
  | .rest name => [(Segment.rest name).text]
  | .subtree => [""]
  | .slash => ["\x7b$\x7d"]

/-- A pattern as it is written. -/
structure Form where
  segments : List Segment
  ending : Ending

namespace Form

/-- A form of the documented grammar. -/
structure IsDocumented (f : Form) : Prop where
  plain : ∀ segment ∈ f.segments, segment.IsPlain
  exact_ne_nil : f.ending = .exact → f.segments ≠ []
  rest_name : ∀ name, f.ending = .rest name → IsWildcardName name

/-- The texts between the slashes of a form. -/
def texts (f : Form) : List String := f.segments.map Segment.text ++ f.ending.texts

/-- The text of a form. -/
def text (f : Form) : String := "/" ++ Text.joinWith "/" f.texts

/-- The pattern that a form spells. A slash that is meant alone is a part without characters, except
that the pattern of that slash and nothing else has no segments. -/
def pattern (f : Form) : Pattern :=
  match f.ending with
  | .exact => ⟨f.segments, .exact⟩
  | .rest name => ⟨f.segments ++ [.rest name], .rest⟩
  | .subtree => ⟨f.segments, .subtree⟩
  | .slash => ⟨if f.segments.isEmpty then [] else f.segments ++ [.literal ""], .exact⟩

end Form

/-- A text of the documented grammar of patterns. -/
def Pattern.IsDocumented (text : String) : Prop := ∃ f : Form, f.IsDocumented ∧ f.text = text

namespace Pattern

/-! ## Reading one part -/

/-- A part without an opening brace is not in braces. -/
theorem inBraces?_of_no_open {part : List Char} (h : '\x7b' ∉ part) : inBraces? part = none := by
  cases part with
  | nil => rfl
  | cons c part =>
    have hc : c ≠ '\x7b' := fun e => h (by simp [e])
    unfold inBraces?
    split
    · rename_i heq
      exact absurd (List.cons.inj heq).1 hc
    · rfl

/-- What stands in braces is found there. -/
theorem inBraces?_braces (inner : List Char) :
    inBraces? ('\x7b' :: (inner ++ ['\x7d'])) = some inner :=
  Text.before?_eq_some_iff.mpr rfl

/-- A plain segment is read as itself, at the end and elsewhere. -/
theorem readPart_plain {segment : Segment} (h : segment.IsPlain) (isLast : Bool) :
    readPart isLast segment.text.toList = .ok segment := by
  cases segment with
  | literal text =>
    have h : IsPlainText text := h
    have hbrace : hasBrace text.toList = false := by
      simp [hasBrace, h.no_open, h.no_close]
    have hempty : text.toList.isEmpty = false := by
      simpa using h.not_empty
    simp [readPart, Segment.text, inBraces?_of_no_open h.no_open, hbrace, hempty]
  | param name =>
    obtain ⟨hname, hdollar, hdots⟩ := h
    have htext : (Segment.param name).text.toList = '\x7b' :: (name.toList ++ ['\x7d']) := by
      simp [Segment.text]
    have hrest : Text.before? ['.', '.', '.'] name.toList = none := by
      rw [Option.eq_none_iff_forall_ne_some]
      intro front hf
      exact hdots ⟨front, (Text.before?_eq_some_iff.mp hf).symm⟩
    have hempty : name.toList.isEmpty = false := by
      simpa using hname.not_empty
    have hother : name.toList ≠ ['$'] := by
      intro e
      exact hdollar (String.toList_inj.mp e)
    simp [readPart, htext, inBraces?_braces, hrest, hempty, hother]
  | rest name => exact h.elim

/-- A wildcard for all that remains is read at the end. -/
theorem readPart_rest (name : String) :
    readPart true (Segment.rest name).text.toList = .ok (.rest name) := by
  have htext : (Segment.rest name).text.toList =
      '\x7b' :: ((name.toList ++ ['.', '.', '.']) ++ ['\x7d']) := by
    simp [Segment.text]
  have hinner : inBraces? ('\x7b' :: ((name.toList ++ ['.', '.', '.']) ++ ['\x7d'])) =
      some (name.toList ++ ['.', '.', '.']) := inBraces?_braces _
  have hrest : Text.before? ['.', '.', '.'] (name.toList ++ ['.', '.', '.']) = some name.toList :=
    Text.before?_eq_some_iff.mpr rfl
  simp only [readPart, htext, hinner, hrest, if_true, String.ofList_toList]

/-- Plain segments are read one after the other, before whatever follows. -/
theorem readParts_append {segments : List Segment} (h : ∀ segment ∈ segments, segment.IsPlain)
    (more : List (List Char)) :
    readParts (segments.map (·.text.toList) ++ more) = (readParts more).map (segments ++ ·) := by
  induction segments with
  | nil => cases h : readParts more <;> simp [h, Except.map]
  | cons segment segments ih =>
    have hsegment := readPart_plain (h segment List.mem_cons_self)
    rw [List.map_cons, List.cons_append, readParts, hsegment,
      ih fun s hs => h s (List.mem_cons_of_mem _ hs)]
    cases readParts more <;> simp [Except.map]

/-- Plain segments are read back from their texts. -/
theorem readParts_plain {segments : List Segment} (h : ∀ segment ∈ segments, segment.IsPlain) :
    readParts (segments.map (·.text.toList)) = .ok segments := by
  have hread := readParts_append h []
  rw [List.append_nil] at hread
  simpa [readParts, Except.map] using hread

/-- A plain segment does not take the rest of a path. -/
theorem isRest_of_isPlain {segment : Segment} (h : segment.IsPlain) : isRest segment = false := by
  cases segment with
  | literal text => rfl
  | param name => rfl
  | rest name => exact h.elim

/-- Among plain segments none takes the rest of a path. -/
theorem isRest_of_mem_plain {segments : List Segment} (h : ∀ segment ∈ segments, segment.IsPlain) :
    ∀ segment ∈ segments, isRest segment = false :=
  fun segment hsegment => isRest_of_isPlain (h segment hsegment)

/-- Plain segments hold no segment for the rest. -/
theorem any_isRest_plain {segments : List Segment} (h : ∀ segment ∈ segments, segment.IsPlain) :
    segments.any isRest = false := by
  simpa using isRest_of_mem_plain h

/-- A last part that is neither empty nor a slash alone stays. -/
theorem trimEnd_concat {front : List (List Char)} {last : List Char} (hempty : last ≠ [])
    (hslash : last ≠ ['\x7b', '$', '\x7d']) :
    trimEnd (front ++ [last]) = (front ++ [last], .exact) := by
  unfold trimEnd
  rw [List.getLast?_concat]
  split
  · rename_i heq
    exact absurd (Option.some.inj heq) hempty
  · rename_i heq
    exact absurd (Option.some.inj heq) hslash
  · rfl

/-- A pattern that ends with a slash is one for a subtree. -/
theorem trimEnd_empty (front : List (List Char)) : trimEnd (front ++ [[]]) = (front, .subtree) := by
  simp [trimEnd]

/-- A pattern that ends with the mark of the end is exact, with the slash in front of the mark
unless it is the root. -/
theorem trimEnd_slash (front : List (List Char)) :
    trimEnd (front ++ [['\x7b', '$', '\x7d']]) =
      (if front.isEmpty then [] else front ++ [[]], .exact) := by
  simp [trimEnd]

/-- A wildcard for all that remains is none of these ends, whatever its name. -/
theorem trimEnd_rest (front : List (List Char)) (name : String) :
    trimEnd (front ++ [(Segment.rest name).text.toList]) =
      (front ++ [(Segment.rest name).text.toList], .exact) := by
  have hlength : (Segment.rest name).text.toList.length = name.toList.length + 5 := by
    simp [Segment.text]
  apply trimEnd_concat
  · intro hempty
    rw [hempty, List.length_nil] at hlength
    omega
  · intro hslash
    rw [hslash, List.length_cons, List.length_cons, List.length_singleton] at hlength
    omega

/-! ## Reading a whole text -/

/-- The text of a plain segment is free of slashes, is not empty and is no slash alone. -/
theorem text_plain {segment : Segment} (h : segment.IsPlain) :
    '/' ∉ segment.text.toList ∧ segment.text.toList ≠ [] ∧
      segment.text.toList ≠ ['\x7b', '$', '\x7d'] := by
  cases segment with
  | literal text =>
    have h : IsPlainText text := h
    show '/' ∉ text.toList ∧ text.toList ≠ [] ∧ text.toList ≠ ['\x7b', '$', '\x7d']
    refine ⟨h.no_slash, by simpa using h.not_empty, fun e => h.no_open ?_⟩
    rw [e]
    exact List.mem_cons_self
  | param name =>
    obtain ⟨hname, hdollar, -⟩ := h
    have htext : (Segment.param name).text.toList = '\x7b' :: (name.toList ++ ['\x7d']) := by
      simp [Segment.text]
    rw [htext]
    refine ⟨by simp [hname.no_slash], by simp, fun e => hdollar ?_⟩
    have hinner : name.toList ++ ['\x7d'] = ['$'] ++ ['\x7d'] := (List.cons.inj e).2
    exact String.toList_inj.mp (List.append_cancel_right hinner)
  | rest name => exact h.elim

/-- What is written with a slash before each part is cut into these parts again. -/
theorem exists_body_of_parts {parts : List String} (hne : parts ≠ [])
    (hslash : ∀ part ∈ parts, '/' ∉ part.toList) :
    ∃ body, ("/" ++ Text.joinWith "/" parts).toList = '/' :: body ∧
      Text.split '/' body = parts.map String.toList := by
  refine ⟨['/'].intercalate (parts.map String.toList), ?_, ?_⟩
  · simp [Text.toList_joinWith_slash]
  · refine Text.split_intercalate (by simpa using hne) fun part hp => ?_
    obtain ⟨text, ht, rfl⟩ := List.mem_map.mp hp
    exact hslash text ht

end Pattern

namespace Form

variable {f : Form}

/-- A documented form has a text. -/
theorem texts_ne_nil (h : f.IsDocumented) : f.texts ≠ [] := by
  intro hnil
  obtain ⟨hsegments, hending⟩ := List.append_eq_nil_iff.mp hnil
  cases he : f.ending with
  | exact => exact h.exact_ne_nil he (List.map_eq_nil_iff.mp hsegments)
  | rest name => simp [he, Ending.texts] at hending
  | subtree => simp [he, Ending.texts] at hending
  | slash => simp [he, Ending.texts] at hending

/-- The texts of a documented form have no slash. -/
theorem no_slash_of_mem_texts (h : f.IsDocumented) {text : String} (ht : text ∈ f.texts) :
    '/' ∉ text.toList := by
  rcases List.mem_append.mp ht with ht | ht
  · obtain ⟨segment, hs, rfl⟩ := List.mem_map.mp ht
    exact (Pattern.text_plain (h.plain segment hs)).1
  · cases he : f.ending with
    | exact => simp [he, Ending.texts] at ht
    | rest name =>
      obtain rfl : text = (Segment.rest name).text := by simpa [he, Ending.texts] using ht
      simp [Segment.text, (h.rest_name name he).no_slash]
    | subtree =>
      obtain rfl : text = "" := by simpa [he, Ending.texts] using ht
      simp
    | slash =>
      obtain rfl : text = "\x7b$\x7d" := by simpa [he, Ending.texts] using ht
      decide

/-- The text of a form begins with a slash, and is cut at the others into its parts. -/
theorem exists_body (h : f.IsDocumented) :
    ∃ body, f.text.toList = '/' :: body ∧ Text.split '/' body = f.texts.map String.toList :=
  Pattern.exists_body_of_parts (texts_ne_nil h) fun _ ht => no_slash_of_mem_texts h ht

open Pattern in
/-- A text of the documented grammar is read as the pattern that it spells. -/
theorem parse_text (h : f.IsDocumented) : Pattern.parse f.text = .ok f.pattern := by
  obtain ⟨body, htext, hsplit⟩ := exists_body h
  have hplain := readParts_plain h.plain
  have hnone := any_isRest_plain h.plain
  have hparts : f.texts.map String.toList =
      f.segments.map (·.text.toList) ++ f.ending.texts.map String.toList := by
    simp [texts]
  rw [parse, htext]
  simp only [hsplit, hparts]
  -- the segments are read alike; the endings differ in what is left of the last part
  cases he : f.ending with
  | exact =>
    have hlast : f.segments = f.segments.dropLast ++ [f.segments.getLast (h.exact_ne_nil he)] :=
      (List.dropLast_concat_getLast _).symm
    have htrim : trimEnd (f.segments.map (·.text.toList)) =
        (f.segments.map (·.text.toList), .exact) := by
      obtain ⟨-, hempty, hslash⟩ := text_plain (h.plain _ (List.getLast_mem (h.exact_ne_nil he)))
      rw [hlast, List.map_append, List.map_singleton]
      exact trimEnd_concat hempty hslash
    simp [Ending.texts, htrim, hplain, hnone, pattern, he]
  | rest name =>
    have hread : readParts (f.segments.map (·.text.toList) ++ [(Segment.rest name).text.toList]) =
        .ok (f.segments ++ [.rest name]) := by
      rw [readParts_append h.plain, readParts, List.isEmpty_nil, readPart_rest]
      rfl
    simp [Ending.texts, trimEnd_rest, hread, pattern, he, isRest]
  | subtree =>
    simp [Ending.texts, trimEnd_empty, hplain, hnone, pattern, he]
  | slash =>
    have hslash : "\x7b$\x7d".toList = ['\x7b', '$', '\x7d'] := by decide
    by_cases hsegments : f.segments = []
    · simp [Ending.texts, trimEnd, hslash, hsegments, readParts, pattern, he]
    · have htrim : trimEnd (f.segments.map (·.text.toList) ++ [['\x7b', '$', '\x7d']]) =
          (f.segments.map (·.text.toList) ++ [[]], .exact) := by
        rw [trimEnd_slash, if_neg (by simpa using hsegments)]
      have hread : readParts (f.segments.map (·.text.toList) ++ [[]]) =
          .ok (f.segments ++ [.literal ""]) := by
        rw [readParts_append h.plain]
        rfl
      simp [Ending.texts, hslash, htrim, hread, hnone, pattern, he, hsegments, isRest]

/-- The four endings, as they are written. -/
example : ([.exact, .rest "more", .subtree, .slash] : List Ending).map
    (fun ending => (⟨[.literal "a", .param "b"], ending⟩ : Form).text) =
    ["/a/\x7bb\x7d", "/a/\x7bb\x7d/\x7bmore...\x7d", "/a/\x7bb\x7d/",
      "/a/\x7bb\x7d/\x7b$\x7d"] := by
  decide

end Form

end WebHost
