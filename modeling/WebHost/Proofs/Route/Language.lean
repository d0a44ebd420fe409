import Mathlib.Data.List.Forall2
import Mathlib.Data.Set.BooleanAlgebra
import Mathlib.Order.CompletePartialOrder
import WebHost.Proofs.Route.Grammar

/-!
# The language of a pattern

The language of a pattern is the set of paths that it matches. For a pattern of the documented
grammar it is described by the parts of a path alone: the first of them fit the segments, one each,
and what remains is what the ending leaves. Every row of parts without slashes is that of a path, so
languages may be compared by their parts.
-/

set_option autoImplicit false

namespace WebHost

/-- The paths that a pattern matches. -/
def Pattern.language (p : Pattern) : Set String := {path | (p.matches? path).isSome}

/-- A path is cut into parts at its slashes, but for one that it begins with. -/
structure IsCutInto (path : String) (parts : List String) : Prop where
  ne_nil : parts ≠ []
  no_slash : ∀ part ∈ parts, '/' ∉ part.toList
  joined : path = "/" ++ Text.joinWith "/" parts ∨
    path.toList.head? ≠ some '/' ∧ path = Text.joinWith "/" parts

/-- A part of a path fits a segment that stands for one part. -/
def Segment.Fits : Segment → String → Prop
  | .literal text, part => part = text
  | .param _, part => part ≠ ""
  | .rest _, _ => False

/-- Whether an ending lets a path go on in any way. -/
def Ending.IsOpen : Ending → Prop
  | .rest _ | .subtree => True
  | .exact | .slash => False

/-- The parts that an ending leaves after the segments. -/
def Ending.Leaves : Ending → List String → Prop
  | .exact, remaining => remaining = []
  | .slash, remaining => remaining = [""]
  | .rest _, _ | .subtree, _ => True

/-- The parts of a path fit a form. -/
def Form.Fits (f : Form) (parts : List String) : Prop :=
  ∃ front remaining, parts = front ++ remaining ∧ List.Forall₂ Segment.Fits f.segments front ∧
    f.ending.Leaves remaining

namespace Pattern

/-! ## Paths and their parts -/

/-- A path has at least one part. -/
theorem pathParts_ne_nil (path : String) : pathParts path ≠ [] := by
  unfold pathParts
  exact fun h => Text.split_ne_nil _ _ (List.map_eq_nil_iff.mp h)

/-- A path is cut into its parts. -/
theorem isCutInto_pathParts (path : String) : IsCutInto path (pathParts path) := by
  have hno_slash (body : List Char) :
      ∀ part ∈ (Text.split '/' body).map String.ofList, '/' ∉ part.toList := by
    intro part hpart
    obtain ⟨chars, hchars, rfl⟩ := List.mem_map.mp hpart
    rw [String.toList_ofList]
    exact Text.not_mem_of_mem_split hchars
  have hjoined (body : List Char) :
      (Text.joinWith "/" ((Text.split '/' body).map String.ofList)).toList = body := by
    rw [Text.toList_joinWith_slash, List.map_map]
    simp [Function.comp_def, Text.intercalate_split]
  refine ⟨pathParts_ne_nil path, ?_, ?_⟩
  · exact hno_slash _
  · rw [pathParts]
    split
    · rename_i body hpath
      left
      apply String.toList_inj.mp
      rw [String.toList_append, hjoined, hpath]
      rfl
    · rename_i hpath
      right
      refine ⟨?_, String.toList_inj.mp (hjoined _).symm⟩
      intro hhead
      obtain ⟨body, hbody⟩ := List.head?_eq_some_iff.mp hhead
      exact hpath body hbody

/-- A path is cut in one way only. -/
theorem eq_pathParts_of_isCutInto {path : String} {parts : List String}
    (h : IsCutInto path parts) : parts = pathParts path := by
  have hsplit : Text.split '/' (['/'].intercalate (parts.map String.toList)) =
      parts.map String.toList := by
    refine Text.split_intercalate (by simpa using h.ne_nil) fun part hpart => ?_
    obtain ⟨text, htext, rfl⟩ := List.mem_map.mp hpart
    exact h.no_slash text htext
  have hparts : parts = (Text.split '/' (Text.joinWith "/" parts).toList).map String.ofList := by
    rw [Text.toList_joinWith_slash, hsplit, List.map_map]
    simp [Function.comp_def]
  rcases h.joined with hpath | ⟨hhead, hpath⟩
  · have hbody : path.toList = '/' :: (Text.joinWith "/" parts).toList := by
      rw [hpath]
      simp
    rw [pathParts, hbody]
    exact hparts
  · rw [pathParts]
    split
    · rename_i body hbody
      simp [hbody] at hhead
    · rw [hpath]
      exact hparts

/-- Every row of parts without slashes is that of a path. -/
theorem exists_pathParts {parts : List String} (hne : parts ≠ [])
    (h : ∀ part ∈ parts, '/' ∉ part.toList) : ∃ path, pathParts path = parts :=
  ⟨"/" ++ Text.joinWith "/" parts, (eq_pathParts_of_isCutInto ⟨hne, h, .inl rfl⟩).symm⟩

/-! ## What a pattern matches -/

/-- The parameters that segments capture from parts, one part for each segment. -/
def captured : List Segment → List String → List (String × String)
  | .param name :: segments, part :: parts => (name, part) :: captured segments parts
  | _ :: segments, _ :: parts => captured segments parts
  | _, _ => []

/-- What is captured by segments is what the first one captures and what the others do. -/
theorem captured_cons (segment : Segment) (segments : List Segment) (part : String)
    (parts : List String) : captured (segment :: segments) (part :: parts) =
      captured [segment] [part] ++ captured segments parts := by
  cases segment <;> simp [captured]

/-- A segment for one part settles that part by itself. -/
theorem matchSegments_cons_eq_some_iff {segment : Segment} {segments : List Segment}
    {parts : List String} {params : List (String × String)} {out : Option (List String)}
    (h : isRest segment = false) :
    matchSegments (segment :: segments) parts = some (params, out) ↔
      ∃ part rest later, parts = part :: rest ∧ segment.Fits part ∧
        params = captured [segment] [part] ++ later ∧
        matchSegments segments rest = some (later, out) := by
  cases segment with
  | literal text =>
    cases parts with
    | nil => simp [matchSegments]
    | cons part rest => simp [matchSegments, Segment.Fits, captured]
  | param name =>
    cases parts with
    | nil => simp [matchSegments]
    | cons part rest =>
      simp only [matchSegments, Segment.Fits, captured, Option.ite_none_left_eq_some,
        Option.map_eq_some_iff, Prod.exists, Prod.mk.injEq, String.isEmpty_iff]
      constructor
      · rintro ⟨hpart, later, out', hm, rfl, rfl⟩
        exact ⟨part, rest, later, rfl, hpart, rfl, hm⟩
      · rintro ⟨part', rest', later, hparts, hpart, rfl, hm⟩
        obtain ⟨rfl, rfl⟩ := List.cons.inj hparts
        exact ⟨hpart, later, out, hm, rfl, rfl⟩
  | rest name => simp [isRest] at h

/-- Segments before a wildcard for all that remains take one part each, and what follows them gets
the parts that remain. -/
theorem matchSegments_append_eq_some_iff {segments more : List Segment} {parts : List String}
    {params : List (String × String)} {out : Option (List String)}
    (h : ∀ segment ∈ segments, isRest segment = false) :
    matchSegments (segments ++ more) parts = some (params, out) ↔
      ∃ front remaining later, parts = front ++ remaining ∧
        List.Forall₂ Segment.Fits segments front ∧ params = captured segments front ++ later ∧
        matchSegments more remaining = some (later, out) := by
  induction segments generalizing parts params with
  | nil => simp [captured]
  | cons segment segments ih =>
    obtain ⟨hsegment, hsegments⟩ := List.forall_mem_cons.mp h
    rw [List.cons_append, matchSegments_cons_eq_some_iff hsegment]
    constructor
    · rintro ⟨part, rest, _, rfl, hpart, rfl, hm⟩
      obtain ⟨front, remaining, later, rfl, hfits, rfl, hmore⟩ := (ih hsegments).mp hm
      refine ⟨part :: front, remaining, later, rfl, .cons hpart hfits, ?_, hmore⟩
      rw [captured_cons segment segments part front, List.append_assoc]
    · rintro ⟨_, remaining, later, rfl, hfits, rfl, hm⟩
      cases hfits with
      | @cons _ part _ front hpart hfits =>
        have hrest := (ih hsegments).mpr ⟨front, remaining, later, rfl, hfits, rfl, hm⟩
        refine ⟨part, front ++ remaining, _, rfl, hpart, ?_, hrest⟩
        rw [captured_cons segment segments part front, List.append_assoc]

/-- Plain segments take one part each, and what follows them gets the parts that remain. -/
theorem exists_matchSegments_append {segments more : List Segment} {parts : List String}
    {out : Option (List String)} (h : ∀ segment ∈ segments, segment.IsPlain) :
    (∃ params, matchSegments (segments ++ more) parts = some (params, out)) ↔
      ∃ front remaining, parts = front ++ remaining ∧
        List.Forall₂ Segment.Fits segments front ∧
        ∃ params, matchSegments more remaining = some (params, out) := by
  have hrest := isRest_of_mem_plain h
  constructor
  · rintro ⟨params, hm⟩
    obtain ⟨front, remaining, later, hparts, hfits, -, hm⟩ :=
      (matchSegments_append_eq_some_iff hrest).mp hm
    exact ⟨front, remaining, hparts, hfits, later, hm⟩
  · rintro ⟨front, remaining, hparts, hfits, later, hm⟩
    exact ⟨captured segments front ++ later,
      (matchSegments_append_eq_some_iff hrest).mpr
        ⟨front, remaining, later, hparts, hfits, rfl, hm⟩⟩

/-- Plain segments on their own leave what remains. -/
theorem exists_matchSegments_plain {segments : List Segment} {parts : List String}
    {out : Option (List String)} (h : ∀ segment ∈ segments, segment.IsPlain) :
    (∃ params, matchSegments segments parts = some (params, out)) ↔
      ∃ front remaining, parts = front ++ remaining ∧
        List.Forall₂ Segment.Fits segments front ∧ out = some remaining := by
  rw [← List.append_nil segments, exists_matchSegments_append h, List.append_nil]
  simp [matchSegments, eq_comm]

/-- A part without characters is taken from the parts like any other literal. -/
theorem exists_matchSegments_empty {parts : List String} {out : Option (List String)} :
    (∃ params, matchSegments [.literal ""] parts = some (params, out)) ↔
      ∃ rest, parts = "" :: rest ∧ out = some rest := by
  cases parts with
  | nil => simp [matchSegments]
  | cons part rest =>
    by_cases hpart : part = ""
    · simp [matchSegments, hpart, eq_comm]
    · simp [matchSegments, hpart]

/-- A pattern returns what its segments capture, when nothing remains that may not. -/
theorem matches?_eq_some_iff {p : Pattern} {path : String}
    {params : List (String × String)} :
    p.matches? path = some params ↔
      matchSegments p.segments (pathParts path) = some (params, none) ∨
      ∃ remaining, matchSegments p.segments (pathParts path) = some (params, some remaining) ∧
        (p.tail = .subtree ∨ remaining = [] ∨ p.segments = [] ∧ remaining = [""]) := by
  unfold matches?
  cases hm : matchSegments p.segments (pathParts path) with
  | none => simp
  | some found =>
    obtain ⟨found, out⟩ := found
    cases out with
    | none => simp
    | some remaining => simp [or_assoc, and_comm]

/-- A pattern matches a path when its segments do and nothing remains that may not. -/
theorem mem_language_iff_exists {p : Pattern} {path : String} :
    path ∈ p.language ↔
      (∃ params, matchSegments p.segments (pathParts path) = some (params, none)) ∨
      ∃ remaining, (∃ params, matchSegments p.segments (pathParts path) =
        some (params, some remaining)) ∧
        (p.tail = .subtree ∨ remaining = [] ∨ p.segments = [] ∧ remaining = [""]) := by
  show (p.matches? path).isSome ↔ _
  simp only [Option.isSome_iff_exists, matches?_eq_some_iff, exists_or]
  rw [exists_comm]
  simp only [exists_and_right]

end Pattern

namespace Form

open Pattern

variable {f : Form}

/-- The language of a form, by the parts of a path. -/
theorem mem_language_iff (h : f.IsDocumented) {path : String} :
    path ∈ f.pattern.language ↔ f.Fits (pathParts path) := by
  rw [mem_language_iff_exists]
  cases he : f.ending with
  | exact =>
    have hne := h.exact_ne_nil he
    simp [pattern, he, exists_matchSegments_plain h.plain, hne, Fits, Ending.Leaves]
  | rest name =>
    simp [pattern, he, exists_matchSegments_append h.plain, Fits, Ending.Leaves, matchSegments]
  | subtree =>
    simp only [pattern, he, exists_matchSegments_plain h.plain, Fits, Ending.Leaves]
    constructor
    · rintro (⟨_, _, -, -, hout⟩ | ⟨remaining, ⟨front, _, hparts, hfits, hout⟩, -⟩)
      · exact absurd hout (by simp)
      · exact ⟨front, _, hparts, hfits, trivial⟩
    · rintro ⟨front, remaining, hparts, hfits, -⟩
      exact .inr ⟨remaining, ⟨front, remaining, hparts, hfits, rfl⟩, .inl trivial⟩
  | slash =>
    by_cases hs : f.segments = []
    · simp [pattern, he, Fits, Ending.Leaves, hs, matchSegments, pathParts_ne_nil]
    · simp [pattern, he, hs, exists_matchSegments_append h.plain, exists_matchSegments_empty, Fits,
        Ending.Leaves]

end Form

end WebHost
