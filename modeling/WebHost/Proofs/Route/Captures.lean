import WebHost.Proofs.Route.Language
import WebHost.Proofs.Route.Syntax

/-!
# What a pattern captures

A path is cut into parts at its slashes, and a pattern looks at these parts by their positions: a
literal asks for a part that equals it, a wildcard for one part asks for a part with characters, and
the end of the pattern says what may come behind. The parameters that a pattern returns are what
its wildcards stood at, so with their values in the places of the wildcards the segments are the
parts that the path begins with, and a wildcard for all that remains has the rest of them. Nothing
of a path is lost on the way.

The proof splits the parts in two. The segments before a wildcard for all that remains take one part
each (`matches?_eq_some_iff_fits`), which is the condition by positions (`fits_take_iff`); the parts
behind them belong to the end of the pattern, which its text settles (`segments_of_spells`).
-/

set_option autoImplicit false

namespace WebHost

/-- What a segment asks of the part at its position. -/
def Segment.AsksFor : Segment → Option String → Prop
  | .literal text, part => part = some text
  | .param _, part => ∃ value, part = some value ∧ value ≠ ""
  | .rest _, _ => True

/-- What a wildcard captures, when `further` are the parts behind the segments before it that take
one part each. -/
def Segment.Yields (further : List String) : Segment → String × String → Prop
  | .literal _, _ => False
  | .param name, (written, value) => written = name ∧ value ≠ "" ∧ '/' ∉ value.toList
  | .rest name, (written, value) => written = name ∧ value = Text.joinWith "/" further

namespace Pattern

/-- The segments before a wildcard for all that remains. -/
def leading (p : Pattern) : List Segment := p.segments.takeWhile (!isRest ·)

/-- Whether a pattern leaves the parts that are behind its segments. -/
def Leaves (p : Pattern) (further : List String) : Prop :=
  match p.tail with
  | .exact => further = [] ∨ p.segments = [] ∧ further = [""]
  | .subtree | .rest => True

/-- A pattern accepts the parts of a path. -/
structure Accepts (p : Pattern) (parts : List String) : Prop where
  positions : ∀ (i : Nat) (segment : Segment), p.segments[i]? = some segment →
    segment.AsksFor parts[i]?
  further : p.Leaves (parts.drop p.segments.length)

/-- Segments with values in the places of their wildcards. -/
def substituted : List Segment → List String → List String
  | .literal text :: segments, values => text :: substituted segments values
  | _ :: segments, value :: values => value :: substituted segments values
  | _, _ => []

/-- The parameters are what the wildcards of a pattern stand at among the parts of a path. -/
structure Captures (p : Pattern) (parts : List String) (params : List (String × String)) : Prop where
  wildcards : List.Forall₂ (Segment.Yields (parts.drop p.leading.length))
    (p.segments.filter (!isLiteral ·)) params
  leading : substituted p.leading (params.map Prod.snd) = parts.take p.leading.length

/-- A pattern matches a path and captures from it by the parts that the path is cut into. -/
structure GoesByParts (p : Pattern) (path : String) : Prop where
  cut : ∃! parts, IsCutInto path parts
  accepts : ∀ parts, IsCutInto path parts →
    ((∃ params, p.matches? path = some params) ↔ p.Accepts parts)
  captures : ∀ parts params, IsCutInto path parts → p.matches? path = some params →
    p.Captures parts params

variable {path text : String} {parts further : List String} {p : Pattern}
  {segments : List Segment} {params : List (String × String)}

/-! ## How a pattern ends -/

/-- No leading segment takes the rest of a path. -/
theorem isRest_of_mem_leading {segment : Segment} (h : segment ∈ p.leading) :
    isRest segment = false := by
  simpa using List.mem_takeWhile_imp h

/-- Without a segment for the rest, all segments lead. -/
theorem leading_eq_self {segments : List Segment} {tail : Tail}
    (h : ∀ segment ∈ segments, isRest segment = false) :
    (⟨segments, tail⟩ : Pattern).leading = segments := by
  refine List.takeWhile_eq_self_iff.mpr fun segment hsegment => ?_
  rw [h segment hsegment]
  rfl

/-- In front of a segment for the rest, all others lead. -/
theorem leading_concat_rest {segments : List Segment} {name : String} {tail : Tail}
    (h : ∀ segment ∈ segments, isRest segment = false) :
    (⟨segments ++ [.rest name], tail⟩ : Pattern).leading = segments := by
  rw [leading, List.takeWhile_append_of_pos fun segment hsegment => by rw [h segment hsegment]; rfl]
  simp [isRest]

/-- A pattern has a wildcard for all that remains behind its other segments, or has none. -/
theorem segments_of_spells (h : Spells text p) :
    (p.tail ≠ .rest ∧ p.segments = p.leading) ∨
      ∃ name, p.tail = .rest ∧ p.segments = p.leading ++ [.rest name] := by
  have hempty {front : List Segment} (hfront : ∀ segment ∈ front, segment.IsPlain) :
      ∀ segment ∈ front ++ [.literal ""], isRest segment = false :=
    List.forall_mem_append.mpr ⟨isRest_of_mem_plain hfront, List.forall_mem_singleton.mpr rfl⟩
  cases h with
  | exact hfront hlast =>
    have hall := List.forall_mem_append.mpr ⟨hfront, List.forall_mem_singleton.mpr hlast⟩
    exact .inl ⟨by simp, (leading_eq_self (isRest_of_mem_plain hall)).symm⟩
  | @slash front hfront =>
    have hall : ∀ segment ∈ if front.isEmpty then [] else front ++ [.literal ""],
        isRest segment = false := by
      split_ifs
      · simp
      · exact hempty hfront
    exact .inl ⟨by simp, (leading_eq_self hall).symm⟩
  | subtree hfront => exact .inl ⟨by simp, (leading_eq_self (isRest_of_mem_plain hfront)).symm⟩
  | emptyInside hfront => exact .inl ⟨by simp, (leading_eq_self (hempty hfront)).symm⟩
  | @rest front name hfront | @restInside front name hfront =>
    exact .inr ⟨name, rfl, by rw [leading_concat_rest (isRest_of_mem_plain hfront)]⟩

/-- A pattern leaves further parts if it takes the rest or a subtree, or if there are none but the
empty one behind the root. -/
theorem leaves_iff : p.Leaves further ↔
    p.tail = .rest ∨ p.tail = .subtree ∨ further = [] ∨ p.segments = [] ∧ further = [""] := by
  unfold Leaves
  cases p.tail <;> simp

/-! ## What a pattern takes of the parts -/

/-- What the end of a pattern captures of the parts behind the others. -/
def atEnd (p : Pattern) (further : List String) : List (String × String) :=
  match p.segments.getLast? with
  | some (.rest name) => [(name, Text.joinWith "/" further)]
  | _ => []

/-- Without a segment for the rest, nothing is captured at the end. -/
theorem atEnd_of_leading (h : p.segments = p.leading) (further : List String) :
    p.atEnd further = [] := by
  unfold atEnd
  split
  · rename_i name hlast
    rw [h] at hlast
    have hrest := isRest_of_mem_leading (List.mem_of_getLast? hlast)
    simp [isRest] at hrest
  · rfl

/-- A segment for the rest captures the further parts, joined. -/
theorem atEnd_of_rest {name : String} (h : p.segments = p.leading ++ [.rest name])
    (further : List String) : p.atEnd further = [(name, Text.joinWith "/" further)] := by
  rw [atEnd, h, List.getLast?_concat]

/-- Segments without a wildcard for all that remains leave what remains. -/
theorem matches?_eq_some_iff_of_leading (h : p.segments = p.leading) :
    p.matches? path = some params ↔
      ∃ front further, pathParts path = front ++ further ∧
        List.Forall₂ Segment.Fits p.leading front ∧
        (p.tail = .subtree ∨ further = [] ∨ p.segments = [] ∧ further = [""]) ∧
        params = captured p.leading front := by
  have hleading : ∀ segment ∈ p.leading, isRest segment = false :=
    fun _ => isRest_of_mem_leading
  have hmatch (out : Option (List String)) :
      matchSegments p.segments (pathParts path) = some (params, out) ↔
        ∃ front further, pathParts path = front ++ further ∧
          List.Forall₂ Segment.Fits p.leading front ∧ params = captured p.leading front ∧
          out = some further := by
    rw [show p.segments = p.leading ++ [] by rw [List.append_nil, ← h],
      matchSegments_append_eq_some_iff hleading]
    simp [matchSegments, eq_comm]
  rw [matches?_eq_some_iff]
  simp only [hmatch]
  constructor
  · rintro (⟨_, _, -, -, -, hout⟩ | ⟨_, ⟨front, further, hparts, hfits, hparams, hout⟩, hend⟩)
    · simp at hout
    · obtain rfl := Option.some.inj hout
      exact ⟨front, _, hparts, hfits, hend, hparams⟩
  · rintro ⟨front, further, hparts, hfits, hend, hparams⟩
    exact .inr ⟨further, ⟨front, further, hparts, hfits, hparams, rfl⟩, hend⟩

/-- A wildcard for all that remains captures it. -/
theorem matches?_eq_some_iff_of_rest {name : String} (h : p.segments = p.leading ++ [.rest name]) :
    p.matches? path = some params ↔
      ∃ front further, pathParts path = front ++ further ∧
        List.Forall₂ Segment.Fits p.leading front ∧
        params = captured p.leading front ++ [(name, Text.joinWith "/" further)] := by
  have hleading : ∀ segment ∈ p.leading, isRest segment = false :=
    fun _ => isRest_of_mem_leading
  rw [matches?_eq_some_iff, h]
  simp only [matchSegments_append_eq_some_iff hleading]
  simp [matchSegments]

/-- A pattern matches if the segments before a wildcard for all that remains take one part each and
the end leaves the parts behind them. The parameters are what both capture. -/
theorem matches?_eq_some_iff_fits (h : Spells text p) :
    p.matches? path = some params ↔
      ∃ front further, pathParts path = front ++ further ∧
        List.Forall₂ Segment.Fits p.leading front ∧ p.Leaves further ∧
        params = captured p.leading front ++ p.atEnd further := by
  rcases segments_of_spells h with ⟨htail, hsegments⟩ | ⟨name, htail, hsegments⟩
  · simp only [matches?_eq_some_iff_of_leading hsegments, atEnd_of_leading hsegments, leaves_iff,
      htail, false_or, List.append_nil]
  · simp only [matches?_eq_some_iff_of_rest hsegments, atEnd_of_rest hsegments, leaves_iff, htail,
      true_or, true_and]

/-! ## Positions -/

/-- A segment for one part fits exactly what it asks for. -/
theorem fits_iff_asksFor {segment : Segment} {part : String} (h : isRest segment = false) :
    segment.Fits part ↔ segment.AsksFor (some part) := by
  cases segment with
  | literal text => simp [Segment.Fits, Segment.AsksFor]
  | param name => simp [Segment.Fits, Segment.AsksFor]
  | rest name => simp [isRest] at h

/-- A segment for one part asks for one. -/
theorem not_asksFor_none {segment : Segment} (h : isRest segment = false) :
    ¬ segment.AsksFor none := by
  cases segment with
  | literal text => simp [Segment.AsksFor]
  | param name => simp [Segment.AsksFor]
  | rest name => simp [isRest] at h

/-- Segments fit the parts in front if each gets at its position what it asks for. -/
theorem fits_take_iff (h : ∀ segment ∈ segments, isRest segment = false) :
    List.Forall₂ Segment.Fits segments (parts.take segments.length) ↔
      ∀ (i : Nat) (segment : Segment), segments[i]? = some segment →
        segment.AsksFor parts[i]? := by
  induction segments generalizing parts with
  | nil => simp
  | cons first segments ih =>
    obtain ⟨hfirst, hsegments⟩ := List.forall_mem_cons.mp h
    cases parts with
    | nil =>
      have hnot : ¬ first.AsksFor none := not_asksFor_none hfirst
      constructor
      · intro hfits
        cases hfits
      · intro hall
        exact absurd (hall 0 first rfl) hnot
    | cons part parts =>
      rw [List.length_cons, List.take_succ_cons, List.forall₂_cons, fits_iff_asksFor hfirst,
        ih hsegments]
      constructor
      · rintro ⟨hpart, hrest⟩ i segment hi
        cases i with
        | zero =>
          obtain rfl := Option.some.inj hi
          exact hpart
        | succ i => exact hrest i segment hi
      · intro hall
        exact ⟨hall 0 first rfl, fun i segment hi => hall (i + 1) segment hi⟩

/-- The parts that a pattern accepts are those that its segments and its end take. -/
theorem accepts_iff (h : Spells text p) :
    p.Accepts parts ↔
      List.Forall₂ Segment.Fits p.leading (parts.take p.leading.length) ∧
        p.Leaves (parts.drop p.leading.length) := by
  rw [fits_take_iff fun _ => isRest_of_mem_leading]
  rcases segments_of_spells h with ⟨-, hsegments⟩ | ⟨name, htail, hsegments⟩
  · rw [← hsegments]
    exact ⟨fun haccepts => ⟨haccepts.positions, haccepts.further⟩,
      fun ⟨hpositions, hfurther⟩ => ⟨hpositions, hfurther⟩⟩
  · have hleaves (further : List String) : p.Leaves further := leaves_iff.mpr (.inl htail)
    constructor
    · intro haccepts
      refine ⟨fun i segment hi => haccepts.positions i segment ?_, hleaves _⟩
      have hlength := (List.getElem?_eq_some_iff.mp hi).1
      rw [hsegments, List.getElem?_append_left hlength, hi]
    · rintro ⟨hpositions, -⟩
      refine ⟨fun i segment hi => ?_, hleaves _⟩
      rw [hsegments] at hi
      by_cases hlength : i < p.leading.length
      · rw [List.getElem?_append_left hlength] at hi
        exact hpositions i segment hi
      · -- behind the others stands the wildcard, which asks for nothing
        rw [List.getElem?_append_right (by omega)] at hi
        obtain rfl := List.mem_singleton.mp (List.mem_of_getElem? hi)
        trivial

/-! ## Values -/

/-- The values that segments capture, in the places of the wildcards, are the parts again. -/
theorem substituted_captured {front : List String} (h : List.Forall₂ Segment.Fits segments front)
    (more : List String) :
    substituted segments ((captured segments front).map Prod.snd ++ more) = front := by
  induction h with
  | nil => rfl
  | @cons segment part segments front hpart _ ih =>
    cases segment with
    | literal text =>
      have hpart : part = text := hpart
      rw [hpart]
      exact congrArg (text :: ·) ih
    | param name => exact congrArg (part :: ·) ih
    | rest name => exact hpart.elim

/-- Each wildcard for one part captures a part, and these are in the order of the segments. -/
theorem yields_captured {front : List String} (h : List.Forall₂ Segment.Fits segments front)
    (hslash : ∀ part ∈ front, '/' ∉ part.toList) :
    List.Forall₂ (Segment.Yields further) (segments.filter (!isLiteral ·))
      (captured segments front) := by
  induction h with
  | nil => exact .nil
  | @cons segment part segments front hpart _ ih =>
    obtain ⟨hfirst, hothers⟩ := List.forall_mem_cons.mp hslash
    have ih := ih hothers
    cases segment with
    | literal text => exact ih
    | param name => exact .cons ⟨rfl, hpart, hfirst⟩ ih
    | rest name => exact hpart.elim

/-- What stands behind the leading segments captures what the pattern captures at its end. -/
theorem yields_atEnd (h : Spells text p) (further : List String) :
    ∃ more, p.segments = p.leading ++ more ∧
      List.Forall₂ (Segment.Yields further) (more.filter (!isLiteral ·)) (p.atEnd further) := by
  rcases segments_of_spells h with ⟨-, hsegments⟩ | ⟨name, -, hsegments⟩
  · refine ⟨[], by rw [List.append_nil, ← hsegments], ?_⟩
    rw [atEnd_of_leading hsegments]
    exact .nil
  · refine ⟨[.rest name], hsegments, ?_⟩
    rw [atEnd_of_rest hsegments]
    exact .cons ⟨rfl, rfl⟩ .nil

/-- What is captured by matching is what the pattern captures of the parts. -/
theorem captures_of_matches (h : Spells text p) (hmatches : p.matches? path = some params) :
    p.Captures (pathParts path) params := by
  obtain ⟨front, further, hparts, hfits, -, rfl⟩ := (matches?_eq_some_iff_fits h).mp hmatches
  have hlength : front.length = p.leading.length := hfits.length_eq.symm
  have hslash : ∀ part ∈ front, '/' ∉ part.toList := by
    intro part hpart
    apply (isCutInto_pathParts path).no_slash
    rw [hparts]
    exact List.mem_append_left _ hpart
  obtain ⟨more, hsegments, hmore⟩ := yields_atEnd h further
  refine ⟨?_, ?_⟩
  · rw [hparts, List.drop_left' hlength, hsegments, List.filter_append]
    exact List.rel_append (yields_captured hfits hslash) hmore
  · rw [hparts, List.take_left' hlength, List.map_append]
    exact substituted_captured hfits _

/-- A path is matched exactly if its parts are accepted. -/
theorem exists_matches_iff (h : Spells text p) :
    (∃ params, p.matches? path = some params) ↔ p.Accepts (pathParts path) := by
  rw [accepts_iff h]
  constructor
  · rintro ⟨params, hmatches⟩
    obtain ⟨front, further, hparts, hfits, hleaves, -⟩ := (matches?_eq_some_iff_fits h).mp hmatches
    have hlength : front.length = p.leading.length := hfits.length_eq.symm
    rw [hparts, List.take_left' hlength, List.drop_left' hlength]
    exact ⟨hfits, hleaves⟩
  · rintro ⟨hfits, hleaves⟩
    have hparts := (List.take_append_drop p.leading.length (pathParts path)).symm
    exact ⟨_, (matches?_eq_some_iff_fits h).mpr ⟨_, _, hparts, hfits, hleaves, rfl⟩⟩

/-- Every pattern that is read is the one that its text spells, matches a path by the parts that the
path is cut into, and captures what its wildcards stand at. -/
theorem goesByParts_of_parse (h : parse text = .ok p) :
    Spells text p ∧ ∀ path, p.GoesByParts path := by
  have hspells := spells_of_parse h
  refine ⟨hspells, fun path => ⟨?_, ?_, ?_⟩⟩
  · exact ⟨pathParts path, isCutInto_pathParts path, fun _ hcut => eq_pathParts_of_isCutInto hcut⟩
  · intro parts hcut
    rw [eq_pathParts_of_isCutInto hcut]
    exact exists_matches_iff hspells
  · intro parts params hcut hmatches
    rw [eq_pathParts_of_isCutInto hcut]
    exact captures_of_matches hspells hmatches

/-- A pattern with both kinds of wildcards, and paths that give the second one something and
nothing. -/
theorem goesByParts_files :
    parse "/files/\x7bid\x7d/\x7bpath...\x7d" =
        .ok ⟨[.literal "files", .param "id", .rest "path"], .rest⟩ ∧
      (∀ path, (⟨[.literal "files", .param "id", .rest "path"], .rest⟩ : Pattern).GoesByParts path) ∧
      (⟨[.literal "files", .param "id", .rest "path"], .rest⟩ : Pattern).matches? "/files/7/a/b" =
        some [("id", "7"), ("path", "a/b")] ∧
      (⟨[.literal "files", .param "id", .rest "path"], .rest⟩ : Pattern).matches? "/files/7" =
        some [("id", "7"), ("path", "")] := by
  have hparse : parse "/files/\x7bid\x7d/\x7bpath...\x7d" =
      .ok ⟨[.literal "files", .param "id", .rest "path"], .rest⟩ := by decide
  exact ⟨hparse, (goesByParts_of_parse hparse).2, by decide, by decide⟩

end Pattern

end WebHost
