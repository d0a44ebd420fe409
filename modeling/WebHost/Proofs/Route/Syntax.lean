import WebHost.Proofs.Control.Except
import WebHost.Proofs.Route.Grammar

/-!
# The texts that are read as patterns

Every text of the documented grammar is read as a pattern, and some texts are read that are none of
it. The parts of a text are read from left to right after the end has been taken off, so a part that
stands before a slash at the end counts as the last one: it may be empty there, or a wildcard for all
that remains. And a part is one wildcard as soon as it begins and ends with a brace, whatever stands
in between, while the name of a wildcard for all that remains may be missing. Nothing else is read:
the pattern that is read from a text is the one that the text spells (`spells_of_parse` and
`parse_of_spells`).
-/

set_option autoImplicit false

namespace WebHost

/-! ## The grammar and what is overlooked -/

/-- The names of the wildcards of a segment. -/
def Segment.names : Segment → List String
  | .literal _ => []
  | .param name => [name]
  | .rest name => [name]

/-- The names of the wildcards of an ending. -/
def Ending.names : Ending → List String
  | .rest name => [name]
  | _ => []

/-- The names of the wildcards of a form. -/
def Form.names (f : Form) : List String := f.segments.flatMap Segment.names ++ f.ending.names

/-- The wildcards of a documented form have names. -/
theorem Form.IsDocumented.isWildcardName {f : Form} (h : f.IsDocumented) {name : String}
    (hname : name ∈ f.names) : IsWildcardName name := by
  rcases List.mem_append.mp hname with hname | hname
  · obtain ⟨segment, hsegment, hname⟩ := List.mem_flatMap.mp hname
    have hplain := h.plain segment hsegment
    cases segment with
    | literal text => simp [Segment.names] at hname
    | param name' =>
      obtain rfl : name = name' := by simpa [Segment.names] using hname
      exact hplain.1
    | rest name' => exact hplain.elim
  · cases hending : f.ending with
    | rest name' =>
      obtain rfl : name = name' := by simpa [hending, Ending.names] using hname
      exact h.rest_name name hending
    | _ => simp [hending, Ending.names] at hname

namespace Pattern

/-- A text of the documented grammar: a slash and segments between slashes, each a text without
braces or a name in braces, and at the end, if the form has one, a name with three dots in braces, a
slash, or a slash that is meant alone. No name is empty or has a slash or a brace. -/
def IsGrammatical (text : String) : Prop :=
  ∃ f : Form, f.IsDocumented ∧ (∀ name ∈ f.names, IsPlainText name) ∧ f.text = text

/-- The text of segments with further parts behind them. -/
def spelled (segments : List Segment) (more : List String) : String :=
  "/" ++ Text.joinWith "/" (segments.map Segment.text ++ more)

/-- A text that is none of the grammar and is read nevertheless. -/
inductive IsOverlooked : String → Prop
  /-- A name has a brace: its part is more than one wildcard. -/
  | brace {f : Form} {name : String} : f.IsDocumented → name ∈ f.names →
    ('\x7b' ∈ name.toList ∨ '\x7d' ∈ name.toList) → IsOverlooked f.text
  /-- A wildcard for all that remains has no name. -/
  | nameless {segments : List Segment} : (∀ segment ∈ segments, segment.IsPlain) →
    IsOverlooked (spelled segments [(Segment.rest "").text])
  /-- A wildcard for all that remains stands before the slash at the end. -/
  | restInside {segments : List Segment} {name : String} :
    (∀ segment ∈ segments, segment.IsPlain) → '/' ∉ name.toList →
    IsOverlooked (spelled segments [(Segment.rest name).text, ""])
  /-- A segment without characters stands before the slash at the end. -/
  | emptyInside {segments : List Segment} : (∀ segment ∈ segments, segment.IsPlain) →
    IsOverlooked (spelled segments ["", ""])

/-- A text spells a pattern. Before the end stand plain segments; a slash that is meant alone is a part
without characters, except that the pattern of that slash and nothing else has no segments. -/
inductive Spells : String → Pattern → Prop
  | exact {front : List Segment} {last : Segment} : (∀ segment ∈ front, segment.IsPlain) →
    last.IsPlain → Spells (spelled (front ++ [last]) []) ⟨front ++ [last], .exact⟩
  | slash {front : List Segment} : (∀ segment ∈ front, segment.IsPlain) →
    Spells (spelled front ["\x7b$\x7d"])
      ⟨if front.isEmpty then [] else front ++ [.literal ""], .exact⟩
  | subtree {front : List Segment} : (∀ segment ∈ front, segment.IsPlain) →
    Spells (spelled front [""]) ⟨front, .subtree⟩
  | emptyInside {front : List Segment} : (∀ segment ∈ front, segment.IsPlain) →
    Spells (spelled front ["", ""]) ⟨front ++ [.literal ""], .subtree⟩
  | rest {front : List Segment} {name : String} : (∀ segment ∈ front, segment.IsPlain) →
    '/' ∉ name.toList →
    Spells (spelled front [(Segment.rest name).text]) ⟨front ++ [.rest name], .rest⟩
  | restInside {front : List Segment} {name : String} : (∀ segment ∈ front, segment.IsPlain) →
    '/' ∉ name.toList →
    Spells (spelled front [(Segment.rest name).text, ""]) ⟨front ++ [.rest name], .rest⟩

/-! ## Reading parts and taking them back -/

variable {part : List Char} {parts : List (List Char)} {segment last : Segment}
  {segments : List Segment} {text : String}

/-- A segment that may be read from the last part. -/
def MayEnd (segment : Segment) : Prop :=
  segment.IsPlain ∨ segment = .literal "" ∨ ∃ name, '/' ∉ name.toList ∧ segment = .rest name

/-- A part is in braces exactly if one opens it and one closes it. -/
theorem inBraces?_eq_some_iff {inner : List Char} :
    inBraces? part = some inner ↔ part = '\x7b' :: (inner ++ ['\x7d']) := by
  constructor
  · intro h
    unfold inBraces? at h
    split at h
    · rw [Text.before?_eq_some_iff.mp h]
    · simp at h
  · rintro rfl
    exact inBraces?_braces inner

/-- A part in braces with a proper name is a plain segment. -/
theorem isPlain_param {inner : List Char} (hslash : '/' ∉ inner) (hempty : inner ≠ [])
    (hdollar : inner ≠ ['$']) (hdots : Text.before? ['.', '.', '.'] inner = none) :
    (Segment.param (String.ofList inner)).IsPlain := by
  refine ⟨⟨by simpa using hempty, by simpa using hslash⟩, ?_, ?_⟩
  · intro hname
    exact hdollar (by simpa using congrArg String.toList hname)
  · rintro ⟨front, hfront⟩
    rw [String.toList_ofList] at hfront
    rw [Text.before?_eq_some_iff.mpr hfront.symm] at hdots
    simp at hdots

/-- A part without braces is a plain segment. -/
theorem isPlain_literal (hslash : '/' ∉ part) (hempty : part ≠ []) (hbrace : ¬ hasBrace part) :
    (Segment.literal (String.ofList part)).IsPlain := by
  obtain ⟨hopen, hclose⟩ : '\x7b' ∉ part ∧ '\x7d' ∉ part := by simpa [hasBrace] using hbrace
  exact ⟨by simpa using hempty, by simpa using hslash, by simpa using hopen, by simpa using hclose⟩

/-- What is read from a part is what the part says. -/
theorem readPart_eq_ok {isLast : Bool} (hslash : '/' ∉ part)
    (h : readPart isLast part = .ok segment) :
    part = segment.text.toList ∧ MayEnd segment ∧ (isLast = false → segment.IsPlain) := by
  unfold readPart at h
  cases hbraces : inBraces? part with
  | some inner =>
    rw [hbraces] at h
    obtain rfl := inBraces?_eq_some_iff.mp hbraces
    have hinner : '/' ∉ inner := fun hmem => hslash (by simp [hmem])
    cases hdots : Text.before? ['.', '.', '.'] inner with
    | some name =>
      -- with dots it is a wildcard for all that remains, and only read from the last part
      simp only [hdots] at h
      obtain rfl := Text.before?_eq_some_iff.mp hdots
      split_ifs at h with hlast
      obtain rfl := Except.ok.inj h
      have hname : '/' ∉ name := fun hmem => hinner (List.mem_append_left _ hmem)
      refine ⟨by simp [Segment.text], .inr (.inr ⟨_, by simpa using hname, rfl⟩), ?_⟩
      simp [hlast]
    | none =>
      simp only [hdots] at h
      split_ifs at h with hfault
      obtain rfl := Except.ok.inj h
      obtain ⟨hempty, hdollar⟩ : inner ≠ [] ∧ inner ≠ ['$'] := by simpa using hfault
      have hplain := isPlain_param hinner hempty hdollar hdots
      exact ⟨by simp [Segment.text], .inl hplain, fun _ => hplain⟩
  | none =>
    rw [hbraces] at h
    simp only at h
    split_ifs at h with hbrace hfault
    obtain rfl := Except.ok.inj h
    refine ⟨by simp [Segment.text], ?_, ?_⟩
    · by_cases hempty : part = []
      · exact .inr (.inl (by rw [hempty]))
      · exact .inl (isPlain_literal hslash hempty hbrace)
    · intro hlast
      apply isPlain_literal hslash ?_ hbrace
      rintro rfl
      exact hfault (by simp [hlast])

/-- Among the last segments only the empty one has an empty text. -/
theorem eq_empty_of_text (h : MayEnd last) (htext : last.text.toList = []) :
    last = .literal "" := by
  rcases h with hplain | rfl | ⟨name, -, rfl⟩
  · exact absurd htext (text_plain hplain).2.1
  · rfl
  · simp [Segment.text] at htext

/-- A segment that may end a pattern is read back from its text. -/
theorem readPart_mayEnd (h : MayEnd last) : readPart true last.text.toList = .ok last := by
  rcases h with hplain | rfl | ⟨name, -, rfl⟩
  · exact readPart_plain hplain true
  · rfl
  · exact readPart_rest name

/-- Parts that are read are plain segments and one that may end a pattern. -/
theorem readParts_eq_ok (hslash : ∀ part ∈ parts, '/' ∉ part) (hne : parts ≠ [])
    (h : readParts parts = .ok segments) :
    ∃ front last, segments = front ++ [last] ∧ (∀ segment ∈ front, segment.IsPlain) ∧
      MayEnd last ∧ parts = front.map (·.text.toList) ++ [last.text.toList] := by
  induction parts generalizing segments with
  | nil => exact absurd rfl hne
  | cons part rest ih =>
    obtain ⟨hpart, hrest⟩ := List.forall_mem_cons.mp hslash
    rw [readParts] at h
    cases hread : readPart rest.isEmpty part with
    | error fault => simp [hread] at h
    | ok segment =>
      obtain ⟨htext, hend, hplain⟩ := readPart_eq_ok hpart hread
      rw [hread] at h
      cases rest with
      | nil =>
        obtain rfl : [segment] = segments := by simpa [readParts, Except.map] using h
        exact ⟨[], segment, rfl, by simp, hend, by simp [htext]⟩
      | cons second rest =>
        obtain ⟨others, hmore, rfl⟩ := Except.map_eq_ok_iff.mp h
        obtain ⟨front, last, rfl, hfront, hlast, hparts⟩ := ih hrest (by simp) hmore
        refine ⟨segment :: front, last, rfl, ?_, hlast, by rw [hparts, htext]; rfl⟩
        exact List.forall_mem_cons.mpr ⟨hplain rfl, hfront⟩

/-- Plain segments and one that may end a pattern are read back from their texts. -/
theorem readParts_concat (hfront : ∀ segment ∈ segments, segment.IsPlain) (hlast : MayEnd last) :
    readParts (segments.map (·.text.toList) ++ [last.text.toList]) = .ok (segments ++ [last]) := by
  rw [readParts_append hfront, readParts, List.isEmpty_nil, readPart_mayEnd hlast]
  rfl

/-! ## What is read as a pattern -/

/-- A text with a slash in front of its parts is spelled by them. -/
theorem eq_spelled {body : List Char} {more : List String} (htext : text.toList = '/' :: body)
    (hsplit : Text.split '/' body = segments.map (·.text.toList) ++ more.map String.toList) :
    text = spelled segments more := by
  apply String.toList_inj.mp
  have hbody := Text.intercalate_split '/' body
  rw [hsplit] at hbody
  simp only [spelled, String.toList_append, Text.toList_joinWith_slash, List.map_append, List.map_map]
  rw [htext, ← hbody]
  rfl

/-- A text is accounted for: it is of the grammar, with any names, or overlooked. -/
def IsAccounted (text : String) : Prop := IsDocumented text ∨ IsOverlooked text

/-- A text that spells a pattern is documented or overlooked. -/
theorem Spells.isAccounted {p : Pattern} (h : Spells text p) : IsAccounted text := by
  have hform (f : Form) (hf : f.IsDocumented) : IsAccounted (spelled f.segments f.ending.texts) :=
    .inl ⟨f, hf, rfl⟩
  cases h with
  | @exact front last hfront hlast =>
    have hall := List.forall_mem_append.mpr ⟨hfront, List.forall_mem_singleton.mpr hlast⟩
    exact hform ⟨front ++ [last], .exact⟩ ⟨hall, by simp, by simp⟩
  | @slash front hfront => exact hform ⟨front, .slash⟩ ⟨hfront, by simp, by simp⟩
  | @subtree front hfront => exact hform ⟨front, .subtree⟩ ⟨hfront, by simp, by simp⟩
  | emptyInside hfront => exact .inr (.emptyInside hfront)
  | @rest front name hfront hname =>
    by_cases hnone : name = ""
    · subst hnone
      exact .inr (.nameless hfront)
    · refine hform ⟨front, .rest name⟩ ⟨hfront, by simp, ?_⟩
      intro name' hname'
      obtain rfl := Ending.rest.inj hname'
      exact ⟨hnone, hname⟩
  | restInside hfront hname => exact .inr (.restInside hfront hname)

section Endings

variable {body : List Char} {front : List (List Char)}

/-- The parts of a path have no slash. -/
theorem no_slash_of_split {more : List (List Char)} (hsplit : Text.split '/' body = front ++ more) :
    ∀ part ∈ front, '/' ∉ part := by
  intro part hpart
  have hmem : part ∈ Text.split '/' body := by
    rw [hsplit]
    exact List.mem_append_left _ hpart
  exact Text.not_mem_of_mem_split hmem

/-- Behind plain segments only the last one may take the rest. -/
theorem any_isRest_concat (h : ∀ segment ∈ segments, segment.IsPlain) (last : Segment) :
    (segments ++ [last]).any isRest = isRest last := by
  rw [List.any_append, any_isRest_plain h, Bool.false_or, List.any_cons, List.any_nil,
    Bool.or_false]

/-- What is read before a slash at the end. -/
theorem spells_of_subtree (htext : text.toList = '/' :: body)
    (hsplit : Text.split '/' body = front ++ [[]]) (h : readParts front = .ok segments) :
    Spells text ⟨segments, if segments.any isRest then .rest else .subtree⟩ := by
  by_cases hne : front = []
  · subst hne
    obtain rfl := Except.ok.inj h
    have hspelled : text = spelled [] [""] := eq_spelled htext (by simp [hsplit])
    rw [hspelled]
    exact .subtree (by simp)
  · obtain ⟨first, last, rfl, hfirst, hlast, rfl⟩ :=
      readParts_eq_ok (no_slash_of_split hsplit) hne h
    rw [any_isRest_concat hfirst]
    rcases hlast with hplain | rfl | ⟨name, hname, rfl⟩
    · have hall := List.forall_mem_append.mpr ⟨hfirst, List.forall_mem_singleton.mpr hplain⟩
      have hspelled : text = spelled (first ++ [last]) [""] :=
        eq_spelled htext (by simp [hsplit])
      rw [hspelled, isRest_of_isPlain hplain]
      exact .subtree hall
    · have hspelled : text = spelled first ["", ""] :=
        eq_spelled htext (by simp [hsplit, Segment.text])
      rw [hspelled]
      exact .emptyInside hfirst
    · have hspelled : text = spelled first [(Segment.rest name).text, ""] :=
        eq_spelled htext (by simp [hsplit])
      rw [hspelled]
      exact .restInside hfirst hname

/-- What is read before a slash that is meant alone. -/
theorem spells_of_slash (htext : text.toList = '/' :: body)
    (hsplit : Text.split '/' body = front ++ [['\x7b', '$', '\x7d']])
    (h : readParts (if front.isEmpty then [] else front ++ [[]]) = .ok segments) :
    Spells text ⟨segments, if segments.any isRest then .rest else .exact⟩ := by
  have hslash : "\x7b$\x7d".toList = ['\x7b', '$', '\x7d'] := by decide
  by_cases hne : front = []
  · subst hne
    obtain rfl := Except.ok.inj h
    have hspelled : text = spelled [] ["\x7b$\x7d"] := eq_spelled htext (by simp [hsplit, hslash])
    rw [hspelled]
    exact .slash (by simp)
  · rw [if_neg (by simpa using hne)] at h
    have hparts : ∀ part ∈ front ++ [[]], '/' ∉ part := by
      have hfront := no_slash_of_split hsplit
      exact List.forall_mem_append.mpr ⟨hfront, List.forall_mem_singleton.mpr List.not_mem_nil⟩
    obtain ⟨first, last, rfl, hfirst, hlast, hread⟩ := readParts_eq_ok hparts (by simp) h
    obtain ⟨rfl, hempty⟩ := List.append_inj' hread rfl
    obtain rfl := eq_empty_of_text hlast (by simpa using hempty.symm)
    have hspelled : text = spelled first ["\x7b$\x7d"] :=
      eq_spelled htext (by simp [hsplit, hslash])
    have hslashed := Spells.slash hfirst
    rw [if_neg (by simpa using hne)] at hslashed
    rw [hspelled, any_isRest_concat hfirst]
    exact hslashed

/-- What is read up to a part that is none of these ends. -/
theorem spells_of_last {part : List Char} (htext : text.toList = '/' :: body)
    (hsplit : Text.split '/' body = front ++ [part]) (hempty : part ≠ [])
    (h : readParts (front ++ [part]) = .ok segments) :
    Spells text ⟨segments, if segments.any isRest then .rest else .exact⟩ := by
  have hparts : ∀ part' ∈ front ++ [part], '/' ∉ part' := by
    apply no_slash_of_split
    rw [hsplit, List.append_nil]
  obtain ⟨first, last, rfl, hfirst, hlast, hread⟩ := readParts_eq_ok hparts (by simp) h
  obtain ⟨rfl, hpart⟩ := List.append_inj' hread rfl
  obtain rfl : part = last.text.toList := by simpa using hpart
  rw [any_isRest_concat hfirst]
  rcases hlast with hplain | rfl | ⟨name, hname, rfl⟩
  · have hspelled : text = spelled (first ++ [last]) [] := eq_spelled htext (by simp [hsplit])
    rw [hspelled, isRest_of_isPlain hplain]
    exact .exact hfirst hplain
  · exact absurd rfl hempty
  · have hspelled : text = spelled first [(Segment.rest name).text] :=
      eq_spelled htext (by simp [hsplit])
    rw [hspelled]
    exact .rest hfirst hname

end Endings

/-- A pattern that is read begins with a slash. -/
theorem exists_body_of_parse {p : Pattern} (h : parse text = .ok p) :
    ∃ body, text.toList = '/' :: body := by
  unfold parse at h
  split at h
  · exact ⟨_, ‹_›⟩
  · simp at h

/-- A text is read by taking its end off and reading the parts that are left. -/
theorem parse_eq_ok_iff {body : List Char} {p : Pattern} (htext : text.toList = '/' :: body) :
    parse text = .ok p ↔
      ∃ segments, readParts (trimEnd (Text.split '/' body)).1 = .ok segments ∧
        p = ⟨segments, if segments.any isRest then .rest
          else (trimEnd (Text.split '/' body)).2⟩ := by
  rw [parse, htext]
  simp only
  cases readParts (trimEnd (Text.split '/' body)).1 with
  | error fault => simp
  | ok segments =>
    constructor
    · intro h
      exact ⟨segments, rfl, (Except.ok.inj h).symm⟩
    · rintro ⟨segments', hread, rfl⟩
      obtain rfl := Except.ok.inj hread
      rfl

/-- A text is read as the pattern that it spells. -/
theorem spells_of_parse {p : Pattern} (h : parse text = .ok p) : Spells text p := by
  obtain ⟨body, htext⟩ := exists_body_of_parse h
  obtain ⟨segments, hread, rfl⟩ := (parse_eq_ok_iff htext).mp h
  obtain hnil | ⟨front, last, hsplit⟩ := List.eq_nil_or_concat' (Text.split '/' body)
  · exact absurd hnil (Text.split_ne_nil '/' body)
  rw [hsplit] at hread ⊢
  by_cases hempty : last = []
  · subst hempty
    rw [trimEnd_empty] at hread ⊢
    exact spells_of_subtree htext hsplit hread
  by_cases hslash : last = ['\x7b', '$', '\x7d']
  · subst hslash
    rw [trimEnd_slash] at hread ⊢
    exact spells_of_slash htext hsplit hread
  · rw [trimEnd_concat hempty hslash] at hread ⊢
    exact spells_of_last htext hsplit hempty hread

/-- A text that is read as a pattern is documented or overlooked. -/
theorem isAccounted_of_parse {p : Pattern} (h : parse text = .ok p) : IsAccounted text :=
  (spells_of_parse h).isAccounted

/-- A text of the grammar with any names is overlooked if a name has a brace. -/
theorem grammatical_or_overlooked (h : IsDocumented text) :
    IsGrammatical text ∨ IsOverlooked text := by
  obtain ⟨f, hf, rfl⟩ := h
  by_cases hbrace : ∃ name ∈ f.names, '\x7b' ∈ name.toList ∨ '\x7d' ∈ name.toList
  · obtain ⟨name, hname, hmem⟩ := hbrace
    exact .inr (.brace hf hname hmem)
  · refine .inl ⟨f, hf, ?_, rfl⟩
    intro name hname
    have hwildcard := hf.isWildcardName hname
    have hno : ¬ ('\x7b' ∈ name.toList ∨ '\x7d' ∈ name.toList) :=
      fun hmem => hbrace ⟨name, hname, hmem⟩
    rw [not_or] at hno
    exact ⟨hwildcard.not_empty, hwildcard.no_slash, hno.1, hno.2⟩

/-- The parts that spell a pattern have no slash. -/
theorem no_slash_spelled (hsegments : ∀ segment ∈ segments, segment.IsPlain) {more : List String}
    (hmore : ∀ part ∈ more, '/' ∉ part.toList) :
    ∀ part ∈ segments.map Segment.text ++ more, '/' ∉ part.toList := by
  intro part hpart
  rcases List.mem_append.mp hpart with hpart | hpart
  · obtain ⟨segment, hsegment, rfl⟩ := List.mem_map.mp hpart
    exact (text_plain (hsegments segment hsegment)).1
  · exact hmore part hpart

/-- A spelled pattern is a slash and what splits into its parts. -/
theorem exists_body_spelled (hsegments : ∀ segment ∈ segments, segment.IsPlain) {more : List String}
    (hne : more ≠ []) (hmore : ∀ part ∈ more, '/' ∉ part.toList) :
    ∃ body, (spelled segments more).toList = '/' :: body ∧
      Text.split '/' body = segments.map (·.text.toList) ++ more.map String.toList := by
  obtain ⟨body, htext, hsplit⟩ :=
    exists_body_of_parts (by simp [hne]) (no_slash_spelled hsegments hmore)
  refine ⟨body, htext, ?_⟩
  rw [hsplit, List.map_append, List.map_map]
  rfl

/-- Before a slash at the end everything is read that may be read at the end. -/
theorem parse_inside (hsegments : ∀ segment ∈ segments, segment.IsPlain)
    (hlast : MayEnd last) (hslash : '/' ∉ last.text.toList) :
    parse (spelled segments [last.text, ""]) =
      .ok ⟨segments ++ [last], if isRest last then .rest else .subtree⟩ := by
  obtain ⟨body, htext, hsplit⟩ := exists_body_spelled hsegments (by simp)
    (by simpa using hslash : ∀ part ∈ [last.text, ""], '/' ∉ part.toList)
  have hparts : Text.split '/' body =
      (segments.map (·.text.toList) ++ [last.text.toList]) ++ [[]] := by
    simp [hsplit]
  refine (parse_eq_ok_iff htext).mpr ⟨segments ++ [last], ?_, ?_⟩
  · rw [hparts, trimEnd_empty]
    exact readParts_concat hsegments hlast
  · rw [hparts, trimEnd_empty, any_isRest_concat hsegments]

/-- A wildcard for all that remains is read at the end, with any name. -/
theorem parse_rest {name : String} (hsegments : ∀ segment ∈ segments, segment.IsPlain)
    (hname : '/' ∉ name.toList) :
    parse (spelled segments [(Segment.rest name).text]) =
      .ok ⟨segments ++ [.rest name], .rest⟩ := by
  have hmore : ∀ part ∈ [(Segment.rest name).text], '/' ∉ part.toList := by
    simpa [Segment.text] using hname
  obtain ⟨body, htext, hsplit⟩ := exists_body_spelled hsegments (by simp) hmore
  have hend : MayEnd (.rest name) := .inr (.inr ⟨name, hname, rfl⟩)
  refine (parse_eq_ok_iff htext).mpr ⟨segments ++ [.rest name], ?_, ?_⟩
  · rw [hsplit, List.map_singleton, trimEnd_rest]
    exact readParts_concat hsegments hend
  · rw [any_isRest_concat hsegments]
    rfl

/-- A text that spells a pattern is read as it. -/
theorem parse_of_spells {p : Pattern} (h : Spells text p) : parse text = .ok p := by
  have hform (f : Form) (hf : f.IsDocumented) :
      parse (spelled f.segments f.ending.texts) = .ok f.pattern := Form.parse_text hf
  cases h with
  | @exact front last hfront hlast =>
    have hall := List.forall_mem_append.mpr ⟨hfront, List.forall_mem_singleton.mpr hlast⟩
    exact hform ⟨front ++ [last], .exact⟩ ⟨hall, by simp, by simp⟩
  | @slash front hfront => exact hform ⟨front, .slash⟩ ⟨hfront, by simp, by simp⟩
  | @subtree front hfront => exact hform ⟨front, .subtree⟩ ⟨hfront, by simp, by simp⟩
  | emptyInside hfront =>
    have hend : MayEnd (.literal "") := .inr (.inl rfl)
    simpa [Segment.text, isRest] using parse_inside hfront hend (by simp [Segment.text])
  | rest hfront hname => exact parse_rest hfront hname
  | @restInside front name hfront hname =>
    have hend : MayEnd (.rest name) := .inr (.inr ⟨name, hname, rfl⟩)
    exact parse_inside hfront hend (by simp [Segment.text, hname])

/-- An overlooked text is read as a pattern. -/
theorem exists_parse_of_overlooked (h : IsOverlooked text) : ∃ p, parse text = .ok p := by
  cases h with
  | brace hform => exact ⟨_, Form.parse_text hform⟩
  | nameless hsegments => exact ⟨_, parse_of_spells (.rest hsegments (by decide))⟩
  | restInside hsegments hname => exact ⟨_, parse_of_spells (.restInside hsegments hname)⟩
  | emptyInside hsegments => exact ⟨_, parse_of_spells (.emptyInside hsegments)⟩

/-! ## The grammar and what is overlooked have nothing in common -/

/-- Parts without slashes are told apart by the path they make. -/
theorem parts_inj {a b : List String} (ha : a ≠ []) (hb : b ≠ [])
    (haslash : ∀ part ∈ a, '/' ∉ part.toList) (hbslash : ∀ part ∈ b, '/' ∉ part.toList)
    (h : "/" ++ Text.joinWith "/" a = "/" ++ Text.joinWith "/" b) : a = b := by
  obtain ⟨body, htext, hsplit⟩ := exists_body_of_parts ha haslash
  obtain ⟨body', htext', hsplit'⟩ := exists_body_of_parts hb hbslash
  rw [h, htext'] at htext
  obtain rfl := (List.cons.inj htext).2
  rw [hsplit'] at hsplit
  exact (List.map_inj_right fun _ _ => String.toList_inj.mp).mp hsplit.symm

/-- A documented form with a spelled text has the parts of the spelling. -/
theorem texts_eq_of_spelled {f : Form} (hform : f.IsDocumented)
    (hsegments : ∀ segment ∈ segments, segment.IsPlain) {more : List String} (hne : more ≠ [])
    (hmore : ∀ part ∈ more, '/' ∉ part.toList) (h : f.text = spelled segments more) :
    f.texts = segments.map Segment.text ++ more := by
  have hslash : ∀ part ∈ segments.map Segment.text ++ more, '/' ∉ part.toList :=
    no_slash_spelled hsegments hmore
  exact parts_inj (Form.texts_ne_nil hform) (by simp [hne])
    (fun _ hpart => Form.no_slash_of_mem_texts hform hpart) hslash h

/-- All parts of a form but the last are plain segments. -/
theorem exists_of_mem_dropLast {f : Form} {part : String} (h : part ∈ f.texts.dropLast) :
    ∃ segment ∈ f.segments, part = segment.text := by
  have hsegment (hmem : part ∈ f.segments.map Segment.text) :
      ∃ segment ∈ f.segments, part = segment.text := by
    obtain ⟨segment, hs, rfl⟩ := List.mem_map.mp hmem
    exact ⟨segment, hs, rfl⟩
  apply hsegment
  rw [Form.texts] at h
  cases hending : f.ending with
  | exact =>
    rw [hending, Ending.texts, List.append_nil] at h
    exact (List.dropLast_sublist _).mem h
  | _ =>
    rw [hending, Ending.texts, List.dropLast_concat] at h
    exact h

/-- A plain segment is not written like one for the rest. -/
theorem text_ne_rest (h : segment.IsPlain) (name : String) :
    segment.text ≠ (Segment.rest name).text := by
  intro heq
  have hchars := congrArg String.toList heq
  cases segment with
  | literal text =>
    have hplain : IsPlainText text := h
    have hopen : '\x7b' ∈ text.toList := by
      rw [show text.toList = (Segment.rest name).text.toList from hchars]
      simp [Segment.text]
    exact hplain.no_open hopen
  | param name' =>
    obtain ⟨-, -, hdots⟩ := h
    have hname : name'.toList = name.toList ++ ['.', '.', '.'] := by
      have hinner : name'.toList ++ ['\x7d'] = (name.toList ++ ['.', '.', '.']) ++ ['\x7d'] := by
        simpa [Segment.text] using hchars
      exact List.append_cancel_right hinner
    exact hdots ⟨name.toList, hname.symm⟩
  | rest name' => exact h

/-- A documented form with a part for the rest ends with it. -/
theorem ending_of_rest_mem {f : Form} (hform : f.IsDocumented) {name : String}
    (h : (Segment.rest name).text ∈ f.texts) : f.ending = .rest name := by
  rcases List.mem_append.mp h with hmem | hmem
  · obtain ⟨segment, hsegment, heq⟩ := List.mem_map.mp hmem
    exact absurd heq (text_ne_rest (hform.plain segment hsegment) name)
  · cases hending : f.ending with
    | exact => simp [hending, Ending.texts] at hmem
    | rest name' =>
      rw [hending, Ending.texts, List.mem_singleton] at hmem
      have hchars := congrArg String.toList hmem
      have hname : name.toList = name'.toList := by simpa [Segment.text] using hchars
      rw [String.toList_inj.mp hname]
    | subtree =>
      rw [hending, Ending.texts, List.mem_singleton] at hmem
      simpa [Segment.text] using congrArg String.toList hmem
    | slash =>
      rw [hending, Ending.texts, List.mem_singleton] at hmem
      have hlength := congrArg String.length hmem
      have hopen : "\x7b".length = 1 := rfl
      have hclose : "...\x7d".length = 4 := rfl
      have hslash : "\x7b$\x7d".length = 3 := rfl
      rw [Segment.text, String.length_append, String.length_append] at hlength
      omega

/-- In a form whose names are plain, braces stand only around a name. -/
theorem no_brace_between {f : Form} (hform : f.IsDocumented)
    (hnames : ∀ name ∈ f.names, IsPlainText name) {part : String} (hpart : part ∈ f.texts)
    {inner : List Char} (hbraces : part.toList = '\x7b' :: (inner ++ ['\x7d'])) :
    '\x7b' ∉ inner ∧ '\x7d' ∉ inner := by
  -- the characters between the braces of a part are those of a name, with dots or without
  have hplain {name : String} (hname : name ∈ f.names) (dots : List Char)
      (hdots : '\x7b' ∉ dots ∧ '\x7d' ∉ dots)
      (htext : part.toList = '\x7b' :: ((name.toList ++ dots) ++ ['\x7d'])) :
      '\x7b' ∉ inner ∧ '\x7d' ∉ inner := by
    have hchars := hnames name hname
    rw [htext] at hbraces
    obtain rfl := List.append_cancel_right (List.cons.inj hbraces).2
    simp [hchars.no_open, hchars.no_close, hdots]
  rcases List.mem_append.mp hpart with hmem | hmem
  · obtain ⟨segment, hsegment, rfl⟩ := List.mem_map.mp hmem
    have hsegment' := hform.plain segment hsegment
    cases segment with
    | literal text =>
      have htext : IsPlainText text := hsegment'
      have hopen : '\x7b' ∈ text.toList := by
        rw [show text.toList = '\x7b' :: (inner ++ ['\x7d']) from hbraces]
        exact List.mem_cons_self
      exact absurd hopen htext.no_open
    | param name =>
      have hname : name ∈ f.names :=
        List.mem_append_left _ (List.mem_flatMap.mpr ⟨_, hsegment, List.mem_cons_self⟩)
      exact hplain hname [] (by simp) (by simp [Segment.text])
    | rest name => exact hsegment'.elim
  · cases hending : f.ending with
    | exact => simp [hending, Ending.texts] at hmem
    | rest name =>
      have hname : name ∈ f.names := by simp [Form.names, hending, Ending.names]
      obtain rfl : part = (Segment.rest name).text := by simpa [hending, Ending.texts] using hmem
      exact hplain hname ['.', '.', '.'] (by decide) (by simp [Segment.text])
    | subtree =>
      obtain rfl : part = "" := by simpa [hending, Ending.texts] using hmem
      simp at hbraces
    | slash =>
      obtain rfl : part = "\x7b$\x7d" := by simpa [hending, Ending.texts] using hmem
      have hslash : "\x7b$\x7d".toList = '\x7b' :: (['$'] ++ ['\x7d']) := by decide
      rw [hslash] at hbraces
      obtain rfl := List.append_cancel_right (List.cons.inj hbraces).2
      decide

/-- A name stands between the braces of a part. -/
theorem exists_part_of_mem_names {f : Form} {name : String} (h : name ∈ f.names) :
    ∃ part ∈ f.texts, ∃ inner, part.toList = '\x7b' :: (name.toList ++ inner ++ ['\x7d']) := by
  rcases List.mem_append.mp h with hmem | hmem
  · obtain ⟨segment, hsegment, hname⟩ := List.mem_flatMap.mp hmem
    have htext : segment.text ∈ f.texts := List.mem_append_left _ (List.mem_map_of_mem hsegment)
    cases segment with
    | literal text => simp [Segment.names] at hname
    | param name' =>
      obtain rfl : name = name' := by simpa [Segment.names] using hname
      exact ⟨_, htext, [], by simp [Segment.text]⟩
    | rest name' =>
      obtain rfl : name = name' := by simpa [Segment.names] using hname
      exact ⟨_, htext, ['.', '.', '.'], by simp [Segment.text]⟩
  · cases hending : f.ending with
    | rest name' =>
      obtain rfl : name = name' := by simpa [hending, Ending.names] using hmem
      have htext : (Segment.rest name).text ∈ f.texts := by
        simp [Form.texts, hending, Ending.texts]
      exact ⟨_, htext, ['.', '.', '.'], by simp [Segment.text]⟩
    | _ => simp [hending, Ending.names] at hmem

/-- What is overlooked is not in the grammar. -/
theorem not_isGrammatical_of_overlooked (h : IsOverlooked text) : ¬ IsGrammatical text := by
  rintro ⟨f, hform, hnames, htext⟩
  cases h with
  | @brace g name hg hname hbrace =>
    have htexts : f.texts = g.texts :=
      parts_inj (Form.texts_ne_nil hform) (Form.texts_ne_nil hg)
        (fun _ hpart => Form.no_slash_of_mem_texts hform hpart)
        (fun _ hpart => Form.no_slash_of_mem_texts hg hpart) htext
    obtain ⟨part, hpart, inner, hbraces⟩ := exists_part_of_mem_names hname
    rw [← htexts] at hpart
    obtain ⟨hopen, hclose⟩ := no_brace_between hform hnames hpart hbraces
    rcases hbrace with hmem | hmem
    · exact hopen (List.mem_append_left _ hmem)
    · exact hclose (List.mem_append_left _ hmem)
  | @nameless segments hsegments =>
    have hmore : ∀ part ∈ [(Segment.rest "").text], '/' ∉ part.toList := by decide
    have htexts := texts_eq_of_spelled hform hsegments (by simp) hmore htext
    have hending : f.ending = .rest "" := ending_of_rest_mem hform (by simp [htexts])
    have hname : "" ∈ f.names := by simp [Form.names, hending, Ending.names]
    exact (hnames "" hname).not_empty rfl
  | @restInside segments name hsegments hname =>
    have hmore : ∀ part ∈ [(Segment.rest name).text, ""], '/' ∉ part.toList := by
      simp [Segment.text, hname]
    have htexts := texts_eq_of_spelled hform hsegments (by simp) hmore htext
    have hmem : (Segment.rest name).text ∈ f.texts.dropLast := by simp [htexts]
    obtain ⟨segment, hsegment, heq⟩ := exists_of_mem_dropLast hmem
    exact text_ne_rest (hform.plain segment hsegment) name heq.symm
  | @emptyInside segments hsegments =>
    have hmore : ∀ part ∈ ["", ""], '/' ∉ part.toList := by decide
    have htexts := texts_eq_of_spelled hform hsegments (by simp) hmore htext
    have hmem : "" ∈ f.texts.dropLast := by simp [htexts]
    obtain ⟨segment, hsegment, heq⟩ := exists_of_mem_dropLast hmem
    exact (text_plain (hform.plain segment hsegment)).2.1 (by rw [← heq]; rfl)

/-- The texts that are read as patterns are those of the documented grammar, and those that are
overlooked; and these are none of the grammar. -/
theorem parse_accepts_iff (text : String) :
    ((∃ p, parse text = .ok p) ↔ IsGrammatical text ∨ IsOverlooked text) ∧
      ¬ (IsGrammatical text ∧ IsOverlooked text) := by
  constructor
  · constructor
    · rintro ⟨p, hparse⟩
      rcases isAccounted_of_parse hparse with hdocumented | hoverlooked
      · exact grammatical_or_overlooked hdocumented
      · exact .inr hoverlooked
    · rintro (⟨f, hform, -, rfl⟩ | hoverlooked)
      · exact ⟨f.pattern, Form.parse_text hform⟩
      · exact exists_parse_of_overlooked hoverlooked
  · rintro ⟨hgrammatical, hoverlooked⟩
    exact not_isGrammatical_of_overlooked hoverlooked hgrammatical

/-- One text of each kind that is overlooked. -/
theorem parse_overlooked :
    (parse "/\x7ba\x7d\x7bb\x7d" = .ok ⟨[.param "a\x7d\x7bb"], .exact⟩ ∧
        ¬ IsGrammatical "/\x7ba\x7d\x7bb\x7d") ∧
      (parse "/\x7b...\x7d" = .ok ⟨[.rest ""], .rest⟩ ∧ ¬ IsGrammatical "/\x7b...\x7d") ∧
      (parse "/files/\x7bpath...\x7d/" = .ok ⟨[.literal "files", .rest "path"], .rest⟩ ∧
        ¬ IsGrammatical "/files/\x7bpath...\x7d/") ∧
      (parse "//" = .ok ⟨[.literal ""], .subtree⟩ ∧ ¬ IsGrammatical "//") := by
  have hnone : ∀ segment ∈ [], Segment.IsPlain segment := by simp
  have hfiles : ∀ segment ∈ [Segment.literal "files"], segment.IsPlain := by
    have hplain : IsPlainText "files" := ⟨by decide, by decide, by decide, by decide⟩
    intro segment hsegment
    rw [List.mem_singleton.mp hsegment]
    exact hplain
  have hform : (⟨[.param "a\x7d\x7bb"], .exact⟩ : Form).IsDocumented := by
    have hplain : (Segment.param "a\x7d\x7bb").IsPlain :=
      ⟨⟨by decide, by decide⟩, by decide, by decide⟩
    exact ⟨by simpa using hplain, by simp, by simp⟩
  have hinside : IsOverlooked (spelled [.literal "files"] [(Segment.rest "path").text, ""]) :=
    .restInside hfiles (by decide)
  refine ⟨⟨rfl, ?_⟩, ⟨rfl, ?_⟩, ⟨rfl, ?_⟩, rfl, ?_⟩
  · have hbrace := IsOverlooked.brace hform List.mem_cons_self (.inl (by decide))
    exact not_isGrammatical_of_overlooked hbrace
  · exact not_isGrammatical_of_overlooked (.nameless hnone)
  · exact not_isGrammatical_of_overlooked hinside
  · exact not_isGrammatical_of_overlooked (.emptyInside hnone)

end Pattern

end WebHost
