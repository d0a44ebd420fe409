import Mathlib.Algebra.Order.BigOperators.Group.List
import Mathlib.Algebra.Order.Group.Nat
import WebHost.Proofs.Route.Language
import WebHost.Proofs.Route.Selection

/-!
# Specificity and languages

A pattern with a strictly smaller language is more specific. If every path of one pattern is a path
of another, then this holds of a path whose wildcard parts occur nowhere in the other pattern, and
so the segments of the other pattern cover the first segments of the one. Covering segments have no
more literals, and if they have as many, then they are covered in turn. So patterns of equal rank
cannot differ in one direction only, and a request never goes to a route when another one that takes
it has a strictly smaller language.
-/

set_option autoImplicit false

namespace WebHost

open Pattern

/-- Every part that fits the second segment fits the first. -/
def Segment.Covers : Segment → Segment → Prop
  | .param _, _ => True
  | .literal text, .literal text' => text = text'
  | _, _ => False

/-- A part that fits a segment; a wildcard is given a word. -/
def Segment.sample (word : String) : Segment → String
  | .literal text => text
  | .param _ | .rest _ => word

namespace Segment

variable {word part : String} {segments covering : List Segment} {parts : List String}

/-! ## Covering -/

/-- Nothing fits a plain segment but a part with characters. -/
theorem Fits.ne_empty {segment : Segment} (h : segment.Fits part) (hs : segment.IsPlain) :
    part ≠ "" := by
  cases segment with
  | literal text =>
    obtain rfl : part = text := h
    exact hs.not_empty
  | param name => exact h
  | rest name => exact hs.elim

/-- What fits plain segments has no empty part. -/
theorem ne_empty_of_fits (h : List.Forall₂ Fits segments parts)
    (hs : ∀ segment ∈ segments, segment.IsPlain) : ∀ part ∈ parts, part ≠ "" := by
  induction h with
  | nil => simp
  | @cons segment part segments parts hpart _ ih =>
    intro x hx
    rcases List.mem_cons.mp hx with rfl | hx
    · exact hpart.ne_empty (hs segment List.mem_cons_self)
    · exact ih (fun s hm => hs s (List.mem_cons_of_mem _ hm)) x hx

/-- Parts that fit plain segments fit those that cover them. -/
theorem fits_of_covers (h : List.Forall₂ Covers covering segments)
    (hs : ∀ segment ∈ segments, segment.IsPlain) (hf : List.Forall₂ Fits segments parts) :
    List.Forall₂ Fits covering parts := by
  induction h generalizing parts with
  | nil => exact hf
  | @cons cover segment covering segments hcover _ ih =>
    cases hf with
    | @cons _ part _ parts hpart hparts =>
      refine .cons ?_ (ih (fun s hm => hs s (List.mem_cons_of_mem _ hm)) hparts)
      cases cover with
      | param name => exact hpart.ne_empty (hs segment List.mem_cons_self)
      | literal text =>
        cases segment with
        | literal text' =>
          obtain rfl : text = text' := hcover
          exact hpart
        | param name => exact hcover.elim
        | rest name => exact hcover.elim
      | rest name => exact hcover.elim

/-- Segments with a word for each wildcard, none of them a word of other segments, fit only other
segments that cover them. -/
theorem covers_of_fits_sample (hword : .literal word ∉ covering)
    (h : List.Forall₂ Fits covering (segments.map (sample word))) :
    List.Forall₂ Covers covering segments := by
  rw [List.forall₂_map_right_iff] at h
  induction h with
  | nil => exact .nil
  | @cons cover segment covering segments hfits _ ih =>
    rw [List.mem_cons, not_or] at hword
    refine .cons ?_ (ih hword.2)
    cases cover with
    | param name => trivial
    | literal text =>
      cases segment with
      | literal text' => exact Eq.symm hfits
      | param name => exact absurd (congrArg literal hfits) hword.1
      | rest name => exact absurd (congrArg literal hfits) hword.1
    | rest name => exact hfits.elim

/-- Some word is free of slashes and occurs nowhere among given segments. -/
theorem exists_fresh (segments : List Segment) :
    ∃ word, word ≠ "" ∧ '/' ∉ word.toList ∧ literal word ∉ segments := by
  -- a word longer than all texts together
  refine ⟨String.ofList (List.replicate ((segments.map (·.text.length)).sum + 1) 'x'), ?_, ?_, ?_⟩
  · simp
  · simp
  · intro hmem
    have hle : _ ≤ (segments.map (·.text.length)).sum :=
      List.le_sum_of_mem (List.mem_map_of_mem hmem)
    have hlength : (literal (String.ofList (List.replicate
        ((segments.map (·.text.length)).sum + 1) 'x'))).text.length =
        (segments.map (·.text.length)).sum + 1 := by
      show (String.ofList _).length = _
      simp
    omega

/-- A plain segment has a sample that fits it and has no slash. -/
theorem sample_plain {segment : Segment} (h : segment.IsPlain) (hempty : word ≠ "")
    (hslash : '/' ∉ word.toList) :
    segment.Fits (segment.sample word) ∧ '/' ∉ (segment.sample word).toList := by
  cases segment with
  | literal text => exact ⟨rfl, h.no_slash⟩
  | param name => exact ⟨hempty, hslash⟩
  | rest name => exact h.elim

/-- The samples of plain segments fit them. -/
theorem fits_sample (h : ∀ segment ∈ segments, segment.IsPlain) (hempty : word ≠ "")
    (hslash : '/' ∉ word.toList) : List.Forall₂ Fits segments (segments.map (sample word)) := by
  rw [List.forall₂_map_right_iff, List.forall₂_same]
  exact fun segment hs => (sample_plain (h segment hs) hempty hslash).1

/-! ## Counting -/

/-- Segments that are covered have at least as many literals as those that cover them. -/
theorem countP_isLiteral_le (h : List.Forall₂ Covers covering segments) :
    covering.countP isLiteral ≤ segments.countP isLiteral := by
  induction h with
  | nil => exact le_rfl
  | @cons cover segment covering segments hcover _ ih =>
    cases cover <;> cases segment <;>
      simp [Covers, List.countP_cons, isLiteral] at hcover ⊢ <;> omega

/-- With as many literals they are covered in turn. -/
theorem covers_of_countP_isLiteral_eq (h : List.Forall₂ Covers covering segments)
    (hs : ∀ segment ∈ segments, segment.IsPlain)
    (hcount : covering.countP isLiteral = segments.countP isLiteral) :
    List.Forall₂ Covers segments covering := by
  induction h with
  | nil => exact .nil
  | @cons cover segment covering segments hcover hrest ih =>
    have hle := countP_isLiteral_le hrest
    have hplain := hs segment List.mem_cons_self
    have ih := ih fun s hm => hs s (List.mem_cons_of_mem _ hm)
    cases cover with
    | param name =>
      cases segment with
      | literal text =>
        -- the wildcard would have to make up for a literal
        simp [List.countP_cons, isLiteral] at hcount
        omega
      | param name' =>
        simp [isLiteral] at hcount
        exact .cons trivial (ih hcount)
      | rest name' => exact hplain.elim
    | literal text =>
      cases segment with
      | literal text' =>
        simp [List.countP_cons, isLiteral] at hcount
        exact .cons (Eq.symm hcover) (ih hcount)
      | param name => exact hcover.elim
      | rest name => exact hcover.elim
    | rest name => exact hcover.elim

/-- A plain segment is a literal or a wildcard for one part. -/
theorem countP_add_countP (h : ∀ segment ∈ segments, segment.IsPlain) :
    segments.countP isLiteral + segments.countP isParam = segments.length := by
  induction segments with
  | nil => rfl
  | cons segment segments ih =>
    have hplain := h segment List.mem_cons_self
    have ih := ih fun s hm => h s (List.mem_cons_of_mem _ hm)
    cases segment with
    | literal text => simp [List.countP_cons, isLiteral, isParam]; omega
    | param name => simp [List.countP_cons, isLiteral, isParam]; omega
    | rest name => exact hplain.elim

end Segment

/-- How close a pattern with an ending is, as its rank counts it. -/
def Ending.closeness : Ending → ℕ
  | .exact | .slash => 2
  | .rest _ => 1
  | .subtree => 0

/-- How many empty parts a sample has after the segments: as many as the ending leaves, and for one
that may go on in any way more than any other leaves. -/
def Ending.sampleLength : Ending → ℕ
  | .exact => 0
  | .slash => 1
  | .rest _ | .subtree => 2

namespace Form

variable {f g : Form}

/-- The literals of a form. A slash that is meant alone counts as one, unless nothing stands before
it. -/
def literals (f : Form) : ℕ :=
  f.segments.countP isLiteral + if f.ending = .slash ∧ f.segments ≠ [] then 1 else 0

/-- The rank of a form, by its segments and its ending. -/
theorem rank_pattern (f : Form) :
    f.pattern.rank = ⟨f.literals, f.segments.countP isParam, f.ending.closeness⟩ := by
  cases he : f.ending with
  | exact => simp [rank, pattern, literals, he, Ending.closeness]
  | rest name => simp [rank, pattern, literals, he, Ending.closeness, isLiteral, isParam]
  | subtree => simp [rank, pattern, literals, he, Ending.closeness]
  | slash =>
    by_cases hs : f.segments = []
    · simp [rank, pattern, literals, he, hs, Ending.closeness]
    · simp [rank, pattern, literals, he, hs, Ending.closeness, isLiteral, isParam]

/-- A smaller form: what fits it fits another form, because the other form's segments cover its own
and its ending leaves no more. -/
theorem fits_of_covers (hg : ∀ segment ∈ g.segments, segment.IsPlain)
    (hcovers : List.Forall₂ Segment.Covers f.segments g.segments)
    (hleaves : ∀ remaining, g.ending.Leaves remaining → f.ending.Leaves remaining)
    {parts : List String} (h : g.Fits parts) : f.Fits parts := by
  obtain ⟨front, remaining, rfl, hfront, hremaining⟩ := h
  exact ⟨front, remaining, rfl, Segment.fits_of_covers hcovers hg hfront, hleaves _ hremaining⟩

/-- If a sample of some segments, followed by empty parts, fits a form, then the form's segments
cover the first of those segments, and its ending leaves the rest. -/
theorem exists_covered {word : String} {segments : List Segment} {n : ℕ}
    (hg : ∀ segment ∈ g.segments, segment.IsPlain) (hword : .literal word ∉ g.segments)
    (h : g.Fits (segments.map (Segment.sample word) ++ List.replicate n "")) :
    ∃ front back, segments = front ++ back ∧ List.Forall₂ Segment.Covers g.segments front ∧
      g.ending.Leaves (back.map (Segment.sample word) ++ List.replicate n "") := by
  obtain ⟨first, remaining, hparts, hfits, hleaves⟩ := h
  rcases List.append_eq_append_iff.mp hparts with ⟨more, rfl, hempty⟩ | ⟨less, hless, rfl⟩
  · -- no empty part fits a plain segment
    have hmore : more = [] := by
      rw [List.eq_nil_iff_forall_not_mem]
      intro part hpart
      have hne := Segment.ne_empty_of_fits hfits hg part (List.mem_append_right _ hpart)
      have hmem : part ∈ List.replicate n "" := by rw [hempty]; exact List.mem_append_left _ hpart
      exact hne (List.mem_replicate.mp hmem).2
    subst hmore
    rw [List.append_nil] at hfits
    refine ⟨segments, [], by simp, Segment.covers_of_fits_sample hword hfits, ?_⟩
    simpa [hempty] using hleaves
  · obtain ⟨front, back, rfl, rfl, rfl⟩ := List.map_eq_append_iff.mp hless
    exact ⟨front, back, rfl, Segment.covers_of_fits_sample hword hfits, hleaves⟩

/-- Some path of a form consists of a sample of its segments and as many empty parts as its ending
has in a sample. -/
theorem exists_sample_mem_language {word : String} (hf : f.IsDocumented) (hempty : word ≠ "")
    (hslash : '/' ∉ word.toList) :
    ∃ path ∈ f.pattern.language, pathParts path =
      f.segments.map (Segment.sample word) ++ List.replicate f.ending.sampleLength "" := by
  have hleaves : f.ending.Leaves (List.replicate f.ending.sampleLength "") := by
    cases f.ending <;> simp [Ending.Leaves, Ending.sampleLength]
  have hne : f.segments.map (Segment.sample word) ++
      List.replicate f.ending.sampleLength "" ≠ [] := by
    intro hnil
    obtain ⟨hsegments, hlength⟩ := List.append_eq_nil_iff.mp hnil
    cases he : f.ending with
    | exact => exact hf.exact_ne_nil he (List.map_eq_nil_iff.mp hsegments)
    | rest name => simp [he, Ending.sampleLength] at hlength
    | subtree => simp [he, Ending.sampleLength] at hlength
    | slash => simp [he, Ending.sampleLength] at hlength
  have hparts : ∀ part ∈ f.segments.map (Segment.sample word) ++
      List.replicate f.ending.sampleLength "", '/' ∉ part.toList := by
    intro part hpart
    rcases List.mem_append.mp hpart with hpart | hpart
    · obtain ⟨segment, hs, rfl⟩ := List.mem_map.mp hpart
      exact (Segment.sample_plain (hf.plain segment hs) hempty hslash).2
    · simp [(List.mem_replicate.mp hpart).2]
  obtain ⟨path, hpath⟩ := exists_pathParts hne hparts
  refine ⟨path, (mem_language_iff hf).mpr ?_, hpath⟩
  rw [hpath]
  exact ⟨_, _, rfl, Segment.fits_sample hf.plain hempty hslash, hleaves⟩

/-- If every path of a form is a path of another, then the other form's segments cover the first
segments of the one. Unless the other form may go on in any way, it ends alike and covers all. -/
theorem exists_covered_of_subset (hf : f.IsDocumented) (hg : g.IsDocumented)
    (h : f.pattern.language ⊆ g.pattern.language) :
    ∃ front back, f.segments = front ++ back ∧ List.Forall₂ Segment.Covers g.segments front ∧
      (g.ending.IsOpen ∨ back = [] ∧ g.ending = f.ending) := by
  obtain ⟨word, hempty, hslash, hfresh⟩ := Segment.exists_fresh g.segments
  have hsample := Segment.fits_sample hf.plain hempty hslash
  obtain ⟨path, hmem, hpath⟩ := exists_sample_mem_language hf hempty hslash
  have hfits := (mem_language_iff hg).mp (h hmem)
  rw [hpath] at hfits
  obtain ⟨front, back, hsplit, hcovers, hends⟩ := exists_covered hg.plain hfresh hfits
  refine ⟨front, back, hsplit, hcovers, ?_⟩
  cases he : g.ending with
  | exact =>
    have hnil : back.map (Segment.sample word) ++ List.replicate f.ending.sampleLength "" = [] := by
      simpa [he, Ending.Leaves] using hends
    obtain ⟨hback, hn⟩ := List.append_eq_nil_iff.mp hnil
    refine .inr ⟨List.map_eq_nil_iff.mp hback, ?_⟩
    cases he' : f.ending <;> simp [he', Ending.sampleLength] at hn ⊢
  | slash =>
    have hone : back.map (Segment.sample word) ++ List.replicate f.ending.sampleLength "" =
        [""] := by
      simpa [he, Ending.Leaves] using hends
    cases back with
    | nil =>
      refine .inr ⟨rfl, ?_⟩
      cases he' : f.ending <;> simp [he', Ending.sampleLength] at hone ⊢
    | cons segment back =>
      -- the sample of a segment has characters
      have hhead : segment.sample word = "" := (List.cons.inj hone).1
      refine absurd hhead (Segment.ne_empty_of_fits hsample hf.plain _ ?_)
      rw [hsplit]
      exact List.mem_map_of_mem (by simp)
  | rest name => exact .inl trivial
  | subtree => exact .inl trivial

/-- A form with a strictly smaller language is more specific. -/
theorem exceeds_of_language_ssubset (hf : f.IsDocumented) (hg : g.IsDocumented)
    (h : f.pattern.language ⊂ g.pattern.language) :
    f.pattern.rank.exceeds g.pattern.rank = true := by
  obtain ⟨front, back, hsplit, hcovers, hend⟩ := exists_covered_of_subset hf hg h.subset
  have hplain : ∀ segment ∈ front, segment.IsPlain := fun s hs =>
    hf.plain s (by rw [hsplit]; exact List.mem_append_left _ hs)
  have hle := Segment.countP_isLiteral_le hcovers
  have hlength := hcovers.length_eq
  have hg_count := Segment.countP_add_countP hg.plain
  have hfront_count := Segment.countP_add_countP hplain
  have hf_count := Segment.countP_add_countP hf.plain
  have hliterals : f.segments.countP isLiteral =
      front.countP isLiteral + back.countP isLiteral := by
    rw [hsplit, List.countP_append]
  have hall : f.segments.length = front.length + back.length := by
    rw [hsplit, List.length_append]
  -- if it were not, then nothing would be left, and the larger language would be no larger
  by_contra hno
  rw [rank_pattern, rank_pattern] at hno
  simp only [Rank.exceeds, Bool.or_eq_true, Bool.and_eq_true, decide_eq_true_eq] at hno
  suffices hback : back = [] ∧ g.segments.countP isLiteral = front.countP isLiteral ∧
      ∀ remaining, g.ending.Leaves remaining → f.ending.Leaves remaining by
    obtain ⟨rfl, hcount, hleaves⟩ := hback
    rw [List.append_nil] at hsplit
    subst hsplit
    have hreverse := Segment.covers_of_countP_isLiteral_eq hcovers hf.plain hcount
    refine h.not_subset fun path hpath => (mem_language_iff hf).mpr ?_
    exact fits_of_covers hg.plain hreverse hleaves ((mem_language_iff hg).mp hpath)
  rcases hend with hopen | ⟨rfl, hsame⟩
  · have hg_literals : g.literals = g.segments.countP isLiteral := by
      cases he : g.ending <;> simp [he, Ending.IsOpen] at hopen <;> simp [literals, he]
    have hg_closeness : g.ending.closeness ≤ 1 := by
      cases he : g.ending <;> simp [he, Ending.IsOpen] at hopen <;> simp [Ending.closeness]
    have hf_literals : f.segments.countP isLiteral ≤ f.literals := Nat.le_add_right _ _
    refine ⟨List.eq_nil_of_length_eq_zero (by omega), by omega, fun remaining _ => ?_⟩
    have hf_closeness : f.ending.closeness ≤ 1 := by omega
    cases he : f.ending <;> simp [he, Ending.closeness] at hf_closeness <;> trivial
  · have hsegments : g.segments = [] ↔ f.segments = [] := by
      rw [← List.length_eq_zero_iff, ← List.length_eq_zero_iff, hlength, hall]
      simp
    simp only [literals, hsame, ne_eq, hsegments] at hno
    refine ⟨rfl, by omega, fun remaining hr => by rwa [← hsame]⟩

end Form

/-- The paths that a route matches. -/
def Route.language (r : Route) : Set String := {path | (r.captures? path).isSome}

/-- The language of a route is that of its pattern. -/
theorem Route.language_eq {r : Route} {p : Pattern} (h : r.pattern? = some p) :
    r.language = p.language := by
  simp [language, Pattern.language, captures?, h]

/-- A route with a documented pattern and a strictly smaller language is more specific. -/
theorem Route.specificity_lt_of_language_ssubset {r r' : Route}
    (hr : Pattern.IsDocumented r.pattern) (hr' : Pattern.IsDocumented r'.pattern)
    (h : r'.language ⊂ r.language) : r.specificity < r'.specificity := by
  obtain ⟨f, hf, htext⟩ := hr
  obtain ⟨f', hf', htext'⟩ := hr'
  have hp : r.pattern? = some f.pattern := by
    rw [Route.pattern?, ← htext, Form.parse_text hf]; rfl
  have hp' : r'.pattern? = some f'.pattern := by
    rw [Route.pattern?, ← htext', Form.parse_text hf']; rfl
  rw [Route.language_eq hp, Route.language_eq hp'] at h
  simp only [Route.specificity, hp, hp']
  exact (Rank.exceeds_iff _ _).mp (Form.exceeds_of_language_ssubset hf' hf h)

/-- Documented texts are patterns, and one with a strictly smaller language has the higher rank. So
a request never goes to a route when another one that takes it has a strictly smaller language. -/
theorem Mux.rank_respects_languages :
    (∀ {text text' : String}, Pattern.IsDocumented text → Pattern.IsDocumented text' →
      ∃ p p', Pattern.parse text = .ok p ∧ Pattern.parse text' = .ok p' ∧
        (p.language ⊂ p'.language → p.rank.exceeds p'.rank = true)) ∧
    ∀ {fallback : Handler} {routes : List Route} {m : Mux}, Accepted fallback routes m →
      (∀ r ∈ routes, Pattern.IsDocumented r.pattern) →
      ∀ {method path : String} {r : Route} {params : PathParams},
        m.dispatch method path = .route r params →
        ∀ r' ∈ routes, r'.Takes method path → ¬ r'.language ⊂ r.language := by
  constructor
  · rintro text text' ⟨f, hf, rfl⟩ ⟨f', hf', rfl⟩
    exact ⟨f.pattern, f'.pattern, Form.parse_text hf, Form.parse_text hf',
      Form.exceeds_of_language_ssubset hf hf'⟩
  · intro fallback routes m h hdocumented method path r params hdispatch r' hr' htakes hsmaller
    have hanswers := h.answers method path
    rw [hdispatch] at hanswers
    obtain ⟨hr, -, -, hmax⟩ := hanswers.route_spec
    have hlt := Route.specificity_lt_of_language_ssubset (hdocumented r hr) (hdocumented r' hr')
      hsmaller
    exact absurd (hmax r' hr' htakes) hlt.not_ge

/-- The form of the route for the user who asks. -/
def Form.me : Form := ⟨[.literal "users", .literal "me"], .exact⟩

/-- The form of a route for one user. -/
def Form.user (name : String) : Form := ⟨[.literal "users", .param name], .exact⟩

/-- A path of two literals is documented. -/
theorem Form.isDocumented_me : Form.me.IsDocumented where
  plain := by
    simp only [Form.me, List.forall_mem_cons]
    exact ⟨⟨by decide, by decide, by decide, by decide⟩,
      ⟨by decide, by decide, by decide, by decide⟩, by simp⟩
  exact_ne_nil := by simp [Form.me]
  rest_name := by simp [Form.me]

/-- A path of a literal and a parameter is documented. -/
theorem Form.isDocumented_user {name : String} (h : (Segment.param name).IsPlain) :
    (Form.user name).IsDocumented where
  plain := by
    simp only [Form.user, List.forall_mem_cons]
    exact ⟨⟨by decide, by decide, by decide, by decide⟩, h, by simp⟩
  exact_ne_nil := by simp [Form.user]
  rest_name := by simp [Form.user]

/-- A literal in place of a parameter makes a language strictly smaller. -/
theorem Form.language_me_ssubset :
    Form.me.pattern.language ⊂ (Form.user "id").pattern.language := by
  have hid : (Segment.param "id").IsPlain := ⟨⟨by decide, by decide⟩, by decide, by decide⟩
  have hcovers : List.Forall₂ Segment.Covers (Form.user "id").segments Form.me.segments :=
    .cons rfl (.cons trivial .nil)
  constructor
  · intro path hpath
    rw [Form.mem_language_iff Form.isDocumented_me] at hpath
    rw [Form.mem_language_iff (Form.isDocumented_user hid)]
    exact Form.fits_of_covers Form.isDocumented_me.plain hcovers (fun _ hr => hr) hpath
  · intro hsub
    have hother : "/users/x" ∈ (Form.user "id").pattern.language := rfl
    have hnot : ¬ ((Form.me.pattern.matches? "/users/x").isSome = true) := by decide +kernel
    exact hnot (hsub hother)

/-- The route for one name precedes the one for any name, and takes its path. -/
theorem Mux.rank_respects_languages_overlapping :
    (∃ p p', Pattern.parse "/users/me" = .ok p ∧ Pattern.parse "/users/{id}" = .ok p' ∧
      p.language ⊂ p'.language ∧ p.rank.exceeds p'.rank = true) ∧
    overlapping.dispatch "GET" "/users/me" = .route getMe [] ∧
    userById.Takes "GET" "/users/me" ∧ ¬ userById.language ⊂ getMe.language := by
  have hme : Pattern.IsDocumented "/users/me" := ⟨Form.me, Form.isDocumented_me, by decide⟩
  have hid : Pattern.IsDocumented "/users/{id}" :=
    ⟨Form.user "id", Form.isDocumented_user ⟨⟨by decide, by decide⟩, by decide, by decide⟩,
      by decide⟩
  have hname : Pattern.IsDocumented "/users/{name}" :=
    ⟨Form.user "name", Form.isDocumented_user ⟨⟨by decide, by decide⟩, by decide, by decide⟩,
      by decide⟩
  have hdocumented : ∀ r ∈ [userById, getMe, postByName], Pattern.IsDocumented r.pattern := by
    simp only [List.forall_mem_cons]
    exact ⟨hid, hme, hname, by simp⟩
  have htakes : userById.Takes "GET" "/users/me" := ⟨rfl, rfl⟩
  refine ⟨?_, rfl, htakes, ?_⟩
  · obtain ⟨p, p', hp, hp', himp⟩ := rank_respects_languages.1 hme hid
    obtain rfl : Form.me.pattern = p := Except.ok.inj hp
    obtain rfl : (Form.user "id").pattern = p' := Except.ok.inj hp'
    exact ⟨_, _, hp, hp', Form.language_me_ssubset, himp Form.language_me_ssubset⟩
  · have hdispatch : overlapping.dispatch "GET" "/users/me" = .route getMe [] := rfl
    exact rank_respects_languages.2 accepted_overlapping hdocumented hdispatch userById (by simp)
      htakes

end WebHost
