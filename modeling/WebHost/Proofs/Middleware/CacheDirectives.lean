import Mathlib.Data.List.Nodup
import Mathlib.Tactic.SplitIfs
import WebHost.Middleware.CacheControl
import WebHost.Proofs.Text.Words

/-!
# What the text of a cache-control field tells

The text of a cache-control field lists directives, and no directive has a space in it, so the list can
be read off the text again. Every directive on it stands under a name of its own, which says to which
field of the record it belongs; a directive for a length of time has its number behind the name.

So the text tells every flag. Of a length of time it tells the whole seconds, and nothing at all up to
one second. The one directive that no field sets, that a response is stale at once, takes the place of
an age that is not told, and its number is one that no told age has.
-/

set_option autoImplicit false

namespace WebHost

namespace Duration

/-- A length of time that exceeds one second. -/
abbrev IsLong (d : Duration) : Prop := ofSeconds 1 < d

/-- Lengths of time that are the same in whole seconds, or both too short to be told. -/
def TellsAs (d d' : Duration) : Prop :=
  ¬ d.IsLong ∧ ¬ d'.IsLong ∨ d.IsLong ∧ d'.IsLong ∧ d.seconds = d'.seconds

/-- A duration of a second or more does not read as zero seconds. -/
theorem IsLong.seconds_ne_zero {d : Duration} (h : d.IsLong) : d.seconds ≠ 0 := by
  have hlt : (ofSeconds 1).toNanos < d.toNanos := h
  have hnanos : d.nanos.val < 1000000000 := d.nanos.isLt
  simp only [toNanos, ofSeconds] at hlt
  omega

end Duration

namespace CacheControl

/-- The fields of the record that are true or false. -/
inductive Flag where
  | isPrivate
  | isPublic
  | mustRevalidate
  | proxyRevalidate
  | mustUnderstand
  | noCache
  | noStore
  | noTransform
  | immutable
  deriving DecidableEq, Repr

/-- The fields of the record that are lengths of time. -/
inductive Length where
  | maxAge
  | sharedMaxAge
  | staleWhileRevalidate
  | staleIfError
  deriving DecidableEq, Repr

/-- What a directive is about. -/
inductive Topic where
  | flag (f : Flag)
  | length (l : Length)
  deriving DecidableEq, Repr

variable {c c' : CacheControl}

/-- Whether a flag is set. -/
def Flag.isSet (c : CacheControl) : Flag → Bool
  | isPrivate => c.isPrivate
  | isPublic => c.isPublic
  | mustRevalidate => c.mustRevalidate
  | proxyRevalidate => c.proxyRevalidate
  | mustUnderstand => c.mustUnderstand
  | noCache => c.noCache
  | noStore => c.noStore
  | noTransform => c.noTransform
  | immutable => c.immutable

/-- A length of time of the record. -/
def Length.of (c : CacheControl) : Length → Duration
  | maxAge => c.maxAge
  | sharedMaxAge => c.sharedMaxAge
  | staleWhileRevalidate => c.staleWhileRevalidate
  | staleIfError => c.staleIfError

/-- The name of a directive. -/
def Topic.name : Topic → String
  | flag .isPrivate => "private"
  | flag .isPublic => "public"
  | length .maxAge => "max-age"
  | length .sharedMaxAge => "s-maxage"
  | length .staleWhileRevalidate => "stale-while-revalidate"
  | length .staleIfError => "stale-if-error"
  | flag .mustRevalidate => "must-revalidate"
  | flag .proxyRevalidate => "proxy-revalidate"
  | flag .mustUnderstand => "must-understand"
  | flag .noCache => "no-cache"
  | flag .noStore => "no-store"
  | flag .noTransform => "no-transform"
  | flag .immutable => "immutable"

/-- What directives are about, in the documented order. -/
def documented : List Topic :=
  [.flag .isPrivate, .flag .isPublic, .length .maxAge, .length .sharedMaxAge,
    .length .staleWhileRevalidate, .length .staleIfError, .flag .mustRevalidate,
    .flag .proxyRevalidate, .flag .mustUnderstand, .flag .noCache, .flag .noStore,
    .flag .noTransform, .flag .immutable]

/-- The directive that a flag is set. -/
def Flag.directive (f : Flag) : String := (Topic.flag f).name

/-- The directive for a length of time. -/
def Length.directive (l : Length) (seconds : ℕ) : String :=
  (Topic.length l).name ++ "=" ++ toString seconds

/-- The directives in a text. The empty text has none. -/
def listed (text : String) : List String :=
  if text.isEmpty then [] else (Text.listed text.toList).map String.ofList

/-- The name in a directive: what stands before its number, if it has one. -/
def nameOf (directive : String) : String :=
  String.ofList (directive.toList.takeWhile (· ≠ '='))

/-- The record is private and not to be reused without a check, and its age is not told. -/
def IsStaleAtOnce (c : CacheControl) : Prop :=
  c.isPrivate = true ∧ c.noCache = true ∧ ¬ c.maxAge.IsLong

/-- Directives that are those of a record. -/
structure Tells (c : CacheControl) (directives : List String) : Prop where
  nodup : directives.Nodup
  ordered : (directives.map nameOf).Sublist (documented.map Topic.name)
  /-- Every directive is one that the record can have, -/
  known : ∀ d ∈ directives,
    (∃ f : Flag, d = f.directive) ∨ ∃ (l : Length) (n : ℕ), d = l.directive n
  /-- a flag is told exactly if it is set, -/
  flags : ∀ f : Flag, f.directive ∈ directives ↔ f.isSet c = true
  /-- and a length of time exactly if it exceeds one second, in whole seconds; an age may also be told
  as none at all. -/
  lengths : ∀ (l : Length) (n : ℕ), l.directive n ∈ directives ↔
    (l.of c).IsLong ∧ n = (l.of c).seconds ∨ l = .maxAge ∧ n = 0 ∧ c.IsStaleAtOnce

/-- Records that differ in nothing that is told. -/
structure Agrees (c c' : CacheControl) : Prop where
  flags : ∀ f : Flag, f.isSet c = f.isSet c'
  lengths : ∀ l : Length, (l.of c).TellsAs (l.of c')

/-! ## The directive on a topic -/

/-- The number that is told of a length of time. -/
def Length.told? (c : CacheControl) (l : Length) : Option ℕ :=
  if (l.of c).IsLong then some (l.of c).seconds
  else if l = .maxAge ∧ c.isPrivate = true ∧ c.noCache = true then some 0
  else none

/-- The directive on a topic, where the record has one. -/
def Topic.directive? (c : CacheControl) : Topic → Option String
  | flag f => if f.isSet c then some f.directive else none
  | length l => (l.told? c).map l.directive

/-- A flag has its directive exactly if it is set. -/
theorem directive?_flag {f : Flag} {d : String} :
    (Topic.flag f).directive? c = some d ↔ f.isSet c = true ∧ d = f.directive := by
  rw [Topic.directive?, Option.ite_none_right_eq_some, Option.some.injEq, eq_comm (a := d)]

/-- A length has a directive exactly if it is told, and it says the number that is told. -/
theorem directive?_length {l : Length} {d : String} :
    (Topic.length l).directive? c = some d ↔ ∃ n, l.told? c = some n ∧ d = l.directive n := by
  simp only [Topic.directive?, Option.map_eq_some_iff, eq_comm (a := d)]

/-- A length is told if it is a second or more, and the age also as zero where answers are stale at
once. -/
theorem told?_eq_some_iff {l : Length} {n : ℕ} :
    l.told? c = some n ↔
      (l.of c).IsLong ∧ n = (l.of c).seconds ∨ l = .maxAge ∧ n = 0 ∧ c.IsStaleAtOnce := by
  unfold Length.told?
  split_ifs with hlong hstale
  · have hno : ¬ (l = .maxAge ∧ n = 0 ∧ c.IsStaleAtOnce) := by
      rintro ⟨rfl, -, -, -, hshort⟩
      exact hshort hlong
    simp [hlong, hno, eq_comm]
  · obtain ⟨rfl, hprivate, hcache⟩ := hstale
    have hshort : ¬ c.maxAge.IsLong := hlong
    simp [hlong, IsStaleAtOnce, hprivate, hcache, hshort, eq_comm]
  · have hno : ¬ (l = .maxAge ∧ n = 0 ∧ c.IsStaleAtOnce) := by
      rintro ⟨hage, -, hprivate, hcache, -⟩
      exact hstale ⟨hage, hprivate, hcache⟩
    simp [hlong, hno]

/-- Every topic is documented. -/
theorem mem_documented (t : Topic) : t ∈ documented := by
  rcases t with f | l
  · cases f <;> decide
  · cases l <;> decide

/-- No two topics share a name. -/
theorem nodup_names : (documented.map Topic.name).Nodup := by decide

/-- A name belongs to one topic. -/
theorem name_injective {t t' : Topic} (h : t.name = t'.name) : t = t' :=
  List.inj_on_of_nodup_map nodup_names (mem_documented t) (mem_documented t') h

/-- No name is empty or has a space or an equals sign in it. -/
theorem plain_name (t : Topic) :
    t.name ≠ "" ∧ Text.IsWord t.name ∧ '=' ∉ t.name.toList := by
  have hall : ∀ t ∈ documented, t.name ≠ "" ∧ Text.IsWord t.name ∧ '=' ∉ t.name.toList := by
    decide
  exact hall t (mem_documented t)

/-- A name is ended by an equals sign, or by the end of the directive. -/
theorem nameOf_append (t : Topic) (behind : String)
    (h : behind.toList.takeWhile (· ≠ '=') = []) : nameOf (t.name ++ behind) = t.name := by
  have hname : ∀ c ∈ t.name.toList, decide (c ≠ '=') = true := fun c hc =>
    decide_eq_true fun heq => (plain_name t).2.2 (heq ▸ hc)
  rw [nameOf, String.toList_append, List.takeWhile_append_of_pos hname, h, List.append_nil,
    String.ofList_toList]

/-- The directive of a flag is its name. -/
theorem nameOf_flag (f : Flag) : nameOf f.directive = (Topic.flag f).name := by
  have hname := nameOf_append (.flag f) "" rfl
  rwa [String.append_empty] at hname

/-- The name of a directive with a number is found in front of the equals sign. -/
theorem nameOf_length (l : Length) (n : ℕ) : nameOf (l.directive n) = (Topic.length l).name := by
  rw [Length.directive, String.append_assoc]
  exact nameOf_append (.length l) _ (by simp)

/-- Directives of one length tell their numbers apart. -/
theorem directive_inj {l : Length} {m n : ℕ} : l.directive m = l.directive n ↔ m = n := by
  rw [Length.directive, Length.directive, String.append_right_inj, Numeral.toString_inj]

/-- Every directive stands under the name of its topic. -/
theorem nameOf_directive? {t : Topic} {d : String} (h : t.directive? c = some d) :
    nameOf d = t.name := by
  cases t with
  | flag f =>
    obtain ⟨-, rfl⟩ := directive?_flag.mp h
    exact nameOf_flag f
  | length l =>
    obtain ⟨n, -, rfl⟩ := directive?_length.mp h
    exact nameOf_length l n

/-! ## The list of directives -/

/-- A flag contributes its directive, if it has one. -/
theorem flag_eq (f : Flag) :
    CacheControl.flag (f.isSet c) f.directive = ((Topic.flag f).directive? c).toList := by
  cases h : f.isSet c <;> simp [flag, Topic.directive?, h]

/-- A length other than the age contributes its directive, if it has one. -/
theorem seconds_eq {l : Length} (h : l ≠ .maxAge) :
    seconds (Topic.length l).name (l.of c) = ((Topic.length l).directive? c).toList := by
  unfold seconds Topic.directive? Length.told?
  split_ifs <;> simp_all [Length.directive]

/-- The age contributes its directive, if it has one. -/
theorem age_eq (c : CacheControl) : c.age = ((Topic.length .maxAge).directive? c).toList := by
  have hzero : "max-age=0" = Length.maxAge.directive 0 := by decide
  by_cases hlong : c.maxAge.IsLong
  · have hseconds : seconds "max-age" c.maxAge = [Length.maxAge.directive c.maxAge.seconds] :=
      if_pos hlong
    have htold : Length.maxAge.told? c = some c.maxAge.seconds := if_pos hlong
    simp [age, hseconds, flag, Topic.directive?, htold]
  · have hseconds : seconds "max-age" c.maxAge = [] := if_neg hlong
    have htold : Length.maxAge.told? c = if c.isPrivate && c.noCache then some 0 else none := by
      have hage : ¬ (Length.maxAge.of c).IsLong := hlong
      simp [Length.told?, hage]
    rw [age, hseconds, Topic.directive?, htold, hzero]
    cases c.isPrivate <;> cases c.noCache <;> rfl

/-- The directives are told topic by topic, in the documented order. -/
theorem directives_eq (c : CacheControl) :
    c.directives = documented.filterMap (Topic.directive? c) := by
  have hshared : Length.sharedMaxAge ≠ .maxAge := by decide
  have hstale : Length.staleWhileRevalidate ≠ .maxAge := by decide
  have herror : Length.staleIfError ≠ .maxAge := by decide
  rw [List.filterMap_eq_flatMap_toList]
  simp only [documented, List.flatMap_cons, List.flatMap_nil, List.append_nil, ← flag_eq, ← age_eq,
    ← seconds_eq hshared, ← seconds_eq hstale, ← seconds_eq herror, ← List.append_assoc]
  rfl

/-- A directive is in the list exactly if some topic has it. -/
theorem mem_directives_iff {d : String} :
    d ∈ c.directives ↔ ∃ t : Topic, t.directive? c = some d := by
  rw [directives_eq, List.mem_filterMap]
  exact ⟨fun ⟨t, _, ht⟩ => ⟨t, ht⟩, fun ⟨t, ht⟩ => ⟨t, mem_documented t, ht⟩⟩

/-- A directive under the name of a topic is the one on that topic. -/
theorem mem_directives_iff_of_name {t : Topic} {d : String} (hname : nameOf d = t.name) :
    d ∈ c.directives ↔ t.directive? c = some d := by
  rw [mem_directives_iff]
  constructor
  · rintro ⟨t', ht'⟩
    have hnames : t'.name = t.name := (nameOf_directive? ht').symm.trans hname
    rwa [← name_injective hnames]
  · exact fun ht => ⟨t, ht⟩

/-- Topics on which nothing is told leave the names of the others in their order. -/
theorem names_sublist (topics : List Topic) :
    ((topics.filterMap (Topic.directive? c)).map nameOf).Sublist (topics.map Topic.name) := by
  induction topics with
  | nil => exact .slnil
  | cons t topics ih =>
    cases h : t.directive? c with
    | none =>
      rw [List.filterMap_cons_none h]
      exact ih.cons t.name
    | some d =>
      rw [List.filterMap_cons_some h, List.map_cons, nameOf_directive? h]
      exact ih.cons_cons t.name

/-- The directives come in the order in which topics are documented. -/
theorem names_directives_sublist (c : CacheControl) :
    (c.directives.map nameOf).Sublist (documented.map Topic.name) := by
  rw [directives_eq]
  exact names_sublist documented

/-- The list of directives tells of every topic what there is to tell. -/
theorem tells_directives (c : CacheControl) : c.Tells c.directives where
  nodup := .of_map nameOf ((names_directives_sublist c).nodup nodup_names)
  ordered := names_directives_sublist c
  known := by
    intro d hd
    obtain ⟨t, ht⟩ := mem_directives_iff.mp hd
    cases t with
    | flag f => exact .inl ⟨f, (directive?_flag.mp ht).2⟩
    | length l =>
      obtain ⟨n, -, hn⟩ := directive?_length.mp ht
      exact .inr ⟨l, n, hn⟩
  flags f := by
    rw [mem_directives_iff_of_name (nameOf_flag f), directive?_flag]
    exact and_iff_left rfl
  lengths l n := by
    rw [mem_directives_iff_of_name (nameOf_length l n), directive?_length, ← told?_eq_some_iff]
    constructor
    · rintro ⟨m, hm, heq⟩
      obtain rfl := directive_inj.mp heq
      exact hm
    · exact fun hn => ⟨n, hn, rfl⟩

/-! ## The text -/

/-- A directive is a word. -/
theorem isWord_of_mem_directives {d : String} (h : d ∈ c.directives) : Text.IsWord d := by
  obtain ⟨t, ht⟩ := mem_directives_iff.mp h
  have hname := (plain_name t).2.1
  cases t with
  | flag f =>
    obtain ⟨-, rfl⟩ := directive?_flag.mp ht
    exact hname
  | length l =>
    obtain ⟨n, -, rfl⟩ := directive?_length.mp ht
    have hsign : Text.IsWord "=" := by decide
    exact (hname.append hsign).append (Numeral.isWord_toString n)

/-- A directive is not empty. -/
theorem ne_empty_of_mem_directives {d : String} (h : d ∈ c.directives) : d ≠ "" := by
  rintro rfl
  obtain ⟨t, ht⟩ := mem_directives_iff.mp h
  exact (plain_name t).1 (nameOf_directive? ht).symm

/-- The list of directives can be read off the text. -/
theorem listed_text (c : CacheControl) : listed c.text = c.directives := by
  by_cases hnil : c.directives = []
  · rw [text, hnil]
    rfl
  · have hparts : ∀ part ∈ c.directives.map String.toList, ' ' ∉ part := by
      intro part hpart hspace
      obtain ⟨d, hd, rfl⟩ := List.mem_map.mp hpart
      exact isWord_of_mem_directives hd ' ' hspace (by decide)
    have hcut : Text.listed c.text.toList = c.directives.map String.toList := by
      rw [text, Text.joinWith, String.toList_intercalate]
      exact Text.listed_intercalate (by simpa using hnil) hparts
    have hne : c.text.isEmpty ≠ true := by
      -- the empty text would be one empty directive
      intro hempty
      rw [String.isEmpty_iff.mp hempty] at hcut
      have hmem : [] ∈ c.directives.map String.toList := hcut ▸ List.mem_singleton_self []
      obtain ⟨d, hd, hnone⟩ := List.mem_map.mp hmem
      exact ne_empty_of_mem_directives hd (String.toList_eq_nil_iff.mp hnone)
    rw [listed, if_neg hne, hcut, List.map_map]
    simp [Function.comp_def]

/-! ## Records with the same text -/

/-- If one list tells of two controls, a length that is long in one is as long in the other. -/
theorem Tells.isLong {directives : List String} (h : c.Tells directives) (h' : c'.Tells directives)
    {l : Length} (hlong : (l.of c).IsLong) :
    (l.of c').IsLong ∧ (l.of c).seconds = (l.of c').seconds := by
  have htold : l.directive (l.of c).seconds ∈ directives := (h.lengths l _).mpr (.inl ⟨hlong, rfl⟩)
  rcases (h'.lengths l _).mp htold with hlong' | ⟨-, hzero, -⟩
  · exact hlong'
  · exact absurd hzero hlong.seconds_ne_zero

/-- The directives of a record decide all that is told of it. -/
theorem Tells.agrees {directives : List String} (h : c.Tells directives) (h' : c'.Tells directives) :
    c.Agrees c' where
  flags f := Bool.eq_iff_iff.mpr ((h.flags f).symm.trans (h'.flags f))
  lengths l := by
    by_cases hlong : (l.of c).IsLong
    · exact .inr ⟨hlong, h.isLong h' hlong⟩
    · exact .inl ⟨hlong, fun hlong' => hlong (h'.isLong h hlong').1⟩

/-- Controls that agree tell the same of each length. -/
theorem Agrees.told?_eq (h : c.Agrees c') (l : Length) : l.told? c = l.told? c' := by
  have hprivate : c.isPrivate = c'.isPrivate := h.flags .isPrivate
  have hcache : c.noCache = c'.noCache := h.flags .noCache
  unfold Length.told?
  rcases h.lengths l with ⟨hshort, hshort'⟩ | ⟨hlong, hlong', hseconds⟩
  · rw [if_neg hshort, if_neg hshort', hprivate, hcache]
  · rw [if_pos hlong, if_pos hlong', hseconds]

/-- Nothing else of a record has a part in its directives. -/
theorem Agrees.directives_eq (h : c.Agrees c') : c.directives = c'.directives := by
  rw [CacheControl.directives_eq, CacheControl.directives_eq]
  refine List.filterMap_congr fun t _ => ?_
  cases t with
  | flag f => rw [Topic.directive?, Topic.directive?, h.flags f]
  | length l => rw [Topic.directive?, Topic.directive?, h.told?_eq l]

/-- The text of a cache-control field tells what its record says, in the documented order, and records
have the same text exactly if they differ in nothing that is told. -/
theorem tells_and_text_eq_iff (c c' : CacheControl) :
    c.Tells (listed c.text) ∧ (c.text = c'.text ↔ c.Agrees c') := by
  refine ⟨?_, fun h => ?_, fun h => ?_⟩
  · rw [listed_text]
    exact tells_directives c
  · have hlisted : c.directives = c'.directives := by rw [← listed_text, h, listed_text]
    exact (tells_directives c).agrees (hlisted ▸ tells_directives c')
  · rw [text, text, h.directives_eq]

/-- A length of time is told from the first nanosecond beyond a second on. -/
example :
    ({ maxAge := .ofSeconds 1, sharedMaxAge := ⟨1, 1, by decide⟩ } : CacheControl).text = "s-maxage=1" ∧
      ({ isPrivate := true, noCache := true } : CacheControl).text =
        "private, max-age=0, no-cache" := by
  decide

end CacheControl

end WebHost
