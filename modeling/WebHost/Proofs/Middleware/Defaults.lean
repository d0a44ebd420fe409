import Mathlib.Tactic.SplitIfs
import WebHost.Middleware.Headers

/-!
# Header defaults give way

Middleware that provides header fields walks over what its modifier makes of an empty map and adds it,
name by name, to the response. The walk changes the very fields that it asks about: it asks at the first
value of a name, and from then on the name is there. So what is left of a group of values is all or
nothing, and the walk can be followed group by group. A name that the handler set keeps the values of
the handler, every other name gets those of the modifier, and a second walk finds every name there.
-/

set_option autoImplicit false

namespace WebHost

namespace HeaderModifier

/-! ## The walk -/

namespace Filling

/-- Values without a name are all passed over, or all added to the name before them. -/
theorem foldl_take_unnamed (f : Filling) (more : List Bytes) :
    (more.map (none, ·)).foldl take f =
      { f with
        headers := f.current.elim f.headers fun name =>
          ⟨f.headers.fields ++ more.map (name, ·)⟩ } := by
  induction more generalizing f with
  | nil => rcases f with ⟨headers, _ | name⟩ <;> simp
  | cons value more ih =>
    rw [List.map_cons, List.foldl_cons, ih]
    rcases f with ⟨headers, _ | name⟩ <;> simp [take, Headers.append]

/-- The values of a name are all passed over if the name is there, and all added if it is not. -/
theorem headers_foldl_entries (f : Filling) (made : Headers) (name : String) :
    ((made.entries name).foldl take f).headers =
      if f.headers.contains name then f.headers
      else ⟨f.headers.fields ++ (made.values name).map (name, ·)⟩ := by
  unfold Headers.entries
  cases made.values name with
  | nil => simp
  | cons value more =>
    rw [List.foldl_cons, foldl_take_unnamed]
    by_cases hname : f.headers.contains name = true <;> simp [take, hname, Headers.append]

/-- Fields of one name that are added at the end add to the values of that name only. -/
theorem values_fields_append (h : Headers) (name other : String) (added : List Bytes) :
    (Headers.mk (h.fields ++ added.map (name, ·))).values other =
      h.values other ++ if name = other then added else [] := by
  by_cases hname : name = other <;> simp [Headers.values, List.filter_map, Function.comp_def, hname]

/-- What a walk over the groups of some names leaves of any name. -/
theorem values_foldl_walk (made : Headers) (names : List String) (f : Filling) (name : String) :
    ((names.flatMap made.entries).foldl take f).headers.values name =
      if f.headers.contains name = true then f.headers.values name
      else if name ∈ names then made.values name else [] := by
  induction names generalizing f with
  | nil =>
    rw [List.flatMap_nil, List.foldl_nil, if_neg List.not_mem_nil]
    split_ifs with hname
    · rfl
    · rwa [Headers.contains_iff, Classical.not_not] at hname
  | cons first names ih =>
    rw [List.flatMap_cons, List.foldl_append, ih, headers_foldl_entries]
    by_cases hfirst : f.headers.contains first = true
    · -- the whole group is passed over
      rw [if_pos hfirst]
      by_cases hname : f.headers.contains name = true
      · rw [if_pos hname, if_pos hname]
      · have hne : name ≠ first := fun heq => hname (heq ▸ hfirst)
        rw [if_neg hname, if_neg hname]
        simp [hne]
    · rw [if_neg hfirst]
      simp only [Headers.contains_iff, values_fields_append]
      by_cases hne : first = name
      · -- the group of this very name, added to nothing
        subst hne
        have hnone : f.headers.values first = [] := by
          rwa [Headers.contains_iff, Classical.not_not] at hfirst
        by_cases hmade : made.values first = [] <;> simp [hnone, hmade]
      · simp [hne, Ne.symm hne]

/-- A walk over names that are all there changes nothing. -/
theorem headers_foldl_walk (made : Headers) {names : List String} {f : Filling}
    (h : ∀ name ∈ names, f.headers.contains name = true) :
    ((names.flatMap made.entries).foldl take f).headers = f.headers := by
  induction names generalizing f with
  | nil => rfl
  | cons first names ih =>
    obtain ⟨hfirst, hrest⟩ := List.forall_mem_cons.mp h
    have hgroup := headers_foldl_entries f made first
    rw [if_pos hfirst] at hgroup
    rw [List.flatMap_cons, List.foldl_append, ih (by rwa [hgroup]), hgroup]

end Filling

variable {h made : Headers}

/-- The fields that were there keep their values, and every other name has those of the defaults. -/
theorem values_withDefaults (h made : Headers) (name : String) :
    (withDefaults h made).values name =
      if h.contains name = true then h.values name else made.values name := by
  rw [withDefaults, Headers.walk, Filling.values_foldl_walk]
  by_cases hname : name ∈ made.names
  · rw [if_pos hname]
  · rw [if_neg hname]
    rw [Headers.mem_names_iff, Headers.contains_iff, Classical.not_not] at hname
    rw [hname]

/-- Defaults that were provided once are all there. -/
theorem withDefaults_withDefaults (h made : Headers) :
    withDefaults (withDefaults h made) made = withDefaults h made := by
  refine Filling.headers_foldl_walk made fun name hname => ?_
  rw [Headers.contains_iff, values_withDefaults]
  split_ifs with hset
  · exact Headers.contains_iff.mp hset
  · exact Headers.contains_iff.mp (Headers.mem_names_iff.mp hname)

/-! ## The middleware -/

/-- A response with the fields of a modifier as defaults. -/
def fill (made : Headers) (response : Response) : Response :=
  { response with headers := withDefaults response.headers made }

/-- A response that differs from the response of the handler only by fields that the handler did not
set. -/
structure IsFilled (made : Headers) (response filled : Response) : Prop where
  status : filled.status = response.status
  body : filled.body = response.body
  /-- What the handler set is left as it is, -/
  kept : ∀ name, response.headers.contains name = true →
    filled.headers.values name = response.headers.values name
  /-- and every other name has the values that the modifier makes on its own. -/
  provided : ∀ name, response.headers.contains name = false →
    filled.headers.values name = made.values name

/-- Filling gives a response what it lacks and leaves it everything it has. -/
theorem isFilled_fill (made : Headers) (response : Response) :
    IsFilled made response (fill made response) where
  status := rfl
  body := rfl
  kept name hname := by rw [fill, values_withDefaults, if_pos hname]
  provided name hname := by rw [fill, values_withDefaults, hname, if_neg Bool.false_ne_true]

/-- Filling twice is filling once. -/
theorem fill_fill (made : Headers) (response : Response) :
    fill made (fill made response) = fill made response := by
  simp only [fill, withDefaults_withDefaults]

/-- With a modifier that does not fail on the empty header, the middleware fills what the rest of
the chain answers. -/
theorem around_eq {m : HeaderModifier} (hmade : m Headers.empty = .ok made) (name : String)
    (next : Next) (request : Request) :
    (middleware name m).around next request = fill made <$> next.run request := by
  simp only [middleware, hmade]
  rfl

/-- Around itself the middleware does no more than once. -/
theorem around_around {m : HeaderModifier} (hmade : m Headers.empty = .ok made) (name : String)
    (next : Next) (label : Option String) :
    (middleware name m).around ⟨label, (middleware name m).around next⟩ =
      (middleware name m).around next := by
  funext request
  have htwice : (fun response => Job.done (fill made (fill made response))) =
      fun response => Job.done (fill made response) := by
    funext response
    rw [fill_fill]
  calc
    (middleware name m).around ⟨label, (middleware name m).around next⟩ request
        = fill made <$> (middleware name m).around next request := around_eq hmade name _ request
    _ = fill made <$> fill made <$> next.run request := by rw [around_eq hmade]
    _ = (next.run request).bind fun response => .done (fill made (fill made response)) :=
      Job.bind_assoc _ _ _
    _ = (next.run request).bind fun response => .done (fill made response) := by rw [htwice]
    _ = (middleware name m).around next request := (around_eq hmade name next request).symm

/-- Anywhere in a chain, the same defaults twice in a row are the same as once. -/
theorem next_of_twice {m : HeaderModifier} (hmade : m Headers.empty = .ok made) (name : String)
    (before rest : List Middleware) (handler : Handler) :
    Next.of (before ++ middleware name m :: middleware name m :: rest) handler =
      Next.of (before ++ middleware name m :: rest) handler := by
  induction before with
  | nil =>
    simp only [List.nil_append, Next.of]
    rw [around_around hmade]
  | cons first before ih => simp only [List.cons_append, Next.of, ih]

/-- Middleware that provides what a modifier makes of an empty map, and gives way to whatever it stands
around. -/
structure GivesWay (made : Headers) (w : Middleware) : Prop where
  /-- It does what it stands around and fills the response, -/
  fills : ∃ complete : Response → Response,
    (∀ next request, w.around next request = complete <$> next.run request) ∧
      ∀ response, IsFilled made response (complete response)
  /-- and in a chain it does twice what it does once. -/
  twice : ∀ (before rest : List Middleware) (handler : Handler),
    Next.of (before ++ w :: w :: rest) handler = Next.of (before ++ w :: rest) handler

/-- Header fields of the handler win over the defaults of a modifier, whatever the modifier does to
header fields and whatever the handler answers. -/
theorem middleware_givesWay (name : String) (m : HeaderModifier)
    (hmade : m Headers.empty = .ok made) : GivesWay made (middleware name m) where
  fills := ⟨fill made, around_eq hmade name, isFilled_fill made⟩
  twice := next_of_twice hmade name

/-- Defaults with two values of one name around that of another. -/
theorem givesWay_of_two_values :
    let m := ofChange fun h => ((h.append "link" [97]).append "vary" [42]).append "link" [98]
    let made : Headers := ⟨[("link", [97]), ("vary", [42]), ("link", [98])]⟩
    m Headers.empty = .ok made ∧ GivesWay made (middleware "links" m) :=
  ⟨rfl, middleware_givesWay "links" _ rfl⟩

example :
    withDefaults ⟨[("vary", [1])]⟩ ⟨[("link", [97]), ("vary", [42]), ("link", [98])]⟩ =
      ⟨[("vary", [1]), ("link", [97]), ("link", [98])]⟩ := by
  decide

end HeaderModifier

end WebHost
