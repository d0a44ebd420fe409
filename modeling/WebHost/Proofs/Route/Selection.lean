import Mathlib.Data.Prod.Lex
import WebHost.Proofs.Route.Registration

/-!
# The route that a request goes to

A request goes to the earliest of the most specific routes that match its path and take its method.
The multiplexer finds it in one pass that keeps the best entry so far; what the pass maintains is
that everything before the best entry is less specific and nothing after it is more so. If no route
takes the method although some match the path, the method is not allowed, and if no route matches,
nothing is found. So the order of registration matters only between equally specific routes.
-/

set_option autoImplicit false

namespace WebHost

namespace Pattern

/-- A rank as a triple under the lexicographic order. -/
def Rank.toTriple (a : Rank) : ℕ ×ₗ ℕ ×ₗ ℕ := toLex (a.literals, toLex (a.params, a.closeness))

/-- One rank exceeds another in the lexicographic order of the triples. -/
theorem Rank.exceeds_iff (a b : Rank) : a.exceeds b = true ↔ b.toTriple < a.toTriple := by
  simp only [Rank.exceeds, Rank.toTriple, Prod.Lex.toLex_lt_toLex, Bool.or_eq_true,
    Bool.and_eq_true, decide_eq_true_eq]
  omega

end Pattern

namespace Route

/-- The parameters that the pattern of a route captures from a path, if it matches. -/
def captures? (r : Route) (path : String) : Option PathParams :=
  r.pattern?.bind (·.matches? path)

/-- How specific a route is. A route that spells no pattern is never registered. -/
def specificity (r : Route) : ℕ ×ₗ ℕ ×ₗ ℕ :=
  match r.pattern? with
  | some p => p.rank.toTriple
  | none => toLex (0, toLex (0, 0))

/-- A route matches the path of a request and takes its method. -/
def Takes (r : Route) (method path : String) : Prop :=
  (r.captures? path).isSome ∧ r.allows method = true

/-- The methods of the routes that match a path, in the order of registration. -/
def methodsOf (routes : List Route) (path : String) : List String :=
  (routes.filter fun r => (r.captures? path).isSome).filterMap Route.method

end Route

/-- Where a request goes when routes were registered in some order. -/
inductive Dispatch.Answers (routes : List Route) (method path : String) : Dispatch → Prop
  /-- To the earliest of the most specific routes that take it. -/
  | route {before after : List Route} {r : Route} {params : PathParams} :
    routes = before ++ r :: after → r.captures? path = some params → r.allows method = true →
    (∀ r' ∈ before, r'.Takes method path → r'.specificity < r.specificity) →
    (∀ r' ∈ after, r'.Takes method path → r'.specificity ≤ r.specificity) →
    Answers routes method path (.route r params)
  /-- To nobody, because no route that matches the path takes the method. -/
  | methodNotAllowed :
    (∃ r ∈ routes, (r.captures? path).isSome) →
    (∀ r ∈ routes, (r.captures? path).isSome → r.allows method = false) →
    Answers routes method path (.methodNotAllowed (Route.methodsOf routes path))
  /-- To nobody, because no route matches the path. -/
  | notFound : (∀ r ∈ routes, r.captures? path = none) → Answers routes method path .notFound

namespace Dispatch

variable {routes routes' : List Route} {method path : String} {d d' : Dispatch}

/-- Two ways for one request that differ at most between equally specific routes. -/
inductive SameUpToRank (method path : String) : Dispatch → Dispatch → Prop
  | route {r r' : Route} {params params' : PathParams} :
    r.captures? path = some params → r.allows method = true →
    r'.captures? path = some params' → r'.allows method = true →
    r.specificity = r'.specificity →
    SameUpToRank method path (.route r params) (.route r' params')
  | methodNotAllowed {methods methods' : List String} : methods.Perm methods' →
    SameUpToRank method path (.methodNotAllowed methods) (.methodNotAllowed methods')
  | notFound : SameUpToRank method path .notFound .notFound

/-- A selected route is one of those registered, takes the request, and no other one that takes it
is more specific. -/
theorem Answers.route_spec {r : Route} {params : PathParams}
    (h : Answers routes method path (.route r params)) :
    r ∈ routes ∧ r.captures? path = some params ∧ r.allows method = true ∧
      ∀ r' ∈ routes, r'.Takes method path → r'.specificity ≤ r.specificity := by
  cases h with
  | @route before after _ _ hsplit hcaptures hallows hbefore hafter =>
    subst hsplit
    refine ⟨by simp, hcaptures, hallows, fun r' hr' ht => ?_⟩
    rcases List.mem_append.mp hr' with hr' | hr'
    · exact (hbefore r' hr' ht).le
    · rcases List.mem_cons.mp hr' with rfl | hr'
      · exact le_rfl
      · exact hafter r' hr' ht

/-- The earliest of the most specific routes is only one. -/
theorem Answers.route_unique {r r' : Route} {params params' : PathParams}
    (h : Answers routes method path (.route r params))
    (h' : Answers routes method path (.route r' params')) :
    Dispatch.route r params = .route r' params' := by
  cases h with
  | @route before after _ _ hsplit hcaptures hallows hbefore hafter =>
  cases h' with
  | @route before' after' _ _ hsplit' hcaptures' hallows' hbefore' hafter' =>
  have htakes : r.Takes method path := ⟨by simp [hcaptures], hallows⟩
  have htakes' : r'.Takes method path := ⟨by simp [hcaptures'], hallows'⟩
  suffices hr : r = r' by
    subst hr
    rw [hcaptures] at hcaptures'
    rw [Option.some.inj hcaptures']
  -- otherwise the earlier of the two would be both as specific and less specific
  rw [hsplit] at hsplit'
  rcases List.append_eq_append_iff.mp hsplit' with ⟨between, hb, ha⟩ | ⟨between, hb, ha⟩
  · cases between with
    | nil => exact (List.cons.inj ha).1
    | cons x between =>
      obtain ⟨rfl, rfl⟩ := List.cons.inj ha
      have hlt := hbefore' r (by simp [hb]) htakes
      have hle := hafter r' (by simp) htakes'
      exact absurd hlt hle.not_gt
  · cases between with
    | nil => exact (List.cons.inj ha).1.symm
    | cons x between =>
      obtain ⟨rfl, rfl⟩ := List.cons.inj ha
      have hlt := hbefore r' (by simp [hb]) htakes'
      have hle := hafter' r (by simp) htakes
      exact absurd hlt hle.not_gt

/-- A route is selected exactly when some route takes the request. -/
theorem Answers.exists_takes_iff (h : Answers routes method path d) :
    (∃ r ∈ routes, r.Takes method path) ↔ ∃ r params, d = .route r params := by
  constructor
  · rintro ⟨r, hr, hmatch, hallows⟩
    cases h with
    | route => exact ⟨_, _, rfl⟩
    | methodNotAllowed _ hnone => simp [hnone r hr hmatch] at hallows
    | notFound hnever => simp [hnever r hr] at hmatch
  · rintro ⟨r, params, rfl⟩
    obtain ⟨hr, hcaptures, hallows, -⟩ := h.route_spec
    exact ⟨r, hr, by simp [hcaptures], hallows⟩

/-- Nothing is found exactly when no route matches the path. -/
theorem Answers.exists_captures_iff (h : Answers routes method path d) :
    (∃ r ∈ routes, (r.captures? path).isSome) ↔ d ≠ .notFound := by
  constructor
  · rintro ⟨r, hr, hmatch⟩ rfl
    cases h with
    | notFound hnever => simp [hnever r hr] at hmatch
  · intro hd
    cases h with
    | @route _ _ r _ hsplit hcaptures => exact ⟨r, by simp [hsplit], by simp [hcaptures]⟩
    | methodNotAllowed hany _ => exact hany
    | notFound => exact absurd rfl hd

/-- In any order the routes answer the same way, up to equally specific routes. -/
theorem Answers.sameUpToRank (h : Answers routes method path d)
    (h' : Answers routes' method path d') (hperm : routes'.Perm routes) :
    SameUpToRank method path d d' := by
  have htakes : (∃ r params, d = .route r params) ↔ ∃ r params, d' = .route r params := by
    rw [← h.exists_takes_iff, ← h'.exists_takes_iff]
    simp only [hperm.mem_iff]
  have hfound : d ≠ .notFound ↔ d' ≠ .notFound := by
    rw [← h.exists_captures_iff, ← h'.exists_captures_iff]
    simp only [hperm.mem_iff]
  cases d with
  | route r params =>
    obtain ⟨r', params', rfl⟩ := htakes.mp ⟨r, params, rfl⟩
    obtain ⟨hr, hcaptures, hallows, hmax⟩ := h.route_spec
    obtain ⟨hr', hcaptures', hallows', hmax'⟩ := h'.route_spec
    have hle := hmax r' (hperm.mem_iff.mp hr') ⟨by simp [hcaptures'], hallows'⟩
    have hge := hmax' r (hperm.mem_iff.mpr hr) ⟨by simp [hcaptures], hallows⟩
    exact .route hcaptures hallows hcaptures' hallows' (le_antisymm hge hle)
  | methodNotAllowed methods =>
    cases h' with
    | route => simp at htakes
    | notFound => simp at hfound
    | methodNotAllowed =>
      cases h
      exact .methodNotAllowed ((hperm.symm.filter _).filterMap _)
  | notFound =>
    cases d' with
    | route => simp at hfound
    | methodNotAllowed => simp at hfound
    | notFound => exact .notFound

/-- In one order the routes answer in one way only. -/
theorem Answers.unique (h : Answers routes method path d) (h' : Answers routes method path d') :
    d = d' := by
  cases h.sameUpToRank h' (List.Perm.refl routes) with
  | route => exact h.route_unique h'
  | methodNotAllowed =>
    cases h
    cases h'
    rfl
  | notFound => rfl

end Dispatch

namespace Mux

open Pattern

/-- A candidate of the multiplexer: an entry that matches, with what it captures. -/
abbrev Candidate : Type := Pattern × Route × PathParams

/-- How specific a candidate is. -/
def Candidate.specificity (c : Candidate) : ℕ ×ₗ ℕ ×ₗ ℕ := c.1.rank.toTriple

/-- The pass over the candidates keeps the better of the first two. -/
theorem mostSpecific_cons_cons (b c : Candidate) (cs : List Candidate) :
    mostSpecific (b :: c :: cs) =
      if Candidate.specificity b < Candidate.specificity c then mostSpecific (c :: cs)
      else mostSpecific (b :: cs) := by
  simp only [mostSpecific, List.foldl_cons, Rank.exceeds_iff, Candidate.specificity]
  split_ifs <;> rfl

/-- The pass ends with the earliest of the most specific candidates. -/
theorem mostSpecific_cons (b : Candidate) (cs : List Candidate) :
    ∃ before c after, mostSpecific (b :: cs) = some c ∧ b :: cs = before ++ c :: after ∧
      (∀ x ∈ before, Candidate.specificity x < Candidate.specificity c) ∧
      (∀ x ∈ after, Candidate.specificity x ≤ Candidate.specificity c) := by
  induction cs generalizing b with
  | nil => exact ⟨[], b, [], rfl, rfl, by simp, by simp⟩
  | cons x cs ih =>
    rw [mostSpecific_cons_cons]
    split_ifs with hlt
    · obtain ⟨before, c, after, hmost, hsplit, hbefore, hafter⟩ := ih x
      refine ⟨b :: before, c, after, hmost, by rw [hsplit, List.cons_append], ?_, hafter⟩
      -- the new best candidate is at most as specific as the one that wins
      have hx : Candidate.specificity x ≤ Candidate.specificity c := by
        have hmem : x ∈ before ++ c :: after := by rw [← hsplit]; exact List.mem_cons_self
        rcases List.mem_append.mp hmem with h | h
        · exact (hbefore x h).le
        · rcases List.mem_cons.mp h with rfl | h
          · exact le_rfl
          · exact hafter x h
      intro y hy
      rcases List.mem_cons.mp hy with rfl | hy
      · exact hlt.trans_le hx
      · exact hbefore y hy
    · obtain ⟨before, c, after, hmost, hsplit, hbefore, hafter⟩ := ih b
      have hx : Candidate.specificity x ≤ Candidate.specificity b := not_lt.mp hlt
      cases before with
      | nil =>
        obtain ⟨rfl, rfl⟩ : b = c ∧ cs = after := by simpa using hsplit
        refine ⟨[], b, x :: cs, hmost, rfl, by simp, ?_⟩
        intro y hy
        rcases List.mem_cons.mp hy with rfl | hy
        · exact hx
        · exact hafter y hy
      | cons first before =>
        obtain ⟨rfl, rfl⟩ : b = first ∧ cs = before ++ c :: after := by simpa using hsplit
        have hb := hbefore b List.mem_cons_self
        refine ⟨b :: x :: before, c, after, hmost, rfl, ?_, hafter⟩
        intro y hy
        rcases List.mem_cons.mp hy with rfl | hy
        · exact hb
        · rcases List.mem_cons.mp hy with rfl | hy
          · exact hx.trans_lt hb
          · exact hbefore y (List.mem_cons_of_mem _ hy)

/-- The candidate that an entry makes for a request, if it matches the path and takes the method. -/
def candidateOf (method path : String) (e : Pattern × Route) : Option Candidate :=
  ((e.1.matches? path).map fun params => (e.1, e.2, params)).filter (·.2.1.allows method)

/-- An entry is a candidate exactly if its pattern matches the path and its route allows the method.
-/
theorem candidateOf_eq_some_iff {method path : String} {e : Pattern × Route} {c : Candidate} :
    candidateOf method path e = some c ↔
      ∃ params, e.1.matches? path = some params ∧ e.2.allows method = true ∧
        c = (e.1, e.2, params) := by
  simp only [candidateOf, Option.filter_eq_some_iff, Option.map_eq_some_iff]
  constructor
  · rintro ⟨⟨params, hp, rfl⟩, ha⟩
    exact ⟨params, hp, ha, rfl⟩
  · rintro ⟨params, hp, ha, rfl⟩
    exact ⟨⟨params, hp, rfl⟩, ha⟩

/-- The candidates that take the method come from the entries in order. -/
theorem filter_candidates (m : Mux) (method path : String) :
    (m.candidates path).filter (·.2.1.allows method) =
      m.entries.filterMap (candidateOf method path) := by
  rw [candidates, List.filter_filterMap]
  rfl

/-- The methods of the candidates for a path are those of the entries that match it. -/
theorem filterMap_candidates (m : Mux) (path : String) :
    (m.candidates path).filterMap (·.2.1.method) =
      m.entries.filterMap fun e => if (e.1.matches? path).isSome then e.2.method else none := by
  rw [candidates, List.filterMap_filterMap]
  refine List.filterMap_congr fun e _ => ?_
  cases h : e.1.matches? path <;> simp [h]

/-- The methods of the routes that match a path, in the order of registration. -/
def methodsAt (m : Mux) (path : String) : List String :=
  (m.candidates path).filterMap (·.2.1.method)

/-- If no route takes a method, then it is the method that is wrong, or nothing is found. -/
theorem dispatch_of_no_candidate {m : Mux} {method path : String}
    (h : m.entries.filterMap (candidateOf method path) = []) :
    m.dispatch method path =
      if m.methodsAt path = [] then .notFound else .methodNotAllowed (m.methodsAt path) := by
  have hmethods : (m.candidates path).filterMap (·.2.1.method) = m.methodsAt path := rfl
  simp only [dispatch, filter_candidates, h, mostSpecific, List.foldl_nil, hmethods]
  split
  · rename_i hnil
    rw [if_pos hnil]
  · rename_i hsome
    rw [if_neg hsome]

section Accepted

variable {fallback : Handler} {routes : List Route} {m : Mux}

/-- An accepted route captures what its entry matches. -/
theorem Accepted.captures?_eq (h : Accepted fallback routes m) {e : Pattern × Route}
    (he : e ∈ m.entries) (path : String) : e.2.captures? path = e.1.matches? path := by
  simp [Route.captures?, h.pattern?_eq e he]

/-- An accepted route is as specific as its entry ranks. -/
theorem Accepted.specificity_eq (h : Accepted fallback routes m) {e : Pattern × Route}
    (he : e ∈ m.entries) : e.2.specificity = e.1.rank.toTriple := by
  simp [Route.specificity, h.pattern?_eq e he]

/-- A route that takes a request makes a candidate, as specific as the route. -/
theorem Accepted.exists_candidate (h : Accepted fallback routes m) {e : Pattern × Route}
    (he : e ∈ m.entries) {method path : String} (ht : e.2.Takes method path) :
    ∃ c, candidateOf method path e = some c ∧
      Candidate.specificity c = e.2.specificity := by
  obtain ⟨hmatch, hallows⟩ := ht
  rw [h.captures?_eq he] at hmatch
  obtain ⟨params, hp⟩ := Option.isSome_iff_exists.mp hmatch
  refine ⟨_, candidateOf_eq_some_iff.mpr ⟨params, hp, hallows, rfl⟩, ?_⟩
  rw [h.specificity_eq he]
  rfl

/-- The methods of the routes that match, in the order of registration. -/
theorem Accepted.methods_eq (h : Accepted fallback routes m) (path : String) :
    (m.candidates path).filterMap (·.2.1.method) = Route.methodsOf routes path := by
  rw [filterMap_candidates, Route.methodsOf, List.filterMap_filter, ← h.map_snd, List.filterMap_map]
  refine List.filterMap_congr fun e he => ?_
  simp [h.captures?_eq he]

/-- With a candidate that takes the method, the request goes to the earliest of the best. -/
theorem Accepted.answers_of_candidate (h : Accepted fallback routes m) {method path : String}
    {b : Candidate} {cs : List Candidate}
    (hc : m.entries.filterMap (candidateOf method path) = b :: cs) :
    Dispatch.Answers routes method path (m.dispatch method path) := by
  obtain ⟨before, c, after, hmost, hsplit, hbefore, hafter⟩ := mostSpecific_cons b cs
  rw [hsplit] at hc
  obtain ⟨first, last, hentries, hfirst, hlast⟩ := List.filterMap_eq_append_iff.mp hc
  obtain ⟨skipped, e, rest, rfl, hskipped, hce, hrest⟩ := List.filterMap_eq_cons_iff.mp hlast
  have hmem : ∀ {x}, x ∈ first ++ (skipped ++ e :: rest) → x ∈ m.entries := by
    intro x hx; rwa [hentries]
  have he : e ∈ m.entries := hmem (by simp)
  obtain ⟨params, hp, hallows, rfl⟩ := candidateOf_eq_some_iff.mp hce
  have hdispatch : m.dispatch method path = .route e.2 params := by
    simp only [dispatch, filter_candidates, hc, ← hsplit, hmost]
  have hspec : Candidate.specificity (e.1, e.2, params) = e.2.specificity :=
    (h.specificity_eq he).symm
  rw [hdispatch]
  have hroutes : routes = (first ++ skipped).map (·.2) ++ e.2 :: rest.map (·.2) := by
    rw [← h.map_snd, hentries]; simp
  refine .route hroutes (by rw [h.captures?_eq he, hp]) hallows ?_ ?_
  · intro r hr ht
    obtain ⟨x, hx, rfl⟩ := List.mem_map.mp hr
    have hxm : x ∈ m.entries := by
      rcases List.mem_append.mp hx with hx | hx
      · exact hmem (List.mem_append_left _ hx)
      · exact hmem (List.mem_append_right _ (List.mem_append_left _ hx))
    obtain ⟨c, hcx, hcs⟩ := h.exists_candidate hxm ht
    rcases List.mem_append.mp hx with hx | hx
    · rw [← hcs, ← hspec]
      exact hbefore c (hfirst ▸ List.mem_filterMap.mpr ⟨x, hx, hcx⟩)
    · rw [hskipped x hx] at hcx
      exact absurd hcx (by simp)
  · intro r hr ht
    obtain ⟨x, hx, rfl⟩ := List.mem_map.mp hr
    have hxm : x ∈ m.entries :=
      hmem (List.mem_append_right _ (List.mem_append_right _ (List.mem_cons_of_mem _ hx)))
    obtain ⟨c, hcx, hcs⟩ := h.exists_candidate hxm ht
    rw [← hcs, ← hspec]
    exact hafter c (hrest ▸ List.mem_filterMap.mpr ⟨x, hx, hcx⟩)

/-- Without one, it depends on whether anything matches the path. A route that matches and does not
take the method has a method of its own, so the row of allowed methods is not empty then. -/
theorem Accepted.answers_of_no_candidate (h : Accepted fallback routes m) {method path : String}
    (hc : m.entries.filterMap (candidateOf method path) = []) :
    Dispatch.Answers routes method path (m.dispatch method path) := by
  have hnone : ∀ r ∈ routes, (r.captures? path).isSome → r.allows method = false := by
    intro r hr hmatch
    rw [← h.map_snd] at hr
    obtain ⟨e, he, rfl⟩ := List.mem_map.mp hr
    by_contra hallows
    obtain ⟨c, hce, -⟩ := h.exists_candidate he ⟨hmatch, by simpa using hallows⟩
    have := List.filterMap_eq_nil_iff.mp hc e he
    simp [hce] at this
  have hmethods : m.methodsAt path = Route.methodsOf routes path := h.methods_eq path
  rw [dispatch_of_no_candidate hc, hmethods]
  by_cases hany : ∃ r ∈ routes, (r.captures? path).isSome
  · obtain ⟨r, hr, hmatch⟩ := hany
    have hmethod : ∃ method, r.method = some method := by
      cases hm : r.method with
      | none => simpa [Route.allows, hm] using hnone r hr hmatch
      | some method => exact ⟨method, rfl⟩
    obtain ⟨own, hown⟩ := hmethod
    have hmem : own ∈ Route.methodsOf routes path :=
      List.mem_filterMap.mpr ⟨r, List.mem_filter.mpr ⟨hr, hmatch⟩, hown⟩
    split
    · rename_i hnil
      rw [hnil] at hmem
      exact absurd hmem (by simp)
    · exact .methodNotAllowed ⟨r, hr, hmatch⟩ hnone
  · have hnever : ∀ r ∈ routes, r.captures? path = none := by
      intro r hr
      by_contra hmatch
      exact hany ⟨r, hr, Option.isSome_iff_ne_none.mpr hmatch⟩
    have hnil : Route.methodsOf routes path = [] := by
      rw [Route.methodsOf, List.filter_eq_nil_iff.mpr fun r hr => by simp [hnever r hr],
        List.filterMap_nil]
    rw [if_pos hnil]
    exact .notFound hnever

/-- Where a request goes is what the routes, in the order of their registration, answer. -/
theorem Accepted.answers (h : Accepted fallback routes m) (method path : String) :
    Dispatch.Answers routes method path (m.dispatch method path) := by
  cases hc : m.entries.filterMap (candidateOf method path) with
  | nil => exact h.answers_of_no_candidate hc
  | cons b cs => exact h.answers_of_candidate hc

end Accepted

/-- Where a request goes, by the routes in the order in which they were accepted; and in any other
order they are accepted, too, and the request goes the same way up to equally specific routes. -/
theorem dispatch_eq_iff_answers {fallback : Handler} {routes : List Route} {m : Mux}
    (h : Accepted fallback routes m) :
    (∀ method path d, m.dispatch method path = d ↔ Dispatch.Answers routes method path d) ∧
      ∀ routes', routes'.Perm routes → ∃ m', Accepted fallback routes' m' ∧
        ∀ method path,
          Dispatch.SameUpToRank method path (m.dispatch method path) (m'.dispatch method path) := by
  constructor
  · intro method path d
    constructor
    · rintro rfl
      exact h.answers method path
    · exact (h.answers method path).unique
  · intro routes' hperm
    obtain ⟨m', hm'⟩ := h.exists_perm hperm
    exact ⟨m', hm', fun method path =>
      (h.answers method path).sameUpToRank (hm'.answers method path) hperm⟩

/-- Any request for one user. -/
def userById : Route := { pattern := "/users/{id}", handler := Handler.notFound }

/-- A request for the user who asks, who also goes by a name. -/
def getMe : Route := { method := some "GET", pattern := "/users/me", handler := Handler.notFound }

/-- A new user by a name. -/
def postByName : Route :=
  { method := some "POST", pattern := "/users/{name}", handler := Handler.notFound }

/-- Three routes that overlap, two of them equally specific. -/
def overlapping : Mux where
  entries := [(⟨[.literal "users", .param "id"], .exact⟩, userById),
    (⟨[.literal "users", .literal "me"], .exact⟩, getMe),
    (⟨[.literal "users", .param "name"], .exact⟩, postByName)]

/-- Three routes that overlap are accepted together. -/
theorem accepted_overlapping :
    Accepted Handler.notFound [userById, getMe, postByName] overlapping := by
  have hempty : Accepted Handler.notFound [] { fallback := Handler.notFound } := .empty
  have hfirst := hempty.add (r := userById) rfl
  have hsecond := hfirst.add (r := getMe) rfl
  exact hsecond.add (r := postByName) rfl

/-- Three routes that overlap are dispatched by rank, in whatever order they were added. -/
theorem dispatch_overlapping :
    Accepted Handler.notFound [userById, getMe, postByName] overlapping ∧
    (∀ method path d, overlapping.dispatch method path = d ↔
      Dispatch.Answers [userById, getMe, postByName] method path d) ∧
    ∀ routes', routes'.Perm [userById, getMe, postByName] →
      ∃ m', Accepted Handler.notFound routes' m' ∧
        ∀ method path, Dispatch.SameUpToRank method path (overlapping.dispatch method path)
          (m'.dispatch method path) :=
  ⟨accepted_overlapping, dispatch_eq_iff_answers accepted_overlapping⟩

/-- The literal wins for its own method, and for another method the first of two equals. -/
example : overlapping.dispatch "GET" "/users/me" = .route getMe [] ∧
    overlapping.dispatch "POST" "/users/me" = .route userById [("id", "me")] := ⟨rfl, rfl⟩

end Mux

end WebHost
