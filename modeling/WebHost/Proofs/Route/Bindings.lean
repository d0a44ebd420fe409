import WebHost.Http.Headers
import WebHost.Proofs.Route.Registration
import WebHost.Proofs.Route.Syntax

/-!
# Routes by method and pattern

A multiplexer tells routes apart by a text, the method and the pattern with a space between them, and
a route without a method has its pattern alone for that text. A token has neither a space nor a slash,
and what is registered begins with a slash, so the text stands for one method and one pattern only. A
route is therefore refused for its pattern, or else because of an entry with the same method and
pattern. Whatever is refused leaves no trace: after any calls the entries are the accepted routes, and
a batch comes to the same as its routes offered one by one.
-/

set_option autoImplicit false

namespace WebHost

open Text

namespace Route

variable {r other : Route}

/-- What a route is registered for. -/
def binding (r : Route) : Option String × String := (r.method, r.pattern)

/-- The method of a route is a token, if it has one. -/
def HasToken (r : Route) : Prop := ∀ m, r.method = some m → isToken m = true

/-- A pattern that is accepted begins with a slash. -/
theorem exists_body_of_pattern? (h : r.pattern?.isSome) : ∃ body, r.pattern.toList = '/' :: body := by
  cases hp : Pattern.parse r.pattern with
  | error fault => simp [pattern?, hp, Except.toOption] at h
  | ok p => exact Pattern.exists_body_of_parse hp

/-- A token ends where the first space of the key is. -/
theorem cutFirst_key {method : String} (hmethod : isToken method = true) (pattern : String) :
    cutFirst ' ' (method ++ " " ++ pattern).toList = some (method.toList, pattern.toList) := by
  have hspace : ' ' ∉ method.toList := by
    intro hmem
    exact absurd ((isToken_iff.mp hmethod).2 ' ' hmem) (by decide)
  apply cutFirst_eq_some_iff.mpr
  exact ⟨by simp, hspace⟩

/-- A key with a method does not begin with a slash. -/
theorem head?_key_ne_slash {method : String} (hmethod : isToken method = true) (pattern : String) :
    (method ++ " " ++ pattern).toList.head? ≠ some '/' := by
  obtain ⟨hne, hchars⟩ := isToken_iff.mp hmethod
  rw [String.toList_append, String.toList_append, List.append_assoc, List.head?_append_of_ne_nil _ hne]
  intro hhead
  exact absurd (hchars '/' (List.mem_of_mem_head? hhead)) (by decide)

/-- Routes that can be registered have the same key only if they have the same method and pattern. -/
theorem key_eq_iff (htoken : r.HasToken) (hother : other.HasToken) (hp : r.pattern?.isSome)
    (hp' : other.pattern?.isSome) : r.key = other.key ↔ r.binding = other.binding := by
  obtain ⟨body, hbody⟩ := exists_body_of_pattern? hp
  obtain ⟨body', hbody'⟩ := exists_body_of_pattern? hp'
  unfold key binding
  constructor
  · intro h
    cases hm : r.method with
    | none =>
      cases hm' : other.method with
      | none =>
        simp only [hm, hm'] at h
        rw [h]
      | some m' =>
        simp only [hm, hm'] at h
        have hslash := head?_key_ne_slash (hother m' hm') other.pattern
        rw [← h, hbody] at hslash
        exact absurd rfl hslash
    | some m =>
      have hcut := cutFirst_key (htoken m hm) r.pattern
      cases hm' : other.method with
      | none =>
        simp only [hm, hm'] at h
        have hslash := head?_key_ne_slash (htoken m hm) r.pattern
        rw [h, hbody'] at hslash
        exact absurd rfl hslash
      | some m' =>
        simp only [hm, hm'] at h
        rw [h, cutFirst_key (hother m' hm')] at hcut
        obtain ⟨hmethod, hpattern⟩ := Prod.mk.inj (Option.some.inj hcut)
        rw [String.toList_inj.mp hmethod, String.toList_inj.mp hpattern]
  · intro h
    obtain ⟨hmethod, hpattern⟩ := Prod.mk.inj h
    rw [hmethod, hpattern]

end Route

namespace Mux

variable {m : Mux} {r : Route} {fallback : Handler}

/-! ## One route -/

/-- Offers a route: the multiplexer with it, or the one there was and the reason. -/
def offer (m : Mux) (r : Route) : Mux × Option RouteError :=
  match m.add r with
  | .ok m' => (m', none)
  | .error e => (m, some e)

/-- An offer is refused for its pattern, then for its key, and else is taken at the end. -/
theorem offer_eq (m : Mux) (r : Route) :
    m.offer r =
      match Pattern.parse r.pattern with
      | .error fault => (m, some (.invalidPattern r.pattern fault))
      | .ok p =>
        if r.key ∈ m.keys then (m, some (.conflict r.key))
        else ({ m with entries := m.entries ++ [(p, r)] }, none) := by
  unfold offer add
  cases Pattern.parse r.pattern with
  | error fault => rfl
  | ok p => by_cases hkey : r.key ∈ m.keys <;> simp [hkey]

/-- A refused route changes nothing. -/
theorem offer_fst_of_refused {e : RouteError} (h : (m.offer r).2 = some e) : (m.offer r).1 = m := by
  unfold offer at h ⊢
  cases hadd : m.add r with
  | ok m' => simp [hadd] at h
  | error e' => rfl

/-- An offer is taken exactly if the route can be added. -/
theorem offer_snd_eq_none_iff {m' : Mux} : m.offer r = (m', none) ↔ m.add r = .ok m' := by
  unfold offer
  cases m.add r <;> simp

/-- A route is refused for its pattern exactly if that is not accepted. -/
theorem offer_eq_invalidPattern_iff {text : String} {fault : PatternFault} :
    (m.offer r).2 = some (.invalidPattern text fault) ↔
      text = r.pattern ∧ Pattern.parse r.pattern = .error fault := by
  rw [offer_eq]
  cases Pattern.parse r.pattern with
  | error fault' => simp [eq_comm]
  | ok p => by_cases hkey : r.key ∈ m.keys <;> simp [hkey]

/-- A route is refused for its key exactly if its pattern is accepted and the key is taken. -/
theorem offer_eq_conflict_iff {key : String} :
    (m.offer r).2 = some (.conflict key) ↔ key = r.key ∧ r.pattern?.isSome ∧ r.key ∈ m.keys := by
  rw [offer_eq, Route.pattern?]
  cases Pattern.parse r.pattern with
  | error fault => simp [Except.toOption]
  | ok p => by_cases hkey : r.key ∈ m.keys <;> simp [hkey, Except.toOption, eq_comm]

/-! ## Routes one by one -/

/-- Offers routes one by one, and notes for each how it was answered. -/
def offerEach (m : Mux) : List Route → Mux × List (Route × Option RouteError)
  | [] => (m, [])
  | r :: rest =>
    let (m', error) := m.offer r
    let (m'', answers) := m'.offerEach rest
    (m'', (r, error) :: answers)

/-- The routes that were not refused. -/
def accepted (answers : List (Route × Option RouteError)) : List Route :=
  (answers.filter (·.2.isNone)).map (·.1)

/-- Why the others were refused. -/
def refusals (answers : List (Route × Option RouteError)) : List RouteError :=
  answers.filterMap (·.2)

/-- Routes offered in two batches fare like in one. -/
theorem offerEach_append (m : Mux) (first second : List Route) :
    m.offerEach (first ++ second) =
      (((m.offerEach first).1.offerEach second).1,
        (m.offerEach first).2 ++ ((m.offerEach first).1.offerEach second).2) := by
  induction first generalizing m with
  | nil => rfl
  | cons r first ih => simp only [List.cons_append, offerEach, ih]

/-- Every route that is offered has its outcome, in order. -/
theorem map_fst_offerEach (m : Mux) (routes : List Route) :
    (m.offerEach routes).2.map (·.1) = routes := by
  induction routes generalizing m with
  | nil => rfl
  | cons r rest ih => simp only [offerEach, List.map_cons, ih]

/-- Only routes that were offered are accepted. -/
theorem mem_of_mem_accepted {offered : List Route} (h : r ∈ accepted (m.offerEach offered).2) :
    r ∈ offered := by
  obtain ⟨answer, hanswer, rfl⟩ := List.mem_map.mp h
  rw [← map_fst_offerEach m offered]
  exact List.mem_map_of_mem (List.mem_of_mem_filter hanswer)

/-- A batch is its routes one by one. -/
theorem addAll_eq_offerEach (m : Mux) (routes : List Route) :
    m.addAll routes = ((m.offerEach routes).1, refusals (m.offerEach routes).2) := by
  induction routes generalizing m with
  | nil => rfl
  | cons r rest ih =>
    rw [addAll, offerEach, offer]
    cases m.add r with
    | ok m' => exact ih m'
    | error e => simp only [ih, refusals, List.filterMap_cons]

/-- What is accepted comes after what was accepted before. -/
theorem Accepted.append_accepted {routes : List Route} (h : Accepted fallback routes m)
    (offered : List Route) :
    Accepted fallback (routes ++ accepted (m.offerEach offered).2) (m.offerEach offered).1 := by
  induction offered generalizing routes m with
  | nil => simpa [offerEach, accepted] using h
  | cons r rest ih =>
    cases hoffer : m.offer r with
    | mk m' error =>
      cases error with
      | none =>
        have hnext := ih (.add h (offer_snd_eq_none_iff.mp hoffer))
        simpa [offerEach, hoffer, accepted] using hnext
      | some e =>
        obtain rfl : m' = m := by
          have hsame := offer_fst_of_refused (m := m) (r := r) (e := e) (by rw [hoffer])
          rwa [hoffer] at hsame
        have hnext := ih h
        simpa [offerEach, hoffer, accepted] using hnext

/-! ## Calls -/

/-- What a multiplexer is asked for: to take a route, or a batch of them. -/
inductive Call where
  | route (r : Route)
  | batch (routes : List Route)

/-- The routes that a call offers. -/
def Call.routes : Call → List Route
  | .route r => [r]
  | .batch routes => routes

/-- A multiplexer after a call, and what was refused in it. -/
def call (m : Mux) : Call → Mux × List RouteError
  | .route r => ((m.offer r).1, (m.offer r).2.toList)
  | .batch routes => m.addAll routes

/-- A multiplexer after some calls. -/
def after (m : Mux) (calls : List Call) : Mux := calls.foldl (fun m c => (m.call c).1) m

/-- A call leaves what offering its routes leaves. -/
theorem call_fst (m : Mux) (c : Call) : (m.call c).1 = (m.offerEach c.routes).1 := by
  cases c with
  | route r => rfl
  | batch routes =>
    rw [call, addAll_eq_offerEach]
    rfl

/-- Calls in a row leave what offering all their routes leaves. -/
theorem after_eq_offerEach (m : Mux) (calls : List Call) :
    m.after calls = (m.offerEach (calls.flatMap Call.routes)).1 := by
  induction calls generalizing m with
  | nil => rfl
  | cons c calls ih =>
    rw [List.flatMap_cons, offerEach_append, ← call_fst]
    exact ih _

/-- What a multiplexer holds after some calls, and how it answers the next one. -/
structure IsRegister (fallback : Handler) (calls : List Call) (m : Mux) : Prop where
  /-- The entries are the accepted routes in their order, with what their texts spell. -/
  entries : m.entries.map (·.2) =
    accepted (Mux.offerEach { fallback } (calls.flatMap Call.routes)).2
  patterns : ∀ e ∈ m.entries, e.2.pattern? = some e.1
  distinct : (m.entries.map (·.2.binding)).Nodup
  unchanged : ∀ r e, (m.offer r).2 = some e → (m.offer r).1 = m
  invalid : ∀ r text fault, (m.offer r).2 = some (.invalidPattern text fault) ↔
    text = r.pattern ∧ Pattern.parse r.pattern = .error fault
  conflict : ∀ r key, r.HasToken → ((m.offer r).2 = some (.conflict key) ↔
    key = r.key ∧ r.pattern?.isSome ∧ ∃ e ∈ m.entries, e.2.binding = r.binding)
  batch : ∀ routes, m.call (.batch routes) =
    ((m.offerEach routes).1, refusals (m.offerEach routes).2)

/-- No two accepted routes have the same method and pattern. -/
theorem nodup_bindings {routes : List Route} (h : Accepted fallback routes m) :
    (m.entries.map (·.2.binding)).Nodup := by
  have hkeys : (m.entries.map (·.2.key)).Nodup := by
    have hnodup := h.nodup_keys
    rwa [← h.map_snd, List.map_map] at hnodup
  -- the key is made from the method and the pattern, so that routes with both in common share it
  rw [List.Nodup, List.pairwise_map] at hkeys ⊢
  apply hkeys.imp
  intro e e' hne hbinding
  obtain ⟨hmethod, hpattern⟩ := Prod.mk.inj hbinding
  apply hne
  rw [Route.key, Route.key, hmethod, hpattern]

/-- A key is registered exactly if its method and pattern are. -/
theorem mem_keys_iff (hpatterns : ∀ e ∈ m.entries, e.2.pattern? = some e.1)
    (htokens : ∀ e ∈ m.entries, e.2.HasToken) (htoken : r.HasToken) (hp : r.pattern?.isSome) :
    r.key ∈ m.keys ↔ ∃ e ∈ m.entries, e.2.binding = r.binding := by
  have hsame : ∀ e ∈ m.entries, (e.2.key = r.key ↔ e.2.binding = r.binding) := by
    intro e he
    have hparsed : e.2.pattern?.isSome := by rw [hpatterns e he, Option.isSome_some]
    exact Route.key_eq_iff (htokens e he) htoken hparsed hp
  rw [keys, List.mem_map]
  constructor
  · rintro ⟨e, he, hkey⟩
    exact ⟨e, he, (hsame e he).mp hkey⟩
  · rintro ⟨e, he, hbinding⟩
    exact ⟨e, he, (hsame e he).mpr hbinding⟩

/-- After any calls a multiplexer holds the accepted routes, no two of them for the same method and
pattern, and it refuses a route exactly for its pattern or for an entry of the same kind. -/
theorem isRegister_after (fallback : Handler) (calls : List Call)
    (htokens : ∀ c ∈ calls, ∀ r ∈ c.routes, r.HasToken) :
    IsRegister fallback calls (({ fallback } : Mux).after calls) := by
  have hempty : Accepted fallback [] { fallback } := .empty
  have haccepted := hempty.append_accepted (calls.flatMap Call.routes)
  rw [← after_eq_offerEach, List.nil_append] at haccepted
  have hentries : ∀ e ∈ (({ fallback } : Mux).after calls).entries, e.2.HasToken := by
    intro e he
    have hmem : e.2 ∈ accepted (Mux.offerEach { fallback } (calls.flatMap Call.routes)).2 := by
      rw [← haccepted.map_snd]
      exact List.mem_map_of_mem he
    obtain ⟨c, hc, hr⟩ := List.mem_flatMap.mp (mem_of_mem_accepted hmem)
    exact htokens c hc e.2 hr
  refine ⟨haccepted.map_snd, haccepted.pattern?_eq, nodup_bindings haccepted, ?_, ?_, ?_, ?_⟩
  · intro r e h
    exact offer_fst_of_refused h
  · intro r text fault
    exact offer_eq_invalidPattern_iff
  · intro r key htoken
    rw [offer_eq_conflict_iff]
    constructor
    · rintro ⟨hkey, hp, hmem⟩
      exact ⟨hkey, hp, (mem_keys_iff haccepted.pattern?_eq hentries htoken hp).mp hmem⟩
    · rintro ⟨hkey, hp, hentry⟩
      exact ⟨hkey, hp, (mem_keys_iff haccepted.pattern?_eq hentries htoken hp).mpr hentry⟩
  · intro routes
    exact addAll_eq_offerEach _ routes

/-- A route, and a batch with one more for the same method and path, one for all methods, one that
spells no pattern and one for another method. -/
def mixedCalls : List Call :=
  [.route { method := some "GET", pattern := "/a", handler := Handler.notFound },
    .batch [{ method := some "GET", pattern := "/a", handler := Handler.notFound },
      { pattern := "/a", handler := Handler.notFound },
      { pattern := "/a\x7b", handler := Handler.notFound },
      { method := some "POST", pattern := "/a", handler := Handler.notFound }]]

/-- Calls with routes that are refused for either reason, among others that are taken. -/
theorem isRegister_mixedCalls :
    (∀ c ∈ mixedCalls, ∀ r ∈ c.routes, r.HasToken) ∧
      IsRegister Handler.notFound mixedCalls (({} : Mux).after mixedCalls) ∧
      (({} : Mux).after mixedCalls).keys = ["GET /a", "/a", "POST /a"] := by
  have htokens : ∀ c ∈ mixedCalls, ∀ r ∈ c.routes, r.HasToken := by
    have hmethods : ∀ c ∈ mixedCalls, ∀ r ∈ c.routes, ∀ m ∈ r.method, isToken m = true := by
      decide +kernel
    exact hmethods
  exact ⟨htokens, isRegister_after Handler.notFound mixedCalls htokens, by decide +kernel⟩

end Mux

end WebHost
