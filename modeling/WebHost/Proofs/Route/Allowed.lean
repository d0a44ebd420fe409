import WebHost.Proofs.Route.Selection
import WebHost.Proofs.Text.Parts
import WebHost.Proofs.Text.Utf8

/-!
# The methods that a refusal names

Where routes match the path of a request and none of them takes its method, the multiplexer refuses
the request itself and names the methods of those routes. None of them takes every method then, so
the methods that would have been taken at this path are the named ones, and `HEAD` where `GET` is
named. The names are tokens: the field that lists them is read back as it was written.
-/

set_option autoImplicit false

namespace WebHost

/-! ## Each text once -/

namespace Mux

/-- Of texts in order, those that are the same stand together, and one of them stays. -/
theorem pairwise_eraseDups : ∀ {texts : List String}, texts.Pairwise (· ≤ ·) →
    texts.eraseDups.Pairwise (· < ·)
  | [], _ => by simp
  | text :: rest, h => by
    have hshort : (rest.filter fun other => !other == text).length < rest.length + 1 :=
      Nat.lt_succ_of_le (List.length_filter_le _ _)
    obtain ⟨hfirst, hrest⟩ := List.pairwise_cons.mp h
    rw [List.eraseDups_cons, List.pairwise_cons]
    constructor
    · intro other hother
      rw [List.mem_eraseDups, List.mem_filter] at hother
      have hne : text ≠ other := by
        rintro rfl
        simp at hother
      exact Std.lt_of_le_of_ne (hfirst other hother.1) hne
    · exact pairwise_eraseDups (hrest.filter _)
termination_by texts => texts.length

/-- Sorting texts and taking each once loses none. -/
theorem mem_sortedOnce {texts : List String} {text : String} :
    text ∈ sortedOnce texts ↔ text ∈ texts := by
  rw [sortedOnce, List.mem_eraseDups, List.mem_mergeSort]

/-- Texts in order, each once, increase strictly. -/
theorem pairwise_sortedOnce (texts : List String) : (sortedOnce texts).Pairwise (· < ·) := by
  have htrans (a b c : String) (hab : decide (a ≤ b) = true) (hbc : decide (b ≤ c) = true) :
      decide (a ≤ c) = true := by
    rw [decide_eq_true_eq] at hab hbc ⊢
    exact String.le_trans hab hbc
  have htotal (a b : String) : (decide (a ≤ b) || decide (b ≤ a)) = true := by
    simpa using String.le_total a b
  have hsorted := List.pairwise_mergeSort htrans htotal texts
  exact pairwise_eraseDups (hsorted.imp fun hle => by simpa using hle)

end Mux

/-! ## Lists of tokens in a field -/

/-- Letters and digits are ASCII. -/
theorem toNat_lt_of_isAlphanum {c : Char} (h : c.isAlphanum = true) : c.toNat < 0x80 := by
  have hclasses : c.isAlphanum = (c.isUpper || c.isLower || c.isDigit) := rfl
  rw [hclasses, Bool.or_eq_true, Bool.or_eq_true] at h
  have hbelow {high : Char} (hlt : high.toNat < 0x80) (hc : c ≤ high) : c.toNat < 0x80 := by
    have hle : c.toNat ≤ high.toNat := hc
    omega
  -- each class is given by its bounds
  rcases h with (hupper | hlower) | hdigit
  · have hbounds : 'A' ≤ c ∧ c ≤ 'Z' := of_decide_eq_true hupper
    exact hbelow (by decide) hbounds.2
  · have hbounds : 'a' ≤ c ∧ c ≤ 'z' := by
      obtain ⟨hlow, hhigh⟩ := Bool.and_eq_true_iff.mp hlower
      exact ⟨of_decide_eq_true hlow, of_decide_eq_true hhigh⟩
    exact hbelow (by decide) hbounds.2
  · have hbounds : '0' ≤ c ∧ c ≤ '9' := by
      obtain ⟨hlow, hhigh⟩ := Bool.and_eq_true_iff.mp hdigit
      exact ⟨of_decide_eq_true hlow, of_decide_eq_true hhigh⟩
    exact hbelow (by decide) hbounds.2

/-- The signs of a token are ASCII. -/
theorem toNat_lt_of_isTokenChar {c : Char} (h : isTokenChar c = true) : c.toNat < 0x80 := by
  simp only [isTokenChar, Bool.or_eq_true, decide_eq_true_eq] at h
  rcases h with (halphanum | hmark) | hgrave
  · exact toNat_lt_of_isAlphanum halphanum
  · have hmarks : "!#$%&'*+-.^_|~".toList.all (fun c => c.toNat < 0x80) = true := by decide
    simpa using List.all_eq_true.mp hmarks c hmark
  · omega

/-- A character of a token is printed, and neither a blank nor a comma. -/
theorem isTokenChar_printed {c : Char} (h : isTokenChar c = true) :
    IsVisible c ∧ Text.isBlank c = false ∧ c ≠ ',' := by
  have hgap := not_gap_of_isTokenChar h
  have hascii := toNat_lt_of_isTokenChar h
  have hcomma : c ≠ ',' := by
    rintro rfl
    exact absurd h (by decide)
  unfold IsGap at hgap
  have hlow : 0x20 < c.toNat := by omega
  have hhigh : c.toNat < 0x7F := by omega
  refine ⟨⟨hlow.le, hhigh⟩, ?_, hcomma⟩
  simp only [Text.isBlank, Bool.or_eq_false_iff, Bool.and_eq_false_iff, decide_eq_false_iff_not]
  omega

/-- The elements that a field lists: the texts between its commas, without blanks around them and
without the empty ones. -/
def headerElements (value : Bytes) : List String :=
  match headerText? value with
  | some text =>
    ((Text.split ',' text.toList).map fun part => String.ofList (Text.trim part)).filter (· ≠ "")
  | none => []

section Elements

open Text

/-- A token comes back from behind blanks. -/
theorem trim_token {blanks : List Char} (hblanks : ∀ c ∈ blanks, isBlank c = true) {token : String}
    (htoken : isToken token = true) : String.ofList (trim (blanks ++ token.toList)) = token := by
  obtain ⟨hne, hchars⟩ := isToken_iff.mp htoken
  have hprinted {c : Char} (hc : c ∈ token.toList) : isBlank c = false :=
    (isTokenChar_printed (hchars c hc)).2.1
  have hnone : ∀ c ∈ [], isBlank c = true := by simp
  have htrim := trim_between_blanks hblanks hnone hne (hprinted (List.head_mem hne))
    (hprinted (List.getLast_mem hne))
  rw [List.append_nil] at htrim
  rw [htrim, String.ofList_toList]

/-- A token has no comma. -/
theorem comma_not_mem_token {token : String} (htoken : isToken token = true) :
    ',' ∉ token.toList := by
  intro hmem
  exact (isTokenChar_printed ((isToken_iff.mp htoken).2 ',' hmem)).2.2 rfl

variable {tokens : List String}

/-- Tokens with commas and spaces between them are cut apart again. -/
theorem map_trim_split (hne : tokens ≠ []) (htokens : ∀ token ∈ tokens, isToken token = true)
    {blanks : List Char} (hblanks : ∀ c ∈ blanks, isBlank c = true) :
    (split ',' (blanks ++ (joinWith ", " tokens).toList)).map (fun part => String.ofList (trim part)) =
      tokens := by
  induction tokens generalizing blanks with
  | nil => exact absurd rfl hne
  | cons token rest ih =>
    obtain ⟨htoken, hrest⟩ := List.forall_mem_cons.mp htokens
    have hcomma : ',' ∉ blanks ++ token.toList := by
      rw [List.mem_append, not_or]
      exact ⟨fun hmem => absurd (hblanks ',' hmem) (by decide), comma_not_mem_token htoken⟩
    cases rest with
    | nil =>
      have hjoin : joinWith ", " [token] = token := rfl
      rw [hjoin, split_eq_singleton hcomma, List.map_singleton, trim_token hblanks htoken]
    | cons second rest =>
      have hspace : ∀ c ∈ [' '], isBlank c = true := List.forall_mem_singleton.mpr rfl
      have hjoin : (joinWith ", " (token :: second :: rest)).toList =
          token.toList ++ ',' :: ([' '] ++ (joinWith ", " (second :: rest)).toList) := by
        simp [joinWith]
      rw [hjoin, ← List.append_assoc, split_append_sep, split_eq_singleton hcomma, List.map_append,
        List.map_singleton, trim_token hblanks htoken, ih (by simp) hrest hspace]
      rfl

/-- A field gives back the tokens that it lists. -/
theorem headerElements_joinWith (hne : tokens ≠ []) (htokens : ∀ token ∈ tokens, isToken token = true) :
    headerElements (Utf8.encode (joinWith ", " tokens)) = tokens := by
  have hvisible : ∀ c ∈ (joinWith ", " tokens).toList, IsVisible c := by
    have hcomma : IsVisible ',' ∧ IsVisible ' ' := by decide
    have hsep : ∀ c ∈ ", ".toList, IsVisible c := by simpa using hcomma
    apply forall_mem_joinWith hsep
    intro token htoken c hc
    have hchars := (isToken_iff.mp (htokens token htoken)).2
    exact (isTokenChar_printed (hchars c hc)).1
  have hnone : ∀ c ∈ [], isBlank c = true := by simp
  have hsplit := map_trim_split hne htokens hnone
  rw [headerElements, headerText?_of_visible hvisible]
  simp only
  rw [List.nil_append] at hsplit
  rw [hsplit, List.filter_eq_self]
  intro token htoken
  have hnonempty := (isToken_iff.mp (htokens token htoken)).1
  simpa using hnonempty

end Elements

/-- The methods that a response allows. -/
def Response.allowed (r : Response) : List String := (r.headers.values "allow").flatMap headerElements

namespace Mux

/-! ## What is taken at a path -/

variable {m : Mux} {method path own : String}

/-- A route that matches a path takes a method. -/
def Serves (m : Mux) (method path : String) : Prop :=
  ∃ e ∈ m.entries, (e.1.matches? path).isSome ∧ e.2.allows method = true

/-- The methods at a path are those of the entries that match it and have one. -/
theorem mem_methodsAt_iff :
    own ∈ m.methodsAt path ↔
      ∃ e ∈ m.entries, (e.1.matches? path).isSome ∧ e.2.method = some own := by
  rw [methodsAt, filterMap_candidates, List.mem_filterMap]
  simp

/-- A method is served at a path exactly if there is a candidate. -/
theorem serves_iff_candidates :
    m.Serves method path ↔ m.entries.filterMap (candidateOf method path) ≠ [] := by
  rw [ne_eq, List.filterMap_eq_nil_iff, not_forall]
  constructor
  · rintro ⟨e, he, hmatch, hallows⟩
    obtain ⟨params, hparams⟩ := Option.isSome_iff_exists.mp hmatch
    refine ⟨e, fun hnone => ?_⟩
    have hsome := candidateOf_eq_some_iff.mpr ⟨params, hparams, hallows, rfl⟩
    rw [hnone he] at hsome
    simp at hsome
  · rintro ⟨e, hnone⟩
    obtain ⟨he, hsome⟩ := Classical.not_imp.mp hnone
    obtain ⟨c, hc⟩ := Option.ne_none_iff_exists'.mp hsome
    obtain ⟨params, hparams, hallows, -⟩ := candidateOf_eq_some_iff.mp hc
    exact ⟨e, he, by simp [hparams], hallows⟩

/-- What is dispatched to a route is what a route that matches takes. -/
theorem serves_iff_dispatch :
    m.Serves method path ↔ ∃ route params, m.dispatch method path = .route route params := by
  rw [serves_iff_candidates]
  cases hc : m.entries.filterMap (candidateOf method path) with
  | nil =>
    rw [dispatch_of_no_candidate hc]
    split_ifs <;> simp
  | cons first rest =>
    obtain ⟨before, best, after, hbest, -⟩ := mostSpecific_cons first rest
    simp [dispatch, filter_candidates, hc, hbest]

/-- The method is what is wrong if no route takes it and some that match have one of their own. -/
theorem dispatch_eq_methodNotAllowed_iff {methods : List String} :
    m.dispatch method path = .methodNotAllowed methods ↔
      ¬ m.Serves method path ∧ m.methodsAt path ≠ [] ∧ methods = m.methodsAt path := by
  by_cases hserves : m.Serves method path
  · obtain ⟨route, params, hroute⟩ := serves_iff_dispatch.mp hserves
    simp [hserves, hroute]
  · have hnone : m.entries.filterMap (candidateOf method path) = [] := by
      by_contra hsome
      exact hserves (serves_iff_candidates.mpr hsome)
    rw [dispatch_of_no_candidate hnone]
    split_ifs with hnil
    · simp [hnil]
    · simp [hserves, hnil, eq_comm]

/-- If one method is not taken at a path, then the others that are taken there are the methods of the
routes that match, and the one that comes with `GET`. -/
theorem serves_iff_of_not_serves (h : ¬ m.Serves method path) (other : String) :
    m.Serves other path ↔
      other ∈ m.methodsAt path ∨ (other = "HEAD" ∧ "GET" ∈ m.methodsAt path) := by
  -- a route that matches and takes not this method has one of its own
  have hown {e : Pattern × Route} (he : e ∈ m.entries) (hmatch : (e.1.matches? path).isSome) :
      ∃ own, e.2.method = some own := by
    cases hmethod : e.2.method with
    | some own => exact ⟨own, rfl⟩
    | none => exact absurd ⟨e, he, hmatch, by simp [Route.allows, hmethod]⟩ h
  constructor
  · rintro ⟨e, he, hmatch, hallows⟩
    obtain ⟨own, hmethod⟩ := hown he hmatch
    have hmem : own ∈ m.methodsAt path := mem_methodsAt_iff.mpr ⟨e, he, hmatch, hmethod⟩
    simp only [Route.allows, hmethod, Bool.or_eq_true, Bool.and_eq_true, decide_eq_true_eq] at hallows
    rcases hallows with rfl | ⟨rfl, rfl⟩
    · exact .inl hmem
    · exact .inr ⟨rfl, hmem⟩
  · rintro (hmem | ⟨rfl, hmem⟩)
    · obtain ⟨e, he, hmatch, hmethod⟩ := mem_methodsAt_iff.mp hmem
      exact ⟨e, he, hmatch, by simp [Route.allows, hmethod]⟩
    · obtain ⟨e, he, hmatch, hmethod⟩ := mem_methodsAt_iff.mp hmem
      exact ⟨e, he, hmatch, by simp [Route.allows, hmethod]⟩

/-! ## Refusals -/

/-- A request is dispatched to a route. -/
def Routes (m : Mux) (request : Request) : Prop :=
  ∃ route params, m.dispatch request.method request.uri.path = .route route params ∧
    m.handle request = route.handle { request with params := some params }

/-- A request is answered by the multiplexer itself, because its method is not allowed. -/
def Refuses (m : Mux) (request : Request) (response : Response) : Prop :=
  (∃ methods, m.dispatch request.method request.uri.path = .methodNotAllowed methods) ∧
    m.handle request = pure response

/-- A refusal names exactly the methods with which the request would not be refused, apart from
`HEAD`, which comes with `GET`. -/
structure IsTruthful (m : Mux) (request : Request) (response : Response) : Prop where
  status : response.status = 405
  single : (response.headers.values "allow").length = 1
  nonempty : response.allowed ≠ []
  increasing : response.allowed.Pairwise (· < ·)
  routed : ∀ method ∈ response.allowed, m.Routes { request with method }
  headRouted : "GET" ∈ response.allowed → m.Routes { request with method := "HEAD" }
  refused : ∀ method ∉ response.allowed, ¬ (method = "HEAD" ∧ "GET" ∈ response.allowed) →
    m.Refuses { request with method } response

/-- A request is routed exactly if its method is served at its path. -/
theorem routes_iff_serves {request : Request} :
    m.Routes request ↔ m.Serves request.method request.uri.path := by
  rw [serves_iff_dispatch]
  constructor
  · rintro ⟨route, params, hroute, -⟩
    exact ⟨route, params, hroute⟩
  · rintro ⟨route, params, hroute⟩
    exact ⟨route, params, hroute, by simp only [handle, hroute]⟩

/-- A request is refused exactly if its method is not served at its path and others are, and the
answer lists these. -/
theorem refuses_iff {request : Request} {response : Response} :
    m.Refuses request response ↔
      ¬ m.Serves request.method request.uri.path ∧ m.methodsAt request.uri.path ≠ [] ∧
        response = methodNotAllowed (m.methodsAt request.uri.path) := by
  constructor
  · rintro ⟨⟨methods, hdispatch⟩, hanswer⟩
    obtain ⟨hserves, hsome, rfl⟩ := dispatch_eq_methodNotAllowed_iff.mp hdispatch
    simp only [handle, hdispatch] at hanswer
    exact ⟨hserves, hsome, (Job.done.inj hanswer).symm⟩
  · rintro ⟨hserves, hsome, rfl⟩
    have hdispatch := dispatch_eq_methodNotAllowed_iff.mpr ⟨hserves, hsome, rfl⟩
    exact ⟨⟨_, hdispatch⟩, by simp only [handle, hdispatch]⟩

/-- The refusal lists the methods in one field, sorted and each once. -/
theorem values_allow (methods : List String) :
    (methodNotAllowed methods).headers.values "allow" =
      [Utf8.encode (Text.joinWith ", " (sortedOnce methods))] := by
  simp [methodNotAllowed, Headers.setText]

/-- A client reads the listed methods off the refusal. -/
theorem allowed_methodNotAllowed {methods : List String} (hne : methods ≠ [])
    (hmethods : ∀ method ∈ methods, isToken method = true) :
    (methodNotAllowed methods).allowed = sortedOnce methods := by
  have hsome : sortedOnce methods ≠ [] := by
    obtain ⟨method, hmethod⟩ := List.exists_mem_of_ne_nil methods hne
    exact List.ne_nil_of_mem (mem_sortedOnce.mpr hmethod)
  have htokens : ∀ method ∈ sortedOnce methods, isToken method = true := by
    intro method hmethod
    exact hmethods method (mem_sortedOnce.mp hmethod)
  rw [Response.allowed, values_allow, List.flatMap_singleton, headerElements_joinWith hsome htokens]

/-- Every refusal is truthful, whatever routes there are. -/
theorem isTruthful_of_refuses {request : Request} {response : Response}
    (hmethods : ∀ e ∈ m.entries, ∀ method ∈ e.2.method, isToken method = true)
    (h : m.Refuses request response) : m.IsTruthful request response := by
  obtain ⟨hserves, hsome, rfl⟩ := refuses_iff.mp h
  have htokens : ∀ method ∈ m.methodsAt request.uri.path, isToken method = true := by
    intro method hmethod
    obtain ⟨e, he, -, hown⟩ := mem_methodsAt_iff.mp hmethod
    exact hmethods e he method hown
  have hallowed := allowed_methodNotAllowed hsome htokens
  have hmem {method : String} :
      method ∈ (methodNotAllowed (m.methodsAt request.uri.path)).allowed ↔
        method ∈ m.methodsAt request.uri.path := by
    rw [hallowed, mem_sortedOnce]
  have hother := serves_iff_of_not_serves hserves
  constructor
  case status => rfl
  case single => rw [values_allow, List.length_singleton]
  case nonempty =>
    obtain ⟨method, hmethod⟩ := List.exists_mem_of_ne_nil _ hsome
    exact List.ne_nil_of_mem (hmem.mpr hmethod)
  case increasing =>
    rw [hallowed]
    exact pairwise_sortedOnce _
  case routed =>
    intro method hmethod
    exact routes_iff_serves.mpr ((hother method).mpr (.inl (hmem.mp hmethod)))
  case headRouted =>
    intro hget
    exact routes_iff_serves.mpr ((hother "HEAD").mpr (.inr ⟨rfl, hmem.mp hget⟩))
  case refused =>
    intro method hmethod hhead
    apply refuses_iff.mpr
    refine ⟨?_, hsome, rfl⟩
    rw [hother method, not_or]
    exact ⟨fun hin => hmethod (hmem.mpr hin), fun hin => hhead ⟨hin.1, hmem.mpr hin.2⟩⟩

/-- Two methods at one path. -/
def items : Mux where
  entries := [(⟨[.literal "items"], .exact⟩, {
      method := some "PUT", pattern := "/items", handler := Handler.notFound }),
    (⟨[.literal "items"], .exact⟩, {
      method := some "GET", pattern := "/items", handler := Handler.notFound })]

/-- A request with a third one. -/
def deleteItems : Request := { method := "DELETE", uri := ⟨none, none, "/items", none⟩ }

/-- The refusal of a method at a path that has two others. -/
theorem isTruthful_deleteItems :
    (∀ e ∈ items.entries, ∀ method ∈ e.2.method, isToken method = true) ∧
      items.Refuses deleteItems (methodNotAllowed ["PUT", "GET"]) ∧
      items.IsTruthful deleteItems (methodNotAllowed ["PUT", "GET"]) := by
  have hmethods : ∀ e ∈ items.entries, ∀ method ∈ e.2.method, isToken method = true := by
    decide
  have hrefuses : items.Refuses deleteItems (methodNotAllowed ["PUT", "GET"]) :=
    ⟨⟨["PUT", "GET"], rfl⟩, rfl⟩
  exact ⟨hmethods, hrefuses, isTruthful_of_refuses hmethods hrefuses⟩

end Mux

end WebHost
