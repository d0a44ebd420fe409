import WebHost.Middleware.Cors
import WebHost.Proofs.Text.Utf8

/-!
# Origins, grants and caches

Which origin a response names depends on the list of allowed origins, on the wildcard in it and on
whether credentials are allowed. The branches add up to one rule: an origin may read a response exactly
if it is listed or the wildcard is, and with credentials the wildcard itself is never sent to an origin
that names itself.

A response for which an origin was resolved is marked as one that varies by origin, any other is not.
So of two requests for the same thing one may be answered with a mark and the other without: exactly
if the list has no wildcard and one of the two requests comes from none of the origins in it.
-/

set_option autoImplicit false

namespace WebHost

/-- The origin of a request, as far as it is text. -/
def Request.origin (request : Request) : Option String := request.headers.text? "origin"

/-- A response is marked as one that is different for other origins. -/
def Response.VariesByOrigin (response : Response) : Prop :=
  Utf8.encode "Origin" ∈ response.headers.values "vary"

instance (response : Response) : Decidable response.VariesByOrigin :=
  inferInstanceAs (Decidable (_ ∈ _))

/-- The values of the field that names who may read a response. -/
def Response.allowedOrigins (response : Response) : List Bytes :=
  response.headers.values "access-control-allow-origin"

namespace AccessControl

variable {a : AccessControl} {origin : Option String} {o : String}

/-! ## The origin that is resolved -/

/-- A request comes from a listed origin. -/
def Lists (a : AccessControl) (origin : Option String) : Prop :=
  ∃ o ∈ named? origin, o ∈ a.allowOrigin

/-- What is resolved for a request whose origin is not sent back to it. -/
def fallback (a : AccessControl) : Option String :=
  if "*" ∈ a.allowOrigin then some "*"
  else if a.allowOrigin.length = 1 then a.allowOrigin.head? else none

/-- Whether an origin is sent back to itself. -/
def Echoes (a : AccessControl) (o : String) : Prop :=
  "*" ∈ a.allowOrigin ∧ a.allowCredentials = true ∨ o ∈ a.allowOrigin

instance (o : String) : Decidable (a.Echoes o) := inferInstanceAs (Decidable (_ ∨ _))

/-- An origin that is not empty is named. -/
theorem named?_some (ho : o ≠ "") : named? (some o) = some o := by
  simp [named?, ho]

/-- A named origin that is echoed is the one allowed. -/
theorem resolveOrigin_of_echoes (hnamed : named? origin = some o) (h : a.Echoes o) :
    a.resolveOrigin origin = some o := by
  unfold Echoes at h
  unfold resolveOrigin
  rw [hnamed]
  match hlist : a.allowOrigin with
  | [] => simp [hlist] at h
  | [only] =>
    rcases h with ⟨hwild, hcredentials⟩ | hmem
    · obtain rfl : "*" = only := by simpa [hlist] using hwild
      simp [hcredentials]
    · obtain rfl : o = only := by simpa [hlist] using hmem
      simp
  | first :: second :: rest =>
    rw [hlist] at h
    have hecho : ((first :: second :: rest).contains "*" && a.allowCredentials ||
        (first :: second :: rest).contains o) = true := by
      rw [Bool.or_eq_true, Bool.and_eq_true, List.contains_iff_mem, List.contains_iff_mem]
      exact h
    simp only [hecho, if_true]

/-- A request whose origin is not echoed is allowed what the fallback says. -/
theorem resolveOrigin_of_not_echoes (h : ∀ o, named? origin = some o → ¬ a.Echoes o) :
    a.resolveOrigin origin = a.fallback := by
  unfold Echoes at h
  unfold resolveOrigin fallback
  match hlist : a.allowOrigin, hnamed : named? origin with
  | [], _ => simp
  | [only], none => by_cases hwild : "*" = only <;> simp [hwild]
  | [only], some o =>
    have hno := h o hnamed
    by_cases hwild : only = "*"
    · subst hwild
      have hcredentials : a.allowCredentials = false := by simpa [hlist] using fun h => hno (.inl h)
      simp [hcredentials]
    · simp [hwild, Ne.symm hwild]
  | first :: second :: rest, none =>
    simp only [List.contains_iff_mem]
    simp
  | first :: second :: rest, some o =>
    have hno := h o hnamed
    rw [hlist] at hno
    have hecho : ¬ ((first :: second :: rest).contains "*" && a.allowCredentials ||
        (first :: second :: rest).contains o) = true := by
      rw [Bool.or_eq_true, Bool.and_eq_true, List.contains_iff_mem, List.contains_iff_mem]
      exact hno
    simp only [hecho, List.contains_iff_mem]
    simp

/-- Without the wildcard a single entry is resolved for everybody. -/
theorem resolveOrigin_of_single (hwild : "*" ∉ a.allowOrigin) (hsingle : a.allowOrigin.length = 1)
    (origin : Option String) : a.resolveOrigin origin = a.allowOrigin.head? := by
  obtain ⟨only, honly⟩ := List.length_eq_one_iff.mp hsingle
  have hfallback : a.fallback = a.allowOrigin.head? := by
    rw [fallback, if_neg hwild, if_pos hsingle]
  by_cases hecho : ∃ o, named? origin = some o ∧ a.Echoes o
  · obtain ⟨o, hnamed, hecho⟩ := hecho
    rw [resolveOrigin_of_echoes hnamed hecho]
    rcases hecho with ⟨hmem, -⟩ | hmem
    · exact absurd hmem hwild
    · rw [honly, List.mem_singleton] at hmem
      rw [honly, hmem, List.head?_cons]
  · rw [resolveOrigin_of_not_echoes fun o hnamed h => hecho ⟨o, hnamed, h⟩, hfallback]

/-- Something is allowed exactly if the list holds the star, or one entry, or the origin of the
request. -/
theorem isSome_resolveOrigin_iff :
    (a.resolveOrigin origin).isSome = true ↔
      "*" ∈ a.allowOrigin ∨ a.allowOrigin.length = 1 ∨ a.Lists origin := by
  by_cases hecho : ∃ o, named? origin = some o ∧ a.Echoes o
  · obtain ⟨o, hnamed, hecho⟩ := hecho
    rw [resolveOrigin_of_echoes hnamed hecho]
    refine iff_of_true rfl ?_
    rcases hecho with ⟨hmem, -⟩ | hmem
    · exact .inl hmem
    · exact .inr (.inr ⟨o, hnamed, hmem⟩)
  · rw [resolveOrigin_of_not_echoes fun o hnamed h => hecho ⟨o, hnamed, h⟩]
    have hunlisted : ¬ a.Lists origin := by
      rintro ⟨o, hnamed, hmem⟩
      exact hecho ⟨o, hnamed, .inr hmem⟩
    unfold fallback
    by_cases hwild : "*" ∈ a.allowOrigin
    · simp [hwild]
    · by_cases hsingle : a.allowOrigin.length = 1
      · obtain ⟨only, honly⟩ := List.length_eq_one_iff.mp hsingle
        rw [if_neg hwild, if_pos hsingle, honly]
        simp
      · simp [hwild, hsingle, hunlisted]

/-! ## The fields that are written -/

/-- Setting a field replaces its values if the new one may stand in a header, and else nothing. -/
theorem values_setIfValid (name value other : String) (h : Headers) :
    (HeaderModifier.setIfValid name value h).values other =
      if name = other ∧ isHeaderValue (Utf8.encode value) = true then [Utf8.encode value]
      else h.values other := by
  unfold HeaderModifier.setIfValid
  by_cases hvalid : isHeaderValue (Utf8.encode value) = true <;> simp [hvalid]

/-- The answer to a request, made from what its handler answered. -/
def answer (a : AccessControl) (request : Request) (response : Response) : Response :=
  { response with headers := a.apply request.origin response.headers }

/-- What is answered before the fields are written: a preflight reaches no handler. -/
def reached (next : Next) (request : Request) : Job Response :=
  if isPreflight request then pure (Response.empty 204) else next.run request

/-- The middleware writes its fields into what the rest of the chain answers. -/
theorem around_eq (a : AccessControl) (next : Next) (request : Request) :
    a.middleware.around next request =
      (reached next request).bind fun response => .done (a.answer request response) := by
  cases hpreflight : isPreflight request <;>
  · simp only [middleware, reached, hpreflight]
    rfl

/-- A field that does not depend on the configuration alone is written with the origin, if at all. -/
theorem values_apply {name : String} (hcredentials : name ≠ "access-control-allow-credentials")
    (hheaders : name ≠ "access-control-allow-headers")
    (hmethods : name ≠ "access-control-allow-methods")
    (hexpose : name ≠ "access-control-expose-headers") (hage : name ≠ "access-control-max-age")
    (a : AccessControl) (origin : Option String) (h : Headers) :
    (a.apply origin h).values name = (writeOrigin (a.resolveOrigin origin) h).values name := by
  have hchange {change : Headers → Headers} (hsame : ∀ h, (change h).values name = h.values name)
      (condition : Bool) (h : Headers) : (changeIf condition change h).values name = h.values name := by
    cases condition
    · rfl
    · exact hsame h
  have hset {other : String} (hne : name ≠ other) (value : String) (h : Headers) :
      (HeaderModifier.setIfValid other value h).values name = h.values name := by
    rw [values_setIfValid, if_neg fun hsame => hne hsame.1.symm]
  have htext {other : String} (hne : name ≠ other) (value : String) (h : Headers) :
      (h.setText other value).values name = h.values name := by
    rw [Headers.setText, Headers.values_set, if_neg hne.symm]
  have hwrite (age : Option ℕ) (h : Headers) : (writeAge age h).values name = h.values name := by
    cases age with
    | none => rfl
    | some seconds => exact htext hage _ h
  have horigin (resolved : Option String) {h h' : Headers} (hsame : h.values name = h'.values name) :
      (writeOrigin resolved h).values name = (writeOrigin resolved h').values name := by
    cases resolved with
    | none => exact hsame
    | some allowed => simp only [writeOrigin, Headers.values_append, values_setIfValid, hsame]
  rw [apply, hwrite, hchange (hset hexpose _)]
  apply horigin
  rw [hchange (hset hmethods _), hchange (hset hheaders _), hchange (htext hcredentials _)]

section Answer

variable (a : AccessControl) (request : Request) (response : Response)

/-- Which origins an answer allows is settled where the origin is written. -/
theorem allowedOrigins_answer :
    (a.answer request response).allowedOrigins =
      (writeOrigin (a.resolveOrigin request.origin) response.headers).values
        "access-control-allow-origin" :=
  values_apply (by decide) (by decide) (by decide) (by decide) (by decide) a _ _

/-- Where nothing is allowed, the allowed origins of the response stay. -/
theorem allowedOrigins_answer_none (h : a.resolveOrigin request.origin = none) :
    (a.answer request response).allowedOrigins = response.allowedOrigins := by
  rw [allowedOrigins_answer, h]
  rfl

/-- Where something is allowed, it is the only origin that the answer allows, if a header may hold
it. -/
theorem allowedOrigins_answer_some {allowed : String}
    (h : a.resolveOrigin request.origin = some allowed) :
    (a.answer request response).allowedOrigins =
      if isHeaderValue (Utf8.encode allowed) = true then [Utf8.encode allowed]
      else response.allowedOrigins := by
  have hname : "vary" ≠ "access-control-allow-origin" := by decide
  rw [allowedOrigins_answer, h, writeOrigin, Headers.values_append, if_neg hname, values_setIfValid]
  simp only [true_and]
  rfl

/-- An answer varies by origin if the response did or something is allowed. -/
theorem variesByOrigin_answer :
    (a.answer request response).VariesByOrigin ↔
      response.VariesByOrigin ∨ (a.resolveOrigin request.origin).isSome = true := by
  show Utf8.encode "Origin" ∈ (a.apply request.origin response.headers).values _ ↔ _
  rw [values_apply (by decide) (by decide) (by decide) (by decide) (by decide)]
  cases a.resolveOrigin request.origin with
  | none =>
    rw [Option.isSome_none]
    exact ⟨Or.inl, fun h => h.resolve_right Bool.false_ne_true⟩
  | some allowed =>
    rw [writeOrigin, Headers.values_append, if_pos rfl]
    simp

end Answer

/-! ## Who may read a response -/

/-- An origin is granted: it is resolved to itself, or everybody is and nobody sends credentials. -/
def Grants (a : AccessControl) (o : String) : Prop :=
  a.resolveOrigin (some o) = some o ∨
    a.resolveOrigin (some o) = some "*" ∧ a.allowCredentials = false

/-- A response names an origin as one that may read it, or everybody where nobody sends
credentials. -/
def Admits (a : AccessControl) (response : Response) (o : String) : Prop :=
  response.allowedOrigins = [Utf8.encode o] ∨
    response.allowedOrigins = [Utf8.encode "*"] ∧ a.allowCredentials = false

/-- What can be resolved for an origin that a request names: the origin itself, everybody, or an entry
that is neither. -/
theorem resolveOrigin_cases (a : AccessControl) (ho : o ≠ "") :
    a.resolveOrigin (some o) = some o ∧ a.Echoes o ∨
      a.resolveOrigin (some o) = some "*" ∧ "*" ∈ a.allowOrigin ∧ a.allowCredentials = false ∨
      o ∉ a.allowOrigin ∧ "*" ∉ a.allowOrigin ∧
        ∀ allowed ∈ a.resolveOrigin (some o), allowed ≠ o ∧ allowed ≠ "*" := by
  have hnamed : named? (some o) = some o := named?_some ho
  by_cases hecho : a.Echoes o
  · exact .inl ⟨resolveOrigin_of_echoes hnamed hecho, hecho⟩
  have hresolved : a.resolveOrigin (some o) = a.fallback := by
    apply resolveOrigin_of_not_echoes
    intro o' ho'
    rw [hnamed] at ho'
    exact Option.some.inj ho' ▸ hecho
  rw [hresolved]
  by_cases hwild : "*" ∈ a.allowOrigin
  · refine .inr (.inl ⟨if_pos hwild, hwild, ?_⟩)
    rw [← Bool.not_eq_true]
    exact fun hcredentials => hecho (.inl ⟨hwild, hcredentials⟩)
  · have hunlisted : o ∉ a.allowOrigin := fun hmem => hecho (.inr hmem)
    refine .inr (.inr ⟨hunlisted, hwild, ?_⟩)
    intro allowed hallowed
    have hmem : allowed ∈ a.allowOrigin := by
      rw [fallback, if_neg hwild] at hallowed
      split_ifs at hallowed
      · exact List.mem_of_head? hallowed
      · exact absurd hallowed (Option.not_mem_none _)
    constructor
    · rintro rfl
      exact hunlisted hmem
    · rintro rfl
      exact hwild hmem

/-- An origin is granted exactly if the list holds it or the star. -/
theorem grants_iff_mem (ho : o ≠ "") : a.Grants o ↔ o ∈ a.allowOrigin ∨ "*" ∈ a.allowOrigin := by
  rcases a.resolveOrigin_cases ho with ⟨hself, hecho⟩ | ⟨hstar, hwild, hcredentials⟩ |
    ⟨hunlisted, hwild, hother⟩
  · exact iff_of_true (.inl hself) (hecho.symm.imp_right And.left)
  · exact iff_of_true (.inr ⟨hstar, hcredentials⟩) (.inr hwild)
  · refine iff_of_false ?_ ?_
    · rintro (hself | ⟨hstar, -⟩)
      · exact (hother o hself).1 rfl
      · exact (hother "*" hstar).2 rfl
    · rintro (hmem | hmem)
      · exact hunlisted hmem
      · exact hwild hmem

/-- With credentials, no origin of a request is answered by the star unless it is that text. -/
theorem resolveOrigin_ne_star (ho : o ≠ "") (hcredentials : a.allowCredentials = true)
    (hother : o ≠ "*") : a.resolveOrigin (some o) ≠ some "*" := by
  intro hstar
  rcases a.resolveOrigin_cases ho with ⟨hself, -⟩ | ⟨-, -, hwithout⟩ | ⟨-, -, hneither⟩
  · rw [hself] at hstar
    exact hother (Option.some.inj hstar)
  · rw [hcredentials] at hwithout
    exact absurd hwithout.symm Bool.false_ne_true
  · exact (hneither "*" hstar).2 rfl

/-- An answer to which nobody has added origins admits the origin of its request exactly if that is
granted. -/
theorem admits_answer_iff (ho : o ≠ "") {request : Request} (horigin : request.origin = some o)
    {response : Response} (hnobody : response.allowedOrigins = []) :
    a.Admits (a.answer request response) o ↔ a.Grants o := by
  have hsent : isHeaderValue (Utf8.encode o) = true := by
    obtain ⟨_, _, htext⟩ := Option.bind_eq_some_iff.mp horigin
    exact isHeaderValue_of_headerText? htext
  have hstarSent : isHeaderValue (Utf8.encode "*") = true := by decide +kernel
  rw [grants_iff_mem ho]
  rcases a.resolveOrigin_cases ho with ⟨hself, hecho⟩ | ⟨hstar, hwild, hcredentials⟩ |
    ⟨hunlisted, hwild, hother⟩
  · refine iff_of_true (.inl ?_) (hecho.symm.imp_right And.left)
    rw [a.allowedOrigins_answer_some request response (by rw [horigin, hself]), if_pos hsent]
  · refine iff_of_true (.inr ⟨?_, hcredentials⟩) (.inr hwild)
    rw [a.allowedOrigins_answer_some request response (by rw [horigin, hstar]), if_pos hstarSent]
  · refine iff_of_false ?_ (not_or.mpr ⟨hunlisted, hwild⟩)
    unfold Admits
    cases hresolved : a.resolveOrigin (some o) with
    | none =>
      rw [a.allowedOrigins_answer_none request response (by rw [horigin, hresolved]), hnobody]
      simp
    | some allowed =>
      obtain ⟨hself, hstar⟩ := hother allowed hresolved
      rw [a.allowedOrigins_answer_some request response (by rw [horigin, hresolved]), hnobody]
      split_ifs
      · simp [Utf8.encode_inj, hself, hstar]
      · simp

/-- Whatever the list, an origin is granted exactly if it is listed or the wildcard is. With credentials
an origin other than the wildcard is never answered by it. And unless the handler's own response names
somebody, the answer to a request from the origin says that the origin may read it exactly if it is
granted. -/
theorem grants_iff (ho : o ≠ "") :
    (a.Grants o ↔ o ∈ a.allowOrigin ∨ "*" ∈ a.allowOrigin) ∧
    (a.allowCredentials = true → o ≠ "*" → a.resolveOrigin (some o) ≠ some "*") ∧
    ∀ (request : Request) (response : Response), request.origin = some o →
      response.allowedOrigins = [] → (a.Admits (a.answer request response) o ↔ a.Grants o) :=
  ⟨grants_iff_mem ho, resolveOrigin_ne_star ho, fun _ _ horigin hnobody =>
    admits_answer_iff ho horigin hnobody⟩

/-- A request that names its origin. -/
def requestFrom (o : String) : Request where
  headers := Headers.empty.setText "origin" o

/-- One origin is listed, and so is everybody; credentials are allowed. -/
def openToAll : AccessControl where
  allowOrigin := ["https://app.example", "*"]
  allowCredentials := true

/-- An origin that is not on the list, before a control that is open to all with credentials. -/
theorem grants_iff_of_unlisted :
    "https://new.example" ≠ "" ∧ openToAll.Grants "https://new.example" ∧
    (openToAll.allowCredentials = true ∧ "https://new.example" ≠ "*" ∧
      openToAll.resolveOrigin (some "https://new.example") ≠ some "*") ∧
    (requestFrom "https://new.example").origin = some "https://new.example" ∧
    Response.noContent.allowedOrigins = [] ∧
    openToAll.Admits (openToAll.answer (requestFrom "https://new.example") Response.noContent)
      "https://new.example" := by
  have hne : "https://new.example" ≠ "" := by decide
  have hother : "https://new.example" ≠ "*" := by decide
  have horigin : (requestFrom "https://new.example").origin = some "https://new.example" := by
    decide +kernel
  obtain ⟨hgrants, hstar, hadmits⟩ := grants_iff (a := openToAll) hne
  have hgranted : openToAll.Grants "https://new.example" := hgrants.mpr (.inr (by decide))
  exact ⟨hne, hgranted, ⟨rfl, hother, hstar rfl hother⟩, horigin, rfl,
    (hadmits _ _ horigin rfl).mpr hgranted⟩

/-! ## Marks for caches -/

/-- Two requests are allowed different origins only if the list holds the star or has not just one
entry. -/
theorem lists_or_of_ne {r₁ r₂ : Request} {response : Response}
    (h : (a.answer r₁ response).allowedOrigins ≠ (a.answer r₂ response).allowedOrigins) :
    "*" ∈ a.allowOrigin ∨ a.allowOrigin.length ≠ 1 := by
  by_contra hno
  rw [not_or, not_not] at hno
  obtain ⟨hwild, hsingle⟩ := hno
  apply h
  rw [allowedOrigins_answer, allowedOrigins_answer, resolveOrigin_of_single hwild hsingle,
    resolveOrigin_of_single hwild hsingle]

/-- Two requests for which the handler's response is the same, and which are answered with different
origins: an answer for which an origin was resolved is marked as one that varies by origin; and both
answers are marked exactly if the handler's response is, or the list has the wildcard, or both requests
come from listed origins. -/
theorem variesByOrigin_iff_of_ne (a : AccessControl) (r₁ r₂ : Request) :
    (∀ (next : Next) (request : Request), a.middleware.around next request =
      (reached next request).bind fun response => .done (a.answer request response)) ∧
    ∀ response : Response,
      (a.answer r₁ response).allowedOrigins ≠ (a.answer r₂ response).allowedOrigins →
      (∀ request ∈ [r₁, r₂], (a.resolveOrigin request.origin).isSome = true →
        (a.answer request response).VariesByOrigin) ∧
      ((a.answer r₁ response).VariesByOrigin ∧ (a.answer r₂ response).VariesByOrigin ↔
        response.VariesByOrigin ∨ "*" ∈ a.allowOrigin ∨
          a.Lists r₁.origin ∧ a.Lists r₂.origin) := by
  refine ⟨around_eq a, ?_⟩
  intro response hne
  constructor
  · intro request _ hresolved
    exact (variesByOrigin_answer a request response).mpr (.inr hresolved)
  · have hseveral := lists_or_of_ne hne
    simp only [variesByOrigin_answer, isSome_resolveOrigin_iff]
    tauto

/-- Two origins may read, and no others. -/
def twoOrigins : AccessControl where
  allowOrigin := ["https://app.example", "https://ops.example"]

/-- Two listed origins get different answers, and both say that they vary. -/
theorem variesByOrigin_of_listed :
    (twoOrigins.answer (requestFrom "https://app.example") Response.noContent).allowedOrigins ≠
      (twoOrigins.answer (requestFrom "https://ops.example") Response.noContent).allowedOrigins ∧
    (twoOrigins.answer (requestFrom "https://app.example") Response.noContent).VariesByOrigin ∧
    (twoOrigins.answer (requestFrom "https://ops.example") Response.noContent).VariesByOrigin := by
  have hne : (twoOrigins.answer (requestFrom "https://app.example")
      Response.noContent).allowedOrigins ≠
        (twoOrigins.answer (requestFrom "https://ops.example") Response.noContent).allowedOrigins := by
    decide +kernel
  have happ : twoOrigins.Lists (requestFrom "https://app.example").origin :=
    ⟨"https://app.example", by decide +kernel, by decide⟩
  have hops : twoOrigins.Lists (requestFrom "https://ops.example").origin :=
    ⟨"https://ops.example", by decide +kernel, by decide⟩
  obtain ⟨-, hmarks⟩ := variesByOrigin_iff_of_ne twoOrigins (requestFrom "https://app.example")
    (requestFrom "https://ops.example")
  exact ⟨hne, (hmarks Response.noContent hne).2.mpr (.inr (.inr ⟨happ, hops⟩))⟩

/-- A response that names somebody itself. -/
def selfNamed : Response where
  status := 200
  headers := Headers.empty.setText "access-control-allow-origin" "https://own.example"

/-- A listed origin and another one are answered differently, and the answer to the other one is not
marked, whether the handler names nobody or somebody itself. -/
theorem unmarked_for_strangers :
    (requestFrom "https://app.example").headers.erase "origin" =
      (requestFrom "https://evil.example").headers.erase "origin" ∧
    ∀ response ∈ [Response.noContent, selfNamed],
      (∀ o, twoOrigins.middleware.around ⟨none, Handler.always response⟩ (requestFrom o) =
        pure (twoOrigins.answer (requestFrom o) response)) ∧
      (twoOrigins.answer (requestFrom "https://app.example") response).allowedOrigins ≠
        (twoOrigins.answer (requestFrom "https://evil.example") response).allowedOrigins ∧
      (twoOrigins.answer (requestFrom "https://app.example") response).VariesByOrigin ∧
      ¬ (twoOrigins.answer (requestFrom "https://evil.example") response).VariesByOrigin := by
  refine ⟨by decide +kernel, ?_⟩
  intro response hresponse
  refine ⟨fun o => rfl, ?_⟩
  revert response
  decide +kernel

end AccessControl

end WebHost
