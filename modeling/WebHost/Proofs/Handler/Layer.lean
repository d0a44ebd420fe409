import WebHost.Proofs.Handler.Deeds

/-!
# Layers around a handler

Most middleware is a layer: it works on a request, and then either answers by itself or hands a request
on, once, and finishes the response that comes back. That response is all it learns of what it stands
around; the name of the next middleware, which reports may show, is nothing to it. Layers may be put
around a handler all at once or some around the others, and nobody can tell the difference. A request
passes them in the order of the list, up to the first that answers by itself, and the response passes
the same ones back, the innermost first.
-/

set_option autoImplicit false

namespace WebHost

/-- What a layer decides on when it has worked on a request. -/
inductive Verdict where
  | answer (response : Response)
  /-- A request is handed on; the response to it will be finished. -/
  | handOn (request : Request) (finish : Response → Job Response)

/-- A middleware that either answers by itself or hands a request on once. -/
structure Layer where
  name : String
  receive : Request → Job Verdict

/-- What is left to do around a handler when a layer has decided. -/
def Verdict.carryOut (inner : Handler) : Verdict → Job Response
  | .answer response => .done response
  | .handOn request finish => (inner request).bind finish

namespace Layer

/-- A layer around a handler. -/
def around (m : Layer) (inner : Handler) : Handler := fun request =>
  (m.receive request).bind (Verdict.carryOut inner)

/-- A layer as middleware. -/
def middleware (m : Layer) : Middleware where
  name := m.name
  around next := m.around next.run

end Layer

/-- A handler within layers, the first of which is the outermost one. -/
def Handler.within (layers : List Layer) (h : Handler) : Handler :=
  (Chain.mk (layers.map Layer.middleware) h).handle

/-- A handler within several layers lies in the first of them, within the others. -/
theorem Handler.within_cons (m : Layer) (layers : List Layer) (h : Handler) :
    h.within (m :: layers) = m.around (h.within layers) := rfl

/-- To wrap a handler is to put it at the end of a chain. -/
theorem wrap_eq (h : Handler) (middleware : List Middleware) :
    wrap h middleware = (Chain.mk middleware h).handle := by
  cases middleware <;> rfl

namespace Chain

/-- Layers do not learn whether the middleware behind them stands in the same chain. -/
theorem handle_append (layers : List Layer) (inner : List Middleware) (h : Handler) :
    (Chain.mk (layers.map Layer.middleware ++ inner) h).handle =
      (Chain.mk (layers.map Layer.middleware) (Chain.mk inner h).handle).handle := by
  induction layers with
  | nil => rfl
  | cons m layers ih => exact congrArg m.around ih

/-! ## The way in -/

/-- A layer that handed a request on: what it did before, what it handed on, and how it is going to
finish the response. -/
structure Crossing where
  layer : Layer
  deeds : List Deed
  onward : Request
  finish : Response → Job Response

/-- Layer after layer hands a request on, each what it made of the one before. -/
inductive Inwards : Request → List Crossing → Request → Prop
  | here (request : Request) : Inwards request [] request
  | cross {request last : Request} {c : Crossing} {further : List Crossing} :
    (c.layer.receive request).Does c.deeds (some (.handOn c.onward c.finish)) →
    Inwards c.onward further last → Inwards request (c :: further) last

/-- What happens at the innermost place that a request reaches: the handler runs if no layer is left;
otherwise the next layer answers by itself, or has not decided yet. -/
inductive Turns (h : Handler) : List Layer → Request → List Deed → Option Response → Prop
  | handled {request : Request} {ds : List Deed} {reply : Option Response} :
    (h request).Does ds reply → Turns h [] request ds reply
  | answered {m : Layer} {rest : List Layer} {request : Request} {ds : List Deed}
    {response : Response} : (m.receive request).Does ds (some (.answer response)) →
    Turns h (m :: rest) request ds (some response)
  | undecided {m : Layer} {rest : List Layer} {request : Request} {ds : List Deed} :
    (m.receive request).Does ds none → Turns h (m :: rest) request ds none

/-! ## The way back -/

/-- A response, if there is one, is finished by one layer after the other. -/
inductive Outwards : List Crossing → Option Response → List Deed → Option Response → Prop
  | here (response : Response) : Outwards [] (some response) [] (some response)
  | missing (crossings : List Crossing) : Outwards crossings none [] none
  | cross {c : Crossing} {further : List Crossing} {response finished : Response}
    {front back : List Deed} {o : Option Response} :
    (c.finish response).Does front (some finished) → Outwards further (some finished) back o →
    Outwards (c :: further) (some response) (front ++ back) o
  | unfinished {c : Crossing} {further : List Crossing} {response : Response} {ds : List Deed} :
    (c.finish response).Does ds none → Outwards (c :: further) (some response) ds none

/-- A way out that ends early is not continued by further crossings. -/
theorem Outwards.append_none {first second : List Crossing} {reply : Option Response}
    {ds : List Deed} (h : Outwards first reply ds none) : Outwards (first ++ second) reply ds none := by
  generalize hnone : (none : Option Response) = o at h
  induction h with
  | here => simp at hnone
  | missing => exact .missing _
  | cross hfinish _ ih => exact .cross hfinish (ih hnone)
  | unfinished hfinish => exact .unfinished hfinish

/-- Two ways out make one if the second begins with the response of the first. -/
theorem Outwards.append {first second : List Crossing} {reply o : Option Response}
    {response : Response} {front back : List Deed} (hfirst : Outwards first reply front (some response))
    (hsecond : Outwards second (some response) back o) :
    Outwards (first ++ second) reply (front ++ back) o := by
  generalize hsome : some response = middle at hfirst
  induction hfirst with
  | here => obtain rfl := Option.some.inj hsome; exact hsecond
  | missing => simp at hsome
  | cross hfinish _ ih =>
    rw [List.append_assoc]
    exact .cross hfinish (ih hsome)
  | unfinished => simp at hsome

/-- On the way back a response passes the last of some layers after all others. -/
theorem Outwards.of_concat {first : List Crossing} {c : Crossing} {reply o : Option Response}
    {ds : List Deed} (h : Outwards (first ++ [c]) reply ds o) :
    (o = none ∧ Outwards first reply ds none) ∨ ∃ response front back,
      Outwards first reply front (some response) ∧ (c.finish response).Does back o ∧
        ds = front ++ back := by
  induction first generalizing reply ds with
  | nil =>
    cases h with
    | missing => exact .inl ⟨rfl, .missing _⟩
    | @cross _ _ response finished front back _ hfinish hrest =>
      cases hrest
      exact .inr ⟨response, [], front, .here response, hfinish, by simp⟩
    | @unfinished _ _ response _ hfinish => exact .inr ⟨response, [], ds, .here response, hfinish, rfl⟩
  | cons d first ih =>
    cases h with
    | missing => exact .inl ⟨rfl, .missing _⟩
    | cross hfinish hrest =>
      rcases ih hrest with ⟨rfl, hback⟩ | ⟨response, front, back, hback, hlast, rfl⟩
      · exact .inl ⟨rfl, .cross hfinish hback⟩
      · exact .inr ⟨response, _, back, .cross hfinish hback, hlast, by simp⟩
    | unfinished hfinish => exact .inl ⟨rfl, .unfinished hfinish⟩

/-! ## The whole way -/

/-- A way through layers: the layers that handed the request on, those that are left, the innermost
place and what happened there, and the way back. -/
structure Journey where
  passed : List Crossing
  rest : List Layer
  onward : Request
  core : List Deed
  reply : Option Response
  back : List Deed

/-- Everything that is done on a way through layers. -/
def Journey.deeds (j : Journey) : List Deed := j.passed.flatMap (·.deeds) ++ (j.core ++ j.back)

/-- A journey of a request through layers to a handler, and back to an answer if there is one. -/
structure Journey.Fits (j : Journey) (layers : List Layer) (h : Handler) (request : Request)
    (o : Option Response) : Prop where
  order : layers = j.passed.map (·.layer) ++ j.rest
  inwards : Inwards request j.passed j.onward
  turns : Turns h j.rest j.onward j.core j.reply
  /-- The response goes back through the layers that handed the request on, the last of them first. -/
  outwards : Outwards j.passed.reverse j.reply j.back o

section Within

variable {h : Handler} {m : Layer} {layers : List Layer} {request : Request} {o : Option Response}

/-- A journey through further layers, begun by a layer that hands the request on. -/
def Journey.behind (c : Crossing) (j : Journey) (last : List Deed) : Journey :=
  { j with passed := c :: j.passed, back := j.back ++ last }

/-- The deeds of a journey behind a crossing come after those of the crossing. -/
theorem Journey.deeds_behind (c : Crossing) (j : Journey) (last : List Deed) :
    (j.behind c last).deeds = c.deeds ++ (j.deeds ++ last) := by
  simp [Journey.behind, Journey.deeds]

/-- What a layer that hands a request on makes of the journey through what it stands around. -/
theorem Journey.Fits.behind {j : Journey} {c : Crossing} {middle : Option Response}
    (hfits : j.Fits layers h c.onward middle)
    (hreceive : (c.layer.receive request).Does c.deeds (some (.handOn c.onward c.finish)))
    {last : List Deed}
    (hlast : (middle = none ∧ o = none ∧ last = []) ∨
      ∃ response, middle = some response ∧ (c.finish response).Does last o) :
    (j.behind c last).Fits (c.layer :: layers) h request o where
  order := by simp [Journey.behind, hfits.order]
  inwards := .cross hreceive hfits.inwards
  turns := hfits.turns
  outwards := by
    have hback := hfits.outwards
    change Outwards (c :: j.passed).reverse j.reply (j.back ++ last) o
    rw [List.reverse_cons]
    rcases hlast with ⟨rfl, rfl, rfl⟩ | ⟨response, rfl, hfinish⟩
    · rw [List.append_nil]
      exact hback.append_none
    · apply hback.append
      cases o with
      | none => exact .unfinished hfinish
      | some finished => simpa using Outwards.cross hfinish (.here finished)

/-- All that a handler within layers may be seen to do are journeys of its request. -/
theorem exists_journey {ds : List Deed} (hdoes : (h.within layers request).Does ds o) :
    ∃ j : Journey, j.Fits layers h request o ∧ ds = j.deeds := by
  induction layers generalizing request ds o with
  | nil =>
    refine ⟨⟨[], [], request, ds, o, []⟩, ⟨rfl, .here request, .handled hdoes, ?_⟩, ?_⟩
    · cases o with
      | none => exact .missing []
      | some response => exact .here response
    · simp [Journey.deeds]
  | cons m layers ih =>
    -- a layer that has not decided, or that answers, is where the request turns
    have hturned {core : List Deed} {reply : Option Response}
        (hturns : Turns h (m :: layers) request core reply) (hreply : Outwards [] reply [] o) :
        ∃ j : Journey, j.Fits (m :: layers) h request o ∧ core = j.deeds :=
      ⟨⟨[], m :: layers, request, core, reply, []⟩, ⟨rfl, .here request, hturns, hreply⟩,
        by simp [Journey.deeds]⟩
    rw [Handler.within_cons, Layer.around] at hdoes
    rcases Job.does_bind_iff.mp hdoes with ⟨rfl, hreceive⟩ | ⟨verdict, front, back, hreceive, hrest, rfl⟩
    · exact hturned (.undecided hreceive) (.missing [])
    cases verdict with
    | answer response =>
      obtain ⟨rfl, rfl | rfl⟩ := Job.does_done_iff.mp hrest
      · rw [List.append_nil]
        exact hturned (.answered hreceive) (.here response)
      · rw [List.append_nil]
        exact hturned (.undecided hreceive.forget) (.missing [])
    | handOn onward finish =>
      let c : Crossing := ⟨m, front, onward, finish⟩
      rcases Job.does_bind_iff.mp hrest with ⟨rfl, hinner⟩ | ⟨response, inside, last, hinner, hlast, rfl⟩
      · obtain ⟨j, hfits, rfl⟩ := ih hinner
        refine ⟨j.behind c [], hfits.behind (c := c) hreceive (.inl ⟨rfl, rfl, rfl⟩), ?_⟩
        rw [Journey.deeds_behind, List.append_nil]
      · obtain ⟨j, hfits, rfl⟩ := ih hinner
        refine ⟨j.behind c last, hfits.behind (c := c) hreceive (.inr ⟨response, rfl, hlast⟩), ?_⟩
        rw [Journey.deeds_behind]

/-- All journeys of a request are what a handler within layers may be seen to do. -/
theorem does_deeds {j : Journey} (hfits : j.Fits layers h request o) :
    (h.within layers request).Does j.deeds o := by
  obtain ⟨passed, rest, onward, core, reply, back⟩ := j
  obtain ⟨horder, hinwards, hturns, houtwards⟩ := hfits
  simp only at horder hinwards hturns houtwards
  induction hinwards generalizing layers back o with
  | here request =>
    obtain rfl : layers = rest := horder
    simp only [Journey.deeds, List.flatMap_nil, List.nil_append]
    cases houtwards with
    | here response =>
      rw [List.append_nil]
      cases hturns with
      | handled hdoes => exact hdoes
      | answered hreceive =>
        rw [← List.append_nil core]
        exact hreceive.bind (f := Verdict.carryOut _) .done
    | missing =>
      rw [List.append_nil]
      cases hturns with
      | handled hdoes => exact hdoes
      | undecided hreceive => exact hreceive.bind_none
  | @cross request last c further hreceive _ ih =>
    obtain rfl : layers = c.layer :: (further.map (·.layer) ++ rest) := horder
    rw [List.reverse_cons] at houtwards
    have hdeeds (back : List Deed) : (Journey.mk (c :: further) rest last core reply back).deeds =
        c.deeds ++ (Journey.mk further rest last core reply back).deeds := by
      simp [Journey.deeds]
    rw [hdeeds, Handler.within_cons, Layer.around]
    apply hreceive.bind (f := Verdict.carryOut _)
    rcases houtwards.of_concat with ⟨rfl, hback⟩ | ⟨response, front, back, hback, hfinish, rfl⟩
    · exact (ih _ rfl hturns hback).bind_none
    · have hinner := ih _ rfl hturns hback
      have hsplit : (Journey.mk further rest last core reply (front ++ back)).deeds =
          (Journey.mk further rest last core reply front).deeds ++ back := by
        simp [Journey.deeds]
      rw [hsplit]
      exact hinner.bind hfinish

end Within

/-- What it means to put layers around a handler. -/
structure Composes (layers : List Layer) (inner : List Middleware) (h : Handler) : Prop where
  /-- One chain and a chain within a chain are the same job for every request. -/
  nested : (Chain.mk (layers.map Layer.middleware ++ inner) h).handle =
    (Chain.mk (layers.map Layer.middleware) (Chain.mk inner h).handle).handle
  wrapped : wrap h inner = (Chain.mk inner h).handle
  bare : wrap h [] = h
  /-- What the chain may be seen to do are the journeys of the request. -/
  travelled : ∀ (request : Request) (ds : List Deed) (o : Option Response),
    ((Chain.mk (layers.map Layer.middleware) h).handle request).Does ds o ↔
      ∃ j : Journey, j.Fits layers h request o ∧ ds = j.deeds
  /-- The handler runs if all layers handed the request on, and only then. -/
  handled : ∀ (request : Request) (o : Option Response) (j : Journey), j.Fits layers h request o →
    (j.rest = [] ↔ j.passed.map (·.layer) = layers) ∧
      (j.rest = [] → (h j.onward).Does j.core j.reply)
  /-- Otherwise the first layer that did not hand it on answered, or has not decided yet. -/
  stopped : ∀ (request : Request) (o : Option Response) (j : Journey), j.Fits layers h request o →
    ∀ m further, j.rest = m :: further →
      (∃ response, j.reply = some response ∧
        (m.receive j.onward).Does j.core (some (.answer response))) ∨
      (j.reply = none ∧ (m.receive j.onward).Does j.core none)

/-- Layers may be put around a handler all at once or some around the others. A request passes them in
order up to the first that answers by itself, the handler runs if there is none, and the response passes
the same layers back, the innermost first. -/
theorem composes (layers : List Layer) (inner : List Middleware) (h : Handler) :
    Composes layers inner h where
  nested := handle_append layers inner h
  wrapped := wrap_eq h inner
  bare := rfl
  travelled request ds o := by
    constructor
    · exact exists_journey
    · rintro ⟨j, hfits, rfl⟩
      exact does_deeds hfits
  handled request o j hfits := by
    constructor
    · rw [hfits.order]
      simp
    · intro hrest
      have hturns := hfits.turns
      rw [hrest] at hturns
      cases hturns with
      | handled hdoes => exact hdoes
  stopped request o j hfits m further hrest := by
    have hturns := hfits.turns
    rw [hrest] at hturns
    generalize j.reply = reply at hturns
    cases hturns with
    | @answered _ _ _ _ response hreceive => exact .inl ⟨response, rfl, hreceive⟩
    | undecided hreceive => exact .inr ⟨rfl, hreceive⟩

end Chain

end WebHost
