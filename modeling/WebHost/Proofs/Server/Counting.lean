import Mathlib.Tactic.SplitIfs
import WebHost.Proofs.Server.Departure

/-!
# Every connection is counted

A tracker counts the tokens that are alive, and each connection of a run holds one token for as long
as it counts. So the count is the number of connections that somebody who drains the run has to wait
for. It goes up in one way only: the accept loop takes a connection.
-/

set_option autoImplicit false

namespace WebHost

/-- Whether a token counts. -/
def Token.counts : Token → Bool
  | .alive => true
  | .leaving _ | .gone => false

namespace Tracker

variable {t : Tracker}

/-- A step of somebody who waits already. -/
def Step.IsWaiting : Step → Prop
  | .register _ | .look _ | .rise _ | .giveUp _ => True
  | _ => False

/-- Who waits takes and gives back no token. -/
theorem Step.IsWaiting.tokens_eq {a : Step} (h : a.IsWaiting) : (t.step a).tokens = t.tokens := by
  cases a with
  | register | look | rise | giveUp => rfl
  | _ => exact h.elim

/-- A tracker of which the count is the number of tokens alive. -/
def IsExact (t : Tracker) : Prop := t.active = t.tokens.countP Token.counts

/-- The count stays exact when a token is taken. -/
theorem isExact_acquire (h : t.IsExact) : t.acquire.IsExact := by
  unfold IsExact at h ⊢
  simp [acquire, h, Token.counts]

/-- The count stays exact when a token is given back. -/
theorem isExact_release (h : t.IsExact) (token : Nat) : (t.release token).IsExact := by
  unfold IsExact at h ⊢
  unfold release
  split
  · rename_i halive
    obtain ⟨hlt, hget⟩ := List.getElem?_eq_some_iff.mp halive
    show t.active - 1 = (t.tokens.set token (.leaving _)).countP Token.counts
    rw [List.countP_set hlt, hget, h]
    simp [Token.counts]
  · exact h

/-- The count stays exact when those who wait are told. -/
theorem isExact_announce (h : t.IsExact) (token : Nat) : (t.announce token).IsExact := by
  unfold IsExact at h ⊢
  unfold announce
  split
  · rename_i last hleaving
    obtain ⟨hlt, hget⟩ := List.getElem?_eq_some_iff.mp hleaving
    show t.active = (t.tokens.set token .gone).countP Token.counts
    rw [List.countP_set hlt, hget, h]
    simp [Token.counts]
  · exact h

/-- Whoever uses a tracker keeps it exact. -/
theorem IsExact.step (h : t.IsExact) (a : Step) : (t.step a).IsExact := by
  cases a with
  | acquire => exact isExact_acquire h
  | release token => exact isExact_release h token
  | announce token => exact isExact_announce h token
  | wait | register | look | rise | giveUp => exact h

end Tracker

/-! ## Tokens and connections -/

/-- What an entry is already may be written again. -/
theorem set_eq_self {α : Type} {l : List α} {i : Nat} {b : α}
    (h : ∀ x, l[i]? = some x → x = b) : l.set i b = l := by
  by_cases hlt : i < l.length
  · have hget := h l[i] (List.getElem?_eq_getElem hlt)
    rw [← hget]
    exact List.set_getElem_self hlt
  · exact List.set_eq_of_length_le (by omega)

namespace Tracker

/-- Giving back a token uncounts that one. -/
theorem counts_release (t : Tracker) (token : Nat) :
    (t.release token).tokens.map Token.counts = (t.tokens.map Token.counts).set token false := by
  unfold release
  split
  · rw [List.map_set]
    rfl
  · rename_i hdead
    refine (set_eq_self fun x hx => ?_).symm
    rw [List.getElem?_map] at hx
    obtain ⟨token', htoken, rfl⟩ := Option.map_eq_some_iff.mp hx
    cases token' with
    | alive => exact absurd htoken hdead
    | leaving | gone => rfl

/-- Telling those who wait uncounts nothing. -/
theorem counts_announce (t : Tracker) (token : Nat) :
    (t.announce token).tokens.map Token.counts = t.tokens.map Token.counts := by
  unfold announce
  split
  · rename_i last hleaving
    rw [List.map_set]
    refine set_eq_self fun x hx => ?_
    simpa [List.getElem?_map, hleaving, Token.counts, eq_comm] using hx
  · rfl

end Tracker

/-! ## What a step does to a connection -/

namespace Connection

/-- What a step does to a connection. -/
inductive Move (c : Connection) : Step → Connection → Prop where
  /-- Nothing. -/
  | same {a : Step} : Move c a c
  | begin : c.stage = .accepted →
    Move c .begin (c.moveTo (if c.secure then .shaking else .idle) [.new])
  | shake {failure : Option String} : c.stage = .shaking →
    Move c (.shake failure) (c.moveTo (if failure.isNone then .idle else .leaving) [])
  | request : c.stage = .idle → Move c .request (c.moveTo .active [.active])
  | respond : c.stage = .active → Move c .respond (c.moveTo .idle [.idle])
  /-- It is asked to end when it can. -/
  | drain {a : Step} : Move c a { c with draining := true }
  /-- It ends, by itself or because it is cut off. -/
  | leave {a : Step} : c.stage = .idle ∨ c.stage = .active → Move c a (c.moveTo .leaving [])
  | report : c.stage = .leaving → Move c .report (c.moveTo .reported [.closed])
  | uncount : c.stage = .reported → Move c .uncount (c.moveTo .uncounted [])
  | announce : c.stage = .uncounted → Move c .announce (c.moveTo .gone [])

/-- A connection serves while it is idle or active. -/
theorem serves_iff {c : Connection} : c.serves = true ↔ c.stage = .idle ∨ c.stage = .active := by
  cases h : c.stage <;> simp [serves, h]

/-- What any step does, whatever the connection hears. -/
theorem step_move (c : Connection) (heard : Signals) (a : Step) : c.Move a (c.step heard a) := by
  cases a with
  | begin =>
    simp only [step]
    split
    · exact .begin ‹_›
    · exact .same
  | shake failure =>
    simp only [step]
    split
    · exact .shake ‹_›
    · exact .same
  | request =>
    simp only [step]
    split
    · exact .request ‹_›
    · exact .same
  | respond =>
    simp only [step]
    split
    · exact .respond ‹_›
    · exact .same
  | drain | expire =>
    simp only [step]
    split
    · exact .drain
    · exact .same
  | cut =>
    simp only [step]
    split
    · rename_i h
      exact .leave (serves_iff.mp (Bool.and_eq_true_iff.mp h).2)
    · exact .same
  | leave failure =>
    simp only [step]
    split
    · exact .leave (serves_iff.mp ‹_›)
    · exact .same
  | report =>
    simp only [step]
    split
    · exact .report ‹_›
    · exact .same
  | uncount =>
    simp only [step]
    split
    · exact .uncount ‹_›
    · exact .same
  | announce =>
    simp only [step]
    split
    · exact .announce ‹_›
    · exact .same

variable {c c' : Connection} {a : Step}

/-- No move makes a connection secure or insecure. -/
theorem Move.secure_eq (hmove : c.Move a c') : c'.secure = c.secure := by
  cases hmove <;> rfl

/-- A connection counts until its end is reported and it is taken out of the count. -/
theorem Move.counts_eq (hmove : c.Move a c') (h : ¬ (c.stage = .reported ∧ a = .uncount)) :
    c'.counts = c.counts := by
  cases hmove with
  | same | drain => rfl
  | begin hs | shake hs =>
    -- where the connection goes depends on how it begins, but it counts there
    simp only [counts, moveTo, hs]
    split_ifs <;> rfl
  | leave hs => rcases hs with hs | hs <;> simp [counts, moveTo, hs]
  | uncount hs => exact absurd ⟨hs, rfl⟩ h
  | request hs | respond hs | report hs | announce hs => simp [counts, moveTo, hs]

/-- A connection that is uncounted counts no more. -/
theorem counts_uncount (heard : Signals) (h : c.stage = .reported) :
    (c.step heard .uncount).counts = false := by
  simp [step, counts, moveTo, h]

end Connection

/-! ## What a step does to the count -/

namespace Run

variable {r r' : Run}

/-- What a step of a run does to its tracker and to its connections. -/
inductive Tally (r r' : Run) : Prop where
  /-- Nothing. -/
  | same : r'.tracker = r.tracker → r'.connections = r.connections → Tally r r'
  /-- The accept loop takes a connection. -/
  | accept {remote : SocketAddress} : r.stage = .accepting →
    r'.tracker = r.tracker.step .acquire →
    r'.connections = r.connections ++ [{ remote, secure := r.isSecure }] → Tally r r'
  /-- A connection is taken out of the count. -/
  | uncount {number : Nat} {c c' : Connection} : r.connections[number]? = some c →
    c.Move .uncount c' → c'.counts = false →
    r'.tracker = r.tracker.step (.release number) →
    r'.connections = r.connections.set number c' → Tally r r'
  /-- A connection goes on and counts as before. -/
  | progress {number : Nat} {c c' : Connection} {a : Connection.Step} :
    r.connections[number]? = some c → c.Move a c' → c'.counts = c.counts →
    r'.tracker = r.tracker ∨ r'.tracker = r.tracker.step (.announce number) →
    r'.connections = r.connections.set number c' → Tally r r'
  /-- Somebody begins to wait for the last connection. -/
  | wait : r.stopped.isSet = true → r'.tracker = r.tracker.step .wait →
    r'.connections = r.connections → Tally r r'
  /-- Somebody goes on waiting or gives up. -/
  | waiter {b : Tracker.Step} : b.IsWaiting → r'.tracker = r.tracker.step b →
    r'.connections = r.connections → Tally r r'

/-- A step of a connection keeps the tally. -/
theorem stepConnection_tally (r : Run) (number : Nat) (step : Connection.Step) :
    Tally r (r.stepConnection number step) := by
  unfold stepConnection
  split
  · exact .same rfl rfl
  · rename_i c hc
    by_cases hleaves : c.stage = .reported ∧ step = .uncount
    · obtain ⟨hs, rfl⟩ := hleaves
      exact .uncount hc (c.step_move r.signals _) (c.counts_uncount r.signals hs)
        (by simp only [hs]; rfl) rfl
    · have hmove := c.step_move r.signals step
      refine .progress hc hmove (hmove.counts_eq hleaves) ?_ rfl
      dsimp only
      split
      · rename_i hs
        exact absurd ⟨hs, rfl⟩ hleaves
      · exact .inr rfl
      · exact .inl rfl

/-- A step of a shutdown keeps the tally. -/
theorem stepDrain_tally (r : Run) (call : Nat) (step : DrainStep) :
    Tally r (r.stepDrain call step) := by
  unfold stepDrain
  split
  · exact .same rfl rfl
  · split
    · exact .wait ‹_› rfl rfl
    · exact .same rfl rfl
  · exact .waiter (b := .register _) trivial rfl rfl
  · exact .waiter (b := .look _) trivial rfl rfl
  · exact .waiter (b := .rise _) trivial rfl rfl
  · split <;> exact .same rfl rfl
  · exact .same rfl rfl
  · exact .waiter (b := .giveUp _) trivial rfl rfl
  · exact .same rfl rfl
  · exact .waiter (b := .giveUp _) trivial rfl rfl
  · exact .same rfl rfl
  · exact .same rfl rfl

/-- Bidding farewell leaves the count alone. -/
theorem tracker_bid (r : Run) (duty : Farewell) : (r.bid duty).tracker = r.tracker := by
  cases duty <;> rfl

/-- Bidding farewell neither opens nor closes a connection. -/
theorem connections_bid (r : Run) (duty : Farewell) : (r.bid duty).connections = r.connections := by
  cases duty <;> rfl

/-- What any step does to the count. -/
theorem step_tally (r : Run) (a : Step) : Tally r (r.step a) := by
  cases a with
  | connection number connectionStep => exact r.stepConnection_tally number connectionStep
  | drain call drainStep => exact r.stepDrain_tally call drainStep
  | beginDrain | close => exact .same rfl rfl
  | accept remote =>
    simp only [step]
    split
    · exact .accept ‹_› rfl rfl
    · exact .same rfl rfl
  | drop =>
    simp only [step, drop]
    split <;> exact .same rfl rfl
  | farewell =>
    simp only [step]
    split
    case h_2 | h_4 => exact .same (r.tracker_bid _) (r.connections_bid _)
    all_goals exact .same rfl rfl
  | proceed | bind | failAccept | notice | record =>
    simp only [step]
    repeat' split
    all_goals exact .same rfl rfl

/-- A connection after a step is one that made a move, or one that has just been accepted. -/
theorem Tally.connection (htally : Tally r r') {number : Nat} {c' : Connection}
    (hc' : r'.connections[number]? = some c') :
    (∃ c a, r.connections[number]? = some c ∧ c.Move a c') ∨
      number = r.connections.length ∧ ∃ remote, c' = { remote, secure := r.isSecure } := by
  have hkept (h : r.connections[number]? = some c') :
      ∃ c a, r.connections[number]? = some c ∧ c.Move a c' := ⟨c', .begin, h, .same⟩
  have hset {moved : Nat} {c d : Connection} {a : Connection.Step}
      (hc : r.connections[moved]? = some c) (hmove : c.Move a d)
      (hd : (r.connections.set moved d)[number]? = some c') :
      ∃ c a, r.connections[number]? = some c ∧ c.Move a c' := by
    rw [List.getElem?_set] at hd
    split at hd
    · rename_i hnumber
      split at hd
      · exact ⟨c, a, hnumber ▸ hc, Option.some.inj hd ▸ hmove⟩
      · simp at hd
    · exact hkept hd
  cases htally with
  | same _ hconnections | wait _ _ hconnections | waiter _ _ hconnections =>
    exact .inl (hkept (hconnections ▸ hc'))
  | accept _ _ hconnections =>
    rw [hconnections, List.getElem?_append] at hc'
    split at hc'
    · exact .inl (hkept hc')
    · obtain ⟨hlt, -⟩ := List.getElem?_eq_some_iff.mp hc'
      rw [List.length_singleton] at hlt
      exact .inr ⟨by omega, _, List.mem_singleton.mp (List.mem_of_getElem? hc')⟩
  | uncount hc hmove _ _ hconnections => exact .inl (hset hc hmove (hconnections ▸ hc'))
  | progress hc hmove _ _ hconnections => exact .inl (hset hc hmove (hconnections ▸ hc'))

/-! ## The count of a run -/

/-- A run of which the tracker is exact, each connection counting as long as its token does. -/
structure IsCounted (r : Run) : Prop where
  exact : r.tracker.IsExact
  tokens : r.tracker.tokens.map Token.counts = r.connections.map Connection.counts

/-- What keeps the tally keeps connections counted. -/
theorem IsCounted.tally (h : r.IsCounted) (htally : Tally r r') : r'.IsCounted := by
  obtain ⟨hexact, htokens⟩ := h
  cases htally with
  | same htracker hconnections => exact ⟨by rwa [htracker], by rwa [htracker, hconnections]⟩
  | accept _ htracker hconnections =>
    refine ⟨by rw [htracker]; exact hexact.step _, ?_⟩
    rw [htracker, hconnections, List.map_append, ← htokens]
    simp [Tracker.step, Tracker.acquire, Token.counts, Connection.counts]
  | uncount _ _ hcounts htracker hconnections =>
    refine ⟨by rw [htracker]; exact hexact.step _, ?_⟩
    rw [htracker, hconnections, List.map_set, hcounts, ← htokens]
    exact Tracker.counts_release _ _
  | @progress number c c' a hc _ hcounts htracker hconnections =>
    have hconnections :
        r'.connections.map Connection.counts = r.connections.map Connection.counts := by
      rw [hconnections, List.map_set, hcounts]
      refine set_eq_self fun x hx => ?_
      simpa [List.getElem?_map, hc, eq_comm] using hx
    rcases htracker with htracker | htracker
    · exact ⟨by rwa [htracker], by rwa [htracker, hconnections]⟩
    · refine ⟨by rw [htracker]; exact hexact.step _, ?_⟩
      rw [htracker, hconnections, ← htokens]
      exact Tracker.counts_announce _ _
  | wait _ htracker hconnections =>
    refine ⟨by rw [htracker]; exact hexact.step _, ?_⟩
    rwa [htracker, hconnections]
  | @waiter b hb htracker hconnections =>
    refine ⟨by rw [htracker]; exact hexact.step _, ?_⟩
    rwa [htracker, hconnections, hb.tokens_eq]

/-- The count of a run is the number of its connections that count. -/
theorem IsCounted.active_eq (h : r.IsCounted) :
    r.tracker.active = r.connections.countP Connection.counts := by
  calc
    r.tracker.active = (r.tracker.tokens.map Token.counts).countP id := by
      rw [List.countP_map]
      exact h.exact
    _ = (r.connections.map Connection.counts).countP id := by rw [h.tokens]
    _ = r.connections.countP Connection.counts := by rw [List.countP_map]; rfl

end Run

end WebHost
