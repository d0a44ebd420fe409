import Mathlib.Computability.RegularExpressions
import WebHost.Proofs.Server.Drain

/-!
# What is told about a connection

A connection is told about as new, as active and idle again for each of its requests, and as closed at
the end. It may be cut off in the middle of a request; then that request is the last, and nothing is
told about its end. The stage of the task of a connection says which words may have been told so far,
each step adds to the words of one stage what makes them words of the next, and every such word is the
beginning of a whole course.

A connection holds a token of its run from when it is accepted. The token is dropped by the last steps
of the task, so the connection is counted whenever something is told about it, before and after.
-/

set_option autoImplicit false

namespace WebHost

open Computability

namespace Connection

/-- A request: the connection is active and then idle again. -/
def round : RegularExpression ConnectionState := .char .active * .char .idle

/-- All that is told about a connection: it is new, it has its requests, the last of which may be given
up, and it is closed. -/
def course : RegularExpression ConnectionState :=
  .char .new * round.star * (1 + .char .active) * .char .closed

/-- What was told about a connection whose requests are answered. -/
def told : Language ConnectionState := {[.new]} * round.matches'∗

/-- What may have been told about a connection in a stage. -/
def toldAt : ConnectionStage → Language ConnectionState
  | .accepted => 1
  | .shaking => {[.new]}
  | .idle => told
  | .active => told * {[.active]}
  | .leaving => told * (1 + {[.active]})
  | .reported | .uncounted | .gone => course.matches'

/-- A connection that is only new is told of so. -/
theorem mem_told_new : [.new] ∈ told :=
  Language.append_mem_mul (Set.mem_singleton _) (Language.nil_mem_kstar _)

/-- A round is active and then idle. -/
theorem mem_round : [.active, .idle] ∈ round.matches' :=
  Language.append_mem_mul (Set.mem_singleton [ConnectionState.active])
    (Set.mem_singleton [ConnectionState.idle])

/-- A request that is answered leaves a connection as it was before, for what may be told. -/
theorem mem_told_of_active {reports : List ConnectionState} (h : reports ∈ toldAt .active) :
    reports ++ [.idle] ∈ told := by
  obtain ⟨before, hbefore, last, hlast, rfl⟩ := Language.mem_mul.mp h
  obtain rfl : last = [.active] := hlast
  obtain ⟨first, hfirst, rounds, hrounds, rfl⟩ := Language.mem_mul.mp hbefore
  obtain ⟨l, rfl, hl⟩ := Language.mem_kstar.mp hrounds
  have hmore : ∀ part ∈ l ++ [[.active, .idle]], part ∈ round.matches' := by
    intro part hpart
    rcases List.mem_append.mp hpart with hpart | hpart
    · exact hl part hpart
    · exact List.mem_singleton.mp hpart ▸ mem_round
  have hstar := Language.append_mem_mul hfirst (Language.mem_kstar.mpr ⟨_, rfl, hmore⟩)
  simpa [told] using hstar

/-- A connection may leave after any full course. -/
theorem mem_leaving_of_told {reports : List ConnectionState} (h : reports ∈ told) :
    reports ∈ toldAt .leaving := by
  have hnone : [] ∈ (1 + {[.active]} : Language ConnectionState) := .inl Language.nil_mem_one
  have happend := Language.append_mem_mul h hnone
  rwa [List.append_nil] at happend

/-- A connection may leave while it is active. -/
theorem mem_leaving_of_active {reports : List ConnectionState} (h : reports ∈ toldAt .active) :
    reports ∈ toldAt .leaving := by
  obtain ⟨before, hbefore, last, hlast, rfl⟩ := Language.mem_mul.mp h
  exact Language.append_mem_mul hbefore (.inr hlast)

variable {c c' : Connection} {a : Step}

/-- Each move tells what makes a word of one stage a word of the next. -/
theorem Move.mem_toldAt (hmove : c.Move a c') (h : c.reports ∈ toldAt c.stage) :
    c'.reports ∈ toldAt c'.stage := by
  cases hmove with
  | same | drain => exact h
  | begin hs =>
    rw [hs] at h
    have hnone : c.reports = [] := h
    simp only [moveTo, hnone, List.nil_append]
    split
    · exact Set.mem_singleton _
    · exact mem_told_new
  | @shake failure hs =>
    rw [hs] at h
    have hnew : c.reports = [.new] := h
    simp only [moveTo, hnew, List.append_nil]
    split
    · exact mem_told_new
    · exact mem_leaving_of_told mem_told_new
  | request hs =>
    rw [hs] at h
    exact Language.append_mem_mul h (Set.mem_singleton _)
  | respond hs =>
    rw [hs] at h
    exact mem_told_of_active h
  | leave hs =>
    simp only [moveTo, List.append_nil]
    rcases hs with hs | hs
    · rw [hs] at h
      exact mem_leaving_of_told h
    · rw [hs] at h
      exact mem_leaving_of_active h
  | report hs =>
    rw [hs] at h
    exact Language.append_mem_mul h (Set.mem_singleton _)
  | uncount hs | announce hs =>
    rw [hs] at h
    simp only [moveTo, List.append_nil]
    exact h

end Connection

namespace Run

variable {r r' : Run}

/-- A run of which nothing was told about a connection but what its stage allows. -/
def IsTold (r : Run) : Prop := ∀ c ∈ r.connections, c.reports ∈ Connection.toldAt c.stage

/-- What keeps the tally keeps what is told of connections. -/
theorem IsTold.tally (h : r.IsTold) (htally : Tally r r') : r'.IsTold := by
  intro c' hmem
  obtain ⟨number, hc'⟩ := List.mem_iff_getElem?.mp hmem
  rcases htally.connection hc' with ⟨c, a, hc, hmove⟩ | ⟨-, remote, rfl⟩
  · exact hmove.mem_toldAt (h c (List.mem_of_getElem? hc))
  · exact Language.nil_mem_one

end Run

end WebHost
