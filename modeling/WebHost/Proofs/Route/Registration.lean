import Mathlib.Data.List.Induction
import Mathlib.Data.List.Nodup
import WebHost.Route.Mux

/-!
# Registered routes

What a multiplexer holds is decided by the routes it accepted, in their order: each with the pattern
that its text spells, and no two with the same key. Conversely every row of routes whose texts are
patterns and whose keys differ is accepted, so such a row may be registered in any order.
-/

set_option autoImplicit false

namespace WebHost

/-- The pattern that a route spells. -/
def Route.pattern? (r : Route) : Option Pattern := (Pattern.parse r.pattern).toOption

namespace Mux

variable {fallback : Handler} {routes : List Route} {m : Mux}

/-- A multiplexer that has accepted routes one after the other and nothing else. -/
inductive Accepted (fallback : Handler) : List Route → Mux → Prop
  | empty : Accepted fallback [] { fallback }
  | add {routes : List Route} {r : Route} {m m' : Mux} :
    Accepted fallback routes m → m.add r = .ok m' → Accepted fallback (routes ++ [r]) m'

/-- A route is accepted when its text is a pattern and its key is new; it becomes the last entry. -/
theorem add_eq_ok_iff {r : Route} {m' : Mux} :
    m.add r = .ok m' ↔
      ∃ p, r.pattern? = some p ∧ r.key ∉ m.keys ∧
        m' = { m with entries := m.entries ++ [(p, r)] } := by
  unfold add Route.pattern?
  cases hp : Pattern.parse r.pattern with
  | error fault => simp [Except.toOption]
  | ok p =>
    by_cases hk : r.key ∈ m.keys
    · simp [Except.toOption, hk]
    · simp [Except.toOption, hk, eq_comm]

namespace Accepted

/-- The entries are the accepted routes in their order. -/
theorem map_snd (h : Accepted fallback routes m) : m.entries.map (·.2) = routes := by
  induction h with
  | empty => rfl
  | add _ hadd ih =>
    obtain ⟨p, -, -, rfl⟩ := add_eq_ok_iff.mp hadd
    simp [ih]

/-- Every entry has the pattern that its route spells. -/
theorem pattern?_eq (h : Accepted fallback routes m) :
    ∀ e ∈ m.entries, e.2.pattern? = some e.1 := by
  induction h with
  | empty => simp
  | add _ hadd ih =>
    obtain ⟨p, hp, -, rfl⟩ := add_eq_ok_iff.mp hadd
    intro e he
    rcases List.mem_append.mp he with he | he
    · exact ih e he
    · rwa [List.mem_singleton.mp he]

/-- Accepted routes have distinct keys. -/
theorem nodup_keys (h : Accepted fallback routes m) : (routes.map Route.key).Nodup := by
  induction h with
  | empty => simp
  | @add routes r m m' h hadd ih =>
    obtain ⟨p, -, hnew, -⟩ := add_eq_ok_iff.mp hadd
    have hkeys : m.keys = routes.map Route.key := by
      rw [← h.map_snd, List.map_map]; rfl
    rw [List.map_append, List.map_singleton, ← List.concat_eq_append]
    exact ih.concat (by rwa [← hkeys])

/-- Accepted routes have patterns that are accepted. -/
theorem pattern?_isSome (h : Accepted fallback routes m) :
    ∀ r ∈ routes, r.pattern?.isSome := by
  intro r hr
  rw [← h.map_snd] at hr
  obtain ⟨e, he, rfl⟩ := List.mem_map.mp hr
  simp [h.pattern?_eq e he]

end Accepted

/-- Routes that spell patterns and have different keys are accepted. -/
theorem exists_accepted (fallback : Handler) (hp : ∀ r ∈ routes, r.pattern?.isSome)
    (hk : (routes.map Route.key).Nodup) : ∃ m, Accepted fallback routes m := by
  -- the last route is the one registered last
  induction routes using List.reverseRecOn with
  | nil => exact ⟨_, .empty⟩
  | append_singleton routes r ih =>
    rw [List.map_append, List.map_singleton, List.nodup_append] at hk
    obtain ⟨hk, -, hnew⟩ := hk
    obtain ⟨m, hm⟩ := ih (fun r' hr' => hp r' (List.mem_append_left _ hr')) hk
    obtain ⟨p, hpr⟩ := Option.isSome_iff_exists.mp (hp r (by simp))
    have hkeys : m.keys = routes.map Route.key := by
      rw [← hm.map_snd, List.map_map]; rfl
    have hnotin : r.key ∉ m.keys := by
      rw [hkeys]
      exact fun hmem => hnew _ hmem _ (List.mem_singleton_self _) rfl
    exact ⟨_, .add hm (add_eq_ok_iff.mpr ⟨p, hpr, hnotin, rfl⟩)⟩

/-- Accepted routes are accepted in any other order, too. -/
theorem Accepted.exists_perm {routes' : List Route} (h : Accepted fallback routes m)
    (hperm : routes'.Perm routes) : ∃ m', Accepted fallback routes' m' :=
  exists_accepted fallback (fun r hr => h.pattern?_isSome r (hperm.mem_iff.mp hr))
    ((hperm.map Route.key).nodup_iff.mpr h.nodup_keys)

end Mux

end WebHost
