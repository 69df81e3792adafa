import Mathlib.Data.List.Basic
import Mathlib.Logic.Relation

/-!
# The first paths of a graph

What a depth-first search holds on its stack. The graph gives every vertex a list of successors,
and `seen` holds of the vertices that were visited. A search that goes past a candidate has seen
all that is reached from it, so it enters a vertex along the first path that leads there.
-/

namespace Graphs

open Relation

variable {V : Type} {next : V → List V} {seen more : V → Prop} {u v w : V}
variable {candidates path : List V}

/-- A vertex is reached from another along vertices that were not seen. -/
def ReachedOff (next : V → List V) (seen : V → Prop) (v w : V) : Prop :=
  ¬ seen v ∧ ReflTransGen (fun a b => b ∈ next a ∧ ¬ seen b) v w

/-- What was seen, and what is reached from a vertex. -/
def SeenPast (next : V → List V) (seen : V → Prop) (u : V) (w : V) : Prop :=
  seen w ∨ ReachedOff next seen u w

/-- A path among candidates and their successors that a search follows: it takes a candidate that
was not seen, where all that earlier candidates reach counts as seen. -/
inductive FirstPath (next : V → List V) : (V → Prop) → List V → List V → Prop
  | nil {seen : V → Prop} {candidates : List V} : FirstPath next seen candidates []
  | head {seen : V → Prop} {v : V} {rest path : List V} : ¬ seen v →
      FirstPath next (fun w => w = v ∨ seen w) (next v) path →
      FirstPath next seen (v :: rest) (v :: path)
  | tail {seen : V → Prop} {u : V} {rest path : List V} :
      FirstPath next (SeenPast next seen u) rest path → FirstPath next seen (u :: rest) path

theorem ReachedOff.not_seen (h : ReachedOff next seen v w) : ¬ seen w := by
  obtain ⟨hv, hpath⟩ := h
  cases hpath with
  | refl => exact hv
  | tail _ hstep => exact hstep.2

theorem reached_off_self (h : ¬ seen v) : ReachedOff next seen v v := ⟨h, .refl⟩

theorem ReachedOff.step (h : ReachedOff next seen v u) (hedge : w ∈ next u) (hw : ¬ seen w) :
    ReachedOff next seen v w :=
  ⟨h.1, h.2.tail ⟨hedge, hw⟩⟩

theorem ReachedOff.mono (h : ReachedOff next more v w) (hless : ∀ x, seen x → more x) :
    ReachedOff next seen v w := by
  refine ⟨fun hseen => h.1 (hless v hseen), ReflTransGen.mono ?_ _ _ h.2⟩
  exact fun a b hstep => ⟨hstep.1, fun hseen => hstep.2 (hless b hseen)⟩

theorem reached_off_iff (hv : ¬ seen v) : ReachedOff next seen v w ↔
    w = v ∨ ∃ u ∈ next v, ReachedOff next (fun x => x = v ∨ seen x) u w := by
  constructor
  · rintro ⟨-, hpath⟩
    -- induction on the path from its end, so that the last visit to the vertex counts
    induction hpath with
    | refl => exact .inl rfl
    | @tail u w _ hstep ih =>
        by_cases hself : w = v
        · exact .inl hself
        have hw : ¬ (w = v ∨ seen w) := not_or.mpr ⟨hself, hstep.2⟩
        rcases ih with rfl | ⟨first, hfirst, hreached⟩
        · exact .inr ⟨w, hstep.1, reached_off_self hw⟩
        · exact .inr ⟨first, hfirst, hreached.step hstep.1 hw⟩
  · rintro (rfl | ⟨u, hedge, hreached⟩)
    · exact reached_off_self hv
    · obtain ⟨hu, hpath⟩ : ReachedOff next seen u w := hreached.mono fun x hx => .inr hx
      exact ⟨hv, .head ⟨hedge, hu⟩ hpath⟩

theorem seen_past_or_iff : SeenPast next (SeenPast next seen u) v w ↔
    SeenPast next seen u w ∨ ReachedOff next seen v w := by
  constructor
  · rintro (hpast | hreached)
    · exact .inl hpast
    · exact .inr (hreached.mono fun x hx => .inl hx)
  · rintro (hpast | ⟨hv, hpath⟩)
    · exact .inl hpast
    · induction hpath with
      | refl =>
          by_cases hpast : SeenPast next seen u v
          · exact .inl hpast
          · exact .inr (reached_off_self hpast)
      | @tail a b hbefore hstep ih =>
          by_cases hpast : SeenPast next seen u b
          · exact .inl hpast
          · rcases ih with (hseen | hreached) | hreached
            · exact absurd hseen (ReachedOff.not_seen ⟨hv, hbefore⟩)
            · exact .inl (.inr (hreached.step hstep.1 hstep.2))
            · exact .inr (hreached.step hstep.1 hpast)

/-- Nothing is reached from a vertex that was seen. -/
theorem seen_past_of_seen (h : seen u) : SeenPast next seen u = seen :=
  funext fun _ => propext ⟨fun hpast => hpast.resolve_right fun hreached => hreached.1 h, .inl⟩

/-- The search passes a candidate that was seen. -/
theorem first_path_of_seen (h : seen u) :
    FirstPath next seen (u :: candidates) path ↔ FirstPath next seen candidates path := by
  constructor
  · intro hpath
    cases hpath with
    | nil => exact .nil
    | head hnew _ => exact absurd h hnew
    | tail hrest => rwa [seen_past_of_seen h] at hrest
  · intro hpath
    refine .tail ?_
    rwa [seen_past_of_seen h]

/-- A search goes through a candidate or past it. -/
theorem first_path_cons_iff :
    FirstPath next seen (u :: candidates) path ↔
      FirstPath next seen [u] path ∨
        FirstPath next (SeenPast next seen u) candidates path := by
  constructor
  · intro hpath
    cases hpath with
    | nil => exact .inl .nil
    | head hnew hpath => exact .inl (.head hnew hpath)
    | tail hrest => exact .inr hrest
  · rintro (hpath | hrest)
    · cases hpath with
      | nil => exact .nil
      | head hnew hpath => exact .head hnew hpath
      | tail hrest =>
          cases hrest
          exact .nil
    · exact .tail hrest

@[simp] theorem first_path_nil_iff : FirstPath next seen [] path ↔ path = [] := by
  constructor
  · intro hpath
    cases hpath
    rfl
  · rintro rfl
    exact .nil

/-- Through one candidate that was not seen a search goes on among its successors. -/
theorem first_path_singleton_iff (h : ¬ seen u) : FirstPath next seen [u] (v :: path) ↔
    v = u ∧ FirstPath next (fun w => w = u ∨ seen w) (next u) path := by
  constructor
  · intro hpath
    cases hpath with
    | head _ hrest => exact ⟨rfl, hrest⟩
    | tail hrest => cases hrest
  · rintro ⟨rfl, hrest⟩
    exact .head h hrest

end Graphs
