import Mathlib.Data.Fintype.Card
import Mathlib.Data.List.Chain
import Mathlib.Data.List.Induction
import Mathlib.Data.Set.Finite.List
import Mathlib.Logic.Relation
import Mathlib.Order.WellFounded

/-!
# Acyclic relations

What a search for cycles and a topological order rest on. A relation `edge` reads "depends on".
`Settled` is what a depth-first search keeps of the vertices it has finished, `Before` what an
order owes to the relation, and `no_trap` says that without a cycle every set of vertices has one
that depends on none of the set.
-/

namespace Graphs

open Relation

variable {V : Type} {edge : V → V → Prop} {v w : V}

/-- No vertex depends on itself, directly or through others. -/
def Acyclic (edge : V → V → Prop) : Prop := ∀ v, ¬ TransGen edge v v

/-- A list of at least two vertices that follows edges and returns to its start. -/
structure ClosedWalk (edge : V → V → Prop) (walk : List V) : Prop where
  chain : walk.IsChain edge
  long : 2 ≤ walk.length
  closed : walk.head? = walk.getLast?

/-- Each vertex of an order comes after all it depends on. -/
def Before (edge : V → V → Prop) (order : List V) : Prop :=
  ∀ front v back, order = front ++ v :: back → ∀ w, edge v w → w ∈ front

/-- Vertices none of which lies on a cycle, and which depend on no others. -/
structure Settled (edge : V → V → Prop) (done : V → Prop) : Prop where
  closed : ∀ v w, done v → edge v w → done w
  acyclic : ∀ v, done v → ¬ TransGen edge v v

theorem trans_gen_of_chain {rest : List V} (h : (v :: rest).IsChain edge) (hw : w ∈ rest) :
    TransGen edge v w := by
  induction rest generalizing v with
  | nil => cases hw
  | cons u rest ih =>
      obtain ⟨hedge, hrest⟩ := List.isChain_cons_cons.mp h
      rcases List.mem_cons.mp hw with rfl | hw
      · exact .single hedge
      · exact .head hedge (ih hrest hw)

/-- Along a closed walk a vertex depends on itself. -/
theorem ClosedWalk.not_acyclic {walk : List V} (h : ClosedWalk edge walk) : ¬ Acyclic edge := by
  intro hacyclic
  obtain ⟨hchain, hlong, hclosed⟩ := h
  cases walk with
  | nil => simp at hlong
  | cons v rest =>
      cases rest with
      | nil => simp at hlong
      | cons u rest =>
          have hlast : v ∈ u :: rest := by
            rw [List.getLast?_cons_cons] at hclosed
            exact List.mem_of_getLast? hclosed.symm
          exact hacyclic v (trans_gen_of_chain hchain hlast)

theorem Settled.trans_gen {done : V → Prop} (h : Settled edge done) (hv : done v)
    (hpath : TransGen edge v w) : done w := by
  induction hpath with
  | single hedge => exact h.closed _ _ hv hedge
  | tail _ hedge ih => exact h.closed _ _ ih hedge

/-- A vertex may be settled once all it depends on is. -/
theorem Settled.insert {done : V → Prop} (h : Settled edge done) (hv : ¬ done v)
    (hout : ∀ w, edge v w → done w) : Settled edge fun w => w = v ∨ done w where
  closed := by
    rintro u w (rfl | hu) hedge
    · exact .inr (hout w hedge)
    · exact .inr (h.closed u w hu hedge)
  acyclic := by
    rintro u (rfl | hu) hcycle
    · obtain ⟨w, hedge, hrest⟩ := TransGen.head'_iff.mp hcycle
      -- the vertex would be reached from one of its settled dependencies
      rcases Relation.reflTransGen_iff_eq_or_transGen.mp hrest with rfl | hpath
      · exact hv (hout _ hedge)
      · exact hv (h.trans_gen (hout w hedge) hpath)
    · exact h.acyclic u hu hcycle

/-- A vertex at the end of an order whose dependencies all stand in it. -/
theorem Before.append {order : List V} (h : Before edge order) (hv : ∀ w, edge v w → w ∈ order) :
    Before edge (order ++ [v]) := by
  intro front u back heq w hedge
  rcases List.eq_nil_or_concat back with rfl | ⟨back, last, rfl⟩
  · obtain ⟨rfl, hlast⟩ := List.append_inj' heq rfl
    obtain rfl : v = u := List.singleton_inj.mp hlast
    exact hv w hedge
  · have heq : order ++ [v] = (front ++ u :: back) ++ [last] := by simpa using heq
    exact h front u back (List.append_inj' heq rfl).1 w hedge

theorem Before.settled {order : List V} (h : Before edge order) :
    Settled edge fun v => v ∈ order := by
  induction order using List.reverseRecOn with
  | nil => exact ⟨by simp, by simp⟩
  | append_singleton order v ih =>
      have hrest : Before edge order := fun front u back heq =>
        h front u (back ++ [v]) (by simp [heq])
      have hout : ∀ w, edge v w → w ∈ order := h order v [] rfl
      have hsettled := ih hrest
      by_cases hv : v ∈ order
      · have hsame : ∀ u, u ∈ order ++ [v] ↔ u ∈ order := by
          intro u
          constructor
          · intro hu
            rcases List.mem_append.mp hu with hu | hu
            · exact hu
            · exact List.mem_singleton.mp hu ▸ hv
          · exact List.mem_append_left _
        simpa only [hsame] using hsettled
      · simpa only [List.mem_append, List.mem_singleton, or_comm] using hsettled.insert hv hout

/-- An order of all vertices that have dependencies rules out cycles. -/
theorem Before.acyclic {order : List V} (h : Before edge order)
    (hall : ∀ v w, edge v w → v ∈ order) : Acyclic edge := by
  intro v hcycle
  obtain ⟨w, hedge, -⟩ := TransGen.head'_iff.mp hcycle
  exact h.settled.acyclic v (hall v w hedge) hcycle

/-- Without a cycle, not every vertex of a list depends on one of the list. -/
theorem no_trap (hacyclic : Acyclic edge) {trap : List V}
    (htrap : ∀ v ∈ trap, ∃ w ∈ trap, edge v w) : trap = [] := by
  by_contra hne
  obtain ⟨start, hstart⟩ := List.exists_mem_of_ne_nil trap hne
  let earlier (u v : {v // v ∈ trap}) : Prop := TransGen edge v.1 u.1
  have : Finite {v // v ∈ trap} := (List.finite_toSet trap).to_subtype
  have : IsTrans {v // v ∈ trap} earlier := ⟨fun _ _ _ huv hvw => hvw.trans huv⟩
  have : Std.Irrefl earlier := ⟨fun v hcycle => hacyclic v.1 hcycle⟩
  obtain ⟨least, -, hleast⟩ :=
    (Finite.wellFounded_of_trans_of_irrefl earlier).has_min Set.univ ⟨⟨start, hstart⟩, trivial⟩
  obtain ⟨w, hw, hedge⟩ := htrap least.1 least.2
  exact hleast ⟨w, hw⟩ trivial (.single hedge)

end Graphs
