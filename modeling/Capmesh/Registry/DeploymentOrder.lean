import Capmesh.Registry.CycleReport

/-!
# The deployment order and the cycle report agree

`topological_sort` counts down, for every capability, the dependencies that do not stand in the
order yet. `deployment_order_agrees_iff` relates its result to the report of `detect_cycles`, which
a long chain of dependencies brings to the end of the interpreter's stack.
-/

namespace Capmesh

open Graphs

/-- `graph.get(node, [])` of `topological_sort`: what depends on a node. -/
def dependentsOf (edges : List (String × String)) (node : String) : List String :=
  (edges.filter (·.2 = node)).map (·.1)

/-- `sorted(texts)`. -/
def sortedTexts (texts : List String) : List String := texts.mergeSort fun a b => decide (a ≤ b)

/-- The variables of the loops of `topological_sort`. -/
structure Deployment where
  inDegree : String → Int
  queue : List String
  result : List String

/-- The body of the inner loop: a dependent has one dependency less to wait for. -/
def Deployment.decrement (st : Deployment) (neighbor : String) : Deployment :=
  let degree := st.inDegree neighbor - 1
  { st with
    inDegree := Function.update st.inDegree neighbor degree
    queue := if degree = 0 then st.queue ++ [neighbor] else st.queue }

/-- The inner loop. -/
def release : List String → Deployment → Deployment
  | [], st => st
  | neighbor :: rest, st => release rest (st.decrement neighbor)

/-- The outer loop, with at most `fuel` turns. -/
def deploy (edges : List (String × String)) : Nat → Deployment → Option (List String)
  | 0, st => if st.queue.isEmpty then some st.result else none
  | fuel + 1, st =>
      match st.queue with
      | [] => some st.result
      | node :: queue =>
          deploy edges fuel (release (sortedTexts (dependentsOf edges node))
            { st with queue, result := st.result ++ [node] })

/-- `topological_sort`, on the rows of the table in the order the query returns them. -/
def topologicalSort (fuel : Nat) (tenant : String) (rows : List DependencyRow) :
    Option (List String) :=
  let edges := tenantEdges tenant rows
  let inDegree := fun node => (edges.countP (·.1 = node) : Int)
  deploy edges fuel
    ⟨inDegree, sortedTexts ((graphNodes edges).filter (inDegree · = 0)), []⟩

section

variable {edges : List (String × String)} {st : Deployment} {node : String}

theorem sorted_perm (texts : List String) : (sortedTexts texts).Perm texts :=
  List.mergeSort_perm _ _

@[simp]
theorem decrement_self (st : Deployment) (v : String) :
    (st.decrement v).inDegree v = st.inDegree v - 1 := Function.update_self ..

theorem decrement_of_ne {v w : String} (h : v ≠ w) (st : Deployment) :
    (st.decrement w).inDegree v = st.inDegree v := Function.update_of_ne h ..

/-- The inner loop leaves the order alone. -/
@[simp]
theorem release_result (neighbors : List String) (st : Deployment) :
    (release neighbors st).result = st.result := by
  induction neighbors generalizing st with
  | nil => rfl
  | cons w neighbors ih => exact ih (st.decrement w)

/-- The inner loop takes from each degree as often as its node occurs, and puts those it brings to
zero in the queue, once each. -/
theorem release_spec {neighbors : List String}
    (hdegree : ∀ v, (neighbors.count v : Int) ≤ st.inDegree v) :
    (∀ v, (release neighbors st).inDegree v = st.inDegree v - neighbors.count v) ∧
    ∃ freed, (release neighbors st).queue = st.queue ++ freed ∧ freed.Nodup ∧
      ∀ v, v ∈ freed ↔ v ∈ neighbors ∧ st.inDegree v = neighbors.count v := by
  induction neighbors generalizing st with
  | nil => exact ⟨by simp [release], [], by simp [release], List.nodup_nil, by simp⟩
  | cons w neighbors ih =>
      have hw : ((neighbors.count w : Int)) + 1 ≤ st.inDegree w := by
        simpa using hdegree w
      have hother : ∀ v, v ≠ w → (w :: neighbors).count v = neighbors.count v := fun v hv => by
        rw [List.count_cons_of_ne hv.symm]
      have hown : (w :: neighbors).count w = neighbors.count w + 1 := List.count_cons_self
      have hrest : ∀ v, (neighbors.count v : Int) ≤ (st.decrement w).inDegree v := by
        intro v
        by_cases hv : v = w
        · subst hv
          rw [decrement_self]
          omega
        · rw [decrement_of_ne hv, ← hother v hv]
          exact hdegree v
      obtain ⟨hdegrees, freed, hqueue, hdistinct, hfreed⟩ := ih hrest
      refine ⟨fun v => ?_, ?_⟩
      · refine (hdegrees v).trans ?_
        by_cases hv : v = w
        · subst hv
          rw [decrement_self, hown]
          omega
        · rw [decrement_of_ne hv, hother v hv]
      · by_cases hzero : st.inDegree w - 1 = 0
        · -- it waited for this dependency only, so it does not occur again
          have hlast : w ∉ neighbors := fun hmem => by
            have := List.count_pos_iff.mpr hmem
            omega
          refine ⟨w :: freed, ?_, List.nodup_cons.mpr ⟨fun hmem => hlast ((hfreed w).mp hmem).1,
            hdistinct⟩, fun v => ?_⟩
          · refine hqueue.trans ?_
            rw [Deployment.decrement, if_pos hzero, List.append_assoc, List.singleton_append]
          · by_cases hv : v = w
            · subst hv
              have := List.count_eq_zero_of_not_mem hlast
              simp only [List.mem_cons, true_or, true_and, true_iff, hown]
              omega
            · rw [List.mem_cons, hfreed, decrement_of_ne hv, hother v hv, List.mem_cons]
              simp [hv]
        · refine ⟨freed, ?_, hdistinct, fun v => ?_⟩
          · refine hqueue.trans ?_
            rw [Deployment.decrement, if_neg hzero]
          · by_cases hv : v = w
            · subst hv
              rw [hfreed, decrement_self, hown]
              constructor
              · rintro ⟨hmem, hcount⟩
                exact ⟨List.mem_cons_self, by omega⟩
              · rintro ⟨-, hcount⟩
                refine ⟨List.count_pos_iff.mp ?_, by omega⟩
                omega
            · rw [hfreed, decrement_of_ne hv, hother v hv, List.mem_cons]
              simp [hv]

/-- How many dependencies of a node do not stand in an order. -/
def missing (edges : List (String × String)) (order : List String) (node : String) : Nat :=
  edges.countP fun edge => edge.1 = node && !order.contains edge.2

/-- What holds of the variables between two turns of the outer loop. -/
structure Deploying (edges : List (String × String)) (st : Deployment) : Prop where
  degree : ∀ v, st.inDegree v = missing edges st.result v
  distinct : (st.result ++ st.queue).Nodup
  ready : ∀ v, v ∈ st.result ++ st.queue ↔ v ∈ graphNodes edges ∧ st.inDegree v = 0
  before : Before (DependsOn edges) st.result

theorem missing_eq_zero_iff {order : List String} {v : String} :
    missing edges order v = 0 ↔ ∀ w, DependsOn edges v w → w ∈ order := by
  rw [missing, List.countP_eq_zero]
  constructor
  · intro h w hedge
    simpa using h (v, w) hedge
  · rintro h ⟨u, w⟩ hedge
    simp only [Bool.and_eq_true, decide_eq_true_eq, Bool.not_eq_true', not_and]
    rintro rfl
    simpa using h w hedge

theorem missing_cons (edge : String × String) (order : List String) (v : String) :
    missing (edge :: edges) order v =
      missing edges order v + if edge.1 = v ∧ edge.2 ∉ order then 1 else 0 := by
  rw [missing, List.countP_cons, ← missing]
  simp

theorem dependents_count_cons (edge : String × String) (v : String) :
    (dependentsOf (edge :: edges) node).count v =
      (dependentsOf edges node).count v + if edge.1 = v ∧ edge.2 = node then 1 else 0 := by
  by_cases hnode : edge.2 = node
  · simp [dependentsOf, hnode, List.count_cons]
  · simp [dependentsOf, hnode]

/-- Putting a node in the order fills one gap for each edge to it. -/
theorem missing_append {order : List String} (hnew : node ∉ order) (v : String) :
    missing edges order v =
      missing edges (order ++ [node]) v + (sortedTexts (dependentsOf edges node)).count v := by
  rw [(sorted_perm _).count_eq]
  induction edges with
  | nil => rfl
  | cons edge edges ih =>
      rw [missing_cons, missing_cons, dependents_count_cons, ih]
      by_cases hnode : edge.2 = node
      · simp only [hnode, hnew, List.mem_append, List.mem_singleton, or_true, not_true, and_false,
          if_false, not_false_iff, and_true]
        omega
      · simp only [hnode, List.mem_append, List.mem_singleton, or_false, and_false, if_false]
        omega

/-- A turn of the outer loop. -/
theorem Deploying.turn (h : Deploying edges st) {queue : List String}
    (hqueue : st.queue = node :: queue) :
    Deploying edges (release (sortedTexts (dependentsOf edges node))
      { st with queue, result := st.result ++ [node] }) := by
  have hready := (h.ready node).mp (by simp [hqueue])
  have hnew : node ∉ st.result := by
    have hdistinct := h.distinct
    rw [hqueue, List.nodup_append] at hdistinct
    exact fun hmem => hdistinct.2.2 node hmem node List.mem_cons_self rfl
  have hcount : ∀ v, missing edges st.result v = missing edges (st.result ++ [node]) v +
      (sortedTexts (dependentsOf edges node)).count v := missing_append hnew
  have hdegree := h.degree
  have hwaiting : ∀ v, ((sortedTexts (dependentsOf edges node)).count v : Int) ≤
      { st with queue, result := st.result ++ [node] : Deployment }.inDegree v := by
    intro v
    have := hdegree v
    have := hcount v
    simp only
    omega
  obtain ⟨hdegrees, freed, hfreedqueue, hfreednodup, hfreed⟩ :=
    release_spec hwaiting
  have hold : (st.result ++ [node]) ++ queue = st.result ++ st.queue := by simp [hqueue]
  have hall : (st.result ++ [node]) ++ (queue ++ freed) = (st.result ++ st.queue) ++ freed := by
    simp [hqueue]
  constructor
  · intro v
    have := hdegrees v
    have := hdegree v
    have := hcount v
    rw [release_result]
    simp only at *
    omega
  · rw [release_result, hfreedqueue, hall, List.nodup_append]
    refine ⟨h.distinct, hfreednodup, fun v hv w hw => ?_⟩
    rintro rfl
    have hzero := ((h.ready v).mp hv).2
    obtain ⟨hmem, hone⟩ := (hfreed v).mp hw
    have := List.count_pos_iff.mpr hmem
    simp only at hone
    omega
  · intro v
    rw [release_result, hfreedqueue, hall, List.mem_append, h.ready, hfreed, hdegrees]
    simp only
    have hdegree := hdegree v
    have hcount := hcount v
    constructor
    · rintro (⟨hmem, hzero⟩ | ⟨hmem, hone⟩)
      · exact ⟨hmem, by omega⟩
      · have hdependent := (sorted_perm _).mem_iff.mp hmem
        obtain ⟨edge, hedge, rfl⟩ := List.mem_map.mp hdependent
        exact ⟨mem_graph_nodes.mpr ⟨edge.2, .inl (List.mem_filter.mp hedge).1⟩, by omega⟩
    · rintro ⟨hmem, hzero⟩
      by_cases hfree : v ∈ sortedTexts (dependentsOf edges node)
      · exact .inr ⟨hfree, by omega⟩
      · have := List.count_eq_zero_of_not_mem hfree
        exact .inl ⟨hmem, by omega⟩
  · rw [release_result]
    refine h.before.append (missing_eq_zero_iff.mp ?_)
    have := hdegree node
    omega

/-- The order and the queue hold no more nodes than there are. -/
theorem Deploying.length_le (h : Deploying edges st) :
    st.result.length + st.queue.length ≤ (graphNodes edges).length := by
  rw [← List.length_append]
  exact h.distinct.length_le_of_subset fun v hv => ((h.ready v).mp hv).1

/-- The outer loop ends after as many turns as nodes are left, with an empty queue. -/
theorem deploy_spec {fuel : Nat} (h : Deploying edges st)
    (hfuel : (graphNodes edges).length ≤ st.result.length + fuel) :
    ∃ last, deploy edges fuel st = some last.result ∧ Deploying edges last ∧ last.queue = [] := by
  induction fuel generalizing st with
  | zero =>
      have hempty : st.queue = [] := by
        have := h.length_le
        exact List.length_eq_zero_iff.mp (by omega)
      exact ⟨st, by simp [deploy, hempty], h, hempty⟩
  | succ fuel ih =>
      cases hqueue : st.queue with
      | nil => exact ⟨st, by simp [deploy, hqueue], h, hqueue⟩
      | cons node queue =>
          obtain ⟨last, hlast, hdone⟩ := ih (h.turn hqueue) (by
            rw [release_result, List.length_append, List.length_singleton]
            omega)
          exact ⟨last, by simp only [deploy, hqueue, hlast], hdone⟩

end

/-- With as many turns as there are nodes the deployment order is found. Its nodes are distinct and
come after all they depend on, and it holds every node exactly if the graph has no cycle. -/
theorem topological_sort_spec {tenant : String} {rows : List DependencyRow} {fuel : Nat}
    (hfuel : (graphNodes (tenantEdges tenant rows)).length ≤ fuel) :
    ∃ order, topologicalSort fuel tenant rows = some order ∧ order.Nodup ∧
      (∀ v ∈ order, v ∈ graphNodes (tenantEdges tenant rows)) ∧
      Before (DependsOn (tenantEdges tenant rows)) order ∧
      ((∀ v ∈ graphNodes (tenantEdges tenant rows), v ∈ order) ↔
        Acyclic (DependsOn (tenantEdges tenant rows))) := by
  let edges := tenantEdges tenant rows
  let inDegree : String → Int := fun node => edges.countP (·.1 = node)
  let start : Deployment := ⟨inDegree, sortedTexts ((graphNodes edges).filter (inDegree · = 0)), []⟩
  have hstart : Deploying edges start :=
    { degree := fun v => by simp [start, inDegree, missing]
      distinct := by
        rw [List.nil_append, (sorted_perm _).nodup_iff]
        exact List.Nodup.filter _ (List.nodup_dedup _)
      ready := fun v => by
        rw [List.nil_append, (sorted_perm _).mem_iff, List.mem_filter, decide_eq_true_iff]
      before := fun front v back heq => by simp [start] at heq }
  obtain ⟨last, hlast, hdone, hempty⟩ := deploy_spec hstart (by simpa [start] using hfuel)
  have hin : ∀ v, v ∈ last.result ↔ v ∈ graphNodes edges ∧ missing edges last.result v = 0 := by
    intro v
    have hready := hdone.ready v
    rw [hempty, List.append_nil, hdone.degree] at hready
    simpa using hready
  refine ⟨last.result, hlast, ?_, fun v hv => ((hin v).mp hv).1, hdone.before, fun hall => ?_,
    fun hacyclic => ?_⟩
  · have hdistinct := hdone.distinct
    rwa [hempty, List.append_nil] at hdistinct
  · exact hdone.before.acyclic fun v w hedge => hall v (mem_graph_nodes.mpr ⟨w, .inl hedge⟩)
  · -- a node outside the order depends on another one outside it
    have hnone : (graphNodes edges).filter (· ∉ last.result) = [] := by
      refine no_trap hacyclic fun v hv => ?_
      obtain ⟨hnode, hout⟩ := List.mem_filter.mp hv
      have hmissing : missing edges last.result v ≠ 0 := fun hzero =>
        of_decide_eq_true hout ((hin v).mpr ⟨hnode, hzero⟩)
      rw [Ne, missing_eq_zero_iff] at hmissing
      push Not at hmissing
      obtain ⟨w, hedge, hw⟩ := hmissing
      exact ⟨w, List.mem_filter.mpr ⟨mem_graph_nodes.mpr ⟨v, .inr hedge⟩, decide_eq_true hw⟩, hedge⟩
    intro v hv
    have := List.filter_eq_nil_iff.mp hnone v hv
    simpa using this

/-- More turns than the outer loop takes change nothing. -/
theorem deploy_more {edges : List (String × String)} {fuel more : Nat} {st : Deployment}
    {order : List String} (hmore : fuel ≤ more) (h : deploy edges fuel st = some order) :
    deploy edges more st = some order := by
  induction fuel generalizing st more with
  | zero =>
      unfold deploy at h
      split at h
      · rename_i hempty
        cases more with
        | zero => rwa [deploy, if_pos hempty]
        | succ more => rwa [deploy, List.isEmpty_iff.mp hempty]
      · cases h
  | succ fuel ih =>
      obtain ⟨more, rfl⟩ := Nat.exists_eq_add_of_le' (Nat.zero_lt_of_lt hmore)
      unfold deploy at h ⊢
      cases hqueue : st.queue with
      | nil => rwa [hqueue] at h
      | cons node queue =>
          rw [hqueue] at h
          exact ih (Nat.le_of_succ_le_succ hmore) h

/-- The deployment order and the cycle report agree: both are made, each node of the order comes
after all it depends on, the order holds every node exactly if no cycle is reported, and each
reported cycle is a closed walk along edges. -/
def OrderAgrees (frames : Nat) (tenant : String) (rows : List DependencyRow) : Prop :=
  ∃ order cycles,
    (∀ fuel, (graphNodes (tenantEdges tenant rows)).length ≤ fuel →
      topologicalSort fuel tenant rows = some order) ∧
    detectCycles frames tenant rows = .ok cycles ∧
    order.Nodup ∧ (∀ v ∈ order, v ∈ graphNodes (tenantEdges tenant rows)) ∧
    Before (DependsOn (tenantEdges tenant rows)) order ∧
    ((∀ v ∈ graphNodes (tenantEdges tenant rows), v ∈ order) ↔ cycles = []) ∧
    ∀ cycle ∈ cycles, ClosedWalk (DependsOn (tenantEdges tenant rows)) cycle

/-- The deployment order and the cycle report agree, on any rows of the table in any order, exactly
when no first path among the dependencies has more nodes than `dfs` has frames. -/
theorem deployment_order_agrees_iff (frames : Nat) (tenant : String) (rows : List DependencyRow) :
    OrderAgrees frames tenant rows ↔
      ¬ TooDeep (tenantEdges tenant rows) frames [] (dependentNodes (tenantEdges tenant rows)) := by
  obtain ⟨hraises, hreport⟩ := detect_cycles_spec frames tenant rows
  rw [← hraises]
  constructor
  · rintro ⟨order, cycles, -, hcycles, -⟩ ⟨failure, hfailure⟩
    cases hcycles.symm.trans hfailure
  · intro hreturns
    obtain ⟨order, horder, hdistinct, hnodes, hbefore, hall⟩ := topological_sort_spec (le_refl
      (graphNodes (tenantEdges tenant rows)).length)
    cases hcycles : detectCycles frames tenant rows with
    | error failure => exact absurd ⟨failure, hcycles⟩ hreturns
    | ok cycles =>
        obtain ⟨hclosed, hnone⟩ := hreport cycles hcycles
        exact ⟨order, cycles, fun fuel hfuel => deploy_more hfuel horder, hcycles, hdistinct,
          hnodes, hbefore, hall.trans hnone.symm, hclosed⟩

/-- The URI of a capability in a chain. -/
def chainUri (i : Nat) : String := String.ofList (List.replicate (i + 1) 'c')

/-- A chain of dependencies, each capability on the one after it. -/
def chainRows (count : Nat) : List DependencyRow :=
  (List.range count).map fun i => ⟨chainUri i, "asg", chainUri i, chainUri (i + 1), "*", none⟩

theorem chain_uri_inj {i j : Nat} : chainUri i = chainUri j ↔ i = j := by
  constructor
  · intro h
    have hlength := congrArg (fun text : String => text.toList.length) h
    simpa [chainUri] using hlength
  · rintro rfl
    rfl

theorem chain_edges (count : Nat) : tenantEdges "asg" (chainRows count) =
    (List.range count).map fun i => (chainUri i, chainUri (i + 1)) := by
  simp [tenantEdges, chainRows, List.filter_map, Function.comp_def]

theorem chain_dependencies {count i : Nat} (hi : i < count) :
    dependenciesOf (tenantEdges "asg" (chainRows count)) (chainUri i) = [chainUri (i + 1)] := by
  have hone : (List.range count).filter (fun j => decide (chainUri j = chainUri i)) = [i] := by
    simp only [chain_uri_inj]
    rw [List.filter_eq, List.count_eq_one_of_mem List.nodup_range (List.mem_range.mpr hi)]
    rfl
  rw [chain_edges, dependenciesOf, List.filter_map, List.map_map]
  exact congrArg (List.map _) hone

/-- A search follows a chain to its end. -/
theorem chain_first_path {count i length : Nat} {seen : String → Prop}
    (hlength : i + length ≤ count + 1) (hseen : ∀ j, i ≤ j → ¬ seen (chainUri j)) :
    FirstPath (dependenciesOf (tenantEdges "asg" (chainRows count))) seen [chainUri i]
      ((List.range' i length).map chainUri) := by
  induction length generalizing i seen with
  | zero => exact .nil
  | succ length ih =>
      refine .head (hseen i (le_refl i)) ?_
      cases length with
      | zero => exact .nil
      | succ length =>
          rw [chain_dependencies (by omega)]
          refine ih (by omega) fun j hj => ?_
          rintro (hsame | hbefore)
          · have := chain_uri_inj.mp hsame
            omega
          · exact hseen j (by omega) hbefore

theorem chain_too_deep (frames : Nat) :
    TooDeep (tenantEdges "asg" (chainRows (frames + 1))) frames []
      (dependentNodes (tenantEdges "asg" (chainRows (frames + 1)))) := by
  have hpath : FirstPath (dependenciesOf (tenantEdges "asg" (chainRows (frames + 1))))
      (· ∈ ([] : List String)) [chainUri 0] ((List.range' 0 (frames + 1)).map chainUri) :=
    chain_first_path (by omega) fun j _ => List.not_mem_nil
  refine ⟨_, ?_, show frames < ((List.range' 0 (frames + 1)).map chainUri).length by simp⟩
  have hstart : ∃ rest, dependentNodes (tenantEdges "asg" (chainRows (frames + 1))) =
      chainUri 0 :: rest := by
    rw [dependentNodes, chain_edges, List.map_map, List.range_succ_eq_map, List.map_cons,
      List.eraseDups_cons]
    exact ⟨_, rfl⟩
  obtain ⟨rest, hrest⟩ := hstart
  rw [hrest]
  exact first_path_cons_iff.mpr (.inl hpath)

/-- The default of `sys.getrecursionlimit()`, which counts all frames of the interpreter. -/
def defaultRecursionLimit : Nat := 1000

/-- The report of a chain of 1001 dependencies raises. -/
theorem deployment_order_agrees_counterexample :
    ¬ ∀ (tenant : String) (rows : List DependencyRow),
      OrderAgrees defaultRecursionLimit tenant rows := fun hclaim =>
  (deployment_order_agrees_iff _ _ _).mp (hclaim "asg" (chainRows 1001))
    (chain_too_deep defaultRecursionLimit)

end Capmesh
