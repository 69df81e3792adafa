import Capmesh.Graphs.Acyclic
import Capmesh.Graphs.FirstPath
import Capmesh.Model.Platform
import Capmesh.Registry.Records

/-!
# The cycle report of the dependency graph

`detect_cycles`: a depth-first search that carries one set of visited nodes, one stack and one path
through all its calls. Every node of a path takes a frame of the interpreter's stack. `dfs_spec` is
what a call that returns does, from any state the search can reach, and `dfs_deep` says which
calls run out of frames.
-/

namespace Capmesh

open Graphs

/-- The edges of a tenant, in the order of the rows. -/
def tenantEdges (tenant : String) (rows : List DependencyRow) : List (String × String) :=
  (rows.filter (·.tenantId = tenant)).map fun row => (row.capabilityUri, row.dependsOnUri)

/-- Whether one capability depends on another. -/
def DependsOn (edges : List (String × String)) (uri dependsOn : String) : Prop :=
  (uri, dependsOn) ∈ edges

/-- The set of nodes of a list of edges, `all_nodes` of `topological_sort`. -/
def graphNodes (edges : List (String × String)) : List String :=
  (edges.flatMap fun edge => [edge.1, edge.2]).dedup

/-- `graph.get(node, [])` of `detect_cycles`: what a node depends on. -/
def dependenciesOf (edges : List (String × String)) (node : String) : List String :=
  (edges.filter (·.1 = node)).map (·.2)

/-- The variables the calls of `dfs` share. -/
structure CycleSearch where
  visited : List String
  recStack : List String
  path : List String
  cycles : List (List String)

/-- `path[path.index(neighbor):] + [neighbor]`; the neighbor is on the path. -/
def cycleAt (path : List String) (neighbor : String) : List String :=
  path.drop (path.idxOf neighbor) ++ [neighbor]

namespace CycleSearch

/-- The first three statements of `dfs`. -/
def enter (node : String) (st : CycleSearch) : CycleSearch :=
  { st with
    visited := node :: st.visited
    recStack := node :: st.recStack
    path := st.path ++ [node] }

/-- The last two statements of `dfs`. -/
def leave (node : String) (st : CycleSearch) : CycleSearch :=
  { st with
    path := st.path.dropLast
    recStack := st.recStack.filter (· ≠ node) }

/-- `cycles.append(cycle)`. -/
def report (cycle : List String) (st : CycleSearch) : CycleSearch :=
  { st with cycles := st.cycles ++ [cycle] }

end CycleSearch

/-- The loop of `dfs` over the neighbors of a node, with the recursive call as `visit`. -/
def visitNeighbors (visit : String → CycleSearch → Except Failure CycleSearch) :
    List String → CycleSearch → Except Failure CycleSearch
  | [], st => .ok st
  | neighbor :: rest, st =>
      if neighbor ∉ st.visited then (visit neighbor st).bind (visitNeighbors visit rest)
      else if neighbor ∈ st.recStack then
        visitNeighbors visit rest (st.report (cycleAt st.path neighbor))
      else visitNeighbors visit rest st

/-- `dfs`, with as many calls inside each other as there are frames left. One call more is a
`RecursionError`. -/
def dfs (edges : List (String × String)) : Nat → String → CycleSearch → Except Failure CycleSearch
  | 0, _, _ => .error (.runtime "maximum recursion depth exceeded")
  | frames + 1, node, st =>
      (visitNeighbors (dfs edges frames) (dependenciesOf edges node) (st.enter node)).map
        (·.leave node)

/-- The last loop of `detect_cycles`, over the nodes that have dependencies. -/
def searchAll (visit : String → CycleSearch → Except Failure CycleSearch) :
    List String → CycleSearch → Except Failure CycleSearch
  | [], st => .ok st
  | node :: rest, st =>
      if node ∉ st.visited then (visit node st).bind (searchAll visit rest)
      else searchAll visit rest st

/-- The nodes the last loop of `detect_cycles` goes through, in the order of their first rows. -/
def dependentNodes (edges : List (String × String)) : List String := (edges.map (·.1)).eraseDups

/-- `detect_cycles`, on the rows of the table in the order the query returns them. The frames are
those that the interpreter's recursion limit leaves to the calls of `dfs`. -/
def detectCycles (frames : Nat) (tenant : String) (rows : List DependencyRow) :
    Except Failure (List (List String)) :=
  let edges := tenantEdges tenant rows
  (searchAll (dfs edges frames) (dependentNodes edges) ⟨[], [], [], []⟩).map (·.cycles)

section

variable {edges : List (String × String)} {st next : CycleSearch} {node : String}
variable {visit : String → CycleSearch → Except Failure CycleSearch}

theorem mem_dependencies_of {dependsOn : String} :
    dependsOn ∈ dependenciesOf edges node ↔ DependsOn edges node dependsOn := by
  simp [dependenciesOf, DependsOn]

theorem mem_graph_nodes : node ∈ graphNodes edges ↔
    ∃ other, DependsOn edges node other ∨ DependsOn edges other node := by
  simp only [graphNodes, List.mem_dedup, List.mem_flatMap, DependsOn]
  constructor
  · rintro ⟨⟨uri, dependsOn⟩, hedge, hnode⟩
    rcases List.mem_pair.mp hnode with rfl | rfl
    · exact ⟨_, .inl hedge⟩
    · exact ⟨_, .inr hedge⟩
  · rintro ⟨other, hedge | hedge⟩
    · exact ⟨_, hedge, by simp⟩
    · exact ⟨_, hedge, by simp⟩

/-- What holds of the shared variables between any two statements of the search. The finished nodes
are the visited ones off the path; they are settled as long as no cycle was reported. -/
structure Searching (edges : List (String × String)) (st : CycleSearch) : Prop where
  distinct : st.path.Nodup
  stack : ∀ v, v ∈ st.recStack ↔ v ∈ st.path
  seen : ∀ v ∈ st.path, v ∈ st.visited
  walk : st.path.IsChain (DependsOn edges)
  reported : ∀ cycle ∈ st.cycles, ClosedWalk (DependsOn edges) cycle
  settled : st.cycles = [] → Graphs.Settled (DependsOn edges) fun v => v ∈ st.visited ∧ v ∉ st.path

/-- What a call changes: it visits nodes and reports cycles. -/
structure Explores (st next : CycleSearch) : Prop where
  path : next.path = st.path
  visited : ∀ v ∈ st.visited, v ∈ next.visited
  cycles : next.cycles = [] → st.cycles = []

theorem Explores.refl (st : CycleSearch) : Explores st st := ⟨rfl, fun _ h => h, fun h => h⟩

theorem Explores.trans {last : CycleSearch} (h : Explores st next) (hrest : Explores next last) :
    Explores st last :=
  ⟨hrest.path.trans h.path, fun v hv => hrest.visited v (h.visited v hv),
    fun hnone => h.cycles (hrest.cycles hnone)⟩

theorem cycle_at_closed {path : List String} (hwalk : path.IsChain (DependsOn edges))
    {neighbor : String} (hmem : neighbor ∈ path)
    (hedge : ∀ last ∈ path.getLast?, DependsOn edges last neighbor) :
    ClosedWalk (DependsOn edges) (cycleAt path neighbor) := by
  have hlt : path.idxOf neighbor < path.length := List.idxOf_lt_length_of_mem hmem
  have hdrop : path.drop (path.idxOf neighbor) =
      neighbor :: path.drop (path.idxOf neighbor + 1) := by
    rw [List.drop_eq_getElem_cons hlt, List.getElem_idxOf]
  refine ⟨?_, ?_, ?_⟩
  · refine List.isChain_append.mpr
      ⟨hwalk.drop _, List.isChain_singleton _, fun last hlast v hv => ?_⟩
    obtain rfl : neighbor = v := by simpa using hv
    rw [List.getLast?_drop, if_neg (by omega)] at hlast
    exact hedge last hlast
  · rw [cycleAt, hdrop]
    simp
  · rw [cycleAt, List.getLast?_concat, hdrop, List.cons_append, List.head?_cons]

theorem Searching.report (h : Searching edges st) {neighbor : String} (hmem : neighbor ∈ st.path)
    (hedge : ∀ last ∈ st.path.getLast?, DependsOn edges last neighbor) :
    Searching edges (st.report (cycleAt st.path neighbor)) where
  distinct := h.distinct
  stack := h.stack
  seen := h.seen
  walk := h.walk
  reported := by
    intro cycle hcycle
    rcases List.mem_append.mp hcycle with hcycle | hcycle
    · exact h.reported cycle hcycle
    · rw [List.mem_singleton.mp hcycle]
      exact cycle_at_closed h.walk hmem hedge
  settled hnone := by simp [CycleSearch.report] at hnone

/-- A call begins: its node is put at the end of the path. -/
theorem Searching.enter (h : Searching edges st) (hnew : node ∉ st.visited)
    (hedge : ∀ last ∈ st.path.getLast?, DependsOn edges last node) :
    Searching edges (st.enter node) where
  distinct := by
    have hoff : node ∉ st.path := fun hmem => hnew (h.seen node hmem)
    simp only [CycleSearch.enter, List.nodup_append, List.nodup_singleton, List.mem_singleton]
    exact ⟨h.distinct, trivial, fun v hv w hw => by
      rintro rfl
      exact hoff (hw ▸ hv)⟩
  stack v := by
    simp only [CycleSearch.enter, List.mem_cons, List.mem_append, List.not_mem_nil, or_false,
      h.stack v]
    exact or_comm
  seen v hv := by
    rcases List.mem_append.mp hv with hv | hv
    · exact List.mem_cons_of_mem _ (h.seen v hv)
    · rw [List.mem_singleton.mp hv]
      exact List.mem_cons_self
  walk := by
    refine List.isChain_append.mpr ⟨h.walk, List.isChain_singleton _, fun last hlast v hv => ?_⟩
    obtain rfl : node = v := by simpa using hv
    exact hedge last hlast
  reported := h.reported
  settled hnone := by
    have hsettled := h.settled hnone
    have hsame : ∀ v, (v ∈ (st.enter node).visited ∧ v ∉ (st.enter node).path) ↔
        (v ∈ st.visited ∧ v ∉ st.path) := by
      intro v
      simp only [CycleSearch.enter, List.mem_cons, List.mem_append, List.not_mem_nil, or_false]
      by_cases hv : v = node
      · simp [hv, hnew]
      · simp [hv]
    simpa only [hsame] using hsettled

theorem Searching.leave (h : Searching edges st) {path : List String}
    (hpath : st.path = path ++ [node])
    (hdone : st.cycles = [] → ∀ w, DependsOn edges node w → w ∈ st.visited ∧ w ∉ st.path) :
    Searching edges (st.leave node) := by
  have hoff : node ∉ path := by
    have hdistinct := h.distinct
    rw [hpath, List.nodup_append] at hdistinct
    exact fun hmem => hdistinct.2.2 node hmem node (List.mem_singleton.mpr rfl) rfl
  have hleft : (st.leave node).path = path := by simp [CycleSearch.leave, hpath]
  have hon : ∀ v, v ∈ st.path ↔ v ∈ path ∨ v = node := by simp [hpath]
  constructor
  · rw [hleft]
    exact (List.nodup_append.mp (hpath ▸ h.distinct)).1
  · intro v
    rw [hleft, CycleSearch.leave, List.mem_filter, h.stack, hon]
    by_cases hv : v = node
    · simp [hv, hoff]
    · simp [hv]
  · intro v hv
    rw [hleft] at hv
    exact h.seen v ((hon v).mpr (.inl hv))
  · rw [hleft]
    exact (List.isChain_append.mp (hpath ▸ h.walk)).1
  · exact h.reported
  · intro hnone
    have hinsert := (h.settled hnone).insert (v := node)
      (fun hnode => hnode.2 ((hon node).mpr (.inr rfl))) (hdone hnone)
    have hsame : ∀ v, (v = node ∨ v ∈ st.visited ∧ v ∉ st.path) ↔
        (v ∈ (st.leave node).visited ∧ v ∉ (st.leave node).path) := by
      intro v
      rw [hleft, hon]
      by_cases hv : v = node
      · have hseen := h.seen node ((hon node).mpr (.inr rfl))
        simp [hv, hoff, CycleSearch.leave, hseen]
      · simp [hv, CycleSearch.leave]
    simpa only [hsame] using hinsert

/-- What a call on a node not yet visited does when it returns. -/
def VisitSpec (edges : List (String × String))
    (visit : String → CycleSearch → Except Failure CycleSearch) : Prop :=
  ∀ node st next, Searching edges st → node ∉ st.visited →
    (∀ last ∈ st.path.getLast?, DependsOn edges last node) → visit node st = .ok next →
    Searching edges next ∧ Explores st next ∧ node ∈ next.visited

/-- The loop over the neighbors ends with each of them visited, and finished unless a cycle was
reported. -/
theorem visit_neighbors_spec (hvisit : VisitSpec edges visit) {neighbors : List String}
    (hst : Searching edges st)
    (hedge : ∀ w ∈ neighbors, ∀ last ∈ st.path.getLast?, DependsOn edges last w)
    (h : visitNeighbors visit neighbors st = .ok next) :
    Searching edges next ∧ Explores st next ∧
      (next.cycles = [] → ∀ w ∈ neighbors, w ∈ next.visited ∧ w ∉ next.path) := by
  induction neighbors generalizing st with
  | nil =>
      cases h
      exact ⟨hst, .refl _, by simp⟩
  | cons w neighbors ih =>
      obtain ⟨hwedge, hrestedge⟩ := List.forall_mem_cons.mp hedge
      unfold visitNeighbors at h
      split at h
      · rename_i hnew
        obtain ⟨mid, hmid, h⟩ := bind_eq_ok h
        obtain ⟨hsearching, hexplores, hseen⟩ := hvisit w st mid hst hnew hwedge hmid
        obtain ⟨hsearching, hfinal, hdone⟩ := ih hsearching (by rwa [hexplores.path]) h
        refine ⟨hsearching, hexplores.trans hfinal,
          fun hnone => List.forall_mem_cons.mpr ⟨?_, hdone hnone⟩⟩
        -- a node that was not visited is not on the path
        refine ⟨hfinal.visited w hseen, fun hon => hnew (hst.seen w ?_)⟩
        rwa [hfinal.path, hexplores.path] at hon
      · rename_i hold
        have hseen : w ∈ st.visited := Decidable.not_not.mp hold
        split at h
        · rename_i hstack
          obtain ⟨hsearching, hfinal, hdone⟩ :=
            ih (hst.report ((hst.stack w).mp hstack) hwedge) hrestedge h
          have hreported : next.cycles ≠ [] := fun hnone => by
            have := hfinal.cycles hnone
            simp [CycleSearch.report] at this
          exact ⟨hsearching, ⟨hfinal.path, hfinal.visited, fun hnone => absurd hnone hreported⟩,
            fun hnone => absurd hnone hreported⟩
        · rename_i hstack
          obtain ⟨hsearching, hfinal, hdone⟩ := ih hst hrestedge h
          refine ⟨hsearching, hfinal,
            fun hnone => List.forall_mem_cons.mpr ⟨⟨hfinal.visited w hseen, ?_⟩, hdone hnone⟩⟩
          rw [hfinal.path, ← hst.stack]
          exact hstack

/-- What a call of `dfs` does when it returns. -/
theorem dfs_spec (frames : Nat) : VisitSpec edges (dfs edges frames) := by
  induction frames with
  | zero => intro node st next hst hnew hedge h; cases h
  | succ frames ih =>
      intro node st next hst hnew hedge h
      obtain ⟨last, hlast, rfl⟩ := map_eq_ok h
      obtain ⟨hsearching, hexplores, hdone⟩ := visit_neighbors_spec ih (hst.enter hnew hedge)
        (by simpa [CycleSearch.enter] using fun w hw => mem_dependencies_of.mp hw) hlast
      have hpath : last.path = st.path ++ [node] := hexplores.path
      refine ⟨hsearching.leave hpath fun hnone w hw =>
        hdone hnone w (mem_dependencies_of.mpr hw), ⟨?_, fun v hv => ?_, hexplores.cycles⟩, ?_⟩
      · simp [CycleSearch.leave, hpath]
      · exact hexplores.visited v (List.mem_cons_of_mem _ hv)
      · exact hexplores.visited node List.mem_cons_self

/-- The last loop ends with all its nodes visited and the path empty. -/
theorem search_all_spec (hvisit : VisitSpec edges visit) {starts : List String}
    (hst : Searching edges st)
    (hpath : st.path = []) (h : searchAll visit starts st = .ok next) :
    Searching edges next ∧ Explores st next ∧ ∀ v ∈ starts, v ∈ next.visited := by
  induction starts generalizing st with
  | nil =>
      cases h
      exact ⟨hst, .refl _, by simp⟩
  | cons v starts ih =>
      unfold searchAll at h
      split at h
      · rename_i hnew
        obtain ⟨mid, hmid, h⟩ := bind_eq_ok h
        obtain ⟨hsearching, hexplores, hseen⟩ := hvisit v st mid hst hnew (by simp [hpath]) hmid
        obtain ⟨hsearching, hfinal, hall⟩ := ih hsearching (hexplores.path.trans hpath) h
        exact ⟨hsearching, hexplores.trans hfinal,
          List.forall_mem_cons.mpr ⟨hfinal.visited v hseen, hall⟩⟩
      · rename_i hold
        obtain ⟨hsearching, hfinal, hall⟩ := ih hst hpath h
        exact ⟨hsearching, hfinal,
          List.forall_mem_cons.mpr ⟨hfinal.visited v (Decidable.not_not.mp hold), hall⟩⟩

/-- A loop over nodes that calls `visit` on those not visited. -/
structure LoopsOver (visit : String → CycleSearch → Except Failure CycleSearch)
    (loop : List String → CycleSearch → Except Failure CycleSearch) : Prop where
  ends : ∀ st, loop [] st = .ok st
  enters : ∀ node rest st, node ∉ st.visited →
    loop (node :: rest) st = (visit node st).bind (loop rest)
  passes : ∀ node rest st, node ∈ st.visited → ∃ next : CycleSearch, next.visited = st.visited ∧
    loop (node :: rest) st = loop rest next

theorem loops_neighbors (visit : String → CycleSearch → Except Failure CycleSearch) :
    LoopsOver visit (visitNeighbors visit) where
  ends _ := rfl
  enters node rest st hnew := by rw [visitNeighbors, if_pos hnew]
  passes node rest st hold := by
    rw [visitNeighbors, if_neg (not_not.mpr hold)]
    split
    · exact ⟨st.report _, rfl, rfl⟩
    · exact ⟨st, rfl, rfl⟩

theorem loops_all (visit : String → CycleSearch → Except Failure CycleSearch) :
    LoopsOver visit (searchAll visit) where
  ends _ := rfl
  enters node rest st hnew := by rw [searchAll, if_pos hnew]
  passes node rest st hold := ⟨st, rfl, by rw [searchAll, if_neg (not_not.mpr hold)]⟩

/-- Among some candidates there is a first path of more nodes than frames. -/
def TooDeep (edges : List (String × String)) (frames : Nat) (visited candidates : List String) :
    Prop :=
  ∃ path, FirstPath (dependenciesOf edges) (· ∈ visited) candidates path ∧ frames < path.length

/-- What a call on a node not yet visited has visited when it returns, and when it does not. -/
structure VisitDeep (edges : List (String × String)) (frames : Nat)
    (visit : String → CycleSearch → Except Failure CycleSearch) : Prop where
  visited : ∀ node st next, node ∉ st.visited → visit node st = .ok next → ∀ v,
    v ∈ next.visited ↔ SeenPast (dependenciesOf edges) (· ∈ st.visited) node v
  raises : ∀ node st, node ∉ st.visited →
    ((∃ failure, visit node st = .error failure) ↔ TooDeep edges frames st.visited [node])

theorem loop_deep {frames : Nat} {loop : List String → CycleSearch → Except Failure CycleSearch}
    (hloop : LoopsOver visit loop)
    (hvisit : VisitDeep edges frames visit) (candidates : List String) (st : CycleSearch) :
    (∀ next, loop candidates st = .ok next → ∀ v, v ∈ next.visited ↔ v ∈ st.visited ∨
      ∃ u ∈ candidates, ReachedOff (dependenciesOf edges) (· ∈ st.visited) u v) ∧
    ((∃ failure, loop candidates st = .error failure) ↔
      TooDeep edges frames st.visited candidates) := by
  induction candidates generalizing st with
  | nil => simp [hloop.ends, TooDeep]
  | cons node rest ih =>
      by_cases hold : node ∈ st.visited
      · obtain ⟨same, hsame, hnext⟩ := hloop.passes node rest st hold
        obtain ⟨hvisited, hraises⟩ := ih same
        have hnone : ∀ v, ¬ ReachedOff (dependenciesOf edges) (· ∈ st.visited) node v :=
          fun v hreached => hreached.1 hold
        simp only [hsame] at hvisited hraises
        simp only [hnext, hraises, TooDeep, first_path_of_seen hold, List.exists_mem_cons_iff,
          hnone, false_or]
        exact ⟨hvisited, trivial⟩
      · rw [hloop.enters node rest st hold]
        have hsplit : TooDeep edges frames st.visited (node :: rest) ↔
            TooDeep edges frames st.visited [node] ∨ ∃ path, FirstPath (dependenciesOf edges)
              (SeenPast (dependenciesOf edges) (· ∈ st.visited) node) rest path ∧
                frames < path.length := by
          unfold TooDeep
          rw [← exists_or]
          refine exists_congr fun path => ?_
          rw [first_path_cons_iff, or_and_right]
        have hcall := hvisit.raises node st hold
        cases hmid : visit node st with
        | error failure =>
            have hdeep := hcall.mp ⟨failure, hmid⟩
            exact ⟨fun next h => (by cases h), fun _ => hsplit.mpr (.inl hdeep),
              fun _ => ⟨failure, rfl⟩⟩
        | ok mid =>
            have hshallow : ¬ TooDeep edges frames st.visited [node] := by
              rw [← hcall, hmid]
              rintro ⟨failure, h⟩
              cases h
            have hseen : (· ∈ mid.visited) =
                SeenPast (dependenciesOf edges) (· ∈ st.visited) node :=
              funext fun v => propext (hvisit.visited node st mid hold hmid v)
            obtain ⟨hvisited, hraises⟩ := ih mid
            simp only [hseen] at hvisited
            refine ⟨fun next h v => ?_, ?_⟩
            · -- what the rest reaches off the first candidate's part, or in it
              have hpast : ∀ u, ReachedOff (dependenciesOf edges)
                  (SeenPast (dependenciesOf edges) (· ∈ st.visited) node) u v →
                    ReachedOff (dependenciesOf edges) (· ∈ st.visited) u v :=
                fun u hreached => hreached.mono fun x hx => .inl hx
              rw [hvisited next h v, List.exists_mem_cons_iff, ← or_assoc]
              constructor
              · rintro (hmem | ⟨u, hu, hreached⟩)
                · exact .inl hmem
                · exact .inr ⟨u, hu, hpast u hreached⟩
              · rintro (hmem | ⟨u, hu, hreached⟩)
                · exact .inl hmem
                · rcases seen_past_or_iff.mpr (.inr hreached) with hmem | hreached
                  · exact .inl hmem
                  · exact .inr ⟨u, hu, hreached⟩
            · rw [hsplit, or_iff_right hshallow]
              unfold TooDeep at hraises
              rw [hseen] at hraises
              exact hraises

/-- A call visits what its node reaches, and does not return where that takes too many frames. -/
theorem dfs_deep (frames : Nat) : VisitDeep edges frames (dfs edges frames) := by
  induction frames with
  | zero =>
      refine ⟨fun node st next hnew h => (by cases h), fun node st hnew => ?_⟩
      exact ⟨fun _ => ⟨[node], .head hnew .nil, Nat.one_pos⟩, fun _ => ⟨_, rfl⟩⟩
  | succ frames ih =>
      have henter : ∀ node (st : CycleSearch), (· ∈ (st.enter node).visited) =
          fun v => v = node ∨ v ∈ st.visited :=
        fun node st => funext fun v => propext List.mem_cons
      constructor
      · intro node st next hnew h v
        obtain ⟨last, hlast, rfl⟩ := map_eq_ok h
        have hloop := (loop_deep (loops_neighbors _) ih _ _).1 last hlast v
        rw [henter] at hloop
        refine hloop.trans ?_
        rw [SeenPast, reached_off_iff hnew]
        simp only [CycleSearch.enter, List.mem_cons]
        tauto
      · intro node st hnew
        have hloop := (loop_deep (loops_neighbors (dfs edges frames)) ih
          (dependenciesOf edges node) (st.enter node)).2
        have hraise : (∃ failure, dfs edges (frames + 1) node st = .error failure) ↔
            ∃ failure, visitNeighbors (dfs edges frames) (dependenciesOf edges node)
              (st.enter node) = .error failure := by
          rw [dfs]
          cases visitNeighbors (dfs edges frames) (dependenciesOf edges node) (st.enter node) <;>
            simp [Except.map]
        rw [hraise, hloop, TooDeep, TooDeep, henter]
        constructor
        · rintro ⟨path, hpath, hlong⟩
          exact ⟨node :: path, .head hnew hpath, by simpa using hlong⟩
        · rintro ⟨path, hpath, hlong⟩
          cases path with
          | nil => simp at hlong
          | cons v path =>
              obtain ⟨rfl, hrest⟩ := (first_path_singleton_iff hnew).mp hpath
              exact ⟨path, hrest, by simpa using hlong⟩

end

/-- The report is made exactly when no first path has more nodes than there are frames. It lists
closed walks, and it is empty exactly for a graph without cycles. -/
theorem detect_cycles_spec (frames : Nat) (tenant : String) (rows : List DependencyRow) :
    ((∃ failure, detectCycles frames tenant rows = .error failure) ↔
      TooDeep (tenantEdges tenant rows) frames [] (dependentNodes (tenantEdges tenant rows))) ∧
    ∀ cycles, detectCycles frames tenant rows = .ok cycles →
      (∀ cycle ∈ cycles, ClosedWalk (DependsOn (tenantEdges tenant rows)) cycle) ∧
      (cycles = [] ↔ Acyclic (DependsOn (tenantEdges tenant rows))) := by
  constructor
  · rw [← (loop_deep (loops_all _) (dfs_deep frames) _ ⟨[], [], [], []⟩).2]
    unfold detectCycles
    dsimp only
    cases searchAll (dfs (tenantEdges tenant rows) frames)
      (dependentNodes (tenantEdges tenant rows)) ⟨[], [], [], []⟩ <;> simp [Except.map]
  · intro cycles h
    have hstart : Searching (tenantEdges tenant rows) ⟨[], [], [], []⟩ :=
      { distinct := List.nodup_nil
        stack := by simp
        seen := by simp
        walk := List.isChain_nil
        reported := by simp
        settled := fun _ => ⟨by simp, by simp⟩ }
    obtain ⟨last, hlast, rfl⟩ := map_eq_ok h
    obtain ⟨hsearching, hexplores, hall⟩ :=
      search_all_spec (dfs_spec frames) hstart rfl hlast
    refine ⟨hsearching.reported, fun hnone => ?_, fun hacyclic => ?_⟩
    · intro v hcycle
      obtain ⟨w, hedge, -⟩ := Relation.TransGen.head'_iff.mp hcycle
      have hseen : v ∈ last.visited :=
        hall v (List.mem_eraseDups.mpr (List.mem_map.mpr ⟨(v, w), hedge, rfl⟩))
      exact (hsearching.settled hnone).acyclic v ⟨hseen, by simp [hexplores.path]⟩ hcycle
    · by_contra hne
      obtain ⟨cycle, hcycle⟩ := List.exists_mem_of_ne_nil _ hne
      exact (hsearching.reported cycle hcycle).not_acyclic hacyclic

end Capmesh
