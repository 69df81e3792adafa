import Capmesh.Registry.PostIngest

/-!
# Declared dependencies and the rows they belong to

Whether an ingest records the dependencies its capabilities declare. The dependency pass
writes its edges under the discovered URIs, while the rows stand under the effective ones,
and its last edge is committed only if the repair of the vector table commits.
`dependencies_recorded_iff` says which edges there are in the end.
-/

namespace Capmesh

open Python Relational Execution

/-- The edge of a row. -/
def DependencyRow.edge (row : DependencyRow) : Edge :=
  ⟨row.tenantId, row.capabilityUri, row.dependsOnUri⟩

/-- The edge of the arguments of `add_dependency`. -/
def Dependency.edge (dependency : Dependency) : Edge :=
  ⟨dependency.tenantId, dependency.capabilityUri, dependency.dependsOnUri⟩

/-- Whether an edge is recorded. -/
def Registry.HasEdge (reg : Registry) (edge : Edge) : Prop :=
  ∃ row ∈ reg.dependencyTable, row.edge = edge

/-- Every dependency a capability of the batch declares is an edge of the row written for it. -/
def DependenciesRecorded (p : Platform) (input : IngestInput p) (before : Database)
    (planned : List Capability) (final : Mesh) : Prop :=
  ∀ cap ∈ input.batch.capabilities, ∀ uri ∈ declaredDependencies p cap, ∀ row,
    WrittenFor p input before final.registry.db planned cap row →
      final.registry.HasEdge ⟨row.cap.tenantId, row.cap.uri, uri⟩

/-- The edges of the dependency pass that are committed in the end: all of them when the repair of
the vector table commits, else all but the last. -/
def keptEdges (p : Platform) (input : IngestInput p) (embed : Nat → String → Option String)
    (committed : Database) : List Edge :=
  let edges := declaredEdges p input.batch.capabilities
  if commitsRepair input.vectorEnabled embed committed then edges else edges.dropLast

section

variable {p : Platform} {input : IngestInput p} {reg next : Registry} {con : Connection Mesh}
variable {dependency : Dependency} {dependencies : List Dependency} {edges : List Edge}

theorem DependencyRow.is_edge_iff {row : DependencyRow} :
    row.IsEdge dependency.tenantId dependency.capabilityUri dependency.dependsOnUri ↔
      row.edge = dependency.edge := by
  simp [IsEdge, DependencyRow.edge, Dependency.edge]

/-- What a call of `add_dependency` that succeeds does: it adds its edge, and no row under another
id. -/
structure EdgeAdded (dependency : Dependency) (reg next : Registry) : Prop where
  db : next.db = reg.db
  edges : ∀ edge, next.HasEdge edge ↔ reg.HasEdge edge ∨ edge = dependency.edge
  ids : ∀ row ∈ next.dependencyTable,
    row.id = dependency.id ∨ ∃ old ∈ reg.dependencyTable, old.id = row.id

theorem refresh_edge (dependency : Dependency) (row : DependencyRow) :
    (row.refresh dependency).edge = row.edge ∧ (row.refresh dependency).id = row.id := by
  obtain ⟨hid, htenant, huri, hdependsOn⟩ := refresh_key dependency row
  exact ⟨by simp only [DependencyRow.edge, htenant, huri, hdependsOn], hid⟩

variable (reg) in
/-- A call under a fresh id adds its edge, unless it is a loop. -/
theorem add_dependency_ok (hloop : dependency.capabilityUri ≠ dependency.dependsOnUri)
    (hfresh : ∀ row ∈ reg.dependencyTable, row.id ≠ dependency.id) :
    ∃ next, addDependency dependency reg = .ok next ∧ EdgeAdded dependency reg next := by
  unfold addDependency
  rw [if_neg hloop]
  simp only [DependencyRow.is_edge_iff]
  by_cases hexists : reg.HasEdge dependency.edge
  · have hany : (reg.dependencyTable.rows.any fun row => row.edge = dependency.edge) = true :=
      List.any_eq_true.mpr (by simpa [Registry.HasEdge] using hexists)
    rw [if_pos hany]
    refine ⟨_, rfl, rfl, fun edge => ?_, fun row hrow => ?_⟩
    · have hsame : Registry.HasEdge { reg with dependencies := some (reg.dependencyTable.map
          (·.refresh dependency) (refresh_conflict dependency)) } edge ↔ reg.HasEdge edge := by
        constructor
        · rintro ⟨row, hrow, hedge⟩
          obtain ⟨old, hold, rfl⟩ := (Table.mem_map (refresh_conflict dependency) row).mp hrow
          exact ⟨old, hold, (refresh_edge dependency old).1 ▸ hedge⟩
        · rintro ⟨row, hrow, hedge⟩
          exact ⟨row.refresh dependency,
            (Table.mem_map (refresh_conflict dependency) _).mpr ⟨row, hrow, rfl⟩,
            (refresh_edge dependency row).1.trans hedge⟩
      rw [hsame]
      constructor
      · exact .inl
      · rintro (hedge | rfl)
        · exact hedge
        · exact hexists
    · obtain ⟨old, hold, rfl⟩ := (Table.mem_map (refresh_conflict dependency) row).mp hrow
      exact .inr ⟨old, hold, (refresh_edge dependency old).2.symm⟩
  · have hany : (reg.dependencyTable.rows.any fun row => row.edge = dependency.edge) = false := by
      simpa [Registry.HasEdge] using hexists
    rw [hany]
    have hinsert : (reg.dependencyTable.insert? dependency.row).isSome :=
      Table.insert?_isSome_iff.mpr fun row hrow hconflict => by
        rcases hconflict with hid | hedge
        · exact hfresh row hrow hid
        · exact hexists ⟨row, hrow, DependencyRow.is_edge_iff.mp hedge⟩
    obtain ⟨table, htable⟩ := Option.isSome_iff_exists.mp hinsert
    refine ⟨{ reg with dependencies := some table }, by simp [htable, constrained]; rfl, rfl,
      fun edge => ?_, fun row hrow => ?_⟩
    · constructor
      · rintro ⟨row, hrow, rfl⟩
        rcases (Table.mem_insert? htable row).mp hrow with hold | rfl
        · exact .inl ⟨row, hold, rfl⟩
        · exact .inr rfl
      · rintro (⟨row, hrow, hedge⟩ | rfl)
        · exact ⟨row, (Table.mem_insert? htable row).mpr (.inl hrow), hedge⟩
        · exact ⟨dependency.row, (Table.mem_insert? htable _).mpr (.inr rfl), rfl⟩
    · rcases (Table.mem_insert? htable row).mp hrow with hold | rfl
      · exact .inr ⟨row, hold, rfl⟩
      · exact .inl rfl

theorem add_dependency_loop (hloop : dependency.capabilityUri = dependency.dependsOnUri) :
    addDependency dependency reg = .error (.value "A capability cannot depend on itself") := by
  unfold addDependency
  rw [if_pos hloop]

/-- Arguments whose ids are fresh in a table. -/
structure Fresh (reg : Registry) (dependencies : List Dependency) : Prop where
  distinct : dependencies.Pairwise fun a b => a.id ≠ b.id
  unused : ∀ dependency ∈ dependencies, ∀ row ∈ reg.dependencyTable, row.id ≠ dependency.id

/-- One call adds its edge to the working copy, unless it is a loop. -/
theorem track_step_edges
    (hfresh : Fresh con.working.registry (dependency :: dependencies)) :
    (trackStep con dependency).working.registry.db = con.working.registry.db ∧
    (∀ edge, (trackStep con dependency).working.registry.HasEdge edge ↔
      con.working.registry.HasEdge edge ∨
        edge.capabilityUri ≠ edge.dependsOnUri ∧ edge = dependency.edge) ∧
    Fresh (trackStep con dependency).working.registry dependencies := by
  obtain ⟨hunused, hrest⟩ := List.forall_mem_cons.mp hfresh.unused
  obtain ⟨hne, hdistinct⟩ := List.pairwise_cons.mp hfresh.distinct
  unfold trackStep
  by_cases hloop : dependency.capabilityUri = dependency.dependsOnUri
  · simp only [add_dependency_loop hloop]
    refine ⟨rfl, fun edge => ?_, hdistinct, hrest⟩
    constructor
    · exact .inl
    · rintro (hedge | ⟨hne, rfl⟩)
      · exact hedge
      · exact absurd hloop hne
  · obtain ⟨next, hnext, hadded⟩ := add_dependency_ok
      (con.executescript Mesh.ensureDependencyTable).working.registry hloop hunused
    simp only [hnext]
    refine ⟨hadded.db, fun edge => (hadded.edges edge).trans (or_congr Iff.rfl ?_), hdistinct,
      fun other hother row hrow => ?_⟩
    · constructor
      · rintro rfl
        exact ⟨hloop, rfl⟩
      · exact And.right
    · rcases hadded.ids row hrow with hid | ⟨old, hold, hid⟩
      · rw [hid]
        exact hne other hother
      · rw [← hid]
        exact hrest other hother old hold

/-- The calls add their edges to the working copy. -/
theorem track_run_edges (hfresh : Fresh con.working.registry dependencies) :
    (run trackStep con dependencies).working.registry.db = con.working.registry.db ∧
    ∀ edge, (run trackStep con dependencies).working.registry.HasEdge edge ↔
      con.working.registry.HasEdge edge ∨
        edge.capabilityUri ≠ edge.dependsOnUri ∧ edge ∈ dependencies.map Dependency.edge := by
  induction dependencies generalizing con with
  | nil => exact ⟨rfl, by simp [run]⟩
  | cons dependency dependencies ih =>
      obtain ⟨hdb, hedges, hrest⟩ := track_step_edges hfresh
      obtain ⟨hdbRest, hedgesRest⟩ := ih hrest
      refine ⟨hdbRest.trans hdb, fun edge => ?_⟩
      show (run trackStep (trackStep con dependency) dependencies).working.registry.HasEdge edge ↔ _
      rw [hedgesRest, hedges, List.map_cons, List.mem_cons, and_or_left, or_assoc]

/-- Every call commits what the earlier ones wrote. -/
theorem track_step_scripted :
    Scripted id trackStep fun _ => some Mesh.ensureDependencyTable := by
  intro con dependency
  show (trackStep con dependency).committed = _
  unfold trackStep
  dsimp only
  split <;> rfl

theorem track_run_committed (hcon : con.committed = con.working)
    (hfresh : Fresh con.working.registry dependencies) (edge : Edge) :
    (run trackStep con dependencies).committed.registry.HasEdge edge ↔
      con.working.registry.HasEdge edge ∨
        edge.capabilityUri ≠ edge.dependsOnUri ∧
          edge ∈ (dependencies.map Dependency.edge).dropLast := by
  cases dependencies using List.reverseRecOn with
  | nil => simp [run, hcon]
  | append_singleton first last =>
      have hcommitted : (id (run trackStep con (first ++ [last]))).committed =
          Mesh.ensureDependencyTable (id (run trackStep con first)).working :=
        committed_run_of_last_script track_step_scripted rfl (by simp)
      have hfirst : Fresh con.working.registry first :=
        ⟨hfresh.distinct.sublist (List.sublist_append_left _ _),
          fun dependency hmem => hfresh.unused dependency (List.mem_append_left _ hmem)⟩
      simp only [id] at hcommitted
      rw [hcommitted, List.map_append, List.map_singleton, List.dropLast_concat]
      exact (track_run_edges hfirst).2 edge

theorem fresh_edges {reg : Registry}
    (ids : FreshIds fun id => ∃ row ∈ reg.dependencyTable, row.id = id) (edges : List Edge) :
    Fresh reg (edges.mapIdx fun n edge => edge.dependency (ids.draw n)) := by
  constructor
  · rw [List.pairwise_iff_getElem]
    intro i j hi hj hij hid
    simp only [List.getElem_mapIdx, Edge.dependency] at hid
    exact absurd (ids.injective hid) hij.ne
  · intro dependency hmem row hrow hid
    obtain ⟨n, hn, rfl⟩ := List.mem_mapIdx.mp hmem
    exact ids.fresh n ⟨row, hrow, hid⟩

theorem map_edge_dependencies (ids : Nat → String) (edges : List Edge) :
    (edges.mapIdx fun n edge => edge.dependency (ids n)).map Dependency.edge = edges := by
  refine List.ext_getElem (by simp) fun n hleft hright => ?_
  simp only [List.getElem_map, List.getElem_mapIdx]
  rfl

theorem repair_vectors_edges (embed : Nat → String → Option String) (con : Connection Mesh) :
    (repairVectors embed con).committed.registry.dependencies =
      if commitsRepair true embed con.working.registry.db then con.working.registry.dependencies
      else con.committed.registry.dependencies := by
  unfold repairVectors commitsRepair
  dsimp only
  cases horphans : (orphanVectors con.working.registry.db).isEmpty with
  | true =>
      by_cases hhealed : (healVectors embed (dropOrphans con.working.registry.db)).2 = 0
      · simp [hhealed, Mesh.onCatalog]
      · simp [hhealed, Mesh.onCatalog]
  | false =>
      by_cases hhealed : (healVectors embed (dropOrphans con.working.registry.db)).2 = 0
      · simp [hhealed, Mesh.onCatalog]
      · simp [hhealed, Mesh.onCatalog]

theorem track_pass_edges {ids : Nat → String} (hfresh : Fresh con.working.registry
    (edges.mapIdx fun n edge => edge.dependency (ids n))) :
    (trackPass ids edges con).working.registry.db = con.working.registry.db ∧
    ∀ edge, ((trackPass ids edges con).working.registry.HasEdge edge ↔
      con.working.registry.HasEdge edge ∨
        edge.capabilityUri ≠ edge.dependsOnUri ∧ edge ∈ edges) ∧
    ((trackPass ids edges con).committed.registry.HasEdge edge ↔
      con.working.registry.HasEdge edge ∨
        edge.capabilityUri ≠ edge.dependsOnUri ∧ edge ∈ edges.dropLast) := by
  have hopened : Fresh (con.executescript Mesh.ensureDependencyTable).working.registry
      (edges.mapIdx fun n edge => edge.dependency (ids n)) := ⟨hfresh.distinct, hfresh.unused⟩
  obtain ⟨hdb, hworking⟩ := track_run_edges hopened
  refine ⟨hdb, fun edge => ⟨?_, ?_⟩⟩
  · have hedge := hworking edge
    rw [map_edge_dependencies] at hedge
    exact hedge
  · have hedge := track_run_committed rfl hopened edge
    rw [map_edge_dependencies] at hedge
    exact hedge

/-- Edges depend on the dependency table only. -/
theorem has_edge_congr {reg next : Registry} (h : next.dependencies = reg.dependencies)
    (edge : Edge) : next.HasEdge edge ↔ reg.HasEdge edge := by
  unfold Registry.HasEdge Registry.dependencyTable
  rw [h]

/-- The edges after the passes. -/
theorem post_ingest_edges {start mesh : Mesh} (post : PostIngest start)
    (hmesh : mesh.registry.dependencies = start.registry.dependencies) (edge : Edge) :
    (postIngest input post mesh).1.registry.HasEdge edge ↔
      start.registry.HasEdge edge ∨ edge.capabilityUri ≠ edge.dependsOnUri ∧
        edge ∈ keptEdges p input post.embed mesh.registry.db := by
  unfold postIngest
  dsimp only
  generalize hscanned : (scanPass p post.fs post.scanIds.draw post.now input.batch.capabilities
    (.settled mesh)).1 = scanned
  have hregistry : scanned.working.registry = mesh.registry := by
    rw [← hscanned, scan_pass_registry]
    rfl
  have hfresh : Fresh scanned.working.registry ((declaredEdges p input.batch.capabilities).mapIdx
      fun n edge => edge.dependency (post.dependencyIds.draw n)) := by
    have hfresh := fresh_edges post.dependencyIds (declaredEdges p input.batch.capabilities)
    refine ⟨hfresh.distinct, ?_⟩
    have htable : mesh.registry.dependencyTable = start.registry.dependencyTable := by
      unfold Registry.dependencyTable
      rw [hmesh]
    rw [hregistry, htable]
    exact hfresh.unused
  obtain ⟨hdb, hedges⟩ := track_pass_edges hfresh
  obtain ⟨hworking, hcommitted⟩ := hedges edge
  rw [hregistry, has_edge_congr hmesh] at hworking hcommitted
  unfold keptEdges
  dsimp only
  cases hvector : input.vectorEnabled with
  | false => simpa [commitsRepair] using hcommitted
  | true =>
      have hrepair := repair_vectors_edges post.embed (trackPass post.dependencyIds.draw
        (declaredEdges p input.batch.capabilities) scanned)
      rw [hdb, hregistry] at hrepair
      simp only [if_true]
      split
      · rename_i hcommits
        rw [if_pos hcommits] at hrepair
        rw [has_edge_congr hrepair, hworking]
      · rename_i hcommits
        rw [if_neg hcommits] at hrepair
        rw [has_edge_congr hrepair, hcommitted]

/-- An ingest records the declared dependencies exactly when each of them was an edge of the row
before, or is a committed edge of the dependency pass that happens to be under the URI and the
tenant of the row. -/
theorem dependencies_recorded_iff {mesh final : Mesh} {post : PostIngest mesh}
    {outcome : Changes × Option Nat} {planned : List Capability}
    (hdb : mesh.registry.db.Normalized)
    (h : ingestIndex p mesh input post = (final, .ok outcome))
    (hplan : plan p input mesh.registry.db.capabilities = .ok planned) :
    DependenciesRecorded p input mesh.registry.db planned final ↔
      ∀ earlier e later, planned = earlier ++ e :: later →
        (∀ d ∈ later, d.uri ≠ landingUri mesh.registry.db earlier e) →
        ∀ cap ∈ input.batch.capabilities,
          (effective p input.placement mesh.registry.db.capabilities cap).uri = e.uri →
          ∀ uri ∈ declaredDependencies p cap,
            mesh.registry.HasEdge ⟨e.tenantId, landingUri mesh.registry.db earlier e, uri⟩ ∨
            landingUri mesh.registry.db earlier e ≠ uri ∧
              ⟨e.tenantId, landingUri mesh.registry.db earlier e, uri⟩ ∈
                keptEdges p input post.embed (ingest p mesh.registry.db input).1 := by
  obtain ⟨db, hingest, hpost⟩ := ingest_index_ok h
  have hfinal : final = (postIngest input post (mesh.onCatalog fun _ => db)).1 := by rw [hpost]
  have hrows : final.registry.db.capabilities = db.capabilities := by
    rw [hfinal]
    exact (post_ingest_leaves input post _).1
  have hedges : ∀ edge, final.registry.HasEdge edge ↔ mesh.registry.HasEdge edge ∨
      edge.capabilityUri ≠ edge.dependsOnUri ∧
        edge ∈ keptEdges p input post.embed (ingest p mesh.registry.db input).1 := by
    intro edge
    have hmesh : (mesh.onCatalog fun _ => db).registry.dependencies =
        mesh.registry.dependencies := rfl
    rw [hfinal, post_ingest_edges post hmesh, hingest]
    rfl
  constructor
  · intro hrecorded earlier e later hsplit hfree cap hcap heffective uri huri
    subst hsplit
    obtain ⟨hcolumns, hwritten⟩ := ingest_written hdb hingest hplan
    obtain ⟨row, hrow, hkey⟩ := hwritten hfree
    have hedge := hrecorded cap hcap uri huri row
      ⟨hrows ▸ hrow, e, by simp, heffective.symm, hkey⟩
    rw [hedges, (hcolumns row hrow hkey).1.uri, (hcolumns row hrow hkey).1.tenantId] at hedge
    exact hedge
  · rintro hcondition cap hcap uri huri row ⟨hrow, e, he, heffective, hkey⟩
    obtain ⟨earlier, later, rfl⟩ := List.append_of_mem he
    obtain ⟨hcolumns, hfree⟩ := (ingest_written hdb hingest hplan).1 row (hrows ▸ hrow) hkey
    rw [hedges, hcolumns.uri, hcolumns.tenantId]
    exact hcondition earlier e later rfl hfree cap hcap heffective.symm uri huri

end

/-- A workflow of a capability manifest that needs the notes skill. -/
def syncWorkflow : Capability :=
  { uri := "cap://asg.local/workflow/notes.sync@0-1-0", capabilityType := .workflow
    name := "sync", version := "0.1.0", title := "sync", description := "Syncs notes."
    packagePath := "/asg-os/plugins/notes/sync", entrypoint := "cap.json"
    sourcePath := "/asg-os/plugins/notes/sync/cap.json", sourceKind := "cap_manifest"
    sourceSystem := "asg-os.plugins", canonicalKey := "workflow:notes:sync:0-1-0"
    contentHash := "sha256:v1", plugin := some "notes"
    metadata := [("name", .str "sync"), ("description", .str "Syncs notes."),
      ("depends_on", .arr [.str "cap://asg.local/skill/notes.notes@0-1-0"])] }

/-- An ingest of that workflow alone, without a placement manifest and without vectors. -/
def syncInput : IngestInput .sample :=
  .bare (.single syncWorkflow (by decide) fun text => by simp [syncWorkflow, Dict.get?])

/-- A registry without rows but for its dependency edges. -/
def meshWith (dependencies : Table DependencyRow) : Mesh :=
  ⟨⟨.empty, true, [], none, some dependencies, none⟩, none⟩

/-- Whether some declared dependency is not an edge of the row with the key of its capability. -/
def missesDependency (p : Platform) (input : IngestInput p) (before : Database)
    (planned : List Capability) (final : Mesh) : Bool :=
  input.batch.capabilities.any fun cap => (declaredDependencies p cap).any fun uri =>
    final.registry.db.capabilities.rows.any fun row =>
      (planned.any fun e =>
        e.uri = (effective p input.placement before.capabilities cap).uri &&
          row.cap.canonicalKey = e.canonicalKey) &&
      final.registry.dependencyTable.rows.all fun found =>
        found.edge ≠ ⟨row.cap.tenantId, row.cap.uri, uri⟩

theorem not_recorded_of_misses {p : Platform} {input : IngestInput p} {before : Database}
    {planned : List Capability} {final : Mesh}
    (h : missesDependency p input before planned final = true) :
    ¬ DependenciesRecorded p input before planned final := by
  intro hrecorded
  obtain ⟨cap, hcap, h⟩ := List.any_eq_true.mp h
  obtain ⟨uri, huri, h⟩ := List.any_eq_true.mp h
  obtain ⟨row, hrow, h⟩ := List.any_eq_true.mp h
  obtain ⟨hplanned, hmissing⟩ := Bool.and_eq_true_iff.mp h
  obtain ⟨e, he, hkey⟩ := List.any_eq_true.mp hplanned
  obtain ⟨found, hfound, hedge⟩ := hrecorded cap hcap uri huri row
    ⟨hrow, e, he, by simpa using hkey⟩
  have hne := List.all_eq_true.mp hmissing found hfound
  simp [hedge] at hne

/-- The passes on a registry whose dependency rows have other identifiers. -/
def syncPost (dependencies : Table DependencyRow)
    (h : ∀ row ∈ dependencies, row.id = "dep_1") : PostIngest (meshWith dependencies) where
  fs _ := .missing
  now := "2026-01-01T00:00:00Z"
  scanIds := lengthIds _ fun n => by
    rintro ⟨row, hrow, -⟩
    cases hrow
  dependencyIds := lengthIds _ fun n => by
    rintro ⟨row, hrow, hid⟩
    have hchars := congrArg String.toList ((h row hrow).symm.trans hid)
    rw [String.toList_ofList] at hchars
    have hfirst := congrArg List.head? hchars
    cases n with
    | zero => simp at hfirst
    | succ n => simp [List.replicate_succ] at hfirst
  embed _ _ := none

/-- The workflow declares the notes skill, and its edge is written, if at all, under the URI it was
discovered at. -/
theorem dependencies_recorded_counterexample :
    ¬ ∀ (p : Platform) (input : IngestInput p) (mesh final : Mesh) (post : PostIngest mesh)
      (outcome : Changes × Option Nat) (planned : List Capability),
      mesh.registry.db.Normalized → ingestIndex p mesh input post = (final, .ok outcome) →
      plan p input mesh.registry.db.capabilities = .ok planned →
      DependenciesRecorded p input mesh.registry.db planned final := by
  intro hclaim
  have hok := ingest_index_of_outcome (show
    (ingestIndex .sample (meshWith .empty) syncInput (syncPost .empty (by simp))).2.toOption =
      some (⟨1, 0, 0, 0, false, 0, 0, false⟩, some 1) by decide +kernel)
  have hplan : plan .sample syncInput (meshWith .empty).registry.db.capabilities =
      .ok [effective .sample [] .empty syncWorkflow] := merge_by_effective_uri_singleton _
  refine not_recorded_of_misses ?_ (hclaim _ _ _ _ _ _ _ (fun row hrow => by cases hrow) hok hplan)
  decide +kernel

/-- The workflow under a URI that its manifest gives and the ingest keeps. It also needs a skill
that logs. -/
def filedWorkflow : Capability :=
  { syncWorkflow with
    uri := "cap://user/asg/sync"
    metadata := [("uri", .str "cap://user/asg/sync"), ("name", .str "sync"),
      ("description", .str "Syncs notes."),
      ("depends_on", .arr [.str "cap://asg.local/skill/notes.notes@0-1-0",
        .str "cap://asg.local/skill/log.log@0-1-0"])] }

/-- An ingest of that workflow alone. -/
def filedWorkflowInput : IngestInput .sample :=
  .bare (.single filedWorkflow (by decide) fun text => by simp [filedWorkflow, Dict.get?])

/-- The edge to the skill that logs, added by hand. -/
def filedEdges : Table DependencyRow where
  rows := [⟨"dep_1", filedWorkflow.tenantId, filedWorkflow.uri,
    "cap://asg.local/skill/log.log@0-1-0", "*", none⟩]
  unique := List.pairwise_singleton _ _

/-- The pass records the edge to the notes skill, and the edge that was there before stays. -/
theorem dependencies_recorded_iff_filed :
    DependenciesRecorded .sample filedWorkflowInput .empty [effective .sample [] .empty filedWorkflow]
      (ingestIndex .sample (meshWith filedEdges) filedWorkflowInput
        (syncPost filedEdges (by simp [filedEdges, ← Table.mem_rows]))).1 := by
  have hok := ingest_index_of_outcome (show
    (ingestIndex .sample (meshWith filedEdges) filedWorkflowInput
        (syncPost filedEdges (by simp [filedEdges, ← Table.mem_rows]))).2.toOption =
      some (⟨1, 0, 0, 0, false, 0, 0, false⟩, some 1) by decide +kernel)
  have hplan : plan .sample filedWorkflowInput (meshWith filedEdges).registry.db.capabilities =
      .ok [effective .sample [] .empty filedWorkflow] := merge_by_effective_uri_singleton _
  refine (dependencies_recorded_iff (fun row hrow => by cases hrow) hok hplan).mpr ?_
  intro earlier e later hsplit hfree cap hcap heffective uri huri
  obtain ⟨rfl, rfl⟩ := split_of_singleton hsplit
  obtain rfl : cap = filedWorkflow := List.mem_singleton.mp hcap
  have hdeclared : declaredDependencies .sample filedWorkflow =
      ["cap://asg.local/skill/notes.notes@0-1-0", "cap://asg.local/skill/log.log@0-1-0"] := by
    decide +kernel
  rw [hdeclared] at huri
  rcases List.mem_cons.mp huri with rfl | huri
  · exact .inr ⟨by decide +kernel, by decide +kernel⟩
  · rw [List.mem_singleton.mp huri]
    exact .inl ⟨_, List.mem_cons_self, rfl⟩

end Capmesh
