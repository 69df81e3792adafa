import Capmesh.Execution.Transaction
import Capmesh.Index.Written
import Capmesh.Registry.Records

/-!
# After the main transaction of an ingest

`ingest_index` from the commit of its main transaction to `con.close()`: the malware
scans, the dependency tracking, and the repair of the vector table. The passes go over the
discovered capabilities, before placement. What is not committed when the connection is closed
is lost. `scan_capability` and `add_dependency` begin with a script, so that each call commits
what the earlier ones wrote; the scan pass ends with a commit, the dependency pass does not.
-/

namespace Capmesh

open Python Relational Execution

/-- A row of `malware_scan_results`. -/
structure ScanRow where
  id : String
  tenantId : String
  capabilityUri : String
  sourcePath : String
  fileHash : String
  scanPassed : Bool
  findings : List Finding
  scannedAt : String
  deriving DecidableEq, Repr

instance : Constrained ScanRow where
  Conflict a b := a.id = b.id
  symm h := h.symm

/-- The registry with its table of malware scans. -/
structure Mesh where
  registry : Registry
  scans : Option (Table ScanRow)

namespace Mesh

variable (mesh : Mesh)

/-- `ensure_scan_table`. -/
def ensureScanTable : Mesh := { mesh with scans := some (mesh.scans.getD .empty) }

/-- `ensure_dependency_table`. -/
def ensureDependencyTable : Mesh := { mesh with registry := mesh.registry.ensureDependencyTable }

/-- The rows of `malware_scan_results`. -/
def scanTable : Table ScanRow := mesh.scans.getD .empty

/-- Change the catalog. -/
def onCatalog (f : Database → Database) : Mesh :=
  { mesh with registry := { mesh.registry with db := f mesh.registry.db } }

end Mesh

/-- What `new_id` draws: random identifiers, never one twice and none in use. -/
structure FreshIds (used : String → Prop) where
  draw : Nat → String
  injective : Function.Injective draw
  fresh : ∀ n, ¬ used (draw n)

/-- What the passes after an ingest take from outside: the files, the clock, the identifiers of
new rows, and the answers of the embedding backend. -/
structure PostIngest (mesh : Mesh) where
  fs : FileSystem
  now : String
  scanIds : FreshIds fun id => ∃ row ∈ mesh.scanTable, row.id = id
  dependencyIds : FreshIds fun id => ∃ row ∈ mesh.registry.dependencyTable, row.id = id
  embed : Nat → String → Option String

/-- `scan_capability` of `malware_scan.py`, after its table was made sure of. Without a row there is
a verdict but no scan. -/
def scanCapability (p : Platform) (fs : FileSystem) (id now uri tenant : String) (mesh : Mesh) :
    Except Failure (ScanResult × Mesh) :=
  match mesh.registry.db.capabilities.find? fun row =>
      row.cap.uri = uri && row.cap.tenantId = tenant with
  | none => .ok (scanError "Capability not found", mesh)
  | some row => do
      let result ← scanFile p fs row.cap.sourcePath
      let table ← constrained "malware_scan_results.id" (mesh.scanTable.insert?
        { id, tenantId := tenant, capabilityUri := uri, sourcePath := row.cap.sourcePath
          fileHash := result.fileHash.getD "sha256:unknown"
          scanPassed := result.passed.getD false, findings := result.findings, scannedAt := now })
      .ok (result, { mesh with scans := some table })

/-- The state of the scan loop. -/
structure Scanning where
  con : Connection Mesh
  scanned : Nat
  malwareFindings : Nat

/-- The body of the scan loop; an exception of a scan is swallowed. -/
def scanStep (p : Platform) (fs : FileSystem) (ids : Nat → String) (now : String)
    (state : Scanning) (cap : Capability) : Scanning :=
  if cap.uri = "" then state
  else
    let con := state.con.executescript Mesh.ensureScanTable
    match scanCapability p fs (ids state.scanned) now cap.uri cap.tenantId con.working with
    | .ok (result, mesh) =>
        ⟨con.write fun _ => mesh, state.scanned + 1,
          state.malwareFindings + if result.passed.getD true then 0 else 1⟩
    | .error _ => ⟨con, state.scanned + 1, state.malwareFindings⟩

/-- The scan pass: the connection after it, and the reported count of malware findings. -/
def scanPass (p : Platform) (fs : FileSystem) (ids : Nat → String) (now : String)
    (caps : List Capability) (con : Connection Mesh) : Connection Mesh × Option Nat :=
  let state := run (scanStep p fs ids now) ⟨con, 0, 0⟩ caps
  if state.scanned = 0 then (state.con, none) else (state.con.commit, some state.malwareFindings)

/-- The entries of `depends_on` that are tracked: the strings of a list that are not blank. -/
def declaredDependencies (p : Platform) (cap : Capability) : List String :=
  match Dict.get? cap.metadata "depends_on" with
  | some (.arr items) => items.filterMap fun item =>
      match item with
      | .str text => if p.stripSpace text = "" then none else some (p.stripSpace text)
      | _ => none
  | _ => []

/-- An edge to be recorded. -/
structure Edge where
  tenantId : String
  capabilityUri : String
  dependsOnUri : String
  deriving DecidableEq, Repr

/-- The edges the dependency pass goes through, under the discovered URIs and tenants. -/
def declaredEdges (p : Platform) (caps : List Capability) : List Edge :=
  caps.flatMap fun cap => (declaredDependencies p cap).map (⟨cap.tenantId, cap.uri, ·⟩)

/-- The arguments of `add_dependency` for an edge. -/
def Edge.dependency (edge : Edge) (id : String) : Dependency where
  id := id
  capabilityUri := edge.capabilityUri
  dependsOnUri := edge.dependsOnUri
  tenantId := edge.tenantId

/-- One call of `add_dependency` with `commit=False`; its exceptions are swallowed. -/
def trackStep (con : Connection Mesh) (dependency : Dependency) : Connection Mesh :=
  let con := con.executescript Mesh.ensureDependencyTable
  match addDependency dependency con.working.registry with
  | .ok registry => con.write fun mesh => { mesh with registry }
  | .error _ => con

/-- The dependency pass. -/
def trackPass (ids : Nat → String) (edges : List Edge) (con : Connection Mesh) :
    Connection Mesh :=
  run trackStep (con.executescript Mesh.ensureDependencyTable)
    (edges.mapIdx fun n edge => edge.dependency (ids n))

/-- The vectors without a capability. -/
def orphanVectors (db : Database) : List VectorRow :=
  db.vectors.rows.filter fun vector => !db.capabilities.any (·.id = vector.rowid)

/-- Delete the vectors without a capability. -/
def dropOrphans (db : Database) : Database :=
  { db with vectors := db.vectors.filter fun vector => db.capabilities.any (·.id = vector.rowid) }

/-- The capabilities without a vector, with their index texts. -/
def missingVectors (db : Database) : List (Nat × String) :=
  db.capabilities.rows.flatMap fun row =>
    if db.vectors.any (·.rowid = row.id) then []
    else (db.fts.rows.filter (·.rowid = row.id)).map fun text => (row.id, text.content)

/-- Embed the missing vectors, and count those that succeed. -/
def healLoop (embed : Nat → String → Option String) :
    Nat → Table VectorRow → List (Nat × String) → Table VectorRow × Nat
  | _, vectors, [] => (vectors, 0)
  | n, vectors, (id, text) :: rest =>
      let outcome := upsertVector vectors id false (embed n text)
      let (healed, count) := healLoop embed (n + 1) outcome.2 rest
      (healed, count + if outcome.1 then 1 else 0)

/-- The self-heal, when there are fewer vectors than capabilities. -/
def healVectors (embed : Nat → String → Option String) (db : Database) : Database × Nat :=
  if db.vectors.rows.length < db.capabilities.rows.length then
    let (vectors, healed) := healLoop embed 0 db.vectors (missingVectors db)
    ({ db with vectors }, healed)
  else (db, 0)

/-- The repair of the vector table; it commits when it deleted or embedded something. -/
def repairVectors (embed : Nat → String → Option String) (con : Connection Mesh) :
    Connection Mesh :=
  let orphans := orphanVectors con.working.registry.db
  let con := con.write (·.onCatalog dropOrphans)
  let con := if orphans.isEmpty then con else con.commit
  let healed := (healVectors embed con.working.registry.db).2
  let con := con.write (·.onCatalog fun db => (healVectors embed db).1)
  if healed = 0 then con else con.commit

/-- Whether the repair commits. -/
def commitsRepair (vectorEnabled : Bool) (embed : Nat → String → Option String) (db : Database) :
    Bool :=
  vectorEnabled &&
    (!(orphanVectors db).isEmpty || (healVectors embed (dropOrphans db)).2 ≠ 0)

/-- The passes after the main transaction, to `con.close()`. -/
def postIngest {p : Platform} (input : IngestInput p) {start : Mesh} (post : PostIngest start)
    (mesh : Mesh) : Mesh × Option Nat :=
  let (con, findings) := scanPass p post.fs post.scanIds.draw post.now input.batch.capabilities
    (.settled mesh)
  let con := trackPass post.dependencyIds.draw (declaredEdges p input.batch.capabilities) con
  let con := if input.vectorEnabled then repairVectors post.embed con else con
  (con.committed, findings)

/-- The catalogs the passes commit: one for each script and for the end of the scans, which reach
other tables, and those of the repair. -/
def passCommits {p : Platform} (input : IngestInput p) (embed : Nat → String → Option String)
    (db : Database) : List Database :=
  let scans := input.batch.capabilities.countP (·.uri ≠ "")
  let edges := (declaredEdges p input.batch.capabilities).length
  let kept := List.replicate (scans + (if scans = 0 then 0 else 1) + (edges + 1)) db
  if input.vectorEnabled then
    let swept := dropOrphans db
    let (healed, count) := healVectors embed swept
    kept ++ (if (orphanVectors db).isEmpty then [] else [swept]) ++
      if count = 0 then [] else [healed]
  else kept

/-- `ingest_index`: the committed state, and the counts of the changes with the reported malware
findings. -/
def ingestIndex (p : Platform) (mesh : Mesh) (input : IngestInput p) (post : PostIngest mesh) :
    Mesh × Except Failure (Changes × Option Nat) :=
  let (db, outcome) := ingest p mesh.registry.db input
  let committed := mesh.onCatalog fun _ => db
  match outcome with
  | .error failure => (committed, .error failure)
  | .ok changes =>
      let (final, findings) := postIngest input post committed
      (final, .ok (changes, findings))

section

variable {p : Platform} {input : IngestInput p} {con : Connection Mesh}

theorem scan_pass_registry (fs : FileSystem) (ids : Nat → String) (now : String)
    (caps : List Capability) (con : Connection Mesh) :
    (scanPass p fs ids now caps con).1.working.registry = con.working.registry := by
  have hstep : ∀ state cap, state.con.working.registry = con.working.registry →
      (scanStep p fs ids now state cap).con.working.registry = con.working.registry := by
    intro state cap h
    unfold scanStep
    split
    · exact h
    · dsimp only
      split
      · rename_i result mesh hscan
        refine Eq.trans ?_ h
        unfold scanCapability at hscan
        split at hscan
        · cases hscan
          rfl
        · obtain ⟨verdict, -, hscan⟩ := bind_eq_ok hscan
          obtain ⟨table, -, hscan⟩ := bind_eq_ok hscan
          cases hscan
          rfl
      · exact h
  have hrun : (run (scanStep p fs ids now) ⟨con, 0, 0⟩ caps).con.working.registry =
      con.working.registry :=
    run_invariant (I := fun state : Scanning =>
      state.con.working.registry = con.working.registry) hstep caps rfl
  unfold scanPass
  dsimp only
  split
  · exact hrun
  · exact hrun

/-- The catalog rows and the scans of a connection, committed and in its working copy. -/
structure Holds (rows : Table CapabilityRow) (scans : Option (Table ScanRow))
    (con : Connection Mesh) : Prop where
  committed : con.committed.registry.db.capabilities = rows ∧ con.committed.scans = scans
  working : con.working.registry.db.capabilities = rows ∧ con.working.scans = scans

variable {rows : Table CapabilityRow} {scans : Option (Table ScanRow)}

@[simp] theorem heal_vectors_capabilities (embed : Nat → String → Option String) (db : Database) :
    (healVectors embed db).1.capabilities = db.capabilities := by
  unfold healVectors
  split <;> rfl

/-- The passes commit the rows of the main transaction. -/
theorem pass_commits_capabilities {embed : Nat → String → Option String} {db after : Database}
    (h : after ∈ passCommits input embed db) : after.capabilities = db.capabilities := by
  unfold passCommits at h
  dsimp only at h
  split at h
  · rcases List.mem_append.mp h with h | h
    · rcases List.mem_append.mp h with h | h
      · rw [List.eq_of_mem_replicate h]
      · split at h
        · cases h
        · rw [List.mem_singleton.mp h]
          rfl
    · split at h
      · cases h
      · rw [List.mem_singleton.mp h]
        exact heal_vectors_capabilities _ _
  · rw [List.eq_of_mem_replicate h]

theorem Holds.repair (h : Holds rows scans con) (embed : Nat → String → Option String) :
    Holds rows scans (repairVectors embed con) := by
  unfold repairVectors
  dsimp only
  split <;> split <;> constructor <;>
    simp [Mesh.onCatalog, dropOrphans, h.committed, h.working]

/-- A connection with the catalog and the scans of a mesh, committed and in its working copy. -/
structure Stands (mesh : Mesh) (con : Connection Mesh) : Prop where
  committed : con.committed.registry.db = mesh.registry.db ∧ con.committed.scans = mesh.scans
  working : con.working.registry.db = mesh.registry.db ∧ con.working.scans = mesh.scans

/-- The dependency pass commits what it starts on, and reaches neither the catalog nor the scans. -/
theorem track_pass_stands (ids : Nat → String) (edges : List Edge) (con : Connection Mesh) :
    Stands con.working (trackPass ids edges con) := by
  refine run_invariant (I := Stands con.working) (fun after dependency h => ?_) _
    ⟨⟨rfl, rfl⟩, rfl, rfl⟩
  unfold trackStep
  dsimp only
  split
  · rename_i registry hadd
    refine ⟨h.working, ?_⟩
    unfold addDependency at hadd
    split at hadd
    · cases hadd
    · split at hadd
      · cases hadd
        exact h.working
      · obtain ⟨table, -, hadd⟩ := bind_eq_ok hadd
        cases hadd
        exact h.working
  · exact ⟨h.working, h.working⟩

theorem Holds.track
    (h : con.working.registry.db.capabilities = rows ∧ con.working.scans = scans)
    (ids : Nat → String) (edges : List Edge) : Holds rows scans (trackPass ids edges con) := by
  obtain ⟨hcommitted, hworking⟩ := track_pass_stands ids edges con
  exact ⟨⟨by rw [hcommitted.1, h.1], hcommitted.2.trans h.2⟩,
    ⟨by rw [hworking.1, h.1], hworking.2.trans h.2⟩⟩

variable (input) in
/-- After the passes the catalog has the rows of the main transaction, and the scans are those of
the scan pass. -/
theorem post_ingest_leaves {start : Mesh} (post : PostIngest start) (mesh : Mesh) :
    (postIngest input post mesh).1.registry.db.capabilities = mesh.registry.db.capabilities ∧
      (postIngest input post mesh).1.scans = (scanPass p post.fs post.scanIds.draw post.now
        input.batch.capabilities (.settled mesh)).1.working.scans := by
  unfold postIngest
  dsimp only
  have hscanned : (scanPass p post.fs post.scanIds.draw post.now input.batch.capabilities
      (.settled mesh)).1.working.registry = mesh.registry := scan_pass_registry ..
  have htracked := Holds.track ⟨congrArg (·.db.capabilities) hscanned, rfl⟩
    post.dependencyIds.draw (declaredEdges p input.batch.capabilities)
  split
  · exact (htracked.repair post.embed).committed
  · exact htracked.committed

/-- What a successful run did: the main transaction, and the passes on its catalog. -/
theorem ingest_index_ok {mesh final : Mesh} {post : PostIngest mesh}
    {outcome : Changes × Option Nat} (h : ingestIndex p mesh input post = (final, .ok outcome)) :
    ∃ db, ingest p mesh.registry.db input = (db, .ok outcome.1) ∧
      postIngest input post (mesh.onCatalog fun _ => db) = (final, outcome.2) := by
  unfold ingestIndex at h
  dsimp only at h
  split at h
  · cases h
  · rename_i changes hchanges
    cases h
    exact ⟨_, Prod.ext rfl hchanges, rfl⟩

/-- What a run reports, from its outcome. -/
theorem ingest_index_of_outcome {mesh : Mesh} {post : PostIngest mesh}
    {outcome : Changes × Option Nat}
    (h : (ingestIndex p mesh input post).2.toOption = some outcome) :
    ingestIndex p mesh input post = ((ingestIndex p mesh input post).1, .ok outcome) := by
  refine Prod.ext rfl ?_
  cases houtcome : (ingestIndex p mesh input post).2 with
  | error failure => simp [houtcome, Except.toOption] at h
  | ok result =>
      rw [houtcome] at h
      exact congrArg Except.ok (Option.some.inj h)

end

/-- Identifiers that differ in length. -/
def lengthIds (used : String → Prop) (h : ∀ n, ¬ used (String.ofList (List.replicate n 'f'))) :
    FreshIds used where
  draw n := String.ofList (List.replicate n 'f')
  injective a b hab := by
    have hlength := congrArg String.length hab
    simpa using hlength
  fresh := h

end Capmesh
