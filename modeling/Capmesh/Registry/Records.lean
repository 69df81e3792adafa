import Capmesh.CapGuard.StateMachine

/-!
# The registry log, the dependency graph and the task queue

`registry_log.py`, `dependency_graph.py` and `task_runner.py`. Each function makes sure of its
table first and then reads and writes it. A `Registry` is the catalog database with these
tables, which are `none` until they are created, and the audit trail.
-/

namespace Capmesh

open Python Relational

/-- A row of `registry_log`. -/
structure LogRow where
  id : String
  sequence : Int
  eventType : String
  actor : String
  targetUri : Option String
  action : String
  payload : String
  prevHash : Option String
  entryHash : String
  createdAt : String
  deriving DecidableEq, Repr

/-- The primary key, and the unique sequence number and hash. -/
instance : Constrained LogRow where
  Conflict a b := a.id = b.id ∨ a.sequence = b.sequence ∨ a.entryHash = b.entryHash
  symm h := by
    rcases h with h | h | h
    · exact .inl h.symm
    · exact .inr (.inl h.symm)
    · exact .inr (.inr h.symm)

/-- A row of `capability_dependencies`. -/
structure DependencyRow where
  id : String
  tenantId : String
  capabilityUri : String
  dependsOnUri : String
  versionConstraint : String
  requiredType : Option String
  deriving DecidableEq, Repr

/-- Whether a row is the edge between two capabilities of a tenant. -/
def DependencyRow.IsEdge (row : DependencyRow) (tenant uri dependsOn : String) : Prop :=
  row.tenantId = tenant ∧ row.capabilityUri = uri ∧ row.dependsOnUri = dependsOn

instance (row : DependencyRow) (tenant uri dependsOn : String) :
    Decidable (row.IsEdge tenant uri dependsOn) := inferInstanceAs (Decidable (_ ∧ _ ∧ _))

/-- The primary key, and `UNIQUE(tenant_id, capability_uri, depends_on_uri)`. -/
instance : Constrained DependencyRow where
  Conflict a b := a.id = b.id ∨ a.IsEdge b.tenantId b.capabilityUri b.dependsOnUri
  symm h := by
    rcases h with h | ⟨htenant, huri, hdependsOn⟩
    · exact .inl h.symm
    · exact .inr ⟨htenant.symm, huri.symm, hdependsOn.symm⟩

/-- `TASK_STATUSES`. -/
inductive TaskStatus where
  | queued | running | completed | failed | cancelled
  deriving DecidableEq, Repr

/-- The text of a task status. -/
def TaskStatus.text : TaskStatus → String
  | .queued => "queued"
  | .running => "running"
  | .completed => "completed"
  | .failed => "failed"
  | .cancelled => "cancelled"

/-- A row of `task_envelopes`. -/
structure TaskRow where
  id : String
  tenantId : String
  capabilityUri : String
  principal : String
  status : TaskStatus
  envelope : Json
  result : Option Json := none
  error : Option String := none
  createdAt : String
  startedAt : Option String := none
  completedAt : Option String := none
  updatedAt : String

instance : Constrained TaskRow where
  Conflict a b := a.id = b.id
  symm h := h.symm

/-- A row of `audit_events`. -/
structure AuditEvent where
  tenantId : String
  eventType : String
  actor : String
  target : String
  action : String
  deriving DecidableEq, Repr

/-- The catalog database with the tables of its dependent operations. -/
structure Registry where
  db : Database
  guarded : Bool
  audit : List AuditEvent
  log : Option (Table LogRow)
  dependencies : Option (Table DependencyRow)
  tasks : Option (Table TaskRow)

namespace Registry

variable (reg : Registry)

/-- `ensure_quarantine_tables`. -/
def ensureQuarantineTables : Registry := { reg with guarded := true }

/-- `ensure_registry_log_table`. -/
def ensureRegistryLogTable : Registry := { reg with log := some (reg.log.getD .empty) }

/-- `ensure_dependency_table`. -/
def ensureDependencyTable : Registry :=
  { reg with dependencies := some (reg.dependencies.getD .empty) }

/-- `ensure_task_table`. -/
def ensureTaskTable : Registry := { reg with tasks := some (reg.tasks.getD .empty) }

/-- The rows of `registry_log`. -/
def logTable : Table LogRow := reg.log.getD .empty

/-- The rows of `capability_dependencies`. -/
def dependencyTable : Table DependencyRow := reg.dependencies.getD .empty

/-- The rows of `task_envelopes`. -/
def taskTable : Table TaskRow := reg.tasks.getD .empty

end Registry

/-- The arguments of `append_log_entry`, with the id and the time it draws. -/
structure LogEntry where
  id : String
  now : String
  eventType : String
  actor : String
  action : String
  targetUri : Option String := none
  payload : Json := .obj []

/-- The entry with the highest sequence number. -/
def lastEntry (rows : List LogRow) : Option LogRow :=
  rows.foldl (fun best row =>
    match best with
    | none => some row
    | some entry => if entry.sequence < row.sequence then some row else some entry) none

/-- The text that `_compute_entry_hash` hashes. -/
def hashedText (sequence : Int) (entry : LogEntry) (payload : String) (prevHash : Option String) :
    String :=
  join "|" [toString sequence, entry.eventType, entry.actor, entry.targetUri.getD "",
    entry.action, payload, prevHash.getD ""]

/-- `_compute_entry_hash`. -/
def computeEntryHash (p : Platform) (sequence : Int) (entry : LogEntry) (payload : String)
    (prevHash : Option String) : String :=
  p.sha256Text (hashedText sequence entry payload prevHash)

/-- `append_log_entry`, after its table was made sure of. -/
def appendLogEntry (p : Platform) (entry : LogEntry) (reg : Registry) :
    Except Failure Registry := do
  let last := lastEntry reg.logTable.rows
  let sequence := (last.map (·.sequence + 1)).getD 1
  let prevHash := last.map (·.entryHash)
  let payload := entry.payload.jsonDumps
  let log ← constrained "registry_log" (reg.logTable.insert?
    { id := entry.id, sequence, eventType := entry.eventType, actor := entry.actor
      targetUri := entry.targetUri, action := entry.action, payload, prevHash
      entryHash := computeEntryHash p sequence entry payload prevHash, createdAt := entry.now })
  .ok { reg with log := some log }

/-- The arguments of `add_dependency`, with the id it draws. -/
structure Dependency where
  id : String
  capabilityUri : String
  dependsOnUri : String
  versionConstraint : String := "*"
  requiredType : Option String := none
  tenantId : String := "asg"

/-- The row of a dependency. -/
def Dependency.row (dependency : Dependency) : DependencyRow where
  id := dependency.id
  tenantId := dependency.tenantId
  capabilityUri := dependency.capabilityUri
  dependsOnUri := dependency.dependsOnUri
  versionConstraint := dependency.versionConstraint
  requiredType := dependency.requiredType

/-- The `DO UPDATE` clause of `add_dependency`. -/
def DependencyRow.refresh (dependency : Dependency) (row : DependencyRow) : DependencyRow :=
  if row.IsEdge dependency.tenantId dependency.capabilityUri dependency.dependsOnUri then
    { row with
      versionConstraint := dependency.versionConstraint
      requiredType := dependency.requiredType }
  else row

theorem refresh_key (dependency : Dependency) (row : DependencyRow) :
    (row.refresh dependency).id = row.id ∧ (row.refresh dependency).tenantId = row.tenantId ∧
      (row.refresh dependency).capabilityUri = row.capabilityUri ∧
      (row.refresh dependency).dependsOnUri = row.dependsOnUri := by
  unfold DependencyRow.refresh
  split <;> exact ⟨rfl, rfl, rfl, rfl⟩

theorem refresh_conflict (dependency : Dependency) (a b : DependencyRow)
    (h : Constrained.Conflict (a.refresh dependency) (b.refresh dependency)) :
    Constrained.Conflict a b := by
  obtain ⟨haId, haTenant, haUri, haDependsOn⟩ := refresh_key dependency a
  obtain ⟨hbId, hbTenant, hbUri, hbDependsOn⟩ := refresh_key dependency b
  rcases h with h | ⟨htenant, huri, hdependsOn⟩
  · exact .inl (haId ▸ hbId ▸ h)
  · refine .inr ⟨?_, ?_, ?_⟩
    · rw [← haTenant, htenant, hbTenant]
    · rw [← haUri, huri, hbUri]
    · rw [← haDependsOn, hdependsOn, hbDependsOn]

/-- `add_dependency`, after its table was made sure of. -/
def addDependency (dependency : Dependency) (reg : Registry) : Except Failure Registry :=
  if dependency.capabilityUri = dependency.dependsOnUri then
    .error (.value "A capability cannot depend on itself")
  else if reg.dependencyTable.rows.any fun row =>
      row.IsEdge dependency.tenantId dependency.capabilityUri dependency.dependsOnUri then
    .ok
      { reg with
        dependencies := some
          (reg.dependencyTable.map (·.refresh dependency) (refresh_conflict dependency)) }
  else do
    let table ← constrained "capability_dependencies.id"
      (reg.dependencyTable.insert? dependency.row)
    .ok { reg with dependencies := some table }

/-- `remove_dependency`, after its table was made sure of. -/
def removeDependency (tenant uri dependsOn : String) (reg : Registry) : Registry :=
  { reg with
    dependencies := some
      (reg.dependencyTable.filter fun row => !row.IsEdge tenant uri dependsOn) }

/-- `create_task_envelope`, after its table was made sure of. -/
def createTaskEnvelope (id tenant uri principal now : String) (envelope : Json) (reg : Registry) :
    Except Failure Registry := do
  let table ← constrained "task_envelopes.id" (reg.taskTable.insert?
    { id, tenantId := tenant, capabilityUri := uri, principal, status := .queued, envelope
      createdAt := now, updatedAt := now })
  .ok { reg with tasks := some table }

/-- `UPDATE task_envelopes SET … WHERE id = ?`. -/
def amendTask (table : Table TaskRow) (id : String) (change : TaskRow → TaskRow)
    (hchange : ∀ row, (change row).id = row.id) : Table TaskRow :=
  table.map (fun row => if row.id = id then change row else row) fun a b h => by
    have hid : ∀ row : TaskRow, (if row.id = id then change row else row).id = row.id := by
      intro row
      split
      · exact hchange row
      · rfl
    exact (hid a).symm.trans (Eq.trans h (hid b))

/-- `process_task`, after its table was made sure of; the handler raises an error or returns a
result. -/
def processTask (id tenant now : String) (handler : Json → Except String Json) (reg : Registry) :
    Except Failure Registry :=
  match reg.taskTable.find? fun row => row.id = id && row.tenantId = tenant with
  | none => .error (.value ("Task not found: " ++ id))
  | some row =>
      if row.status ≠ .queued && row.status ≠ .failed then
        .error (.value ("Task is not in a processable state: " ++ row.status.text))
      else
        let running := amendTask reg.taskTable id
          (fun row => { row with status := .running, startedAt := some now, updatedAt := now })
          fun _ => rfl
        match handler row.envelope with
        | .ok result =>
            let done := amendTask running id
              (fun row => { row with
                status := .completed, result := some result, completedAt := some now
                updatedAt := now }) fun _ => rfl
            .ok { reg with tasks := some done }
        | .error text =>
            let done := amendTask running id
              (fun row => { row with status := .failed, error := some text, updatedAt := now })
              fun _ => rfl
            .ok { reg with tasks := some done }

/-- The audit event of a successful operation on the quarantine store; identical content that is
still held leaves none. -/
def GuardCall.audit (p : Platform) (db : Database) : GuardCall → List AuditEvent
  | .quarantine request id =>
      if db.quarantine.rows.any fun row => row.Holds (p.tenantOr request.tenantId)
          request.capabilityUri request.contentHash then []
      else [⟨p.tenantOr request.tenantId, "capguard.quarantined",
        optOr request.submittedBy "system", id, "quarantine"⟩]
  | .scan id tenant _ scannerId .. =>
      [⟨p.tenantOr tenant, "capguard.scan.attested", scannerId, id, "scan"⟩]
  | .release id request _ =>
      [⟨p.tenantOr request.tenantId, "capguard.released", request.actor, id, "release"⟩]
  | .reject id tenant actor .. =>
      [⟨p.tenantOr tenant, "capguard.rejected", actor, id, "reject"⟩]

end Capmesh
