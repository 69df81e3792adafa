import Capmesh.Access.Evaluate
import Capmesh.Execution.Transaction
import Capmesh.Registry.Dispatch

/-!
# Delegating a task and processing it

`cap.delegate` and `cap.process` as the HTTP server serves them, on the connection of a worker
thread. A delegation leaves a file and, in a transaction that nobody commits, a row of
`task_envelopes` under an id of its own; the server rolls back what is still open after the call.
`delegated_task_found_iff` says when `cap.process` finds the task.
-/

namespace Capmesh

open Python Relational Execution

/-- The error that a tool returns. -/
structure ToolError where
  code : String := "CAPABILITY_MESH_ERROR"
  message : String
  deriving DecidableEq, Repr

/-- `require_scope(principal, "cap:delegate")`. -/
def Principal.mayDelegate (principal : Principal) : Bool :=
  ["cap:delegate", "cap:*", "cap.delegate", "cap.delegate:*"].any principal.scopes.contains

/-- What `_validate_authoritative_bundle` returns. -/
structure DelegatedBundle where
  context : Dict
  bundleHash : String
  bindingHash : String

/-- What `cap.delegate` calls besides the catalog: the validation of the bundle, its signed receipt
for a task, and the policy decisions that the validation and the access check record. -/
structure DelegationHost where
  authoritative : Bool
  validateBundle : Database → Capability → String → Option Json → Principal →
    Except Failure DelegatedBundle
  bundleReceipt : String → DelegatedBundle → Except Failure Json
  decisions : Registry → List AuditEvent

/-- One request, with the ids and the time it draws and what its access check reads. -/
structure DelegateCall where
  params : Dict
  principal : Principal
  directory : Directory
  orgCache : String → String → Option (Option String)
  now : String
  taskHex : String
  envelopeHex : String

/-- The state a request meets: the connection of its thread, and the files under `tasks/`. -/
structure TaskServer where
  con : Connection Registry
  files : List (String × Json)

namespace DelegateCall

variable (p : Platform) (call : DelegateCall)

/-- The id that `cap.delegate` gives the task. -/
def taskId : String := "cap-task-" ++ call.taskHex

/-- The id that `create_task_envelope` draws. -/
def envelopeId : String := "task_" ++ call.envelopeHex

/-- `principal.tenant_id or "asg"`. -/
def tenant : String := orElse call.principal.tenantId "asg"

/-- `resolve_capability`. -/
def resolveCapability (db : Database) : Option Capability :=
  let name := fieldOr call.params "uri" (fieldOr call.params "name" "")
  if name = "" then none else getCapability db name

/-- `str(params.get("task") or "").strip()`. -/
def task : String := p.stripSpace (fieldOr call.params "task" "")

/-- The routing that the envelope carries. -/
def routing (cap : Capability) : Dict :=
  routeModel p
    { riskTier := cap.riskTier.text, mutating := cap.mutating, task := call.task p
      metadata := cap.metadata
      override := some (p.stripSpace (fieldOr call.params "modelTier" "")) }

/-- The record of a delegation, as its file and its row have it. -/
def record (cap : Capability) (bundle : DelegatedBundle) (receipt : Json) : Json :=
  .obj [("taskId", .str call.taskId), ("ts", .str call.now), ("agentUri", .str cap.uri),
    ("agentName", .str cap.name), ("task", .str (call.task p)), ("context", .obj bundle.context),
    ("capmeshBundleReceipt", receipt), ("principal", .str call.principal.subject),
    ("status", .str "queued"),
    ("note", .str ("Task envelope created for an external agent runner. " ++
      "No bulk agent context was loaded.")),
    ("modelRouting", .obj (call.routing p cap))]

end DelegateCall

/-- The error that `CapabilityRouter.call` makes of an exception. -/
def routedError (tool : String) : Failure → ToolError
  | .permission _ =>
      ⟨"FORBIDDEN",
        "The authenticated principal is not authorized for this capability operation."⟩
  | .value _ => ⟨"INVALID_ARGUMENT", tool ++ " rejected the supplied arguments."⟩
  | .integrity _ =>
      ⟨"INTERNAL_ERROR",
        tool ++ " failed because the capability store could not complete the operation."⟩
  | _ => ⟨"INTERNAL_ERROR", tool ++ " raised."⟩

/-- The checks of `cap.delegate`, up to the record it writes. -/
def delegatedRecord (p : Platform) (host : DelegationHost) (reg : Registry) (call : DelegateCall) :
    Except ToolError (Capability × Json) :=
  if !host.authoritative then
    .error ⟨"NOT_AUTHORITATIVE",
      "Delegation writes are served only by the authoritative node."⟩
  else if !call.principal.mayDelegate then
    .error ⟨"INSUFFICIENT_SCOPE", "Missing required scope: cap:delegate"⟩
  else match call.resolveCapability reg.db with
    | none =>
        .error ⟨"CAPABILITY_NOT_FOUND",
          "Agent capability not found. Run cap.search with type=agent first."⟩
    | some cap =>
        let access := evaluateAccess p ⟨reg.db, call.directory, call.orgCache, call.now⟩
          { principal := call.principal, right := "delegate", capability := some cap }
        if !access.allowed then
          .error ⟨"FORBIDDEN", orElse access.reason "Capability not authorized."⟩
        else if cap.capabilityType ≠ .agent then
          .error { message := "cap.delegate requires an agent capability." }
        else if call.task p = "" then .error { message := "task is required." }
        else match host.validateBundle reg.db cap (call.task p) (call.params.lookup "context")
            call.principal with
          | .error (.value text) => .error ⟨"INVALID_ARGUMENT", text⟩
          | .error failure => .error (routedError "cap.delegate" failure)
          | .ok bundle =>
              match host.bundleReceipt call.taskId bundle with
              | .error failure => .error (routedError "cap.delegate" failure)
              | .ok receipt => .ok (cap, call.record p cap bundle receipt)

/-- `create_task_envelope(…, commit=False)`, with its exceptions swallowed. -/
def queueEnvelope (call : DelegateCall) (cap : Capability) (record : Json)
    (con : Connection Registry) : Connection Registry :=
  let con := con.executescript Registry.ensureTaskTable
  match createTaskEnvelope call.envelopeId call.tenant cap.uri call.principal.subject call.now
      record con.working with
  | .ok reg => con.write fun _ => reg
  | .error _ => con

/-- `_commit_policy_audit`, once the access check is reached: the policy decisions are committed
with whatever the connection had written. -/
def commitPolicyAudit (host : DelegationHost) (call : DelegateCall) (con : Connection Registry) :
    Connection Registry :=
  if host.authoritative && call.principal.mayDelegate &&
      (call.resolveCapability con.working.db).isSome then
    (con.write fun reg => { reg with audit := reg.audit ++ host.decisions reg }).commit
  else con

/-- `cap.delegate`. -/
def capDelegate (p : Platform) (host : DelegationHost) (server : TaskServer) (call : DelegateCall) :
    TaskServer × Except ToolError Json :=
  let decided := commitPolicyAudit host call server.con
  match delegatedRecord p host server.con.working call with
  | .error failure => ({ server with con := decided }, .error failure)
  | .ok (cap, record) =>
      let path := call.taskId ++ ".json"
      if server.files.any (·.1 = path) then
        ({ server with con := decided }, .error (routedError "cap.delegate" (.os "File exists")))
      else
        (⟨queueEnvelope call cap record decided, server.files ++ [(path, record)]⟩, .ok record)

/-- `POST /mcp`: what is still open after the call is rolled back. -/
def serveDelegate (p : Platform) (host : DelegationHost) (server : TaskServer)
    (call : DelegateCall) : TaskServer × Except ToolError Json :=
  let (after, result) := capDelegate p host server call
  ({ after with con := after.con.rollback }, result)

/-- `task_status`. -/
def taskStatus (con : Connection Registry) (id tenant : String) : Except Failure TaskRow :=
  match taskOf (con.executescript Registry.ensureTaskTable).working.taskTable id tenant with
  | some row => .ok row
  | none => .error (.value ("Task not found: " ++ id))

/-- What `cap.process` finds under the id of a task. -/
inductive FoundTask where
  | ready (row : TaskRow)
  /-- The result has the status `error` and this text. -/
  | unprocessable (text : String)

/-- What `cap.process` starts with once it has checked its node and the scope: it finds the task, and
asks whether it is in a state it may process. -/
def capProcessFinds (server : TaskServer) (taskId tenant : String) : Except ToolError FoundTask :=
  match taskStatus server.con taskId tenant with
  | .error (.value text) => .error ⟨"TASK_NOT_FOUND", text⟩
  | .error failure => .error (routedError "cap.process" failure)
  | .ok row =>
      if row.status.processable then .ok (.ready row)
      else .ok (.unprocessable ("Task is not in a processable state: " ++ row.status.text))

/-- The delegated task can be processed: `cap.process` finds it queued, with the delegated record as
its envelope. -/
def Processed (server : TaskServer) (call : DelegateCall) (record : Json) : Prop :=
  ∃ row, capProcessFinds server call.taskId call.tenant = .ok (.ready row) ∧ row.status = .queued ∧
    row.envelope = record

section

variable {p : Platform} {host : DelegationHost} {server after : TaskServer} {call : DelegateCall}
  {record : Json}

/-- Policy decisions leave the tasks alone. -/
theorem commit_policy_audit_tasks (host : DelegationHost) (call : DelegateCall)
    (con : Connection Registry) :
    (commitPolicyAudit host call con).working.taskTable = con.working.taskTable := by
  unfold commitPolicyAudit
  split <;> rfl

/-- Nothing of a new row survives the rollback. -/
theorem queue_envelope_rollback (call : DelegateCall) (cap : Capability) (record : Json)
    (con : Connection Registry) :
    (queueEnvelope call cap record con).rollback = .settled con.working.ensureTaskTable := by
  unfold queueEnvelope
  dsimp only
  split <;> rfl

/-- What a delegation that succeeds leaves of the tasks: those there were before. -/
theorem serve_delegate_tasks (h : serveDelegate p host server call = (after, .ok record)) :
    after.con.working.taskTable = server.con.working.taskTable := by
  unfold serveDelegate capDelegate at h
  dsimp only at h
  split at h
  · simp at h
  · rename_i cap delegated hrecord
    split at h
    · simp at h
    · obtain ⟨rfl, -⟩ := Prod.mk.inj h
      dsimp only
      rw [queue_envelope_rollback]
      exact commit_policy_audit_tasks host call server.con

theorem cap_process_finds_iff (server : TaskServer) (taskId tenant : String) (row : TaskRow) :
    capProcessFinds server taskId tenant = .ok (.ready row) ↔
      taskOf server.con.working.taskTable taskId tenant = some row ∧
        row.status.processable = true := by
  have htable : (server.con.executescript Registry.ensureTaskTable).working.taskTable =
      server.con.working.taskTable := rfl
  unfold capProcessFinds taskStatus
  rw [htable]
  cases taskOf server.con.working.taskTable taskId tenant with
  | none => simp
  | some found =>
      by_cases hstatus : found.status.processable = true
      · simp only [hstatus, if_true, Except.ok.injEq, FoundTask.ready.injEq, Option.some.injEq]
        constructor
        · rintro rfl
          exact ⟨rfl, hstatus⟩
        · exact fun h => h.1
      · simp only [hstatus, Option.some.injEq]
        constructor
        · intro hfound
          cases hfound
        · rintro ⟨rfl, hprocessable⟩
          exact absurd hprocessable hstatus

/-- **When a delegated task can be processed.** After a delegation that succeeded, `cap.process`
finds the task exactly when the table held it before: a queued row of the tenant under the id that
the delegation was going to draw, with the record it was going to write. -/
theorem delegated_task_found_iff
    (h : serveDelegate p host server call = (after, .ok record)) :
    Processed after call record ↔
      ∃ row, taskOf server.con.working.taskTable call.taskId call.tenant = some row ∧
        row.status = .queued ∧ row.envelope = record := by
  unfold Processed
  simp only [cap_process_finds_iff, serve_delegate_tasks h]
  constructor
  · rintro ⟨row, ⟨hrow, -⟩, hqueued, henvelope⟩
    exact ⟨row, hrow, hqueued, henvelope⟩
  · rintro ⟨row, hrow, hqueued, henvelope⟩
    refine ⟨row, ⟨hrow, ?_⟩, hqueued, henvelope⟩
    rw [hqueued]
    rfl

/-- Tasks whose ids `create_task_envelope` drew. -/
def Drawn (tasks : Table TaskRow) : Prop := ∀ row ∈ tasks, startsWith row.id "task_" = true

/-- Where all tasks were created by `create_task_envelope`, no delegated task can be processed. -/
theorem delegated_task_not_found (h : serveDelegate p host server call = (after, .ok record))
    (hdrawn : Drawn server.con.working.taskTable) : ¬ Processed after call record := by
  rintro ⟨row, hfinds, -, -⟩
  obtain ⟨hrow, -⟩ := (cap_process_finds_iff after call.taskId call.tenant row).mp hfinds
  rw [serve_delegate_tasks h] at hrow
  obtain ⟨hmem, hid⟩ := task_at_some (task_at_of_task_of hrow)
  have hstart := hdrawn row hmem
  rw [hid] at hstart
  simp [startsWith, DelegateCall.taskId] at hstart

end

/-- An agent of the catalog. -/
def summaryAgent : Capability :=
  { notesSkill "sha256:v1" with
    uri := "cap://asg.local/agent/notes.notes@0-1-0", capabilityType := .agent
    canonicalKey := "agent:notes:notes:0-1-0" }

/-- The server with this agent, before any task. -/
def agentServer : TaskServer where
  con := .settled ⟨{ Database.empty with
      capabilities := ⟨[⟨1, summaryAgent⟩], List.pairwise_singleton _ _⟩ },
    true, [], some .empty, some .empty, none⟩
  files := []

/-- The authoritative node; every bundle is valid. -/
def openDelegation : DelegationHost where
  authoritative := true
  validateBundle _ _ _ _ _ := .ok ⟨[], "sha256:bundle", "sha256:binding"⟩
  bundleReceipt _ _ := .ok (.str "receipt")
  decisions _ := []

/-- An administrator delegates a task to the agent. -/
def delegateNotes : DelegateCall where
  params := [("uri", .str summaryAgent.uri), ("task", .str "Summarize the notes.")]
  principal := { subject := "alice", tenantId := "asg", roles := ["platform_admin"] }
  directory := ⟨[], [], [], [], []⟩
  orgCache _ _ := none
  now := "2026-01-01"
  taskHex := "00ff"
  envelopeHex := "01ff"

theorem delegate_notes_ok : ∃ after record,
    serveDelegate .sample openDelegation agentServer delegateNotes = (after, .ok record) := by
  have hok : (serveDelegate .sample openDelegation agentServer delegateNotes).2.isOk = true := by
    decide +kernel
  cases hresult : serveDelegate .sample openDelegation agentServer delegateNotes with
  | mk after result =>
      rw [hresult] at hok
      cases result with
      | error failure => cases hok
      | ok record => exact ⟨after, record, rfl⟩

/-- The task of the administrator cannot be processed: the table held none before. -/
theorem delegated_task_found_iff_notes : ∃ after record,
    serveDelegate .sample openDelegation agentServer delegateNotes = (after, .ok record) ∧
      ¬ Processed after delegateNotes record := by
  obtain ⟨after, record, h⟩ := delegate_notes_ok
  refine ⟨after, record, h, fun hprocessed => ?_⟩
  obtain ⟨row, hrow, -⟩ := (delegated_task_found_iff h).mp hprocessed
  cases hrow

/-- A delegation that succeeds leaves a task that cannot be processed. -/
theorem delegated_task_lost :
    ¬ ∀ (p : Platform) (host : DelegationHost) (server after : TaskServer) (call : DelegateCall)
      (record : Json), serveDelegate p host server call = (after, .ok record) →
      Processed after call record := by
  intro hclaim
  obtain ⟨after, record, h⟩ := delegate_notes_ok
  refine delegated_task_not_found h (fun row hrow => ?_) (hclaim _ _ _ _ _ _ h)
  exact absurd hrow (Table.not_mem_empty row)

end Capmesh
