import Capmesh.Registry.Gateway

/-!
# Workers on the task queue

The statements of `dispatch_queued_task`, `process_task` and `cancel_task`, as they interleave. A
worker checks a task, sends its dispatch, waits for the answer, and only then hands it to
`process_task`, which looks again, marks the task running and finishes it. `queue_step_sound` is the
one statement about a step, and `tasks_well_run_along` carries it over a run;
`process_task_uninterrupted` compares the last three statements with `process_task` as a whole.
-/

namespace Capmesh

open Python Relational Execution

/-- Where a worker stands: inside `dispatch_queued_task`, or inside `cancel_task`. -/
inductive WorkerPhase where
  | idle
  | checked (id tenant : String) (envelope : Json)
  | waiting (id tenant : String) (request : GatewayRequest)
  | dispatched (id tenant : String) (result : DispatchResult)
  | selected (id : String) (result : DispatchResult)
  | running (id : String) (result : DispatchResult)
  | cancelling (id : String)

/-- The worker has sent the dispatch of a task and not marked it running. -/
def WorkerPhase.Holds (id : String) : WorkerPhase → Prop
  | .waiting other _ _ => other = id
  | .dispatched other _ _ => other = id
  | .selected other _ => other = id
  | _ => False

/-- The worker has marked a task running and not finished it. -/
def WorkerPhase.Runs (id : String) (result : DispatchResult) (phase : WorkerPhase) : Prop :=
  phase = .running id result

/-- The task table with its workers. The last three fields are what an observer notes down: the
tasks of the dispatches that were sent, the tasks that went into running, and how the dispatch of
the last such transition ended. -/
structure TaskQueue where
  tasks : Table TaskRow
  phases : Nat → WorkerPhase
  issued : List String
  started : List String
  outcome : String → Option DispatchStatus

/-- The row of a task. -/
def taskAt (tasks : Table TaskRow) (id : String) : Option TaskRow := tasks.find? fun row => row.id = id

/-- `SELECT … WHERE id = ? AND tenant_id = ?`. -/
def taskOf (tasks : Table TaskRow) (id tenant : String) : Option TaskRow :=
  tasks.find? fun row => row.id = id && row.tenantId = tenant

/-- The states that `process_task` takes a task in. -/
def TaskStatus.processable (status : TaskStatus) : Bool := status = .queued || status = .failed

/-- The states that `cancel_task` takes a task in. -/
def TaskStatus.cancellable (status : TaskStatus) : Bool := status = .queued || status = .running

/-- One statement of a worker, or the creation of a task. -/
inductive QueueStep where
  | create (id tenant uri principal now : String) (envelope : Json)
  | check (worker : Nat) (id tenant : String)
  | issue (worker : Nat)
  | reply (worker : Nat) (reply : GatewayReply) (now : String)
  | select (worker : Nat)
  | mark (worker : Nat) (now : String)
  | finish (worker : Nat) (now : String) (raised : Option String)
  | checkCancel (worker : Nat) (id tenant : String)
  | cancel (worker : Nat) (now : String)

namespace TaskRow

variable (row : TaskRow) (now : String)

/-- `SET status = 'running'`. -/
def start : TaskRow := { row with status := .running, startedAt := some now, updatedAt := now }

/-- `SET status = 'completed'`. -/
def complete (result : Json) : TaskRow :=
  { row with
    status := .completed, result := some result, completedAt := some now, updatedAt := now }

/-- `SET status = 'failed'`. -/
def fail (text : String) : TaskRow :=
  { row with status := .failed, error := some text, updatedAt := now }

/-- `SET status = 'cancelled'`. -/
def cancel : TaskRow := { row with status := .cancelled, updatedAt := now }

end TaskRow

namespace TaskQueue

/-- Without tasks, and with every worker idle. -/
def empty : TaskQueue := ⟨.empty, fun _ => .idle, [], [], fun _ => none⟩

variable (q : TaskQueue)

/-- A worker goes on to another phase. -/
def moveTo (worker : Nat) (phase : WorkerPhase) : TaskQueue :=
  { q with phases := fun other => if other = worker then phase else q.phases other }

/-- The observer notes a dispatch. -/
def noteIssued (id : String) : TaskQueue := { q with issued := id :: q.issued }

/-- `INSERT INTO task_envelopes`. -/
def create (id tenant uri principal now : String) (envelope : Json) : TaskQueue :=
  match q.tasks.insert?
      { id, tenantId := tenant, capabilityUri := uri, principal, status := .queued, envelope
        createdAt := now, updatedAt := now } with
  | some tasks => { q with tasks }
  | none => q

/-- `UPDATE task_envelopes SET status = 'running'`. -/
def setRunning (id now : String) (status : DispatchStatus) : TaskQueue :=
  { q with
    tasks := amendTask q.tasks id (·.start now) fun _ => rfl
    started := id :: q.started
    outcome := fun other => if other = id then some status else q.outcome other }

/-- The two ways `process_task` ends: `completed`, or `failed` with the text of an exception. -/
def setFinished (id now : String) (result : DispatchResult) : Option String → TaskQueue
  | none => { q with tasks := amendTask q.tasks id (·.complete now result.json) fun _ => rfl }
  | some text => { q with tasks := amendTask q.tasks id (·.fail now text) fun _ => rfl }

/-- `UPDATE task_envelopes SET status = 'cancelled'`. -/
def setCancelled (id now : String) : TaskQueue :=
  { q with tasks := amendTask q.tasks id (·.cancel now) fun _ => rfl }

end TaskQueue

/-- One step. A worker that is not at the statement stays where it is, and one that finds no task
it may work on goes idle. -/
def queueStep (p : Platform) (q : TaskQueue) : QueueStep → TaskQueue
  | .create id tenant uri principal now envelope => q.create id tenant uri principal now envelope
  | .check worker id tenant =>
      match q.phases worker, taskOf q.tasks id tenant with
      | .idle, some row =>
          if row.status.processable then q.moveTo worker (.checked id tenant row.envelope) else q
      | _, _ => q
  | .issue worker =>
      match q.phases worker with
      | .checked id tenant envelope =>
          match gatewayRequest p envelope with
          | some request => (q.noteIssued id).moveTo worker (.waiting id tenant request)
          | none => q.moveTo worker .idle
      | _ => q
  | .reply worker reply now =>
      match q.phases worker with
      | .waiting id tenant request =>
          q.moveTo worker (.dispatched id tenant (dispatchTask request now reply))
      | _ => q
  | .select worker =>
      match q.phases worker with
      | .dispatched id tenant result =>
          if (taskOf q.tasks id tenant).any (·.status.processable) then
            q.moveTo worker (.selected id result)
          else q.moveTo worker .idle
      | _ => q
  | .mark worker now =>
      match q.phases worker with
      | .selected id result => (q.setRunning id now result.status).moveTo worker (.running id result)
      | _ => q
  | .finish worker now raised =>
      match q.phases worker with
      | .running id result => (q.setFinished id now result raised).moveTo worker .idle
      | _ => q
  | .checkCancel worker id tenant =>
      match q.phases worker, taskOf q.tasks id tenant with
      | .idle, some row =>
          if row.status.cancellable then q.moveTo worker (.cancelling id) else q
      | _, _ => q
  | .cancel worker now =>
      match q.phases worker with
      | .cancelling id => (q.setCancelled id now).moveTo worker .idle
      | _ => q

/-- A task that is done with. -/
def TaskStatus.isFinal (status : TaskStatus) : Bool := status = .completed || status = .cancelled

/-- What the queue promises of a state. A dispatch belongs to a transition into running, and at most
one of them is still to come; a completed task has a dispatch that returned completed, and one whose
dispatch returned failed is failed, unless it was cancelled or is still to be finished. -/
structure TaskQueue.Safe (q : TaskQueue) : Prop where
  dispatchedOnce : ∀ id, q.issued.count id ≤ q.started.count id ∨
    (q.issued.count id ≤ q.started.count id + 1 ∧ ∃ worker, (q.phases worker).Holds id)
  completed : ∀ id row, taskAt q.tasks id = some row → row.status = .completed →
    q.outcome id = some .completed
  failed : ∀ id row, taskAt q.tasks id = some row → q.outcome id = some .failed →
    row.status = .failed ∨ row.status = .cancelled ∨
      (row.status = .running ∧ ∃ worker result, (q.phases worker).Runs id result)

/-- Completed and cancelled tasks stay as they are. -/
def TaskQueue.Keeps (before after : TaskQueue) : Prop :=
  ∀ id row, taskAt before.tasks id = some row → row.status.isFinal = true →
    ∃ later, taskAt after.tasks id = some later ∧ later.status = row.status

/-- The promise of the queue over a run: every state it passes through is safe, and keeps to its end
the tasks that were done with. -/
def TasksWellRun (p : Platform) (start : TaskQueue) (steps : List QueueStep) : Prop :=
  ∀ first second, steps = first ++ second →
    (run (queueStep p) start first).Safe ∧
      (run (queueStep p) start first).Keeps (run (queueStep p) start steps)

/-- The task is there, in a state that `process_task` takes. -/
def TaskQueue.Processable (q : TaskQueue) (id : String) : Prop :=
  ∃ row, taskAt q.tasks id = some row ∧ row.status.processable = true

/-- The state a statement was prepared for is the one it finds. A dispatch is sent for a task that
is still processable and has no other dispatch under way; `process_task` finds it processable, when
it looks and when it marks it; a running task is finished whose dispatch returned completed, or with
an exception; and a task is cancelled that is still queued or running. -/
def QueueStep.Undisturbed (p : Platform) (q : TaskQueue) : QueueStep → Prop
  | .issue worker => ∀ id tenant envelope, q.phases worker = .checked id tenant envelope →
      (gatewayRequest p envelope).isSome →
      q.Processable id ∧ ∀ other, ¬ (q.phases other).Holds id
  | .select worker => ∀ id tenant result, q.phases worker = .dispatched id tenant result →
      (taskOf q.tasks id tenant).any (·.status.processable) = true
  | .mark worker _ => ∀ id result, q.phases worker = .selected id result → q.Processable id
  | .finish worker _ raised => ∀ id result, q.phases worker = .running id result →
      (∃ row, taskAt q.tasks id = some row ∧ row.status = .running) ∧
        (raised = none → result.status = .completed)
  | .cancel worker _ => ∀ id, q.phases worker = .cancelling id →
      ∃ row, taskAt q.tasks id = some row ∧ row.status.cancellable = true
  | _ => True

/-- The invariant of the queue: one worker holds a task, one worker runs it, and a task that is
running in a worker is running, or cancelled, with the outcome that worker brought. -/
structure TaskQueue.Sound (q : TaskQueue) : Prop extends q.Safe where
  heldOnce : ∀ worker other id, (q.phases worker).Holds id → (q.phases other).Holds id →
    worker = other
  runOnce : ∀ worker other id result last, (q.phases worker).Runs id result →
    (q.phases other).Runs id last → worker = other
  running : ∀ worker id result, (q.phases worker).Runs id result →
    q.outcome id = some result.status ∧
      ∃ row, taskAt q.tasks id = some row ∧ (row.status = .running ∨ row.status = .cancelled)
  known : ∀ id, q.outcome id ≠ none → ∃ row, taskAt q.tasks id = some row

section

variable {p : Platform} {q : TaskQueue} {tasks : Table TaskRow} {row : TaskRow} {id : String}
  {worker : Nat}

theorem task_at_some (h : taskAt tasks id = some row) : row ∈ tasks ∧ row.id = id := by
  obtain ⟨hrow, hid⟩ := Table.find?_some h
  exact ⟨hrow, of_decide_eq_true hid⟩

theorem task_at_of_mem (h : row ∈ tasks) : taskAt tasks row.id = some row :=
  Table.find?_eq_some h (decide_eq_true rfl) fun _ _ hid => of_decide_eq_true hid

theorem task_at_of_task_of {tenant : String} (h : taskOf tasks id tenant = some row) :
    taskAt tasks id = some row := by
  obtain ⟨hrow, htest⟩ := Table.find?_some h
  simp only [Bool.and_eq_true, decide_eq_true_eq] at htest
  rw [← htest.1]
  exact task_at_of_mem hrow

theorem task_at_amend (id other : String) (change : TaskRow → TaskRow)
    (hchange : ∀ row, (change row).id = row.id) :
    taskAt (amendTask tasks id change hchange) other =
      (taskAt tasks other).map fun row => if row.id = id then change row else row := by
  unfold taskAt amendTask Table.find?
  rw [Table.rows_map, List.find?_map]
  congr 1
  refine congrArg (tasks.rows.find? ·) (funext fun row => ?_)
  show decide ((if row.id = id then change row else row).id = other) = decide (row.id = other)
  split
  · rw [hchange]
  · rfl

/-- The row of one task was changed, and no other. -/
structure AmendedTask (before after : Table TaskRow) (id : String) (row changed : TaskRow) :
    Prop where
  found : taskAt before id = some row
  self : taskAt after id = some changed
  other : ∀ task, task ≠ id → taskAt after task = taskAt before task

theorem amend_task_amended (h : taskAt tasks id = some row) (change : TaskRow → TaskRow)
    (hchange : ∀ row, (change row).id = row.id) :
    AmendedTask tasks (amendTask tasks id change hchange) id row (change row) where
  found := h
  self := by rw [task_at_amend, h, Option.map_some, if_pos (task_at_some h).2]
  other task hne := by
    rw [task_at_amend]
    cases hother : taskAt tasks task with
    | none => rfl
    | some other =>
        rw [Option.map_some, if_neg]
        rw [(task_at_some hother).2]
        exact hne

theorem task_at_insert {result : Table TaskRow} (h : tasks.insert? row = some result)
    (other : String) :
    taskAt result other = if other = row.id then some row else taskAt tasks other := by
  have hrows := Table.rows_insert? h
  unfold taskAt Table.find?
  rw [hrows, List.find?_append]
  by_cases hid : other = row.id
  · subst hid
    have hnone : tasks.rows.find? (fun task => task.id = row.id) = none := by
      rw [List.find?_eq_none]
      intro task htask hsame
      exact Table.not_conflict_of_insert? h task htask (of_decide_eq_true hsame)
    rw [hnone, if_pos rfl]
    simp
  · have hid' : ¬ row.id = other := fun heq => hid heq.symm
    rw [if_neg hid]
    simp [hid']

namespace TaskQueue

variable {phase : WorkerPhase} {result : DispatchResult} {now : String}

@[simp] theorem move_to_tasks : (q.moveTo worker phase).tasks = q.tasks := rfl

theorem move_to_self : (q.moveTo worker phase).phases worker = phase := if_pos rfl

theorem move_to_of_ne {other : Nat} (h : other ≠ worker) :
    (q.moveTo worker phase).phases other = q.phases other := if_neg h

/-- The phase of any worker after one of them went on. -/
theorem move_to_cases (q : TaskQueue) (worker : Nat) (phase : WorkerPhase) (other : Nat) :
    (other = worker ∧ (q.moveTo worker phase).phases other = phase) ∨
      (other ≠ worker ∧ (q.moveTo worker phase).phases other = q.phases other) := by
  by_cases h : other = worker
  · exact .inl ⟨h, h ▸ move_to_self⟩
  · exact .inr ⟨h, move_to_of_ne h⟩

theorem Sound.moved (h : q.Sound)
    (hholds : ∀ id, phase.Holds id ↔ (q.phases worker).Holds id)
    (hruns : ∀ id result, phase.Runs id result ↔ (q.phases worker).Runs id result) :
    (q.moveTo worker phase).Sound := by
  have hheld : ∀ other id, ((q.moveTo worker phase).phases other).Holds id ↔
      (q.phases other).Holds id := by
    intro other id
    rcases move_to_cases q worker phase other with ⟨rfl, hphase⟩ | ⟨-, hphase⟩
    · rw [hphase]
      exact hholds id
    · rw [hphase]
  have hrun : ∀ other id result, ((q.moveTo worker phase).phases other).Runs id result ↔
      (q.phases other).Runs id result := by
    intro other id result
    rcases move_to_cases q worker phase other with ⟨rfl, hphase⟩ | ⟨-, hphase⟩
    · rw [hphase]
      exact hruns id result
    · rw [hphase]
  refine ⟨⟨fun id => ?_, h.completed, fun id row hrow hfailed => ?_⟩, fun first second id => ?_,
    fun first second id result last => ?_, fun other id result => ?_, h.known⟩
  · simp only [hheld]
    exact h.dispatchedOnce id
  · simp only [hrun]
    exact h.failed id row hrow hfailed
  · rw [hheld, hheld]
    exact h.heldOnce first second id
  · rw [hrun, hrun]
    exact h.runOnce first second id result last
  · rw [hrun]
    exact h.running other id result

/-- A worker that was neither holding nor running a task and does not now leaves the queue sound. -/
theorem Sound.moved_free (h : q.Sound) (hholds : ∀ id, ¬ (q.phases worker).Holds id)
    (hruns : ∀ id result, ¬ (q.phases worker).Runs id result) (hfree : ∀ id, ¬ phase.Holds id)
    (hrest : ∀ id result, ¬ phase.Runs id result) : (q.moveTo worker phase).Sound :=
  h.moved (fun id => iff_of_false (hfree id) (hholds id))
    fun id result => iff_of_false (hrest id result) (hruns id result)

theorem Sound.moved_from_idle (h : q.Sound) (hidle : q.phases worker = .idle)
    (hfree : ∀ id, ¬ phase.Holds id) (hrest : ∀ id result, ¬ phase.Runs id result) :
    (q.moveTo worker phase).Sound := by
  refine h.moved_free (fun id => ?_) (fun id result hruns => ?_) hfree hrest
  · rw [hidle]
    exact not_false
  · rw [WorkerPhase.Runs, hidle] at hruns
    cases hruns

/-- A dispatch is sent for a task that no worker holds. -/
theorem Sound.issued (h : q.Sound) (hfree : ∀ other, ¬ (q.phases other).Holds id)
    (hholds : ∀ other, phase.Holds other ↔ other = id)
    (hruns : ∀ id result, ¬ phase.Runs id result)
    (hwas : ∀ id, ¬ (q.phases worker).Holds id)
    (hwasRuns : ∀ id result, ¬ (q.phases worker).Runs id result) :
    ((q.noteIssued id).moveTo worker phase).Sound := by
  have hrun : ∀ other task result,
      (((q.noteIssued id).moveTo worker phase).phases other).Runs task result ↔
        (q.phases other).Runs task result := by
    intro other task result
    rcases move_to_cases (q.noteIssued id) worker phase other with ⟨rfl, hphase⟩ | ⟨-, hphase⟩
    · rw [hphase]
      exact iff_of_false (hruns task result) (hwasRuns task result)
    · rw [hphase]
      exact Iff.rfl
  have hheld : ∀ other task, (((q.noteIssued id).moveTo worker phase).phases other).Holds task →
      (other = worker ∧ task = id) ∨ (task ≠ id ∧ (q.phases other).Holds task) := by
    intro other task hother
    rcases move_to_cases (q.noteIssued id) worker phase other with ⟨rfl, hphase⟩ | ⟨-, hphase⟩
    · rw [hphase] at hother
      exact .inl ⟨rfl, (hholds task).mp hother⟩
    · rw [hphase] at hother
      exact .inr ⟨fun heq => hfree other (heq ▸ hother), hother⟩
  refine ⟨⟨fun task => ?_, h.completed, fun task row hrow hfailed => ?_⟩,
    fun first second task hfirst hsecond => ?_, fun first second task result last => ?_,
    fun other task result => ?_, h.known⟩
  · have hcounted := h.dispatchedOnce task
    by_cases htask : task = id
    · subst htask
      refine .inr ⟨?_, worker, ?_⟩
      · show (task :: q.issued).count task ≤ q.started.count task + 1
        rw [List.count_cons_self]
        rcases hcounted with hcounted | ⟨-, other, hother⟩
        · omega
        · exact absurd hother (hfree other)
      · rw [move_to_self]
        exact (hholds task).mpr rfl
    · have hcount : (id :: q.issued).count task = q.issued.count task :=
        List.count_cons_of_ne fun heq => htask heq.symm
      show (id :: q.issued).count task ≤ _ ∨ ((id :: q.issued).count task ≤ _ ∧ _)
      rw [hcount]
      refine hcounted.imp_right fun ⟨hle, other, hother⟩ => ⟨hle, other, ?_⟩
      have hne : other ≠ worker := fun heq => hwas task (heq ▸ hother)
      rwa [move_to_of_ne hne]
  · simp only [hrun]
    exact h.failed task row hrow hfailed
  · rcases hheld first task hfirst with ⟨rfl, rfl⟩ | ⟨hne, hfirst⟩
    · rcases hheld second task hsecond with ⟨rfl, -⟩ | ⟨hne, -⟩
      · rfl
      · exact absurd rfl hne
    · rcases hheld second task hsecond with ⟨-, heq⟩ | ⟨-, hsecond⟩
      · exact absurd heq hne
      · exact h.heldOnce first second task hfirst hsecond
  · rw [hrun, hrun]
    exact h.runOnce first second task result last
  · rw [hrun]
    exact h.running other task result

/-- A processable task goes into running with the outcome its worker brought. -/
theorem Sound.marked (h : q.Sound) (hselected : q.phases worker = .selected id result)
    (hprocessable : q.Processable id) :
    ((q.setRunning id now result.status).moveTo worker (.running id result)).Sound := by
  obtain ⟨row, hrow, hstatus⟩ := hprocessable
  have hamended : AmendedTask q.tasks (q.setRunning id now result.status).tasks id row
      (row.start now) := amend_task_amended hrow (·.start now) fun _ => rfl
  have houtcome : ∀ {task}, task ≠ id →
      (q.setRunning id now result.status).outcome task = q.outcome task := fun hne => if_neg hne
  have hnone : ∀ other last, ¬ (q.phases other).Runs id last := by
    intro other last hruns
    obtain ⟨-, row', hrow', hrunning⟩ := h.running other id last hruns
    rw [hrow] at hrow'
    cases hrow'
    rcases hrunning with hrunning | hrunning <;> rw [hrunning] at hstatus <;> cases hstatus
  have hphases := move_to_cases (q.setRunning id now result.status) worker (.running id result)
  have hheld : ∀ other task, (((q.setRunning id now result.status).moveTo worker
      (.running id result)).phases other).Holds task → (q.phases other).Holds task := by
    intro other task hholds
    rcases hphases other with ⟨rfl, hphase⟩ | ⟨-, hphase⟩
    · rw [hphase] at hholds
      exact hholds.elim
    · rw [hphase] at hholds
      exact hholds
  have hruns : ∀ other task last, (((q.setRunning id now result.status).moveTo worker
      (.running id result)).phases other).Runs task last →
      (other = worker ∧ task = id ∧ last = result) ∨ (task ≠ id ∧ (q.phases other).Runs task last) := by
    intro other task last hrun
    rcases hphases other with ⟨rfl, hphase⟩ | ⟨-, hphase⟩
    · rw [hphase] at hrun
      cases hrun
      exact .inl ⟨rfl, rfl, rfl⟩
    · rw [hphase] at hrun
      exact .inr ⟨fun heq => hnone other last (heq ▸ hrun), hrun⟩
  have hstays : ∀ {other} {task : String}, task ≠ id → (q.phases other).Holds task →
      (((q.setRunning id now result.status).moveTo worker (.running id result)).phases other
        ).Holds task := by
    intro other task hne hholds
    rcases hphases other with ⟨rfl, -⟩ | ⟨-, hphase⟩
    · rw [hselected] at hholds
      exact absurd hholds.symm hne
    · rw [hphase]
      exact hholds
  refine ⟨⟨fun task => ?_, fun task row' hrow' hcompleted => ?_, fun task row' hrow' hfailed => ?_⟩,
    fun first second task hfirst hsecond =>
      h.heldOnce first second task (hheld first task hfirst) (hheld second task hsecond),
    fun first second task last final hfirst hsecond => ?_, fun other task last hrun => ?_,
    fun task hknown => ?_⟩
  · have hcounted := h.dispatchedOnce task
    by_cases htask : task = id
    · subst htask
      left
      show q.issued.count task ≤ (task :: q.started).count task
      rw [List.count_cons_self]
      rcases hcounted with hcounted | ⟨hcounted, -⟩ <;> omega
    · have hcount : (id :: q.started).count task = q.started.count task :=
        List.count_cons_of_ne fun heq => htask heq.symm
      show q.issued.count task ≤ (id :: q.started).count task ∨
        (q.issued.count task ≤ (id :: q.started).count task + 1 ∧ _)
      rw [hcount]
      exact hcounted.imp_right fun ⟨hle, other, hholds⟩ => ⟨hle, other, hstays htask hholds⟩
  · rw [move_to_tasks] at hrow'
    by_cases htask : task = id
    · subst htask
      rw [hamended.self] at hrow'
      cases hrow'
      cases hcompleted
    · rw [hamended.other task htask] at hrow'
      exact (houtcome htask).trans (h.completed task row' hrow' hcompleted)
  · rw [move_to_tasks] at hrow'
    by_cases htask : task = id
    · subst htask
      rw [hamended.self] at hrow'
      cases hrow'
      exact .inr (.inr ⟨rfl, worker, result, move_to_self⟩)
    · rw [hamended.other task htask] at hrow'
      refine (h.failed task row' hrow' ((houtcome htask).symm.trans hfailed)).imp_right
        (Or.imp_right fun ⟨hrunning, other, last, hrun⟩ => ⟨hrunning, other, last, ?_⟩)
      have hne : other ≠ worker := by
        rintro rfl
        rw [WorkerPhase.Runs, hselected] at hrun
        cases hrun
      rw [move_to_of_ne hne]
      exact hrun
  · rcases hruns first task last hfirst with ⟨rfl, rfl, -⟩ | ⟨hne, hfirst⟩
    · rcases hruns second task final hsecond with ⟨rfl, -, -⟩ | ⟨hne, -⟩
      · rfl
      · exact absurd rfl hne
    · rcases hruns second task final hsecond with ⟨-, heq, -⟩ | ⟨-, hsecond⟩
      · exact absurd heq hne
      · exact h.runOnce first second task last final hfirst hsecond
  · rcases hruns other task last hrun with ⟨rfl, rfl, rfl⟩ | ⟨hne, hrun⟩
    · exact ⟨if_pos rfl, _, hamended.self, .inl rfl⟩
    · obtain ⟨hbrought, row', hrow', hrunning⟩ := h.running other task last hrun
      exact ⟨(houtcome hne).trans hbrought, row', (hamended.other task hne).trans hrow', hrunning⟩
  · by_cases htask : task = id
    · subst htask
      exact ⟨_, hamended.self⟩
    · obtain ⟨row', hrow'⟩ := h.known task (fun hnone => hknown ((houtcome htask).trans hnone))
      exact ⟨row', (hamended.other task htask).trans hrow'⟩

theorem Sound.ended (h : q.Sound) {changed : TaskRow} {tasks : Table TaskRow}
    (hamended : AmendedTask q.tasks tasks id row changed)
    (hholds : ∀ task, ¬ (q.phases worker).Holds task)
    (hruns : ∀ task result, (q.phases worker).Runs task result → task = id)
    (hothers : ∀ other result, other ≠ worker → (q.phases other).Runs id result →
      changed.status = .cancelled)
    (hcompleted : changed.status = .completed → q.outcome id = some .completed)
    (hfailed : q.outcome id = some .failed →
      changed.status = .failed ∨ changed.status = .cancelled) :
    ({ q with tasks } : TaskQueue).moveTo worker .idle |>.Sound := by
  have hphases := move_to_cases { q with tasks } worker .idle
  have hheld : ∀ other task, ((({ q with tasks } : TaskQueue).moveTo worker .idle).phases other
      ).Holds task ↔ (q.phases other).Holds task := by
    intro other task
    rcases hphases other with ⟨rfl, hphase⟩ | ⟨-, hphase⟩
    · rw [hphase]
      exact iff_of_false not_false (hholds task)
    · rw [hphase]
  have hrun : ∀ other task last, ((({ q with tasks } : TaskQueue).moveTo worker .idle).phases other
      ).Runs task last → other ≠ worker ∧ (q.phases other).Runs task last := by
    intro other task last hrun
    rcases hphases other with ⟨rfl, hphase⟩ | ⟨hne, hphase⟩
    · rw [hphase] at hrun
      cases hrun
    · rw [hphase] at hrun
      exact ⟨hne, hrun⟩
  refine ⟨⟨fun task => ?_, fun task row' hrow' hstatus => ?_, fun task row' hrow' hbad => ?_⟩,
    fun first second task hfirst hsecond => ?_, fun first second task last final hfirst hsecond =>
      h.runOnce first second task last final (hrun first task last hfirst).2
        (hrun second task final hsecond).2, fun other task last hother => ?_, fun task hknown => ?_⟩
  · simp only [hheld]
    exact h.dispatchedOnce task
  · rw [move_to_tasks] at hrow'
    by_cases htask : task = id
    · subst htask
      rw [hamended.self] at hrow'
      cases hrow'
      exact hcompleted hstatus
    · rw [hamended.other task htask] at hrow'
      exact h.completed task row' hrow' hstatus
  · rw [move_to_tasks] at hrow'
    by_cases htask : task = id
    · subst htask
      rw [hamended.self] at hrow'
      cases hrow'
      exact (hfailed hbad).imp_right .inl
    · rw [hamended.other task htask] at hrow'
      refine (h.failed task row' hrow' hbad).imp_right
        (Or.imp_right fun ⟨hrunning, other, last, hother⟩ => ⟨hrunning, other, last, ?_⟩)
      have hne : other ≠ worker := by
        rintro rfl
        exact htask (hruns task last hother)
      rw [move_to_of_ne hne]
      exact hother
  · rw [hheld] at hfirst hsecond
    exact h.heldOnce first second task hfirst hsecond
  · obtain ⟨hne, hother⟩ := hrun other task last hother
    obtain ⟨hbrought, row', hrow', hrunning⟩ := h.running other task last hother
    refine ⟨hbrought, ?_⟩
    by_cases htask : task = id
    · subst htask
      exact ⟨changed, hamended.self, .inr (hothers other last hne hother)⟩
    · exact ⟨row', (hamended.other task htask).trans hrow', hrunning⟩
  · by_cases htask : task = id
    · subst htask
      exact ⟨changed, hamended.self⟩
    · obtain ⟨row', hrow'⟩ := h.known task hknown
      exact ⟨row', (hamended.other task htask).trans hrow'⟩

theorem Sound.finished (h : q.Sound) (hphase : q.phases worker = .running id result)
    (hrow : taskAt q.tasks id = some row) {raised : Option String}
    (hresult : raised = none → result.status = .completed) :
    ((q.setFinished id now result raised).moveTo worker .idle).Sound := by
  have hruns : (q.phases worker).Runs id result := hphase
  have hbrought := (h.running worker id result hruns).1
  have hidle : ∀ task, ¬ (q.phases worker).Holds task := fun task => by
    rw [hphase]
    exact not_false
  have hown : ∀ task last, (q.phases worker).Runs task last → task = id := fun task last hother => by
    rw [WorkerPhase.Runs, hphase] at hother
    cases hother
    rfl
  have halone : ∀ {status : TaskStatus} other last, other ≠ worker → (q.phases other).Runs id last →
      status = .cancelled := fun other last hne hother =>
    absurd (h.runOnce other worker id last result hother hruns) hne
  cases raised with
  | none =>
      have hcompleted : q.outcome id = some .completed := hresult rfl ▸ hbrought
      exact h.ended (amend_task_amended hrow (·.complete now result.json) fun _ => rfl) hidle hown
        halone (fun _ => hcompleted) fun hfailed => by
          rw [hcompleted] at hfailed
          cases hfailed
  | some text =>
      exact h.ended (amend_task_amended hrow (·.fail now text) fun _ => rfl) hidle hown halone
        (fun hcompleted => nomatch hcompleted) fun _ => .inl rfl

theorem Sound.cancelled (h : q.Sound) (hphase : q.phases worker = .cancelling id)
    (hrow : taskAt q.tasks id = some row) :
    ((q.setCancelled id now).moveTo worker .idle).Sound := by
  refine h.ended (amend_task_amended hrow (·.cancel now) fun _ => rfl) (fun task => ?_)
    (fun task last hruns => ?_) (fun _ _ _ _ => rfl) (fun hcompleted => nomatch hcompleted)
    fun _ => .inr rfl
  · rw [hphase]
    exact not_false
  · rw [WorkerPhase.Runs, hphase] at hruns
    cases hruns

theorem create_cases (q : TaskQueue) (id tenant uri principal now : String) (envelope : Json) :
    q.create id tenant uri principal now envelope = q ∨
      ∃ tasks row, q.create id tenant uri principal now envelope = { q with tasks } ∧
        row.status = .queued ∧ taskAt q.tasks row.id = none ∧
        ∀ other, taskAt tasks other = if other = row.id then some row else taskAt q.tasks other := by
  unfold TaskQueue.create
  split
  · rename_i tasks hinsert
    refine .inr ⟨tasks, _, rfl, rfl, ?_, task_at_insert hinsert⟩
    cases hfound : taskAt q.tasks id with
    | none => rfl
    | some row =>
        obtain ⟨hrow, hid⟩ := task_at_some hfound
        exact absurd hid (Table.not_conflict_of_insert? hinsert row hrow)
  · exact .inl rfl

theorem Sound.create (h : q.Sound) (id tenant uri principal now : String) (envelope : Json) :
    (q.create id tenant uri principal now envelope).Sound := by
  rcases create_cases q id tenant uri principal now envelope with
    heq | ⟨tasks, row, heq, hqueued, hnone, hrows⟩
  · rwa [heq]
  rw [heq]
  have hold : ∀ {task row'}, taskAt q.tasks task = some row' → taskAt tasks task = some row' := by
    intro task row' hrow'
    rw [hrows, if_neg, hrow']
    rintro rfl
    rw [hnone] at hrow'
    cases hrow'
  refine ⟨⟨h.dispatchedOnce, fun task row' hrow' hcompleted => ?_,
    fun task row' hrow' hfailed => ?_⟩, h.heldOnce, h.runOnce, fun other task last hruns => ?_,
    fun task hknown => ?_⟩
  · change taskAt tasks task = some row' at hrow'
    rw [hrows] at hrow'
    split at hrow'
    · cases hrow'
      rw [hqueued] at hcompleted
      cases hcompleted
    · exact h.completed task row' hrow' hcompleted
  · obtain ⟨old, hrow⟩ := h.known task (by rw [hfailed]; exact Option.some_ne_none _)
    change taskAt tasks task = some row' at hrow'
    rw [hold hrow] at hrow'
    cases hrow'
    exact h.failed task _ hrow hfailed
  · obtain ⟨hbrought, old, hrow, hrunning⟩ := h.running other task last hruns
    exact ⟨hbrought, old, hold hrow, hrunning⟩
  · obtain ⟨old, hrow⟩ := h.known task hknown
    exact ⟨old, hold hrow⟩

theorem Keeps.refl (q : TaskQueue) : q.Keeps q := fun _ row hrow _ => ⟨row, hrow, rfl⟩

theorem Keeps.trans {first second third : TaskQueue} (hfirst : first.Keeps second)
    (hsecond : second.Keeps third) : first.Keeps third := by
  intro id row hrow hfinal
  obtain ⟨row', hrow', hstatus⟩ := hfirst id row hrow hfinal
  obtain ⟨last, hlast, hsame⟩ := hsecond id row' hrow' (hstatus ▸ hfinal)
  exact ⟨last, hlast, hsame.trans hstatus⟩

theorem keeps_amended {tasks : Table TaskRow} {changed : TaskRow} {after : TaskQueue}
    (hamended : AmendedTask q.tasks tasks id row changed) (hfinal : row.status.isFinal = false)
    (hafter : after.tasks = tasks) : q.Keeps after := by
  intro task row' hrow' hdone
  rw [hafter]
  by_cases htask : task = id
  · subst htask
    rw [hamended.found] at hrow'
    cases hrow'
    rw [hfinal] at hdone
    cases hdone
  · exact ⟨row', (hamended.other task htask).trans hrow', rfl⟩

theorem keeps_create (q : TaskQueue) (id tenant uri principal now : String) (envelope : Json) :
    q.Keeps (q.create id tenant uri principal now envelope) := by
  rcases create_cases q id tenant uri principal now envelope with
    heq | ⟨tasks, row, heq, -, hnone, hrows⟩
  · rw [heq]
    exact .refl q
  · rw [heq]
    intro task row' hrow' _
    refine ⟨row', ?_, rfl⟩
    show taskAt tasks task = some row'
    rw [hrows, if_neg, hrow']
    rintro rfl
    rw [hnone] at hrow'
    cases hrow'

end TaskQueue

theorem processable_not_final {status : TaskStatus} (h : status.processable = true) :
    status.isFinal = false := by
  cases status <;> first | rfl | cases h

theorem cancellable_not_final {status : TaskStatus} (h : status.cancellable = true) :
    status.isFinal = false := by
  cases status <;> first | rfl | cases h

/-- **One statement.** What is prepared for the state it finds keeps the invariant and the tasks
that are done with. -/
theorem queue_step_sound (p : Platform) (q : TaskQueue) (step : QueueStep)
    (hundisturbed : step.Undisturbed p q) (h : q.Sound) :
    (queueStep p q step).Sound ∧ q.Keeps (queueStep p q step) := by
  cases step with
  | create id tenant uri principal now envelope =>
      exact ⟨h.create id tenant uri principal now envelope,
        TaskQueue.keeps_create q id tenant uri principal now envelope⟩
  | check worker id tenant =>
      simp only [queueStep]
      split
      · rename_i row hphase hrow
        split
        · exact ⟨h.moved_from_idle hphase (fun _ => not_false) (fun _ _ hruns => nomatch hruns),
            .refl q⟩
        · exact ⟨h, .refl q⟩
      · exact ⟨h, .refl q⟩
  | issue worker =>
      simp only [queueStep]
      cases hphase : q.phases worker with
      | checked id tenant envelope =>
          have hholds : ∀ task, ¬ (q.phases worker).Holds task := fun task => by
            rw [hphase]
            exact not_false
          have hruns : ∀ task last, ¬ (q.phases worker).Runs task last := fun task last hruns => by
            rw [WorkerPhase.Runs, hphase] at hruns
            cases hruns
          dsimp only
          cases hrequest : gatewayRequest p envelope with
          | none =>
              exact ⟨h.moved_free hholds hruns (fun _ => not_false) (fun _ _ hruns => nomatch hruns),
                .refl q⟩
          | some request =>
              obtain ⟨-, hfree⟩ := hundisturbed id tenant envelope hphase (by rw [hrequest]; rfl)
              exact ⟨h.issued hfree (fun task => eq_comm) (fun _ _ hruns => nomatch hruns) hholds
                hruns, .refl q⟩
      | idle | waiting | dispatched | selected | running | cancelling => exact ⟨h, .refl q⟩
  | reply worker reply now =>
      simp only [queueStep]
      cases hphase : q.phases worker with
      | waiting id tenant request =>
          refine ⟨h.moved (fun task => ?_) fun task last => ?_, .refl q⟩
          · rw [hphase]
            exact Iff.rfl
          · rw [WorkerPhase.Runs, WorkerPhase.Runs, hphase]
            exact iff_of_false (fun hruns => nomatch hruns) fun hruns => nomatch hruns
      | idle | checked | dispatched | selected | running | cancelling => exact ⟨h, .refl q⟩
  | select worker =>
      simp only [queueStep]
      cases hphase : q.phases worker with
      | dispatched id tenant result =>
          dsimp only
          rw [if_pos (hundisturbed id tenant result hphase)]
          refine ⟨h.moved (fun task => ?_) fun task last => ?_, .refl q⟩
          · rw [hphase]
            exact Iff.rfl
          · rw [WorkerPhase.Runs, WorkerPhase.Runs, hphase]
            exact iff_of_false (fun hruns => nomatch hruns) fun hruns => nomatch hruns
      | idle | checked | waiting | selected | running | cancelling => exact ⟨h, .refl q⟩
  | mark worker now =>
      simp only [queueStep]
      cases hphase : q.phases worker with
      | selected id result =>
          have hprocessable := hundisturbed id result hphase
          have ⟨row, hrow, hstatus⟩ := hprocessable
          exact ⟨h.marked hphase hprocessable, TaskQueue.keeps_amended
            (amend_task_amended hrow (·.start now) fun _ => rfl) (processable_not_final hstatus) rfl⟩
      | idle | checked | waiting | dispatched | running | cancelling => exact ⟨h, .refl q⟩
  | finish worker now raised =>
      simp only [queueStep]
      cases hphase : q.phases worker with
      | running id result =>
          obtain ⟨⟨row, hrow, hstatus⟩, hresult⟩ := hundisturbed id result hphase
          refine ⟨h.finished hphase hrow hresult, ?_⟩
          have hfinal : row.status.isFinal = false := by
            rw [hstatus]
            rfl
          cases raised with
          | none => exact TaskQueue.keeps_amended (amend_task_amended hrow
              (·.complete now result.json) fun _ => rfl) hfinal rfl
          | some text => exact TaskQueue.keeps_amended (amend_task_amended hrow
              (·.fail now text) fun _ => rfl) hfinal rfl
      | idle | checked | waiting | dispatched | selected | cancelling => exact ⟨h, .refl q⟩
  | checkCancel worker id tenant =>
      simp only [queueStep]
      split
      · rename_i row hphase hrow
        split
        · exact ⟨h.moved_from_idle hphase (fun _ => not_false) (fun _ _ hruns => nomatch hruns),
            .refl q⟩
        · exact ⟨h, .refl q⟩
      · exact ⟨h, .refl q⟩
  | cancel worker now =>
      simp only [queueStep]
      cases hphase : q.phases worker with
      | cancelling id =>
          obtain ⟨row, hrow, hstatus⟩ := hundisturbed id hphase
          exact ⟨h.cancelled hphase hrow, TaskQueue.keeps_amended
            (amend_task_amended hrow (·.cancel now) fun _ => rfl) (cancellable_not_final hstatus)
            rfl⟩
      | idle | checked | waiting | dispatched | selected | running => exact ⟨h, .refl q⟩

/-- A worker that nobody interrupts does what `process_task` does with a handler that returns the
result of its dispatch, or raises what is raised in it. -/
theorem process_task_uninterrupted (p : Platform) (q : TaskQueue) (reg : Registry) (worker : Nat)
    (id tenant now : String) (result : DispatchResult) (raised : Option String) :
    (run (queueStep p)
      ({ q with tasks := reg.taskTable }.moveTo worker (.dispatched id tenant result))
      [.select worker, .mark worker now, .finish worker now raised]).tasks =
    ((processTask id tenant now (fun _ => raised.elim (.ok result.json) .error) reg).toOption.map
      (·.taskTable)).getD reg.taskTable := by
  obtain ⟨start, hstart, htasks, hphase⟩ : ∃ start : TaskQueue,
      { q with tasks := reg.taskTable }.moveTo worker (.dispatched id tenant result) = start ∧
        start.tasks = reg.taskTable ∧ start.phases worker = .dispatched id tenant result :=
    ⟨_, rfl, rfl, TaskQueue.move_to_self⟩
  have hfind : reg.taskTable.find? (fun row => row.id = id && row.tenantId = tenant) =
      taskOf start.tasks id tenant := by rw [htasks, taskOf]
  have hselect : queueStep p start (.select worker) =
      if (taskOf start.tasks id tenant).any (·.status.processable) then
        start.moveTo worker (.selected id result)
      else start.moveTo worker .idle := by simp only [queueStep, hphase]
  unfold processTask
  rw [hstart, hfind]
  simp only [run, hselect]
  cases hrow : taskOf start.tasks id tenant with
  | none => simp [queueStep, TaskQueue.move_to_self, htasks, Except.toOption]
  | some row =>
      have htest : (row.status ≠ .queued && row.status ≠ .failed) = !row.status.processable := by
        cases row.status <;> decide
      simp only [Option.any_some, htest]
      by_cases hstatus : row.status.processable = true
      · simp only [hstatus, if_true, queueStep, TaskQueue.move_to_self, TaskQueue.setRunning,
          TaskQueue.move_to_tasks, htasks]
        cases raised <;> rfl
      · simp [hstatus, queueStep, TaskQueue.move_to_self, htasks, Except.toOption]

theorem empty_sound : TaskQueue.empty.Sound := by
  refine ⟨⟨fun id => .inl (Nat.le_refl 0), fun id row hrow => ?_, fun id row hrow => ?_⟩,
    fun _ _ _ hholds => hholds.elim, fun _ _ _ _ _ hruns => (nomatch hruns),
    fun _ _ _ hruns => (nomatch hruns), fun _ hnone => absurd rfl hnone⟩
  · cases hrow
  · cases hrow

/-- **Runs of the queue.** From an empty queue, over every interleaving of the statements of any
workers in which each finds the state it was prepared for, the promise of the queue holds. -/
theorem tasks_well_run_along {steps : List QueueStep}
    (halong : Along (queueStep p) (QueueStep.Undisturbed p) .empty steps) :
    TasksWellRun p .empty steps := by
  have hkeeps : ∀ {start : TaskQueue} {steps : List QueueStep}, start.Sound →
      Along (queueStep p) (QueueStep.Undisturbed p) start steps →
      start.Keeps (run (queueStep p) start steps) := by
    intro start steps hstart halong
    induction steps generalizing start with
    | nil => exact .refl start
    | cons step steps ih =>
        obtain ⟨hsound, hkept⟩ := queue_step_sound p start step halong.1 hstart
        exact hkept.trans (ih hsound halong.2)
  rintro first second rfl
  obtain ⟨hfirst, hsecond⟩ := (along_append TaskQueue.empty first second).mp halong
  have hsound : (run (queueStep p) .empty first).Sound :=
    run_invariant_along (fun q step hstep hq => (queue_step_sound p q step hstep hq).1) hfirst
      empty_sound
  refine ⟨hsound.toSafe, ?_⟩
  rw [run_append]
  exact hkeeps hsound hsecond

end

/-- A task to summarize notes. -/
def notesEnvelope : Json :=
  .obj [("task", .str "Summarize the notes."), ("taskId", .str "cap-task-1"),
    ("agentUri", .str "cap://user/notes")]

/-- A worker takes the task up and gets this answer. -/
def notesDispatch (reply : GatewayReply) : List QueueStep :=
  [.create "task_1" "asg" "cap://user/notes" "alice" "2026-01-01" notesEnvelope,
    .check 0 "task_1" "asg", .issue 0, .reply 0 reply "2026-01-02", .select 0,
    .mark 0 "2026-01-02", .finish 0 "2026-01-02" none]

/-- Two workers dispatch a task each, and a third cancels one that nobody took up. -/
def threeWorkers : List QueueStep :=
  [.create "task_1" "asg" "cap://user/notes" "alice" "2026-01-01" notesEnvelope,
    .create "task_2" "asg" "cap://user/notes" "alice" "2026-01-01" notesEnvelope,
    .create "task_3" "asg" "cap://user/notes" "alice" "2026-01-01" notesEnvelope,
    .check 0 "task_1" "asg", .check 1 "task_2" "asg", .issue 0, .issue 1,
    .reply 1 (.response [("result", .str "Done.")]) "2026-01-02",
    .reply 0 (.response [("result", .str "Done.")]) "2026-01-02", .checkCancel 2 "task_3" "asg",
    .select 1, .select 0, .mark 0 "2026-01-02", .mark 1 "2026-01-02", .cancel 2 "2026-01-02",
    .finish 0 "2026-01-03" none, .finish 1 "2026-01-03" none]

/-- The gateway answers, and the tasks are completed. -/
theorem tasks_well_run_along_workers : TasksWellRun .sample .empty threeWorkers := by
  refine tasks_well_run_along ⟨trivial, trivial, trivial, trivial, trivial, ?_, ?_, trivial,
    trivial, trivial, ?_, ?_, ?_, ?_, ?_, ?_, ?_, trivial⟩
  · intro id tenant envelope hphase _
    cases hphase
    refine ⟨⟨_, rfl, rfl⟩, fun other => ?_⟩
    show ¬ (if other = 1 then WorkerPhase.checked "task_2" "asg" notesEnvelope
      else if other = 0 then .checked "task_1" "asg" notesEnvelope else .idle).Holds "task_1"
    split
    · exact not_false
    · split <;> exact not_false
  · intro id tenant envelope hphase _
    cases hphase
    refine ⟨⟨_, rfl, rfl⟩, fun other => ?_⟩
    show ¬ (if other = 0 then WorkerPhase.waiting "task_1" "asg" _ else if other = 1 then
      .checked "task_2" "asg" notesEnvelope else if other = 0 then _ else .idle).Holds "task_2"
    split
    · exact (by decide : "task_1" ≠ "task_2")
    · split <;> exact not_false
  · intro id tenant result hphase
    cases hphase
    decide +kernel
  · intro id tenant result hphase
    cases hphase
    decide +kernel
  · intro id result hphase
    cases hphase
    exact ⟨_, rfl, rfl⟩
  · intro id result hphase
    cases hphase
    exact ⟨_, rfl, rfl⟩
  · intro id hphase
    cases hphase
    exact ⟨_, rfl, rfl⟩
  · intro id result hphase
    cases hphase
    exact ⟨⟨_, rfl, rfl⟩, fun _ => rfl⟩
  · intro id result hphase
    cases hphase
    exact ⟨⟨_, rfl, rfl⟩, fun _ => rfl⟩

/-- The gateway cannot be reached, and the task is completed all the same. -/
theorem failed_dispatch_completes :
    ¬ ∀ (p : Platform) (steps : List QueueStep), TasksWellRun p .empty steps := by
  intro hclaim
  have hsafe := (hclaim .sample (notesDispatch (.unreachable "refused")) _ []
    (List.append_nil _).symm).1
  have hstatus : (taskAt (run (queueStep .sample) .empty (notesDispatch (.unreachable "refused"))
      ).tasks "task_1").map (·.status) = some .completed := by decide +kernel
  obtain ⟨row, hrow, hcompleted⟩ := Option.map_eq_some_iff.mp hstatus
  have houtcome := hsafe.completed "task_1" row hrow hcompleted
  exact absurd houtcome (by decide +kernel)

end Capmesh
