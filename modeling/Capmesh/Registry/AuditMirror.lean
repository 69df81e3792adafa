import Capmesh.Lifecycle.Refresh
import Capmesh.Registry.LogChain

/-!
# Audit events in the registry log

The writers of `audit_events`: `audit_event` copies the mutations of capabilities into the
registry log, and five functions insert their event themselves. `Mirrored` says that the events
to be copied and the entries of the log correspond one to one, and `audit_step_mirrored` that one
step keeps it wherever the transaction can come back to. Only `transition_capability` writes
an event of a capability past the log. `append_log_entry` has no caller.
-/

namespace Capmesh

open Python Relational Execution

/-- The inserts into `audit_events` of `break_glass.py`, `transition_namespace` and
`transfer_namespace`. -/
inductive DirectEvent where
  | breakGlassGrant (tenantId grantedBy principal : String)
  | breakGlassRevoke (tenantId revokedBy sessionId : String)
  | namespaceTransition (tenantId actor namespaceId : String)
  | namespaceTransfer (tenantId actor namespaceId : String)

/-- The row they insert. -/
def DirectEvent.event : DirectEvent → AuditEvent
  | .breakGlassGrant tenantId grantedBy principal =>
      ⟨tenantId, "break_glass.grant", grantedBy, principal, "grant"⟩
  | .breakGlassRevoke tenantId revokedBy sessionId =>
      ⟨tenantId, "break_glass.revoke", revokedBy, sessionId, "revoke"⟩
  | .namespaceTransition tenantId actor namespaceId =>
      ⟨tenantId, "namespace.lifecycle.transition", actor, namespaceId, "transition"⟩
  | .namespaceTransfer tenantId actor namespaceId =>
      ⟨tenantId, "namespace.transfer", actor, namespaceId, "transfer"⟩

/-- A mutation of a capability: the events that belong in the registry log. -/
def AuditEvent.isMutation (event : AuditEvent) : Bool :=
  startsWith event.eventType "capability." && event.action ≠ "" &&
    !(["read", "list", "status"].contains event.action)

/-- What an event and its entry have in common: type, actor, target and action. -/
structure EventKey where
  eventType : String
  actor : String
  target : String
  action : String
  deriving DecidableEq, Repr

/-- The key of an event. -/
def AuditEvent.key (event : AuditEvent) : EventKey :=
  ⟨event.eventType, event.actor, event.target, event.action⟩

/-- The key of an entry of the registry log. -/
def LogRow.key (row : LogRow) : EventKey :=
  ⟨row.eventType, row.actor, row.targetUri.getD "", row.action⟩

/-- The mutations in the audit trail and the entries of the registry log correspond one to one, in
their order. -/
def Registry.Mirrored (reg : Registry) : Prop :=
  (reg.audit.filter (·.isMutation)).map (·.key) = reg.logTable.rows.map (·.key)

instance (reg : Registry) : Decidable reg.Mirrored := inferInstanceAs (Decidable (_ = _))

/-- What an operation does on its connection: it writes an audit event by one of the writers, it
writes something else, or it handles its transaction. -/
inductive AuditStep where
  | audit (call : AuditCall)
  | transition (call : TransitionCall)
  | direct (event : DirectEvent)
  | write (f : Registry → Registry)
      (leaves : ∀ reg, (f reg).log = reg.log ∧ (f reg).audit = reg.audit)
  | script (f : Registry → Registry)
      (leaves : ∀ reg, (f reg).log = reg.log ∧ (f reg).audit = reg.audit)
  | commit
  | rollback
  | savepoint (name : String)
  | rollbackTo (name : String)
  | release (name : String)

/-- One step; a refused transition has only read. -/
def auditStep (p : Platform) (con : Transaction Registry) : AuditStep → Transaction Registry
  | .audit call => con.write (auditEvent p call)
  | .transition call =>
      match transitionCapability con.working.db call with
      | .ok (db, event) => con.write fun reg => { reg with db, audit := reg.audit ++ [event] }
      | .error _ => con
  | .direct event => con.write fun reg => { reg with audit := reg.audit ++ [event.event] }
  | .write f _ => con.write f
  | .script f _ => con.executescript f
  | .commit => con.commit
  | .rollback => con.rollback
  | .savepoint name => con.savepoint name
  | .rollbackTo name => con.rollbackTo name
  | .release name => con.release name

/-- Whether a step is a statement: it neither commits nor sets or ends a savepoint. -/
def AuditStep.isStatement : AuditStep → Bool
  | .audit _ | .transition _ | .direct _ | .write .. => true
  | .script .. | .commit | .rollback | .savepoint _ | .rollbackTo _ | .release _ => false

/-- Whatever is committed is mirrored, and the statements of an operation that is rolled back, to
the start of the transaction or to its savepoint, leave neither an event nor an entry. -/
structure AuditMirrored (p : Platform) (start : Registry) (steps : List AuditStep) : Prop where
  committed : ∀ first second, steps = first ++ second →
    (run (auditStep p) (.settled start) first).committed.Mirrored
  rolledBack : ∀ first operation second, steps = first ++ (operation ++ .rollback :: second) →
    (∀ step ∈ operation, step.isStatement = true) →
    run (auditStep p) (.settled start) (first ++ (operation ++ [.rollback])) =
      .settled (run (auditStep p) (.settled start) first).committed
  undone : ∀ first name operation second,
    steps = first ++ (.savepoint name :: operation ++ .rollbackTo name :: second) →
    (∀ step ∈ operation, step.isStatement = true) →
    (run (auditStep p) (.settled start)
        (first ++ (.savepoint name :: operation ++ [.rollbackTo name]))).toConnection =
      (run (auditStep p) (.settled start) first).toConnection

/-- The registry log takes the entry of an event: neither its id nor its hash is taken. -/
def LogTakes (p : Platform) (reg : Registry) (call : AuditCall) : Prop :=
  call.isMirrored = true → ∀ row ∈ reg.logTable, row.id ≠ call.logId ∧
    row.entryHash ≠ (nextRow p call.entry (lastEntry reg.logTable.rows)).entryHash

/-- A transition that is refused: to no lifecycle, of no capability, or out of reach. -/
def TransitionCall.Refused (db : Database) (call : TransitionCall) : Prop :=
  capabilityLifecycleStates.contains call.targetLifecycle = false ∨
    ∀ row ∈ db.capabilities, row.cap.uri = call.uri → row.cap.tenantId = call.tenantId →
      isValidTransition row.cap.lifecycle call.targetLifecycle = false

/-- A step whose event reaches the log. -/
def Logged (p : Platform) (con : Transaction Registry) : AuditStep → Prop
  | .audit call => LogTakes p con.working call
  | .transition call => call.Refused con.working.db
  | _ => True

section

variable {p : Platform} {reg result : Registry} {call : AuditCall} {rows : List LogRow}

/-- An event goes to the log exactly when it is a mutation. -/
theorem is_mutation_event (call : AuditCall) : call.event.isMutation = call.isMirrored := by
  unfold AuditEvent.isMutation AuditCall.isMirrored AuditCall.event present
  cases call.action with
  | none => rfl
  | some action => rfl

theorem direct_event_not_mutation (event : DirectEvent) : event.event.isMutation = false := by
  have hordinary : startsWith event.event.eventType "capability." = false := by
    cases event with
    | breakGlassGrant => exact (by decide : startsWith "break_glass.grant" "capability." = false)
    | breakGlassRevoke => exact (by decide : startsWith "break_glass.revoke" "capability." = false)
    | namespaceTransition =>
        exact (by decide : startsWith "namespace.lifecycle.transition" "capability." = false)
    | namespaceTransfer =>
        exact (by decide : startsWith "namespace.transfer" "capability." = false)
  unfold AuditEvent.isMutation
  rw [hordinary]
  rfl

theorem last_entry_le {row : LogRow} (h : row ∈ rows) :
    ∃ last, lastEntry rows = some last ∧ row.sequence ≤ last.sequence := by
  induction rows using List.reverseRecOn with
  | nil => cases h
  | append_singleton rows final ih =>
      have hfold : lastEntry (rows ++ [final]) = (lastEntry rows).elim (some final) fun entry =>
          if entry.sequence < final.sequence then some final else some entry := by
        unfold lastEntry
        rw [List.foldl_append, List.foldl_cons, List.foldl_nil]
        split
        · rename_i hbest
          rw [hbest]
          rfl
        · rename_i hbest
          rw [hbest]
          rfl
      rw [hfold]
      rcases List.mem_append.mp h with hbefore | hfinal
      · obtain ⟨last, hlast, hle⟩ := ih hbefore
        rw [hlast]
        rw [Option.elim_some]
        split
        · exact ⟨final, rfl, by omega⟩
        · exact ⟨last, rfl, hle⟩
      · obtain rfl := List.mem_singleton.mp hfinal
        cases lastEntry rows with
        | none => exact ⟨row, rfl, Int.le_refl _⟩
        | some last =>
            rw [Option.elim_some]
            split
            · exact ⟨row, rfl, Int.le_refl _⟩
            · exact ⟨last, rfl, by omega⟩

theorem next_row_sequence {row : LogRow} (h : row ∈ rows) (entry : LogEntry) :
    row.sequence ≠ (nextRow p entry (lastEntry rows)).sequence := by
  obtain ⟨last, hlast, hle⟩ := last_entry_le h
  rw [hlast]
  show row.sequence ≠ last.sequence + 1
  omega

theorem append_log_entry_takes {entry : LogEntry}
    (htakes : ∀ row ∈ reg.logTable, row.id ≠ entry.id ∧
      row.entryHash ≠ (nextRow p entry (lastEntry reg.logTable.rows)).entryHash) :
    ∃ log, appendLogEntry p entry reg = .ok { reg with log := some log } := by
  have hfree : (reg.logTable.insert? (nextRow p entry (lastEntry reg.logTable.rows))).isSome := by
    rw [Table.insert?_isSome_iff]
    rintro row hrow (hid | hsequence | hhash)
    · exact (htakes row hrow).1 hid
    · exact next_row_sequence hrow entry hsequence
    · exact (htakes row hrow).2 hhash
  obtain ⟨log, hlog⟩ := Option.isSome_iff_exists.mp hfree
  refine ⟨log, ?_⟩
  have hwritten : constrained "registry_log"
      (reg.logTable.insert? (nextRow p entry (lastEntry reg.logTable.rows))) = .ok log := by
    rw [hlog]
    rfl
  unfold appendLogEntry
  exact congrArg (fun first => first >>= fun log => Except.ok { reg with log := some log }) hwritten

/-- The invariant: the log was created, and mirrors the audit trail. -/
structure Registry.KeepsLog (reg : Registry) : Prop where
  created : reg.log.isSome = true
  mirrored : reg.Mirrored

theorem Registry.KeepsLog.record (h : reg.KeepsLog) {event : AuditEvent}
    (hevent : event.isMutation = false) :
    ({ reg with audit := reg.audit ++ [event] } : Registry).KeepsLog := by
  refine ⟨h.created, ?_⟩
  show ((reg.audit ++ [event]).filter (·.isMutation)).map (·.key) = reg.logTable.rows.map (·.key)
  rw [List.filter_append, List.filter_cons_of_neg (by simp [hevent]), List.filter_nil,
    List.append_nil]
  exact h.mirrored

theorem Registry.KeepsLog.congr (h : reg.KeepsLog)
    (hleaves : result.log = reg.log ∧ result.audit = reg.audit) : result.KeepsLog := by
  obtain ⟨hlog, haudit⟩ := hleaves
  refine ⟨by rw [hlog]; exact h.created, ?_⟩
  have hmirrored := h.mirrored
  unfold Registry.Mirrored Registry.logTable at *
  rw [hlog, haudit]
  exact hmirrored

theorem Registry.KeepsLog.audit (h : reg.KeepsLog) (htakes : LogTakes p reg call) :
    (auditEvent p call reg).KeepsLog := by
  cases hmirrored : call.isMirrored with
  | false =>
      have hevent : auditEvent p call reg = { reg with audit := reg.audit ++ [call.event] } := by
        unfold auditEvent
        rw [hmirrored]
      rw [hevent]
      exact h.record ((is_mutation_event call).trans hmirrored)
  | true =>
      obtain ⟨rows, hrows⟩ := Option.isSome_iff_exists.mp h.created
      have hwritten : ∃ log, appendLogEntry p call.entry
          { reg with audit := reg.audit ++ [call.event] } =
            .ok { reg with audit := reg.audit ++ [call.event], log := some log } :=
        append_log_entry_takes fun row hrow => htakes hmirrored row hrow
      obtain ⟨log, happend⟩ := hwritten
      have hevent : auditEvent p call reg =
          { reg with audit := reg.audit ++ [call.event], log := some log } := by
        unfold auditEvent
        dsimp only
        rw [hmirrored, hrows]
        dsimp only
        rw [hrows] at happend
        rw [happend]
        rfl
      have happended := append_log_entry_ok happend
      rw [hevent]
      refine ⟨rfl, ?_⟩
      show ((reg.audit ++ [call.event]).filter (·.isMutation)).map (·.key) = log.rows.map (·.key)
      have hrow : log.rows = reg.logTable.rows ++
          [nextRow p call.entry (lastEntry reg.logTable.rows)] := happended
      rw [hrow, List.filter_append, List.map_append, List.map_append, h.mirrored,
        List.filter_cons_of_pos ((is_mutation_event call).trans hmirrored)]
      rfl

theorem transition_refused {db : Database} {call : TransitionCall} (h : call.Refused db) :
    ∃ failure, transitionCapability db call = .error failure := by
  unfold transitionCapability
  rcases h with hstate | hreach
  · rw [hstate]
    exact ⟨_, rfl⟩
  split
  · exact ⟨_, rfl⟩
  cases hfind : db.capabilities.find? fun row =>
      row.cap.uri = call.uri && row.cap.tenantId = call.tenantId with
  | none => exact ⟨_, rfl⟩
  | some row =>
      obtain ⟨hrow, hkey⟩ := Table.find?_some hfind
      simp only [Bool.and_eq_true, decide_eq_true_eq] at hkey
      dsimp only
      rw [hreach row hrow hkey.1 hkey.2]
      exact ⟨_, rfl⟩

/-- Every step whose event reaches the log keeps the invariant wherever the transaction can come
back to. -/
theorem audit_step_mirrored (con : Transaction Registry) (step : AuditStep)
    (hlogged : Logged p con step) (h : con.Throughout Registry.KeepsLog) :
    (auditStep p con step).Throughout Registry.KeepsLog := by
  cases step with
  | audit call => exact h.write fun hworking => hworking.audit hlogged
  | transition call =>
      obtain ⟨failure, hrefused⟩ := transition_refused hlogged
      have hstep : auditStep p con (.transition call) = con := by
        simp only [auditStep, hrefused]
      rw [hstep]
      exact h
  | direct event =>
      exact ⟨h.committed, h.working.record (direct_event_not_mutation event), h.savepoints⟩
  | write f leaves => exact h.write fun hworking => hworking.congr (leaves _)
  | script f leaves => exact h.executescript fun hworking => hworking.congr (leaves _)
  | commit => exact h.commit
  | rollback => exact h.rollback
  | savepoint name => exact h.savepoint name
  | rollbackTo name => exact h.rollbackTo name
  | release name => exact h.release name

/-- A statement changes nothing but the working copy. -/
theorem statement_step (con : Transaction Registry) {step : AuditStep}
    (hstep : step.isStatement = true) :
    (auditStep p con step).committed = con.committed ∧
      (auditStep p con step).savepoints = con.savepoints := by
  cases step with
  | audit call => exact ⟨rfl, rfl⟩
  | transition call =>
      simp only [auditStep]
      split
      · exact ⟨rfl, rfl⟩
      · exact ⟨rfl, rfl⟩
  | direct event => exact ⟨rfl, rfl⟩
  | write f leaves => exact ⟨rfl, rfl⟩
  | script => cases hstep
  | commit => cases hstep
  | rollback => cases hstep
  | savepoint => cases hstep
  | rollbackTo => cases hstep
  | release => cases hstep

theorem statement_run (con : Transaction Registry) {operation : List AuditStep}
    (hoperation : ∀ step ∈ operation, step.isStatement = true) :
    (run (auditStep p) con operation).committed = con.committed ∧
      (run (auditStep p) con operation).savepoints = con.savepoints := by
  induction operation generalizing con with
  | nil => exact ⟨rfl, rfl⟩
  | cons step operation ih =>
      obtain ⟨hstep, hrest⟩ := List.forall_mem_cons.mp hoperation
      obtain ⟨hcommitted, hsavepoints⟩ := statement_step (p := p) con hstep
      obtain ⟨hlater, hkept⟩ := ih (auditStep p con step) hrest
      exact ⟨hlater.trans hcommitted, hkept.trans hsavepoints⟩

end

/-- In every run without an accepted transition of a capability, what is committed is mirrored, and
what is rolled back leaves neither an event nor an entry. -/
theorem audit_mirrored {p : Platform} {start : Registry} {steps : List AuditStep}
    (hcreated : start.log.isSome = true) (hstart : start.Mirrored)
    (hlogged : Along (auditStep p) (Logged p) (.settled start) steps) :
    AuditMirrored p start steps where
  committed first second hsplit := by
    rw [hsplit] at hlogged
    have hfirst := ((along_append _ first second).mp hlogged).1
    exact (run_invariant_along audit_step_mirrored hfirst
      (Transaction.throughout_settled ⟨hcreated, hstart⟩)).committed.mirrored
  rolledBack first operation second _ hoperation := by
    rw [run_append, run_append]
    obtain ⟨hcommitted, -⟩ := statement_run (p := p)
      (run (auditStep p) (.settled start) first) hoperation
    show Transaction.settled (run (auditStep p) _ operation).committed = _
    rw [hcommitted]
  undone first name operation second _ hoperation := by
    rw [run_append]
    generalize run (auditStep p) (.settled start) first = con
    show (run (auditStep p) (con.savepoint name) (operation ++ [.rollbackTo name])).toConnection = _
    rw [run_append]
    obtain ⟨hcommitted, hsavepoints⟩ := statement_run (p := p) (con.savepoint name) hoperation
    show (Transaction.rollbackTo (run (auditStep p) (con.savepoint name) operation)
      name).toConnection = _
    unfold Transaction.rollbackTo
    rw [hsavepoints]
    have hpoints : (con.savepoint name).savepoints.dropWhile (·.1 ≠ name) =
        (name, con.working) :: con.savepoints := by
      simp [Transaction.savepoint]
    rw [hpoints]
    exact Connection.ext hcommitted rfl

/-- A registry with the notes skill and a log without entries. -/
def notesTrail : Registry :=
  { freshRegistry with
    db := ((upsertCapability readablePlatform .empty orgNotes).toOption.map (·.2)).getD .empty
    log := some .empty }

/-- A draft is created, and a review that is not approved is undone. -/
def draftTrail : List AuditStep :=
  [.audit { logId := "rlog_1", now := "2026-01-01", eventType := "capability.draft.created"
            actor := "alice", target := some "cap://user/notes", action := some "draft.create" },
    .commit, .savepoint "capmesh_review_0",
    .audit { logId := "rlog_2", now := "2026-01-02", eventType := "capability.review.approved"
             actor := "bob", target := some "cap://user/notes", action := some "review" },
    .rollbackTo "capmesh_review_0"]

/-- The draft stays in the log, the review does not. -/
theorem audit_mirrored_draft : AuditMirrored readablePlatform notesTrail draftTrail := by
  refine audit_mirrored rfl (by decide +kernel)
    ⟨fun _ row hrow => ?_, trivial, trivial, fun _ => ?_, trivial, trivial⟩
  · exact absurd hrow List.not_mem_nil
  · show ∀ row ∈ (run (auditStep readablePlatform) (.settled notesTrail)
      (draftTrail.take 3)).working.logTable.rows, _ ∧ _
    decide +kernel

/-- A transition of the notes skill leaves an event without an entry. -/
theorem audit_mirrored_counterexample :
    ¬ ∀ (p : Platform) (start : Registry) (steps : List AuditStep),
      start.log.isSome = true → start.Mirrored → AuditMirrored p start steps := by
  intro hclaim
  have hmirrored := (hclaim readablePlatform notesTrail
    [.transition { uri := orgNotes.uri, targetLifecycle := .deprecated, actor := "alice" },
      .commit] rfl (by decide +kernel)).committed _ [] (List.append_nil _).symm
  exact absurd hmirrored (by decide +kernel)

end Capmesh
