import Capmesh.Execution.Savepoint
import Capmesh.Ledger.HashChain
import Capmesh.Registry.Records

/-!
# The registry log as a hash chain

`append_log_entry` and `audit_event` write the log, `verify_log_chain` reads it back.
`LogChained` is the invariant of the rows in the order they were written: they form a chain, and
their sequence numbers count from one. `log_chained_append` is the one statement about a writer,
and `log_chain_valid` carries it over every run of a connection with its commits, rollbacks and
savepoints.
-/

namespace Capmesh

open Python Relational Execution Ledger

/-- `str(value) if value else None`. -/
def textOrNone : Option String → Option String
  | some text => if text = "" then none else some text
  | none => none

namespace LogRow

variable (row : LogRow)

/-- What `verify_log_chain` reads as the hash of the entry before. -/
def actualPrev : Option String := textOrNone row.prevHash

/-- The columns that `verify_log_chain` hands to `_compute_entry_hash`. -/
def entry : LogEntry where
  id := row.id
  now := row.createdAt
  eventType := row.eventType
  actor := row.actor
  action := row.action
  targetUri := textOrNone row.targetUri

/-- The hash that `verify_log_chain` expects of a row. -/
def expectedHash (p : Platform) : String :=
  computeEntryHash p row.sequence row.entry row.payload row.actualPrev

end LogRow

/-- The registry log as a chain of its rows. -/
def registryLog (p : Platform) : Format LogRow String where
  digest row := row.entryHash
  previous := LogRow.actualPrev
  Sealed row := row.expectedHash p = row.entryHash

/-- What `verify_log_chain` returns. -/
structure ChainReport where
  valid : Bool
  entries : Nat
  brokenAt : Option Int := none
  reason : Option String := none
  lastHash : Option String := none
  deriving DecidableEq

/-- The loop of `verify_log_chain`. -/
def verifyRows (p : Platform) (entries : Nat) : Option String → List LogRow → ChainReport
  | prevHash, [] => { valid := true, entries, lastHash := prevHash }
  | prevHash, row :: rows =>
      if prevHash ≠ row.actualPrev then
        { valid := false, entries, brokenAt := some row.sequence
          reason := some "prev_hash mismatch" }
      else if row.expectedHash p ≠ row.entryHash then
        { valid := false, entries, brokenAt := some row.sequence
          reason := some "entry_hash mismatch" }
      else verifyRows p entries (some row.entryHash) rows

/-- `ORDER BY sequence ASC`. -/
def bySequence (rows : List LogRow) : List LogRow :=
  rows.insertionSort fun a b => a.sequence ≤ b.sequence

/-- `verify_log_chain`, after its table was made sure of. -/
def verifyLogChain (p : Platform) (reg : Registry) : ChainReport :=
  verifyRows p reg.logTable.rows.length none (bySequence reg.logTable.rows)

/-- The arguments of `audit_event`, with the id and the time its log entry draws. -/
structure AuditCall where
  logId : String
  now : String
  eventType : String
  actor : String
  target : Option String := none
  action : Option String := none
  decision : Option String := none
  reason : Option String := none
  payload : Dict := []
  tenantId : String := "asg"

namespace AuditCall

variable (call : AuditCall)

/-- The row of `audit_events`. -/
def event : AuditEvent where
  tenantId := call.tenantId
  eventType := call.eventType
  actor := call.actor
  target := call.target.getD ""
  action := call.action.getD ""

/-- Whether the event goes to the registry log as well. -/
def isMirrored : Bool :=
  startsWith call.eventType "capability." && present call.action &&
    !(["read", "list", "status"].contains (call.action.getD ""))

/-- The log entry of an event: its decision and its reason join the payload. -/
def entry : LogEntry where
  id := call.logId
  now := call.now
  eventType := call.eventType
  actor := call.actor
  action := call.action.getD ""
  targetUri := call.target
  payload := .obj (call.payload.foldl (fun data field => Dict.set data field.1 field.2)
    [("decision", (call.decision.map Json.str).getD .null),
      ("reason", (call.reason.map Json.str).getD .null)])

end AuditCall

/-- `audit_event`. An entry that cannot be written to the log is left out. -/
def auditEvent (p : Platform) (call : AuditCall) (reg : Registry) : Registry :=
  let recorded := { reg with audit := reg.audit ++ [call.event] }
  match call.isMirrored, recorded.log with
  | true, some _ => ((appendLogEntry p call.entry recorded).toOption).getD recorded
  | _, _ => recorded

/-- What the caller of the log does on its connection. -/
inductive LogStep where
  | append (entry : LogEntry) (commit : Bool)
  | audit (call : AuditCall)
  | ensure
  | write (f : Registry → Registry) (leaves : ∀ reg, (f reg).log = reg.log)
  | script (f : Registry → Registry) (leaves : ∀ reg, (f reg).log = reg.log)
  | commit
  | rollback
  | savepoint (name : String)
  | rollbackTo (name : String)
  | release (name : String)

/-- One step. An append that raises has run its script and begun a transaction. -/
def logStep (p : Platform) (con : Transaction Registry) : LogStep → Transaction Registry
  | .append entry commit =>
      let con := con.executescript Registry.ensureRegistryLogTable
      match appendLogEntry p entry con.working with
      | .ok reg =>
          let con := con.write fun _ => reg
          if commit then con.commit else con
      | .error _ => con.write id
  | .audit call => con.write (auditEvent p call)
  | .ensure => con.executescript Registry.ensureRegistryLogTable
  | .write f _ => con.write f
  | .script f _ => con.executescript f
  | .commit => con.commit
  | .rollback => con.rollback
  | .savepoint name => con.savepoint name
  | .rollbackTo name => con.rollbackTo name
  | .release name => con.release name

/-- The rows of the log form a chain, numbered from one. -/
structure LogChained (p : Platform) (rows : List LogRow) : Prop where
  linked : (registryLog p).Linked none rows
  numbered : rows.map (·.sequence) = (List.range rows.length).map fun i : Nat => (i : Int) + 1

section

variable {p : Platform} {reg result : Registry} {entry : LogEntry} {rows : List LogRow}

/-- The loop accepts exactly the chains. -/
theorem verify_rows_valid_iff (p : Platform) (entries : Nat) (prev : Option String)
    (rows : List LogRow) :
    (verifyRows p entries prev rows).valid = true ↔ (registryLog p).Linked prev rows := by
  induction rows generalizing prev with
  | nil => exact ⟨fun _ => trivial, fun _ => rfl⟩
  | cons row rows ih =>
      rw [verifyRows, Format.Linked]
      by_cases hprev : prev = row.actualPrev
      · by_cases hhash : row.expectedHash p = row.entryHash
        · rw [if_neg (not_not_intro hprev), if_neg (not_not_intro hhash), ih]
          exact ⟨fun hrest => ⟨hprev.symm, hhash, hrest⟩, fun h => h.2.2⟩
        · rw [if_neg (not_not_intro hprev), if_pos hhash]
          exact ⟨fun h => absurd h Bool.false_ne_true, fun h => absurd h.2.1 hhash⟩
      · rw [if_pos hprev]
        exact ⟨fun h => absurd h Bool.false_ne_true, fun h => absurd h.1.symm hprev⟩

theorem LogChained.ordered (h : LogChained p rows) :
    rows.Pairwise fun a b => a.sequence < b.sequence := by
  have hpairwise : (rows.map (·.sequence)).Pairwise (· < ·) := by
    rw [h.numbered, List.pairwise_map]
    exact (List.pairwise_lt_range).imp fun hlt => by omega
  exact List.pairwise_map.mp hpairwise

theorem LogChained.by_sequence (h : LogChained p rows) : bySequence rows = rows :=
  (h.ordered.imp fun hlt => Int.le_of_lt hlt).insertionSort_eq

theorem last_entry_eq (h : rows.Pairwise fun a b => a.sequence < b.sequence) :
    lastEntry rows = rows.getLast? := by
  induction rows using List.reverseRecOn with
  | nil => rfl
  | append_singleton rows last ih =>
      obtain ⟨hrows, -, hlast⟩ := List.pairwise_append.mp h
      have hfold : lastEntry (rows ++ [last]) = (lastEntry rows).elim (some last) fun entry =>
          if entry.sequence < last.sequence then some last else some entry := by
        unfold lastEntry
        rw [List.foldl_append, List.foldl_cons, List.foldl_nil]
        split
        · rename_i hbest
          rw [hbest]
          rfl
        · rename_i hbest
          rw [hbest]
          rfl
      rw [hfold, ih hrows]
      cases hget : rows.getLast? with
      | none => simp
      | some entry =>
          have hlt := hlast entry (List.mem_of_getLast? hget) last List.mem_cons_self
          simp [hlt]

/-- The row that `append_log_entry` inserts. -/
def nextRow (p : Platform) (entry : LogEntry) (last : Option LogRow) : LogRow :=
  let sequence := (last.map (·.sequence + 1)).getD 1
  let prevHash := last.map (·.entryHash)
  { id := entry.id, sequence, eventType := entry.eventType, actor := entry.actor
    targetUri := entry.targetUri, action := entry.action, payload := entry.payload.jsonDumps
    prevHash
    entryHash := computeEntryHash p sequence entry entry.payload.jsonDumps prevHash
    createdAt := entry.now }

/-- An append that succeeds adds the next row, and nothing else. -/
theorem append_log_entry_ok (h : appendLogEntry p entry reg = .ok result) :
    result.logTable.rows = reg.logTable.rows ++ [nextRow p entry (lastEntry reg.logTable.rows)] := by
  unfold appendLogEntry at h
  obtain ⟨log, hlog, hresult⟩ := bind_eq_ok h
  cases hresult
  exact Table.rows_insert? (constrained_ok hlog)

theorem text_or_none_get_d (value : Option String) : (textOrNone value).getD "" = value.getD "" := by
  cases value with
  | none => rfl
  | some text =>
      by_cases htext : text = ""
      · simp [textOrNone, htext]
      · simp [textOrNone, htext]

/-- The verifier computes the hash that the writer stored: an empty target and no target are hashed
alike. -/
theorem next_row_sealed (p : Platform) (entry : LogEntry) {last : Option LogRow}
    (hlast : (nextRow p entry last).actualPrev = last.map (·.entryHash)) :
    (registryLog p).Sealed (nextRow p entry last) := by
  show computeEntryHash p _ (nextRow p entry last).entry _ (nextRow p entry last).actualPrev = _
  rw [hlast]
  simp [nextRow, computeEntryHash, hashedText, LogRow.entry, text_or_none_get_d]

theorem LogChained.digest (h : LogChained p rows) {row : LogRow} (hrow : row ∈ rows) :
    row.expectedHash p = row.entryHash := by
  obtain ⟨first, rest, rfl⟩ := List.append_of_mem hrow
  exact (Format.linked_cons_concat.mp h.linked).2.2.1

theorem LogChained.concat (hdigest : ∀ text, p.sha256Text text ≠ "") (h : LogChained p rows)
    (entry : LogEntry) : LogChained p (rows ++ [nextRow p entry (lastEntry rows)]) := by
  rw [last_entry_eq h.ordered]
  have hsequence : (nextRow p entry rows.getLast?).sequence = (rows.length : Int) + 1 := by
    have hnumbered := h.numbered
    cases rows using List.reverseRecOn with
    | nil => rfl
    | append_singleton rows last =>
        have hlast := hnumbered
        simp only [List.map_append, List.map_singleton, List.length_append, List.length_singleton,
          List.range_succ] at hlast
        have hsequence := (List.append_inj' hlast rfl).2
        simp [nextRow, List.head_eq_of_cons_eq hsequence]
  have hprev : (nextRow p entry rows.getLast?).actualPrev = rows.getLast?.map (·.entryHash) ∧
      rows.getLast?.map (·.entryHash) = (registryLog p).tip none rows := by
    cases rows using List.reverseRecOn with
    | nil => exact ⟨rfl, rfl⟩
    | append_singleton rows last =>
        have hne : last.entryHash ≠ "" := by
          rw [← h.digest (List.mem_append_right _ List.mem_cons_self)]
          exact hdigest _
        refine ⟨?_, ?_⟩
        · simp [LogRow.actualPrev, nextRow, textOrNone, hne]
        · rw [Format.tip_concat]
          simp [registryLog]
  refine ⟨Format.linked_concat.mpr ⟨h.linked, hprev.1.trans hprev.2, next_row_sealed p entry hprev.1⟩,
    ?_⟩
  rw [List.map_append, h.numbered]
  simp [List.range_succ, hsequence]

/-- The invariant of the log. -/
def ChainedLog (p : Platform) (reg : Registry) : Prop := LogChained p reg.logTable.rows

theorem ChainedLog.append (hdigest : ∀ text, p.sha256Text text ≠ "") (h : ChainedLog p reg)
    (happend : appendLogEntry p entry reg = .ok result) : ChainedLog p result := by
  unfold ChainedLog
  rw [append_log_entry_ok happend]
  exact h.concat hdigest entry

theorem ChainedLog.ensure (h : ChainedLog p reg) : ChainedLog p reg.ensureRegistryLogTable := h

theorem ChainedLog.congr (h : ChainedLog p reg) (hlog : result.log = reg.log) :
    ChainedLog p result := by
  unfold ChainedLog Registry.logTable at *
  rwa [hlog]

theorem ChainedLog.audit (hdigest : ∀ text, p.sha256Text text ≠ "") (h : ChainedLog p reg)
    (call : AuditCall) : ChainedLog p (auditEvent p call reg) := by
  have hrecorded : ChainedLog p { reg with audit := reg.audit ++ [call.event] } := h.congr rfl
  unfold auditEvent
  dsimp only
  split
  · cases happend : appendLogEntry p call.entry { reg with audit := reg.audit ++ [call.event] } with
    | error failure => exact hrecorded
    | ok result => exact hrecorded.append hdigest happend
  · exact hrecorded

/-- Every step keeps the invariant wherever the transaction can come back to. -/
theorem log_step_chained (hdigest : ∀ text, p.sha256Text text ≠ "") (con : Transaction Registry)
    (step : LogStep) (h : con.Throughout (ChainedLog p)) :
    (logStep p con step).Throughout (ChainedLog p) := by
  cases step with
  | append entry commit =>
      have hopened := h.executescript (f := Registry.ensureRegistryLogTable) ChainedLog.ensure
      unfold logStep
      dsimp only
      cases happend : appendLogEntry p entry
          (con.executescript Registry.ensureRegistryLogTable).working with
      | error failure => exact hopened.write fun hworking => hworking
      | ok reg =>
          have hwritten := hopened.write (f := fun _ => reg) fun hworking =>
            hworking.append hdigest happend
          cases commit with
          | false => exact hwritten
          | true => exact hwritten.commit
  | audit call => exact h.write fun hworking => hworking.audit hdigest call
  | ensure => exact h.executescript ChainedLog.ensure
  | write f leaves => exact h.write fun hworking => hworking.congr (leaves _)
  | script f leaves => exact h.executescript fun hworking => hworking.congr (leaves _)
  | commit => exact h.commit
  | rollback => exact h.rollback
  | savepoint name => exact h.savepoint name
  | rollbackTo name => exact h.rollbackTo name
  | release name => exact h.release name

/-- **The registry log is always a valid chain.** From an empty log, whatever is appended, audited,
committed, rolled back and released, `verify_log_chain` accepts the committed table, and its
sequence numbers count from one. A digest is never the empty text. -/
theorem log_chain_valid (hdigest : ∀ text, p.sha256Text text ≠ "") {start : Registry}
    (hempty : start.logTable.rows = []) (steps : List LogStep) :
    let reg := (run (logStep p) (.settled start) steps).committed
    (verifyLogChain p reg).valid = true ∧
      (bySequence reg.logTable.rows).map (·.sequence) =
        (List.range reg.logTable.rows.length).map fun i : Nat => (i : Int) + 1 := by
  intro reg
  have hstart : ChainedLog p start := by
    unfold ChainedLog
    rw [hempty]
    exact ⟨trivial, rfl⟩
  have hchained : ChainedLog p reg :=
    (run_invariant (log_step_chained hdigest) steps (Transaction.throughout_settled hstart)).committed
  refine ⟨?_, ?_⟩
  · unfold verifyLogChain
    rw [verify_rows_valid_iff, hchained.by_sequence]
    exact hchained.linked
  · rw [hchained.by_sequence]
    exact hchained.numbered

end

/-- A digest that can be read: the text itself, behind a mark. -/
def readablePlatform : Platform :=
  .ascii fun content => "#" ++ String.ofList (content.map fun byte => Char.ofNat byte.toNat)

theorem readable_digest_ne (text : String) : readablePlatform.sha256Text text ≠ "" := by
  intro h
  have hlist := congrArg String.toList h
  simp [readablePlatform, Platform.ascii, Runtime.sha256Text] at hlist

/-- A registry without any table but the catalog. -/
def freshRegistry : Registry := ⟨.empty, false, [], none, none, none⟩

/-- The notes skill is indexed, a review is rolled back, and a promotion is audited and kept. -/
def notesLog : List LogStep :=
  [.append { id := "rlog_1", now := "2026-01-01", eventType := "ingest", actor := "alice"
             action := "index", targetUri := some "" } true,
    .savepoint "review",
    .audit { logId := "rlog_2", now := "2026-01-02", eventType := "capability.review"
             actor := "bob", target := some "cap://user/notes", action := some "approve" },
    .rollbackTo "review",
    .audit { logId := "rlog_3", now := "2026-01-03", eventType := "capability.promote"
             actor := "bob", action := some "promote", decision := some "approve" },
    .release "review"]

/-- The log of the notes skill: two entries stay, and they form a chain. -/
theorem log_chain_valid_notes :
    (let reg := (run (logStep readablePlatform) (.settled freshRegistry) notesLog).committed
     (verifyLogChain readablePlatform reg).valid = true ∧
      (bySequence reg.logTable.rows).map (·.sequence) =
        (List.range reg.logTable.rows.length).map fun i : Nat => (i : Int) + 1) ∧
    (run (logStep readablePlatform) (.settled freshRegistry) notesLog
      ).committed.logTable.rows.length = 2 :=
  ⟨log_chain_valid readable_digest_ne rfl notesLog, by decide +kernel⟩

end Capmesh
