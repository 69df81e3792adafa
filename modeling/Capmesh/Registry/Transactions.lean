import Capmesh.Execution.Transaction
import Capmesh.Registry.Records

/-!
# Dependent operations in a caller's transaction

A caller opens a transaction, writes, and calls operations with `commit=False` that should
stay inside it. Each of them makes sure of its tables by `executescript`, which commits the
caller's transaction first. `rollback_restores_iff` says when a rollback still restores the
state at the start.
-/

namespace Capmesh

open Python Relational Execution

/-- A dependent operation, called with `commit=False`. -/
inductive DependentCall where
  | guard (call : GuardCall)
  | appendLogEntry (entry : LogEntry)
  | addDependency (dependency : Dependency)
  | removeDependency (tenant uri dependsOn : String)
  | createTaskEnvelope (id tenant uri principal now : String) (envelope : Json)
  | processTask (id tenant now : String) (handler : Json → Except String Json)

namespace DependentCall

/-- What the operation makes sure of, before anything else. -/
def ensure : DependentCall → Registry → Registry
  | .guard _ => Registry.ensureQuarantineTables
  | .appendLogEntry _ => Registry.ensureRegistryLogTable
  | .addDependency _ => Registry.ensureDependencyTable
  | .removeDependency .. => Registry.ensureDependencyTable
  | .createTaskEnvelope .. => Registry.ensureTaskTable
  | .processTask .. => Registry.ensureTaskTable

/-- The reads and writes that follow, on the working copy and the signing key store. -/
def body (p : Platform) (crypto : Crypto) (reg : Registry) (keys : KeyStore) :
    DependentCall → Except Failure (Registry × KeyStore)
  | .guard call => do
      let host ← guardCall p crypto ⟨reg.db, keys⟩ call
      .ok ({ reg with db := host.db, audit := reg.audit ++ call.audit p reg.db }, host.keys)
  | .appendLogEntry entry => (·, keys) <$> Capmesh.appendLogEntry p entry reg
  | .addDependency dependency => (·, keys) <$> Capmesh.addDependency dependency reg
  | .removeDependency tenant uri dependsOn =>
      .ok (Capmesh.removeDependency tenant uri dependsOn reg, keys)
  | .createTaskEnvelope id tenant uri principal now envelope =>
      (·, keys) <$> Capmesh.createTaskEnvelope id tenant uri principal now envelope reg
  | .processTask id tenant now handler =>
      (·, keys) <$> Capmesh.processTask id tenant now handler reg

end DependentCall

/-- A caller's connection, and the signing key store outside it. -/
structure Session where
  con : Connection Registry
  keys : KeyStore

/-- What a caller does in its transaction: a write of its own, or a dependent operation. -/
inductive CallerStep where
  | write (f : Registry → Registry)
  | call (operation : DependentCall)

/-- The script a step starts with. -/
def CallerStep.script : CallerStep → Option (Registry → Registry)
  | .write _ => none
  | .call operation => some operation.ensure

/-- One step; a call that raises has run its script and written nothing else. -/
def callerStep (p : Platform) (crypto : Crypto) (session : Session) : CallerStep → Session
  | .write f => { session with con := session.con.write f }
  | .call call =>
      let con := session.con.executescript call.ensure
      match call.body p crypto con.working session.keys with
      | .ok (reg, keys) => ⟨con.write fun _ => reg, keys⟩
      | .error _ => { session with con }

/-- A rollback after the steps of a transaction restores the state at its start. -/
def RollbackRestores (p : Platform) (crypto : Crypto) (start : Registry) (keys : KeyStore)
    (steps : List CallerStep) : Prop :=
  (run (callerStep p crypto) ⟨.settled start, keys⟩ steps).con.rollback.working = start

/-- A call commits what was written before it, with its tables. -/
theorem caller_step_scripted (p : Platform) (crypto : Crypto) :
    Scripted Session.con (callerStep p crypto) CallerStep.script := by
  intro session step
  cases step with
  | write f => rfl
  | call call =>
      unfold callerStep
      dsimp only [CallerStep.script]
      split <;> rfl

/-- A rollback restores the start exactly when at the last call everything written so far, with the
tables the call makes sure of, amounts to the start. -/
theorem rollback_restores_iff (p : Platform) (crypto : Crypto) (start : Registry)
    (keys : KeyStore) (steps : List CallerStep) :
    RollbackRestores p crypto start keys steps ↔
      ∀ first call second, steps = first ++ .call call :: second →
        (∀ step ∈ second, ∃ f, step = .write f) →
        call.ensure (run (callerStep p crypto) ⟨.settled start, keys⟩ first).con.working =
          start := by
  have hwrite : ∀ step : CallerStep, step.script = none ↔ ∃ f, step = .write f := by
    intro step
    cases step with
    | write f => exact ⟨fun _ => ⟨f, rfl⟩, fun _ => rfl⟩
    | call call => simp [CallerStep.script]
  unfold RollbackRestores
  rw [Connection.rollback_working, committed_run_eq_iff (caller_step_scripted p crypto)]
  simp only [hwrite]
  constructor
  · intro h first call second hsplit hnone
    exact h.2 first (.call call) second call.ensure hsplit rfl hnone
  · intro h
    refine ⟨fun _ => rfl, fun first step second f hsplit hscript hnone => ?_⟩
    cases step with
    | write g => cases hscript
    | call call =>
        cases hscript
        exact h first call second hsplit hnone

/-- A registry whose tables all exist, without rows. -/
def emptyRegistry : Registry := ⟨.empty, true, [], some .empty, some .empty, some .empty⟩

/-- The caller records that a skill was indexed, and appends to the registry log. -/
def indexedSteps : List CallerStep :=
  [.write fun reg => { reg with
      audit := reg.audit ++ [⟨"asg", "capability.indexed", "alice", "cap://user/notes", "index"⟩] },
    .call (.appendLogEntry
      { id := "rlog_1", now := "2026-01-01T00:00:00Z", eventType := "capability.indexed"
        actor := "alice", action := "index" })]

/-- The caller's own record survives the rollback. -/
theorem rollback_restores_counterexample :
    ¬ ∀ (p : Platform) (crypto : Crypto) (start : Registry) (keys : KeyStore)
      (steps : List CallerStep), RollbackRestores p crypto start keys steps := by
  intro hclaim
  have hrestores := hclaim .sample .transparent emptyRegistry ⟨true, .key "k", true⟩ indexedSteps
  exact absurd (congrArg (fun reg : Registry => reg.audit.length) hrestores) (by decide +kernel)

end Capmesh
