import Capmesh.Execution.Run

/-!
# Transactions with scripts that commit

A connection holds the committed state and the working copy of its open transaction.
Statements write to the working copy; a rollback goes back to the committed state. A script
first commits what was written, as the legacy transaction control of a connection does, and
then runs outside any transaction. `committed_run_eq_iff` says what is committed at the end
of a run: what the last script found and made of it.
-/

namespace Execution

/-- A connection: what is committed, and the working copy of the open transaction. -/
@[ext]
structure Connection (σ : Type) where
  committed : σ
  working : σ

namespace Connection

variable {σ : Type}

/-- A connection without an open transaction. -/
def settled (state : σ) : Connection σ := ⟨state, state⟩

/-- A statement that writes. -/
def write (con : Connection σ) (f : σ → σ) : Connection σ := { con with working := f con.working }

/-- A script: it commits the open transaction and then writes on its own. -/
def executescript (con : Connection σ) (f : σ → σ) : Connection σ :=
  .settled (f con.working)

/-- `COMMIT`. -/
def commit (con : Connection σ) : Connection σ := .settled con.working

/-- `ROLLBACK`. -/
def rollback (con : Connection σ) : Connection σ := .settled con.committed

variable {con : Connection σ} {f : σ → σ} {state : σ}

@[simp] theorem settled_committed : (Connection.settled state).committed = state := rfl

@[simp] theorem settled_working : (Connection.settled state).working = state := rfl

@[simp] theorem write_committed : (con.write f).committed = con.committed := rfl

@[simp] theorem write_working : (con.write f).working = f con.working := rfl

@[simp] theorem executescript_committed : (con.executescript f).committed = f con.working := rfl

@[simp] theorem executescript_working : (con.executescript f).working = f con.working := rfl

@[simp] theorem commit_committed : con.commit.committed = con.working := rfl

@[simp] theorem commit_working : con.commit.working = con.working := rfl

@[simp] theorem rollback_working : con.rollback.working = con.committed := rfl

end Connection

section

variable {σ τ α : Type} {connection : τ → Connection σ} {step : τ → α → τ}
variable {script : α → Option (σ → σ)}

/-- The actions of a machine that open with a script. -/
def Scripted (connection : τ → Connection σ) (step : τ → α → τ) (script : α → Option (σ → σ)) :
    Prop :=
  ∀ state action, (connection (step state action)).committed =
    match script action with
    | some f => f (connection state).working
    | none => (connection state).committed

/-- Without a script, a run commits nothing. -/
theorem committed_run_of_no_script (hstep : Scripted connection step script) {state : τ}
    {actions : List α} (hnone : ∀ action ∈ actions, script action = none) :
    (connection (run step state actions)).committed = (connection state).committed := by
  induction actions generalizing state with
  | nil => rfl
  | cons action actions ih =>
      obtain ⟨hfirst, hrest⟩ := List.forall_mem_cons.mp hnone
      show (connection (run step (step state action) actions)).committed = _
      rw [ih hrest, hstep, hfirst]

theorem committed_run_of_last_script (hstep : Scripted connection step script) {state : τ}
    {first second : List α} {action : α} {f : σ → σ} (hscript : script action = some f)
    (hnone : ∀ later ∈ second, script later = none) :
    (connection (run step state (first ++ action :: second))).committed =
      f (connection (run step state first)).working := by
  rw [run_append]
  show (connection (run step (step (run step state first) action) second)).committed = _
  rw [committed_run_of_no_script hstep hnone, hstep, hscript]

theorem no_script_or_last (script : α → Option (σ → σ)) (actions : List α) :
    (∀ action ∈ actions, script action = none) ∨
      ∃ first action second f, actions = first ++ action :: second ∧ script action = some f ∧
        ∀ later ∈ second, script later = none := by
  induction actions with
  | nil => exact .inl fun _ h => absurd h List.not_mem_nil
  | cons action actions ih =>
      rcases ih with hnone | ⟨first, last, second, f, rfl, hscript, hnone⟩
      · cases hscript : script action with
        | none => exact .inl (List.forall_mem_cons.mpr ⟨hscript, hnone⟩)
        | some f => exact .inr ⟨[], action, actions, f, rfl, hscript, hnone⟩
      · exact .inr ⟨action :: first, last, second, f, rfl, hscript, hnone⟩

theorem committed_run_eq_iff (hstep : Scripted connection step script) {state : τ}
    {actions : List α} {target : σ} :
    (connection (run step state actions)).committed = target ↔
      ((∀ action ∈ actions, script action = none) → (connection state).committed = target) ∧
        ∀ first action second f, actions = first ++ action :: second → script action = some f →
          (∀ later ∈ second, script later = none) →
          f (connection (run step state first)).working = target := by
  constructor
  · intro h
    refine ⟨fun hnone => ?_, ?_⟩
    · rw [← h, committed_run_of_no_script hstep hnone]
    · intro first action second f hsplit hscript hnone
      rw [← h, hsplit, committed_run_of_last_script hstep hscript hnone]
  · rintro ⟨hnever, hlast⟩
    rcases no_script_or_last script actions with hnone | ⟨first, action, second, f, hsplit, hscript, hnone⟩
    · rw [committed_run_of_no_script hstep hnone, hnever hnone]
    · rw [hsplit, committed_run_of_last_script hstep hscript hnone]
      exact hlast first action second f hsplit hscript hnone

end

end Execution
