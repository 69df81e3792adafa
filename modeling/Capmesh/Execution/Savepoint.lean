import Capmesh.Execution.Transaction

/-!
# Savepoints

A transaction on a connection, with the savepoints that were set in it. A savepoint keeps the
working copy it was set on, and the transaction can come back to it. `Throughout` says that a
predicate holds of everything the transaction can come back to, and there is one lemma for each
operation: only the writes have to be looked at to know that it does.
-/

namespace Execution

/-- A connection with its transaction: whether `BEGIN` opened it, and its savepoints, the
innermost first. -/
structure Transaction (σ : Type) extends Connection σ where
  begun : Bool
  savepoints : List (String × σ)

namespace Transaction

variable {σ : Type}

/-- A connection without an open transaction. -/
def settled (state : σ) : Transaction σ := ⟨.settled state, false, []⟩

/-- A statement that writes. It begins a transaction when none is open. -/
def write (con : Transaction σ) (f : σ → σ) : Transaction σ :=
  { con with working := f con.working, begun := con.begun || con.savepoints.isEmpty }

/-- A script: it commits the open transaction and then writes on its own. -/
def executescript (con : Transaction σ) (f : σ → σ) : Transaction σ := .settled (f con.working)

/-- `COMMIT`. -/
def commit (con : Transaction σ) : Transaction σ := .settled con.working

/-- `ROLLBACK`. -/
def rollback (con : Transaction σ) : Transaction σ := .settled con.committed

/-- `SAVEPOINT`. -/
def savepoint (con : Transaction σ) (name : String) : Transaction σ :=
  { con with savepoints := (name, con.working) :: con.savepoints }

/-- `ROLLBACK TO`: back to the innermost savepoint of that name, which stays. -/
def rollbackTo (con : Transaction σ) (name : String) : Transaction σ :=
  match con.savepoints.dropWhile (·.1 ≠ name) with
  | [] => con
  | point :: outer => { con with working := point.2, savepoints := point :: outer }

/-- `RELEASE`: the innermost savepoint of that name goes, with those inside it. The outermost one
commits the transaction it opened. -/
def release (con : Transaction σ) (name : String) : Transaction σ :=
  match con.savepoints.dropWhile (·.1 ≠ name) with
  | [] => con
  | _ :: outer =>
      if outer.isEmpty && !con.begun then con.commit else { con with savepoints := outer }

/-- A predicate holds of everything the transaction can come back to. -/
structure Throughout (I : σ → Prop) (con : Transaction σ) : Prop where
  committed : I con.committed
  working : I con.working
  savepoints : ∀ point ∈ con.savepoints, I point.2

variable {I : σ → Prop} {con : Transaction σ} {f : σ → σ} {state : σ}

theorem throughout_settled (h : I state) : (settled state).Throughout I :=
  ⟨h, h, fun _ hpoint => absurd hpoint List.not_mem_nil⟩

theorem Throughout.write (h : con.Throughout I) (hf : I con.working → I (f con.working)) :
    (con.write f).Throughout I :=
  ⟨h.committed, hf h.working, h.savepoints⟩

theorem Throughout.executescript (h : con.Throughout I) (hf : I con.working → I (f con.working)) :
    (con.executescript f).Throughout I :=
  throughout_settled (hf h.working)

theorem Throughout.commit (h : con.Throughout I) : con.commit.Throughout I :=
  throughout_settled h.working

theorem Throughout.rollback (h : con.Throughout I) : con.rollback.Throughout I :=
  throughout_settled h.committed

theorem Throughout.savepoint (h : con.Throughout I) (name : String) :
    (con.savepoint name).Throughout I :=
  ⟨h.committed, h.working, List.forall_mem_cons.mpr ⟨h.working, h.savepoints⟩⟩

/-- What is left of the savepoints once the inner ones are gone. -/
theorem Throughout.outer (h : con.Throughout I) (name : String) :
    ∀ point ∈ con.savepoints.dropWhile (·.1 ≠ name), I point.2 :=
  fun point hpoint => h.savepoints point ((List.dropWhile_sublist _).subset hpoint)

theorem Throughout.rollbackTo (h : con.Throughout I) (name : String) :
    (con.rollbackTo name).Throughout I := by
  have houter := h.outer name
  unfold Transaction.rollbackTo
  cases hpoints : con.savepoints.dropWhile (·.1 ≠ name) with
  | nil => exact h
  | cons point outer =>
      rw [hpoints] at houter
      exact ⟨h.committed, houter point List.mem_cons_self, houter⟩

theorem Throughout.release (h : con.Throughout I) (name : String) :
    (con.release name).Throughout I := by
  have houter := h.outer name
  unfold Transaction.release
  cases hpoints : con.savepoints.dropWhile (·.1 ≠ name) with
  | nil => exact h
  | cons point outer =>
      rw [hpoints] at houter
      dsimp only
      split
      · exact h.commit
      · exact ⟨h.committed, h.working, (List.forall_mem_cons.mp houter).2⟩

end Transaction

end Execution
