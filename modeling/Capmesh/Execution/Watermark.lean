import Capmesh.Execution.Run

/-!
# Stored marks

A state beside a stored mark of it, such as a digest that replicas compare. A transaction
commits what it wrote with a fresh mark, or leaves the mark as it was. `settled_current_iff` is the
step: from a current mark every commit is current exactly when the commits that leave the mark
keep what it is a mark of. `along_current_iff` is the run.
-/

namespace Execution

variable {σ δ α : Type}

/-- A state, and the mark that was stored of it. -/
structure Marked (σ δ : Type) where
  state : σ
  mark : Option δ
  deriving DecidableEq

/-- A commit: with a fresh mark of what it wrote, or with the mark left as it was. -/
inductive Commit (σ : Type) where
  | marked (after : σ)
  | unmarked (after : σ)

namespace Marked

variable (digest : σ → δ)

/-- The stored mark is the mark of the state. -/
def Current (stored : Marked σ δ) : Prop := stored.mark = some (digest stored.state)

instance [DecidableEq δ] (stored : Marked σ δ) : Decidable (stored.Current digest) :=
  inferInstanceAs (Decidable (_ = _))

/-- What one commit leaves. -/
def settle (stored : Marked σ δ) : Commit σ → Marked σ δ
  | .marked after => ⟨after, some (digest after)⟩
  | .unmarked after => ⟨after, stored.mark⟩

/-- What the commits of a call leave, one after another. -/
def settled (stored : Marked σ δ) : List (Commit σ) → List (Marked σ δ)
  | [] => []
  | commit :: commits => stored.settle digest commit :: (stored.settle digest commit).settled commits

/-- A call leaves what its last commit does. -/
def turn (script : σ → α → List (Commit σ)) (stored : Marked σ δ) (call : α) : Marked σ δ :=
  (script stored.state call).foldl (settle digest) stored

/-- Every commit of a call is current. -/
def CommitsCurrent (script : σ → α → List (Commit σ)) (stored : Marked σ δ) (call : α) : Prop :=
  ∀ commit ∈ stored.settled digest (script stored.state call), commit.Current digest

/-- The commits that leave the mark keep what the commit before them had a mark of. -/
def Keeps : δ → List (Commit σ) → Prop
  | _, [] => True
  | _, .marked after :: commits => Keeps (digest after) commits
  | mark, .unmarked after :: commits => digest after = mark ∧ Keeps mark commits

variable {digest} {stored : Marked σ δ} {commits : List (Commit σ)}
variable {script : σ → α → List (Commit σ)}

theorem settled_current_iff (h : stored.Current digest) :
    (∀ commit ∈ stored.settled digest commits, commit.Current digest) ↔
      Keeps digest (digest stored.state) commits := by
  induction commits generalizing stored with
  | nil => simp [settled, Keeps]
  | cons commit commits ih =>
      cases commit with
      | marked after =>
          have hnext : (stored.settle digest (.marked after)).Current digest := rfl
          rw [settled, List.forall_mem_cons, Keeps, ih hnext]
          exact and_iff_right hnext
      | unmarked after =>
          have hnext : (stored.settle digest (.unmarked after)).Current digest ↔
              digest after = digest stored.state := by
            show stored.mark = some (digest after) ↔ _
            rw [h, Option.some.injEq, eq_comm]
          rw [settled, List.forall_mem_cons, Keeps, hnext]
          refine and_congr_right fun hsame => ?_
          rw [ih (hnext.mpr hsame), ← hsame]
          exact Iff.rfl

/-- What the commits of a call leave is the last of them, or what the call found. -/
theorem foldl_settle_current (h : stored.Current digest)
    (hcommits : ∀ commit ∈ stored.settled digest commits, commit.Current digest) :
    (commits.foldl (settle digest) stored).Current digest := by
  induction commits generalizing stored with
  | nil => exact h
  | cons commit commits ih =>
      obtain ⟨hfirst, hrest⟩ := List.forall_mem_cons.mp hcommits
      exact ih hfirst hrest

theorem turn_current (h : stored.Current digest) {call : α}
    (hcommits : stored.CommitsCurrent digest script call) :
    (stored.turn digest script call).Current digest :=
  foldl_settle_current h hcommits

theorem keeps_unmarked_append {mark : δ} {states : List σ}
    (h : ∀ state ∈ states, digest state = mark) :
    Keeps digest mark (states.map .unmarked ++ commits) ↔ Keeps digest mark commits := by
  induction states with
  | nil => exact Iff.rfl
  | cons state states ih =>
      obtain ⟨hfirst, hrest⟩ := List.forall_mem_cons.mp h
      rw [List.map_cons, List.cons_append, Keeps, ih hrest]
      exact and_iff_right hfirst

/-- Over a run from a current mark, every commit is current exactly when the commits of every call
keep their marks. -/
theorem along_current_iff {calls : List α} (h : stored.Current digest) :
    Along (turn digest script) (CommitsCurrent digest script) stored calls ↔
      Along (turn digest script)
        (fun stored call => Keeps digest (digest stored.state) (script stored.state call))
        stored calls := by
  induction calls generalizing stored with
  | nil => exact Iff.rfl
  | cons call calls ih =>
      have hcall : stored.CommitsCurrent digest script call ↔
          Keeps digest (digest stored.state) (script stored.state call) := settled_current_iff h
      rw [Along, Along, ← hcall]
      exact and_congr_right fun hcommits => ih (turn_current h hcommits)

end Marked

end Execution
