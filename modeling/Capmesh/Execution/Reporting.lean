import Mathlib.Logic.Basic

/-!
# Operations that report whether they wrote

An operation on a state may fail, and reports whether it wrote anything. `Honest` says that one
that reports no write left the state as it was, and `Busy` that it reports a write whenever it
succeeds. A sequence with a busy part is busy;
`busy_pair` is the rule for two operations that are busy only one after the other, since the
second has to undo what the first leaves.
-/

namespace Execution

/-- An operation that may fail and reports whether it wrote. -/
abbrev Reporting (σ ε : Type) := σ → Except ε (σ × Bool)

namespace Reporting

variable {σ τ ε : Type}

/-- Do nothing. -/
def skip : Reporting σ ε := fun state => .ok (state, false)

/-- One operation, and then another one. -/
def andThen (first second : Reporting σ ε) : Reporting σ ε := fun state =>
  match first state with
  | .error failure => .error failure
  | .ok (mid, wrote) =>
      match second mid with
      | .error failure => .error failure
      | .ok (after, more) => .ok (after, wrote || more)

/-- A list of operations, in its order. -/
def all : List (Reporting σ ε) → Reporting σ ε
  | [] => skip
  | op :: ops => op.andThen (all ops)

/-- An operation on a part of the state. -/
def on (get : σ → τ) (set : σ → τ → σ) (op : Reporting τ ε) : Reporting σ ε := fun state =>
  match op (get state) with
  | .error failure => .error failure
  | .ok (part, wrote) => .ok (set state part, wrote)

/-- Where no write is reported the state is as it was. -/
def Honest (op : Reporting σ ε) : Prop :=
  ∀ state after, op state = .ok (after, false) → after = state

/-- A write is reported whenever the operation succeeds. -/
def Busy (op : Reporting σ ε) : Prop :=
  ∀ state after wrote, op state = .ok (after, wrote) → wrote = true

variable {op first second third : Reporting σ ε} {ops more : List (Reporting σ ε)}
variable {state after : σ} {wrote : Bool}

theorem and_then_ok (h : first.andThen second state = .ok (after, wrote)) :
    ∃ mid earlier later, first state = .ok (mid, earlier) ∧ second mid = .ok (after, later) ∧
      wrote = (earlier || later) := by
  unfold andThen at h
  cases hfirst : first state with
  | error failure => simp [hfirst] at h
  | ok mid =>
      cases hsecond : second mid.1 with
      | error failure => simp [hfirst, hsecond] at h
      | ok last =>
          simp only [hfirst, hsecond, Except.ok.injEq, Prod.mk.injEq] at h
          obtain ⟨rfl, rfl⟩ := h
          exact ⟨mid.1, mid.2, last.2, rfl, hsecond, rfl⟩

theorem and_then_assoc (first second third : Reporting σ ε) :
    (first.andThen second).andThen third = first.andThen (second.andThen third) := by
  funext state
  unfold andThen
  cases first state with
  | error failure => rfl
  | ok mid =>
      cases hsecond : second mid.1 with
      | error failure => simp only [hsecond]
      | ok next =>
          simp only [hsecond]
          cases third next.1 with
          | error failure => rfl
          | ok last => simp only [Bool.or_assoc]

theorem busy_left (h : first.Busy) (second : Reporting σ ε) : (first.andThen second).Busy := by
  intro state after wrote hafter
  obtain ⟨mid, earlier, later, hmid, -, rfl⟩ := and_then_ok hafter
  rw [h state mid earlier hmid, Bool.true_or]

theorem busy_right (first : Reporting σ ε) (h : second.Busy) : (first.andThen second).Busy := by
  intro state after wrote hafter
  obtain ⟨mid, earlier, later, -, hlast, rfl⟩ := and_then_ok hafter
  rw [h mid after later hlast, Bool.or_true]

theorem busy_pair (h : ∀ state mid after earlier later, first state = .ok (mid, earlier) →
    second mid = .ok (after, later) → later = true) : (first.andThen second).Busy := by
  intro state after wrote hafter
  obtain ⟨mid, earlier, later, hmid, hlast, rfl⟩ := and_then_ok hafter
  rw [h state mid after earlier later hmid hlast, Bool.or_true]

theorem busy_on {get : σ → τ} {set : σ → τ → σ} {op : Reporting τ ε} (hop : op.Busy) :
    (op.on get set).Busy := by
  intro state after wrote h
  unfold on at h
  split at h
  · cases h
  · rename_i part reported hpart
    have hreported := hop (get state) part reported hpart
    cases h
    exact hreported

end Reporting

end Execution
