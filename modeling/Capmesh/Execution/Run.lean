import Mathlib.Data.List.Induction

/-!
# Runs of a state machine

A run applies a total step function to a list of actions; a refused action is one
that leaves the state as it is. `run_invariant` and `run_related` are the two
induction rules: a predicate every step keeps holds after every run, and a
reflexive and transitive relation every step respects relates the ends of every
run. The rules with `Along` allow the step to rely on a condition that each
action of the run meets in the state it is taken in; `Occurs` says that some action
of the run met one. `fold_ok` is the rule for a loop that stops at the first failure: what each
turn keeps, of the items done so far, holds of all of them when the loop succeeds. `fold_foretold`
is the rule for two loops over the same items, one of which never fails.
-/

namespace Execution

variable {σ α : Type} {step : σ → α → σ}

/-- The state after a list of actions. -/
def run (step : σ → α → σ) : σ → List α → σ
  | state, [] => state
  | state, action :: actions => run step (step state action) actions

/-- Every action of a run meets `P` in the state it is taken in. -/
def Along (step : σ → α → σ) (P : σ → α → Prop) : σ → List α → Prop
  | _, [] => True
  | state, action :: actions => P state action ∧ Along step P (step state action) actions

/-- `Along` is decided action by action. -/
def decideAlong {P : σ → α → Prop} (decidable : ∀ state action, Decidable (P state action)) :
    ∀ (state : σ) (actions : List α), Decidable (Along step P state actions)
  | _, [] => .isTrue trivial
  | state, action :: actions =>
      @instDecidableAnd _ _ (decidable state action)
        (decideAlong decidable (step state action) actions)

instance {P : σ → α → Prop} [∀ state action, Decidable (P state action)] (state : σ)
    (actions : List α) : Decidable (Along step P state actions) :=
  decideAlong (fun _ _ => inferInstance) state actions

/-- Some action of a run meets `P` in the state it is taken in. -/
def Occurs (step : σ → α → σ) (P : σ → α → Prop) (state : σ) (actions : List α) : Prop :=
  ∃ first action second, actions = first ++ action :: second ∧ P (run step state first) action

theorem run_append (state : σ) (first second : List α) :
    run step state (first ++ second) = run step (run step state first) second := by
  induction first generalizing state with
  | nil => rfl
  | cons action actions ih => exact ih (step state action)

theorem along_append {P : σ → α → Prop} (state : σ) (first second : List α) :
    Along step P state (first ++ second) ↔
      Along step P state first ∧ Along step P (run step state first) second := by
  induction first generalizing state with
  | nil => simp [Along, run]
  | cons action actions ih => simp [Along, run, ih, and_assoc]

/-- Every action meets `P` exactly when the action after every prefix does. -/
theorem along_iff {P : σ → α → Prop} (state : σ) (actions : List α) :
    Along step P state actions ↔ ∀ first action second, actions = first ++ action :: second →
      P (run step state first) action := by
  constructor
  · rintro h first action second rfl
    exact ((along_append state first (action :: second)).mp h).2.1
  · intro h
    induction actions generalizing state with
    | nil => trivial
    | cons action actions ih =>
        refine ⟨h [] action actions rfl, ih (step state action) fun first next second hsplit => ?_⟩
        exact h (action :: first) next second (by rw [hsplit]; rfl)

theorem occurs_concat {P : σ → α → Prop} (state : σ) (actions : List α) (last : α) :
    Occurs step P state (actions ++ [last]) ↔
      Occurs step P state actions ∨ P (run step state actions) last := by
  constructor
  · rintro ⟨first, action, second, hsplit, haction⟩
    cases second using List.reverseRecOn with
    | nil =>
        obtain ⟨rfl, hlast⟩ := List.append_inj' hsplit rfl
        cases hlast
        exact .inr haction
    | append_singleton second final =>
        rw [← List.cons_append, ← List.append_assoc] at hsplit
        obtain ⟨rfl, -⟩ := List.append_inj' hsplit rfl
        exact .inl ⟨first, action, second, rfl, haction⟩
  · rintro (⟨first, action, second, rfl, haction⟩ | hlast)
    · exact ⟨first, action, second ++ [last], by simp, haction⟩
    · exact ⟨actions, last, [], rfl, hlast⟩

/-- A predicate kept by every step whose action meets `P` holds after every run along which the
actions meet `P`. -/
theorem run_invariant_along {P : σ → α → Prop} {I : σ → Prop}
    (hstep : ∀ state action, P state action → I state → I (step state action))
    {state : σ} {actions : List α} (halong : Along step P state actions) (h : I state) :
    I (run step state actions) := by
  induction actions generalizing state with
  | nil => exact h
  | cons action actions ih => exact ih halong.2 (hstep state action halong.1 h)

/-- A predicate kept by every step holds after every run. -/
theorem run_invariant {I : σ → Prop} (hstep : ∀ state action, I state → I (step state action))
    {state : σ} (actions : List α) (h : I state) : I (run step state actions) := by
  induction actions generalizing state with
  | nil => exact h
  | cons action actions ih => exact ih (hstep state action h)

/-- A reflexive and transitive relation that every step respects relates the ends of a run. -/
theorem run_related {R : σ → σ → Prop} (hrefl : ∀ state, R state state)
    (htrans : ∀ {a b c}, R a b → R b c → R a c) (hstep : ∀ state action, R state (step state action))
    (state : σ) (actions : List α) : R state (run step state actions) := by
  induction actions generalizing state with
  | nil => exact hrefl state
  | cons action actions ih => exact htrans (hstep state action) (ih (step state action))

/-- What every turn of a loop keeps holds after a loop that succeeded. -/
theorem fold_ok {ε : Type} {turn : σ → α → Except ε σ} {I : List α → σ → Prop}
    (hturn : ∀ done item state next, I done state → turn state item = .ok next →
      I (done ++ [item]) next) {items : List α} {state final : σ} {done : List α}
    (h : I done state) (hloop : items.foldlM turn state = .ok final) : I (done ++ items) final := by
  induction items generalizing state done with
  | nil =>
      cases hloop
      simpa using h
  | cons item items ih =>
      rw [List.foldlM_cons] at hloop
      cases hfirst : turn state item with
      | error failure =>
          rw [hfirst] at hloop
          cases hloop
      | ok next =>
          rw [hfirst] at hloop
          have hrest := ih (hturn done item state next h hfirst) hloop
          rwa [List.append_assoc] at hrest

/-- When every turn of a loop succeeds and keeps `f`, and stays in `R` with the turns of another loop
that succeed, so does the loop with the other one. -/
theorem fold_foretold {ε δ τ β : Type} {turn : σ → α → Except ε σ} {other : τ → α → Except δ τ}
    {R : σ → τ → Prop} (f : σ → β)
    (hturn : ∀ state item, ∃ next, turn state item = .ok next ∧ f next = f state ∧
      ∀ before after, R state before → other before item = .ok after → R next after)
    (items : List α) (state : σ) :
    ∃ final, items.foldlM turn state = .ok final ∧ f final = f state ∧
      ∀ before after, R state before → items.foldlM other before = .ok after → R final after := by
  induction items generalizing state with
  | nil =>
      refine ⟨state, rfl, rfl, fun before after hbefore hloop => ?_⟩
      cases hloop
      exact hbefore
  | cons item items ih =>
      obtain ⟨next, hnext, hkept, hrelated⟩ := hturn state item
      obtain ⟨final, hfinal, hlast, hrest⟩ := ih next
      refine ⟨final, by rwa [List.foldlM_cons, hnext], hlast.trans hkept,
        fun before after hbefore hloop => ?_⟩
      rw [List.foldlM_cons] at hloop
      cases hmiddle : other before item with
      | error failure =>
          rw [hmiddle] at hloop
          cases hloop
      | ok middle =>
          rw [hmiddle] at hloop
          exact hrest middle after (hrelated before middle hbefore hmiddle) hloop

end Execution
