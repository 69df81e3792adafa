import Mathlib.Logic.Relation
import Capmesh.Lifecycle.Refresh

/-!
# Walks of a lifecycle

What the calls of `transition_capability` make of a capability, whoever makes them and in whatever
order: each lifecycle is reached from the one before by a move of the table. `lifecycle_walk` names
the lifecycles that no call enters, and the one that no call leaves.
-/

namespace Capmesh

open Relational Execution

/-- What a call leaves; a refused one has only read. -/
def transitionStep (db : Database) (call : TransitionCall) : Database :=
  match transitionCapability db call with
  | .ok (next, _) => next
  | .error _ => db

/-- A lifecycle is reached from another one by moves of the table. -/
def Lifecycle.Reaches : Lifecycle → Lifecycle → Prop :=
  Relation.ReflTransGen fun current target => isValidTransition current target = true

/-- The row of a capability after some calls. -/
def Walked (row : CapabilityRow) (db : Database) : Prop :=
  ∃ after ∈ db.capabilities, after.id = row.id ∧ after.cap.uri = row.cap.uri ∧
    row.cap.lifecycle.Reaches after.cap.lifecycle

/-- Every capability keeps its row, and its lifecycle moves by the table. So a deleted capability
stays deleted, and none becomes disabled, recalled or yanked. -/
structure WalksByTable (db after : Database) : Prop where
  walked : ∀ row ∈ db.capabilities, Walked row after
  deletedStays : ∀ row ∈ db.capabilities, row.cap.lifecycle = .deleted →
    ∀ later ∈ after.capabilities, later.id = row.id → later.cap.lifecycle = .deleted
  notEntered : ∀ row ∈ db.capabilities, ∀ later ∈ after.capabilities, later.id = row.id →
    ∀ state ∈ [Lifecycle.disabled, .recalled, .yanked],
      later.cap.lifecycle = state → row.cap.lifecycle = state

variable {row : CapabilityRow}

theorem transition_capability_ok {db next : Database} {call : TransitionCall} {event : AuditEvent}
    (h : transitionCapability db call = .ok (next, event)) :
    ∃ found ∈ db.capabilities, found.cap.uri = call.uri ∧
      isValidTransition found.cap.lifecycle call.targetLifecycle = true ∧
      ∀ row ∈ db.capabilities, row.amend (·.uri = call.uri)
        (fun cap => { cap with lifecycle := call.targetLifecycle }) ∈ next.capabilities := by
  unfold transitionCapability at h
  split at h
  · cases h
  · split at h
    · cases h
    · rename_i found hfound
      obtain ⟨hmem, hcalled⟩ := Table.find?_some hfound
      simp only [Bool.and_eq_true, decide_eq_true_eq] at hcalled
      split at h
      · cases h
      · rename_i hvalid
        cases h
        exact ⟨found, hmem, hcalled.1, by simpa using hvalid,
          fun row hrow => (mem_amend_capabilities _).mpr ⟨row, hrow, rfl⟩⟩

theorem transition_step_row {db : Database} (hrow : row ∈ db.capabilities) (call : TransitionCall) :
    ∃ after ∈ (transitionStep db call).capabilities, after.id = row.id ∧
      after.cap.uri = row.cap.uri ∧
      isValidTransition row.cap.lifecycle after.cap.lifecycle = true := by
  have hstays : isValidTransition row.cap.lifecycle row.cap.lifecycle = true := by
    simp [isValidTransition]
  unfold transitionStep
  cases hcall : transitionCapability db call with
  | error failure => exact ⟨row, hrow, rfl, rfl, hstays⟩
  | ok result =>
      obtain ⟨found, hfound, hcalled, hvalid, hrows⟩ := transition_capability_ok hcall
      refine ⟨_, hrows row hrow, ?_⟩
      unfold CapabilityRow.amend
      by_cases huri : row.cap.uri = call.uri
      · rw [Database.eq_of_uri hfound hrow (hcalled.trans huri.symm)] at hvalid
        simpa [huri] using hvalid
      · simpa [huri] using hstays

/-- No move of the table leaves a deleted capability, and none leads to these lifecycles. -/
theorem transition_targets {current target : Lifecycle}
    (h : isValidTransition current target = true) :
    (current = .deleted → target = .deleted) ∧
      ∀ state ∈ [Lifecycle.disabled, .recalled, .yanked], target = state → current = state := by
  simp only [isValidTransition, Bool.or_eq_true, decide_eq_true_eq, List.contains_iff_mem] at h
  rcases h with rfl | hmove
  · exact ⟨id, fun _ _ => id⟩
  · refine ⟨?_, ?_⟩
    · rintro rfl
      cases hmove
    · rintro state hstate rfl
      cases current <;> revert hmove <;> revert hstate <;> cases target <;>
        simp [capabilityTransitions]

/-- Nor does a sequence of moves. -/
theorem Lifecycle.Reaches.targets {current target : Lifecycle} (h : current.Reaches target) :
    (current = .deleted → target = .deleted) ∧
      ∀ state ∈ [Lifecycle.disabled, .recalled, .yanked], target = state → current = state := by
  induction h with
  | refl => exact ⟨id, fun _ _ => id⟩
  | tail _ hmove ih =>
      obtain ⟨hdeleted, hentered⟩ := transition_targets hmove
      exact ⟨fun h => hdeleted (ih.1 h), fun state hstate h => ih.2 state hstate
        (hentered state hstate h)⟩

/-- Over every run of calls the lifecycles move by the table. -/
theorem lifecycle_walk (db : Database) (calls : List TransitionCall) :
    WalksByTable db (run transitionStep db calls) := by
  have hwalked : ∀ row ∈ db.capabilities, Walked row (run transitionStep db calls) := by
    intro row hrow
    refine run_invariant (fun state call h => ?_) calls ⟨row, hrow, rfl, rfl, .refl⟩
    obtain ⟨earlier, hearlier, hid, huri, hreaches⟩ := h
    obtain ⟨after, hafter, hsameId, hsameUri, hvalid⟩ := transition_step_row hearlier call
    exact ⟨after, hafter, hsameId.trans hid, hsameUri.trans huri, hreaches.tail hvalid⟩
  have hreaches : ∀ row ∈ db.capabilities, ∀ later ∈ (run transitionStep db calls).capabilities,
      later.id = row.id → row.cap.lifecycle.Reaches later.cap.lifecycle := by
    intro row hrow later hlater hid
    obtain ⟨after, hafter, hsame, -, hreaches⟩ := hwalked row hrow
    rwa [Table.eq_of_conflict hlater hafter (.inl (hid.trans hsame.symm))]
  exact
    { walked := hwalked
      deletedStays := fun row hrow hdeleted later hlater hid =>
        (hreaches row hrow later hlater hid).targets.1 hdeleted
      notEntered := fun row hrow later hlater hid =>
        (hreaches row hrow later hlater hid).targets.2 }

end Capmesh
