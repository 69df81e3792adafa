import Capmesh.Lifecycle.StepUp

/-!
# The scope of a review and the risk policy

The risk gate of a review is evaluated for the scope its payload asks for, or for the scope of the
namespace it targets, and what passes is approved where it lives. `review_scope_risk_iff` says when
the risk policy of the place a row is in let it through as well: the scope asked for is that of the
place, the strictest one, or the policy of the place has nothing to say of the row's tier.
-/

namespace Capmesh

open Python Relational

/-- The scope of the namespace a capability is in. -/
def placedScope (directory : Directory) (cap : Capability) : ReviewScope :=
  (scopeFor directory cap none).1

/-- The risk gate for the place a capability is in. -/
def placementRiskGate (directory : Directory) (cap : Capability) (approvedException : Bool) :
    Gate :=
  riskGate cap (placedScope directory cap) approvedException

/-- What a place demands of the capabilities approved in it: nothing when it is private, no critical
one without an exception in an organization, and no mutating, high or critical one for all users. -/
def ReviewScope.Demands (scope : ReviewScope) (cap : Capability) (approvedException : Bool) :
    Prop :=
  match scope with
  | .private => True
  | .org => cap.riskTier ≠ .critical ∨ approvedException = true
  | .allUsers => cap.mutating = false ∧ cap.riskTier ≠ .high ∧ cap.riskTier ≠ .critical

/-- The scope asked for does not weaken the risk policy of a place: it is the scope of the place, or
all users, or what the place demands holds anyway. -/
def KeepsRiskPolicy (cap : Capability) (approvedException : Bool)
    (placed requested : ReviewScope) : Prop :=
  requested = placed ∨ requested = .allUsers ∨ placed.Demands cap approvedException

/-- The options of a review do not weaken the risk policy of the place a capability is in. -/
def ReviewOptions.KeepRiskPolicy (p : Platform) (directory : Directory) (options : ReviewOptions)
    (cap : Capability) : Prop :=
  ∃ requested target, requestedScope p directory cap options = .ok (requested, target) ∧
    KeepsRiskPolicy cap options.approvedRiskException (placedScope directory cap) requested

section

variable {p : Platform} {start ctx next : Reviewing} {targets : List String}
variable {principal : Principal} {options : ReviewOptions} {cap : Capability}
variable {identifier : String} {review : Review} {row : CapabilityRow}

theorem risk_gate_passed_iff {scope : ReviewScope} {approvedException : Bool} :
    (riskGate cap scope approvedException).state = .passed ↔
      scope.Demands cap approvedException := by
  cases scope with
  | «private» => simp [riskGate, ReviewScope.Demands]
  | org =>
      unfold riskGate ReviewScope.Demands
      cases cap.riskTier <;> cases approvedException <;> simp
  | allUsers =>
      unfold riskGate ReviewScope.Demands
      cases cap.mutating <;> cases cap.riskTier <;> simp

/-- Where the scope asked for passes, the place passes exactly when its policy was not weakened. -/
theorem demands_placed_iff {approvedException : Bool} {placed requested : ReviewScope}
    (h : requested.Demands cap approvedException) :
    placed.Demands cap approvedException ↔
      KeepsRiskPolicy cap approvedException placed requested := by
  unfold KeepsRiskPolicy
  refine ⟨fun hplaced => .inr (.inr hplaced), fun hkeeps => ?_⟩
  obtain rfl | rfl | hplaced := hkeeps
  · exact h
  · obtain ⟨hmutating, hhigh, hcritical⟩ := h
    cases placed with
    | «private» => trivial
    | org => exact .inl hcritical
    | allUsers => exact ⟨hmutating, hhigh, hcritical⟩
  · exact hplaced

theorem approved_demands
    (hreview : lifecycleReview p ctx principal options identifier false = .ok (review, next))
    (happroved : review.approved = true) :
    ∃ row ∈ ctx.db.capabilities, row.cap.uri = review.capabilityUri ∧
      ∃ requested target,
        requestedScope p ctx.directory row.cap options = .ok (requested, target) ∧
        requested.Demands row.cap options.approvedRiskException := by
  have hpassed : review.passed = true := by
    simp only [Review.approved, Bool.and_eq_true] at happroved
    exact happroved.2
  obtain ⟨cap, huri, hpasses⟩ :=
    lifecycle_review_passed_iff.mp ⟨review, next, hreview, hpassed, rfl⟩
  obtain ⟨row, hrow, rfl⟩ := get_capability_mem hpasses.served
  obtain ⟨requested, target, hscope, hcontent⟩ := hpasses.content
  have hgate := (hcontent .riskTierPolicy (by decide)).resolve_right fun h => nomatch h.1
  refine ⟨row, hrow, huri, requested, target, hscope, risk_gate_passed_iff.mp ?_⟩
  cases hgates : evaluateGates p ctx.host ctx.db row.cap requested target principal.subject
      options.approvedRiskException with
  | error failure =>
      rw [hgates] at hgate
      cases hgate
  | ok gates =>
      rw [hgates] at hgate
      obtain ⟨source, -, hlist⟩ := bind_eq_ok hgates
      cases hlist
      exact Option.some.inj hgate

/-- Reviews change neither what a place demands of a capability nor which place it is in. -/
theorem keep_risk_policy_reviewed (p : Platform) (directory : Directory) (options : ReviewOptions)
    (cap : Capability) (approvedException : Bool) (targets : List String) :
    (placementRiskGate directory (cap.reviewedIn targets) approvedException =
        placementRiskGate directory cap approvedException) ∧
      (options.KeepRiskPolicy p directory (cap.reviewedIn targets) ↔
        options.KeepRiskPolicy p directory cap) := by
  unfold Capability.reviewedIn
  split
  · exact ⟨rfl, Iff.rfl⟩
  · exact ⟨rfl, Iff.rfl⟩

theorem approved_row_iff
    (hreview : lifecycleReview p ctx principal options identifier false = .ok (review, next))
    (happroved : review.approved = true) (hrow : row ∈ ctx.db.capabilities)
    (huri : row.cap.uri = review.capabilityUri) :
    (placementRiskGate ctx.directory row.cap options.approvedRiskException).state = .passed ↔
      options.KeepRiskPolicy p ctx.directory row.cap := by
  obtain ⟨other, hother, hotherUri, requested, target, hscope, hdemands⟩ :=
    approved_demands hreview happroved
  obtain rfl := Database.eq_of_uri hother hrow (hotherUri.trans huri.symm)
  unfold placementRiskGate ReviewOptions.KeepRiskPolicy
  rw [risk_gate_passed_iff, demands_placed_iff hdemands]
  constructor
  · exact fun hkeeps => ⟨requested, target, hscope, hkeeps⟩
  · intro ⟨scope, _, hsame, hkeeps⟩
    rw [hscope] at hsame
    cases hsame
    exact hkeeps

theorem review_items_reviewed (principal : Principal) (options : ReviewOptions)
    (uris : List String) (h : ReviewedFrom p start ctx targets) :
    ∀ item ∈ (reviewItems p principal options false ctx uris).1, ∃ mid earlier,
      ReviewedFrom p start mid earlier ∧
        item = (reviewItem p principal options false mid item.uri).1 := by
  induction uris generalizing ctx targets with
  | nil =>
      intro item hitem
      cases hitem
  | cons uri uris ih =>
      obtain ⟨huri, -, hnext⟩ := review_item_step principal options uri h
      intro item hitem
      cases List.mem_cons.mp hitem with
      | inl hfirst =>
          have hitemUri : item.uri = uri := (congrArg ReviewItem.uri hfirst).trans huri
          refine ⟨ctx, targets, h, ?_⟩
          rw [hitemUri]
          exact hfirst
      | inr hlater => exact ih hnext item hlater

theorem review_item_ok {uri : String}
    (h : (reviewItem p principal options false ctx uri).1.outcome = .ok review) :
    ∃ next, lifecycleReview p ctx principal options uri false = .ok (review, next) := by
  unfold reviewItem at h
  split at h
  · rename_i found next hfound
    cases h
    exact ⟨next, hfound⟩
  · cases h

end

/-- Of a row that a review or a batch approves, the risk policy of the place it is in holds exactly
when the payload resolves to the scope of that place, or to all users, or the place's demands hold
of the row anyway. -/
theorem review_scope_risk_iff (p : Platform) (ctx : Reviewing) (principal : Principal) :
    (∀ options identifier review next,
      lifecycleReview p ctx principal options identifier false = .ok (review, next) →
      review.approved = true →
      ∀ row ∈ ctx.db.capabilities, row.cap.uri = review.capabilityUri →
        ((placementRiskGate ctx.directory row.cap options.approvedRiskException).state = .passed ↔
          options.KeepRiskPolicy p ctx.directory row.cap)) ∧
    ∀ request batch next, request.dryRun = false →
      reviewBatch p ctx principal request = .ok (batch, next) →
      ∀ item ∈ batch.items, ∀ review, item.outcome = .ok review → review.approved = true →
      ∀ row ∈ ctx.db.capabilities, row.cap.uri = review.capabilityUri →
        ((placementRiskGate ctx.directory row.cap
            request.options.approvedRiskException).state = .passed ↔
          request.options.KeepRiskPolicy p ctx.directory row.cap) := by
  refine ⟨fun options identifier review next hreview happroved row hrow huri =>
    approved_row_iff hreview happroved hrow huri, ?_⟩
  intro request batch next hreal hbatch item hitem review houtcome happroved row hrow huri
  obtain ⟨-, -, hbatch⟩ := bind_eq_ok hbatch
  split at hbatch
  · cases hbatch
  · cases hbatch
    rw [hreal] at hitem
    obtain ⟨mid, earlier, hmid, hsame⟩ := review_items_reviewed principal request.options _
      (ReviewedFrom.refl ctx) item hitem
    rw [hsame] at houtcome
    obtain ⟨_, hreview⟩ := review_item_ok houtcome
    have hreviewed : row.reviewedIn earlier ∈ mid.db.capabilities := by
      rw [← Table.mem_rows, hmid.rows]
      exact List.mem_map_of_mem hrow
    have hdirectory : mid.directory = ctx.directory := by rw [hmid.rest]
    have hiff := approved_row_iff hreview happroved hreviewed
      (by simpa [CapabilityRow.reviewedIn] using huri)
    rw [hdirectory] at hiff
    obtain ⟨hgate, hkeeps⟩ := keep_risk_policy_reviewed p ctx.directory request.options row.cap
      request.options.approvedRiskException earlier
    rw [← hgate, ← hkeeps]
    exact hiff

/-- A critical notes skill in the namespace of all users. -/
def everyonesNotes : Reviewing where
  db := ((upsertCapability notesPlatform .empty
    { notesSkill ("sha256:" ++ notesSource.2) with
      uri := "cap://all/asg/everyone/skill/notes.notes@0.1.0"
      namespaceId := some "ns_everyone"
      riskTier := .critical }).toOption.map (·.2)).getD .empty
  host := notesHost
  directory :=
    { stores := [{ id := "store_all", tenantId := "asg", kind := .allUsers, disabled := false }]
      namespaces := [⟨"ns_everyone", "asg", "store_all", "cap://all/asg/everyone", true⟩]
      organizations := [] }
  orgCache _ _ := none
  reviewIds uri := "crv_" ++ uri

/-- Whether a review approves a row that the risk policy of its place refuses. -/
def ignoresPlacement (p : Platform) (ctx : Reviewing) (principal : Principal)
    (options : ReviewOptions) (identifier : String) : Bool :=
  match lifecycleReview p ctx principal options identifier false with
  | .ok (review, _) => review.approved && ctx.db.capabilities.rows.any fun row =>
      row.cap.uri = review.capabilityUri &&
        (placementRiskGate ctx.directory row.cap options.approvedRiskException).state ≠ .passed
  | .error _ => false

theorem ignores_placement_quick (p : Platform) (ctx : Reviewing) (principal : Principal)
    (options : ReviewOptions) (identifier : String) :
    ignoresPlacement p ctx principal options identifier =
      match quickReview p ctx principal options identifier false with
      | .ok (review, _) => review.approved && ctx.db.capabilities.rows.any fun row =>
          row.cap.uri = review.capabilityUri &&
            (placementRiskGate ctx.directory row.cap options.approvedRiskException).state ≠ .passed
      | .error _ => false := by
  rw [← lifecycle_review_quick]
  rfl

theorem ignores_placement_ok {p : Platform} {ctx : Reviewing} {principal : Principal}
    {options : ReviewOptions} {identifier : String}
    (h : ignoresPlacement p ctx principal options identifier = true) : ∃ review next,
      lifecycleReview p ctx principal options identifier false = .ok (review, next) ∧
      review.approved = true ∧
      ∃ row ∈ ctx.db.capabilities, row.cap.uri = review.capabilityUri ∧
        (placementRiskGate ctx.directory row.cap options.approvedRiskException).state ≠
          .passed := by
  unfold ignoresPlacement at h
  split at h
  · rename_i review next hreview
    obtain ⟨happroved, hrow⟩ := Bool.and_eq_true_iff.mp h
    obtain ⟨row, hmem, hrefused⟩ := List.any_eq_true.mp hrow
    simp only [Bool.and_eq_true, decide_eq_true_eq] at hrefused
    exact ⟨review, next, hreview, happroved, row, hmem, hrefused⟩
  · cases h

/-- Reviewed as a private one, it is approved for all users. -/
theorem review_scope_risk_counterexample :
    ¬ ∀ (p : Platform) (ctx : Reviewing) (principal : Principal) (options : ReviewOptions)
      (identifier : String) (review : Review) (next : Reviewing),
      lifecycleReview p ctx principal options identifier false = .ok (review, next) →
      review.approved = true →
      ∀ row ∈ ctx.db.capabilities, row.cap.uri = review.capabilityUri →
        (placementRiskGate ctx.directory row.cap options.approvedRiskException).state =
          .passed := by
  intro hclaim
  have hignores : ignoresPlacement notesPlatform everyonesNotes platformAdmin
      { reviewScope := some "private" } "notes" = true := by
    rw [ignores_placement_quick]
    decide +kernel
  obtain ⟨review, next, hreview, happroved, row, hrow, huri, hrefused⟩ :=
    ignores_placement_ok hignores
  exact hrefused (hclaim _ _ _ _ _ _ _ hreview happroved row hrow huri)

theorem approved_review_ok {p : Platform} {ctx : Reviewing} {principal : Principal}
    {options : ReviewOptions} {identifier : String} {dryRun : Bool}
    (h : (lifecycleReview p ctx principal options identifier dryRun).toOption.any
      (·.1.approved) = true) : ∃ review next,
      lifecycleReview p ctx principal options identifier dryRun = .ok (review, next) ∧
        review.approved = true := by
  cases hreview : lifecycleReview p ctx principal options identifier dryRun with
  | error failure => simp [hreview, Except.toOption] at h
  | ok result => exact ⟨result.1, result.2, rfl, by simpa [hreview, Except.toOption] using h⟩

/-- A high-risk skill in a private namespace, reviewed without a scope, is approved as the policy of
its place has it. -/
theorem review_scope_risk_unasked : ∃ review next,
    lifecycleReview notesPlatform riskyNotes platformAdmin {} "notes" false =
        .ok (review, next) ∧
      review.approved = true ∧
      ∀ row ∈ riskyNotes.db.capabilities, row.cap.uri = review.capabilityUri →
        (placementRiskGate riskyNotes.directory row.cap false).state = .passed := by
  have happroves : (lifecycleReview notesPlatform riskyNotes platformAdmin {} "notes"
      false).toOption.any (·.1.approved) = true := by
    rw [lifecycle_review_quick]
    decide +kernel
  obtain ⟨review, next, hreview, happroved⟩ := approved_review_ok happroves
  exact ⟨review, next, hreview, happroved, fun row hrow huri =>
    ((review_scope_risk_iff notesPlatform riskyNotes platformAdmin).1 {} _ _ _ hreview
      happroved row hrow huri).mpr ⟨_, _, rfl, .inl rfl⟩⟩

end Capmesh
