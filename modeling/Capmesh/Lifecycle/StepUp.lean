import Capmesh.Lifecycle.Approval

/-!
# Step-up authentication on the approving paths

`requires_step_up` asks for step-up authentication when a high-risk capability is managed,
approved or published, and `evaluate_access` applies it to the capability it is given. The four
calls that approve a capability give it none: they ask about a promotion or a tenant.
`approving_step_approves_iff` says which row a call approves, by conditions none of which reads
the authentication; `step_up_enforced_iff` is what remains of the rule.
-/

namespace Capmesh

open Python Relational Execution

/-- A call that may approve a capability. -/
inductive ApprovingCall where
  | promotion (id : String) (overridePendingGates approvedRiskException : Bool)
  | review (options : ReviewOptions) (identifier : String)
  | batch (request : BatchRequest)
  | catalog (commit : Bool)

/-- The call of `approve_request` with the decision to approve. -/
def Reviewing.approval (p : Platform) (ctx : Reviewing) (principal : Principal) (id : String)
    (overridePendingGates approvedRiskException : Bool) : ApproveCall where
  principal
  requestId := id
  overridePendingGates
  access := evaluateAccess p ctx.accessContext
    { principal, right := "approve", resourceUri := some ("promotion:" ++ id) }
  manage := ctx.access p principal "manage"
  approve := ctx.access p principal "approve"
  runner := lifecycleRunner p ctx.host ctx.db ctx.directory principal
    ((ctx.db.requestAt id).map (·.targetNamespaceId)) approvedRiskException
  directory := ctx.directory

/-- The state after an approving call; a call that raises leaves what it has committed. -/
def approvingStep (p : Platform) (ctx : Reviewing) (principal : Principal) :
    ApprovingCall → Reviewing
  | .promotion id overridePendingGates approvedRiskException =>
      { ctx with db := (approveRequest p ctx.db
        (ctx.approval p principal id overridePendingGates approvedRiskException)).1 }
  | .review options identifier =>
      match lifecycleReview p ctx principal options identifier false with
      | .ok (_, next) => next
      | .error _ => ctx
  | .batch request =>
      match reviewBatch p ctx principal request with
      | .ok (_, next) => next
      | .error _ => ctx
  | .catalog commit =>
      match approveCatalog p ctx principal commit with
      | some (.ok (_, _, last)) => last
      | _ => ctx

/-- The risk tiers that ask for step-up authentication. -/
def Capability.isHighRisk (cap : Capability) : Bool :=
  cap.riskTier = .high || cap.riskTier = .critical

/-- Step-up is enforced on a call: without it, no high-risk capability becomes approved. -/
def StepUpEnforced (p : Platform) (ctx : Reviewing) (principal : Principal)
    (call : ApprovingCall) : Prop :=
  principal.stepUpAuthenticated = false →
    ∀ row ∈ ctx.db.capabilities, row.cap.isHighRisk = true → row.cap.approvalState ≠ .approved →
      ∀ after ∈ (approvingStep p ctx principal call).db.capabilities, after.id = row.id →
        after.cap.approvalState ≠ .approved

/-- An approval that goes through: its request is found, it is allowed and passes its gates, and the
move to the new URI breaks no unique constraint. -/
structure ApproveCall.GoesThrough (p : Platform) (db : Database) (call : ApproveCall)
    (request : PromotionRequest) (uri : String) (storeId : Option String) : Prop where
  found : (db.requests.find? fun request => request.id = call.requestId &&
    request.tenantId = p.tenantOr call.principal.tenantId) = some request
  passes : call.Passes p db request
  address : promotedAddress p db call.directory request = .ok (uri, storeId)
  tuples : uri = request.capabilityUri ∨ (db.tuples.update? fun tuple =>
    if tuple.tenantId = p.tenantOr call.principal.tenantId then
      { tuple with object := renamed request.capabilityUri uri tuple.object }
    else tuple).isSome = true

/-- The row of a capability that a call approves. -/
def ApprovingCall.Approves (p : Platform) (ctx : Reviewing) (principal : Principal)
    (row : CapabilityRow) : ApprovingCall → Prop
  | .promotion id overridePendingGates approvedRiskException => ∃ request uri storeId,
      (ctx.approval p principal id overridePendingGates approvedRiskException).GoesThrough p ctx.db
        request uri storeId ∧ request.capabilityUri = row.cap.uri
  | .review options identifier =>
      ∃ cap, cap.uri = row.cap.uri ∧ ReviewPasses p ctx principal options true identifier cap
  | .batch request => request.dryRun = false ∧ ctx.Authorizes p principal ∧ 1 ≤ request.limit ∧
      request.limit ≤ maxBatch ∧
      ∃ uri ∈ (ctx.db.selectedUris principal.lifecycleTenant request.includeApproved
        request.afterUri).take request.limit.toNat,
      ∃ cap, cap.uri = row.cap.uri ∧ ReviewPasses p ctx principal request.options true uri cap
  | .catalog commit => ctx.Authorizes p principal ∧
      (commit = true → ctx.Approvable p principal) ∧ ∃ uri ∈ ctx.swept p principal,
      ∃ cap, cap.uri = row.cap.uri ∧ ReviewPasses p ctx principal {} true uri cap

section

variable {p : Platform} {db result : Database} {ctx next : Reviewing} {principal : Principal}
variable {row : CapabilityRow} {call : ApproveCall} {request : PromotionRequest}
variable {targets : List String} {uri : String} {storeId : Option String}

/-- Moving a row to a free URI breaks no constraint of `capabilities`. -/
theorem moved_update_is_some {table : Table CapabilityRow} {old new : String}
    (hfree : ∀ row ∈ table, row.cap.uri ≠ new) :
    (table.update? fun row => row.moved (renamed old new row.cap.uri)).isSome = true := by
  unfold Table.update?
  rw [dif_pos]
  · rfl
  · rw [List.pairwise_map]
    refine table.unique.imp_of_mem fun ha hb hab hconflict => hab ?_
    refine hconflict.imp_right (Or.imp_left fun huri => ?_)
    have hnotA := hfree _ ha
    have hnotB := hfree _ hb
    simp only [CapabilityRow.moved, renamed] at huri
    split at huri <;> split at huri
    · rename_i hA hB
      exact hA.trans hB.symm
    · exact absurd huri.symm hnotB
    · exact absurd huri hnotA
    · exact huri

theorem promoted_address_free {directory : Directory}
    (h : promotedAddress p db directory request = .ok (uri, storeId))
    (hmoves : uri ≠ request.capabilityUri) : db.capabilityAt uri = none := by
  unfold promotedAddress at h
  dsimp only at h
  split at h
  · split at h
    · cases h
    · rename_i hfree
      obtain ⟨huri, -⟩ := Prod.mk.inj (Except.ok.inj h)
      rw [huri] at hfree
      simpa [hmoves] using hfree
  · split at h
    · cases h
    · obtain ⟨huri, -⟩ := Prod.mk.inj (Except.ok.inj h)
      exact absurd huri.symm hmoves

/-- A capability moves to a free URI when its tuples can. -/
theorem remint_returns_iff {tenant requestId old new : String}
    (hfree : new ≠ old → ∀ row ∈ db.capabilities, row.cap.uri ≠ new) :
    (∃ result, remint db tenant requestId old new = .ok result) ↔
      new = old ∨ (db.tuples.update? fun tuple =>
        if tuple.tenantId = tenant then { tuple with object := renamed old new tuple.object }
        else tuple).isSome = true := by
  unfold remint
  by_cases hsame : new = old
  · rw [if_pos hsame]
    exact iff_of_true ⟨db, rfl⟩ (.inl hsame)
  · rw [if_neg hsame, or_iff_right hsame]
    obtain ⟨capabilities, hcapabilities⟩ :=
      Option.isSome_iff_exists.mp (@moved_update_is_some db.capabilities old new (hfree hsame))
    rw [hcapabilities]
    generalize (db.tuples.update? _) = moved
    cases moved with
    | none => simp [constrained, bind, Except.bind]
    | some tuples => simp [constrained, bind, Except.bind]

/-- The writes of an approval succeed when its checks do and the tuples can be moved. -/
theorem promote_returns_iff {view : GateView} :
    (∃ result, promote p db call request view = .ok result) ↔
      ∃ gates uri storeId, checkGates p db call request view = .ok gates ∧
        promotedAddress p db call.directory request = .ok (uri, storeId) ∧
        (uri = request.capabilityUri ∨ (db.tuples.update? fun tuple =>
          if tuple.tenantId = p.tenantOr call.principal.tenantId then
            { tuple with object := renamed request.capabilityUri uri tuple.object }
          else tuple).isSome = true) := by
  have hremint : ∀ gates uri storeId,
      promotedAddress p db call.directory request = .ok (uri, storeId) →
      ((∃ result, remint ((db.setRequest request.id
          (fun row => { row with
            gates := if List.isEmpty gates then row.gates else some gates, state := .approved })
          fun _ => rfl).amendCapabilities (·.uri = request.capabilityUri)
            (Capability.approvedInto storeId request.targetNamespaceId)
            fun _ => ⟨rfl, rfl, rfl, rfl⟩)
          (p.tenantOr call.principal.tenantId) request.id request.capabilityUri uri =
            .ok result) ↔
        uri = request.capabilityUri ∨ (db.tuples.update? fun tuple =>
          if tuple.tenantId = p.tenantOr call.principal.tenantId then
            { tuple with object := renamed request.capabilityUri uri tuple.object }
          else tuple).isSome = true) := by
    intro gates uri storeId haddress
    refine remint_returns_iff fun hmoves row hrow => ?_
    obtain ⟨before, hbefore, rfl⟩ := (mem_amend_capabilities row).mp hrow
    have huri : (before.amend (·.uri = request.capabilityUri)
        (Capability.approvedInto storeId request.targetNamespaceId)).cap.uri =
          before.cap.uri := by
      unfold CapabilityRow.amend
      split <;> rfl
    rw [huri]
    exact Database.capability_at_none (promoted_address_free haddress hmoves) hbefore
  constructor
  · rintro ⟨result, h⟩
    unfold promote at h
    obtain ⟨gates, hgates, h⟩ := bind_eq_ok h
    obtain ⟨⟨uri, storeId⟩, haddress, h⟩ := bind_eq_ok h
    exact ⟨gates, uri, storeId, hgates, haddress, (hremint gates uri storeId haddress).mp ⟨_, h⟩⟩
  · rintro ⟨gates, uri, storeId, hgates, haddress, hmoves⟩
    obtain ⟨result, hresult⟩ := (hremint gates uri storeId haddress).mpr hmoves
    refine ⟨result, ?_⟩
    unfold promote
    simp only [hgates, haddress, bind, Except.bind]
    exact hresult

/-- An allowed approval whose gates were read runs its writes on a database with the same rows and
tuples. -/
theorem approve_request_eq {view : GateView} {evaluated : Bool}
    (hdecision : call.decision = some .approve) (hallowed : call.access.allowed = true)
    (hfound : (db.requests.find? fun request => request.id = call.requestId &&
      request.tenantId = p.tenantOr call.principal.tenantId) = some request)
    (hview : approvalView p db call request = .ok (view, evaluated)) :
    ∃ stored : Database, stored.capabilities = db.capabilities ∧ stored.tuples = db.tuples ∧
      (∀ result, promote p stored call request view = .ok result →
        (approveRequest p db call).1 = result) ∧
      ∀ failure, promote p stored call request view = .error failure →
        (approveRequest p db call).1 = stored := by
  refine ⟨if evaluated then
    db.setRequest request.id (fun row => { row with gates := some view.gates }) fun _ => rfl
    else db, ?_, ?_, ?_, ?_⟩
  · split <;> rfl
  · split <;> rfl
  · intro result hpromote
    unfold approveRequest
    rw [hdecision]
    simp only [hallowed, hfound, hview, Bool.not_true, Bool.false_eq_true, if_false, if_true,
      hpromote]
  · intro failure hpromote
    unfold approveRequest
    rw [hdecision]
    simp only [hallowed, hfound, hview, Bool.not_true, Bool.false_eq_true, if_false, if_true,
      hpromote]

theorem ApproveCall.GoesThrough.rows (hdecision : call.decision = some .approve)
    (h : call.GoesThrough p db request uri storeId) (x : CapabilityRow) :
    x ∈ (approveRequest p db call).1.capabilities ↔
      ∃ y ∈ db.capabilities, y.promoted request uri storeId = x := by
  obtain ⟨hallowed, view, evaluated, gates, hview, hgates⟩ := h.passes
  obtain ⟨stored, hcapabilities, htuples, hrequest, -⟩ :=
    approve_request_eq hdecision hallowed h.found hview
  have haddress : promotedAddress p stored call.directory request = .ok (uri, storeId) := by
    rw [promoted_address_congr hcapabilities]
    exact h.address
  obtain ⟨result, hpromote⟩ := promote_returns_iff.mpr ⟨gates, uri, storeId,
    by rw [check_gates_congr hcapabilities]; exact hgates, haddress, by
      rw [htuples]
      exact h.tuples⟩
  obtain ⟨-, uri', storeId', -, haddress', -, hrows⟩ := promote_ok hpromote
  rw [haddress] at haddress'
  cases haddress'
  rw [hrequest result hpromote, hrows, hcapabilities]

/-- An approval that does not go through changes no row. -/
theorem approve_request_stopped (hdecision : call.decision = some .approve)
    (h : ∀ request uri storeId, ¬ call.GoesThrough p db request uri storeId) :
    (approveRequest p db call).1.capabilities = db.capabilities := by
  by_cases hallowed : call.access.allowed = true
  · cases hfound : db.requests.find? fun request => request.id = call.requestId &&
        request.tenantId = p.tenantOr call.principal.tenantId with
    | none =>
        unfold approveRequest
        rw [hdecision]
        simp only [hallowed, hfound, Bool.not_true, Bool.false_eq_true, if_false]
    | some request =>
        cases hview : approvalView p db call request with
        | error failure =>
            unfold approveRequest
            rw [hdecision]
            simp only [hallowed, hfound, hview, Bool.not_true, Bool.false_eq_true, if_false,
              if_true]
        | ok viewed =>
            obtain ⟨view, evaluated⟩ := viewed
            obtain ⟨stored, hcapabilities, htuples, -, hfails⟩ :=
              approve_request_eq hdecision hallowed hfound hview
            cases hpromote : promote p stored call request view with
            | error failure => rw [hfails failure hpromote, hcapabilities]
            | ok result =>
                obtain ⟨gates, uri, storeId, hgates, haddress, hmoves⟩ :=
                  promote_returns_iff.mp ⟨result, hpromote⟩
                rw [check_gates_congr hcapabilities] at hgates
                rw [promoted_address_congr hcapabilities] at haddress
                rw [htuples] at hmoves
                exact absurd ⟨hfound, ⟨hallowed, view, evaluated, gates, hview, hgates⟩, haddress,
                  hmoves⟩ (h request uri storeId)
  · unfold approveRequest
    rw [hdecision]
    simp only [hallowed, Bool.not_false, if_true]

theorem reviewed_from_approved_iff (h : ReviewedFrom p ctx next targets)
    (hrow : row ∈ ctx.db.capabilities) (hstate : row.cap.approvalState ≠ .approved) :
    (∃ after ∈ next.db.capabilities, after.id = row.id ∧ after.cap.approvalState = .approved) ↔
      row.cap.uri ∈ targets := by
  have hmem : row.reviewedIn targets ∈ next.db.capabilities := by
    rw [← Table.mem_rows, h.rows]
    exact List.mem_map_of_mem hrow
  constructor
  · rintro ⟨after, hafter, hid, happroved⟩
    obtain rfl := Database.eq_of_id hafter hmem hid
    by_contra htarget
    refine hstate ?_
    simpa [CapabilityRow.reviewedIn, Capability.reviewedIn, htarget] using happroved
  · intro htarget
    refine ⟨_, hmem, rfl, ?_⟩
    simp [CapabilityRow.reviewedIn, Capability.reviewedIn, htarget, Capability.reviewed]

theorem not_approved_of_same (hsame : result.capabilities = db.capabilities)
    (hrow : row ∈ db.capabilities) (hstate : row.cap.approvalState ≠ .approved) :
    ¬ ∃ after ∈ result.capabilities, after.id = row.id ∧ after.cap.approvalState = .approved := by
  rintro ⟨after, hafter, hid, happroved⟩
  rw [hsame] at hafter
  rw [Database.eq_of_id hafter hrow hid] at happroved
  exact hstate happroved

theorem approval_approves_iff (hdecision : call.decision = some .approve)
    (hrow : row ∈ db.capabilities) (hstate : row.cap.approvalState ≠ .approved) :
    (∃ after ∈ (approveRequest p db call).1.capabilities,
        after.id = row.id ∧ after.cap.approvalState = .approved) ↔
      ∃ request uri storeId, call.GoesThrough p db request uri storeId ∧
        request.capabilityUri = row.cap.uri := by
  by_cases hthrough : ∃ request uri storeId, call.GoesThrough p db request uri storeId
  · obtain ⟨request, uri, storeId, hthrough⟩ := hthrough
    constructor
    · rintro ⟨after, hafter, hid, happroved⟩
      refine ⟨request, uri, storeId, hthrough, ?_⟩
      obtain ⟨before, hbefore, rfl⟩ := (hthrough.rows hdecision after).mp hafter
      have hsame : before.id = row.id := by
        rw [← hid]
        unfold CapabilityRow.promoted
        split <;> rfl
      obtain rfl := Database.eq_of_id hbefore hrow hsame
      by_contra hother
      refine hstate ?_
      rwa [CapabilityRow.promoted, if_neg (Ne.symm hother)] at happroved
    · rintro ⟨other, uri', storeId', hother, huri⟩
      refine ⟨_, (hother.rows hdecision _).mpr ⟨row, hrow, rfl⟩, ?_, ?_⟩
      · unfold CapabilityRow.promoted
        split <;> rfl
      · rw [CapabilityRow.promoted, if_pos huri.symm]
        rfl
  · have hsame := approve_request_stopped hdecision fun request uri storeId h =>
      hthrough ⟨request, uri, storeId, h⟩
    refine iff_of_false (not_approved_of_same hsame hrow hstate) ?_
    rintro ⟨request, uri, storeId, h, -⟩
    exact hthrough ⟨request, uri, storeId, h⟩

theorem review_batch_refused {request : BatchRequest}
    (h : ¬ (ctx.Authorizes p principal ∧ 1 ≤ request.limit ∧ request.limit ≤ maxBatch)) :
    ∃ failure, reviewBatch p ctx principal request = .error failure := by
  unfold reviewBatch
  cases hauthorize : authorize p ctx principal with
  | error failure => exact ⟨failure, rfl⟩
  | ok granted =>
      have hlimit : (request.limit < 1 || (maxBatch : Int) < request.limit) = true := by
        have hauthorized := authorize_eq_ok_iff.mp hauthorize
        simp only [Bool.or_eq_true, decide_eq_true_eq]
        by_contra hlimit
        exact h ⟨hauthorized, by omega, by omega⟩
      simp only [bind, Except.bind, if_pos hlimit]
      exact ⟨_, rfl⟩

theorem review_approves_iff {options : ReviewOptions} {identifier : String}
    (hrow : row ∈ ctx.db.capabilities) (hstate : row.cap.approvalState ≠ .approved) :
    (∃ after ∈ (approvingStep p ctx principal (.review options identifier)).db.capabilities,
        after.id = row.id ∧ after.cap.approvalState = .approved) ↔
      (ApprovingCall.review options identifier).Approves p ctx principal row := by
  show _ ↔ ∃ cap, cap.uri = row.cap.uri ∧ ReviewPasses p ctx principal options true identifier cap
  rw [← approves_with_eq_some_iff]
  cases hreview : lifecycleReview p ctx principal options identifier false with
  | error failure =>
      simp only [approvingStep, Reviewing.approvesWith, hreview]
      exact iff_of_false (not_approved_of_same rfl hrow hstate) (by simp)
  | ok result =>
      obtain ⟨review, next⟩ := result
      simp only [approvingStep, Reviewing.approvesWith, hreview]
      rw [reviewed_from_approved_iff (lifecycle_review_step (.refl ctx) hreview) hrow hstate]
      cases hpassed : review.passed with
      | false => simp
      | true => simp [eq_comm]

/-- A batch approves the rows that the passed reviews of its page are about. -/
theorem batch_approves_iff {request : BatchRequest} (hrow : row ∈ ctx.db.capabilities)
    (hstate : row.cap.approvalState ≠ .approved) :
    (∃ after ∈ (approvingStep p ctx principal (.batch request)).db.capabilities,
        after.id = row.id ∧ after.cap.approvalState = .approved) ↔
      (ApprovingCall.batch request).Approves p ctx principal row := by
  by_cases haccepted : ctx.Authorizes p principal ∧ 1 ≤ request.limit ∧ request.limit ≤ maxBatch
  · obtain ⟨hauthorized, hlow, hhigh⟩ := haccepted
    have hbatch := review_batch_eq hauthorized hlow hhigh rfl
    unfold approvingStep ApprovingCall.Approves
    simp only [hbatch]
    cases hdry : request.dryRun with
    | true =>
        rw [review_items_dry]
        exact iff_of_false (not_approved_of_same rfl hrow hstate) (by simp)
    | false =>
        obtain ⟨-, -, hnext⟩ := review_items_spec principal request.options
          ((ctx.db.selectedUris principal.lifecycleTenant request.includeApproved
            request.afterUri).take request.limit.toNat) (.refl (p := p) ctx)
        rw [reviewed_from_approved_iff hnext hrow hstate, List.nil_append, List.mem_filterMap]
        simp only [approves_with_eq_some_iff]
        exact ⟨fun h => ⟨trivial, hauthorized, hlow, hhigh, h⟩, fun h => h.2.2.2.2⟩
  · obtain ⟨failure, hrefused⟩ := review_batch_refused haccepted
    unfold approvingStep
    simp only [hrefused]
    refine iff_of_false (not_approved_of_same rfl hrow hstate) ?_
    rintro ⟨-, hauthorized, hlow, hhigh, -⟩
    exact haccepted ⟨hauthorized, hlow, hhigh⟩

theorem catalog_approves_iff {commit : Bool} (hrow : row ∈ ctx.db.capabilities)
    (hstate : row.cap.approvalState ≠ .approved) :
    (∃ after ∈ (approvingStep p ctx principal (.catalog commit)).db.capabilities,
        after.id = row.id ∧ after.cap.approvalState = .approved) ↔
      (ApprovingCall.catalog commit).Approves p ctx principal row := by
  by_cases hauthorized : ctx.Authorizes p principal
  · obtain ⟨report, items, next, hspec, -, -, hnext, happroved⟩ :=
      approve_catalog_spec commit hauthorized
    unfold approvingStep ApprovingCall.Approves
    simp only [hspec, ← approves_eq_some_iff]
    by_cases hkept : (commit && !report.catalogApproved) = true
    · rw [if_pos hkept]
      refine iff_of_false (not_approved_of_same rfl hrow hstate) ?_
      rintro ⟨-, happrovable, -⟩
      obtain ⟨hcommit, hreport⟩ := Bool.and_eq_true_iff.mp hkept
      rw [happroved.mpr (happrovable hcommit)] at hreport
      cases hreport
    · rw [if_neg hkept, reviewed_from_approved_iff hnext hrow hstate, List.mem_filterMap]
      refine ⟨fun h => ⟨hauthorized, fun hcommit => happroved.mp ?_, h⟩, fun h => h.2.2⟩
      simpa [hcommit] using hkept
  · obtain ⟨failure, hrefused⟩ := @approve_catalog_refused _ _ _ commit hauthorized
    unfold approvingStep
    simp only [hrefused]
    refine iff_of_false (not_approved_of_same rfl hrow hstate) ?_
    rintro ⟨hauthorized', -⟩
    exact hauthorized hauthorized'

theorem approving_step_approves_iff (call : ApprovingCall) (hrow : row ∈ ctx.db.capabilities)
    (hstate : row.cap.approvalState ≠ .approved) :
    (∃ after ∈ (approvingStep p ctx principal call).db.capabilities,
        after.id = row.id ∧ after.cap.approvalState = .approved) ↔
      call.Approves p ctx principal row := by
  cases call with
  | promotion id overridePendingGates approvedRiskException =>
      exact approval_approves_iff rfl hrow hstate
  | review options identifier => exact review_approves_iff hrow hstate
  | batch request => exact batch_approves_iff hrow hstate
  | catalog commit => exact catalog_approves_iff hrow hstate

end

/-- Step-up is enforced on a call exactly when the call, with all its other checks, approves no
high-risk capability. -/
theorem step_up_enforced_iff (p : Platform) (ctx : Reviewing) (principal : Principal)
    (call : ApprovingCall) :
    StepUpEnforced p ctx principal call ↔
      (principal.stepUpAuthenticated = false → ∀ row ∈ ctx.db.capabilities,
        row.cap.isHighRisk = true → row.cap.approvalState ≠ .approved →
          ¬ call.Approves p ctx principal row) := by
  unfold StepUpEnforced
  refine forall_congr' fun _ => forall_congr' fun row => forall_congr' fun hrow =>
    forall_congr' fun _ => forall_congr' fun hstate => ?_
  rw [← approving_step_approves_iff call hrow hstate]
  simp only [not_exists, not_and]

/-- The notes skill with the content of its file and a high risk tier. -/
def riskyNotes : Reviewing where
  db := ((upsertCapability notesPlatform .empty
    { notesSkill ("sha256:" ++ notesSource.2) with riskTier := .high }).toOption.map (·.2)).getD
    .empty
  host := notesHost
  directory := teamDirectory
  orgCache _ _ := none
  reviewIds uri := "crv_" ++ uri

/-- Whether a call approves a high-risk capability that was not approved. -/
def raisesRisk (p : Platform) (ctx : Reviewing) (principal : Principal) (call : ApprovingCall) :
    Bool :=
  ctx.db.capabilities.rows.any fun row =>
    row.cap.isHighRisk && row.cap.approvalState ≠ .approved &&
      (approvingStep p ctx principal call).db.capabilities.rows.any fun after =>
        after.id = row.id && after.cap.approvalState = .approved

theorem not_enforced_of_raises {p : Platform} {ctx : Reviewing} {principal : Principal}
    {call : ApprovingCall} (hprincipal : principal.stepUpAuthenticated = false)
    (h : raisesRisk p ctx principal call = true) : ¬ StepUpEnforced p ctx principal call := by
  intro henforced
  obtain ⟨row, hrow, hraises⟩ := List.any_eq_true.mp h
  simp only [Bool.and_eq_true, List.any_eq_true, decide_eq_true_eq] at hraises
  obtain ⟨⟨hrisk, hstate⟩, after, hafter, hid, happroved⟩ := hraises
  exact henforced hprincipal row hrow hrisk hstate after hafter hid happroved

theorem raises_risk_review (p : Platform) (ctx : Reviewing) (principal : Principal)
    (options : ReviewOptions) (identifier : String) :
    raisesRisk p ctx principal (.review options identifier) =
      ctx.db.capabilities.rows.any fun row =>
        row.cap.isHighRisk && row.cap.approvalState ≠ .approved &&
          (match quickReview p ctx principal options identifier false with
            | .ok (_, next) => next
            | .error _ => ctx : Reviewing).db.capabilities.rows.any fun after =>
              after.id = row.id && after.cap.approvalState = .approved := by
  rw [← lifecycle_review_quick]
  rfl

/-- An administrator without step-up approves a high-risk skill by reviewing it. -/
theorem step_up_enforced_counterexample :
    ¬ ∀ (p : Platform) (ctx : Reviewing) (principal : Principal) (call : ApprovingCall),
      StepUpEnforced p ctx principal call := by
  intro hclaim
  have hraises : raisesRisk notesPlatform riskyNotes platformAdmin (.review {} "notes") = true := by
    rw [raises_risk_review]
    decide +kernel
  exact not_enforced_of_raises rfl hraises (hclaim _ _ _ _)

end Capmesh
