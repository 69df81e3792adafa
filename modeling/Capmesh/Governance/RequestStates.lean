import Capmesh.Access.Monotone
import Capmesh.Execution.Run
import Capmesh.Governance.Promotion

/-!
# The states of a promotion request

A request is submitted as pending, its gates are run (`run_promotion_gates`, `lifecycle.py`)
while it is pending, and `approve_request` decides it. Only the gate run looks at the
state of the request: a decision is taken in every state, so a request that was rejected,
recalled, demoted or yanked can still be approved. `request_pending_once` is the state
machine without such approvals.
-/

namespace Capmesh

open Python Relational Execution

/-- The arguments of `run_promotion_gates`, the decisions it asks for, and the gate runner. -/
structure GatesCall where
  principal : Principal
  requestId : String
  manage : Access
  approve : Access
  runner : GateRunner

/-- The columns a passed gate run sets. -/
def Capability.gatesPassed (cap : Capability) : Capability :=
  { cap with
    signatureStatus := .verified, provenanceStatus := .verified, riskReviewStatus := .approved }

/-- `run_promotion_gates` up to the gates: the request, its capability and the gate states. -/
def promotionGates (p : Platform) (db : Database) (call : GatesCall) :
    Except Failure (PromotionRequest × Capability × Gates) :=
  if !call.manage.allowed then
    .error (.permission (orElse call.manage.reason "manage right required."))
  else if !call.approve.allowed then
    .error (.permission (orElse call.approve.reason "approve right required."))
  else if p.stripSpace call.requestId = "" then .error (.value "requestId is required.")
  else match db.requests.find? fun request => request.id = p.stripSpace call.requestId &&
      request.tenantId = orElse call.principal.tenantId "asg" with
    | none => .error (.value "Promotion request not found.")
    | some request =>
        if request.state ≠ .pending then
          .error (.value "Only pending promotion requests can run gates.")
        else match getCapability db request.capabilityUri with
          | none => .error (.value "Promotion source capability not found.")
          | some cap => do
              let gates ← call.runner.evaluate cap
              .ok (request, cap, gates)

/-- `run_promotion_gates`. -/
def runPromotionGates (p : Platform) (db : Database) (call : GatesCall) :
    Except Failure Database := do
  let (request, cap, gates) ← promotionGates p db call
  let recorded := db.setRequest request.id
    (fun row => { row with gates := some gates }) fun _ => rfl
  if allPassed gates then
    .ok (recorded.amendCapabilities
      (fun row => row.uri = cap.uri && row.contentHash = cap.contentHash)
      Capability.gatesPassed fun _ => ⟨rfl, rfl, rfl, rfl⟩)
  else .ok recorded

/-- The calls of the promotion workflow. -/
inductive PromotionAction where
  | submit (call : SubmitCall)
  | runGates (call : GatesCall)
  | decide (call : ApproveCall)

/-- One call of the workflow; a failed submission or gate run changes nothing. -/
def promotionStep (p : Platform) (db : Database) : PromotionAction → Database
  | .submit call => (submitPromotion p db call).toOption.getD db
  | .runGates call => (runPromotionGates p db call).toOption.getD db
  | .decide call => (approveRequest p db call).1

/-- The request with an id. -/
def Database.requestAt (db : Database) (id : String) : Option PromotionRequest :=
  db.requests.find? (·.id = id)

/-- The state of a request. -/
def Database.requestState (db : Database) (id : String) : Option RequestState :=
  (db.requestAt id).map (·.state)

/-- The states that close a request without a promotion. -/
def RequestState.isClosed : RequestState → Bool
  | .rejected | .recalled | .demoted | .yanked => true
  | .pending | .approved => false

/-- The state machine of one request over a run: it leaves `pending` at most once, and after it was
closed it is never approved and promotes nothing. -/
structure PendingOnce (p : Platform) (start : Database) (actions : List PromotionAction)
    (id : String) : Prop where
  once : ∀ first second, actions = first ++ second →
    ∀ state, (run (promotionStep p) start first).requestState id = some state →
    state ≠ .pending → (run (promotionStep p) start actions).requestState id ≠ some .pending
  closed : ∀ first second, actions = first ++ second →
    ∀ state, (run (promotionStep p) start first).requestState id = some state →
    state.isClosed = true →
    (run (promotionStep p) start actions).requestState id ≠ some .approved
  unpromoted : ∀ first second call third,
    actions = first ++ second ++ .decide call :: third →
    ∀ state, (run (promotionStep p) start first).requestState id = some state →
    state.isClosed = true → call.requestId = id → call.decision = some .approve →
    (approveRequest p (run (promotionStep p) start (first ++ second)) call).2 ≠ .ok ()

/-- An approval that finds its request pending or approved. -/
def FindsOpen (db : Database) : PromotionAction → Prop
  | .submit _ => True
  | .runGates _ => True
  | .decide call => call.decision = some .approve →
      ∀ state, db.requestState call.requestId = some state → state.isClosed = false

section

variable {p : Platform} {db result : Database} {id : String} {requestId : String}
variable {change : PromotionRequest → PromotionRequest} {hchange : ∀ r, (change r).id = r.id}
variable {state : RequestState}

theorem request_at_set_request :
    (db.setRequest requestId change hchange).requestAt id =
      (db.requestAt id).map fun r => if r.id = requestId then change r else r := by
  have hid : ((fun r : PromotionRequest => decide (r.id = id)) ∘
      fun r => if r.id = requestId then change r else r) = fun r => decide (r.id = id) := by
    funext r
    simp only [Function.comp_apply]
    split
    · rw [hchange]
    · rfl
  simp only [Database.requestAt, Database.setRequest, Table.find?, Table.rows_map, List.find?_map,
    hid]

theorem request_at_some {request : PromotionRequest} (h : db.requestAt id = some request) :
    request ∈ db.requests ∧ request.id = id := by
  obtain ⟨hmem, hid⟩ := Table.find?_some h
  exact ⟨hmem, by simpa using hid⟩

@[simp] theorem request_state_amend {selects : Capability → Bool}
    {change : Capability → Capability} {hchange : KeepsIdentity change} :
    (db.amendCapabilities selects change hchange).requestState id = db.requestState id := rfl

theorem request_state_set_request (hstate : ∀ r, (change r).state = r.state) :
    (db.setRequest requestId change hchange).requestState id = db.requestState id := by
  simp only [Database.requestState, request_at_set_request, Option.map_map]
  congr 1
  funext r
  simp only [Function.comp_apply]
  split
  · exact hstate r
  · rfl

theorem request_state_decided (hstate : ∀ r, (change r).state = state) :
    (db.setRequest requestId change hchange).requestState id =
      if id = requestId then (db.requestState id).map fun _ => state else db.requestState id := by
  cases hrequest : db.requestAt id with
  | none => simp [Database.requestState, request_at_set_request, hrequest]
  | some request =>
      have hid : request.id = id := (request_at_some hrequest).2
      simp only [Database.requestState, request_at_set_request, hrequest, Option.map_some, hid]
      split
      · rw [hstate]
      · rfl

theorem request_state_remint {tenant old new : String}
    (h : remint db tenant requestId old new = .ok result) :
    result.requestState id = db.requestState id := by
  unfold remint at h
  split at h
  · cases h
    rfl
  · obtain ⟨capabilities, -, h⟩ := bind_eq_ok h
    obtain ⟨tuples, -, h⟩ := bind_eq_ok h
    cases h
    exact request_state_set_request fun _ => rfl

theorem request_state_promote {call : ApproveCall} {request : PromotionRequest} {view : GateView}
    (h : promote p db call request view = .ok result) :
    result.requestState id =
      if id = request.id then (db.requestState id).map fun _ => .approved
      else db.requestState id := by
  unfold promote at h
  obtain ⟨gates, -, h⟩ := bind_eq_ok h
  obtain ⟨⟨uri, storeId⟩, -, h⟩ := bind_eq_ok h
  rw [request_state_remint h]
  exact request_state_amend.trans (request_state_decided fun _ => rfl)

/-- What `approve_request` does to a state: nothing, or its own request takes the state of the
decision. -/
theorem request_state_approve (call : ApproveCall) :
    (approveRequest p db call).1.requestState id = db.requestState id ∨
      (approveRequest p db call).2 = .ok () ∧ id = call.requestId ∧ ∃ decision,
        call.decision = some decision ∧
        (approveRequest p db call).1.requestState id =
          (db.requestState id).map fun _ => decision.requestState := by
  unfold approveRequest
  split
  · exact .inl rfl
  rename_i decision hdecision
  split
  · exact .inl rfl
  split
  · exact .inl rfl
  rename_i request hfind
  have hid : request.id = call.requestId := by
    have hkey := (Table.find?_some hfind).2
    simp only [Bool.and_eq_true, decide_eq_true_eq] at hkey
    exact hkey.1
  split
  · rename_i happrove
    split
    · exact .inl rfl
    · rename_i view evaluated _
      -- Storing the gates the runner found changes no state.
      have hstored : (if evaluated then db.setRequest request.id
          (fun row => { row with gates := some view.gates }) fun _ => rfl else db).requestState id =
          db.requestState id := by
        split
        · exact request_state_set_request fun _ => rfl
        · rfl
      dsimp only
      split
      · exact .inl hstored
      · rename_i promoted hpromote
        rw [request_state_promote hpromote, hstored]
        split
        · rename_i hown
          exact .inr ⟨rfl, hown.trans hid, decision, hdecision, by rw [happrove]; rfl⟩
        · exact .inl rfl
  · -- The change of the capability row touches no request.
    have hdecided : (db.setRequest request.id
        (fun row => { row with state := decision.requestState }) fun _ => rfl).requestState id =
        if id = request.id then (db.requestState id).map fun _ => decision.requestState
        else db.requestState id := request_state_decided fun _ => rfl
    by_cases hown : id = request.id
    · rw [if_pos hown] at hdecided
      exact .inr ⟨rfl, hown.trans hid, decision, hdecision, hdecided⟩
    · rw [if_neg hown] at hdecided
      exact .inl hdecided

/-- A submission adds a pending request under an id of its own. -/
theorem request_state_submit {call : SubmitCall} (h : submitPromotion p db call = .ok result)
    (hstate : db.requestState id = some state) : result.requestState id = some state := by
  unfold submitPromotion at h
  dsimp only at h
  split at h
  · cases h
  split at h
  · cases h
  split at h
  · cases h
  split at h
  · cases h
  obtain ⟨-, -, h⟩ := bind_eq_ok h
  obtain ⟨requests, hrequests, h⟩ := bind_eq_ok h
  cases h
  obtain ⟨request, hrequest, hrequestState⟩ := Option.map_eq_some_iff.mp hstate
  have hkept : requests.find? (·.id = id) = some request := by
    simp only [Table.find?, Table.rows_insert? (constrained_ok hrequests), List.find?_append]
    rw [show db.requests.rows.find? (fun r => decide (r.id = id)) = some request from hrequest]
    rfl
  show (requests.find? (·.id = id)).map (·.state) = some state
  rw [hkept, Option.map_some, hrequestState]

theorem request_state_run_gates {call : GatesCall} (h : runPromotionGates p db call = .ok result) :
    result.requestState id = db.requestState id := by
  obtain ⟨⟨request, cap, gates⟩, -, h⟩ := bind_eq_ok h
  dsimp only at h
  split at h <;> cases h
  · exact request_state_amend.trans (request_state_set_request fun _ => rfl)
  · exact request_state_set_request fun _ => rfl

theorem promotion_step_state (p : Platform) (action : PromotionAction)
    (h : db.requestState id = some state) :
    (promotionStep p db action).requestState id = some state ∨
      ∃ call decision, action = .decide call ∧ id = call.requestId ∧
        call.decision = some decision ∧
        (promotionStep p db action).requestState id = some decision.requestState := by
  cases action with
  | submit call =>
      left
      cases hcall : submitPromotion p db call with
      | error failure => simpa [promotionStep, hcall, Except.toOption] using h
      | ok result =>
          simpa [promotionStep, hcall, Except.toOption] using request_state_submit hcall h
  | runGates call =>
      left
      cases hcall : runPromotionGates p db call with
      | error failure => simpa [promotionStep, hcall, Except.toOption] using h
      | ok result =>
          have hkept : result.requestState id = some state :=
            (request_state_run_gates hcall).trans h
          simpa [promotionStep, hcall, Except.toOption] using hkept
  | decide call =>
      rcases request_state_approve call with hkept | ⟨-, hown, decision, hdecision, hdecided⟩
      · exact .inl (hkept.trans h)
      · rw [h] at hdecided
        exact .inr ⟨call, decision, rfl, hown, hdecision, hdecided⟩

/-- A request that left `pending` does not come back to it. -/
theorem decided_step {action : PromotionAction}
    (h : ∃ state, db.requestState id = some state ∧ state ≠ .pending) :
    ∃ state, (promotionStep p db action).requestState id = some state ∧ state ≠ .pending := by
  obtain ⟨state, hstate, hdecided⟩ := h
  rcases promotion_step_state p action hstate with hkept | ⟨call, decision, -, -, -, hdecision⟩
  · exact ⟨state, hkept, hdecided⟩
  · exact ⟨_, hdecision, by cases decision <;> simp [PromotionDecision.requestState]⟩

theorem closed_step {action : PromotionAction} (hopen : FindsOpen db action)
    (h : ∃ state, db.requestState id = some state ∧ state.isClosed = true) :
    ∃ state, (promotionStep p db action).requestState id = some state ∧ state.isClosed = true := by
  obtain ⟨state, hstate, hclosed⟩ := h
  rcases promotion_step_state p action hstate with hkept | ⟨call, decision, rfl, rfl, hdecision, hdecided⟩
  · exact ⟨state, hkept, hclosed⟩
  · refine ⟨_, hdecided, ?_⟩
    cases decision
    case approve =>
      rw [hopen hdecision state hstate] at hclosed
      cases hclosed
    all_goals rfl

end

/-- In every run whose approvals find their requests pending or approved, every request leaves
`pending` at most once, and a closed request is never approved and promotes nothing. -/
theorem request_pending_once {p : Platform} {start : Database} {actions : List PromotionAction}
    (hopen : Along (promotionStep p) FindsOpen start actions) (id : String) :
    PendingOnce p start actions id where
  once first second hsplit state hstate hdecided hpending := by
    have hstays : ∃ state, (run (promotionStep p) start actions).requestState id = some state ∧
        state ≠ .pending := by
      rw [hsplit, run_append]
      exact run_invariant (I := fun db : Database => ∃ state, db.requestState id = some state ∧
        state ≠ .pending) (fun _ _ => decided_step) second ⟨state, hstate, hdecided⟩
    obtain ⟨final, hfinal, hne⟩ := hstays
    rw [hpending] at hfinal
    exact hne (Option.some.inj hfinal).symm
  closed first second hsplit state hstate hclosed happroved := by
    have hstays : ∃ state, (run (promotionStep p) start actions).requestState id = some state ∧
        state.isClosed = true := by
      rw [hsplit, along_append] at hopen
      rw [hsplit, run_append]
      exact run_invariant_along (fun _ _ => closed_step) hopen.2 ⟨state, hstate, hclosed⟩
    obtain ⟨final, hfinal, hfinalClosed⟩ := hstays
    rw [happroved] at hfinal
    cases hfinal
    cases hfinalClosed
  unpromoted first second call third hsplit state hstate hclosed hid hdecision := by
    rw [hsplit, along_append, along_append] at hopen
    obtain ⟨⟨-, hsecond⟩, hcall, -⟩ := hopen
    obtain ⟨later, hlater, hstill⟩ :=
      run_invariant_along (fun _ _ => closed_step) hsecond ⟨state, hstate, hclosed⟩
    rw [← run_append, ← hid] at hlater
    rw [hcall hdecision later hlater] at hstill
    cases hstill

theorem notes_row : [(⟨1, notesSkill "sha256:v1"⟩ : CapabilityRow)].Pairwise
    fun a b => ¬ Relational.Constrained.Conflict a b :=
  List.pairwise_singleton _ _

/-- A catalog with the notes skill. -/
def notesCatalog : Database :=
  { Database.empty with capabilities := ⟨[⟨1, notesSkill "sha256:v1"⟩], notes_row⟩ }

/-- A team namespace that the skill may be promoted into. -/
def teamDirectory : Directory where
  stores := [{ id := "store_team", tenantId := "asg", kind := .org, disabled := false }]
  namespaces := [⟨"ns_team", "asg", "store_team", "cap://org/asg/team", true⟩]
  organizations := [{ tenantId := "asg", storeId := "store_team", active := true }]

/-- The submission of the skill to the team. -/
def submitNotes : SubmitCall :=
  { principal := { subject := "capmesh", tenantId := "asg" }
    capabilityUri := (notesSkill "sha256:v1").uri, targetNamespaceId := "ns_team"
    access := ⟨true, ""⟩, directory := teamDirectory, requestId := "prm_1" }

/-- A decision on it by an administrator, with a runner that passes every gate. -/
def decideNotes (decision : PromotionDecision) : ApproveCall :=
  { principal := platformAdmin, requestId := "prm_1", decision := some decision
    access := ⟨true, ""⟩, manage := ⟨true, ""⟩, approve := ⟨true, ""⟩
    runner := ⟨fun _ => .ok (gateNames.map (·, .passed)), fun _ _ => (.passed, "")⟩
    directory := teamDirectory }

/-- A rejected request is approved. -/
theorem rejected_request_approved_counterexample :
    ¬ ∀ (p : Platform) (start : Database) (actions : List PromotionAction) (id : String),
      PendingOnce p start actions id := by
  intro hclaim
  have hrejected : (run (promotionStep .sample) notesCatalog
      [.submit submitNotes, .decide (decideNotes .reject)]).requestState "prm_1" =
      some .rejected := by decide +kernel
  have happroved : (run (promotionStep .sample) notesCatalog
      [.submit submitNotes, .decide (decideNotes .reject), .decide (decideNotes .approve)]
      ).requestState "prm_1" = some .approved := by decide +kernel
  exact (hclaim .sample notesCatalog _ "prm_1").closed
    [.submit submitNotes, .decide (decideNotes .reject)] [.decide (decideNotes .approve)] rfl
    .rejected hrejected rfl happroved

/-- A request that is approved and then recalled. -/
theorem request_pending_once_recalled : PendingOnce .sample notesCatalog
    [.submit submitNotes, .decide (decideNotes .approve), .decide (decideNotes .recall)]
    "prm_1" := by
  have hpending : (promotionStep .sample notesCatalog (.submit submitNotes)).requestState
      "prm_1" = some .pending := by decide +kernel
  have hopen : Along (promotionStep .sample) FindsOpen notesCatalog
      [.submit submitNotes, .decide (decideNotes .approve), .decide (decideNotes .recall)] := by
    refine ⟨trivial, fun _ state hstate => ?_, fun hrecall => ?_, trivial⟩
    · cases hpending.symm.trans hstate
      rfl
    · cases hrecall
  exact request_pending_once hopen "prm_1"

end Capmesh
