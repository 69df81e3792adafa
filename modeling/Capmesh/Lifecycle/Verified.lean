import Capmesh.Discovery.Attribution
import Capmesh.Governance.Trust
import Capmesh.Lifecycle.Review

/-!
# What a verified status says

`signature_status` and `provenance_status` become `verified` in two places, a passed review and
a passed gate run, and both set the two columns together. `_all_passed` demands a passed
signature gate but takes a skipped provenance gate, so that a capability whose metadata says
that its commit is unknown is written down as one with verified provenance.
`verified_step_rewrites` is what one call does to the two columns, `verified_earned` the
history of a run.
-/

namespace Capmesh

open Python Relational Execution

/-- The two columns that a gate answers for. -/
inductive CheckedColumn where
  | signature | provenance
  deriving DecidableEq, Repr

/-- The gate of a column. -/
def CheckedColumn.gate : CheckedColumn → GateName
  | .signature => .signature
  | .provenance => .provenance

/-- The status a capability has in a column. -/
def CheckedColumn.status : CheckedColumn → Capability → CheckStatus
  | .signature, cap => cap.signatureStatus
  | .provenance, cap => cap.provenanceStatus

/-- A capability that no gate was asked about. -/
def Capability.Unchecked (cap : Capability) : Prop :=
  ∀ column : CheckedColumn, column.status cap = .unchecked

/-- The lifecycle on the database and the keys of a host. -/
def Reviewing.onHost (ctx : Reviewing) (crypto : Crypto) (host : Host) : Reviewing :=
  { ctx with db := host.db, host := { ctx.host with keys := host.keys, crypto } }

/-- The call of `run_promotion_gates` for a request: its gates are those of a review for the
namespace the request names. -/
def Reviewing.gatesCall (p : Platform) (ctx : Reviewing) (principal : Principal)
    (requestId : String) (approvedRiskException : Bool) : GatesCall where
  principal
  requestId
  manage := ctx.access p principal "manage"
  approve := ctx.access p principal "approve"
  runner := ctx.runner p principal
    { targetNamespaceId :=
        (ctx.db.requestAt (p.stripSpace requestId)).map (·.targetNamespaceId)
      approvedRiskException } true

/-- One call of a writer of the two columns. A review and a gate run bring the files, the clock and
the directory they find. -/
inductive VerifiedCall where
  | upsert (cap : Capability) (hcap : cap.Unchecked)
  | review (ctx : Reviewing) (principal : Principal) (options : ReviewOptions)
      (identifier : String) (dryRun : Bool)
  | runGates (ctx : Reviewing) (principal : Principal) (requestId : String)
      (approvedRiskException : Bool)
  | approve (call : ApproveCall)
  | guard (call : GuardCall)

/-- One step; a refused call leaves the host as it is. -/
def verifiedStep (p : Platform) (crypto : Crypto) (host : Host) : VerifiedCall → Host
  | .upsert cap _ => trustStep p crypto host (.upsert cap)
  | .review ctx principal options identifier dryRun =>
      match lifecycleReview p (ctx.onHost crypto host) principal options identifier dryRun with
      | .ok (_, next) => ⟨next.db, next.host.keys⟩
      | .error _ => host
  | .runGates ctx principal requestId approvedRiskException =>
      match runPromotionGates p host.db
          ((ctx.onHost crypto host).gatesCall p principal requestId approvedRiskException) with
      | .ok db => ⟨db, ((ctx.onHost crypto host).host.signed p true).keys⟩
      | .error _ => host
  | .approve call => trustStep p crypto host (.approve call)
  | .guard call => trustStep p crypto host (.guard call)

/-- A call that evaluates the gates of a capability, with what they say. -/
def VerifiedCall.Evaluates (p : Platform) (crypto : Crypto) (host : Host) (cap : Capability)
    (gates : Gates) : VerifiedCall → Prop
  | .review ctx principal options identifier dryRun =>
      reviewGates p host.db
        ((ctx.onHost crypto host).call p principal options identifier dryRun) = .ok (cap, gates)
  | .runGates ctx principal requestId approvedRiskException =>
      ∃ request, promotionGates p host.db
        ((ctx.onHost crypto host).gatesCall p principal requestId approvedRiskException) =
          .ok (request, cap, gates)
  | _ => False

/-- An evaluation of the row with this id and this content found the gate of the column passed. -/
def PassesGate (p : Platform) (crypto : Crypto) (column : CheckedColumn) (id : Nat) (hash : String)
    (host : Host) (call : VerifiedCall) : Prop :=
  ∃ row ∈ host.db.capabilities, row.id = id ∧ row.cap.contentHash = hash ∧
    ∃ gates, call.Evaluates p crypto host row.cap gates ∧
      gates.get? column.gate = some .passed

/-- In every state of a run, a row that is not a system row and is verified in the column was
evaluated with its current content, and the gate of the column passed. -/
def VerifiedEarned (p : Platform) (crypto : Crypto) (column : CheckedColumn) (host : Host)
    (calls : List VerifiedCall) : Prop :=
  ∀ first second, calls = first ++ second →
    ∀ row ∈ (run (verifiedStep p crypto) host first).db.capabilities,
      row.cap.isSystem = false → column.status row.cap = .verified →
      Occurs (verifiedStep p crypto) (PassesGate p crypto column row.id row.cap.contentHash)
        host first

/-- Whether the metadata states a commit, and states it as one nobody knows. -/
def Capability.commitUnknown (cap : Capability) : Bool :=
  (Dict.get? cap.metadata "sourceCommit").any fun commit =>
    commit.truthy && (commit.toStr = "" || commit.toStr = "unknown")

/-- A review that is not a dry run, and a gate run, finds a capability whose commit is not stated
as unknown. -/
def StatesCommit (p : Platform) (host : Host) : VerifiedCall → Prop
  | .review _ _ _ identifier dryRun => dryRun = false →
      ∀ cap, getCapability host.db (p.stripSpace identifier) = some cap →
        cap.commitUnknown = false
  | .runGates _ _ requestId _ =>
      ∀ request ∈ host.db.requests, request.id = p.stripSpace requestId →
        ∀ cap, getCapability host.db request.capabilityUri = some cap → cap.commitUnknown = false
  | _ => True

/-- A host in which no row is verified. -/
def Host.Unverified (host : Host) : Prop :=
  ∀ row ∈ host.db.capabilities, ∀ column : CheckedColumn, column.status row.cap ≠ .verified

section

variable {p : Platform} {crypto : Crypto} {host : Host} {db result : Database}
variable {cap old new : Capability} {call : VerifiedCall} {calls : List VerifiedCall}
variable {column : CheckedColumn} {gates : Gates}

/-- Discovery asks no gate. -/
theorem discovered_unchecked {discovery : DiscoveryHost} {file : SourceText}
    (h : discoverFile p discovery file = some cap) : cap.Unchecked := by
  have hread := discovered_read_from h
  intro column
  cases column with
  | signature => exact hread.signature
  | provenance => exact hread.provenance

theorem run_promotion_gates_ok {call : GatesCall} (h : runPromotionGates p db call = .ok result) :
    ∃ request cap gates, promotionGates p db call = .ok (request, cap, gates) ∧
      ((∀ x, x ∈ result.capabilities ↔ x ∈ db.capabilities) ∨
        allPassed gates = true ∧ ∀ x, x ∈ result.capabilities ↔ ∃ y ∈ db.capabilities,
          y.amend (fun row => row.uri = cap.uri && row.contentHash = cap.contentHash)
            Capability.gatesPassed = x) := by
  obtain ⟨⟨request, cap, gates⟩, hgates, h⟩ := bind_eq_ok h
  refine ⟨request, cap, gates, hgates, ?_⟩
  dsimp only at h
  split at h <;> cases h
  · exact .inr ⟨‹_›, fun x => mem_amend_capabilities x⟩
  · exact .inl fun x => Iff.rfl

/-- A gate run evaluates a served capability, the one its request names. -/
theorem promotion_gates_ok {call : GatesCall} {request : PromotionRequest}
    (h : promotionGates p db call = .ok (request, cap, gates)) :
    request ∈ db.requests ∧ request.id = p.stripSpace call.requestId ∧
      getCapability db request.capabilityUri = some cap ∧
      call.runner.evaluate cap = .ok gates := by
  unfold promotionGates at h
  split at h
  · cases h
  split at h
  · cases h
  split at h
  · cases h
  split at h
  · cases h
  rename_i found hfind
  split at h
  · cases h
  split at h
  · cases h
  rename_i served hserved
  obtain ⟨evaluated, hevaluated, h⟩ := bind_eq_ok h
  cases h
  obtain ⟨hmem, hkey⟩ := Table.find?_some hfind
  simp only [Bool.and_eq_true, decide_eq_true_eq] at hkey
  exact ⟨hmem, hkey.1, hserved, hevaluated⟩

theorem provenance_not_skipped {digest : String} (hhash : cap.contentHash = "sha256:" ++ digest)
    (hcommit : cap.commitUnknown = false) : (provenanceGate cap).state ≠ .skipped := by
  have hempty : cap.contentHash ≠ "" := by
    rw [hhash]
    simp
  have hunknown : cap.contentHash ≠ "unknown" := by
    rw [hhash]
    intro h
    have hchars := congrArg String.toList h
    simp at hchars
  unfold provenanceGate
  unfold Capability.commitUnknown at hcommit
  dsimp only
  cases hget : Dict.get? cap.metadata "sourceCommit" with
  | none => simp [hempty, hunknown]
  | some commit =>
      rw [hget] at hcommit
      cases htruthy : commit.truthy with
      | false => simp [hempty, hunknown, htruthy]
      | true =>
          simp only [Option.any_some, htruthy, Bool.true_and, Bool.or_eq_false_iff,
            decide_eq_false_iff_not] at hcommit
          simp [hempty, htruthy, hcommit.1, hcommit.2]

theorem review_evaluates {ctx : Reviewing} {principal : Principal} {options : ReviewOptions}
    {identifier : String} {dryRun : Bool}
    (h : reviewGates p host.db ((ctx.onHost crypto host).call p principal options identifier
      dryRun) = .ok (cap, gates)) :
    getCapability host.db (p.stripSpace identifier) = some cap ∧
      ∃ gateHost persist scope target evaluated,
        evaluateReview p gateHost persist host.db cap scope target principal.subject
          options.approvedRiskException = .ok evaluated ∧
        gates = evaluated.map fun gate => (gate.1, gate.2.state) := by
  have hrun : reviewGates p (ctx.onHost crypto host).db ((ctx.onHost crypto host).call p principal
      options identifier dryRun) = .ok (cap, gates) := h
  obtain ⟨-, -, hserved, -, scope, target, evaluated, -, hevaluated, hgates⟩ :=
    review_gates_ok_iff.mp hrun
  exact ⟨hserved, _, _, _, _, _, hevaluated, hgates⟩

/-- Every evaluation of a call asks `_evaluate` about a stored capability. -/
theorem evaluates_review (h : call.Evaluates p crypto host cap gates) :
    (∃ row ∈ host.db.capabilities, row.cap = cap) ∧ ∃ gateHost persist scope target reviewer
      approvedException evaluated, evaluateReview p gateHost persist host.db cap scope target
        reviewer approvedException = .ok evaluated ∧
      gates = evaluated.map fun gate => (gate.1, gate.2.state) := by
  cases call with
  | upsert cap hcap => exact h.elim
  | approve call => exact h.elim
  | guard call => exact h.elim
  | review ctx principal options identifier dryRun =>
      obtain ⟨hserved, gateHost, persist, scope, target, evaluated, hevaluated, hgates⟩ :=
        review_evaluates h
      exact ⟨get_capability_mem hserved, gateHost, persist, scope, target, _, _, evaluated,
        hevaluated, hgates⟩
  | runGates ctx principal requestId approvedRiskException =>
      obtain ⟨request, hrun⟩ := h
      obtain ⟨-, -, hserved, hevaluated⟩ := promotion_gates_ok hrun
      obtain ⟨⟨scope, target⟩, -, hmapped⟩ := bind_eq_ok hevaluated
      obtain ⟨evaluated, hreview, hgates⟩ := map_eq_ok hmapped
      exact ⟨get_capability_mem hserved, _, _, _, _, _, _, evaluated, hreview, hgates.symm⟩

theorem evaluated_gate_passed (h : call.Evaluates p crypto host cap gates)
    (hpassed : allPassed gates = true)
    (hcommit : column = .provenance → cap.commitUnknown = false) :
    gates.get? column.gate = some .passed := by
  obtain ⟨-, gateHost, persist, scope, target, reviewer, approvedException, evaluated, hevaluated,
    rfl⟩ := evaluates_review h
  refine (all_passed_state hpassed _).resolve_right ?_
  rintro ⟨hcolumn, hskipped⟩
  have hprovenance : column = .provenance := by
    cases column with
    | signature => cases hcolumn
    | provenance => rfl
  subst hprovenance
  have hsource := (all_passed_state hpassed .sourceIntegrity).resolve_right (by simp)
  rw [get?_states, ← hevaluated, evaluate_review_state (by decide)] at hsource hskipped
  cases hgates : evaluateGates p gateHost host.db cap scope target reviewer approvedException with
  | error failure => simp [hgates, evaluatedState] at hsource
  | ok gates =>
      rw [hgates] at hsource hskipped
      obtain ⟨source, hread, hlist⟩ := bind_eq_ok hgates
      cases hlist
      obtain ⟨content, hhash⟩ :=
        (evaluate_source_ok prompt_injection_not_skipped hread).2.2.2 (Option.some.inj hsource)
      exact provenance_not_skipped hhash.symm (hcommit rfl) (Option.some.inj hskipped)

/-- A call that evaluated this row, let every gate count as passed, and was no dry run. -/
def VerifiedCall.Verifies (p : Platform) (crypto : Crypto) (host : Host) (row : CapabilityRow)
    (call : VerifiedCall) : Prop :=
  (∃ gates, call.Evaluates p crypto host row.cap gates ∧ allPassed gates = true) ∧
    ∀ ctx principal options identifier dryRun,
      call = .review ctx principal options identifier dryRun → dryRun = false

/-- What a call does to the rows and their two columns: each row is rewritten in place, keeps its id
and content, and is verified after only if it was before or the call verifies it. -/
structure VerifiedRewrites (p : Platform) (crypto : Crypto) (host : Host) (call : VerifiedCall)
    (after : Database) (rewrite : CapabilityRow → CapabilityRow) : Prop where
  mem : ∀ x, x ∈ after.capabilities ↔ ∃ y ∈ host.db.capabilities, rewrite y = x
  id : ∀ y, (rewrite y).id = y.id
  contentHash : ∀ y, (rewrite y).cap.contentHash = y.cap.contentHash
  verified : ∀ y ∈ host.db.capabilities, ∀ column : CheckedColumn,
    column.status (rewrite y).cap = .verified →
      column.status y.cap = .verified ∨ call.Verifies p crypto host y

theorem VerifiedRewrites.refl {after : Database}
    (h : ∀ x, x ∈ after.capabilities ↔ x ∈ host.db.capabilities) :
    VerifiedRewrites p crypto host call after fun row => row :=
  ⟨fun x => (h x).trans ⟨fun hx => ⟨x, hx, rfl⟩, fun ⟨_, hy, hyx⟩ => hyx ▸ hy⟩, fun _ => rfl,
    fun _ => rfl, fun _ _ _ h => .inl h⟩

theorem VerifiedRewrites.amend {after : Database} {change : Capability → Capability}
    {row : CapabilityRow} (hrow : row ∈ host.db.capabilities)
    (hchange : KeepsIdentity change) (hverifies : call.Verifies p crypto host row)
    (hmem : ∀ x, x ∈ after.capabilities ↔ ∃ y ∈ host.db.capabilities,
      y.amend (fun cap => cap.uri = row.cap.uri && cap.contentHash = row.cap.contentHash)
        change = x) :
    VerifiedRewrites p crypto host call after
      (·.amend (fun cap => cap.uri = row.cap.uri && cap.contentHash = row.cap.contentHash)
        change) := by
  refine ⟨hmem, fun y => (amend_identity _ hchange y).1,
    fun y => (amend_identity _ hchange y).2.2.2.1, fun y hy column => ?_⟩
  unfold CapabilityRow.amend
  split
  · rename_i hselected
    simp only [Bool.and_eq_true, decide_eq_true_eq] at hselected
    rw [Database.eq_of_uri hy hrow hselected.1]
    exact fun _ => .inr hverifies
  · exact .inl

theorem verified_step_rewrites (hcall : ∀ cap hcap, call ≠ .upsert cap hcap) :
    ∃ rewrite,
      VerifiedRewrites p crypto host call (verifiedStep p crypto host call).db rewrite := by
  cases call with
  | upsert cap hcap => exact absurd rfl (hcall cap hcap)
  | review ctx principal options identifier dryRun =>
      simp only [verifiedStep]
      split
      · rename_i review next hreview
        obtain ⟨⟨cap, gates⟩, hgates, hreview⟩ := bind_eq_ok hreview
        obtain ⟨⟨again, db⟩, hwrites, hnext⟩ := bind_eq_ok hreview
        cases hnext
        rcases review_capability_ok hwrites with hsame | ⟨found, hfound, hdry, hpassed, -, hmem⟩
        · exact ⟨_, .refl fun x => by rw [hsame]; rfl⟩
        · have hevaluates : (VerifiedCall.review ctx principal options identifier dryRun).Evaluates
              p crypto host found again := hfound
          obtain ⟨⟨row, hrow, rfl⟩, -⟩ := evaluates_review hevaluates
          have hkeeps : KeepsIdentity Capability.reviewed := fun _ => ⟨rfl, rfl, rfl, rfl⟩
          refine ⟨_, .amend hrow hkeeps ⟨⟨_, hevaluates, hpassed⟩, fun _ _ _ _ _ heq => ?_⟩ hmem⟩
          cases heq
          exact hdry
      · exact ⟨_, .refl fun x => Iff.rfl⟩
  | runGates ctx principal requestId approvedRiskException =>
      simp only [verifiedStep]
      split
      · rename_i db hrun
        obtain ⟨request, cap, gates, hgates, hsame | ⟨hpassed, hmem⟩⟩ :=
          run_promotion_gates_ok hrun
        · exact ⟨_, .refl hsame⟩
        · have hevaluates : (VerifiedCall.runGates ctx principal requestId
              approvedRiskException).Evaluates p crypto host cap gates := ⟨request, hgates⟩
          obtain ⟨⟨row, hrow, rfl⟩, -⟩ := evaluates_review hevaluates
          have hkeeps : KeepsIdentity Capability.gatesPassed := fun _ => ⟨rfl, rfl, rfl, rfl⟩
          refine ⟨_, .amend hrow hkeeps
            ⟨⟨_, hevaluates, hpassed⟩, fun _ _ _ _ _ heq => ?_⟩ hmem⟩
          cases heq
      · exact ⟨_, .refl fun x => Iff.rfl⟩
  | approve call =>
      simp only [verifiedStep, trustStep]
      obtain ⟨-, hsame | ⟨request, -, -, -, hrows⟩⟩ :=
        approve_request_cases (Prod.eta (approveRequest p host.db call)).symm
      · exact ⟨_, .refl fun x => by rw [hsame]⟩
      rcases hrows with ⟨decision, -, -, hmem⟩ | ⟨-, -, uri, storeId, -, hmem⟩
      · have hkeeps : KeepsIdentity fun cap =>
            { cap with approvalState := decision.approvalState } := fun _ => ⟨rfl, rfl, rfl, rfl⟩
        refine ⟨_, hmem, fun y => (amend_identity _ hkeeps y).1,
          fun y => (amend_identity _ hkeeps y).2.2.2.1, fun y _ column hverified => .inl ?_⟩
        unfold CapabilityRow.amend at hverified
        split at hverified
        · cases column <;> exact hverified
        · exact hverified
      · refine ⟨_, hmem, fun y => ?_, fun y => ?_, fun y _ column hverified => .inl ?_⟩
        · unfold CapabilityRow.promoted
          split <;> rfl
        · unfold CapabilityRow.promoted
          split <;> rfl
        · unfold CapabilityRow.promoted at hverified
          split at hverified
          · -- A promotion makes an unchecked status pending and keeps the others.
            cases column with
            | signature =>
                change (if y.cap.signatureStatus = .unchecked then .pending
                  else y.cap.signatureStatus) = CheckStatus.verified at hverified
                split at hverified
                · cases hverified
                · exact hverified
            | provenance =>
                change (if y.cap.provenanceStatus = .unchecked then .pending
                  else y.cap.provenanceStatus) = CheckStatus.verified at hverified
                split at hverified
                · cases hverified
                · exact hverified
          · exact hverified
  | guard call =>
      obtain ⟨decided, hmem, hdecided⟩ := guard_step_capabilities p crypto host call
      refine ⟨decided, hmem, fun y => ?_, fun y => ?_, fun y _ column hverified => .inl ?_⟩
      · rcases hdecided y with hsame | ⟨lifecycle, approvalState, -, heq⟩
        · rw [hsame]
        · rw [heq]
      · rcases hdecided y with hsame | ⟨lifecycle, approvalState, -, heq⟩
        · rw [hsame]
        · rw [heq]
      · rcases hdecided y with hsame | ⟨lifecycle, approvalState, -, heq⟩
        · rwa [hsame] at hverified
        · rw [heq] at hverified
          cases column <;> exact hverified

theorem states_commit_verifies {row : CapabilityRow} (h : StatesCommit p host call)
    (hverifies : call.Verifies p crypto host row) : row.cap.commitUnknown = false := by
  obtain ⟨⟨gates, hevaluates, -⟩, hdry⟩ := hverifies
  cases call with
  | upsert cap hcap => exact hevaluates.elim
  | approve call => exact hevaluates.elim
  | guard call => exact hevaluates.elim
  | review ctx principal options identifier dryRun =>
      exact h (hdry _ _ _ _ _ rfl) _ (review_evaluates hevaluates).1
  | runGates ctx principal requestId approvedRiskException =>
      obtain ⟨request, hrun⟩ := hevaluates
      obtain ⟨hrequest, hid, hserved, -⟩ := promotion_gates_ok hrun
      exact h request hrequest hid _ hserved

/-- An upsert writes the statuses it is given. -/
theorem incoming_status (column : CheckedColumn) :
    column.status (incoming p db cap).stored = column.status cap := by
  obtain ⟨lifecycle, heq⟩ := incoming_lifecycle p db cap
  rw [heq]
  unfold applyDefaultUserNamespace
  split
  · cases column <;> rfl
  dsimp only
  split
  · cases column <;> rfl
  · cases column <;> rfl

theorem merged_status_verified (hnew : column.status new ≠ .verified)
    (h : column.status (merged old new) = .verified) :
    old.contentHash = new.contentHash ∧ column.status old = .verified := by
  have hmerged : column.status (merged old new) = mergeState .verified .pending
      (decide (old.contentHash = new.contentHash)) (column.status old) (column.status new) := by
    cases column <;> rfl
  rw [hmerged] at h
  by_cases hsame : old.contentHash = new.contentHash
  · rw [decide_eq_true hsame] at h
    exact ⟨hsame, h⟩
  · rw [decide_eq_false hsame] at h
    exact absurd ((merge_state_changed (by decide)).mp h).2 hnew

theorem verified_occurs (hstart : host.Unverified)
    (halong : Along (verifiedStep p crypto)
      (fun host call => column = .provenance → StatesCommit p host call) host calls) :
    ∀ row ∈ (run (verifiedStep p crypto) host calls).db.capabilities,
      column.status row.cap = .verified →
      Occurs (verifiedStep p crypto) (PassesGate p crypto column row.id row.cap.contentHash)
        host calls := by
  -- The induction is on the last call; `state` is the host it finds.
  induction calls using List.reverseRecOn with
  | nil => exact fun row hrow hverified => absurd hverified (hstart row hrow column)
  | append_singleton calls call ih =>
      obtain ⟨hbefore, hlast⟩ := (along_append host calls [call]).mp halong
      have ih := ih hbefore
      generalize hstate : run (verifiedStep p crypto) host calls = state at *
      have hrun : run (verifiedStep p crypto) host (calls ++ [call]) =
          verifiedStep p crypto state call := by
        rw [run_append, hstate]
        rfl
      rw [hrun]
      intro x hx hverified
      rw [occurs_concat, hstate]
      by_cases hcall : ∃ cap hcap, call = .upsert cap hcap
      · obtain ⟨cap, hcap, rfl⟩ := hcall
        left
        have hnew : column.status (incoming p state.db cap).stored ≠ .verified := by
          rw [incoming_status, hcap column]
          decide
        have hx : x ∈ (trustStep p crypto state (.upsert cap)).db.capabilities := hx
        rcases trust_step_upsert (p := p) crypto state cap with
          hsame | ⟨id, db, -, hdb, ⟨old, hat, hmem⟩ | ⟨-, hmem⟩⟩
        · rw [hsame] at hx
          exact ih x hx hverified
        · rw [hdb] at hx
          rcases (hmem x).mp hx with rfl | ⟨hx, -⟩
          · obtain ⟨hhash, hold⟩ := merged_status_verified hnew hverified
            have hearned := ih old (Database.capability_at_some hat).1 hold
            rw [hhash] at hearned
            exact hearned
          · exact ih x hx hverified
        · rw [hdb] at hx
          rcases (hmem x).mp hx with rfl | hx
          · exact absurd hverified hnew
          · exact ih x hx hverified
      · obtain ⟨rewrite, hrewrites⟩ : ∃ rewrite, VerifiedRewrites p crypto state call
            (verifiedStep p crypto state call).db rewrite :=
          verified_step_rewrites fun cap hcap heq => hcall ⟨cap, hcap, heq⟩
        obtain ⟨y, hy, rfl⟩ := (hrewrites.mem x).mp hx
        rw [hrewrites.id, hrewrites.contentHash]
        rcases hrewrites.verified y hy column hverified with hbefore | hverifies
        · exact .inl (ih y hy hbefore)
        · have hcommit : column = .provenance → y.cap.commitUnknown = false := fun hcolumn =>
            states_commit_verifies (hlast.1 hcolumn) hverifies
          obtain ⟨⟨gates, hevaluates, hpassed⟩, -⟩ := hverifies
          exact .inr ⟨y, hy, rfl, rfl, gates, hevaluates,
            evaluated_gate_passed hevaluates hpassed hcommit⟩

end

/-- Over every run, a verified signature is earned, and so is verified provenance if no review and
no gate run of the run finds a commit that is stated as unknown. -/
theorem verified_earned (p : Platform) (crypto : Crypto) (host : Host)
    (calls : List VerifiedCall) (hstart : host.Unverified) :
    VerifiedEarned p crypto .signature host calls ∧
      (Along (verifiedStep p crypto) (StatesCommit p) host calls →
        VerifiedEarned p crypto .provenance host calls) := by
  refine ⟨fun first second _ row hrow _ => verified_occurs hstart ?_ row hrow,
    fun halong first second hsplit row hrow _ => verified_occurs hstart ?_ row hrow⟩
  · rw [along_iff]
    exact fun _ _ _ _ hcolumn => nomatch hcolumn
  · rw [hsplit] at halong
    have hfirst := (along_iff host first).mp ((along_append host first second).mp halong).1
    rw [along_iff]
    exact fun before call after heq _ => hfirst before call after heq

/-- A lifecycle on these files, with a directory and a fresh key. -/
def Reviewing.reading (host : GateHost) : Reviewing where
  db := .empty
  host
  directory := teamDirectory
  orgCache _ _ := none
  reviewIds uri := "crv_" ++ uri

/-- The notes skill is indexed and reviewed. -/
def pinnedRun : List VerifiedCall :=
  [.upsert (notesSkill ("sha256:" ++ notesSource.2)) fun column => by cases column <;> rfl,
    .review (.reading notesHost) platformAdmin {} "notes" false]

/-- The host of the runs, without rows and without a signing key. -/
def unsignedHost : Host := ⟨.empty, notesHost.keys⟩

theorem unsigned_unverified : unsignedHost.Unverified := by
  intro row hrow
  exact absurd hrow (List.not_mem_nil (a := row))

theorem verified_step_review (p : Platform) (crypto : Crypto) (host : Host) (ctx : Reviewing)
    (principal : Principal) (options : ReviewOptions) (identifier : String) (dryRun : Bool) :
    verifiedStep p crypto host (.review ctx principal options identifier dryRun) =
      match quickReview p (ctx.onHost crypto host) principal options identifier dryRun with
      | .ok (_, next) => ⟨next.db, next.host.keys⟩
      | .error _ => host := by
  rw [← lifecycle_review_quick]
  rfl

/-- The skill states no commit, so that its row is verified by its content hash. -/
theorem verified_earned_pinned :
    ((run (verifiedStep notesPlatform .transparent) unsignedHost pinnedRun).db.capabilities.rows.any
      fun row => row.cap.provenanceStatus = .verified) = true ∧
    VerifiedEarned notesPlatform .transparent .provenance unsignedHost pinnedRun := by
  refine ⟨?_, (verified_earned notesPlatform .transparent unsignedHost pinnedRun
    unsigned_unverified).2 ⟨trivial, fun _ cap hserved => ?_, trivial⟩⟩
  · rw [pinnedRun, run, run, run, verified_step_review]
    decide +kernel
  have hstated : ((getCapability (verifiedStep notesPlatform .transparent unsignedHost
      (.upsert (notesSkill ("sha256:" ++ notesSource.2))
        fun column => by cases column <;> rfl)).db
      (notesPlatform.stripSpace "notes")).all fun cap => !cap.commitUnknown) = true := by
    decide +kernel
  rw [hserved] at hstated
  simpa using hstated

/-- A `cap.json` that states that its commit is unknown, with its SHA-256. -/
def unpinnedSource : String × String :=
  ("\x7b\"name\": \"notes\", \"description\": \"Keeps notes.\", \"sourceCommit\": \"unknown\"\x7d",
    "f75ddac052ecdcc8c84ca321232851bcf12fb830f3f2320a6978f217b6082e69")

/-- Its JSON value. -/
def unpinnedFields : Dict :=
  [("name", .str "notes"), ("description", .str "Keeps notes."), ("sourceCommit", .str "unknown")]

/-- A development deployment that knows the digest of the file. -/
def unpinnedPlatform : Platform := .ascii fun content =>
  (((unpinnedSource :: sampleDigests).find? fun entry =>
    entry.1.toUTF8.data.toList = content).map (·.2)).getD ""

/-- What discovery reads of the file. -/
def unpinnedDiscovery : DiscoveryHost where
  loads text := if text = unpinnedSource.1 then .value (.obj unpinnedFields) else .decodeError
  titled text := text
  isFile _ := false

/-- The file, in the package `notes`. -/
def unpinnedFile : SourceText :=
  ⟨["srv", "plugins", "notes", "cap.json"], ["srv", "plugins"],
    unpinnedSource.1.toUTF8.data.toList⟩

/-- What discovery makes of the file. -/
def unpinnedNotes : Capability :=
  { uri := "cap://asg.local/workflow/notes.notes@0.1.0", capabilityType := .workflow
    name := "notes", version := "0.1.0", title := "notes", description := "Keeps notes."
    packagePath := "/srv/plugins/notes", entrypoint := "cap.json"
    sourcePath := "/srv/plugins/notes/cap.json", sourceKind := "cap_manifest"
    sourceSystem := "local", canonicalKey := "workflow:notes:notes:0.1.0"
    contentHash := "sha256:" ++ unpinnedSource.2, plugin := some "notes"
    metadata := unpinnedFields }

theorem unpinned_discovered :
    discoverFile unpinnedPlatform unpinnedDiscovery unpinnedFile = some unpinnedNotes := by
  decide +kernel

/-- The files that the review of the workflow reads. -/
def unpinnedHost : GateHost :=
  { notesHost with
    files := fun path =>
      if path = unpinnedNotes.sourcePath then .regular unpinnedFile.bytes else .missing
    jsonLoads := fun text =>
      if text = unpinnedSource.1 then .value (.obj unpinnedFields) else .decodeError }

/-- The index of the workflow. -/
def unpinnedUpsert : VerifiedCall :=
  .upsert unpinnedNotes (discovered_unchecked unpinned_discovered)

/-- Its review. -/
def unpinnedReview : VerifiedCall :=
  .review (.reading unpinnedHost) platformAdmin {} "notes" false

/-- The review skips the provenance gate of the workflow and writes that its provenance is
verified. -/
theorem verified_earned_counterexample :
    ¬ ∀ (p : Platform) (crypto : Crypto) (host : Host) (calls : List VerifiedCall),
      host.Unverified → VerifiedEarned p crypto .signature host calls ∧
        VerifiedEarned p crypto .provenance host calls := by
  intro hclaim
  have hearned := (hclaim unpinnedPlatform .transparent unsignedHost
    ([unpinnedUpsert] ++ [unpinnedReview]) unsigned_unverified).2 _ [] (List.append_nil _).symm
  have hverified : ((run (verifiedStep unpinnedPlatform .transparent) unsignedHost
      ([unpinnedUpsert] ++ [unpinnedReview])).db.capabilities.rows.any fun row =>
        !row.cap.isSystem && row.cap.provenanceStatus = .verified) = true := by
    rw [List.singleton_append, run, run, run, unpinnedReview, verified_step_review]
    decide +kernel
  obtain ⟨row, hrow, hstatus⟩ := List.any_eq_true.mp hverified
  simp only [Bool.and_eq_true, Bool.not_eq_true', decide_eq_true_eq] at hstatus
  have hoccurs := hearned row hrow hstatus.1 hstatus.2
  have hskipped : ((reviewGates unpinnedPlatform
      (verifiedStep unpinnedPlatform .transparent unsignedHost unpinnedUpsert).db
      (((Reviewing.reading unpinnedHost).onHost .transparent
        (verifiedStep unpinnedPlatform .transparent unsignedHost unpinnedUpsert)).call
        unpinnedPlatform platformAdmin {} "notes" false)).toOption.all fun found =>
          found.2.get? .provenance ≠ some .passed) = true := by
    decide +kernel
  rcases (occurs_concat _ _ _).mp hoccurs with hfirst | ⟨other, -, -, -, gates, hgates, hpassed⟩
  · rcases (occurs_concat _ [] _).mp hfirst with
      ⟨first, call, second, hsplit, -⟩ | ⟨other, -, -, -, gates, hgates, -⟩
    · simp at hsplit
    · exact hgates
  · have hgates : reviewGates unpinnedPlatform
        (verifiedStep unpinnedPlatform .transparent unsignedHost unpinnedUpsert).db
        (((Reviewing.reading unpinnedHost).onHost .transparent
          (verifiedStep unpinnedPlatform .transparent unsignedHost unpinnedUpsert)).call
          unpinnedPlatform platformAdmin {} "notes" false) =
            .ok (other.cap, gates) := hgates
    rw [hgates] at hskipped
    simp only [Except.toOption, Option.all_some, decide_eq_true_eq, ne_eq] at hskipped
    exact hskipped hpassed

end Capmesh
