import Capmesh.Access.Evaluate
import Capmesh.Index.Landing

/-!
# Review, promotion and sharing

The governance operations that change a capability row: `review_capability`
(`lifecycle.py`), `submit_promotion` and `approve_request` (`promotions.py`), and
`create_share` (`stores.py`). The decisions of `evaluate_access`, the gate evaluations of
the lifecycle, and the rows of the directory are inputs of a call, so that what is proved
about a call holds for all of them. Each operation has one lemma that says which columns
of which rows it changes.
-/

namespace Capmesh

open Python Relational

/-- The gate evaluations a review and an approval ask for: the seven lifecycle gates of a
capability, and the prompt-injection gate of a promotion. -/
structure GateRunner where
  evaluate : Capability → Except Failure Gates
  injection : String → String → GateState × String

/-- The key of a gate in `gates_json`. -/
def GateName.text : GateName → String
  | .sourceIntegrity => "sourceIntegrity"
  | .tests => "tests"
  | .retrievalEvals => "retrievalEvals"
  | .signature => "signature"
  | .provenance => "provenance"
  | .promptInjectionScan => "promptInjectionScan"
  | .riskTierPolicy => "riskTierPolicy"

/-- The gates of a promotion, in their order. -/
def gateNames : List GateName :=
  [.sourceIntegrity, .tests, .retrievalEvals, .signature, .provenance, .promptInjectionScan,
    .riskTierPolicy]

/-- `default_promotion_gates`. -/
def defaultPromotionGates : Gates := gateNames.map (·, .pending)

/-- The state of a gate. -/
def Gates.get? (gates : Gates) (name : GateName) : Option GateState :=
  (gates.find? (·.1 = name)).map (·.2)

/-- Set the state of a gate. -/
def Gates.set (gates : Gates) (name : GateName) (state : GateState) : Gates :=
  if gates.any (·.1 = name) then
    gates.map fun gate => if gate.1 = name then (name, state) else gate
  else gates ++ [(name, state)]

/-- `_all_passed`: a skipped provenance gate does not block. -/
def allPassed (gates : Gates) : Bool :=
  gateNames.all fun name =>
    gates.get? name = some .passed || (name = .provenance && gates.get? name = some .skipped)

/-- Apply a change of columns to the rows of a table that a condition selects. -/
def CapabilityRow.amend (selects : Capability → Bool) (change : Capability → Capability)
    (row : CapabilityRow) : CapabilityRow :=
  if selects row.cap then { row with cap := change row.cap } else row

/-- A change of columns that keeps the constrained ones. -/
def KeepsIdentity (change : Capability → Capability) : Prop :=
  ∀ cap, (change cap).uri = cap.uri ∧ (change cap).canonicalKey = cap.canonicalKey ∧
    (change cap).contentHash = cap.contentHash ∧ (change cap).tenantId = cap.tenantId

theorem amend_identity (selects : Capability → Bool) {change : Capability → Capability}
    (hchange : KeepsIdentity change) (row : CapabilityRow) :
    (row.amend selects change).id = row.id ∧
      (row.amend selects change).cap.uri = row.cap.uri ∧
      (row.amend selects change).cap.canonicalKey = row.cap.canonicalKey ∧
      (row.amend selects change).cap.contentHash = row.cap.contentHash ∧
      (row.amend selects change).cap.tenantId = row.cap.tenantId := by
  unfold CapabilityRow.amend
  split
  · obtain ⟨huri, hkey, hhash, htenant⟩ := hchange row.cap
    exact ⟨rfl, huri, hkey, hhash, htenant⟩
  · exact ⟨rfl, rfl, rfl, rfl, rfl⟩

theorem amend_conflict {selects : Capability → Bool} {change : Capability → Capability}
    (hchange : KeepsIdentity change) (a b : CapabilityRow)
    (h : Constrained.Conflict (a.amend selects change) (b.amend selects change)) :
    Constrained.Conflict a b := by
  obtain ⟨hidA, huriA, hkeyA, -, -⟩ := amend_identity selects hchange a
  obtain ⟨hidB, huriB, hkeyB, -, -⟩ := amend_identity selects hchange b
  rcases h with h | h | h
  · exact .inl (hidA.symm.trans (h.trans hidB))
  · exact .inr (.inl (huriA.symm.trans (h.trans huriB)))
  · exact .inr (.inr (hkeyA.symm.trans (h.trans hkeyB)))

/-- `UPDATE capabilities SET change WHERE selects`. -/
def Database.amendCapabilities (db : Database) (selects : Capability → Bool)
    (change : Capability → Capability) (hchange : KeepsIdentity change) : Database :=
  { db with capabilities := db.capabilities.map (·.amend selects change) (amend_conflict hchange) }

/-- The columns a passed review sets. -/
def Capability.reviewed (cap : Capability) : Capability :=
  { cap with
    approvalState := .approved, lifecycle := .published, signatureStatus := .verified
    provenanceStatus := .verified, riskReviewStatus := .approved }

/-- The arguments of `review_capability`, the decisions it asks for, the scope it resolves, and
the id of the review it records. -/
structure ReviewCall where
  principal : Principal
  identifier : String
  dryRun : Bool := true
  manage : Access
  approve : Access
  runner : GateRunner
  scope : Capability → String := fun _ => "private"
  reviewId : String := ""

/-- `review_capability` up to the gates: the reviewed capability and its gate states. -/
def reviewGates (p : Platform) (db : Database) (call : ReviewCall) :
    Except Failure (Capability × Gates) :=
  if !call.manage.allowed then
    .error (.permission (orElse call.manage.reason "manage right required."))
  else if !call.approve.allowed then
    .error (.permission (orElse call.approve.reason "approve right required."))
  else if p.stripSpace call.identifier = "" then .error (.value "capabilityUri is required.")
  else match getCapability db (p.stripSpace call.identifier) with
    | none => .error (.value "Capability not found in the current tenant.")
    | some cap =>
        if cap.tenantId ≠ orElse call.principal.tenantId "asg" then
          .error (.value "Capability not found in the current tenant.")
        else do
          let gates ← call.runner.evaluate cap
          .ok (cap, gates)

/-- `review_capability`: one review is recorded for each tenant, URI, content and scope. -/
def reviewCapability (p : Platform) (db : Database) (call : ReviewCall) :
    Except Failure (Gates × Database) := do
  let (cap, gates) ← reviewGates p db call
  if call.dryRun || !allPassed gates then .ok (gates, db)
  else
    let reviews := (db.reviews.insert? ⟨call.reviewId, cap.tenantId, cap.uri, cap.contentHash,
      call.scope cap, call.principal.subject⟩).getD db.reviews
    .ok (gates, ({ db with reviews }).amendCapabilities
      (fun row => row.uri = cap.uri && row.contentHash = cap.contentHash) Capability.reviewed
      fun _ => ⟨rfl, rfl, rfl, rfl⟩)

/-- The arguments of `submit_promotion`, the decision it asks for, and the id it draws. -/
structure SubmitCall where
  principal : Principal
  capabilityUri : String
  targetNamespaceId : String
  access : Access
  directory : Directory
  requestId : String

/-- A namespace with its store. -/
def Directory.namespaceWithStore (directory : Directory) (tenant id : String) :
    Option (Namespace × Store) :=
  match directory.namespaces.find? fun space => space.id = id && space.tenantId = tenant with
  | none => none
  | some space =>
      (directory.stores.find? fun store =>
        store.id = space.storeId && store.tenantId = tenant).map (space, ·)

/-- The checks of `submit_promotion` on the target namespace. -/
def checkPromotionTarget (directory : Directory) (tenant id : String) : Except Failure Unit :=
  match directory.namespaceWithStore tenant id with
  | none => .error (.value "Promotion target namespace was not found in this tenant.")
  | some (space, store) =>
      if store.kind ≠ .org && store.kind ≠ .allUsers then
        .error (.value "Promotion targets must be an organization or everyone namespace.")
      else if !space.active || store.disabled then
        .error (.value "Promotion target namespace is not active.")
      else if store.kind = .org && !(directory.organizations.find? fun org =>
          org.storeId = space.storeId && org.tenantId = tenant).any (·.active) then
        .error (.value "Promotion target organization is not active.")
      else .ok ()

/-- `submit_promotion`. -/
def submitPromotion (p : Platform) (db : Database) (call : SubmitCall) :
    Except Failure Database :=
  let tenant := p.tenantOr call.principal.tenantId
  if call.capabilityUri = "" || call.targetNamespaceId = "" then
    .error (.value "capabilityUri and targetNamespaceId are required.")
  else match db.capabilityAt call.capabilityUri with
    | none => .error (.value "Capability was not found in this tenant.")
    | some row =>
        if row.cap.tenantId ≠ tenant then
          .error (.value "Capability was not found in this tenant.")
        else if !call.access.allowed then .error (.permission call.access.reason)
        else do
          checkPromotionTarget call.directory tenant call.targetNamespaceId
          let requests ← constrained "promotion_requests.id" (db.requests.insert?
            ⟨call.requestId, tenant, call.capabilityUri, row.cap.storeId, call.targetNamespaceId,
              call.principal.subject, .pending, some defaultPromotionGates⟩)
          .ok (({ db with requests }).amendCapabilities (·.uri = call.capabilityUri)
            (fun cap =>
              { cap with
                submittedBy := some call.principal.subject, approvalState := .pending })
            fun _ => ⟨rfl, rfl, rfl, rfl⟩)

/-- `slugify` of `manifest.py`. -/
def slugify (p : Platform) (value : String) : String :=
  let cleaned := (p.lower (p.stripSpace value)).toList.map fun c =>
    if p.chars.isAlnum c || c = '_' || c = '.' || c = '-' then c else '-'
  orElse (String.ofList (strip (fun c => c = '-' || c = '.' || c = '_') (squeeze '-' cleaned)))
    "unnamed"

/-- The decisions of `approve_request`. -/
inductive PromotionDecision where
  | approve | reject | recall | demote | yank
  deriving DecidableEq, Repr

/-- The state a decision gives the request. -/
def PromotionDecision.requestState : PromotionDecision → RequestState
  | .approve => .approved
  | .reject => .rejected
  | .recall => .recalled
  | .demote => .demoted
  | .yank => .yanked

/-- The approval state a decision gives the capability. -/
def PromotionDecision.approvalState : PromotionDecision → ApprovalState
  | .approve => .approved
  | .reject => .rejected
  | .recall => .recalled
  | .demote => .demoted
  | .yank => .yanked

/-- The arguments of `approve_request`, the decisions and evaluations it asks for, and the
directory; a decision outside the vocabulary is `none`. -/
structure ApproveCall where
  principal : Principal
  requestId : String
  decision : Option PromotionDecision := some .approve
  overridePendingGates : Bool := false
  access : Access
  manage : Access
  approve : Access
  runner : GateRunner
  directory : Directory

/-- The gates of a request as an approval sees them: the merged states, the names still pending,
and the gates the runner failed. -/
structure GateView where
  gates : Gates
  pending : List String
  failed : List GateName

/-- The stored gates; a text that does not parse counts as one pending gate. -/
def storedView (gates : Option Gates) : GateView :=
  match gates with
  | some gates => ⟨gates, (gates.filter (·.2 ≠ .passed)).map (·.1.text), []⟩
  | none => ⟨[], ["__malformed_gates_json__"], []⟩

/-- The stored gates with the runner's answers merged in. -/
def runnerView (stored runner : Gates) : GateView :=
  let gates := gateNames.foldl (fun gates name =>
    match runner.get? name with
    | some state => gates.set name state
    | none => gates) stored
  ⟨gates, (gates.filter fun gate => gate.2 = .pending).map (·.1.text),
    (gates.filter fun gate => gate.1 ≠ .riskTierPolicy && gate.1 ≠ .promptInjectionScan &&
      gate.2 ≠ .passed && gate.2 ≠ .skipped).map (·.1)⟩

/-- The gates of a request, and whether the runner evaluated them: a runner that refused leaves
the stored ones. -/
def approvalView (p : Platform) (db : Database) (call : ApproveCall) (request : PromotionRequest) :
    Except Failure (GateView × Bool) :=
  let stored := storedView request.gates
  match reviewGates p db
      { principal := call.principal, identifier := request.capabilityUri, manage := call.manage
        approve := call.approve, runner := call.runner } with
  | .ok (_, gates) => .ok (runnerView stored.gates gates, true)
  | .error (.value _) => .ok (stored, false)
  | .error (.permission _) => .ok (stored, false)
  | .error failure => .error failure

/-- The checks of a production deployment on the gates and on the capability. -/
def checkProduction (db : Database) (uri : String) (view : GateView) : Except Failure Unit :=
  let unmet := (gateNames.filter fun name => view.gates.get? name ≠ some .passed).map (·.text)
  if !view.pending.isEmpty then
    .error (.permission ("Production promotion is fail-closed: pending security/provenance " ++
      "gates cannot be overridden."))
  else if !unmet.isEmpty then
    .error (.permission ("Production promotion requires authoritative passed gates: " ++
      join ", " (unmet.insertionSort (· ≤ ·))))
  else if (db.capabilityAt uri).any fun row => row.cap.signatureStatus = .verified &&
      row.cap.provenanceStatus = .verified && row.cap.riskReviewStatus = .approved then
    .ok ()
  else .error (.permission ("Production promotion requires a verified content signature, " ++
    "verified provenance, and approved risk review."))

/-- The risk-tier gate of an approval; `none` when the target or the capability is missing. -/
def riskTierGate (db : Database) (directory : Directory) (request : PromotionRequest) :
    Option (Bool × String) :=
  match directory.namespaces.find? (·.id = request.targetNamespaceId),
      db.capabilityAt request.capabilityUri with
  | some space, some row =>
      (directory.stores.find? (·.id = space.storeId)).map fun store =>
        evaluateRiskTierPolicy (orElse row.cap.riskTier.text "unknown") store.kind.text
  | _, _ => none

/-- The gate checks of an approval, with the gates to store. -/
def checkGates (p : Platform) (db : Database) (call : ApproveCall) (request : PromotionRequest)
    (view : GateView) : Except Failure Gates := do
  let override := call.overridePendingGates
  let risk := riskTierGate db call.directory request
  let injection := call.runner.injection request.capabilityUri request.targetNamespaceId
  let gates := match risk with
    | some (ok, _) => view.gates.set .riskTierPolicy (if ok then .passed else .failed)
    | none => view.gates
  if !view.pending.isEmpty && !override then
    .error (.permission ("Promotion gates still pending: " ++ join ", " view.pending ++
      ". Re-approve with overridePendingGates=true to force."))
  else do
    if p.production then checkProduction db request.capabilityUri view
    if risk.any (!·.1) && !override then
      .error (.permission ("riskTierPolicy gate failed: " ++ (risk.map (·.2)).getD "" ++
        ". Request state remains pending — use overridePendingGates=true to force."))
    else if injection.1 = .failed && !override then
      .error (.permission ("promptInjectionScan gate failed: " ++ injection.2 ++
        ". Request state remains pending — use overridePendingGates=true to force."))
    else if !view.failed.isEmpty && !override then
      .error (.permission ("Promotion gate(s) failed: " ++
        join ", " (view.failed.map (·.text)) ++
        ". Request state remains pending — use overridePendingGates=true to force."))
    else .ok (gates.set .promptInjectionScan injection.1)

/-- The URI and the store a promotion moves its capability to. -/
def promotedAddress (p : Platform) (db : Database) (directory : Directory)
    (request : PromotionRequest) : Except Failure (String × Option String) :=
  let row := db.capabilityAt request.capabilityUri
  match directory.namespaces.find? (·.id = request.targetNamespaceId), row with
  | some space, some row =>
      let uri := String.ofList (rstrip (· = '/') space.uriPrefix.toList) ++ "/" ++
        row.cap.capabilityType.text ++ "/" ++ slugify p (optOr row.cap.plugin "global") ++ "." ++
        slugify p row.cap.name ++ "@" ++ row.cap.version
      if uri ≠ request.capabilityUri && (db.capabilityAt uri).isSome then
        .error (.value ("Promotion target URI already exists: " ++ uri))
      else .ok (uri, some space.storeId)
  | space, row =>
      if p.production then
        .error (.value "Promotion source capability or target namespace is missing.")
      else .ok (request.capabilityUri,
        match space with
        | some space => some space.storeId
        | none => row.bind (·.cap.storeId))

/-- The columns an approved promotion sets. -/
def Capability.approvedInto (storeId : Option String) (namespaceId : String) (cap : Capability) :
    Capability :=
  { cap with
    approvalState := .approved
    lifecycle := if cap.lifecycle = .draft || cap.lifecycle = .published then .published
      else cap.lifecycle
    storeId
    namespaceId := some namespaceId
    promotedFromUri := some (cap.promotedFromUri.getD cap.uri)
    signatureStatus := if cap.signatureStatus = .unchecked then .pending else cap.signatureStatus
    provenanceStatus :=
      if cap.provenanceStatus = .unchecked then .pending else cap.provenanceStatus
    riskReviewStatus :=
      if cap.riskReviewStatus = .pending then .approved else cap.riskReviewStatus }

/-- Change one promotion request. -/
def Database.setRequest (db : Database) (id : String)
    (change : PromotionRequest → PromotionRequest) (hchange : ∀ r, (change r).id = r.id) :
    Database :=
  { db with
    requests := db.requests.map (fun request => if request.id = id then change request else request)
      fun a b h => by
        have hid : ∀ r : PromotionRequest, (if r.id = id then change r else r).id = r.id := by
          intro r
          split
          · exact hchange r
          · rfl
        exact (hid a).symm.trans (Eq.trans h (hid b)) }

/-- Move a promoted capability and what refers to it to its new URI. -/
def remint (db : Database) (tenant requestId old new : String) : Except Failure Database :=
  if new = old then .ok db
  else do
    let capabilities ← constrained "capabilities.uri" (db.capabilities.update? fun row =>
      row.moved (renamed old new row.cap.uri))
    let tuples ← constrained "relationship_tuples.object" (db.tuples.update? fun tuple =>
      if tuple.tenantId = tenant then { tuple with object := renamed old new tuple.object }
      else tuple)
    let moved := (capabilities.find? (·.cap.uri = new)).map (·.id)
    .ok (({ db with
      capabilities
      tuples
      sources := db.sources.map
        (fun source => { source with uri := renamed old new source.uri }) fun _ _ h => h
      fts := db.fts.map
        (fun row => { row with uri := if moved = some row.rowid then new else row.uri })
        fun _ _ h => h
      shares := db.shares.map
        (fun share => { share with capabilityUri := renamed old new share.capabilityUri })
        fun _ _ h => h }).setRequest requestId (fun request => { request with capabilityUri := new })
      fun _ => rfl)

/-- The writes of an approval. -/
def promote (p : Platform) (db : Database) (call : ApproveCall) (request : PromotionRequest)
    (view : GateView) : Except Failure Database := do
  let gates ← checkGates p db call request view
  let (uri, storeId) ← promotedAddress p db call.directory request
  let decided := db.setRequest request.id
    (fun row =>
      { row with gates := if gates.isEmpty then row.gates else some gates, state := .approved })
    fun _ => rfl
  let approved := decided.amendCapabilities (·.uri = request.capabilityUri)
    (Capability.approvedInto storeId request.targetNamespaceId) fun _ => ⟨rfl, rfl, rfl, rfl⟩
  remint approved (p.tenantOr call.principal.tenantId) request.id request.capabilityUri uri

/-- `approve_request`. The gate states the runner found stay even when a refusal follows. -/
def approveRequest (p : Platform) (db : Database) (call : ApproveCall) :
    Database × Except Failure Unit :=
  match call.decision with
  | none => (db, .error (.value "Unsupported approval decision."))
  | some decision =>
      if !call.access.allowed then (db, .error (.permission call.access.reason))
      else match db.requests.find? fun request => request.id = call.requestId &&
          request.tenantId = p.tenantOr call.principal.tenantId with
        | none => (db, .error (.value "Promotion request not found."))
        | some request =>
            if decision = .approve then
              match approvalView p db call request with
              | .error failure => (db, .error failure)
              | .ok (view, evaluated) =>
                  let db := if evaluated then
                      db.setRequest request.id (fun row => { row with gates := some view.gates })
                        fun _ => rfl
                    else db
                  match promote p db call request view with
                  | .error failure => (db, .error failure)
                  | .ok result => (result, .ok ())
            else
              ((db.setRequest request.id
                  (fun row => { row with state := decision.requestState })
                  fun _ => rfl).amendCapabilities (·.uri = request.capabilityUri)
                (fun cap => { cap with approvalState := decision.approvalState })
                fun _ => ⟨rfl, rfl, rfl, rfl⟩, .ok ())

/-- Whether an approval is allowed and passes the gates of its request. -/
def ApproveCall.Passes (p : Platform) (db : Database) (call : ApproveCall)
    (request : PromotionRequest) : Prop :=
  call.access.allowed = true ∧ ∃ view evaluated gates,
    approvalView p db call request = .ok (view, evaluated) ∧
      checkGates p db call request view = .ok gates

/-- The arguments of `create_share`, the decisions it asks for, and the ids it draws. -/
structure ShareCall where
  principal : Principal
  capabilityUri : String
  rights : List String := ["discover", "load", "call"]
  subjectType : String := "user"
  subjectId : String
  expiresAt : Option String := none
  access : Access
  grant : String → Access
  shareId : String
  tupleIds : String → String

/-- `INSERT OR IGNORE` of the relationship of one shared right. -/
def grantRight (tenant : String) (call : ShareCall) (tuples : Table RelationshipTuple)
    (right : String) : Table RelationshipTuple :=
  (tuples.insert? ⟨call.tupleIds right, tenant, call.capabilityUri, right,
    call.subjectType ++ ":" ++ call.subjectId, "share"⟩).getD tuples

/-- The identity `ensure_identity_for_principal` returns. -/
def ensureIdentityForPrincipal (p : Platform) (principal : Principal) : String :=
  optOr principal.identityId (p.stableId "idn" [p.tenantOr principal.tenantId,
    String.ofList (principal.subject.toList.take 256)])

/-- The row `create_share` inserts. -/
def ShareCall.row (p : Platform) (call : ShareCall) : ShareRow where
  id := call.shareId
  tenantId := p.tenantOr call.principal.tenantId
  capabilityUri := call.capabilityUri
  fromIdentityId := some (ensureIdentityForPrincipal p call.principal)
  subjectType := call.subjectType
  subjectId := call.subjectId
  rights := call.rights
  state := .active
  expiresAt := call.expiresAt
  revoked := false

/-- `create_share`. -/
def createShare (p : Platform) (db : Database) (call : ShareCall) : Except Failure Database :=
  let tenant := p.tenantOr call.principal.tenantId
  if call.capabilityUri = "" then .error (.value "capabilityUri is required.")
  else match db.capabilityAt call.capabilityUri with
    | none => .error (.value "Capability not found.")
    | some row =>
        if row.cap.tenantId ≠ tenant then .error (.value "Capability not found.")
        else if !call.access.allowed then .error (.permission call.access.reason)
        else if call.rights.isEmpty || call.rights.any (!accessRights.contains ·) then
          .error (.value "rights contains an unsupported right.")
        else match call.rights.find? (fun right => !(call.grant right).allowed) with
          | some right => .error (.permission
              ("Cannot share " ++ p.repr right ++ ": " ++ (call.grant right).reason))
          | none =>
              if call.subjectId = "" then .error (.value "subjectId is required.")
              else do
                let shares ← constrained "shares.id" (db.shares.insert? (call.row p))
                .ok (({ db with
                  shares
                  tuples := call.rights.foldl (grantRight tenant call) db.tuples
                  }).amendCapabilities (·.uri = call.capabilityUri)
                    (fun cap => { cap with shareState := .shared }) fun _ => ⟨rfl, rfl, rfl, rfl⟩)

section

variable {p : Platform} {db result : Database} {other : Database} {request : PromotionRequest}
variable {call : ApproveCall}

/-- The rows of a table after a change of columns. -/
theorem mem_amend_capabilities {selects : Capability → Bool} {change : Capability → Capability}
    {hchange : KeepsIdentity change} (x : CapabilityRow) :
    x ∈ (db.amendCapabilities selects change hchange).capabilities ↔
      ∃ y ∈ db.capabilities, y.amend selects change = x :=
  Table.mem_map (amend_conflict hchange) x

/-- What an approval makes of a row: at the request's URI the columns of a promotion and the new
address. -/
def CapabilityRow.promoted (request : PromotionRequest) (uri : String) (storeId : Option String)
    (row : CapabilityRow) : CapabilityRow :=
  if row.cap.uri = request.capabilityUri then
    { row with cap :=
      { Capability.approvedInto storeId request.targetNamespaceId row.cap with uri } }
  else row

theorem remint_ok {tenant requestId old new : String}
    (h : remint db tenant requestId old new = .ok result) :
    result.quarantine = db.quarantine ∧ ∀ x, x ∈ result.capabilities ↔
      ∃ y ∈ db.capabilities, y.moved (renamed old new y.cap.uri) = x := by
  unfold remint at h
  split at h
  · rename_i hsame
    cases h
    subst hsame
    have hstays : ∀ uri, renamed new new uri = uri := by
      intro uri
      unfold renamed
      split
      · exact Eq.symm ‹_›
      · rfl
    exact ⟨rfl, fun x => ⟨fun hx => ⟨x, hx, by simp [hstays]⟩, by
      rintro ⟨y, hy, rfl⟩
      simpa [hstays] using hy⟩⟩
  · obtain ⟨capabilities, hcapabilities, h⟩ := bind_eq_ok h
    obtain ⟨tuples, -, h⟩ := bind_eq_ok h
    cases h
    exact ⟨rfl, fun x => Table.mem_update? (constrained_ok hcapabilities) x⟩

theorem capability_at_congr (h : other.capabilities = db.capabilities) :
    other.capabilityAt = db.capabilityAt := by
  funext uri
  simp only [Database.capabilityAt, h]

/-- The address of a promotion depends on the capability rows alone. -/
theorem promoted_address_congr (h : other.capabilities = db.capabilities) {directory : Directory} :
    promotedAddress p other directory request = promotedAddress p db directory request := by
  unfold promotedAddress
  rw [capability_at_congr h]

theorem check_gates_congr (h : other.capabilities = db.capabilities) {view : GateView} :
    checkGates p other call request view = checkGates p db call request view := by
  unfold checkGates riskTierGate checkProduction
  rw [capability_at_congr h]

theorem promote_ok {view : GateView} (h : promote p db call request view = .ok result) :
    ∃ gates uri storeId, checkGates p db call request view = .ok gates ∧
      promotedAddress p db call.directory request = .ok (uri, storeId) ∧
      result.quarantine = db.quarantine ∧ ∀ x, x ∈ result.capabilities ↔
        ∃ y ∈ db.capabilities, y.promoted request uri storeId = x := by
  unfold promote at h
  obtain ⟨gates, hgates, h⟩ := bind_eq_ok h
  obtain ⟨⟨uri, storeId⟩, haddress, h⟩ := bind_eq_ok h
  obtain ⟨hquarantine, hrows⟩ := remint_ok h
  refine ⟨gates, uri, storeId, hgates, haddress, hquarantine, fun x => ?_⟩
  rw [hrows]
  -- The change of columns and the move are one function of the row.
  have hrow : ∀ y : CapabilityRow, (y.amend (·.uri = request.capabilityUri)
        (Capability.approvedInto storeId request.targetNamespaceId)).moved
        (renamed request.capabilityUri uri (y.amend (·.uri = request.capabilityUri)
          (Capability.approvedInto storeId request.targetNamespaceId)).cap.uri) =
      y.promoted request uri storeId := by
    intro y
    unfold CapabilityRow.amend CapabilityRow.promoted renamed CapabilityRow.moved
    by_cases huri : y.cap.uri = request.capabilityUri
    · simp [huri, Capability.approvedInto]
    · simp [huri]
  constructor
  · rintro ⟨y, hy, rfl⟩
    obtain ⟨z, hz, rfl⟩ := (mem_amend_capabilities y).mp hy
    exact ⟨z, hz, (hrow z).symm⟩
  · rintro ⟨z, hz, rfl⟩
    exact ⟨_, (mem_amend_capabilities _).mpr ⟨z, hz, rfl⟩, hrow z⟩

/-- What `approve_request` does: nothing to the rows, one approval state, or one promotion. -/
theorem approve_request_cases {outcome : Except Failure Unit}
    (h : approveRequest p db call = (result, outcome)) :
    result.quarantine = db.quarantine ∧
    (result.capabilities = db.capabilities ∨
      ∃ request ∈ db.requests, outcome = .ok () ∧ request.id = call.requestId ∧
        ((∃ decision, call.decision = some decision ∧ decision ≠ .approve ∧
          ∀ x, x ∈ result.capabilities ↔ ∃ y ∈ db.capabilities,
            y.amend (·.uri = request.capabilityUri)
              (fun cap => { cap with approvalState := decision.approvalState }) = x) ∨
        (call.decision = some .approve ∧ call.Passes p db request ∧ ∃ uri storeId,
          promotedAddress p db call.directory request = .ok (uri, storeId) ∧
          ∀ x, x ∈ result.capabilities ↔
            ∃ y ∈ db.capabilities, y.promoted request uri storeId = x))) := by
  unfold approveRequest at h
  split at h
  · cases h
    exact ⟨rfl, .inl rfl⟩
  rename_i decision hdecision
  split at h
  · cases h
    exact ⟨rfl, .inl rfl⟩
  rename_i hallowed
  split at h
  · cases h
    exact ⟨rfl, .inl rfl⟩
  rename_i request hfind
  obtain ⟨hrequest, hid⟩ := Table.find?_some hfind
  have hid : request.id = call.requestId := by
    simp only [Bool.and_eq_true, decide_eq_true_eq] at hid
    exact hid.1
  split at h
  · rename_i happrove
    subst happrove
    split at h
    · cases h
      exact ⟨rfl, .inl rfl⟩
    · rename_i view evaluated hview
      -- Storing the evaluated gates leaves the rows as they are.
      have hsame : ∀ stored : Database, stored.capabilities = db.capabilities →
          stored.quarantine = db.quarantine →
          (match promote p stored call request view with
            | .error failure => (stored, .error failure)
            | .ok result => (result, .ok ())) = (result, outcome) →
          result.quarantine = db.quarantine ∧ (result.capabilities = db.capabilities ∨
            outcome = .ok () ∧ call.Passes p db request ∧ ∃ uri storeId,
              promotedAddress p db call.directory request = .ok (uri, storeId) ∧
              ∀ x, x ∈ result.capabilities ↔
                ∃ y ∈ db.capabilities, y.promoted request uri storeId = x) := by
        intro stored hcapabilities hquarantine hpromote
        split at hpromote
        · cases hpromote
          exact ⟨hquarantine, .inl hcapabilities⟩
        · rename_i promoted hok
          cases hpromote
          obtain ⟨gates, uri, storeId, hgates, haddress, hkept, hrows⟩ := promote_ok hok
          rw [hcapabilities] at hrows
          rw [check_gates_congr hcapabilities] at hgates
          rw [promoted_address_congr hcapabilities] at haddress
          exact ⟨hkept.trans hquarantine, .inr ⟨rfl,
            ⟨by simpa using hallowed, view, evaluated, gates, hview, hgates⟩,
            uri, storeId, haddress, hrows⟩⟩
      dsimp only at h
      obtain ⟨hquarantine, hrows⟩ := hsame (if evaluated then
          db.setRequest request.id (fun row => { row with gates := some view.gates })
            fun _ => rfl
        else db) (by split <;> rfl) (by split <;> rfl) h
      refine ⟨hquarantine, hrows.imp_right ?_⟩
      rintro ⟨houtcome, hpasses, uri, storeId, haddress, hrows⟩
      exact ⟨request, hrequest, houtcome, hid,
        .inr ⟨hdecision, hpasses, uri, storeId, haddress, hrows⟩⟩
  · rename_i hother
    cases h
    exact ⟨rfl, .inr ⟨request, hrequest, rfl, hid, .inl ⟨decision, hdecision, hother,
      fun x => mem_amend_capabilities x⟩⟩⟩

/-- What a successful submission does: the row at its URI is pending. -/
theorem submit_promotion_ok {call : SubmitCall} (h : submitPromotion p db call = .ok result) :
    result.quarantine = db.quarantine ∧ ∀ x, x ∈ result.capabilities ↔ ∃ y ∈ db.capabilities,
      y.amend (·.uri = call.capabilityUri) (fun cap => { cap with
        submittedBy := some call.principal.subject, approvalState := .pending }) = x := by
  unfold submitPromotion at h
  dsimp only at h
  split at h
  · cases h
  split at h
  · cases h
  split at h
  · cases h
  split at h
  · cases h
  obtain ⟨-, -, h⟩ := bind_eq_ok h
  obtain ⟨requests, -, h⟩ := bind_eq_ok h
  cases h
  exact ⟨rfl, fun x => mem_amend_capabilities x⟩

/-- What a successful share checked and wrote. -/
theorem create_share_writes {call : ShareCall} (h : createShare p db call = .ok result) :
    ∃ row shares, call.capabilityUri ≠ "" ∧ db.capabilityAt call.capabilityUri = some row ∧
      row.cap.tenantId = p.tenantOr call.principal.tenantId ∧
      (∀ right ∈ call.rights, right ∈ accessRights ∧ (call.grant right).allowed = true) ∧
      db.shares.insert? (call.row p) = some shares ∧
      result = ({ db with
        shares
        tuples := call.rights.foldl (grantRight (p.tenantOr call.principal.tenantId) call) db.tuples
        }).amendCapabilities (·.uri = call.capabilityUri)
          (fun cap => { cap with shareState := .shared }) fun _ => ⟨rfl, rfl, rfl, rfl⟩ := by
  unfold createShare at h
  dsimp only at h
  split at h
  · cases h
  rename_i haddressed
  split at h
  · cases h
  rename_i row hrow
  split at h
  · cases h
  rename_i htenant
  split at h
  · cases h
  split at h
  · cases h
  rename_i hsupported
  split at h
  · cases h
  rename_i hgranted
  split at h
  · cases h
  obtain ⟨shares, hshares, h⟩ := bind_eq_ok h
  cases h
  refine ⟨row, shares, haddressed, hrow, not_not.mp htenant, fun right hright => ⟨?_, ?_⟩,
    constrained_ok hshares, rfl⟩
  · simp only [Bool.or_eq_true, not_or, List.any_eq_true, not_exists, not_and] at hsupported
    simpa using hsupported.2 right hright
  · simpa using List.find?_eq_none.mp hgranted right hright

/-- What a successful share does: the row at its URI is shared. -/
theorem create_share_ok {call : ShareCall} (h : createShare p db call = .ok result) :
    result.quarantine = db.quarantine ∧ ∀ x, x ∈ result.capabilities ↔ ∃ y ∈ db.capabilities,
      y.amend (·.uri = call.capabilityUri) (fun cap => { cap with shareState := .shared }) = x := by
  obtain ⟨-, -, -, -, -, -, -, rfl⟩ := create_share_writes h
  exact ⟨rfl, fun x => mem_amend_capabilities x⟩

theorem review_capability_ok {call : ReviewCall} {gates : Gates}
    (h : reviewCapability p db call = .ok (gates, result)) :
    result = db ∨ ∃ cap, reviewGates p db call = .ok (cap, gates) ∧ call.dryRun = false ∧
      allPassed gates = true ∧ result.quarantine = db.quarantine ∧
      ∀ x, x ∈ result.capabilities ↔ ∃ y ∈ db.capabilities,
        y.amend (fun row => row.uri = cap.uri && row.contentHash = cap.contentHash)
          Capability.reviewed = x := by
  unfold reviewCapability at h
  obtain ⟨⟨cap, evaluated⟩, hgates, h⟩ := bind_eq_ok h
  dsimp only at h
  split at h
  · cases h
    exact .inl rfl
  · rename_i happroved
    cases h
    simp only [Bool.or_eq_true, Bool.not_eq_true', not_or, Bool.not_eq_true, Bool.not_eq_false]
      at happroved
    exact .inr ⟨cap, hgates, happroved.1, happroved.2, rfl, fun x => mem_amend_capabilities x⟩

end

end Capmesh
