import Capmesh.Governance.Gates

/-!
# The review of one capability

`review_capability` of `lifecycle.py` as its callers run it: `_authorize` on the tenant,
`_scope_for` with a requested scope, and `_evaluate` with `persist_signature`, which writes
the signing key of a review that is not a dry run. The verdict of a review depends on columns
no review writes: `review_gates_reviewed` says that reviewing other capabilities, or the same
one again, leaves it as it was. `all_passed_iff_key_loads` separates the one gate that tells a
dry run from a real one.
-/

namespace Capmesh

open Python Relational

/-- What the lifecycle runs on: the database, the files and the signing key, the directory, the
cache of organization lookups, and the id drawn for the review of an identifier. -/
structure Reviewing where
  db : Database
  host : GateHost
  directory : Directory
  orgCache : String → String → Option (Option String)
  reviewIds : String → String

/-- The options of a review's payload. -/
structure ReviewOptions where
  targetNamespaceId : Option String := none
  reviewScope : Option String := none
  approvedRiskException : Bool := false
  deriving DecidableEq, Repr

/-- The review scope a text names. -/
def ReviewScope.parse (text : String) : Option ReviewScope :=
  [ReviewScope.private, .org, .allUsers].find? (·.text = text)

/-- `_scope_for`. -/
def requestedScope (p : Platform) (directory : Directory) (cap : Capability)
    (options : ReviewOptions) : Except Failure (ReviewScope × Option String) :=
  if present options.reviewScope then
    let normalized := String.ofList ((p.lower (p.stripSpace (options.reviewScope.getD ""))).toList.map
      fun c => if c = '-' then '_' else c)
    match ReviewScope.parse normalized with
    | some scope => .ok (scope, options.targetNamespaceId)
    | none => .error (.value "reviewScope must be private, org, or all_users.")
  else .ok (scopeFor directory cap options.targetNamespaceId)

/-- The signature gate of a review that keeps its key. -/
def keptSignatureGate (p : Platform) (host : GateHost) (envelope : Json) : Gate :=
  match signAttestation p host.crypto host.keys envelope true host.freshKey with
  | .ok _ => ⟨.passed, "ed25519_signature_verified"⟩
  | .error _ => ⟨.failed, "signature_unavailable"⟩

/-- `_evaluate` with `persist_signature`. -/
def evaluateReview (p : Platform) (host : GateHost) (persist : Bool) (db : Database)
    (cap : Capability) (scope : ReviewScope) (target : Option String) (reviewer : String)
    (approvedException : Bool) : Except Failure (List (GateName × Gate)) :=
  (evaluateGates p host db cap scope target reviewer approvedException).map fun gates =>
    if persist then
      gates.map fun gate =>
        if gate.1 = .signature then
          (.signature, keptSignatureGate p host
            (attestationEnvelope p cap scope target reviewer host.now))
        else gate
    else gates

/-- The host after a review signed: a real review may have written the key file. -/
def GateHost.signed (p : Platform) (host : GateHost) (persist : Bool) : GateHost :=
  match host.keys.loadOrCreateSigningKey p persist host.freshKey with
  | .ok (_, keys) => { host with keys }
  | .error _ => host

namespace Reviewing

variable (p : Platform) (ctx : Reviewing) (principal : Principal) (options : ReviewOptions)

/-- What `evaluate_access` reads. -/
def accessContext : AccessContext := ⟨ctx.db, ctx.directory, ctx.orgCache, ctx.host.now⟩

/-- The decision `_authorize` asks for on the principal's tenant. -/
def access (right : String) : Access :=
  evaluateAccess p ctx.accessContext
    { principal, right, resourceUri := some ("tenant:" ++ orElse principal.tenantId "asg") }

/-- Whether `_authorize` lets a principal pass. -/
def Authorizes : Prop :=
  (ctx.access p principal "manage").allowed = true ∧
    (ctx.access p principal "approve").allowed = true

instance : Decidable (ctx.Authorizes p principal) := inferInstanceAs (Decidable (_ ∧ _))

/-- The gate runner of a review. -/
def runner (persist : Bool) : GateRunner where
  evaluate cap := do
    let (scope, target) ← requestedScope p ctx.directory cap options
    (evaluateReview p ctx.host persist ctx.db cap scope target principal.subject
      options.approvedRiskException).map (·.map fun gate => (gate.1, gate.2.state))
  injection := evaluatePromptInjectionScan p ctx.db ctx.directory

/-- The call of `review_capability` on an identifier. -/
def call (identifier : String) (dryRun : Bool) : ReviewCall where
  principal
  identifier
  dryRun
  manage := ctx.access p principal "manage"
  approve := ctx.access p principal "approve"
  runner := ctx.runner p principal options !dryRun
  scope cap := match requestedScope p ctx.directory cap options with
    | .ok (scope, _) => scope.text
    | .error _ => ""
  reviewId := ctx.reviewIds identifier

end Reviewing

/-- The result of a review. -/
structure Review where
  capabilityUri : String
  contentHash : String
  dryRun : Bool
  gates : Gates
  deriving DecidableEq, Repr

/-- Whether a review passed. -/
def Review.passed (review : Review) : Bool := allPassed review.gates

/-- Whether a review approved its capability. -/
def Review.approved (review : Review) : Bool := !review.dryRun && review.passed

/-- `review_capability` on the lifecycle's own gates. -/
def lifecycleReview (p : Platform) (ctx : Reviewing) (principal : Principal)
    (options : ReviewOptions) (identifier : String) (dryRun : Bool) :
    Except Failure (Review × Reviewing) := do
  let call := ctx.call p principal options identifier dryRun
  let (cap, gates) ← reviewGates p ctx.db call
  let (_, db) ← reviewCapability p ctx.db call
  .ok (⟨cap.uri, cap.contentHash, dryRun, gates⟩,
    { ctx with db, host := ctx.host.signed p !dryRun })

/-- Whether a signing key can be loaded, and written first where it has to be. -/
def GateHost.KeyLoads (p : Platform) (host : GateHost) (persist : Bool) : Prop :=
  ∃ loaded, host.keys.loadOrCreateSigningKey p persist host.freshKey = .ok loaded

/-- The gates of a capability that do not depend on the signing key. -/
def ContentPasses (p : Platform) (host : GateHost) (db : Database) (cap : Capability)
    (scope : ReviewScope) (target : Option String) (reviewer : String)
    (approvedException : Bool) : Prop :=
  ∀ name ≠ .signature,
    evaluatedState (evaluateGates p host db cap scope target reviewer approvedException) name =
        some .passed ∨
      name = .provenance ∧
        evaluatedState (evaluateGates p host db cap scope target reviewer approvedException) name =
          some .skipped

section

variable {p : Platform} {host : GateHost} {db : Database} {cap : Capability} {scope : ReviewScope}
variable {target : Option String} {reviewer : String} {approvedException persist : Bool}

theorem signature_gate_passed_iff (envelope : Json) :
    (signatureGate p host envelope).state = .passed ↔ host.KeyLoads p false := by
  unfold signatureGate
  constructor
  · intro h
    split at h
    · rename_i signed hsigned
      obtain ⟨privateKey, hload, -⟩ := sign_attestation_ok hsigned
      exact ⟨_, hload⟩
    · cases h
  · rintro ⟨⟨privateKey, keys⟩, hload⟩
    obtain ⟨signed, hsigned, -⟩ := sign_attestation_of_load host.crypto envelope hload
    rw [hsigned]

theorem kept_signature_gate_passed_iff (envelope : Json) :
    (keptSignatureGate p host envelope).state = .passed ↔ host.KeyLoads p true := by
  unfold keptSignatureGate
  constructor
  · intro h
    split at h
    · rename_i signed hsigned
      obtain ⟨privateKey, hload, -⟩ := sign_attestation_ok hsigned
      exact ⟨_, hload⟩
    · cases h
  · rintro ⟨⟨privateKey, keys⟩, hload⟩
    obtain ⟨signed, hsigned, -⟩ := sign_attestation_of_load host.crypto envelope hload
    rw [hsigned]

/-- A key that can be kept can be used. -/
theorem GateHost.KeyLoads.used (h : host.KeyLoads p true) : host.KeyLoads p false := by
  obtain ⟨⟨privateKey, keys⟩, hload⟩ := h
  obtain ⟨hpath, ⟨hfile, -⟩ | ⟨hfile, hproduction, -⟩⟩ := load_signing_key_cases hload
  · exact ⟨(privateKey, host.keys), by
      simp [KeyStore.loadOrCreateSigningKey, hpath, hfile, bind, Except.bind]⟩
  · exact ⟨(host.freshKey, host.keys), by
      simp [KeyStore.loadOrCreateSigningKey, hpath, hfile, hproduction, bind, Except.bind]⟩

/-- Signing leaves a loadable key loadable. -/
theorem key_loads_signed : (host.signed p persist).KeyLoads p persist ↔ host.KeyLoads p persist := by
  unfold GateHost.signed
  cases hload : host.keys.loadOrCreateSigningKey p persist host.freshKey with
  | error failure => rfl
  | ok loaded =>
      obtain ⟨privateKey, keys⟩ := loaded
      obtain ⟨again, hagain⟩ := load_again host.freshKey hload
      exact ⟨fun _ => ⟨_, hload⟩, fun _ => ⟨again, hagain⟩⟩

theorem all_passed_iff {gates : Gates} : allPassed gates = true ↔ ∀ name,
    gates.get? name = some .passed ∨ name = .provenance ∧ gates.get? name = some .skipped := by
  constructor
  · exact fun h name => all_passed_state h name
  · intro h
    unfold allPassed
    rw [List.all_eq_true]
    intro name _
    simpa using h name

theorem evaluate_review_state {name : GateName} (hname : name ≠ .signature) :
    evaluatedState (evaluateReview p host persist db cap scope target reviewer approvedException)
        name =
      evaluatedState (evaluateGates p host db cap scope target reviewer approvedException) name := by
  cases persist with
  | false =>
      unfold evaluateReview
      cases evaluateGates p host db cap scope target reviewer approvedException <;> rfl
  | true =>
      unfold evaluateReview evaluateGates
      cases evaluateSource p host cap (promptInjectionGate p) with
      | error failure => rfl
      | ok source =>
          cases name with
          | signature => exact absurd rfl hname
          | sourceIntegrity | tests | retrievalEvals | provenance | promptInjectionScan
          | riskTierPolicy => rfl

theorem evaluate_review_iff :
    (∃ gates, evaluateReview p host persist db cap scope target reviewer approvedException =
        .ok gates) ↔ SourceReads p host cap := by
  rw [← @evaluate_gates_iff p host db cap approvedException scope target reviewer]
  unfold evaluateReview
  cases evaluateGates p host db cap scope target reviewer approvedException with
  | error failure => simp [Except.map]
  | ok gates => simp [Except.map]

theorem evaluate_review_signature {evaluated : List (GateName × Gate)}
    (h : evaluateReview p host persist db cap scope target reviewer approvedException =
      .ok evaluated) :
    evaluatedState (.ok evaluated) .signature = some .passed ↔ host.KeyLoads p persist := by
  unfold evaluateReview evaluateGates at h
  cases hsource : evaluateSource p host cap (promptInjectionGate p) with
  | error failure =>
      rw [hsource] at h
      cases h
  | ok source =>
      rw [hsource] at h
      cases h
      cases persist with
      | false => exact Option.some_inj.trans (signature_gate_passed_iff _)
      | true => exact Option.some_inj.trans (kept_signature_gate_passed_iff _)

theorem all_passed_iff_key_loads {evaluated : List (GateName × Gate)}
    (hevaluated : evaluateReview p host persist db cap scope target reviewer approvedException =
      .ok evaluated) :
    allPassed (evaluated.map fun gate => (gate.1, gate.2.state)) = true ↔
      host.KeyLoads p persist ∧
        ContentPasses p host db cap scope target reviewer approvedException := by
  have hstates : ∀ name ≠ .signature, evaluatedState (.ok evaluated) name =
      evaluatedState (evaluateGates p host db cap scope target reviewer approvedException) name := by
    intro name hname
    rw [← hevaluated, evaluate_review_state hname]
  rw [all_passed_iff]
  simp only [get?_states]
  constructor
  · intro h
    refine ⟨(evaluate_review_signature hevaluated).mp ((h .signature).resolve_right (by simp)), ?_⟩
    intro name hname
    have hstate := h name
    rwa [hstates name hname] at hstate
  · rintro ⟨hkey, hcontent⟩ name
    by_cases hname : name = .signature
    · subst hname
      exact .inl ((evaluate_review_signature hevaluated).mpr hkey)
    · rw [hstates name hname]
      exact hcontent name hname

theorem ContentPasses.reads (h : ContentPasses p host db cap scope target reviewer
    approvedException) : SourceReads p host cap := by
  refine (@evaluate_gates_iff p host db cap approvedException scope target reviewer).mp ?_
  cases hgates : evaluateGates p host db cap scope target reviewer approvedException with
  | ok gates => exact ⟨gates, rfl⟩
  | error failure =>
      have hintegrity := h .sourceIntegrity (by decide)
      rw [hgates] at hintegrity
      simp [evaluatedState] at hintegrity

end

/-- A capability after the reviews of some URIs passed. -/
def Capability.reviewedIn (targets : List String) (cap : Capability) : Capability :=
  if targets.contains cap.uri then cap.reviewed else cap

/-- A row after the reviews of some URIs passed. -/
def CapabilityRow.reviewedIn (targets : List String) (row : CapabilityRow) : CapabilityRow :=
  { row with cap := row.cap.reviewedIn targets }

/-- A lifecycle that differs from another by the passed reviews of some URIs: their rows are
approved, reviews were recorded, and the signing key may have been written. -/
structure ReviewedFrom (p : Platform) (start ctx : Reviewing) (targets : List String) : Prop where
  rows : ctx.db.capabilities.rows = start.db.capabilities.rows.map (·.reviewedIn targets)
  database : ctx.db = { start.db with
    capabilities := ctx.db.capabilities, reviews := ctx.db.reviews }
  host : ctx.host = { start.host with keys := ctx.host.keys }
  keys : ctx.host.KeyLoads p true ↔ start.host.KeyLoads p true
  rest : ctx = { start with db := ctx.db, host := ctx.host }

section

variable {p : Platform} {start ctx : Reviewing} {targets : List String} {principal : Principal}
variable {options : ReviewOptions} {row : CapabilityRow} {cap : Capability} {uri : String}

@[simp] theorem reviewed_in_uri : (cap.reviewedIn targets).uri = cap.uri := by
  unfold Capability.reviewedIn
  split <;> rfl

@[simp] theorem reviewed_in_tenant : (cap.reviewedIn targets).tenantId = cap.tenantId := by
  unfold Capability.reviewedIn
  split <;> rfl

@[simp] theorem reviewed_in_hash : (cap.reviewedIn targets).contentHash = cap.contentHash := by
  unfold Capability.reviewedIn
  split <;> rfl

theorem ReviewedFrom.refl (start : Reviewing) : ReviewedFrom p start start [] where
  rows := (List.map_id _).symm
  database := rfl
  host := rfl
  keys := Iff.rfl
  rest := rfl

/-- The row a text names, after reviews. -/
theorem lookup_reviewed (h : ReviewedFrom p start ctx targets) (text : String) :
    ctx.db.lookup text = (start.db.lookup text).map (·.reviewedIn targets) := by
  have hname : ∀ row : CapabilityRow, (row.reviewedIn targets).cap.name = row.cap.name ∧
      (row.reviewedIn targets).cap.title = row.cap.title ∧
      (row.reviewedIn targets).cap.sourceSystem = row.cap.sourceSystem := by
    intro row
    unfold CapabilityRow.reviewedIn Capability.reviewedIn
    split <;> exact ⟨rfl, rfl, rfl⟩
  have hnamed : (ctx.db.capabilities.rows.filter fun row =>
        row.cap.name = text || row.cap.title = text) =
      (start.db.capabilities.rows.filter fun row =>
        row.cap.name = text || row.cap.title = text).map (·.reviewedIn targets) := by
    rw [h.rows, List.filter_map]
    congr 1
    refine List.filter_congr fun row _ => ?_
    simp only [Function.comp_apply, (hname row).1, (hname row).2.1]
  have hat : ctx.db.capabilityAt text =
      (start.db.capabilityAt text).map (·.reviewedIn targets) := by
    unfold Database.capabilityAt Table.find?
    rw [h.rows, List.find?_map]
    congr 2
    funext row
    simp [CapabilityRow.reviewedIn]
  have hpreferred : ((start.db.capabilities.rows.filter fun row =>
        row.cap.name = text || row.cap.title = text).map (·.reviewedIn targets)).find?
        (·.cap.sourceSystem = "asg-os.plugins") =
      ((start.db.capabilities.rows.filter fun row =>
        row.cap.name = text || row.cap.title = text).find?
        (·.cap.sourceSystem = "asg-os.plugins")).map (·.reviewedIn targets) := by
    rw [List.find?_map]
    congr 2
    funext row
    simp only [Function.comp_apply, (hname row).2.2]
  unfold Database.lookup
  rw [hat]
  cases start.db.capabilityAt text with
  | some row => rfl
  | none =>
      simp only [Option.map_none, hnamed, hpreferred]
      cases (start.db.capabilities.rows.filter fun row =>
        row.cap.name = text || row.cap.title = text).find?
        (·.cap.sourceSystem = "asg-os.plugins") with
      | some row => rfl
      | none => simp

theorem get_capability_reviewed (h : ReviewedFrom p start ctx targets) (text : String) :
    getCapability ctx.db text = (getCapability start.db text).map (·.reviewedIn targets) := by
  have hquarantine : ctx.db.quarantine = start.db.quarantine := by rw [h.database]
  unfold getCapability
  rw [lookup_reviewed h, hquarantine]
  cases start.db.lookup text with
  | none => rfl
  | some row =>
      have hheld : capguardIsHeld start.db.quarantine (row.reviewedIn targets).cap =
          capguardIsHeld start.db.quarantine row.cap :=
        capguard_is_held_congr reviewed_in_tenant reviewed_in_uri reviewed_in_hash
      simp only [Option.map_some, hheld]
      split <;> rfl

/-- The decision on a resource that is no capability reads the grants of the database alone. -/
theorem evaluate_access_resource {access other : AccessContext} {request : AccessRequest}
    (hcapability : request.capability = none) (hdirectory : other.directory = access.directory)
    (hnow : other.now = access.now)
    (hroles : other.db.roles = access.db.roles) (hshares : other.db.shares = access.db.shares)
    (htuples : other.db.tuples = access.db.tuples) :
    evaluateAccess p other request = evaluateAccess p access request := by
  have hroleGrant : ∀ tenant subjects right resource,
      activeRoleGrant other tenant subjects right none resource =
        activeRoleGrant access tenant subjects right none resource := by
    intro tenant subjects right resource
    unfold activeRoleGrant scopeMatches orgScopeMatches
    rw [hroles, hnow]
  unfold evaluateAccess accessRefusals accessGrants isDenied
  simp only [hcapability, Option.any_none, hdirectory, hnow, hshares, htuples, hroleGrant]

theorem access_reviewed (h : ReviewedFrom p start ctx targets) (right : String) :
    ctx.access p principal right = start.access p principal right := by
  refine evaluate_access_resource rfl ?_ ?_ ?_ ?_ ?_
  · show ctx.directory = start.directory
    rw [h.rest]
  · show ctx.host.now = start.host.now
    rw [h.host]
  · show ctx.db.roles = start.db.roles
    rw [h.database]
  · show ctx.db.shares = start.db.shares
    rw [h.database]
  · show ctx.db.tuples = start.db.tuples
    rw [h.database]

/-- The content gates read no column a review writes. -/
theorem evaluate_gates_reviewed (h : ReviewedFrom p start ctx targets) {scope : ReviewScope}
    {target : Option String} {reviewer : String} {approvedException : Bool} {name : GateName}
    (hname : name ≠ .signature) :
    evaluatedState (evaluateGates p ctx.host ctx.db (cap.reviewedIn targets) scope target reviewer
        approvedException) name =
      evaluatedState (evaluateGates p start.host start.db cap scope target reviewer
        approvedException) name := by
  have hretrieval : ∀ cap, retrievalGate ctx.db cap = retrievalGate start.db cap := by
    intro cap
    unfold retrievalGate
    rw [h.database]
  have hgates : ∀ reviewed : Capability, reviewed = cap.reviewed ∨ reviewed = cap →
      evaluatedState (evaluateGates p { start.host with keys := ctx.host.keys } ctx.db reviewed
          scope target reviewer approvedException) name =
        evaluatedState (evaluateGates p start.host start.db cap scope target reviewer
          approvedException) name := by
    intro reviewed hreviewed
    have hsource : evaluateSource p { start.host with keys := ctx.host.keys } reviewed
        (promptInjectionGate p) = evaluateSource p start.host cap (promptInjectionGate p) := by
      rcases hreviewed with rfl | rfl <;> rfl
    have hindex : retrievalGate ctx.db reviewed = retrievalGate start.db cap := by
      rcases hreviewed with rfl | rfl
      · exact hretrieval _
      · exact hretrieval _
    unfold evaluateGates
    rw [hsource, hindex]
    cases evaluateSource p start.host cap (promptInjectionGate p) with
    | error failure => rfl
    | ok source =>
        cases name with
        | signature => exact absurd rfl hname
        | sourceIntegrity | tests | promptInjectionScan | retrievalEvals | provenance
        | riskTierPolicy => rcases hreviewed with rfl | rfl <;> rfl
  rw [h.host]
  refine hgates _ ?_
  unfold Capability.reviewedIn
  split
  · exact .inl rfl
  · exact .inr rfl

theorem content_passes_reviewed (h : ReviewedFrom p start ctx targets) {scope : ReviewScope}
    {target : Option String} {reviewer : String} {approvedException : Bool} :
    ContentPasses p ctx.host ctx.db (cap.reviewedIn targets) scope target reviewer
        approvedException ↔
      ContentPasses p start.host start.db cap scope target reviewer approvedException := by
  unfold ContentPasses
  refine forall_congr' fun name => forall_congr' fun hname => ?_
  rw [evaluate_gates_reviewed h hname]

theorem requested_scope_reviewed (directory : Directory) :
    requestedScope p directory (cap.reviewedIn targets) options =
      requestedScope p directory cap options := by
  unfold Capability.reviewedIn
  split <;> rfl

end

/-- What makes a review pass: its caller is authorized, the identifier names a served capability
of the caller's tenant, and every gate passes. -/
structure ReviewPasses (p : Platform) (ctx : Reviewing) (principal : Principal)
    (options : ReviewOptions) (persist : Bool) (identifier : String) (cap : Capability) : Prop where
  authorized : ctx.Authorizes p principal
  addressed : p.stripSpace identifier ≠ ""
  served : getCapability ctx.db (p.stripSpace identifier) = some cap
  tenant : cap.tenantId = orElse principal.tenantId "asg"
  key : ctx.host.KeyLoads p persist
  content : ∃ scope target, requestedScope p ctx.directory cap options = .ok (scope, target) ∧
    ContentPasses p ctx.host ctx.db cap scope target principal.subject
      options.approvedRiskException

section

variable {p : Platform} {start ctx next : Reviewing} {targets : List String}
variable {principal : Principal} {options : ReviewOptions} {cap : Capability}
variable {identifier uri : String} {dryRun persist : Bool} {review : Review} {gates : Gates}

theorem review_gates_eq_ok_iff {db : Database} {call : ReviewCall} :
    reviewGates p db call = .ok (cap, gates) ↔
      call.manage.allowed = true ∧ call.approve.allowed = true ∧
        p.stripSpace call.identifier ≠ "" ∧
        getCapability db (p.stripSpace call.identifier) = some cap ∧
        cap.tenantId = orElse call.principal.tenantId "asg" ∧
        call.runner.evaluate cap = .ok gates := by
  unfold reviewGates
  constructor
  · intro h
    split at h
    · cases h
    rename_i hmanage
    split at h
    · cases h
    rename_i happrove
    split at h
    · cases h
    rename_i haddressed
    split at h
    · cases h
    rename_i found hserved
    split at h
    · cases h
    rename_i htenant
    obtain ⟨evaluated, hevaluated, h⟩ := bind_eq_ok h
    cases h
    exact ⟨by simpa using hmanage, by simpa using happrove, haddressed, hserved,
      not_not.mp htenant, hevaluated⟩
  · rintro ⟨hmanage, happrove, haddressed, hserved, htenant, hevaluated⟩
    simp [hmanage, happrove, haddressed, hserved, htenant, hevaluated, bind, Except.bind]

theorem review_gates_ok_iff :
    reviewGates p ctx.db (ctx.call p principal options identifier dryRun) = .ok (cap, gates) ↔
      ctx.Authorizes p principal ∧ p.stripSpace identifier ≠ "" ∧
        getCapability ctx.db (p.stripSpace identifier) = some cap ∧
        cap.tenantId = orElse principal.tenantId "asg" ∧
        ∃ scope target evaluated, requestedScope p ctx.directory cap options =
            .ok (scope, target) ∧
          evaluateReview p ctx.host (!dryRun) ctx.db cap scope target principal.subject
            options.approvedRiskException = .ok evaluated ∧
          gates = evaluated.map fun gate => (gate.1, gate.2.state) := by
  have hevaluate : (ctx.runner p principal options !dryRun).evaluate cap = .ok gates ↔
      ∃ scope target evaluated, requestedScope p ctx.directory cap options =
          .ok (scope, target) ∧
        evaluateReview p ctx.host (!dryRun) ctx.db cap scope target principal.subject
          options.approvedRiskException = .ok evaluated ∧
        gates = evaluated.map fun gate => (gate.1, gate.2.state) := by
    constructor
    · intro h
      obtain ⟨⟨scope, target⟩, hscope, hgates⟩ := bind_eq_ok h
      obtain ⟨evaluated, hevaluated, hstates⟩ := map_eq_ok hgates
      exact ⟨scope, target, evaluated, hscope, hevaluated, hstates.symm⟩
    · rintro ⟨scope, target, evaluated, hscope, hevaluated, rfl⟩
      simp [Reviewing.runner, hscope, bind, Except.bind, hevaluated, Except.map]
  rw [review_gates_eq_ok_iff, ← hevaluate, Reviewing.Authorizes, and_assoc]
  exact Iff.rfl

/-- A review passes for a capability exactly when these hold. -/
theorem review_passes_iff :
    (∃ gates, reviewGates p ctx.db (ctx.call p principal options identifier dryRun) =
        .ok (cap, gates) ∧ allPassed gates = true) ↔
      ReviewPasses p ctx principal options (!dryRun) identifier cap := by
  constructor
  · rintro ⟨gates, hgates, hpassed⟩
    obtain ⟨hauthorized, haddressed, hserved, htenant, scope, target, evaluated, hscope,
      hevaluated, rfl⟩ := review_gates_ok_iff.mp hgates
    obtain ⟨hkey, hcontent⟩ := (all_passed_iff_key_loads hevaluated).mp hpassed
    exact ⟨hauthorized, haddressed, hserved, htenant, hkey, scope, target, hscope, hcontent⟩
  · rintro ⟨hauthorized, haddressed, hserved, htenant, hkey, scope, target, hscope, hcontent⟩
    obtain ⟨evaluated, hevaluated⟩ := evaluate_review_iff.mpr hcontent.reads
    exact ⟨_, review_gates_ok_iff.mpr
        ⟨hauthorized, haddressed, hserved, htenant, scope, target, evaluated, hscope, hevaluated,
          rfl⟩,
      (all_passed_iff_key_loads hevaluated).mpr ⟨hkey, hcontent⟩⟩

theorem ReviewPasses.unique {other : Capability}
    (h : ReviewPasses p ctx principal options persist identifier cap)
    (hother : ReviewPasses p ctx principal options persist identifier other) : cap = other :=
  Option.some.inj (h.served.symm.trans hother.served)

theorem review_passes_reviewed (h : ReviewedFrom p start ctx targets) :
    (∃ cap, cap.uri = uri ∧ ReviewPasses p ctx principal options true identifier cap) ↔
      ∃ cap, cap.uri = uri ∧ ReviewPasses p start principal options true identifier cap := by
  have hauthorized : ctx.Authorizes p principal ↔ start.Authorizes p principal := by
    unfold Reviewing.Authorizes
    rw [access_reviewed h, access_reviewed h]
  have hdirectory : ctx.directory = start.directory := by rw [h.rest]
  constructor
  · rintro ⟨cap, huri, hpasses⟩
    have hserved := hpasses.served
    rw [get_capability_reviewed h, Option.map_eq_some_iff] at hserved
    obtain ⟨before, hbefore, rfl⟩ := hserved
    obtain ⟨scope, target, hscope, hcontent⟩ := hpasses.content
    rw [hdirectory, requested_scope_reviewed] at hscope
    exact ⟨before, by simpa using huri, hauthorized.mp hpasses.authorized, hpasses.addressed,
      hbefore, by simpa using hpasses.tenant, h.keys.mp hpasses.key, scope, target, hscope,
      (content_passes_reviewed h).mp hcontent⟩
  · rintro ⟨cap, huri, hpasses⟩
    obtain ⟨scope, target, hscope, hcontent⟩ := hpasses.content
    refine ⟨cap.reviewedIn targets, by simpa using huri, hauthorized.mpr hpasses.authorized,
      hpasses.addressed, ?_, by simpa using hpasses.tenant, h.keys.mpr hpasses.key, scope, target,
      ?_, (content_passes_reviewed h).mpr hcontent⟩
    · rw [get_capability_reviewed h, hpasses.served]
      rfl
    · rw [hdirectory, requested_scope_reviewed]
      exact hscope

theorem reviewed_keeps : KeepsIdentity Capability.reviewed := fun _ => ⟨rfl, rfl, rfl, rfl⟩

/-- The database after a passed review: it is recorded, and the row of its capability is
approved. -/
def Database.recordReview (db : Database) (call : ReviewCall) (cap : Capability) : Database :=
  ({ db with
    reviews := (db.reviews.insert? ⟨call.reviewId, cap.tenantId, cap.uri, cap.contentHash,
      call.scope cap, call.principal.subject⟩).getD db.reviews }).amendCapabilities
    (fun row => row.uri = cap.uri && row.contentHash = cap.contentHash) Capability.reviewed
    reviewed_keeps

theorem review_capability_eq {db : Database} {call : ReviewCall}
    (h : reviewGates p db call = .ok (cap, gates)) :
    reviewCapability p db call = .ok (gates,
      if call.dryRun || !allPassed gates then db else db.recordReview call cap) := by
  unfold reviewCapability
  simp only [h, bind, Except.bind]
  split <;> rfl

/-- What a review returns is what it evaluated. It signs, and it writes when it passes and is not
a dry run. -/
theorem lifecycle_review_eq
    (h : reviewGates p ctx.db (ctx.call p principal options identifier dryRun) = .ok (cap, gates)) :
    lifecycleReview p ctx principal options identifier dryRun =
      .ok (⟨cap.uri, cap.contentHash, dryRun, gates⟩,
        { ctx with
          db := if dryRun || !allPassed gates then ctx.db
            else ctx.db.recordReview (ctx.call p principal options identifier dryRun) cap
          host := ctx.host.signed p !dryRun }) := by
  unfold lifecycleReview
  simp only [h, bind, Except.bind, review_capability_eq h]
  rfl

/-- A review that returns evaluated the gates of a capability. -/
theorem lifecycle_review_ok
    (h : lifecycleReview p ctx principal options identifier dryRun = .ok (review, next)) :
    ∃ cap gates, reviewGates p ctx.db (ctx.call p principal options identifier dryRun) =
      .ok (cap, gates) := by
  obtain ⟨⟨cap, gates⟩, hgates, -⟩ := bind_eq_ok h
  exact ⟨cap, gates, hgates⟩

/-- A dry run writes nothing. -/
theorem lifecycle_review_dry
    (h : lifecycleReview p ctx principal options identifier true = .ok (review, next)) :
    next = ctx := by
  obtain ⟨cap, gates, hgates⟩ := lifecycle_review_ok h
  have hsigned : ctx.host.signed p false = ctx.host := by
    unfold GateHost.signed
    cases hload : ctx.host.keys.loadOrCreateSigningKey p false ctx.host.freshKey with
    | error failure => rfl
    | ok loaded =>
        obtain ⟨privateKey, keys⟩ := loaded
        obtain ⟨-, ⟨-, rfl⟩ | ⟨-, -, -, ⟨-, rfl⟩ | ⟨hpersist, -⟩⟩⟩ := load_signing_key_cases hload
        · rfl
        · rfl
        · cases hpersist
  rw [lifecycle_review_eq hgates] at h
  cases h
  simp only [Bool.true_or, if_true, Bool.not_true, hsigned]

theorem lifecycle_review_passed_iff :
    (∃ review next, lifecycleReview p ctx principal options identifier dryRun =
        .ok (review, next) ∧ review.passed = true ∧ review.capabilityUri = uri) ↔
      ∃ cap, cap.uri = uri ∧ ReviewPasses p ctx principal options (!dryRun) identifier cap := by
  constructor
  · rintro ⟨review, next, hreview, hpassed, huri⟩
    obtain ⟨cap, gates, hgates⟩ := lifecycle_review_ok hreview
    rw [lifecycle_review_eq hgates] at hreview
    cases hreview
    exact ⟨cap, huri, review_passes_iff.mp ⟨gates, hgates, hpassed⟩⟩
  · rintro ⟨cap, huri, hpasses⟩
    obtain ⟨gates, hgates, hpassed⟩ := review_passes_iff.mpr hpasses
    exact ⟨_, _, lifecycle_review_eq hgates, hpassed, huri⟩

end

section

variable {p : Platform} {start ctx next : Reviewing} {targets : List String}
variable {principal : Principal} {options : ReviewOptions} {cap : Capability}
variable {identifier : String} {review : Review}

/-- One more passed review. -/
theorem reviewed_in_concat (uri : String) :
    cap.reviewedIn (targets ++ [uri]) =
      if cap.uri = uri then cap.reviewed else cap.reviewedIn targets := by
  unfold Capability.reviewedIn
  by_cases huri : cap.uri = uri <;> simp [huri]

theorem reviewed_in_reviewed : (cap.reviewedIn targets).reviewed = cap.reviewed := by
  unfold Capability.reviewedIn
  split <;> rfl

/-- Signing keeps a lifecycle as its reviews left it. -/
theorem ReviewedFrom.signed (h : ReviewedFrom p start ctx targets) :
    ReviewedFrom p start { ctx with host := ctx.host.signed p true } targets := by
  refine ⟨h.rows, h.database, ?_, key_loads_signed.trans h.keys, ?_⟩
  · show ctx.host.signed p true = _
    unfold GateHost.signed
    split
    · rw [h.host]
    · exact h.host
  · show { ctx with host := _ } = _
    rw [h.rest]

theorem ReviewedFrom.recorded (h : ReviewedFrom p start ctx targets) (call : ReviewCall) {text : String}
    (hserved : getCapability ctx.db text = some cap) :
    ReviewedFrom p start { ctx with db := ctx.db.recordReview call cap } (targets ++ [cap.uri]) := by
  obtain ⟨row, hrow, rfl⟩ := get_capability_mem hserved
  refine ⟨?_, ?_, h.host, h.keys, ?_⟩
  · show ctx.db.capabilities.rows.map _ = _
    rw [h.rows, List.map_map]
    refine List.map_congr_left fun other hother => ?_
    -- A URI names one row, so the condition on the content hash selects nothing less.
    have hsame : other.cap.uri = row.cap.uri → other.cap.contentHash = row.cap.contentHash := by
      intro huri
      have hmem : other.reviewedIn targets ∈ ctx.db.capabilities := by
        rw [← Table.mem_rows, h.rows]
        exact List.mem_map_of_mem hother
      have heq := Database.eq_of_uri hmem hrow (by simpa [CapabilityRow.reviewedIn] using huri)
      simpa [CapabilityRow.reviewedIn] using congrArg (·.cap.contentHash) heq
    unfold CapabilityRow.amend
    by_cases huri : other.cap.uri = row.cap.uri
    · have hselected : ((other.reviewedIn targets).cap.uri = row.cap.uri &&
          (other.reviewedIn targets).cap.contentHash = row.cap.contentHash) = true := by
        simpa [CapabilityRow.reviewedIn] using ⟨huri, hsame huri⟩
      simp only [Function.comp_apply, hselected, if_true]
      simp [CapabilityRow.reviewedIn, reviewed_in_concat, reviewed_in_reviewed, huri]
    · simp [CapabilityRow.reviewedIn, reviewed_in_concat, huri]
  · have hrest : ∀ db : Database, db = { start.db with
          capabilities := db.capabilities, reviews := db.reviews } →
        ∀ capabilities reviews, ({ db with capabilities, reviews } : Database) =
          { start.db with capabilities, reviews } := by
      intro db hdb capabilities reviews
      rw [hdb]
    exact hrest ctx.db h.database _ _
  · show { ctx with db := _ } = _
    rw [h.rest]

/-- A real review that passes approves the row of its capability; one that does not pass leaves
the rows as they are. -/
theorem lifecycle_review_step (h : ReviewedFrom p start ctx targets)
    (hok : lifecycleReview p ctx principal options identifier false = .ok (review, next)) :
    ReviewedFrom p start next
      (if review.passed then targets ++ [review.capabilityUri] else targets) := by
  obtain ⟨cap, gates, hgates⟩ := lifecycle_review_ok hok
  obtain ⟨-, -, hserved, -⟩ := review_gates_ok_iff.mp hgates
  rw [lifecycle_review_eq hgates] at hok
  cases hok
  cases hpassed : allPassed gates with
  | false => simpa [Review.passed, hpassed] using h.signed
  | true => simpa [Review.passed, hpassed] using (h.recorded _ hserved).signed

end

/-- The gate runner of a review, on the quick gates. -/
def Reviewing.quickRunner (p : Platform) (ctx : Reviewing) (options : ReviewOptions)
    (persist : Bool) : GateRunner where
  evaluate cap := do
    let (scope, _) ← requestedScope p ctx.directory cap options
    (quickGates p ctx.host persist ctx.db cap scope options.approvedRiskException).map
      (·.map fun gate => (gate.1, gate.2.state))
  injection := evaluatePromptInjectionScan p ctx.db ctx.directory

/-- A review that evaluates its gates once, and quickly. -/
def quickReview (p : Platform) (ctx : Reviewing) (principal : Principal)
    (options : ReviewOptions) (identifier : String) (dryRun : Bool) :
    Except Failure (Review × Reviewing) := do
  let call := ctx.call p principal options identifier dryRun
  let (cap, gates) ← reviewGates p ctx.db
    { call with runner := ctx.quickRunner p options !dryRun }
  .ok (⟨cap.uri, cap.contentHash, dryRun, gates⟩,
    { ctx with
      db := if dryRun || !allPassed gates then ctx.db else ctx.db.recordReview call cap
      host := ctx.host.signed p !dryRun })

section

variable {p : Platform} {ctx : Reviewing} {principal : Principal} {options : ReviewOptions}

theorem evaluate_review_quick (host : GateHost) (persist : Bool) (db : Database) (cap : Capability)
    (scope : ReviewScope) (target : Option String) (reviewer : String)
    (approvedException : Bool) :
    evaluateReview p host persist db cap scope target reviewer approvedException =
      quickGates p host persist db cap scope approvedException := by
  unfold evaluateReview
  rw [evaluate_gates_quick]
  unfold quickGates
  cases evaluateSource p host cap (quickInjectionGate p) with
  | error failure => rfl
  | ok source =>
      cases persist with
      | false => rfl
      | true =>
          have hkept : ∀ envelope, keptSignatureGate p host envelope = keyGate p host true := by
            intro envelope
            unfold keptSignatureGate keyGate
            rw [← sign_attestation_isOk host.crypto host.keys envelope]
            cases signAttestation p host.crypto host.keys envelope true host.freshKey <;> rfl
          simp [hkept, bind, Except.bind, Except.map]

theorem runner_quick (principal : Principal) (persist : Bool) :
    ctx.runner p principal options persist = ctx.quickRunner p options persist := by
  unfold Reviewing.runner Reviewing.quickRunner
  simp only [evaluate_review_quick]

theorem lifecycle_review_quick (identifier : String) (dryRun : Bool) :
    lifecycleReview p ctx principal options identifier dryRun =
      quickReview p ctx principal options identifier dryRun := by
  have hcall : ({ ctx.call p principal options identifier dryRun with
      runner := ctx.quickRunner p options !dryRun } : ReviewCall) =
        ctx.call p principal options identifier dryRun := by
    rw [← runner_quick principal]
    rfl
  simp only [quickReview, hcall]
  cases hgates : reviewGates p ctx.db (ctx.call p principal options identifier dryRun) with
  | error failure => simp only [lifecycleReview, hgates, bind, Except.bind]
  | ok found => exact lifecycle_review_eq hgates

end

end Capmesh
