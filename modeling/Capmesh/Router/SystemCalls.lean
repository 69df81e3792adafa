import Capmesh.Directory.Identities
import Capmesh.Governance.SystemRows
import Capmesh.Router.Requests

/-!
# Calling a system capability

`cap.call` and `dispatch_system_capability`. The call dispatches on the flag in the metadata of the
row and on its name, while the guards, the confirmation and the authority of the node, look at the
mutating column alone. `system_calls_guarded` says when the guards nevertheless hold: no file of the
run carries the flag, and the one built-in operation that writes without being mutating has nothing
to write.
-/

namespace Capmesh

open Python Relational Execution

/-- The operations that `dispatch_system_capability` calls. -/
inductive SystemOperation where
  | helpPayload | onboardingPayload | revokeCapmeshSession | authStatus | capabilityTemplate
  | createCapabilityDraft | updateCapabilityDraft | diffCapabilityDraft | validateCapabilityDraft
  | publishPrivateCapability | createShare | submitPromotion | prepareCapabilityPr | currentUser
  | createStore | listStores | createNamespace | listNamespaces | revokeShare | listShares
  | listRequests | reviewCapability | reviewBatch | runPromotionGates | gateStatus | verifyCatalog
  | approveRequest | assignRole | revokeRole | listRoles | listAuditEvents | planGraphSubscription
  | createTeamsBinding | teamsBindings | syncSummary
  deriving DecidableEq, Repr

/-- Whether an operation runs a statement that writes. The ones that provision the identity of the
caller return without writing when it is provisioned. -/
def SystemOperation.writes (provisioned : Bool) : SystemOperation → Bool
  | .currentUser | .listStores | .listNamespaces => !provisioned
  | .helpPayload | .onboardingPayload | .authStatus | .capabilityTemplate | .diffCapabilityDraft
  | .validateCapabilityDraft | .listShares | .listRequests | .gateStatus | .verifyCatalog
  | .listRoles | .listAuditEvents | .teamsBindings | .syncSummary => false
  | .revokeCapmeshSession | .createCapabilityDraft | .updateCapabilityDraft
  | .publishPrivateCapability | .createShare | .submitPromotion | .prepareCapabilityPr
  | .createStore | .createNamespace | .revokeShare | .reviewCapability | .reviewBatch
  | .runPromotionGates | .approveRequest | .assignRole | .revokeRole | .planGraphSubscription
  | .createTeamsBinding => true

/-- `manage_capability`. -/
def manageCapability (args : Dict) : Except Failure SystemOperation :=
  let action := fieldOr args "action" "template"
  if action = "template" then .ok .capabilityTemplate
  else if ["draft.create", "create"].contains action then .ok .createCapabilityDraft
  else if ["draft.update", "update"].contains action then .ok .updateCapabilityDraft
  else if ["draft.diff", "diff"].contains action then .ok .diffCapabilityDraft
  else if ["validate", "draft.validate"].contains action then .ok .validateCapabilityDraft
  else if ["publish-private", "draft.publish-private"].contains action then
    .ok .publishPrivateCapability
  else if action = "share" then .ok .createShare
  else if action = "submit" then .ok .submitPromotion
  else if ["prepare-pr", "git.pr.prepare"].contains action then .ok .prepareCapabilityPr
  else .error (.value ("Unsupported capability action: " ++ action))

/-- `dispatch_gate_action`. -/
def dispatchGateAction (p : Platform) (args : Dict) : Except Failure SystemOperation :=
  let action := p.lower (p.stripSpace (fieldOr args "action" "status"))
  if action = "review" then .ok .reviewCapability
  else if action = "review-batch" then .ok .reviewBatch
  else if action = "promotion.run" then .ok .runPromotionGates
  else if action = "status" then .ok .gateStatus
  else if action = "verify-catalog" then .ok .verifyCatalog
  else .error (.value
    "system.gates action must be review, review-batch, promotion.run, status, or verify-catalog.")

/-- `dispatch_system_capability`, on a dictionary: the operation it calls. -/
def dispatchArgs (p : Platform) (name : String) (args : Dict) : Except Failure SystemOperation :=
  let action := fieldOr args "action" "list"
  if name = "system.help" then .ok .helpPayload
  else if name = "system.onboard" then .ok .onboardingPayload
  else if name = "system.auth" then
    .ok (if action = "logout" then .revokeCapmeshSession else .authStatus)
  else if name = "system.capabilities" then manageCapability args
  else if name = "system.me" then .ok .currentUser
  else if name = "system.stores" then .ok (if action = "create" then .createStore else .listStores)
  else if name = "system.namespaces" then
    .ok (if action = "create" then .createNamespace else .listNamespaces)
  else if name = "system.share" then
    .ok (if action = "create" then .createShare else if action = "revoke" then .revokeShare
      else .listShares)
  else if name = "system.submit" then .ok .submitPromotion
  else if name = "system.requests" then .ok .listRequests
  else if name = "system.gates" then dispatchGateAction p args
  else if name = "system.approve" then .ok .approveRequest
  else if name = "system.roles" then
    .ok (if action = "assign" then .assignRole else if action = "revoke" then .revokeRole
      else .listRoles)
  else if name = "system.audit" then .ok .listAuditEvents
  else if name = "system.sync" then
    .ok (if action = "graph-subscription" then .planGraphSubscription
      else if action = "teams-bind" then .createTeamsBinding
      else if action = "teams-list" then .teamsBindings
      else .syncSummary)
  else .error (.value ("Unknown system capability: " ++ name))

/-- `dispatch_system_capability`; `args.get` is not there on another value than a dictionary. -/
def dispatchSystemCapability (p : Platform) (name : String) (args : Json) :
    Except Failure SystemOperation :=
  match args with
  | .obj args => dispatchArgs p name args
  | _ => .error (.runtime "object has no attribute 'get'")

/-- The node that serves a call: its role, the tables the provisioning of an identity reads, and the
answer of `is_binding_approved`. -/
structure MeshNode where
  authoritative : Bool
  identities : Table IdentityRow
  stores : List Store
  bindingApproved : Capability → Bool

/-- Whether `ensure_identity_for_principal` takes its fast path. -/
def ToolRequest.isProvisioned (p : Platform) (node : MeshNode) (request : ToolRequest) : Bool :=
  let signIn : SignIn := ⟨request.principal, request.displayName⟩
  node.identities.any (signIn.isUnchanged p request.now) &&
    2 ≤ (node.stores.filter fun store =>
      store.tenantId = p.tenantOr request.principal.tenantId &&
        store.ownerIdentityId = some (signIn.identityId p) &&
        (store.kind = .userPrivate || store.kind = .userShared)).length

/-- How `cap.call` ends. -/
inductive CallOutcome where
  /-- An error of the call itself. -/
  | refused (error : ToolError)
  /-- The dry run of a system capability. -/
  | skipped (cap : Capability)
  /-- `dispatch_system_capability` is called. -/
  | dispatched (cap : Capability) (args : Json)
  /-- A skill to be loaded. -/
  | activated (cap : Capability) (args : Json)
  /-- `cap.delegate` is called with this task. -/
  | delegated (cap : Capability) (task : String)
  | metadataOnly (cap : Capability) (dryRun : Bool)
  | bindingSkipped (callable : Json)
  | bindingAllowed (callable : Json)

/-- `cap.metadata.get("callable") or cap.metadata.get("call")`. -/
def Capability.callable (cap : Capability) : Option Json :=
  let truthy := fun key => (Dict.get? cap.metadata key).filter Json.truthy
  (truthy "callable").or (truthy "call")

/-- `cap.call`, once its guards have passed. -/
def callCapability (node : MeshNode) (request : ToolRequest) (cap : Capability) : CallOutcome :=
  if cap.isMarked then
    if request.dryRun then .skipped cap else .dispatched cap request.args
  else if cap.capabilityType = .skill then .activated cap request.args
  else if cap.capabilityType = .agent then
    match request.args with
    | .obj args => .delegated cap (fieldOr args "task" "Run delegated agent task.")
    | _ => .refused (routedError "cap.call" (.runtime "object has no attribute 'get'"))
  else match cap.callable with
    | none => .metadataOnly cap request.dryRun
    | some callable =>
        if request.dryRun then .bindingSkipped callable
        else if node.bindingApproved cap then .bindingAllowed callable
        else .refused
          { message := "Executable call bindings are registered but disabled until allowlisted " ++
              "command execution is configured." }

/-- `cap.call`. -/
def capCall (p : Platform) (node : MeshNode) (db : Database) (request : ToolRequest) :
    CallOutcome :=
  if !request.principal.hasScope "cap:call" then .refused (missingScope "cap:call")
  else match request.resolveCapability db with
    | none => .refused capabilityNotFound
    | some cap =>
        let access := request.canLoad p db "call" cap
        if !access.allowed then .refused (accessForbidden access)
        else if cap.mutating && !request.dryRun && !node.authoritative then
          .refused ⟨"NOT_AUTHORITATIVE",
            "Authoritative capability writes are served only by the authoritative node."⟩
        else if cap.mutating && !request.confirm then
          .refused ⟨"CONFIRMATION_REQUIRED",
            "Mutating capability calls require confirm=true and should be dry-run first."⟩
        else callCapability node request cap

/-- A call keeps its guards: it dispatches for a system capability alone, and an operation that
writes runs on the authoritative node and was confirmed. -/
def KeepsGuards (p : Platform) (node : MeshNode) (db : Database) (request : ToolRequest) : Prop :=
  ∀ cap args, capCall p node db request = .dispatched cap args →
    cap.sourceKind = "system_capability" ∧
    ∀ operation, dispatchSystemCapability p cap.name args = .ok operation →
      operation.writes (request.isProvisioned p node) = true →
      node.authoritative = true ∧ request.confirm = true

/-- A call of `system.me` that has to provision the identity of its caller, without the guards. -/
def ProvisionsUnguarded (p : Platform) (node : MeshNode) (db : Database) (request : ToolRequest) :
    Prop :=
  (∃ cap, request.resolveCapability db = some cap ∧ cap.name = "system.me") ∧
    request.isProvisioned p node = false ∧
    ¬ (node.authoritative = true ∧ request.confirm = true)

section

variable {p : Platform} {crypto : Crypto} {node : MeshNode} {db : Database} {request : ToolRequest}
variable {cap : Capability} {name : String} {operation : SystemOperation}

theorem cap_call_dispatched {args : Json} (h : capCall p node db request = .dispatched cap args) :
    request.resolveCapability db = some cap ∧ cap.isMarked = true ∧
      (cap.mutating = true → node.authoritative = true ∧ request.confirm = true) := by
  unfold capCall at h
  split at h
  · cases h
  cases hresolved : request.resolveCapability db with
  | none => simp [hresolved] at h
  | some found =>
      simp only [hresolved] at h
      split at h
      · cases h
      split at h
      · cases h
      rename_i hnode
      split at h
      · cases h
      rename_i hconfirm
      unfold callCapability at h
      split at h
      · rename_i hmarked
        split at h
        · cases h
        · rename_i hdry
          cases h
          refine ⟨rfl, hmarked, fun hmutating => ?_⟩
          simp only [hmutating, Bool.true_and, Bool.and_eq_true, Bool.not_eq_true', not_and,
            Bool.not_eq_false] at hnode hconfirm hdry
          exact ⟨hnode (by simpa using hdry), hconfirm⟩
      · -- Without the flag a call does not dispatch.
        exfalso
        split at h
        · cases h
        · split at h
          · split at h <;> cases h
          · split at h
            · cases h
            · split at h
              · cases h
              · split at h <;> cases h

/-- An operation that writes belongs to a mutating system capability, or it is `system.me`. -/
theorem dispatch_writes {args : Json} {provisioned : Bool}
    (h : dispatchSystemCapability p name args = .ok operation)
    (hwrites : operation.writes provisioned = true) :
    mutatingSystemNames.contains name = true ∨ (name = "system.me" ∧ provisioned = false) := by
  unfold dispatchSystemCapability at h
  cases args with
  | obj args =>
      simp only [dispatchArgs] at h
      by_cases hmutating : mutatingSystemNames.contains name = true
      · exact .inl hmutating
      right
      have hnot : ∀ other ∈ mutatingSystemNames, name ≠ other := by
        rintro other hother rfl
        exact hmutating (List.contains_iff_mem.mpr hother)
      simp only [mutatingSystemNames, List.mem_cons, List.not_mem_nil, or_false, forall_eq_or_imp,
        forall_eq, ne_eq] at hnot
      obtain ⟨hauth, hcapabilities, hstores, hnamespaces, hshare, hsubmit, hgates, happrove, hroles,
        hsync⟩ := hnot
      simp only [hauth, hcapabilities, hstores, hnamespaces, hshare, hsubmit, hgates, happrove,
        hroles, hsync, if_false] at h
      split at h
      · cases h
        cases hwrites
      split at h
      · cases h
        cases hwrites
      split at h
      · rename_i hme
        cases h
        exact ⟨hme, by simpa [SystemOperation.writes] using hwrites⟩
      split at h
      · cases h
        cases hwrites
      split at h
      · cases h
        cases hwrites
      · cases h
  | null | bool | int | float | str | arr => cases h

theorem builtin_declaration {package module : String}
    (hcap : cap ∈ builtinSystemCapabilities p package module) :
    cap.sourceKind = "system_capability" ∧
      cap.mutating = mutatingSystemNames.contains cap.name := by
  obtain ⟨entry, -, rfl⟩ := List.mem_map.mp hcap
  exact ⟨rfl, rfl⟩

/-- **The guards of system operations.** In a run of starts, ingests, reviews, submissions,
approvals, shares and CapGuard calls none of whose ingests brings the flag, every call keeps its
guards, unless it is a call of `system.me` that provisions its caller unguarded. -/
theorem system_calls_guarded {package module : String} {start : Host} {steps : List (MeshStep p)}
    (hstart : initDb p (builtinSystemCapabilities p package module) .empty = .ok start.db)
    (hplain : ∀ step ∈ steps, step.Plain) (node : MeshNode) (request : ToolRequest)
    (hme : ¬ ProvisionsUnguarded p node
      (run (meshStep p crypto (builtinSystemCapabilities p package module)) start steps).db
      request) :
    KeepsGuards p node
      (run (meshStep p crypto (builtinSystemCapabilities p package module)) start steps).db
      request := by
  intro cap args hcall
  obtain ⟨hresolved, hmarked, hguards⟩ := cap_call_dispatched hcall
  have hserved := hresolved
  unfold ToolRequest.resolveCapability at hserved
  dsimp only at hserved
  split at hserved
  · cases hserved
  obtain ⟨row, hrow, rfl⟩ := get_capability_mem hserved
  obtain ⟨builtin, hbuiltin, hsame⟩ := marked_row_builtin crypto hstart hplain hrow hmarked
  obtain ⟨hkind, hmutating⟩ := builtin_declaration hbuiltin
  refine ⟨hsame.sourceKind.trans hkind, fun operation hdispatch hwrites => ?_⟩
  rcases dispatch_writes hdispatch hwrites with hlisted | ⟨hname, hprovisioned⟩
  · refine hguards ?_
    rw [hsame.mutating, hmutating, ← hsame.name]
    exact hlisted
  · by_contra hunguarded
    exact hme ⟨⟨row.cap, hresolved, hname⟩, hprovisioned, hunguarded⟩

end

/-- What discovery makes of a `cap.json` that calls itself a system capability. -/
def rolesManifest : Capability :=
  { uri := "cap://asg.local/workflow/notes.system.roles@0.1.0", capabilityType := .workflow
    name := "system.roles", version := "0.1.0", title := "system.roles", description := ""
    packagePath := "/srv/plugins/notes", entrypoint := "cap.json"
    sourcePath := "/srv/plugins/notes/cap.json", sourceKind := "cap_manifest"
    sourceSystem := "local", canonicalKey := "workflow:notes:system.roles:0.1.0"
    contentHash := "sha256:", plugin := some "notes"
    metadata := [("systemCapability", .bool true), ("name", .str "system.roles")] }

/-- An ingest of one discovered workflow. -/
def workflowInput (cap : Capability) (hcap : cap.AsDiscovered)
    (hlisted : ∀ text, Dict.get? cap.metadata "sourcePaths" ≠ some (.str text)) :
    DiscoveredInput .sample where
  toIngestInput := .bare (.single cap
    ⟨hcap.ordinary, hcap.hashed, by rw [hcap.tenantId]; decide⟩ hlisted)
  asDiscovered other hother := by
    rw [List.mem_singleton.mp hother]
    exact hcap

/-- The clean scan of a file. -/
def cleanScan : ScanResult where
  passed := some true
  error := none
  findings := []
  criticalCount := some 0
  highCount := some 0
  fileHash := some "sha256:"
  fileSize := some 34

/-- An ingest, the scan of what it held, and the release. -/
def releasedSteps (input : DiscoveredInput .sample) : List (MeshStep .sample) :=
  [.call (.ingest input),
    .call (.guard (.scan "qtn_0" "asg" cleanScan "capmesh-malware" none true
      ⟨"2026-01-01T00:00:00Z", "att_1", ""⟩)),
    .call (.guard (.release "qtn_0" { tenantId := "asg", actor := "op" }
      ⟨"2026-01-01T00:00:00Z", "att_2", ""⟩))]

/-- The ingest of the file. -/
def rolesInput : DiscoveredInput .sample :=
  workflowInput rolesManifest ⟨rfl, by decide, rfl, rfl, rfl, rfl, rfl, rfl⟩ fun text => by
    simp [rolesManifest, Dict.get?]

/-- The same file without the flag. -/
def plainInput : DiscoveredInput .sample :=
  workflowInput { rolesManifest with metadata := [("name", .str "system.roles")] }
    ⟨rfl, by decide, rfl, rfl, rfl, rfl, rfl, rfl⟩ fun text => by simp [Dict.get?]

/-- The built-in capabilities of a server under `/srv/capmesh`. -/
def serverBuiltins : List Capability :=
  builtinSystemCapabilities .sample "/srv/capmesh" "/srv/capmesh/governance.py"

/-- The server after its first start. -/
def startedHost : Except Failure Host :=
  (initDb .sample serverBuiltins .empty).map fun db => ⟨db, ⟨true, .key "k", true⟩⟩

theorem started_host_ok {start : Host} (h : startedHost = .ok start) :
    initDb .sample serverBuiltins .empty = .ok start.db := by
  obtain ⟨db, hdb, rfl⟩ := map_eq_ok h
  exact hdb

/-- An administrator assigns a role through the capability at a URI. -/
def assignThrough (uri : String) (confirm : Bool) : ToolRequest where
  params := [("uri", .str uri), ("dryRun", .bool false), ("confirm", .bool confirm),
    ("args", .obj [("action", .str "assign")])]
  principal := platformAdmin
  directory := ⟨[], [], [], [], []⟩
  orgCache _ _ := none
  now := "2026-01-01T00:00:00Z"

/-- A node without identities. -/
def bareNode (authoritative : Bool) : MeshNode := ⟨authoritative, .empty, [], fun _ => false⟩

/-- The operation and the kind of row of a call that dispatches. -/
def dispatchedOperation (node : MeshNode) (request : ToolRequest) (db : Database) :
    Option (Except Failure SystemOperation × String) :=
  match capCall .sample node db request with
  | .dispatched cap args => some (dispatchSystemCapability .sample cap.name args, cap.sourceKind)
  | _ => none

theorem dispatched_operation_some {node : MeshNode} {request : ToolRequest} {db : Database}
    {outcome : Except Failure SystemOperation × String}
    (h : dispatchedOperation node request db = some outcome) :
    ∃ cap args, capCall .sample node db request = .dispatched cap args ∧
      dispatchSystemCapability .sample cap.name args = outcome.1 ∧ cap.sourceKind = outcome.2 := by
  unfold dispatchedOperation at h
  split at h
  · rename_i cap args hcall
    cases h
    exact ⟨cap, args, hcall, rfl, rfl⟩
  · cases h

/-- A run from the first start, and what a call dispatches after it. -/
def runOperation (steps : List (MeshStep .sample)) (node : MeshNode) (request : ToolRequest) :
    Except Failure (Option (Except Failure SystemOperation × String)) :=
  startedHost.map fun start =>
    dispatchedOperation node request (run (meshStep .sample .transparent serverBuiltins) start steps).db

/-- Once the file is released, a replica assigns a role through it, and nobody confirmed it. -/
theorem system_calls_guarded_counterexample :
    ¬ ∀ (p : Platform) (crypto : Crypto) (package module : String) (start : Host)
      (steps : List (MeshStep p)) (node : MeshNode) (request : ToolRequest),
      initDb p (builtinSystemCapabilities p package module) .empty = .ok start.db →
      KeepsGuards p node
        (run (meshStep p crypto (builtinSystemCapabilities p package module)) start steps).db
        request := by
  intro hclaim
  have hrun : runOperation (releasedSteps rolesInput) (bareNode false)
      (assignThrough ("cap://user/asg/idn_8a771be063fbef53149d218b/private/personal/workflow/" ++
        "notes.system-roles@0.1.0") false) = .ok (some (.ok .assignRole, "cap_manifest")) := by
    decide +kernel
  obtain ⟨start, hstart, hoperation⟩ := map_eq_ok hrun
  obtain ⟨cap, args, hcall, -, hkind⟩ := dispatched_operation_some hoperation
  have hsystem := (hclaim .sample .transparent _ _ start _ _ _ (started_host_ok hstart) cap args
    hcall).1
  rw [hkind] at hsystem
  exact absurd hsystem (by decide)

/-- Without the flag in the file the guards hold; the built-in capability assigns the role on the
authoritative node once it is confirmed. -/
theorem system_calls_guarded_roles : ∃ start, startedHost = .ok start ∧
    dispatchedOperation (bareNode true) (assignThrough "cap://system/asg/roles@0.1.0" true)
      (run (meshStep .sample .transparent serverBuiltins) start (releasedSteps plainInput)).db =
        some (.ok .assignRole, "system_capability") ∧
    KeepsGuards .sample (bareNode true)
      (run (meshStep .sample .transparent serverBuiltins) start (releasedSteps plainInput)).db
      (assignThrough "cap://system/asg/roles@0.1.0" true) := by
  have hrun : runOperation (releasedSteps plainInput) (bareNode true)
      (assignThrough "cap://system/asg/roles@0.1.0" true) =
        .ok (some (.ok .assignRole, "system_capability")) := by decide +kernel
  obtain ⟨start, hstart, hoperation⟩ := map_eq_ok hrun
  refine ⟨start, hstart, hoperation, system_calls_guarded (started_host_ok hstart) ?_ _ _ ?_⟩
  · intro step hstep
    simp only [releasedSteps, List.mem_cons, List.not_mem_nil, or_false] at hstep
    rcases hstep with rfl | rfl | rfl
    · intro cap hcap
      rw [List.mem_singleton.mp hcap]
      rfl
    · exact fun cap hcap => absurd hcap List.not_mem_nil
    · exact fun cap hcap => absurd hcap List.not_mem_nil
  · rintro ⟨-, -, hunguarded⟩
    exact hunguarded ⟨rfl, rfl⟩

end Capmesh
