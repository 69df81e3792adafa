import Capmesh.Delegation.Bundles
import Capmesh.Python.Base64

/-!
# Authoritative stages

`_validate_authoritative_bundle`: a delegation is a root one, or a stage of a workflow whose root
delegation it carries along. A stage has a bundle of its own, the receipt of its root delegation, and
an envelope as its task.
-/

namespace Capmesh

open Python Relational

/-- `CAPMESH_RECEIPT_DOMAIN`. -/
def receiptDomain : String := "ASGCODE:capmesh_bundle_receipt.v1" ++ String.ofList [Char.ofNat 0]

def receiptKeys : List String :=
  ["schema", "task_id", "workflow_id", "bundle_hash", "binding_hash", "issued_at", "expires_at",
    "nonce", "key_id", "signature"]

/-- Whether a value is a number, which the order of Python compares. -/
def isNumber : Option Json → Bool
  | some (.bool _) | some (.int _) | some (.float _) => true
  | _ => false

/-- The value of an `int`, which a `bool` is too. -/
def intValue : Option Json → Option Int
  | some (.int value) => some value
  | some (.bool value) => some (if value then 1 else 0)
  | _ => none

/-- `[A-Za-z0-9_.:-]`. -/
def isNonceChar (c : Char) : Bool := isIdChar c || c = '.' || c = ':'

/-- A text that matches `[A-Za-z0-9_.:-]{8,160}`. -/
def isNonce : Option Json → Bool
  | some (.str nonce) => isTagged "" isNonceChar 8 160 nonce
  | _ => false

section

variable (p : Platform) (host : AuthorityHost) (db : Database) (request : ToolRequest)
variable (selected : Capability)

/-- Whether the times of a receipt hold it valid now. -/
def receiptCurrent (receipt : Dict) : Bool :=
  match intValue (Dict.get? receipt "issued_at"), intValue (Dict.get? receipt "expires_at") with
  | some issued, some expires =>
      issued < expires && issued ≤ host.now / 1000000 + 30 && host.now / 1000000 < expires
  | _, _ => false

/-- `_verify_bundle_receipt`. Times that are no numbers cannot be compared. -/
def verifyBundleReceipt (value : Option Json) (taskId workflowId bundleHash bindingHash : String) :
    Except Failure Unit := do
  let receipt ← objectOf receiptKeys "upstream CapMesh authority receipt is not canonical" value
  if !isNumber (Dict.get? receipt "issued_at") || !isNumber (Dict.get? receipt "expires_at") then
    .error (.runtime "'>=' not supported between instances")
  else do
    require (Dict.get? receipt "schema" = some (.str "capmesh_bundle_receipt.v1") &&
      Dict.get? receipt "task_id" = some (.str taskId) &&
      Dict.get? receipt "workflow_id" = some (.str workflowId) &&
      Dict.get? receipt "bundle_hash" = some (.str bundleHash) &&
      Dict.get? receipt "binding_hash" = some (.str bindingHash) &&
      receiptCurrent host receipt &&
      isNonce (Dict.get? receipt "nonce") &&
      isTagged "" isIdChar 86 86 (fieldText p receipt "signature"))
      "upstream CapMesh authority receipt binding is invalid"
    let key ← host.signer
    require (Dict.get? receipt "key_id" = some (.str key.keyId))
      "upstream CapMesh authority receipt key id is invalid"
    let unsigned := Json.obj (receipt.filter fun field => field.1 ≠ "signature")
    require (key.verify (Base64.decode (fieldText p receipt "signature"))
        (receiptDomain ++ unsigned.canonicalText).toUTF8.data.toList)
      "upstream CapMesh authority receipt signature is invalid"

/-- Words of the objective of a stage that say nothing about the task. -/
def commonStageTerms : List String :=
  ["verified", "repository", "workflow", "capability", "stage"]

/-- One turn of the loop over the items of a stage bundle: the URI, and its relevance. -/
def stageItem (terms seen : List String) (value : Json) : Except Failure (String × Json) := do
  let item ← objectOf bundleItemKeys "stage capability bundle item fields are not canonical"
    (some value)
  let uri := fieldText p item "uri"
  let cap ← itemCapability db "stage " seen uri
  let (_, content) ← loadAuthoritativeContent p host cap
  require (catalogAgrees cap item && digestAgrees p content item && toolsAgree p host content item)
    "stage capability bundle conflicts with authoritative catalog state"
  permitItem p db request selected uri cap "principal is not entitled to every stage capability"
  let relevance ← relevanceOf host "stage " terms true uri (capabilityText p cap)
  .ok (uri, relevance)

/-- The loop over the items of a stage bundle. -/
def stageItems (terms : List String) : List String → List Json →
    Except Failure (List (String × Json))
  | _, [] => .ok []
  | seen, value :: values => do
      let item ← stageItem p host db request selected terms seen value
      let items ← stageItems terms (item.1 :: seen) values
      .ok (item :: items)

/-- The evidence that the authority computes for the items of a stage bundle. -/
def stageEvidenceOf (items : List (String × Json)) : Json :=
  .obj [("schema", .str "capmesh.stage-bundle.authority-evidence.v1"),
    ("bundle_complete", .bool true), ("relevance", .arr (items.map (·.2)))]

/-- `_validate_stage_bundle`. -/
def validateStageBundle (value : Option Json) (objective : String) :
    Except Failure (Dict × String × Json) := do
  let bundle ← bundleHeader p "stage " value
  require (isSha256 (fieldText p bundle "task_shape_hash"))
    "stage capability task shape hash is invalid"
  bundleFresh p host "stage " bundle
  let proposed ← bundleItems "stage " bundle
  let items ← stageItems p host db request selected
    (objectiveTerms p commonStageTerms objective) [] proposed
  require ((items.map (·.1)).contains selected.uri && selected.capabilityType = .agent)
    "selected stage agent is not in the authoritative stage bundle"
  .ok (bundle, valueDigest p (.obj bundle), stageEvidenceOf items)

def stageContextKeys : List String :=
  ["capabilityBundle", "capabilityBinding", "capabilityBundleHash", "capabilityBindingHash",
    "stageCapabilityBundle", "stageCapabilityBundleHash", "scope", "scopeHash",
    "capmeshAuthorityReceipt", "workflowId", "repo", "worktree", "baseCommit",
    "upstreamDelegationId"]

def normalizedOnlyKeys : List String :=
  ["schema", "objective", "authorityEvidence", "stageAuthorityEvidence"]

def taskEnvelopeKeys : List String :=
  ["schema", "workflow_id", "stage_id", "objective", "repository", "write_set", "bundle_id",
    "bundle_digest", "scope", "workflow_binding"]

def workflowBindingKeys : List String :=
  ["repository", "base_commit", "admission_sha256", "capability_binding_sha256",
    "upstream_delegation_id"]

/-- The envelope that the task of a stage is, with its workflow binding. -/
def stageEnvelope (task : String) : Except Failure (Dict × Dict) :=
  match host.loads task with
  | .decodeError | .failed (.value _) =>
      .error (.value "stage task envelope is not canonical JSON")
  | .failed failure => .error failure
  | .value json => do
      let envelope ← objectOf taskEnvelopeKeys "canonical asgcode.task-envelope.v2 is required"
        (some json)
      let binding ← objectOf workflowBindingKeys "stage task workflow binding is not canonical"
        (Dict.get? envelope "workflow_binding")
      .ok (envelope, binding)

/-- The items of the bundle at a key of a context. -/
def bundleItemsAt (key : String) (context : Dict) : List Json :=
  match Dict.get? context key with
  | some (.obj bundle) =>
      match Dict.get? bundle "capabilities" with
      | some (.arr items) => items
      | _ => []
  | _ => []

/-- The agent that an item of a bundle names. -/
def namedAgent : Json → Option Capability
  | .obj item => (getCapability db (fieldText p item "uri")).filter (·.capabilityType = .agent)
  | _ => none

/-- The first agent of the root bundle that a stage carries along. -/
def rootAgent (context : Dict) : Option Capability :=
  (bundleItemsAt "capabilityBundle" context).findSome? (namedAgent p db)

/-- The value that a context carries along at a key. -/
def carried (context : Dict) (key : String) : Json := (Dict.get? context key).getD .null

/-- The fields of a root context that a stage carries along. -/
def rootCarriedKeys : List String :=
  ["workflowId", "repo", "worktree", "baseCommit", "capabilityBundle", "capabilityBinding",
    "capabilityBundleHash", "capabilityBindingHash", "scopeHash", "scope", "upstreamDelegationId"]

/-- The root context that a stage carries along. -/
def stageRootContext (context : Dict) : Dict :=
  ("schema", .str "asgcode.capmesh.delegation.context.v1") ::
    ("objective", .str (routingObjective p context)) ::
    (rootCarriedKeys.map fun key => (key, carried context key)) ++
    if (Dict.get? context "authorityEvidence").isSome then
      [("authorityEvidence", carried context "authorityEvidence")]
    else []

/-- The record of the root delegation is one of the principal, with the workflow and the hashes. -/
def upstreamAgrees (context : Dict) (upstreamId bundleHash bindingHash : String) :
    Except Failure Unit :=
  match host.taskFile upstreamId with
  | none => .error (.value "upstream CapMesh delegation envelope is unavailable")
  | some (.obj record) =>
      match Dict.get? record "context" with
      | some (.obj upstream) =>
          require (Dict.get? record "taskId" = some (.str upstreamId) &&
            Dict.get? record "principal" = some (.str request.principal.subject) &&
            sameValue host (Dict.get? upstream "workflowId") (Dict.get? context "workflowId") &&
            Dict.get? upstream "capabilityBundleHash" = some (.str bundleHash) &&
            Dict.get? upstream "capabilityBindingHash" = some (.str bindingHash))
            "upstream CapMesh delegation binding is invalid"
      | _ => .error (.runtime "object has no attribute 'get'")
  | some _ => .error (.runtime "object has no attribute 'get'")

/-- `re.fullmatch(r"[a-z0-9][a-z0-9_.-]{0,63}", text)`. -/
def isStageId (text : String) : Bool :=
  match text.toList with
  | first :: rest =>
      (first.isLower || first.isDigit) && rest.length ≤ 63 &&
        rest.all fun c => c.isLower || c.isDigit || c = '_' || c = '.' || c = '-'
  | [] => false

/-- Whether an envelope is bound to its context, its stage bundle and its root delegation. -/
def envelopeAgrees (context envelope workflow stageBundle : Dict) (stageHash bindingHash : String) :
    Bool :=
  Dict.get? context "stageCapabilityBundleHash" = some (.str stageHash) &&
  Dict.get? envelope "schema" = some (.str "asgcode.task-envelope.v2") &&
  sameValue host (Dict.get? envelope "workflow_id") (Dict.get? context "workflowId") &&
  isStageId (fieldText p envelope "stage_id") &&
  (match Dict.get? envelope "objective" with
    | some (.str objective) => objective ≠ ""
    | _ => false) &&
  sameValue host (Dict.get? envelope "repository") (Dict.get? context "repo") &&
  (match Dict.get? envelope "write_set" with
    | some (.arr _) => true
    | _ => false) &&
  sameValue host (Dict.get? envelope "bundle_id") (Dict.get? stageBundle "bundle_id") &&
  Dict.get? envelope "bundle_digest" = some (.str stageHash) &&
  sameValue host (Dict.get? envelope "scope") (Dict.get? context "scope") &&
  sameValue host (Dict.get? workflow "repository") (Dict.get? context "repo") &&
  sameValue host (Dict.get? workflow "base_commit") (Dict.get? context "baseCommit") &&
  isSha256 (fieldText p workflow "admission_sha256") &&
  Dict.get? workflow "capability_binding_sha256" = some (.str bindingHash) &&
  sameValue host (Dict.get? workflow "upstream_delegation_id")
    (Dict.get? context "upstreamDelegationId") &&
  isTaskId (fieldText p context "upstreamDelegationId")

/-- The branch of `_validate_authoritative_bundle` for a stage. -/
def validateStage (task : String) (context : Dict) : Except Failure DelegatedBundle := do
  require (context.all (fun field => (stageContextKeys ++ normalizedOnlyKeys).contains field.1) &&
    stageContextKeys.all (Dict.has context))
    "stage delegation context fields are not canonical"
  let (envelope, workflow) ← stageEnvelope host task
  match rootAgent p db context with
  | none => .error (.value "root capability bundle has no authoritative agent")
  | some agent => do
      let root ← validateRootAuthoritativeBundle p host db request agent
        (boundTask (routingObjective p context) (carried context "capabilityBinding"))
        (some (.obj (stageRootContext p context)))
      let upstreamId := fieldText p context "upstreamDelegationId"
      verifyBundleReceipt p host (Dict.get? context "capmeshAuthorityReceipt") upstreamId
        (fieldText p context "workflowId") root.bundleHash root.bindingHash
      upstreamAgrees host request context upstreamId root.bundleHash root.bindingHash
      let (stageBundle, stageHash, evidence) ← validateStageBundle p host db request selected
        (Dict.get? context "stageCapabilityBundle") (fieldText p envelope "objective")
      require (evidenceAgrees host (Dict.get? context "stageAuthorityEvidence") evidence)
        "caller stage authority evidence conflicts with cpubox computation"
      require (envelopeAgrees p host context envelope workflow stageBundle stageHash
        root.bindingHash)
        "stage task envelope does not match its authoritative workflow binding"
      .ok ⟨Dict.set (Dict.set (Dict.set (Dict.set (Dict.set root.context "stageCapabilityBundle"
        (.obj stageBundle)) "stageCapabilityBundleHash" (.str stageHash))
        "capmeshAuthorityReceipt" (carried context "capmeshAuthorityReceipt"))
        "upstreamDelegationId" (carried context "upstreamDelegationId"))
        "stageAuthorityEvidence" evidence, stageHash, root.bindingHash⟩

/-- `_validate_authoritative_bundle`. -/
def validateAuthoritativeBundle (task : String) (value : Option Json) :
    Except Failure DelegatedBundle :=
  match value with
  | some (.obj context) =>
      if Dict.has context "stageCapabilityBundle" then
        validateStage p host db request selected task context
      else validateRootAuthoritativeBundle p host db request selected task value
  | _ => validateRootAuthoritativeBundle p host db request selected task value

end

end Capmesh
