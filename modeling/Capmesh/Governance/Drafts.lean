import Capmesh.Governance.Promotion

/-!
# Capability drafts

`create_capability_draft` and `update_capability_draft` of `governance.py`. A draft is a
capability written through `upsert_capability` like any other; its URI may come from the
payload, so a draft may name the row of another capability.
`create_capability_draft_ok` and `update_capability_draft_ok` are the inversion lemmas.
-/

namespace Capmesh

open Python Relational

/-- The capability type a text names. -/
def CapabilityType.parse (text : String) : Option CapabilityType :=
  [CapabilityType.skill, .agent, .plugin, .command, .mcpServer, .workflow, .reference,
    .bundle].find? (·.text = text)

/-- The visibility a text names. -/
def Visibility.parse (text : String) : Option Visibility :=
  [("public", Visibility.public), ("internal", .internal), ("protected", .protected),
    ("secret", .secret)].lookup text

/-- The discovery mode a text names. -/
def DiscoveryMode.parse (text : String) : Option DiscoveryMode :=
  [("public", DiscoveryMode.public), ("locked", .locked), ("hidden", .hidden)].lookup text

/-- The risk tier a text names. -/
def RiskTier.parse (text : String) : Option RiskTier :=
  [RiskTier.low, .medium, .high, .critical, .unset].find? (·.text = text)

/-- A value the constructor of a capability checks. -/
def checked {α : Type} (what text : String) : Option α → Except Failure α
  | some value => .ok value
  | none => .error (.value ("Unsupported " ++ what ++ ": " ++ text))

/-- `normalize_version`. -/
def normalizeVersion (p : Platform) (value : String) : String := versionSegment p value

/-- `safe_entrypoint`: the path with its empty and `.` segments dropped. -/
def safeEntrypoint (value : String) : Except Failure String :=
  let parts := ((splitOn '/' value.toList).map String.ofList).filter fun part =>
    part ≠ "" && part ≠ "."
  if startsWith value "/" || parts.contains ".." then
    .error (.value "entrypoint must be a relative path inside the draft package.")
  else .ok (orElse (join "/" parts) ".")

/-- `validate_capability_payload`. -/
def validateCapabilityPayload (p : Platform) (name title description riskTier content : String) :
    Json :=
  let found := scanPromptInjection p content
  let checks : List (String × Bool) :=
    [("hasName", p.stripSpace name ≠ ""), ("hasTitle", p.stripSpace title ≠ ""),
      ("hasDescription", p.stripSpace description ≠ ""),
      ("hasContent", p.stripSpace content ≠ ""),
      ("riskTierKnown", ["low", "medium", "high", "critical"].contains (orElse riskTier "low")),
      ("promptInjectionScan", found.isEmpty)]
  .obj [("valid", .bool (checks.all (·.2))),
    ("checks", .obj (checks.map fun check => (check.1, .bool check.2))),
    ("warnings", .arr (if found.isEmpty then []
      else [.str ("Potential prompt-injection wording found: " ++ join ", " found)]))]

/-- A call of `create_capability_draft`: the payload, the decision of `evaluate_access` on the
store, the state directory, and whether the draft's file could be written. -/
structure DraftCall where
  principal : Principal
  name : String
  title : String
  description : String
  content : String
  capabilityType : String := "workflow"
  storeId : Option String := none
  namespaceId : Option String := none
  version : Option String := none
  entrypoint : Option String := none
  uri : Option String := none
  visibility : Option String := none
  discoveryMode : Option String := none
  plugin : Option String := none
  category : Option String := none
  keywords : List String := []
  riskTier : Option String := none
  manage : Access := ⟨true, ""⟩
  directory : Directory
  stateDir : String := "/root/.capmesh"
  fileWritten : Bool := true

/-- The types a draft may have. -/
def draftTypes : List String :=
  ["skill", "agent", "plugin", "command", "mcp_server", "workflow", "reference", "bundle"]

/-- The checks of `create_capability_draft` before it writes the file: the store of the draft and
its identifier there. -/
def checkDraft (p : Platform) (call : DraftCall) : Except Failure String :=
  let tenant := p.tenantOr call.principal.tenantId
  let storeId := optOr call.storeId
    (p.stableId "store" [tenant, "user_private", call.principal.identity p])
  if p.stripSpace call.title = "" || p.stripSpace call.description = "" || call.content = "" then
    .error (.value "name, title, description, and content are required.")
  else if !draftTypes.contains call.capabilityType then
    .error (.value "Unsupported capability type.")
  else match call.directory.stores.find? fun store =>
      store.id = storeId && store.tenantId = tenant with
    | none => .error (.value "Target store not found.")
    | some store =>
        if (store.kind = .org || store.kind = .system) && !call.manage.allowed then
          .error (.permission call.manage.reason)
        else .ok storeId

/-- The capability of a draft in a store. -/
def draftCapability (p : Platform) (call : DraftCall) (storeId : String) :
    Except Failure Capability := do
  let tenant := p.tenantOr call.principal.tenantId
  let subject := call.principal.subject
  let name := slug p call.name
  let draftId := p.stableId "capdraft"
    [tenant, subject, call.capabilityType, name, optOr call.version "0.1.0"]
  let entrypoint ← safeEntrypoint (optOr call.entrypoint "CAPABILITY.md")
  let draftDir := call.stateDir ++ "/drafts/" ++ draftId
  if !call.fileWritten then .error (.runtime "the draft file cannot be written")
  else match call.directory.namespaces.find? fun space =>
      space.id = optOr call.namespaceId (p.stableId "ns" [tenant, storeId, "personal"]) &&
        space.tenantId = tenant with
    | none => .error (.value "Target namespace not found.")
    | some space => do
        let version := normalizeVersion p (optOr call.version "0.1.0")
        let capabilityType ← checked "capability type" call.capabilityType
          (CapabilityType.parse call.capabilityType)
        let visibilityText := optOr call.visibility "protected"
        let visibility ← checked "visibility" visibilityText (Visibility.parse visibilityText)
        let modeText := optOr call.discoveryMode "hidden"
        let discoveryMode ← checked "discovery mode" modeText (DiscoveryMode.parse modeText)
        let riskText := optOr call.riskTier "low"
        let riskTier ← checked "risk tier" riskText (RiskTier.parse riskText)
        .ok
          { uri := optOr call.uri (String.ofList (rstrip (· = '/') space.uriPrefix.toList) ++ "/" ++
              call.capabilityType ++ "/" ++ name ++ "@" ++ version)
            capabilityType, name, version
            title := p.stripSpace call.title
            description := p.stripSpace call.description
            packagePath := p.normalizePath draftDir
            entrypoint
            sourcePath := p.normalizePath
              (if entrypoint = "." then draftDir else draftDir ++ "/" ++ entrypoint)
            sourceKind := "capmesh_draft"
            sourceSystem := "capmesh.system"
            canonicalKey := join ":" [call.capabilityType, "capmesh-draft", tenant, subject, name,
              version]
            contentHash := "sha256:" ++ p.sha256Text call.content
            visibility, discoveryMode
            owner := subject
            plugin := call.plugin
            category := call.category
            keywords := if call.keywords.isEmpty then [name] else call.keywords
            riskTier
            lifecycle := .draft
            tenantId := tenant
            storeId := some storeId
            namespaceId :=
              some (optOr call.namespaceId (p.stableId "ns" [tenant, storeId, "personal"]))
            createdBy := some subject
            approvalState := .draft
            metadata := [("draft", .bool true), ("editable", .bool true),
              ("source", .str "system.capabilities"),
              ("validation", validateCapabilityPayload p call.name call.title call.description
                riskText call.content)] }

/-- `create_capability_draft`. -/
def createCapabilityDraft (p : Platform) (db : Database) (call : DraftCall) :
    Except Failure Database := do
  let storeId ← checkDraft p call
  let cap ← draftCapability p call storeId
  let (_, result) ← upsertCapability p db cap
  .ok result

/-- A call of `update_capability_draft`: the payload, the decision of `evaluate_access` on the
capability, the text of its file when it can be read, and whether it can be written. -/
structure EditCall where
  capabilityUri : Option String := none
  uri : Option String := none
  name : Option String := none
  title : Option String := none
  description : Option String := none
  keywords : List String := []
  riskTier : Option String := none
  content : Option String := none
  access : Access
  fileText : Option String := none
  fileWritten : Bool := true

/-- `require_capability_for_edit`, with the right to manage. -/
def requireCapabilityForEdit (db : Database) (call : EditCall) : Except Failure Capability :=
  let identifier := optOr call.capabilityUri (optOr call.uri (optOr call.name ""))
  if identifier = "" then .error (.value "capabilityUri is required.")
  else match getCapability db identifier with
    | none => .error (.value "Capability not found.")
    | some cap =>
        if !call.access.allowed then .error (.permission call.access.reason)
        else if cap.approvalState = .approved && !present cap.storeId then
          .error (.permission "Approved capabilities must be edited through prepare-pr.")
        else .ok cap

/-- The content an edit leaves in the file: the payload's, else the file's own. -/
def editedContent (call : EditCall) : Except Failure String :=
  match if present call.content then call.content else call.fileText with
  | none => .error (.runtime "the capability's file cannot be read")
  | some content =>
      if call.content.isSome && !call.fileWritten then
        .error (.runtime "the capability's file cannot be written")
      else .ok content

/-- `update_capability_draft`. -/
def updateCapabilityDraft (p : Platform) (db : Database) (call : EditCall) :
    Except Failure Database := do
  let cap ← requireCapabilityForEdit db call
  let content ← editedContent call
  let title := optOr call.title cap.title
  let description := optOr call.description cap.description
  let riskText := optOr call.riskTier cap.riskTier.text
  let riskTier ← checked "risk tier" riskText (RiskTier.parse riskText)
  let (_, result) ← upsertCapability p db
    { cap with
      title, description, riskTier
      keywords := if call.keywords.isEmpty then cap.keywords else call.keywords
      contentHash := "sha256:" ++ p.sha256Text content
      metadata := cap.metadata.set "validation" (validateCapabilityPayload p
        (optOr call.name cap.name) title description riskText content) }
  .ok result

section

variable {p : Platform} {db result : Database}

theorem draft_capability_ok {call : DraftCall} {storeId : String} {cap : Capability}
    (h : draftCapability p call storeId = .ok cap) :
    cap.sourceKind = "capmesh_draft" ∧ cap.tenantId = p.tenantOr call.principal.tenantId := by
  unfold draftCapability at h
  obtain ⟨entrypoint, -, h⟩ := bind_eq_ok h
  dsimp only at h
  split at h
  · cases h
  split at h
  · cases h
  obtain ⟨capabilityType, -, h⟩ := bind_eq_ok h
  obtain ⟨visibility, -, h⟩ := bind_eq_ok h
  obtain ⟨discoveryMode, -, h⟩ := bind_eq_ok h
  obtain ⟨riskTier, -, h⟩ := bind_eq_ok h
  cases h
  exact ⟨rfl, rfl⟩

theorem create_capability_draft_ok {call : DraftCall}
    (h : createCapabilityDraft p db call = .ok result) :
    ∃ cap id, cap.sourceKind = "capmesh_draft" ∧ upsertCapability p db cap = .ok (id, result) := by
  unfold createCapabilityDraft at h
  obtain ⟨storeId, -, h⟩ := bind_eq_ok h
  obtain ⟨cap, hcap, h⟩ := bind_eq_ok h
  obtain ⟨⟨id, written⟩, hupsert, h⟩ := bind_eq_ok h
  cases h
  exact ⟨cap, id, (draft_capability_ok hcap).1, hupsert⟩

theorem update_capability_draft_ok {call : EditCall}
    (h : updateCapabilityDraft p db call = .ok result) :
    ∃ cap id, upsertCapability p db cap = .ok (id, result) := by
  unfold updateCapabilityDraft at h
  obtain ⟨cap, -, h⟩ := bind_eq_ok h
  obtain ⟨content, -, h⟩ := bind_eq_ok h
  obtain ⟨riskTier, -, h⟩ := bind_eq_ok h
  obtain ⟨⟨id, written⟩, hupsert, h⟩ := bind_eq_ok h
  cases h
  exact ⟨_, id, hupsert⟩

end

end Capmesh
