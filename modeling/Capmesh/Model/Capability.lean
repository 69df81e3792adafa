import Capmesh.Model.Platform

/-!
# Capabilities

The `Capability` record of `models.py` and the lifecycle graph of
`lifecycle_transitions.py`. The columns that the schema or the constructor checks
against a fixed vocabulary are enumerations. The governance columns are open
texts in the schema, so their types carry the named values and `other`.
-/

namespace Capmesh

open Python

/-- `CAPABILITY_TYPES`. -/
inductive CapabilityType where
  | skill | agent | plugin | command | mcpServer | workflow | reference | bundle
  deriving DecidableEq, Repr

/-- The text of a capability type in a URI. -/
def CapabilityType.text : CapabilityType → String
  | .skill => "skill"
  | .agent => "agent"
  | .plugin => "plugin"
  | .command => "command"
  | .mcpServer => "mcp_server"
  | .workflow => "workflow"
  | .reference => "reference"
  | .bundle => "bundle"

/-- `VISIBILITIES`. -/
inductive Visibility where
  | «public» | internal | «protected» | secret
  deriving DecidableEq, Repr

/-- `DISCOVERY_MODES`. -/
inductive DiscoveryMode where
  | «public» | locked | hidden
  deriving DecidableEq, Repr

/-- Risk tiers. `unset` is the empty text, which the `Capability` constructor accepts and the
table's check constraint refuses. -/
inductive RiskTier where
  | low | medium | high | critical | unset
  deriving DecidableEq, Repr

/-- The stored text of a risk tier. -/
def RiskTier.text : RiskTier → String
  | .low => "low"
  | .medium => "medium"
  | .high => "high"
  | .critical => "critical"
  | .unset => ""

/-- `approval_state`. -/
inductive ApprovalState where
  | draft | pending | published | approved | rejected | recalled | demoted | yanked
  | other (text : String)
  deriving DecidableEq, Repr

/-- `lifecycle`. -/
inductive Lifecycle where
  | draft | active | published | deprecated | retired | disabled | deleted | recalled | yanked
  | other (text : String)
  deriving DecidableEq, Repr

/-- `share_state`. -/
inductive ShareState where
  | notShared | shared
  | other (text : String)
  deriving DecidableEq, Repr

/-- `signature_status` and `provenance_status`. -/
inductive CheckStatus where
  | unchecked | pending | verified | system
  | other (text : String)
  deriving DecidableEq, Repr

/-- The stored text of a signature or provenance status. -/
def CheckStatus.text : CheckStatus → String
  | .unchecked => "unchecked"
  | .pending => "pending"
  | .verified => "verified"
  | .system => "system"
  | .other text => text

/-- `risk_review_status`. -/
inductive RiskReview where
  | pending | approved
  | other (text : String)
  deriving DecidableEq, Repr

/-- A discovered or stored capability (`models.Capability`). -/
structure Capability where
  uri : String
  capabilityType : CapabilityType
  name : String
  version : String
  title : String
  description : String
  packagePath : String
  entrypoint : String
  sourcePath : String
  sourceKind : String
  sourceSystem : String
  canonicalKey : String
  contentHash : String
  visibility : Visibility := .internal
  discoveryMode : DiscoveryMode := .public
  owner : String := "asg"
  plugin : Option String := none
  category : Option String := none
  keywords : List String := []
  requiredScopes : List String := []
  allowGroups : List String := []
  allowUsers : List String := []
  riskTier : RiskTier := .low
  mutating : Bool := false
  lifecycle : Lifecycle := .active
  tenantId : String := "asg"
  storeId : Option String := none
  namespaceId : Option String := none
  createdBy : Option String := none
  submittedBy : Option String := none
  promotedFromUri : Option String := none
  approvalState : ApprovalState := .published
  shareState : ShareState := .notShared
  signatureStatus : CheckStatus := .unchecked
  provenanceStatus : CheckStatus := .unchecked
  riskReviewStatus : RiskReview := .pending
  metadata : Dict := []
  sourceCommit : Option String := none
  license : Option String := none
  deriving DecidableEq, Repr

namespace Capability

/-- `index_text`: the non-empty searchable fields, one on a line. -/
def indexText (cap : Capability) : String :=
  join "\n" ([cap.name, cap.title, cap.description, cap.capabilityType.text,
    cap.plugin.getD "", cap.category.getD "", join " " cap.keywords].filter (· ≠ ""))

/-- `_is_system_or_draft`. -/
def isSystemOrDraft (cap : Capability) : Bool :=
  cap.sourceKind = "system_capability" || cap.sourceKind = "capmesh_draft"

end Capability

/-- `CAPABILITY_TRANSITIONS`. -/
def capabilityTransitions : Lifecycle → List Lifecycle
  | .draft => [.active, .deprecated, .retired, .published]
  | .active => [.deprecated, .retired, .draft]
  | .published => [.deprecated, .retired, .active]
  | .deprecated => [.active, .retired]
  | .retired => [.active, .deprecated]
  | .disabled => [.active, .deleted]
  | .deleted => []
  | .recalled => [.active, .draft]
  | .yanked => [.active]
  | .other _ => []

/-- `is_valid_transition`: staying put is always allowed. -/
def isValidTransition (current target : Lifecycle) : Bool :=
  current = target || (capabilityTransitions current).contains target

/-- A skill as discovery reads it, with the content hash of its file; the closed examples use it. -/
def notesSkill (contentHash : String) : Capability :=
  { uri := "cap://asg.local/skill/notes.notes@0-1-0", capabilityType := .skill, name := "notes"
    version := "0.1.0", title := "Notes", description := "Keeps notes."
    packagePath := "/asg-os/plugins/notes", entrypoint := "skills/notes/SKILL.md"
    sourcePath := "/asg-os/plugins/notes/skills/notes/SKILL.md", sourceKind := "skill"
    sourceSystem := "asg-os.plugins", canonicalKey := "skill:notes:notes:0-1-0", contentHash
    plugin := some "notes" }

end Capmesh
