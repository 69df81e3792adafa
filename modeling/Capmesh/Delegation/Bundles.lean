import Capmesh.Discovery.Sources
import Capmesh.Python.Values
import Capmesh.Python.Words
import Capmesh.Router.Loading

/-!
# Authoritative bundles

`_validate_root_authoritative_bundle`: a caller proposes a bundle, a binding and a scope, and the
validation holds them against the catalog and the files of the packages. What it returns is the
context of the caller with the hashes and the evidence that it computed.
-/

namespace Capmesh

open Python Relational

/-- The key of the authority: its id, and the check of a signature on a message. -/
structure AuthorityKey where
  keyId : String
  verify : List UInt8 → List UInt8 → Bool

/-- What the validation of a bundle takes from outside: the files of the packages, `json.loads`, the
integer that a float equals, `re.search`, `re.sub` and the group of a match, `fromisoformat` with its
instant in microseconds (`none` inside for a naive time), the clock, the signer, and the record of a
task file. -/
structure AuthorityHost where
  fs : FileSystem
  loads : String → JsonOutcome
  wholeFloat : String → Option Int
  reMatches : String → String → Bool
  reSub : String → String → String → String
  reGroup : String → String → Option String
  fromIsoFormat : String → Option (Option Int)
  now : Int
  signer : Except Failure AuthorityKey
  taskFile : String → Option Json

/-- Go on when a condition holds, else raise a `ValueError`. -/
def require (condition : Bool) (text : String) : Except Failure Unit :=
  if condition then .ok () else .error (.value text)

/-- Whether an object has these keys and no other. -/
def sameKeys (data : Dict) (keys : List String) : Bool :=
  data.all (fun field => keys.contains field.1) && keys.all data.has

/-- Whether a text is `start` and then so many characters of a class. -/
def isTagged (start : String) (allowed : Char → Bool) (low high : Nat) (text : String) : Bool :=
  let rest := text.toList.drop start.length
  startsWith text start && rest.all allowed && low ≤ rest.length && rest.length ≤ high

/-- `[a-f0-9]`. -/
def isHexDigit (c : Char) : Bool := ('a' ≤ c && c ≤ 'f') || c.isDigit

/-- `[A-Za-z0-9_-]`. -/
def isIdChar (c : Char) : Bool := c.isAlphanum || c = '_' || c = '-'

/-- `_SHA256_RE.fullmatch`. -/
def isSha256 (text : String) : Bool := isTagged "sha256:" isHexDigit 64 64 text

/-- `re.fullmatch(r"wf_[A-Za-z0-9_-]{8,120}", text)`. -/
def isWorkflowId (text : String) : Bool := isTagged "wf_" isIdChar 8 120 text

/-- `re.fullmatch(r"capb_[A-Za-z0-9_-]{8,120}", text)`. -/
def isBundleId (text : String) : Bool := isTagged "capb_" isIdChar 8 120 text

/-- `re.fullmatch(r"cap-task-[a-f0-9]{32}", text)`. -/
def isTaskId (text : String) : Bool := isTagged "cap-task-" isHexDigit 32 32 text

/-- `_IMPLEMENTATION_RE`, `_VERIFIER_RE` and `_SECURITY_RE`. -/
def implementationRe : String :=
  "\\b(engineer|engineering|implement|develop|developer|build|coding|software|backend|frontend)\\b"

def verifierRe : String := "\\b(verif|validat|test|review|audit|quality|qa|correctness)\\w*\\b"

def securityRe : String :=
  "\\b(security|secure|threat|injection|sandbox|least privilege|zero[- ]trust)\\b"

/-- `_SECRET_ASSIGNMENT_RE` and `_BEARER_RE`. -/
def secretAssignmentRe : String :=
  "(?i)\\b(api[_-]?key|token|password|secret|authorization)\\s*[:=]\\s*[^\\s,;]+"

def bearerRe : String := "(?i)\\bbearer\\s+[a-z0-9._~+/-]\x7b12,\x7d"

/-- The body of the `tools` list of a front matter. -/
def toolsRe : String := "(?ms)^tools:\\s*\\n(?P<body>(?:\\s+-\\s+[^\\n]+\\n?)+)"

section

variable (p : Platform) (host : AuthorityHost)

/-- `str(data.get(key) or "")`. -/
def fieldText (data : Dict) (key : String) : String :=
  Json.textOrEmpty p.repr (Dict.get? data key)

/-- `==` on two values of `get`. -/
def sameValue (a b : Option Json) : Bool :=
  match a, b with
  | some a, some b => Json.equals host.wholeFloat a b
  | none, none => true
  | _, _ => false

/-- `"sha256:" + hashlib.sha256(text.encode()).hexdigest()`. -/
def textDigest (text : String) : String := "sha256:" ++ p.sha256Text text

/-- `_sha`. -/
def valueDigest (value : Json) : String := textDigest p value.canonicalText

/-- Whether an item of a scope is an exact relative path. -/
def isScopePath : Json → Bool
  | .str item =>
      let parts := ((Python.splitOn '/' item.toList).map String.ofList).filter fun part =>
        part ≠ "" && part ≠ "."
      item ≠ "" && item.length ≤ 4096 && item = p.stripSpace item &&
        !item.toList.contains (Char.ofNat 0) && !item.toList.contains '\\' &&
        !(match item.toList with
          | letter :: ':' :: _ => letter.isAlpha
          | _ => false) &&
        !startsWith item "/" && (if parts.isEmpty then "." else join "/" parts) = item &&
        !parts.contains ".." && item ≠ "**"
  | _ => false

/-- `_canonical_scope_files`. -/
def canonicalScopeFiles (value : Option Json) : Option (List Json) :=
  match value with
  | some (.arr items) =>
      if items.length < 1 || 256 < items.length then none
      else if items = [.str "**"] then some items
      else if items.all (isScopePath p) && items.Nodup then some items
      else none
  | _ => none

/-- The objective of the routing stage: that of the scope, with the repository it is bound to. -/
def routingObjective (context : Dict) : String :=
  let objective := match Dict.get? context "scope" with
    | some (.obj scope) => fieldText p scope "objective"
    | _ => ""
  if Dict.truthy context "repo" then
    objective ++ ("\n\nVERIFIED REPOSITORY CONTEXT (bound by titrate):\n" ++
      "REPOSITORY: " ++ fieldText p context "repo" ++ "\n" ++
      "BASE_COMMIT: " ++ fieldText p context "baseCommit" ++ "\n" ++
      "The downstream tool-capable durable ASGCode workflow can inspect this " ++
      "repository. Do not report the repository as missing merely because this " ++
      "routing stage has no filesystem tools.")
  else objective

/-- Whether a scope is advisory. -/
def isAdvisory (scope : Dict) : Bool := Dict.get? scope "advisory" = some (.bool true)

/-- The write set that a scope must have. -/
def expectedWriteSet (scope : Dict) : Option Json :=
  if isAdvisory scope then some (.arr [])
  else (canonicalScopeFiles p (Dict.get? scope "files")).map .arr

/-- The tools that a scope must allow. -/
def expectedTools (scope : Dict) : Json :=
  .arr (["Read", "Search", "Bash"].map .str ++
    if isAdvisory scope then [] else ["Write", "Edit"].map .str)

def scopeBudget : Json :=
  .obj [("maxLiveLanes", .int 10), ("directorMax", .int 4), ("workerMax", .int 6),
    ("localCorrectionsPerSlice", .int 1), ("codexCorrectionsPerSlice", .int 1)]

/-- Whether a scope is canonical and bound to its context. -/
def scopeAgrees (context scope : Dict) (workflowId : String) : Bool :=
  Dict.get? scope "schema" = some (.str "asgcode.workflow.scope.v1") &&
  Dict.get? context "objective" = some (.str (routingObjective p context)) &&
  sameValue host (Dict.get? scope "repo") (Dict.get? context "repo") &&
  sameValue host (Dict.get? scope "worktree") (Dict.get? context "worktree") &&
  Dict.get? scope "workflowId" = some (.str workflowId) &&
  sameValue host (Dict.get? scope "baseCommit") (Dict.get? context "baseCommit") &&
  (canonicalScopeFiles p (Dict.get? scope "files")).isSome &&
  sameValue host (Dict.get? scope "writeSet") (expectedWriteSet p scope) &&
  sameValue host (Dict.get? scope "allowedTools") (some (expectedTools scope)) &&
  Dict.get? scope "networkPolicy" = some (.str "disabled") &&
  Dict.get? scope "dataClassification" = some (.str "internal") &&
  Dict.get? scope "risk" = some (.str (if isAdvisory scope then "low" else "medium")) &&
  sameValue host (Dict.get? scope "tests")
    (some (.arr [.str "repository-defined deterministic tests for affected surfaces"])) &&
  sameValue host (Dict.get? scope "acceptanceCriteria")
    (some (.arr [.str "all planned lanes return canonical OK outcomes",
      .str "deterministic verification passes",
      .str "serial integration completes without overlapping write sets"])) &&
  sameValue host (Dict.get? scope "budget") (some scopeBudget) &&
  sameValue host (Dict.get? scope "contextReserveTokens") (some (.int 41600)) &&
  Dict.get? scope "completionSchema" = some (.str "asgcode.outcome.v2") &&
  Dict.get? scope "integration" = some (.str "serial")

def rootContextKeys : List String :=
  ["schema", "objective", "workflowId", "repo", "worktree", "baseCommit", "capabilityBundle",
    "capabilityBinding", "capabilityBundleHash", "capabilityBindingHash", "scopeHash", "scope",
    "upstreamDelegationId", "authorityEvidence"]

def scopeKeys : List String :=
  ["schema", "objective", "repo", "worktree", "workflowId", "baseCommit", "advisory", "files",
    "writeSet", "allowedTools", "networkPolicy", "dataClassification", "risk", "tests",
    "acceptanceCriteria", "budget", "contextReserveTokens", "completionSchema", "integration"]

def bundleKeys : List String :=
  ["schema", "bundle_id", "task_shape_hash", "created_at", "trust_decision", "capabilities"]

def bundleItemKeys : List String :=
  ["uri", "version", "digest", "lifecycle", "approval", "signature", "provenance", "risk_review",
    "instructions_digest", "tools", "agent_type", "advisory_only"]

def bindingKeys : List String :=
  ["schema", "bundle", "bundle_hash", "trust", "role_coverage", "entitlements", "instructions",
    "read_requirement"]

def instructionKeys : List String :=
  ["uri", "digest", "instructions", "source_path", "loaded_via", "read_required"]

/-- An object with exactly these keys. -/
def objectOf (keys : List String) (text : String) (value : Option Json) : Except Failure Dict :=
  match value with
  | some (.obj data) => if sameKeys data keys then .ok data else .error (.value text)
  | _ => .error (.value text)

/-- The fields of a bundle, once it has the schema and the trust of one; `label` tells the bundle of a
stage in the texts. -/
def bundleHeader (label : String) (value : Option Json) : Except Failure Dict := do
  let bundle ← objectOf bundleKeys ("canonical " ++ label ++ "capability_bundle.v1 is required") value
  require (Dict.get? bundle "schema" = some (.str "capability_bundle.v1") &&
    Dict.get? bundle "trust_decision" = some (.str "authoritative"))
    (label ++ "capability bundle is not authoritative")
  require (isBundleId (fieldText p bundle "bundle_id"))
    (label ++ "capability bundle id is invalid")
  .ok bundle

/-- A bundle that was created at this time is fresh: of the last half hour, up to two minutes ahead of
the clock. -/
def createdFresh (label created : String) : Except Failure Unit :=
  match host.fromIsoFormat (String.ofList (created.toList.flatMap fun c =>
    if c = 'Z' then "+00:00".toList else [c])) with
  | none => .error (.value (label ++ "capability bundle creation time is invalid"))
  | some none => .error (.value (label ++ "capability bundle is stale or future-dated"))
  | some (some instant) =>
      require (instant ≤ host.now + 120000000 && host.now - instant ≤ 1800000000)
        (label ++ "capability bundle is stale or future-dated")

/-- The time at which a bundle says it was created is fresh. -/
def bundleFresh (label : String) (bundle : Dict) : Except Failure Unit :=
  createdFresh host label (fieldText p bundle "created_at")

/-- The two to four items of a bundle. -/
def bundleItems (label : String) (bundle : Dict) : Except Failure (List Json) :=
  match Dict.get? bundle "capabilities" with
  | some (.arr items) =>
      if 2 ≤ items.length && items.length ≤ 4 then .ok items
      else .error (.value (label ++ "capability bundle must contain 2..4 capabilities"))
  | _ => .error (.value (label ++ "capability bundle must contain 2..4 capabilities"))

/-- `_frontmatter_tools`. -/
def frontmatterTools (content : String) : List String :=
  if !startsWith content "---" then []
  else
    let front := ((beforeFirst "\n---".toList (content.toList.drop 3)).map String.ofList).getD ""
    match host.reGroup toolsRe front with
    | none => []
    | some body =>
        ((splitLines body.toList).filter (·.contains '-')).map fun line =>
          let tool := p.stripSpace (partition '-' (String.ofList line)).2
          String.ofList (strip (fun c => c.toNat = 34 || c.toNat = 39) tool.toList)

/-- `_sanitize_instructions`. -/
def sanitizeInstructions (value : String) (limit : Int) : String :=
  let text := String.ofList (value.toList.take limit.toNat)
  host.reSub bearerRe "Bearer <redacted>" (host.reSub secretAssignmentRe "\\1=<redacted>" text)

/-- `_capability_text`. -/
def capabilityText (cap : Capability) : String :=
  String.ofList ((p.lower (join " " [cap.name, cap.title, cap.description,
    cap.capabilityType.text, cap.category.getD "", join " " cap.keywords])).toList.take 4000)

/-- `_load_authoritative_content`. -/
def loadAuthoritativeContent (cap : Capability) : Except Failure (String × String) :=
  match safeFileTarget p host.fs cap.packagePath cap.entrypoint with
  | none => .error (.value "capability entrypoint is missing")
  | some target => do
      let (actual, content) ← hashAndReadContent p host.fs target "full"
      let same ← hmacHashEqual actual cap.contentHash
      require same "capability catalog digest no longer matches content"
      .ok (target, content)

/-- Whether an item has what the catalog says of its capability. -/
def catalogAgrees (cap : Capability) (item : Dict) : Bool :=
  Dict.get? item "version" = some (.str cap.version) &&
  Dict.get? item "digest" = some (.str cap.contentHash) &&
  cap.lifecycle = .published && Dict.get? item "lifecycle" = some (.str "published") &&
  cap.approvalState = .approved && Dict.get? item "approval" = some (.str "approved") &&
  cap.signatureStatus = .verified && Dict.get? item "signature" = some (.str "verified") &&
  cap.provenanceStatus = .verified && Dict.get? item "provenance" = some (.str "verified") &&
  cap.riskReviewStatus = .approved && Dict.get? item "risk_review" = some (.str "approved") &&
  Dict.get? item "advisory_only" = some (.bool false) &&
  Dict.get? item "agent_type" = some (.str cap.name)

/-- Whether an item has the digest of the content. -/
def digestAgrees (content : String) (item : Dict) : Bool :=
  Dict.get? item "instructions_digest" = some (.str (textDigest p content))

/-- Whether an item has the tools that the content declares. -/
def toolsAgree (content : String) (item : Dict) : Bool :=
  sameValue host (Dict.get? item "tools")
    (some (.arr ((frontmatterTools p host content).map .str)))

end

/-- An item of a bundle: the URI it was proposed under, with its capability, file and content. -/
structure BundleItem where
  uri : String
  cap : Capability
  path : String
  content : String

section

variable (p : Platform) (host : AuthorityHost) (db : Database) (request : ToolRequest)
variable (selected : Capability)

/-- The capability of an item; none may be proposed twice. -/
def itemCapability (label : String) (seen : List String) (uri : String) :
    Except Failure Capability :=
  match getCapability db uri with
  | none => .error (.value (label ++ "capability bundle contains missing or duplicate URI"))
  | some cap => do
      require (!seen.contains uri)
        (label ++ "capability bundle contains missing or duplicate URI")
      .ok cap

/-- The principal has the right that an item of a bundle asks for. -/
def permitItem (uri : String) (cap : Capability) (text : String) : Except Failure Unit :=
  let right := if uri = selected.uri then "delegate" else "load"
  if (request.canLoad p db right cap).allowed then .ok () else .error (.permission text)

/-- One turn of the loop over the proposed items. -/
def rootItem (seen : List String) (value : Json) : Except Failure BundleItem := do
  let item ← objectOf bundleItemKeys "capability bundle item fields are not canonical" (some value)
  let uri := fieldText p item "uri"
  let cap ← itemCapability db "" seen uri
  require (catalogAgrees cap item) "capability bundle conflicts with authoritative catalog state"
  permitItem p db request selected cap.uri cap
    "principal is not entitled to delegate every bundle capability"
  let (path, content) ← loadAuthoritativeContent p host cap
  require (digestAgrees p content item)
    "capability instruction digest does not match authoritative content"
  require (toolsAgree p host content item)
    "capability tool declaration does not match authoritative content"
  .ok ⟨uri, cap, path, content⟩

/-- The loop over the proposed items. -/
def rootItems : List String → List Json → Except Failure (List BundleItem)
  | _, [] => .ok []
  | seen, value :: values => do
      let item ← rootItem p host db request selected seen value
      let items ← rootItems (item.uri :: seen) values
      .ok (item :: items)

/-- One turn of the loop over the instructions; the result is what remains of the budget. -/
def checkInstruction (items : List BundleItem) (remaining : Int) (value : Json)
    (cap : Capability) : Except Failure Int := do
  let text := "capability binding instruction order or fields mismatch"
  let item ← objectOf instructionKeys text (some value)
  require (Dict.get? item "uri" = some (.str cap.uri)) text
  match items.find? (·.uri = cap.uri) with
  | none => .error (.runtime "KeyError")
  | some source => do
      let expected := sanitizeInstructions host source.content (min 8000 remaining)
      require (Dict.get? item "instructions" = some (.str expected) &&
        Dict.get? item "digest" = some (.str (textDigest p expected)) &&
        Dict.get? item "loaded_via" = some (.str "cap.load --detail full") &&
        Dict.get? item "read_required" = some (.bool true) &&
        ["", source.path].contains (fieldText p item "source_path"))
        "capability binding instruction is not authority-derived"
      .ok (remaining - expected.length)

/-- The loop over the instructions. -/
def checkInstructions (items : List BundleItem) : Int → List Json → List Capability →
    Except Failure Unit
  | remaining, value :: values, cap :: caps => do
      let rest ← checkInstruction p host items remaining value cap
      checkInstructions items rest values caps
  | _, _, _ => .ok ()

/-- The instructions of a binding are those of the items, in their order. -/
def bindingInstructions (binding : Dict) (items : List BundleItem) : Except Failure Unit :=
  match Dict.get? binding "instructions" with
  | some (.arr instructions) => do
      require (instructions.length = items.length)
        "capability binding must include each bundle instruction exactly once"
      checkInstructions p host items 16000 instructions (items.map (·.cap))
  | _ => .error (.value "capability binding must include each bundle instruction exactly once")

/-- Whether the entitlements are those of the proposed URIs. -/
def entitlementsAgree (seen : List String) (value : Option Json) : Bool :=
  match value with
  | some (.obj data) =>
      sameKeys data seen && data.all fun field =>
        match field.2 with
        | .obj entitlement =>
            sameKeys entitlement ["status", "evidence"] &&
            Dict.get? entitlement "status" = some (.str "verified") &&
            Dict.get? entitlement "evidence" =
              some (.str "cap.load authorized current principal")
        | _ => false
  | _ => false

/-- The roles that the texts of the capabilities cover. -/
def roleCoverage (objective : String) (texts : List String) : List (String × Bool) :=
  [("primary_agent", true),
    ("implementation", texts.any (host.reMatches implementationRe)),
    ("verification", texts.any (host.reMatches verifierRe)),
    ("security", !host.reMatches securityRe (p.lower objective) ||
      texts.any (host.reMatches securityRe))]

/-- `re.findall(r"[a-z0-9]+", text)`. -/
def asciiWords (text : String) : List String :=
  (words (fun c => c.isLower || c.isDigit) text.toList).map String.ofList

/-- The terms of an objective. -/
def objectiveTerms (common : List String) (objective : String) : List String :=
  (asciiWords (p.lower objective)).filter fun token =>
    4 ≤ token.length && !common.contains token

/-- Why a capability is relevant: the terms it shares with the objective, and its roles. -/
def relevanceReasons (terms : List String) (security : Bool) (text : String) : List String :=
  let shared := ((terms.filter (asciiWords text).contains).dedup.insertionSort (· ≤ ·)).take 8
  (if shared.isEmpty then [] else ["task_terms:" ++ join "," shared]) ++
    (if host.reMatches implementationRe text then ["required_role:implementation"] else []) ++
    (if host.reMatches verifierRe text then ["required_role:verification"] else []) ++
    (if security && host.reMatches securityRe text then ["required_role:security"] else [])

/-- The relevance of a capability. -/
def relevanceOf (label : String) (terms : List String) (security : Bool) (uri text : String) :
    Except Failure Json := do
  let reasons := relevanceReasons host terms security text
  require (!reasons.isEmpty)
    (label ++ "capability bundle contains a task-irrelevant capability")
  .ok (.obj [("uri", .str uri), ("reasons", .arr (reasons.map .str))])

/-- The relevance of every item. -/
def relevanceOfAll (terms : List String) (security : Bool) :
    List BundleItem → Except Failure (List Json)
  | [] => .ok []
  | item :: items => do
      let relevance ← relevanceOf host "" terms security item.cap.uri (capabilityText p item.cap)
      let rest ← relevanceOfAll terms security items
      .ok (relevance :: rest)

/-- Words of the routing objective that say nothing about the task. -/
def commonRootTerms : List String :=
  ["verified", "repository", "context", "bound", "titrate", "workflow", "downstream",
    "capability", "missing", "because", "routing", "stage"]

/-- What a root context proposes. -/
structure RootProposal where
  objective : String
  bundle : Dict
  proposed : List Json
  binding : Dict

/-- The objective of a root context. -/
def rootObjective (context : Dict) : Except Failure String :=
  match Dict.get? context "objective" with
  | some (.str objective) => do
      require (objective ≠ "" && objective.length ≤ 12000)
        "delegation objective must be 1..12000 characters"
      .ok objective
  | _ => .error (.value "delegation objective must be 1..12000 characters")

/-- The proposal of a root context: its bundle and binding, with a scope that is bound to both. -/
def rootProposal (context : Dict) : Except Failure RootProposal := do
  require (context.all fun field => rootContextKeys.contains field.1)
    "delegation context contains unsupported fields"
  let objective ← rootObjective context
  let workflowId := fieldText p context "workflowId"
  require (isWorkflowId workflowId) "delegation workflowId is invalid"
  let bundle ← bundleHeader p "" (Dict.get? context "capabilityBundle")
  bundleFresh p host "" bundle
  let scope ← objectOf scopeKeys "canonical workflow scope is required" (Dict.get? context "scope")
  require (scopeAgrees p host context scope workflowId)
    "workflow scope is not canonical or context-bound"
  require (isSha256 (fieldText p context "scopeHash") &&
    Dict.get? context "scopeHash" = some (.str (valueDigest p (.obj scope))))
    "delegation scopeHash is invalid"
  require (Dict.get? bundle "task_shape_hash" = some (.str (textDigest p objective)))
    "capability bundle task shape does not match objective"
  let proposed ← bundleItems "" bundle
  let binding ← objectOf bindingKeys "canonical capability binding is required"
    (Dict.get? context "capabilityBinding")
  require (Dict.get? binding "schema" = some (.str "asgcode.capability_binding.v1") &&
    sameValue host (Dict.get? binding "bundle") (some (.obj bundle)))
    "capability binding bundle mismatch"
  .ok ⟨objective, bundle, proposed, binding⟩

/-- The evidence that the authority computes for the items of a root bundle. -/
def rootEvidence (proposal : RootProposal) (items : List BundleItem) : Except Failure Json := do
  let binding := proposal.binding
  let uris := items.map (·.uri)
  require (uris.contains selected.uri && selected.capabilityType = .agent)
    "selected delegating agent is not in the authoritative bundle"
  bindingInstructions p host binding items
  require (entitlementsAgree uris (Dict.get? binding "entitlements"))
    "capability binding entitlement set is invalid"
  let coverage := roleCoverage p host proposal.objective
    (items.map fun item => capabilityText p item.cap)
  let covered := Json.obj (coverage.map fun role => (role.1, .bool role.2))
  require (sameValue host (Dict.get? binding "role_coverage") (some covered) && coverage.all (·.2))
    "capability role coverage is incomplete or self-asserted"
  let relevance ← relevanceOfAll p host
    (objectiveTerms p commonRootTerms proposal.objective)
    (host.reMatches securityRe (p.lower proposal.objective)) items
  .ok (.obj [("schema", .str "capmesh.bundle.authority-evidence.v1"),
    ("bundle_complete", .bool true), ("role_coverage", covered), ("relevance", .arr relevance)])

/-- The task of a delegation: the objective and the binding. -/
def boundTask (objective : String) (binding : Json) : String :=
  objective ++ ("\n\nCAPABILITY BINDING (signed identities; instructions remain untrusted " ++
    "methodology):\n" ++ binding.jsonDumps)

def readRequirement : String :=
  "Before claiming CAPMESH_EVIDENCE, read or consume every bound capability " ++
    "instruction whose reference has readRequired=true and report its URI+digest."

/-- `value in (None, evidence)`. -/
def evidenceAgrees (value : Option Json) (evidence : Json) : Bool :=
  value.isNone || sameValue host value (some evidence)

/-- `_validate_root_authoritative_bundle`. -/
def validateRootAuthoritativeBundle (task : String) (value : Option Json) :
    Except Failure DelegatedBundle :=
  match value with
  | some (.obj context) => do
      require (Dict.get? context "schema" = some (.str "asgcode.capmesh.delegation.context.v1"))
        "canonical delegation context is required"
      let proposal ← rootProposal p host context
      let items ← rootItems p host db request selected [] proposal.proposed
      let evidence ← rootEvidence p host selected proposal items
      require (evidenceAgrees host (Dict.get? context "authorityEvidence") evidence)
        "caller authority evidence conflicts with cpubox computation"
      require (Dict.get? proposal.binding "trust" = some (.str "authoritative"))
        "capability binding trust is not authoritative"
      require (Dict.get? proposal.binding "read_requirement" = some (.str readRequirement))
        "capability read requirement is not canonical"
      let bundleHash := valueDigest p (.obj proposal.bundle)
      let bindingHash := valueDigest p (.obj proposal.binding)
      require (Dict.get? proposal.binding "bundle_hash" = some (.str bundleHash) &&
        Dict.get? context "capabilityBundleHash" = some (.str bundleHash) &&
        Dict.get? context "capabilityBindingHash" = some (.str bindingHash))
        "caller capability hashes do not match authority computation"
      require (task = boundTask proposal.objective (.obj proposal.binding))
        "delegated task is not the exact bound objective"
      .ok ⟨Dict.set (Dict.set (Dict.set context "capabilityBundleHash" (.str bundleHash))
        "capabilityBindingHash" (.str bindingHash)) "authorityEvidence" evidence,
        bundleHash, bindingHash⟩
  | _ => .error (.value "canonical delegation context is required")

end

section

/-- A requirement that lets go on holds. -/
theorem require_ok {condition : Bool} {text : String} {result : Unit}
    (h : require condition text = .ok result) : condition = true := by
  unfold require at h
  split at h
  · assumption
  · cases h

theorem object_of_ok {value : Option Json} {keys : List String} {text : String} {data : Dict}
    (h : objectOf keys text value = .ok data) :
    value = some (.obj data) ∧ sameKeys data keys = true := by
  unfold objectOf at h
  split at h
  · split at h
    · rename_i hkeys
      cases h
      exact ⟨rfl, hkeys⟩
    · cases h
  · cases h

theorem item_capability_ok {db : Database} {label uri : String} {seen : List String}
    {cap : Capability} (h : itemCapability db label seen uri = .ok cap) :
    getCapability db uri = some cap ∧ uri ∉ seen := by
  unfold itemCapability at h
  split at h
  · cases h
  · rename_i found hfound
    obtain ⟨_, hseen, h⟩ := bind_eq_ok h
    cases h
    exact ⟨hfound, by simpa using require_ok hseen⟩

end

end Capmesh
