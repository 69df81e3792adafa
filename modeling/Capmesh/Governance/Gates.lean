import Capmesh.CapGuard.QuickScan
import Capmesh.Governance.References

/-!
# The gates of a promotion

`_evaluate` of `lifecycle.py`: the seven gates over the source file, the metadata, the index,
the target of the promotion, the signing key, and the recorded commit. Beside them,
`evaluate_prompt_injection_scan` of `prompt_injection.py`, which `approve_request` asks a
second time and over less. `approve_request` lets the second answers win for
`promptInjectionScan` and `riskTierPolicy`, and falls back to the stored states when the
runner refuses; `approve_request_gates` says what a successful approval has passed.
-/

namespace Capmesh

open Python Relational

/-- What a path names for `_source_bytes`. Expanding it, asking what it names and reading it may
raise what the function lets through. -/
inductive PathEntry where
  | raising (failure : Failure)
  | missing
  | symlink
  | unopenable
  | irregular
  | regular (content : List UInt8)
  deriving DecidableEq, Repr

/-- What a gate run reads outside the database: the files, the signing key with the one that would
be generated, the clock, and `json.loads`. -/
structure GateHost where
  files : String → PathEntry
  crypto : Crypto
  keys : KeyStore
  freshKey : String
  now : String
  jsonLoads : String → JsonOutcome

/-- One gate: its state, and the code of its evidence. -/
structure Gate where
  state : GateState
  code : String
  deriving DecidableEq, Repr

/-- `MAX_SOURCE_BYTES`. -/
def maxSourceBytes : Nat := 4 * 1024 * 1024

/-- `_source_bytes`. -/
def sourceBytes (p : Platform) (host : GateHost) (cap : Capability) :
    Except Failure (Option (List UInt8) × Gate) :=
  match host.files cap.sourcePath with
  | .raising failure => .error failure
  | .missing => .ok (none, ⟨.failed, "source_missing"⟩)
  | .symlink => .ok (none, ⟨.failed, "source_missing"⟩)
  | .unopenable => .ok (none, ⟨.failed, "source_open_failed"⟩)
  | .irregular => .ok (none, ⟨.failed, "source_not_regular_file"⟩)
  | .regular content =>
      if maxSourceBytes < content.length then .ok (none, ⟨.failed, "source_too_large"⟩)
      else if "sha256:" ++ p.sha256 content ≠ cap.contentHash then
        .ok (none, ⟨.failed, "content_hash_mismatch"⟩)
      else .ok (some content, ⟨.passed, "source_hash_verified"⟩)

/-- The key and the value of a line `key: value` of a frontmatter. -/
def frontmatterLine (p : Platform) (line : List Char) : Option (String × String) :=
  match line with
  | [] => none
  | first :: rest =>
      let isKey := fun c : Char => c.isAlphanum || c = '_' || c = '-'
      match rest.dropWhile isKey with
      | ':' :: value =>
          if first.isAlpha then
            some (p.lower (String.ofList (first :: rest.takeWhile isKey)),
              p.stripSpace (String.ofList value))
          else none
      | _ => none

/-- The value that continuation lines spell. -/
def continuedValue (p : Platform) (parts : List String) : String :=
  let quotes := fun (code : Nat) (c : Char) => decide (c.toNat = code)
  String.ofList (strip (quotes 39) (strip (quotes 34) (p.stripSpace (join " " parts)).toList))

/-- The fields read so far, the last first, and a key whose value is still open. -/
abbrev Frontmatter := Option (String × List String) × List (String × String)

/-- Close the open key. -/
def closeField (p : Platform) : Frontmatter → List (String × String)
  | (some (key, parts), fields) => (key, continuedValue p parts) :: fields
  | (none, fields) => fields

/-- Read one line: it continues an open value when it is indented. -/
def readField (p : Platform) (state : Frontmatter) (line : List Char) : Frontmatter :=
  match state.1 with
  | some (key, parts) =>
      if line.head? = some ' ' || line.head? = some '\t' then
        (some (key, parts ++ [p.stripSpace (String.ofList line)]), state.2)
      else newField p (closeField p state) line
  | none => newField p state.2 line
where
  newField (p : Platform) (fields : List (String × String)) (line : List Char) : Frontmatter :=
    match frontmatterLine p line with
    | some (key, value) =>
        if value = "" then (some (key, []), fields) else (none, (key, value) :: fields)
    | none => (none, fields)

/-- `_frontmatter_fields`. -/
def frontmatterFields (p : Platform) (text : String) : List (String × String) :=
  if startsWith text "---" then
    match beforeFirst "---".toList (text.toList.drop 3) with
    | some body => closeField p ((splitLines body).foldl (readField p) (none, []))
    | none => []
  else []

/-- What `_metadata_gate` misses in the record of a capability. -/
def missingRecord (p : Platform) (cap : Capability) : List String :=
  ([("name", cap.name), ("title", cap.title), ("description", cap.description)].filter fun field =>
    p.stripSpace field.2 = "").map (·.1)

/-- Whether a JSON object describes a connection to a server. -/
def isServer (value : Json) (keys : List String) : Bool :=
  match value with
  | .obj fields => keys.any fun key => Dict.truthy fields key
  | _ => false

/-- What `_metadata_gate` misses in a JSON source. -/
def missingJson (p : Platform) (cap : Capability) (parsed : Dict) : List String :=
  if cap.capabilityType = .plugin then
    let name := match Dict.get? parsed "name" with
      | some value => if value.truthy then value.toStr else cap.name
      | none => cap.name
    if p.stripSpace name = "" then ["plugin.name"] else []
  else if cap.capabilityType = .mcpServer then
    if isServer (.obj parsed) ["mcpServers", "command", "url", "transport"] ||
        parsed.any fun field => isServer field.2 ["command", "url", "type"] then []
    else ["mcp_server.connection"]
  else []

/-- What `_metadata_gate` misses in a Markdown source. -/
def missingMarkdown (p : Platform) (cap : Capability) (text : String) : List String :=
  let fields := frontmatterFields p text
  if fields.isEmpty then
    if (p.reSearch "(?m)^#\\s+\\S" text).isNone then ["markdown.heading"] else []
  else if cap.capabilityType = .skill && (fields.lookup "description").getD "" = "" then
    ["frontmatter.description"]
  else []

/-- `_metadata_gate`. Of what `json.loads` raises it catches `JSONDecodeError`. -/
def metadataGate (p : Platform) (host : GateHost) (cap : Capability) (content : List UInt8) :
    Except Failure Gate :=
  let text := p.decodeUtf8 content
  let suffix := p.lower (pathSuffix cap.sourcePath)
  let gate := fun missing : List String =>
    if missing.isEmpty then (.ok ⟨.passed, "metadata_validated_static_only"⟩ : Except Failure Gate)
    else .ok ⟨.failed, "metadata_invalid"⟩
  if suffix = ".json" then
    match host.jsonLoads text with
    | .decodeError => .ok ⟨.failed, "invalid_json"⟩
    | .failed failure => .error failure
    | .value (.obj parsed) => gate (missingRecord p cap ++ missingJson p cap parsed)
    | .value _ => .ok ⟨.failed, "json_root_not_object"⟩
  else if (suffix = ".md" || suffix = ".mdx") &&
      [CapabilityType.skill, .agent, .command].contains cap.capabilityType then
    gate (missingRecord p cap ++ missingMarkdown p cap text)
  else gate (missingRecord p cap)

/-- `_retrieval_gate`. -/
def retrievalGate (db : Database) (cap : Capability) : Gate :=
  if db.sources.any (·.uri = cap.uri) && db.fts.any (·.uri = cap.uri) then
    ⟨.passed, "retrieval_index_verified"⟩
  else ⟨.failed, "retrieval_index_incomplete"⟩

/-- `_prompt_injection_gate`: the metadata and the body are scanned apart. -/
def promptInjectionGate (p : Platform) (cap : Capability) (content : List UInt8) : Gate :=
  let blocks := fun text surface => shouldBlock p (scanPromptInjection p text) cap.name
    (some cap.capabilityType.text) cap.plugin surface
  if blocks (join "\n" [cap.name, cap.title, cap.description]) .metadata ||
      blocks (p.decodeUtf8 content) .body then
    ⟨.failed, "prompt_injection_blocked"⟩
  else ⟨.passed, "no_blocking_prompt_injection"⟩

/-- The scopes of a review. -/
inductive ReviewScope where
  | «private» | org | allUsers
  deriving DecidableEq, Repr

/-- The text of a review scope. -/
def ReviewScope.text : ReviewScope → String
  | .private => "private"
  | .org => "org"
  | .allUsers => "all_users"

/-- `_scope_for` without a requested scope, as a promotion calls it. -/
def scopeFor (directory : Directory) (cap : Capability) (target : Option String) :
    ReviewScope × Option String :=
  let namespaceId := if present target then target else cap.namespaceId
  let space := directory.namespaces.find? fun space => some space.id = namespaceId
  let kind : Option StoreKind := space.bind fun space =>
    (directory.stores.find? (·.id = space.storeId)).map (·.kind)
  match present namespaceId, kind with
  | true, some .allUsers => (.allUsers, namespaceId)
  | true, some .org => (.org, namespaceId)
  | _, _ => (.private, namespaceId)

/-- `_risk_gate`. -/
def riskGate (cap : Capability) (scope : ReviewScope) (approvedException : Bool) : Gate :=
  if scope = .allUsers && (cap.mutating || cap.riskTier = .high || cap.riskTier = .critical) then
    ⟨.failed, "all_users_risk_policy"⟩
  else if scope = .org && cap.riskTier = .critical && !approvedException then
    ⟨.failed, "org_critical_requires_exception"⟩
  else ⟨.passed, "risk_policy_satisfied"⟩

/-- `_attestation_envelope`. -/
def attestationEnvelope (p : Platform) (cap : Capability) (scope : ReviewScope)
    (target : Option String) (reviewer timestamp : String) : Json :=
  .obj [("schema", .str "https://slsa.dev/provenance/v1"), ("tenantId", .str cap.tenantId),
    ("capabilityUri", .str cap.uri), ("canonicalKey", .str cap.canonicalKey),
    ("contentHash", .str cap.contentHash), ("sourceSystem", .str cap.sourceSystem),
    ("sourcePath", .str (p.normalizePath cap.sourcePath)), ("reviewScope", .str scope.text),
    ("targetNamespaceId", (target.map Json.str).getD .null), ("reviewer", .str reviewer),
    ("timestamp", .str timestamp),
    ("assurance", .str "internal-ed25519;not-sigstore-or-transparency-log")]

/-- The signature gate; a dry run persists no key. -/
def signatureGate (p : Platform) (host : GateHost) (envelope : Json) : Gate :=
  match signAttestation p host.crypto host.keys envelope false host.freshKey with
  | .ok _ => ⟨.passed, "ed25519_signature_verified"⟩
  | .error _ => ⟨.failed, "signature_unavailable"⟩

/-- `_provenance_gate`, with `compute_provenance_status`. -/
def provenanceGate (cap : Capability) : Gate :=
  let sourceCommit := match Dict.get? cap.metadata "sourceCommit" with
    | some commit => if commit.truthy then commit.toStr else cap.contentHash
    | none => cap.contentHash
  if sourceCommit = "" || sourceCommit = "unknown" then ⟨.skipped, "provenance_skipped"⟩
  else if cap.contentHash = "" then ⟨.failed, "provenance_unverified"⟩
  else ⟨.passed, "provenance_record_built"⟩

/-- The first three gates of `_evaluate`, with the scan for prompt injections as a parameter. -/
def evaluateSource (p : Platform) (host : GateHost) (cap : Capability)
    (scan : Capability → List UInt8 → Gate) : Except Failure (Gate × Gate × Gate) := do
  let source ← sourceBytes p host cap
  match source.1 with
  | none =>
      .ok (source.2, ⟨.failed, "source_integrity_prerequisite_failed"⟩,
        ⟨.failed, "source_integrity_prerequisite_failed"⟩)
  | some content => do
      let tests ← metadataGate p host cap content
      .ok (source.2, tests, scan cap content)

/-- `_evaluate`. -/
def evaluateGates (p : Platform) (host : GateHost) (db : Database) (cap : Capability)
    (scope : ReviewScope) (target : Option String) (reviewer : String)
    (approvedException : Bool) : Except Failure (List (GateName × Gate)) := do
  let source ← evaluateSource p host cap (promptInjectionGate p)
  .ok [(.sourceIntegrity, source.1), (.tests, source.2.1), (.promptInjectionScan, source.2.2),
    (.retrievalEvals, retrievalGate db cap),
    (.riskTierPolicy, riskGate cap scope approvedException),
    (.signature, signatureGate p host (attestationEnvelope p cap scope target reviewer host.now)),
    (.provenance, provenanceGate cap)]

/-- The state `_evaluate` gives a gate when it returns. -/
def evaluatedState (gates : Except Failure (List (GateName × Gate))) (name : GateName) :
    Option GateState :=
  match gates with
  | .ok gates => (gates.lookup name).map (·.state)
  | .error _ => none

/-- `evaluate_prompt_injection_scan`. -/
def evaluatePromptInjectionScan (p : Platform) (db : Database) (directory : Directory)
    (uri target : String) : GateState × String :=
  match directory.namespaces.find? (·.id = target) with
  | none => (.skipped, "target namespace not found; injection scan not enforced")
  | some space =>
      match directory.stores.find? (·.id = space.storeId) with
      | none => (.skipped, "target store not found; injection scan not enforced")
      | some store =>
          if store.kind ≠ .allUsers && store.kind ≠ .org then
            (.skipped, "injection scan not enforced for " ++ store.kind.text ++
              " promotion targets")
          else match db.capabilityAt uri with
            | none => (.skipped, "source capability not found; injection scan not enforced")
            | some row =>
                let cap := row.cap
                let hits := scanPromptInjection p (join "\n" [cap.name, cap.title, cap.description,
                  (Json.obj cap.metadata).dumps])
                let severity := fun phrase => (classifyScanResult p phrase cap.name
                  (some cap.capabilityType.text) (some (cap.plugin.getD "")) .metadata).1
                if shouldBlock p hits cap.name (some cap.capabilityType.text)
                    (some (cap.plugin.getD "")) .metadata then
                  (.failed, "blocking prompt-injection indicators: " ++ join ", "
                    ((hits.filter (severity · = .block)).dedup.insertionSort (· ≤ ·)))
                else (.passed, "no blocking prompt-injection indicators " ++
                  "(benign hits downgraded to info/allowed)")

/-- The gate runner of `lifecycle.py`, for the promotion of a principal into a namespace. -/
def lifecycleRunner (p : Platform) (host : GateHost) (db : Database) (directory : Directory)
    (principal : Principal) (target : Option String) (approvedException : Bool) : GateRunner where
  evaluate cap :=
    let (scope, namespaceId) := scopeFor directory cap target
    (evaluateGates p host db cap scope namespaceId principal.subject approvedException).map
      (·.map fun gate => (gate.1, gate.2.state))
  injection := evaluatePromptInjectionScan p db directory

/-- A decision that asks the gate runner of `lifecycle.py` about its request's target. -/
def ApproveCall.withLifecycle (p : Platform) (host : GateHost) (db : Database)
    (approvedException : Bool) (call : ApproveCall) : ApproveCall :=
  { call with
    runner := lifecycleRunner p host db call.directory call.principal
      ((db.requestAt call.requestId).map (·.targetNamespaceId)) approvedException }

/-- Whether the runner may evaluate a request: its caller may manage and approve, and the capability
is served in the caller's tenant. -/
structure RunnerServes (p : Platform) (db : Database) (call : ApproveCall)
    (request : PromotionRequest) (cap : Capability) : Prop where
  manage : call.manage.allowed = true
  approve : call.approve.allowed = true
  addressed : p.stripSpace request.capabilityUri ≠ ""
  served : getCapability db (p.stripSpace request.capabilityUri) = some cap
  tenant : cap.tenantId = orElse call.principal.tenantId "asg"

/-- Whether reading a source for its gates raises nothing: what the path names can be asked, and
`json.loads` ends in a value or a `JSONDecodeError` on a JSON source that its hash verifies. -/
structure SourceReads (p : Platform) (host : GateHost) (cap : Capability) : Prop where
  asked : ∀ failure, host.files cap.sourcePath ≠ .raising failure
  loaded : p.lower (pathSuffix cap.sourcePath) = ".json" → ∀ content,
    host.files cap.sourcePath = .regular content → content.length ≤ maxSourceBytes →
    "sha256:" ++ p.sha256 content = cap.contentHash →
    ∀ failure, host.jsonLoads (p.decodeUtf8 content) ≠ .failed failure

/-- Whether the runner can evaluate a request. -/
structure RunnerEvaluates (p : Platform) (host : GateHost) (db : Database) (call : ApproveCall)
    (request : PromotionRequest) (cap : Capability) : Prop extends
    RunnerServes p db call request cap where
  reads : SourceReads p host cap

/-- `_evaluate` on a capability, for the target of a request. -/
def requestGates (p : Platform) (host : GateHost) (db : Database) (call : ApproveCall)
    (approvedException : Bool) (request : PromotionRequest) (cap : Capability) :
    Except Failure (List (GateName × Gate)) :=
  let scope := scopeFor call.directory cap (some request.targetNamespaceId)
  evaluateGates p host db cap scope.1 scope.2 call.principal.subject approvedException

section

variable {p : Platform} {host : GateHost} {db : Database} {call : ApproveCall}
variable {request : PromotionRequest} {cap : Capability} {gates : Gates} {name other : GateName}
variable {state : GateState} {approvedException : Bool}

/-- A gate that is set reads back; the others stay. -/
theorem Gates.get?_set : (gates.set name state).get? other =
    if other = name then some state else gates.get? other := by
  by_cases hany : gates.any (·.1 = name) = true
  · have hkey : ((fun gate : GateName × GateState => decide (gate.1 = other)) ∘
        fun gate => if gate.1 = name then (name, state) else gate) =
        fun gate => decide (gate.1 = other) := by
      funext gate
      simp only [Function.comp_apply]
      split
      · rw [‹gate.1 = name›]
      · rfl
    simp only [Gates.set, if_pos hany, Gates.get?, List.find?_map, hkey, Option.map_map]
    cases hfind : gates.find? fun gate => decide (gate.1 = other) with
    | none =>
        have hne : other ≠ name := by
          rintro rfl
          obtain ⟨gate, hgate, hname⟩ := List.any_eq_true.mp hany
          exact List.find?_eq_none.mp hfind gate hgate hname
        simp [hne]
    | some gate =>
        have hgate : gate.1 = other := by simpa using List.find?_some hfind
        by_cases hne : other = name
        · simp [hgate, hne]
        · simp [hgate, hne]
  · have hnone : gates.find? (fun gate => decide (gate.1 = name)) = none := by
      rw [List.find?_eq_none]
      intro gate hgate hname
      exact hany (List.any_eq_true.mpr ⟨gate, hgate, hname⟩)
    simp only [Gates.set, if_neg hany, Gates.get?, List.find?_append]
    by_cases hne : other = name
    · subst hne
      simp [hnone]
    · simp [hne, Ne.symm hne]

/-- The merged gates of a runner's answers. -/
theorem merge_gates_get? {runner stored : Gates} {names : List GateName} :
    (names.foldl (fun gates name =>
      match runner.get? name with
      | some state => gates.set name state
      | none => gates) stored).get? name =
      if name ∈ names then (runner.get? name).or (stored.get? name) else stored.get? name := by
  induction names generalizing stored with
  | nil => rfl
  | cons first names ih =>
      rw [List.foldl_cons, ih]
      cases hfirst : runner.get? first with
      | none =>
          by_cases hname : name = first
          · subst hname
            simp [hfirst]
          · simp [hname]
      | some state =>
          simp only [Gates.get?_set]
          by_cases hname : name = first
          · subst hname
            simp [hfirst]
          · simp [hname]

theorem check_production_ok {uri : String} {view : GateView}
    (h : checkProduction db uri view = .ok ()) :
    ∀ name ∈ gateNames, view.gates.get? name = some .passed := by
  unfold checkProduction at h
  dsimp only at h
  split at h
  · cases h
  split at h
  · cases h
  rename_i hunmet
  intro name hname
  by_contra hstate
  have hmem : name.text ∈ (gateNames.filter fun name =>
      view.gates.get? name ≠ some .passed).map (·.text) :=
    List.mem_map_of_mem (List.mem_filter.mpr ⟨hname, by simpa using hstate⟩)
  rw [Bool.not_eq_true, Bool.not_eq_false', List.isEmpty_iff] at hunmet
  rw [hunmet] at hmem
  cases hmem

theorem check_gates_ok {view : GateView} (hoverride : call.overridePendingGates = false)
    (h : checkGates p db call request view = .ok gates) :
    view.pending = [] ∧ view.failed = [] ∧
      (∀ verdict, riskTierGate db call.directory request = some verdict → verdict.1 = true) ∧
      (call.runner.injection request.capabilityUri request.targetNamespaceId).1 ≠ .failed ∧
      (p.production = true → ∀ name ∈ gateNames, view.gates.get? name = some .passed) := by
  -- The three refusals after the production check are the same in both branches.
  have hrefusals : ∀ {risk injection failed : Bool} {first second third : Failure} {last : Gates},
      (if risk = true then .error first else if injection = true then .error second
        else if failed = true then .error third else .ok last : Except Failure Gates) = .ok gates →
      risk = false ∧ injection = false ∧ failed = false := by
    intro risk injection failed first second third last hok
    cases risk <;> cases injection <;> cases failed <;> simp_all
  unfold checkGates at h
  simp only [hoverride, Bool.not_false, Bool.and_true] at h
  split at h
  · cases h
  rename_i hpending
  have hchecks : (p.production = true → checkProduction db request.capabilityUri view = .ok ()) ∧
      (riskTierGate db call.directory request).any (!·.1) = false ∧
      decide ((call.runner.injection request.capabilityUri request.targetNamespaceId).1 = .failed) =
        false ∧ (!view.failed.isEmpty) = false := by
    split at h
    · obtain ⟨⟨⟩, hok, h⟩ := bind_eq_ok h
      exact ⟨fun _ => hok, hrefusals h⟩
    · exact ⟨fun hproduction => absurd hproduction ‹_›, hrefusals h⟩
  obtain ⟨hproduction, hrisk, hinjection, hfailed⟩ := hchecks
  refine ⟨by simpa using hpending, by simpa using hfailed, fun verdict hverdict => ?_,
    by simpa using hinjection, fun hmode => check_production_ok (hproduction hmode)⟩
  simpa [hverdict] using hrisk

/-- The runner evaluates a capability, or refuses. -/
theorem review_gates_cases (runner : GateRunner) :
    (∃ cap, RunnerServes p db call request cap ∧ reviewGates p db
        { principal := call.principal, identifier := request.capabilityUri, manage := call.manage
          approve := call.approve, runner } =
        (do let gates ← runner.evaluate cap; .ok (cap, gates))) ∨
      (∀ cap, ¬ RunnerServes p db call request cap) ∧
        ∃ failure, reviewGates p db
          { principal := call.principal, identifier := request.capabilityUri, manage := call.manage
            approve := call.approve, runner } = .error failure := by
  unfold reviewGates
  dsimp only
  split
  · rename_i hmanage
    exact .inr ⟨fun cap h => by simp [h.manage] at hmanage, _, rfl⟩
  rename_i hmanage
  split
  · rename_i happrove
    exact .inr ⟨fun cap h => by simp [h.approve] at happrove, _, rfl⟩
  rename_i happrove
  split
  · rename_i hempty
    exact .inr ⟨fun cap h => h.addressed hempty, _, rfl⟩
  rename_i haddressed
  cases hserved : getCapability db (p.stripSpace request.capabilityUri) with
  | none => exact .inr ⟨fun cap h => by simp [h.served] at hserved, _, rfl⟩
  | some cap =>
      dsimp only
      split
      · rename_i htenant
        refine .inr ⟨fun other h => htenant ?_, _, rfl⟩
        cases hserved.symm.trans h.served
        exact h.tenant
      · rename_i htenant
        exact .inl ⟨cap, ⟨by simpa using hmanage, by simpa using happrove, haddressed, hserved,
          not_not.mp htenant⟩, rfl⟩

theorem get?_states {evaluated : List (GateName × Gate)} :
    Gates.get? (evaluated.map fun gate => (gate.1, gate.2.state)) name =
      evaluatedState (.ok evaluated) name := by
  unfold evaluatedState
  dsimp only
  induction evaluated with
  | nil => rfl
  | cons gate evaluated ih =>
      obtain ⟨key, value⟩ := gate
      unfold Gates.get? at ih ⊢
      by_cases hname : key = name
      · simp [hname]
      · have hkey : (name == key) = false := by simpa using Ne.symm hname
        simp only [List.map_cons, List.lookup_cons, hkey]
        rw [List.find?_cons_of_neg (by simpa using hname)]
        exact ih

theorem source_bytes_ok {source : Option (List UInt8) × Gate}
    (h : sourceBytes p host cap = .ok source) :
    (source.1 = none ∧ source.2.state = .failed) ∨ ∃ content,
      host.files cap.sourcePath = .regular content ∧ content.length ≤ maxSourceBytes ∧
      "sha256:" ++ p.sha256 content = cap.contentHash ∧ source.1 = some content ∧
      source.2.state = .passed := by
  unfold sourceBytes at h
  split at h
  · cases h
  · cases h; exact .inl ⟨rfl, rfl⟩
  · cases h; exact .inl ⟨rfl, rfl⟩
  · cases h; exact .inl ⟨rfl, rfl⟩
  · cases h; exact .inl ⟨rfl, rfl⟩
  · rename_i content hfile
    split at h
    · cases h; exact .inl ⟨rfl, rfl⟩
    rename_i hlength
    split at h
    · cases h; exact .inl ⟨rfl, rfl⟩
    rename_i hhash
    cases h
    exact .inr ⟨content, hfile, not_lt.mp hlength, not_not.mp hhash, rfl, rfl⟩

/-- The metadata gate raises what `json.loads` raises on a JSON source. -/
theorem metadata_gate_cases (content : List UInt8) :
    (∃ gate, metadataGate p host cap content = .ok gate ∧ gate.state ≠ .skipped ∧
      ∀ failure, p.lower (pathSuffix cap.sourcePath) = ".json" →
        host.jsonLoads (p.decodeUtf8 content) ≠ .failed failure) ∨
    ∃ failure, metadataGate p host cap content = .error failure ∧
      p.lower (pathSuffix cap.sourcePath) = ".json" ∧
      host.jsonLoads (p.decodeUtf8 content) = .failed failure := by
  have hgate : ∀ missing : List String, ∃ gate : Gate,
      (if missing.isEmpty then (.ok ⟨.passed, "metadata_validated_static_only"⟩ : Except Failure Gate)
        else .ok ⟨.failed, "metadata_invalid"⟩) = .ok gate ∧ gate.state ≠ .skipped := by
    intro missing
    cases missing.isEmpty
    · exact ⟨_, rfl, by simp⟩
    · exact ⟨_, rfl, by simp⟩
  unfold metadataGate
  dsimp only
  split
  · rename_i hjson
    split
    · rename_i hload
      exact .inl ⟨_, rfl, by simp, fun failure _ hfailed => by cases hload.symm.trans hfailed⟩
    · rename_i failure hload
      exact .inr ⟨failure, rfl, hjson, hload⟩
    · rename_i hload
      obtain ⟨gate, hok, hstate⟩ := hgate _
      exact .inl ⟨gate, hok, hstate, fun failure _ hfailed => by cases hload.symm.trans hfailed⟩
    · rename_i hload
      exact .inl ⟨_, rfl, by simp, fun failure _ hfailed => by cases hload.symm.trans hfailed⟩
  · rename_i hother
    split
    · obtain ⟨gate, hok, hstate⟩ := hgate _
      exact .inl ⟨gate, hok, hstate, fun failure hjson => absurd hjson hother⟩
    · obtain ⟨gate, hok, hstate⟩ := hgate _
      exact .inl ⟨gate, hok, hstate, fun failure hjson => absurd hjson hother⟩

/-- The gates on the source are made exactly when reading it raises nothing. -/
theorem evaluate_source_iff {scan : Capability → List UInt8 → Gate} :
    (∃ gates, evaluateSource p host cap scan = .ok gates) ↔ SourceReads p host cap := by
  constructor
  · rintro ⟨gates, h⟩
    obtain ⟨source, hsource, h⟩ := bind_eq_ok h
    constructor
    · intro failure hraising
      rw [sourceBytes, hraising] at hsource
      cases hsource
    · intro hjson content hfile hlength hhash failure hfailed
      obtain ⟨other, hother, hload⟩ | ⟨other, hother, -⟩ := @metadata_gate_cases p host cap content
      · exact hload.2 failure hjson hfailed
      · have hread : sourceBytes p host cap =
            .ok (some content, ⟨.passed, "source_hash_verified"⟩) := by
          simp [sourceBytes, hfile, not_lt.mpr hlength, hhash]
        cases hsource.symm.trans hread
        obtain ⟨tests, htests, -⟩ := bind_eq_ok h
        cases hother.symm.trans htests
  · rintro ⟨hasked, hloaded⟩
    cases hsource : sourceBytes p host cap with
    | error failure =>
        unfold sourceBytes at hsource
        split at hsource
        · exact absurd ‹_› (hasked _)
        all_goals try split at hsource
        all_goals try split at hsource
        all_goals cases hsource
    | ok source =>
        rcases source_bytes_ok hsource with ⟨hnone, -⟩ | ⟨content, hfile, hlength, hhash, hsome, -⟩
        · exact ⟨_, by simp only [evaluateSource, hsource, bind, Except.bind, hnone]; rfl⟩
        · obtain ⟨tests, htests, -⟩ | ⟨failure, -, hjson, hfailed⟩ :=
            @metadata_gate_cases p host cap content
          · exact ⟨(source.2, tests, scan cap content), by
              simp only [evaluateSource, hsource, bind, Except.bind, hsome, htests]⟩
          · exact absurd hfailed (hloaded hjson content hfile hlength hhash failure)

theorem evaluate_source_ok {scan : Capability → List UInt8 → Gate}
    (hscan : ∀ content, (scan cap content).state ≠ .skipped) {gates : Gate × Gate × Gate}
    (h : evaluateSource p host cap scan = .ok gates) :
    gates.1.state ≠ .skipped ∧ gates.2.1.state ≠ .skipped ∧ gates.2.2.state ≠ .skipped ∧
      (gates.1.state = .passed → ∃ content, "sha256:" ++ p.sha256 content = cap.contentHash) := by
  obtain ⟨source, hsource, h⟩ := bind_eq_ok h
  rcases source_bytes_ok hsource with ⟨hnone, hstate⟩ | ⟨content, -, -, hhash, hsome, hstate⟩
  · rw [hnone] at h
    cases h
    simp [hstate]
  · rw [hsome] at h
    obtain ⟨tests, htests, h⟩ := bind_eq_ok h
    cases h
    obtain ⟨gate, hgate, htested, -⟩ | ⟨failure, hfailed, -⟩ := @metadata_gate_cases p host cap content
    · cases htests.symm.trans hgate
      exact ⟨by simp [hstate], htested, hscan content, fun _ => ⟨content, hhash⟩⟩
    · cases htests.symm.trans hfailed

theorem prompt_injection_not_skipped (content : List UInt8) :
    (promptInjectionGate p cap content).state ≠ .skipped := by
  unfold promptInjectionGate
  dsimp only
  split <;> simp

section

variable {scope : ReviewScope} {target : Option String} {reviewer : String}

theorem evaluated_not_skipped (hname : name ≠ .provenance) :
    evaluatedState (evaluateGates p host db cap scope target reviewer approvedException) name ≠
      some .skipped := by
  have hretrieval : (retrievalGate db cap).state ≠ .skipped := by
    unfold retrievalGate
    split <;> simp
  have hrisk : (riskGate cap scope approvedException).state ≠ .skipped := by
    unfold riskGate
    split <;> try split
    all_goals simp
  have hsignature : ∀ envelope, (signatureGate p host envelope).state ≠ .skipped := by
    intro envelope
    unfold signatureGate
    split <;> simp
  cases hevaluated : evaluateGates p host db cap scope target reviewer approvedException with
  | error failure => simp [evaluatedState]
  | ok gates =>
      obtain ⟨source, hsource, h⟩ := bind_eq_ok hevaluated
      cases h
      obtain ⟨hintegrity, htests, hscan, -⟩ :=
        evaluate_source_ok prompt_injection_not_skipped hsource
      cases name with
      | sourceIntegrity => exact fun h => hintegrity (Option.some.inj h)
      | tests => exact fun h => htests (Option.some.inj h)
      | promptInjectionScan => exact fun h => hscan (Option.some.inj h)
      | retrievalEvals => exact fun h => hretrieval (Option.some.inj h)
      | riskTierPolicy => exact fun h => hrisk (Option.some.inj h)
      | signature => exact fun h => hsignature _ (Option.some.inj h)
      | provenance => exact absurd rfl hname

theorem evaluated_some {evaluated : List (GateName × Gate)}
    (h : evaluateGates p host db cap scope target reviewer approvedException = .ok evaluated)
    (name : GateName) : ∃ state, evaluatedState (.ok evaluated) name = some state := by
  obtain ⟨source, -, h⟩ := bind_eq_ok h
  cases h
  cases name <;> exact ⟨_, rfl⟩

/-- An evaluation returns exactly when reading the source raises nothing. -/
theorem evaluate_gates_iff :
    (∃ gates, evaluateGates p host db cap scope target reviewer approvedException = .ok gates) ↔
      SourceReads p host cap := by
  rw [← evaluate_source_iff]
  constructor
  · rintro ⟨gates, h⟩
    obtain ⟨source, hsource, -⟩ := bind_eq_ok h
    exact ⟨source, hsource⟩
  · rintro ⟨source, hsource⟩
    simp only [evaluateGates, hsource, bind, Except.bind]
    exact ⟨_, rfl⟩

end

theorem all_passed_state (h : allPassed gates = true) (name : GateName) :
    gates.get? name = some .passed ∨ name = .provenance ∧ gates.get? name = some .skipped := by
  have hname := List.all_eq_true.mp h name (by cases name <;> decide)
  simpa using hname

/-- What the merged view of a runner's answers says when no gate failed. -/
theorem runner_view_passed {stored runner : Gates}
    (hfailed : (runnerView stored runner).failed = []) (hstate : runner.get? name = some state) :
    (runnerView stored runner).gates.get? name = some state ∧
      (name ≠ .promptInjectionScan → name ≠ .riskTierPolicy →
        state = .passed ∨ state = .skipped) := by
  have hget : (runnerView stored runner).gates.get? name = some state := by
    refine merge_gates_get?.trans ?_
    rw [if_pos (by cases name <;> decide), hstate]
    rfl
  refine ⟨hget, fun hscan hpolicy => ?_⟩
  obtain ⟨gate, hfind, hgate⟩ := Option.map_eq_some_iff.mp hget
  have hname : gate.1 = name := by simpa using List.find?_some hfind
  have hnone := List.filter_eq_nil_iff.mp (List.map_eq_nil_iff.mp hfailed) gate
    (List.mem_of_find?_eq_some hfind)
  by_contra hstates
  rw [not_or] at hstates
  simp [hname, hgate, hscan, hpolicy, hstates] at hnone

theorem approval_view_runner {evaluated : List (GateName × Gate)}
    (hrequest : db.requestAt call.requestId = some request)
    (hcap : RunnerServes p db call request cap)
    (hgates : requestGates p host db call approvedException request cap = .ok evaluated) :
    approvalView p db (call.withLifecycle p host db approvedException) request =
      .ok (runnerView (storedView request.gates).gates
        (evaluated.map fun gate => (gate.1, gate.2.state)), true) := by
  unfold approvalView ApproveCall.withLifecycle
  rw [hrequest]
  obtain ⟨other, hother, hreview⟩ | ⟨hrefuses, -⟩ := @review_gates_cases p db call request
    (lifecycleRunner p host db call.directory call.principal (some request.targetNamespaceId)
      approvedException)
  · cases hcap.served.symm.trans hother.served
    have hrun : (lifecycleRunner p host db call.directory call.principal
        (some request.targetNamespaceId) approvedException).evaluate cap =
          .ok (evaluated.map fun gate => (gate.1, gate.2.state)) :=
      congrArg (Except.map _) hgates
    simp only [Option.map_some, hreview, hrun]
    rfl
  · exact absurd hcap (hrefuses cap)

theorem approval_view_stored {view : GateView} {evaluated : Bool}
    (hrequest : db.requestAt call.requestId = some request)
    (hrefuses : ∀ cap, ¬ RunnerEvaluates p host db call request cap)
    (h : approvalView p db (call.withLifecycle p host db approvedException) request =
      .ok (view, evaluated)) : view = storedView request.gates := by
  have hfails : ∃ failure, reviewGates p db
      { principal := call.principal, identifier := request.capabilityUri, manage := call.manage
        approve := call.approve, runner := lifecycleRunner p host db call.directory call.principal
          (some request.targetNamespaceId) approvedException } = .error failure := by
    obtain ⟨cap, hcap, hreview⟩ | ⟨-, hfails⟩ := @review_gates_cases p db call request
      (lifecycleRunner p host db call.directory call.principal (some request.targetNamespaceId)
        approvedException)
    · have hraises : ¬ ∃ gates, requestGates p host db call approvedException request cap =
          .ok gates := fun hgates => hrefuses cap ⟨hcap, evaluate_gates_iff.mp hgates⟩
      cases hgates : requestGates p host db call approvedException request cap with
      | ok gates => exact absurd ⟨gates, hgates⟩ hraises
      | error failure =>
          have hrun : (lifecycleRunner p host db call.directory call.principal
              (some request.targetNamespaceId) approvedException).evaluate cap = .error failure :=
            congrArg (Except.map _) hgates
          exact ⟨failure, by rw [hreview, hrun]; rfl⟩
    · exact hfails
  obtain ⟨failure, hreview⟩ := hfails
  unfold approvalView ApproveCall.withLifecycle at h
  rw [hrequest] at h
  dsimp only [Option.map_some] at h
  rw [hreview] at h
  cases failure with
  | value => cases h; rfl
  | permission => cases h; rfl
  | integrity => cases h
  | runtime => cases h
  | quarantine => cases h
  | releaseBlocked => cases h
  | os => cases h

end

/-- What an approval without an override has passed. The two gates that are asked twice count as
the second answer has them, and the stored states count where the runner refused. -/
structure ApprovalPassed (p : Platform) (host : GateHost) (db : Database) (call : ApproveCall)
    (approvedException : Bool) (request : PromotionRequest) : Prop where
  risk : ∀ verdict, riskTierGate db call.directory request = some verdict → verdict.1 = true
  injection : (evaluatePromptInjectionScan p db call.directory request.capabilityUri
    request.targetNamespaceId).1 ≠ .failed
  evaluated : ∀ cap, RunnerEvaluates p host db call request cap → ∀ name,
    name ≠ .promptInjectionScan → name ≠ .riskTierPolicy →
      evaluatedState (requestGates p host db call approvedException request cap) name =
          some .passed ∨
        name = .provenance ∧ evaluatedState
          (requestGates p host db call approvedException request cap) name = some .skipped
  production : p.production = true → ∀ cap, RunnerEvaluates p host db call request cap → ∀ name,
    evaluatedState (requestGates p host db call approvedException request cap) name = some .passed
  stored : (∀ cap, ¬ RunnerEvaluates p host db call request cap) →
    ∃ gates, request.gates = some gates ∧ ∀ gate ∈ gates, gate.2 = .passed

/-- A successful approval without an override has passed the gates of its request. -/
theorem approve_request_gates {p : Platform} {host : GateHost} {db after : Database}
    {call : ApproveCall} {approvedException : Bool} (hdecision : call.decision = some .approve)
    (hoverride : call.overridePendingGates = false)
    (h : approveRequest p db (call.withLifecycle p host db approvedException) = (after, .ok ())) :
    ∃ request, db.requestAt call.requestId = some request ∧
      ApprovalPassed p host db call approvedException request := by
  obtain ⟨request, view, evaluated, stored, hrequest, hview, hstored, hpromote⟩ :=
    @approve_request_promotes p db after (call.withLifecycle p host db approvedException)
      hdecision h
  change db.requestAt call.requestId = some request at hrequest
  obtain ⟨gates, uri, storeId, hgates, -⟩ := promote_ok hpromote
  have hcapabilities : stored.capabilities = db.capabilities := by
    rcases hstored with rfl | rfl <;> rfl
  rw [check_gates_congr hcapabilities] at hgates
  have hforced : (call.withLifecycle p host db approvedException).overridePendingGates = false :=
    hoverride
  obtain ⟨hpending, hfailed, hrisk, hinjection, hproduction⟩ := check_gates_ok hforced hgates
  -- The view is the runner's where it evaluates the capability, and the stored one where not.
  have hrunner : ∀ cap, RunnerEvaluates p host db call request cap → ∀ name state,
      evaluatedState (requestGates p host db call approvedException request cap) name =
        some state →
      view.gates.get? name = some state ∧
        (name ≠ .promptInjectionScan → name ≠ .riskTierPolicy →
          state = .passed ∨ state = .skipped) := by
    intro cap hcap name state hstate
    obtain ⟨evaluated, hevaluated⟩ := evaluate_gates_iff.mpr hcap.reads
    rw [approval_view_runner hrequest hcap.toRunnerServes hevaluated] at hview
    obtain ⟨rfl, -⟩ := Prod.mk.inj (Except.ok.inj hview)
    refine runner_view_passed hfailed (get?_states.trans ?_)
    rwa [← hevaluated]
  have hsome : ∀ cap, RunnerEvaluates p host db call request cap → ∀ name, ∃ state,
      evaluatedState (requestGates p host db call approvedException request cap) name =
        some state := by
    intro cap hcap name
    obtain ⟨gates, hgates⟩ := evaluate_gates_iff.mpr hcap.reads
    obtain ⟨state, hstate⟩ := evaluated_some hgates name
    exact ⟨state, by rwa [← hgates] at hstate⟩
  refine ⟨request, hrequest, hrisk, hinjection, fun cap hcap name hscan hpolicy => ?_,
    fun hmode cap hcap name => ?_, fun hrefuses => ?_⟩
  · obtain ⟨state, hstate⟩ := hsome cap hcap name
    rcases (hrunner cap hcap name state hstate).2 hscan hpolicy with rfl | rfl
    · exact .inl hstate
    · refine .inr ⟨?_, hstate⟩
      by_contra hname
      exact evaluated_not_skipped hname hstate
  · obtain ⟨state, hstate⟩ := hsome cap hcap name
    have hpassed := hproduction hmode name (by cases name <;> decide)
    rw [(hrunner cap hcap name state hstate).1] at hpassed
    rw [hstate, hpassed]
  · rw [approval_view_stored hrequest hrefuses hview] at hpending
    cases hstates : request.gates with
    | none =>
        rw [hstates] at hpending
        cases hpending
    | some states =>
        rw [hstates] at hpending
        refine ⟨states, rfl, fun gate hgate => ?_⟩
        have hnone := List.filter_eq_nil_iff.mp (List.map_eq_nil_iff.mp hpending) gate hgate
        simpa using hnone

/-- The prompt-injection gate, by letters. -/
def quickInjectionGate (p : Platform) (cap : Capability) (content : List UInt8) : Gate :=
  let blocks := fun text surface => shouldBlock p (quickScan p text) cap.name
    (some cap.capabilityType.text) cap.plugin surface
  if blocks (join "\n" [cap.name, cap.title, cap.description]) .metadata ||
      blocks (p.decodeUtf8 content) .body then
    ⟨.failed, "prompt_injection_blocked"⟩
  else ⟨.passed, "no_blocking_prompt_injection"⟩

/-- The signature gate, which depends on the key alone. -/
def keyGate (p : Platform) (host : GateHost) (persist : Bool) : Gate :=
  if (host.keys.loadOrCreateSigningKey p persist host.freshKey).isOk then
    ⟨.passed, "ed25519_signature_verified"⟩
  else ⟨.failed, "signature_unavailable"⟩

/-- The gates, with what can be said of these two without the texts they read. -/
def quickGates (p : Platform) (host : GateHost) (persist : Bool) (db : Database) (cap : Capability)
    (scope : ReviewScope) (approvedException : Bool) : Except Failure (List (GateName × Gate)) := do
  let source ← evaluateSource p host cap (quickInjectionGate p)
  .ok [(.sourceIntegrity, source.1), (.tests, source.2.1), (.promptInjectionScan, source.2.2),
    (.retrievalEvals, retrievalGate db cap),
    (.riskTierPolicy, riskGate cap scope approvedException),
    (.signature, keyGate p host persist), (.provenance, provenanceGate cap)]

section

variable {p : Platform} {host : GateHost}

theorem prompt_injection_gate_quick : promptInjectionGate p = quickInjectionGate p := by
  funext cap content
  unfold promptInjectionGate quickInjectionGate
  rw [scan_quick]

theorem signature_gate_quick (envelope : Json) :
    signatureGate p host envelope = keyGate p host false := by
  unfold signatureGate keyGate
  rw [← sign_attestation_isOk host.crypto host.keys envelope]
  cases signAttestation p host.crypto host.keys envelope false host.freshKey <;> rfl

theorem evaluate_gates_quick (db : Database) (cap : Capability) (scope : ReviewScope)
    (target : Option String) (reviewer : String) (approvedException : Bool) :
    evaluateGates p host db cap scope target reviewer approvedException =
      quickGates p host false db cap scope approvedException := by
  unfold evaluateGates quickGates
  simp only [prompt_injection_gate_quick, signature_gate_quick]

end

/-- The source of a notes skill, with its SHA-256. -/
def notesSource : String × String :=
  ("---\ndescription: Keeps notes.\n---\n",
    "103f353cd60446700d0ea96d2c65270e2e2997919ea2fbb1f2883201fd97e20b")

/-- A development deployment that knows the digest of the source. -/
def notesPlatform : Platform := .ascii fun content =>
  (((notesSource :: sampleDigests).find? fun entry => entry.1.toUTF8.data.toList = content).map
    (·.2)).getD ""

/-- The host that holds the source and no signing key. -/
def notesHost : GateHost where
  files path :=
    if path = (notesSkill "").sourcePath then .regular notesSource.1.toUTF8.data.toList
    else .missing
  crypto := .transparent
  keys := { configured := false, file := .absent, writable := true }
  freshKey := "fresh"
  now := "2026-01-01T00:00:00Z"
  jsonLoads _ := .decodeError

/-- The catalog after the skill was indexed with a risk tier and submitted to the team. -/
def submittedNotes (riskTier : RiskTier) : Except Failure Database := do
  let uri := "cap://user/asg/alice/private/skill/notes.notes@0.1.0"
  let (_, catalog) ← upsertCapability notesPlatform .empty
    { notesSkill ("sha256:" ++ notesSource.2) with uri, riskTier }
  submitPromotion notesPlatform catalog { submitNotes with capabilityUri := uri }

/-- Whether an administrator may approve the skill, and the gate runner's risk gate on its row. -/
def judgedNotes (riskTier : RiskTier) : Except Failure (Bool × Option GateState) := do
  let db ← submittedNotes riskTier
  let call := decideNotes .approve
  let risk := do
    let request ← db.requestAt call.requestId
    let row ← db.capabilityAt request.capabilityUri
    evaluatedState (requestGates notesPlatform notesHost db call false request row.cap)
      .riskTierPolicy
  .ok ((approveRequest notesPlatform db
    (call.withLifecycle notesPlatform notesHost db false)).2.isOk, risk)

/-- What a decision on the skill found. -/
theorem judged_notes_ok {riskTier : RiskTier} {state : GateState}
    (h : judgedNotes riskTier = .ok (true, some state)) :
    ∃ db after request row, submittedNotes riskTier = .ok db ∧
      approveRequest notesPlatform db ((decideNotes .approve).withLifecycle notesPlatform notesHost
        db false) = (after, .ok ()) ∧
      db.requestAt "prm_1" = some request ∧ db.capabilityAt request.capabilityUri = some row ∧
      evaluatedState (requestGates notesPlatform notesHost db (decideNotes .approve) false request
        row.cap) .riskTierPolicy = some state := by
  obtain ⟨db, hdb, h⟩ := bind_eq_ok h
  obtain ⟨hok, hrisk⟩ := Prod.mk.inj (Except.ok.inj h)
  obtain ⟨request, hrequest, hrisk⟩ := Option.bind_eq_some_iff.mp hrisk
  obtain ⟨row, hrow, hrisk⟩ := Option.bind_eq_some_iff.mp hrisk
  cases hresult : approveRequest notesPlatform db
      ((decideNotes .approve).withLifecycle notesPlatform notesHost db false) with
  | mk after result =>
      rw [hresult] at hok
      cases result with
      | error failure => cases hok
      | ok value => exact ⟨db, after, request, row, hdb, hresult, hrequest, hrow, hrisk⟩

/-- A low-risk skill passes its gates. -/
theorem approve_request_gates_low : ∃ db after request, submittedNotes .low = .ok db ∧
    approveRequest notesPlatform db ((decideNotes .approve).withLifecycle notesPlatform notesHost db
      false) = (after, .ok ()) ∧
    db.requestAt "prm_1" = some request ∧
    ApprovalPassed notesPlatform notesHost db (decideNotes .approve) false request := by
  have hdecided : judgedNotes .low = .ok (true, some .passed) := by
    simp only [judgedNotes, ApproveCall.withLifecycle, lifecycleRunner, requestGates,
      evaluate_gates_quick]
    delta evaluatePromptInjectionScan
    simp only [scan_quick]
    decide +kernel
  obtain ⟨db, after, request, row, hdb, happroved, -⟩ := judged_notes_ok hdecided
  obtain ⟨request, hrequest, hpassed⟩ := approve_request_gates rfl rfl happroved
  exact ⟨db, after, request, hdb, happroved, hrequest, hpassed⟩

/-- A critical skill is approved into an organization without an exception, which the gate runner
fails. -/
theorem approve_request_gates_counterexample :
    ¬ ∀ (p : Platform) (host : GateHost) (cap : Capability) (submit : SubmitCall)
      (call : ApproveCall) (approvedException : Bool) (id : Nat) (catalog db after : Database)
      (request : PromotionRequest) (row : CapabilityRow),
      upsertCapability p .empty cap = .ok (id, catalog) →
      submitPromotion p catalog submit = .ok db →
      call.decision = some .approve → call.overridePendingGates = false →
      approveRequest p db (call.withLifecycle p host db approvedException) = (after, .ok ()) →
      db.requestAt call.requestId = some request →
      db.capabilityAt request.capabilityUri = some row →
      ∀ gates, requestGates p host db call approvedException request row.cap = .ok gates →
        allPassed (gates.map fun gate => (gate.1, gate.2.state)) = true := by
  intro hclaim
  have hdecided : judgedNotes .critical = .ok (true, some .failed) := by
    simp only [judgedNotes, ApproveCall.withLifecycle, lifecycleRunner, requestGates,
      evaluate_gates_quick]
    delta evaluatePromptInjectionScan
    simp only [scan_quick]
    decide +kernel
  obtain ⟨db, after, request, row, hdb, happroved, hrequest, hrow, hfailed⟩ :=
    judged_notes_ok hdecided
  obtain ⟨⟨id, catalog⟩, hcatalog, hsubmit⟩ := bind_eq_ok hdb
  cases hgates : requestGates notesPlatform notesHost db (decideNotes .approve) false request
      row.cap with
  | error failure =>
      rw [hgates] at hfailed
      cases hfailed
  | ok gates =>
      have hpassed := all_passed_state (hclaim _ _ _ _ _ _ _ _ _ _ _ _ hcatalog hsubmit rfl rfl
        happroved hrequest hrow gates hgates) .riskTierPolicy
      rw [get?_states, ← hgates, hfailed] at hpassed
      simp at hpassed

end Capmesh
