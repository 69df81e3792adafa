import Capmesh.Delegation.StageRevalidation

/-!
# The write set of a stage

The envelope of a stage has a write set of its own, beside the one of the scope it is bound to. The
validation asks that it is a list, and no more: `stage_within_iff` says for which contexts every
accepted task stays within the scope.
-/

namespace Capmesh

open Python Python.Json Relational

/-- The write set of the scope of a context. -/
def scopeWriteSet (context : Dict) : List Json :=
  match Dict.get? context "scope" with
  | some (.obj scope) =>
      match Dict.get? scope "writeSet" with
      | some (.arr items) => items
      | _ => []
  | _ => []

/-- The write set of the envelope that a task is. -/
def taskWriteSet (host : AuthorityHost) (task : String) : List Json :=
  match host.loads task with
  | .value (.obj envelope) =>
      match Dict.get? envelope "write_set" with
      | some (.arr items) => items
      | _ => []
  | _ => []

/-- The write set of a task is contained in that of the scope; `**` contains every path. -/
def WithinScope (host : AuthorityHost) (context : Dict) (task : String) : Prop :=
  scopeWriteSet context = [.str "**"] ∨
    ∀ path ∈ taskWriteSet host task, path ∈ scopeWriteSet context

/-- `json.loads` reads an envelope with the parent directory to write, when it reads the envelope. -/
def LoadsParent (host : AuthorityHost) : Prop :=
  ∀ task envelope, host.loads task = .value (.obj envelope) →
    ∃ other, host.loads other = .value (.obj (Dict.set envelope "write_set" (.arr [.str ".."])))

section

variable {p : Platform} {host : AuthorityHost} {db : Database} {request : ToolRequest}
variable {selected agent : Capability} {data envelope workflow stage : Dict} {task other : String}
variable {proposal : RootProposal} {items : List BundleItem} {evidence stageEvidence : Json}

theorem has_set_of_has {data : Dict} {key name : String} (value : Json) (h : Dict.has data name = true) :
    Dict.has (Dict.set data key value) name = true := by
  unfold Dict.set
  split
  · obtain ⟨field, hfield, hname⟩ := List.any_eq_true.mp h
    refine List.any_eq_true.mpr ⟨_, List.mem_map_of_mem hfield, ?_⟩
    by_cases hkey : field.1 = key
    · rw [if_pos hkey, ← hkey]
      exact hname
    · rw [if_neg hkey]
      exact hname
  · unfold Dict.has at h ⊢
    rw [List.any_append, h, Bool.true_or]

/-- Another write set leaves the keys of an envelope. -/
theorem same_keys_set {data : Dict} {keys : List String} {key : String} (value : Json)
    (hkey : keys.contains key = true) (h : sameKeys data keys = true) :
    sameKeys (Dict.set data key value) keys = true := by
  unfold sameKeys at h ⊢
  rw [Bool.and_eq_true] at h ⊢
  refine ⟨(Dict.all_keys_set hkey value).trans h.1, ?_⟩
  exact List.all_eq_true.mpr fun name hname =>
    has_set_of_has value (List.all_eq_true.mp h.2 name hname)

theorem stage_envelope_ok (h : stageEnvelope host task = .ok (envelope, workflow)) :
    host.loads task = .value (.obj envelope) ∧ sameKeys envelope taskEnvelopeKeys = true ∧
      objectOf workflowBindingKeys "stage task workflow binding is not canonical"
        (Dict.get? envelope "workflow_binding") = .ok workflow := by
  unfold stageEnvelope at h
  cases hloads : host.loads task with
  | decodeError => simp [hloads] at h
  | failed failure =>
      rw [hloads] at h
      cases failure <;> cases h
  | value json =>
      rw [hloads] at h
      obtain ⟨fields, hfields, h⟩ := bind_eq_ok h
      obtain ⟨binding, hbinding, h⟩ := bind_eq_ok h
      cases h
      obtain ⟨hjson, hkeys⟩ := object_of_ok hfields
      exact ⟨by rw [Option.some.inj hjson], hkeys, hbinding⟩

theorem StageAccepted.with_write_set
    (h : StageAccepted p host db request selected task data envelope workflow agent proposal items
      evidence stage stageEvidence) {paths : List Json}
    (hother : host.loads other =
      .value (.obj (Dict.set envelope "write_set" (.arr paths)))) :
    StageAccepted p host db request selected other data
      (Dict.set envelope "write_set" (.arr paths)) workflow agent proposal items evidence stage
      stageEvidence := by
  obtain ⟨-, hkeys, hbinding⟩ := stage_envelope_ok h.enveloped
  have hotherKeys : sameKeys (Dict.set envelope "write_set" (.arr paths)) taskEnvelopeKeys = true :=
    same_keys_set _ (by decide) hkeys
  have hsame : ∀ key, "write_set" ≠ key →
      Dict.get? (Dict.set envelope "write_set" (.arr paths)) key = Dict.get? envelope key :=
    fun key hkey => Dict.get?_set_of_ne envelope (.arr paths) hkey
  have htext : ∀ key, "write_set" ≠ key →
      fieldText p (Dict.set envelope "write_set" (.arr paths)) key = fieldText p envelope key :=
    fun key hkey => by rw [fieldText, hsame key hkey, fieldText]
  have hset : Dict.get? (Dict.set envelope "write_set" (.arr paths)) "write_set" =
      some (.arr paths) := Dict.get?_set envelope "write_set" fun h => by cases h
  exact { h with
    enveloped := by
      have hobject : objectOf taskEnvelopeKeys "canonical asgcode.task-envelope.v2 is required"
          (some (.obj (Dict.set envelope "write_set" (.arr paths)))) =
            .ok (Dict.set envelope "write_set" (.arr paths)) := if_pos hotherKeys
      unfold stageEnvelope
      rw [hother]
      dsimp only
      rw [hobject]
      show (objectOf workflowBindingKeys _ (Dict.get? (Dict.set envelope "write_set" (.arr paths))
        "workflow_binding") >>= _) = _
      rw [hsame "workflow_binding" (by decide), hbinding]
      rfl
    bundle := by
      rw [htext "objective" (by decide)]
      exact h.bundle
    bound := by
      have hbound := h.bound
      simp only [envelopeAgrees, Bool.and_eq_true] at hbound ⊢
      rw [hsame "schema" (by decide), hsame "workflow_id" (by decide), htext "stage_id" (by decide),
        hsame "objective" (by decide), hsame "repository" (by decide), hset,
        hsame "bundle_id" (by decide), hsame "bundle_digest" (by decide), hsame "scope" (by decide)]
      tauto }

theorem equal_items_texts_eq {whole : String → Option Int} {values : List Json}
    {texts : List String} (h : equalItems whole values (texts.map .str) = true) :
    values = texts.map .str := by
  induction texts generalizing values with
  | nil =>
      cases values with
      | nil => rfl
      | cons json values => cases h
  | cons text texts ih =>
      cases values with
      | nil => cases h
      | cons json values =>
          rw [List.map_cons, equalItems, Bool.and_eq_true] at h
          obtain ⟨hjson, hrest⟩ := h
          have hequal : equals whole json (.str text) = true := by
            rw [Bool.or_eq_true, Bool.and_eq_true] at hjson
            rcases hjson with ⟨-, hnan⟩ | hequal
            · cases hnan
            · exact hequal
          rw [equals_str] at hequal
          rw [hequal, ih hrest, List.map_cons]

theorem canonical_scope_files_ok {value : Option Json} {files : List Json}
    (h : canonicalScopeFiles p value = some files) :
    (∃ texts : List String, files = texts.map .str) ∧
      (files = [.str "**"] ∨ .str ".." ∉ files) := by
  unfold canonicalScopeFiles at h
  split at h
  · rename_i items
    split at h
    · cases h
    · split at h
      · rename_i hwhole
        cases h
        exact ⟨⟨["**"], hwhole⟩, .inl hwhole⟩
      · split at h
        · rename_i hall
          cases h
          rw [Bool.and_eq_true] at hall
          have hpath := List.all_eq_true.mp hall.1
          refine ⟨⟨files.map (Json.strText p.repr), ?_⟩, .inr fun hmem => ?_⟩
          · rw [List.map_map]
            refine ((List.map_congr_left fun item hitem => ?_).trans (List.map_id files)).symm
            have hitem := hpath item hitem
            cases item with
            | str text => rfl
            | null | bool | int | float | arr | obj => cases hitem
          · have hparts : (((Python.splitOn '/' "..".toList).map String.ofList).filter fun part =>
                part ≠ "" && part ≠ ".").contains ".." = true := by decide
            have hup := hpath _ hmem
            simp only [isScopePath, hparts, Bool.not_true, Bool.and_false, Bool.false_and] at hup
            cases hup
        · cases h
  · cases h

theorem StageAccepted.scope_write_set
    (h : StageAccepted p host db request selected task data envelope workflow agent proposal items
      evidence stage stageEvidence) :
    scopeWriteSet data = [.str "**"] ∨ .str ".." ∉ scopeWriteSet data := by
  obtain ⟨scope, hread⟩ := root_proposal_iff.mp h.root.proposed
  have hscope := (object_of_ok hread.scopeRead).1
  rw [stage_root_context_get? p data (by decide)] at hscope
  have hagrees := hread.agrees
  simp only [scopeAgrees, Bool.and_eq_true] at hagrees
  have hwrite : sameValue host (Dict.get? scope "writeSet") (expectedWriteSet p scope) = true := by
    tauto
  have hfiles : (canonicalScopeFiles p (Dict.get? scope "files")).isSome = true := by tauto
  obtain ⟨files, hfiles⟩ := Option.isSome_iff_exists.mp hfiles
  obtain ⟨⟨texts, htexts⟩, hwhole⟩ := canonical_scope_files_ok hfiles
  -- what the scope holds is what is expected of it, being texts
  have hheld : ∀ texts : List String,
      expectedWriteSet p scope = some (.arr (texts.map .str)) →
        scopeWriteSet data = texts.map .str := by
    intro texts hexpected
    rw [hexpected] at hwrite
    cases hvalue : Dict.get? scope "writeSet" with
    | none => rw [hvalue] at hwrite; cases hwrite
    | some json =>
        rw [hvalue] at hwrite
        cases json with
        | arr values =>
            have hitems : equalItems host.wholeFloat values (texts.map .str) = true := hwrite
            simp only [scopeWriteSet, hscope, hvalue]
            exact equal_items_texts_eq hitems
        | null | bool | int | float | str | obj =>
            simp [sameValue, equals, sameNumber, number] at hwrite
  cases hadvisory : isAdvisory scope with
  | true =>
      have hempty := hheld [] (by rw [expectedWriteSet, hadvisory, if_pos rfl]; rfl)
      rw [hempty]
      exact .inr List.not_mem_nil
  | false =>
      have hset := hheld texts (by
        rw [expectedWriteSet, hadvisory, if_neg Bool.false_ne_true, hfiles, Option.map_some, htexts])
      rw [hset, ← htexts]
      exact hwhole

/-- **When a stage stays within its scope.** For a stage context with an accepted task, every
accepted task stays within the scope exactly when the scope is the whole repository. -/
theorem stage_within_iff (hloads : LoadsParent host) {result : DelegatedBundle}
    (hstage : Dict.has data "stageCapabilityBundle" = true)
    (h : validateAuthoritativeBundle p host db request selected task (some (.obj data)) =
      .ok result) :
    (∀ other again, validateAuthoritativeBundle p host db request selected other
        (some (.obj data)) = .ok again → WithinScope host data other) ↔
      scopeWriteSet data = [.str "**"] := by
  have hbranch : ∀ task, validateAuthoritativeBundle p host db request selected task
      (some (.obj data)) = validateStage p host db request selected task data :=
    fun task => if_pos hstage
  rw [hbranch] at h
  obtain ⟨envelope, workflow, agent, proposal, items, evidence, stage, stageEvidence, haccepted, -⟩ :=
    validate_stage_iff.mp h
  constructor
  · intro hall
    obtain ⟨other, hother⟩ := hloads task envelope (stage_envelope_ok haccepted.enveloped).1
    have hwithin := hall other _ ((hbranch other).trans (validate_stage_iff.mpr
      ⟨_, _, _, _, _, _, _, _, haccepted.with_write_set hother, rfl⟩))
    rcases hwithin with hwhole | hpaths
    · exact hwhole
    · have hset : taskWriteSet host other = [.str ".."] := by
        simp only [taskWriteSet, hother, Dict.get?_set envelope "write_set" (nofun :
          Json.arr [.str ".."] ≠ .null)]
      refine haccepted.scope_write_set.resolve_right fun hmem => hmem (hpaths _ ?_)
      rw [hset]
      exact List.mem_singleton_self _
  · exact fun hwhole other again _ => .inl hwhole

end

/-- The root delegation of a read-only workflow. -/
def advisorySample : ProposalSample where
  scopeObjective := .str "Build notes."
  advisory := true
  objective := "Build notes."
  objectiveDigest := "6b3c81d16f0f5c5594a063af9883eaf6b88ddf8cc2aad6455691a0a3ef7e2a79"
  scopeDigest := "53fde4a79475e8272f4abb8aaa9ee619e3858538114da2ed023f7ad076be1abe"
  bundleDigest := "f9a8144b64ecf0ca8bd9bae992ff83a8d817678bda7a359992ad80650e8ffcd2"
  bindingDigest := "3f1ac90c5acf01321333fead6714154fd49244d59d501cc0c2c83586a6e4a9e1"
  upstream := .str "cap-task-00000000000000000000000000000001"

/-- The receipt of the root delegation, which the authority signed. -/
def advisoryReceipt : Json :=
  .obj [("schema", .str "capmesh_bundle_receipt.v1"), ("task_id", advisorySample.upstream),
    ("workflow_id", .str "wf_notes-0001"),
    ("bundle_hash", .str ("sha256:" ++ advisorySample.bundleDigest)),
    ("binding_hash", .str ("sha256:" ++ advisorySample.bindingDigest)),
    ("issued_at", .int 1767225600), ("expires_at", .int 1767227400), ("nonce", .str "nonce-0001"),
    ("key_id", .str "ed25519:sha256:21fe31dfa154a261626bf854046fd2271b7bed4b6abe45aa58877ef47f9721b9"),
    ("signature", .str ("L0-34pL-d3igsmnit8DUR7yWDG-ZPjfrR0gWxWV3fCo8xjeYS0EOX9XK-MEn8ctbf" ++
      "__1zwQnamuR0KOozI6gBA"))]

/-- The context of a stage of the workflow. -/
def advisoryStage : Dict :=
  advisorySample.context.drop 2 ++
    [("stageCapabilityBundle", .obj advisorySample.bundle),
      ("stageCapabilityBundleHash", .str ("sha256:" ++ advisorySample.bundleDigest)),
      ("capmeshAuthorityReceipt", advisoryReceipt)]

/-- The workflow that the stage belongs to. -/
def writingBinding : Dict :=
  [("repository", .null), ("base_commit", .null),
    ("admission_sha256", .str ("sha256:" ++ advisorySample.objectiveDigest)),
    ("capability_binding_sha256", .str ("sha256:" ++ advisorySample.bindingDigest)),
    ("upstream_delegation_id", advisorySample.upstream)]

/-- The envelope of a stage that writes the parent directory. -/
def writingEnvelope : Dict :=
  [("schema", .str "asgcode.task-envelope.v2"), ("workflow_id", .str "wf_notes-0001"),
    ("stage_id", .str "build"), ("objective", .str "Build notes."), ("repository", .null),
    ("bundle_id", .str "capb_notes-0001"),
    ("bundle_digest", .str ("sha256:" ++ advisorySample.bundleDigest)),
    ("scope", .obj advisorySample.scope),
    ("workflow_binding", .obj writingBinding), ("write_set", .arr [.str ".."])]

def writingTask : String := (Json.obj writingEnvelope).jsonDumps

/-- A host that reads the task, with the record of the root delegation and the key that signed the
receipt. -/
def advisoryHost : AuthorityHost :=
  agentHost (fun task => if task = writingTask then .value (.obj writingEnvelope) else .decodeError)
    (.ok ⟨"ed25519:sha256:21fe31dfa154a261626bf854046fd2271b7bed4b6abe45aa58877ef47f9721b9",
      fun signature _ => signature = [47, 79, 183, 226, 146, 254, 119, 120, 160, 178, 105, 226, 183,
        192, 212, 71, 188, 150, 12, 111, 153, 62, 55, 235, 71, 72, 22, 197, 101, 119, 124, 42, 60,
        198, 55, 152, 75, 65, 14, 95, 213, 202, 248, 193, 39, 241, 203, 91, 127, 255, 245, 207, 4, 39,
        106, 107, 145, 208, 163, 168, 204, 142, 160, 4]⟩)
    fun taskId =>
      if Json.str taskId = advisorySample.upstream then
        some (.obj [("taskId", .str taskId), ("principal", .str "alice"),
          ("context", .obj advisorySample.context)])
      else none

theorem task_write_set_eq {host : AuthorityHost} {task : String} {envelope : Dict}
    {items : List Json} (hloads : host.loads task = .value (.obj envelope))
    (hitems : Dict.get? envelope "write_set" = some (.arr items)) :
    taskWriteSet host task = items := by
  unfold taskWriteSet
  rw [hloads]
  dsimp only
  rw [hitems]

theorem advisory_loads (task : String) : advisoryHost.loads task =
    if task = writingTask then .value (.obj writingEnvelope) else .decodeError := rfl

theorem advisory_loads_task : advisoryHost.loads writingTask = .value (.obj writingEnvelope) := by
  rw [advisory_loads, if_pos rfl]

theorem advisory_checked : advisorySample.Checked advisoryHost := by decide +kernel

/-- The checks that the validation makes of a stage beyond those of its root delegation. -/
def ProposalSample.StageChecked (sample : ProposalSample) (host : AuthorityHost)
    (stage envelope binding : Dict) : Prop :=
  let p := sample.platform
  let bundleHash := "sha256:" ++ sample.bundleDigest
  let bindingHash := "sha256:" ++ sample.bindingDigest
  (stage.all fun field => (stageContextKeys ++ normalizedOnlyKeys).contains field.1) = true ∧
    stageContextKeys.all (Dict.has stage) = true ∧
    sameKeys envelope taskEnvelopeKeys = true ∧
    rootAgent p agentCatalog stage = some builderAgent ∧
    stageRootContext p stage = sample.context ∧
    routingObjective p stage = sample.objective ∧
    carried stage "capabilityBinding" = .obj sample.binding ∧
    verifyBundleReceipt p host (Dict.get? stage "capmeshAuthorityReceipt")
      (fieldText p stage "upstreamDelegationId") (fieldText p stage "workflowId")
      bundleHash bindingHash = .ok () ∧
    upstreamAgrees host agentRequest stage
      (fieldText p stage "upstreamDelegationId") bundleHash bindingHash = .ok () ∧
    bundleHeader p "stage " (Dict.get? stage "stageCapabilityBundle") = .ok sample.bundle ∧
    isSha256 (fieldText p sample.bundle "task_shape_hash") = true ∧
    bundleFresh p host "stage " sample.bundle = .ok () ∧
    bundleItems "stage " sample.bundle = .ok sample.proposal.proposed ∧
    (∃ items ∈ (stageItems p host agentCatalog agentRequest builderAgent
        (objectiveTerms p commonStageTerms (fieldText p envelope "objective")) []
        sample.proposal.proposed).toOption,
      (items.map (·.1)).contains builderAgent.uri = true) ∧
    (Dict.get? stage "stageAuthorityEvidence").isNone = true ∧
    objectOf workflowBindingKeys "stage task workflow binding is not canonical"
      (Dict.get? envelope "workflow_binding") = .ok binding ∧
    envelopeAgrees p host stage envelope binding sample.bundle bundleHash bindingHash = true

instance (sample : ProposalSample) (host : AuthorityHost) (stage envelope binding : Dict) :
    Decidable (sample.StageChecked host stage envelope binding) := by
  unfold ProposalSample.StageChecked
  infer_instance

theorem ProposalSample.StageChecked.accepted {sample : ProposalSample} {host : AuthorityHost}
    {stage envelope binding : Dict} {task : String}
    (h : sample.StageChecked host stage envelope binding) (hchecked : sample.Checked host)
    (hloads : host.loads task = .value (.obj envelope)) : ∃ result,
    validateAuthoritativeBundle sample.platform host agentCatalog agentRequest builderAgent task
      (some (.obj stage)) = .ok result := by
  obtain ⟨hkeys, hfields, henvelope, hagent, hcontext, hrouting, hbinding, hreceipt, hupstream,
    hheader, hshape, hfresh, hlisted, ⟨found, hfound, hselected⟩, hevidence, hworkflow, hbound⟩ := h
  obtain ⟨items, evidence, hroot⟩ := hchecked.accepted
  have hbundleHash : "sha256:" ++ sample.bundleDigest =
      valueDigest sample.platform (.obj sample.proposal.bundle) :=
    Json.str.inj (Option.some.inj hroot.bundleHash)
  have hbindingHash : "sha256:" ++ sample.bindingDigest =
      valueDigest sample.platform (.obj sample.proposal.binding) :=
    Json.str.inj (Option.some.inj hroot.bindingHash)
  rw [hbundleHash, hbindingHash] at hreceipt hupstream hbound
  have hbundled : Dict.has stage "stageCapabilityBundle" = true :=
    List.all_eq_true.mp hfields _ (by decide)
  have hstage := validate_stage_iff.mpr ⟨envelope, binding, builderAgent, _, items, evidence,
    sample.bundle, stageEvidenceOf found, {
      keys := hkeys
      fields := hfields
      enveloped := by
        unfold stageEnvelope
        rw [hloads]
        dsimp only
        have hobject : objectOf taskEnvelopeKeys "canonical asgcode.task-envelope.v2 is required"
            (some (.obj envelope)) = .ok envelope := by
          simp only [objectOf, henvelope, if_true]
        rw [hobject]
        simp only [bind, Except.bind, hworkflow]
      headed := hagent
      root := by
        rw [hcontext, hrouting, hbinding]
        exact hroot
      receipt := hreceipt
      upstream := hupstream
      bundle := validate_stage_bundle_iff.mpr ⟨_, found, ⟨hheader, hshape, hfresh, hlisted,
        to_option_eq_some (Option.mem_def.mp hfound), hselected, rfl⟩, rfl, rfl⟩
      agrees := by
        unfold evidenceAgrees
        rw [hevidence, Bool.true_or]
      bound := hbound }, rfl⟩
  have hbranch : validateAuthoritativeBundle sample.platform host agentCatalog agentRequest
      builderAgent task (some (.obj stage)) =
        validateStage sample.platform host agentCatalog agentRequest builderAgent task stage := by
    unfold validateAuthoritativeBundle
    dsimp only
    rw [if_pos hbundled]
  exact ⟨_, hbranch.trans hstage⟩

theorem advisory_stage_checked :
    advisorySample.StageChecked advisoryHost advisoryStage writingEnvelope writingBinding := by
  decide +kernel

theorem advisory_stage_accepted : ∃ result,
    validateAuthoritativeBundle advisorySample.platform advisoryHost agentCatalog agentRequest
      builderAgent writingTask (some (.obj advisoryStage)) = .ok result :=
  advisory_stage_checked.accepted advisory_checked advisory_loads_task

/-- The task of a read-only workflow is accepted, and no accepted task has to stay within its
scope. -/
theorem stage_within_advisory : ∃ result,
    validateAuthoritativeBundle advisorySample.platform advisoryHost agentCatalog agentRequest
      builderAgent writingTask (some (.obj advisoryStage)) = .ok result ∧
    ((∀ other again, validateAuthoritativeBundle advisorySample.platform advisoryHost agentCatalog
        agentRequest builderAgent other (some (.obj advisoryStage)) = .ok again →
        WithinScope advisoryHost advisoryStage other) ↔
      scopeWriteSet advisoryStage = [.str "**"]) := by
  obtain ⟨result, hresult⟩ := advisory_stage_accepted
  refine ⟨result, hresult, stage_within_iff ?_ rfl hresult⟩
  intro task envelope hloads
  refine ⟨writingTask, ?_⟩
  rw [advisory_loads] at hloads
  split at hloads
  · have henvelope : writingEnvelope = envelope := Json.obj.inj (JsonOutcome.value.inj hloads)
    have hset : Dict.set writingEnvelope "write_set" (.arr [.str ".."]) = writingEnvelope := rfl
    rw [← henvelope, hset, advisory_loads_task]
  · cases hloads

/-- A stage of a read-only workflow is accepted with the parent directory to write. -/
theorem stage_within_counterexample :
    (∃ result, validateAuthoritativeBundle advisorySample.platform advisoryHost agentCatalog
      agentRequest builderAgent writingTask (some (.obj advisoryStage)) = .ok result) ∧
    isAdvisory advisorySample.scope = true ∧ scopeWriteSet advisoryStage = [] ∧
    taskWriteSet advisoryHost writingTask = [.str ".."] ∧
    ¬ WithinScope advisoryHost advisoryStage writingTask := by
  have hpaths : taskWriteSet advisoryHost writingTask = [.str ".."] :=
    task_write_set_eq advisory_loads_task (by decide)
  have hscope : scopeWriteSet advisoryStage = [] := rfl
  refine ⟨advisory_stage_accepted, by decide, hscope, hpaths, ?_⟩
  intro h
  rcases h with hwhole | hwithin
  · rw [hscope] at hwhole
    cases hwhole
  · rw [hpaths, hscope] at hwithin
    exact absurd (hwithin _ (List.mem_singleton_self _)) List.not_mem_nil

end Capmesh
