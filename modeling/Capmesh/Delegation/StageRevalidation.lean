import Capmesh.Delegation.FixedPoint

/-!
# Validating a returned stage context again

A stage validation returns a context that it builds anew from the root context it carries along:
`stageForm` is its shape, and `revalidated` its law, for root contexts and stages alike.
-/

namespace Capmesh

open Python Python.Json Relational

/-- The context that a root validation returns for the root context of a stage. -/
def rootForm (p : Platform) (context : Dict) (evidence : Json) : Dict :=
  ("schema", .str "asgcode.capmesh.delegation.context.v1") ::
    ("objective", .str (routingObjective p context)) ::
    (rootCarriedKeys.map fun key => (key, carried context key)) ++
    [("authorityEvidence", evidence)]

/-- The context that a stage validation returns. -/
def stageForm (p : Platform) (context : Dict) (evidence stageEvidence : Json) : Dict :=
  rootForm p context evidence ++
    [("stageCapabilityBundle", carried context "stageCapabilityBundle"),
      ("stageCapabilityBundleHash", carried context "stageCapabilityBundleHash"),
      ("capmeshAuthorityReceipt", carried context "capmeshAuthorityReceipt"),
      ("stageAuthorityEvidence", stageEvidence)]

section

variable {p : Platform} {host : AuthorityHost} {db : Database} {request : ToolRequest}
variable {selected agent : Capability} {data read : Dict} {value : Option Json} {label : String}

/-- The receipt of a root delegation verifies as it did once it was sorted. -/
theorem verify_bundle_receipt_canonical (value : Option Json)
    (taskId workflowId bundleHash bindingHash : String) :
    verifyBundleReceipt p host (value.map canonical) taskId workflowId bundleHash bindingHash =
      verifyBundleReceipt p host value taskId workflowId bundleHash bindingHash := by
  have hnumber : ∀ value : Option Json, isNumber (value.map canonical) = isNumber value := by
    intro value
    cases value with
    | none => rfl
    | some json => cases json <;> rfl
  have hint : ∀ value : Option Json, intValue (value.map canonical) = intValue value := by
    intro value
    cases value with
    | none => rfl
    | some json => cases json <;> rfl
  have hnonce : ∀ value : Option Json, isNonce (value.map canonical) = isNonce value := by
    intro value
    cases value with
    | none => rfl
    | some json => cases json <;> rfl
  unfold verifyBundleReceipt
  rw [object_of_canonical, bind_map_left]
  refine bind_congr fun receipt => ?_
  have hread := Dict.rewritten_canonical_fields receipt
  have hsigned : isTagged "" isIdChar 86 86 (fieldText p (canonicalFields receipt) "signature") =
      isTagged "" isIdChar 86 86 (fieldText p receipt "signature") :=
    tagged_text_read hread (by decide) ⟨by decide, by decide⟩ _
  have hunsigned : (Json.obj ((canonicalFields receipt).filter fun field =>
        field.1 ≠ "signature")).canonicalText =
      (Json.obj (receipt.filter fun field => field.1 ≠ "signature")).canonicalText := by
    rw [← canonical_fields_filter fun key => key ≠ "signature"]
    exact canonical_text_canonical (.obj _)
  simp only [receiptCurrent, Dict.get?_canonical_fields, hnumber, hint, map_canonical_eq_str, hsigned,
    hnonce, hunsigned]
  split
  · rfl
  · cases htagged : isTagged "" isIdChar 86 86 (fieldText p receipt "signature") with
    | false => simp only [Bool.and_false]; rfl
    | true =>
        rw [field_text_read_of_tagged hread (by decide) ⟨by decide, by decide⟩ htagged]

theorem upstream_agrees_read (h : Dict.Rewritten data read) (upstreamId bundleHash bindingHash : String) :
    upstreamAgrees host request read upstreamId bundleHash bindingHash =
      upstreamAgrees host request data upstreamId bundleHash bindingHash := by
  unfold upstreamAgrees
  simp only [h.get?, same_value_canonical_right]

theorem envelope_agrees_read (h : Dict.Rewritten data read)
    (envelope workflow stageBundle : Dict) (stageHash bindingHash : String) :
    envelopeAgrees p host read envelope workflow (canonicalFields stageBundle) stageHash
        bindingHash =
      envelopeAgrees p host data envelope workflow stageBundle stageHash bindingHash := by
  have htask : isTaskId (fieldText p read "upstreamDelegationId") =
      isTaskId (fieldText p data "upstreamDelegationId") :=
    tagged_text_read h (by decide) ⟨by decide, by decide⟩ _
  simp only [envelopeAgrees, h.get?, Dict.get?_canonical_fields, map_canonical_eq_str,
    same_value_canonical_right, htask]

theorem named_agent_canonical {json : Json}
    (h : getCapability db (itemUri p (canonical json)) = getCapability db (itemUri p json)) :
    namedAgent p db (canonical json) = namedAgent p db json := by
  cases json with
  | obj item => exact congrArg (Option.filter _) h
  | null | bool | int | float | str | arr => rfl

theorem bundle_items_at_read (h : Dict.Rewritten data read) (key : String) :
    bundleItemsAt key read = (bundleItemsAt key data).map canonical := by
  unfold bundleItemsAt
  rw [h.get?]
  cases Dict.get? data key with
  | none => rfl
  | some json =>
      cases json with
      | obj bundle =>
          simp only [Option.map_some, canonical, Dict.get?_canonical_fields]
          cases Dict.get? bundle "capabilities" with
          | none => rfl
          | some json =>
              cases json with
              | arr items => exact canonical_items_eq_map items
              | null | bool | int | float | str | obj => rfl
      | null | bool | int | float | str | arr => rfl

theorem root_agent_read (h : Dict.Rewritten data read)
    (hnamed : ∀ json ∈ bundleItemsAt "capabilityBundle" data,
      getCapability db (itemUri p (canonical json)) = getCapability db (itemUri p json)) :
    rootAgent p db read = rootAgent p db data := by
  unfold rootAgent
  rw [bundle_items_at_read h]
  revert hnamed
  induction bundleItemsAt "capabilityBundle" data with
  | nil => exact fun _ => rfl
  | cons json items ih =>
      intro hnamed
      rw [List.map_cons, List.findSome?_cons, List.findSome?_cons,
        named_agent_canonical (hnamed json List.mem_cons_self),
        ih fun later hlater => hnamed later (List.mem_cons_of_mem _ hlater)]

section

variable {value : Option Json} {objective hash : String} {bundle : Dict} {evidence : Json}

/-- What an accepted stage bundle has passed. -/
structure StageBundleAccepted (p : Platform) (host : AuthorityHost) (db : Database)
    (request : ToolRequest) (selected : Capability) (value : Option Json) (objective : String)
    (bundle : Dict) (proposed : List Json) (items : List (String × Json)) : Prop where
  header : bundleHeader p "stage " value = .ok bundle
  shape : isSha256 (fieldText p bundle "task_shape_hash") = true
  fresh : bundleFresh p host "stage " bundle = .ok ()
  listed : bundleItems "stage " bundle = .ok proposed
  read : stageItems p host db request selected (objectiveTerms p commonStageTerms objective) []
    proposed = .ok items
  selected : (items.map (·.1)).contains selected.uri = true ∧ selected.capabilityType = .agent

theorem validate_stage_bundle_iff :
    validateStageBundle p host db request selected value objective = .ok (bundle, hash, evidence) ↔
      ∃ proposed items, StageBundleAccepted p host db request selected value objective bundle
        proposed items ∧ hash = valueDigest p (.obj bundle) ∧ evidence = stageEvidenceOf items := by
  constructor
  · intro h
    obtain ⟨fields, hheader, h⟩ := bind_eq_ok h
    obtain ⟨_, hshape, h⟩ := bind_eq_ok h
    obtain ⟨_, hfresh, h⟩ := bind_eq_ok h
    obtain ⟨proposed, hproposed, h⟩ := bind_eq_ok h
    obtain ⟨items, hitems, h⟩ := bind_eq_ok h
    obtain ⟨_, hselected, h⟩ := bind_eq_ok h
    cases h
    have hselected := require_ok hselected
    rw [Bool.and_eq_true, decide_eq_true_eq] at hselected
    exact ⟨proposed, items, ⟨hheader, require_ok hshape, hfresh, hproposed, hitems, hselected⟩,
      rfl, rfl⟩
  · rintro ⟨proposed, items, h, rfl, rfl⟩
    have hselected := h.selected
    simp only [validateStageBundle, h.header, h.shape, h.fresh, h.listed, h.read, hselected.1,
      hselected.2, require, bind, Except.bind, if_true, decide_true, Bool.and_self]

end

theorem stage_item_canonical (terms seen : List String) {json : Json}
    (htext : itemUri p (canonical json) = itemUri p json) :
    stageItem p host db request selected terms seen (canonical json) =
      stageItem p host db request selected terms seen json := by
  cases json with
  | obj item =>
      have huri : fieldText p (canonicalFields item) "uri" = fieldText p item "uri" := htext
      simp only [stageItem, objectOf, canonical, same_keys_canonical]
      split
      · show _ >>= _ = _ >>= _
        simp only [bind, Except.bind, huri, catalog_agrees_canonical, digest_agrees_canonical,
          tools_agree_canonical]
      · rfl
  | null | bool | int | float | str | arr => rfl

theorem stage_items_canonical (terms seen : List String) {values : List Json}
    (htexts : ∀ json ∈ values, itemUri p (canonical json) = itemUri p json) :
    stageItems p host db request selected terms seen (values.map canonical) =
      stageItems p host db request selected terms seen values := by
  induction values generalizing seen with
  | nil => rfl
  | cons json values ih =>
      rw [List.map_cons, stageItems, stageItems,
        stage_item_canonical terms seen (htexts json List.mem_cons_self)]
      refine bind_congr fun item => ?_
      rw [ih (item.1 :: seen) fun later hlater => htexts later (List.mem_cons_of_mem _ hlater)]

theorem stage_item_uri {terms seen : List String} {json : Json} {item : String × Json}
    (h : stageItem p host db request selected terms seen json = .ok item) :
    item.1 = itemUri p json ∧ instructionUri item.2 = some (.str item.1) := by
  unfold stageItem at h
  obtain ⟨fields, hfields, h⟩ := bind_eq_ok h
  obtain ⟨hjson, -⟩ := object_of_ok hfields
  obtain ⟨cap, -, h⟩ := bind_eq_ok h
  obtain ⟨⟨path, content⟩, -, h⟩ := bind_eq_ok h
  obtain ⟨_, -, h⟩ := bind_eq_ok h
  obtain ⟨_, -, h⟩ := bind_eq_ok h
  obtain ⟨relevance, hrelevance, h⟩ := bind_eq_ok h
  cases h
  obtain ⟨_, -, hrelevance⟩ := bind_eq_ok hrelevance
  cases hrelevance
  cases hjson
  exact ⟨rfl, rfl⟩

theorem stage_items_uris {terms seen : List String} {values : List Json}
    {items : List (String × Json)}
    (h : stageItems p host db request selected terms seen values = .ok items) :
    items.map (fun item => instructionUri item.2) =
      values.map fun json => some (.str (itemUri p json)) := by
  induction values generalizing seen items with
  | nil =>
      cases h
      rfl
  | cons json values ih =>
      obtain ⟨item, hitem, h⟩ := bind_eq_ok h
      obtain ⟨rest, hrest, h⟩ := bind_eq_ok h
      cases h
      obtain ⟨huri, hnamed⟩ := stage_item_uri hitem
      rw [List.map_cons, List.map_cons, hnamed, huri, ih hrest]

theorem StageBundleAccepted.sorted (hapart : TextsApart p host) {objective : String} {bundle : Dict}
    {proposed : List Json} {items : List (String × Json)}
    (h : StageBundleAccepted p host db request selected value objective bundle proposed items)
    (htexts : ∀ json ∈ proposed, itemUri p (canonical json) = itemUri p json) :
    StageBundleAccepted p host db request selected (value.map canonical) objective
      (canonicalFields bundle) (proposed.map canonical) items where
  header := by
    rw [bundle_header_canonical, h.header]
    rfl
  shape := (tagged_text_read (Dict.rewritten_canonical_fields bundle) (by decide)
    ⟨by decide, by decide⟩ _).trans h.shape
  fresh := (bundle_fresh_canonical hapart "stage " bundle).trans h.fresh
  listed := by
    rw [bundle_items_canonical, h.listed]
    rfl
  read := (stage_items_canonical _ _ htexts).trans h.read
  selected := h.selected

theorem stage_items_equals (whole : String → Option Int) {terms seen : List String}
    {values : List Json} {items : List (String × Json)}
    (h : stageItems p host db request selected terms seen values = .ok items) :
    ∀ json ∈ items.map (·.2), equals whole json json = true := by
  induction values generalizing seen items with
  | nil =>
      cases h
      exact fun json hjson => absurd hjson List.not_mem_nil
  | cons json values ih =>
      obtain ⟨item, hitem, h⟩ := bind_eq_ok h
      obtain ⟨rest, hrest, h⟩ := bind_eq_ok h
      cases h
      unfold stageItem at hitem
      obtain ⟨fields, -, hitem⟩ := bind_eq_ok hitem
      obtain ⟨cap, -, hitem⟩ := bind_eq_ok hitem
      obtain ⟨⟨path, content⟩, -, hitem⟩ := bind_eq_ok hitem
      obtain ⟨_, -, hitem⟩ := bind_eq_ok hitem
      obtain ⟨_, -, hitem⟩ := bind_eq_ok hitem
      obtain ⟨relevance, hrelevance, hitem⟩ := bind_eq_ok hitem
      cases hitem
      intro later hlater
      rcases List.mem_cons.mp hlater with rfl | hlater
      · exact relevance_of_equals hrelevance
      · exact ih hrest later hlater

theorem stage_evidence_agrees {terms seen : List String} {values : List Json}
    {items : List (String × Json)}
    (h : stageItems p host db request selected terms seen values = .ok items) :
    evidenceAgrees host (some (stageEvidenceOf items)) (stageEvidenceOf items) = true := by
  have hitems := equal_items_refl (stage_items_equals host.wholeFloat h)
  simp [evidenceAgrees, sameValue, stageEvidenceOf, equals, equalFields, isNan, hitems, sameNumber,
    number]

section

variable {task : String} {envelope workflow stage : Dict} {proposal : RootProposal}
variable {items : List BundleItem} {evidence stageEvidence : Json} {found : List (String × Json)}

/-- What an accepted stage context has passed. -/
structure StageAccepted (p : Platform) (host : AuthorityHost) (db : Database)
    (request : ToolRequest) (selected : Capability) (task : String) (context envelope workflow : Dict)
    (agent : Capability) (proposal : RootProposal) (items : List BundleItem) (evidence : Json)
    (stage : Dict) (stageEvidence : Json) : Prop where
  keys : (context.all fun field =>
    (stageContextKeys ++ normalizedOnlyKeys).contains field.1) = true
  fields : stageContextKeys.all (Dict.has context) = true
  enveloped : stageEnvelope host task = .ok (envelope, workflow)
  headed : rootAgent p db context = some agent
  root : RootAccepted p host db request agent
    (boundTask (routingObjective p context) (carried context "capabilityBinding"))
    (stageRootContext p context) proposal items evidence
  receipt : verifyBundleReceipt p host (Dict.get? context "capmeshAuthorityReceipt")
    (fieldText p context "upstreamDelegationId") (fieldText p context "workflowId")
    (valueDigest p (.obj proposal.bundle)) (valueDigest p (.obj proposal.binding)) = .ok ()
  upstream : upstreamAgrees host request context (fieldText p context "upstreamDelegationId")
    (valueDigest p (.obj proposal.bundle)) (valueDigest p (.obj proposal.binding)) = .ok ()
  bundle : validateStageBundle p host db request selected
    (Dict.get? context "stageCapabilityBundle") (fieldText p envelope "objective") =
      .ok (stage, valueDigest p (.obj stage), stageEvidence)
  agrees : evidenceAgrees host (Dict.get? context "stageAuthorityEvidence") stageEvidence = true
  bound : envelopeAgrees p host context envelope workflow stage (valueDigest p (.obj stage))
    (valueDigest p (.obj proposal.binding)) = true

/-- What the validation returns for an accepted stage context. -/
def stageResult (p : Platform) (context : Dict) (proposal : RootProposal) (evidence : Json)
    (stage : Dict) (stageEvidence : Json) : DelegatedBundle where
  context := stageForm p context evidence stageEvidence
  bundleHash := valueDigest p (.obj stage)
  bindingHash := valueDigest p (.obj proposal.binding)

theorem carried_found (data : Dict) (key : String) :
    (match some (key, carried data key) with
      | some (_, .null) => none
      | some (_, value) => some value
      | none => none) = Dict.get? data key := by
  unfold carried
  cases hvalue : Dict.get? data key with
  | none => rfl
  | some json =>
      cases json with
      | null => exact absurd hvalue (Dict.get?_ne_null data key)
      | bool | int | float | str | arr | obj => rfl

theorem stage_result_context (p : Platform) (data : Dict) (proposal : RootProposal)
    (evidence : Json) (stage : Dict) (stageEvidence : Json) :
    (stageResult p data proposal evidence stage stageEvidence).context =
      stageForm p data evidence stageEvidence := rfl

theorem stage_root_context_get? (p : Platform) (data : Dict) {key : String}
    (h : key ∈ rootCarriedKeys) :
    Dict.get? (stageRootContext p data) key = Dict.get? data key := by
  simp only [rootCarriedKeys, List.mem_cons, List.not_mem_nil, or_false] at h
  rcases h with rfl | rfl | rfl | rfl | rfl | rfl | rfl | rfl | rfl | rfl | rfl
  all_goals exact carried_found data _

theorem stage_form_get? (p : Platform) (data : Dict) (evidence stageEvidence : Json) {key : String}
    (h : key ∈ stageContextKeys) :
    Dict.get? (stageForm p data evidence stageEvidence) key = Dict.get? data key := by
  simp only [stageContextKeys, List.mem_cons, List.not_mem_nil, or_false] at h
  rcases h with rfl | rfl | rfl | rfl | rfl | rfl | rfl | rfl | rfl | rfl | rfl | rfl | rfl | rfl
  all_goals exact carried_found data _

theorem root_result_form {bundleHash bindingHash : String}
    (hbundle : Dict.get? data "capabilityBundleHash" = some (.str bundleHash))
    (hbinding : Dict.get? data "capabilityBindingHash" = some (.str bindingHash)) :
    Dict.set (Dict.set (Dict.set (stageRootContext p data) "capabilityBundleHash"
        (.str bundleHash)) "capabilityBindingHash" (.str bindingHash)) "authorityEvidence" evidence =
      rootForm p data evidence := by
  have hbundle : carried data "capabilityBundleHash" = .str bundleHash := by
    rw [carried, hbundle, Option.getD_some]
  have hbinding : carried data "capabilityBindingHash" = .str bindingHash := by
    rw [carried, hbinding, Option.getD_some]
  cases hauth : (Dict.get? data "authorityEvidence").isSome
  · simp [stageRootContext, rootForm, rootCarriedKeys, hauth, Dict.set, Dict.has, hbundle, hbinding]
  · simp [stageRootContext, rootForm, rootCarriedKeys, hauth, Dict.set, Dict.has, hbundle, hbinding]

theorem stage_result_form (evidence stageEvidence : Json) {stageHash : String}
    (hstage : Dict.get? data "stageCapabilityBundle" = some (.obj stage))
    (hhash : Dict.get? data "stageCapabilityBundleHash" = some (.str stageHash)) :
    Dict.set (Dict.set (Dict.set (Dict.set (Dict.set (rootForm p data evidence)
        "stageCapabilityBundle" (.obj stage)) "stageCapabilityBundleHash" (.str stageHash))
        "capmeshAuthorityReceipt" (carried data "capmeshAuthorityReceipt"))
        "upstreamDelegationId" (carried data "upstreamDelegationId"))
        "stageAuthorityEvidence" stageEvidence =
      stageForm p data evidence stageEvidence := by
  have hstage : carried data "stageCapabilityBundle" = .obj stage := by
    rw [carried, hstage, Option.getD_some]
  have hhash : carried data "stageCapabilityBundleHash" = .str stageHash := by
    rw [carried, hhash, Option.getD_some]
  unfold stageForm
  rw [hstage, hhash]
  simp [rootForm, rootCarriedKeys, Dict.set, Dict.has]

theorem StageAccepted.hashes
    (h : StageAccepted p host db request selected task data envelope workflow agent proposal items
      evidence stage stageEvidence) :
    Dict.get? data "capabilityBundleHash" = some (.str (valueDigest p (.obj proposal.bundle))) ∧
    Dict.get? data "capabilityBindingHash" = some (.str (valueDigest p (.obj proposal.binding))) ∧
    Dict.get? data "stageCapabilityBundle" = some (.obj stage) ∧
    Dict.get? data "stageCapabilityBundleHash" = some (.str (valueDigest p (.obj stage))) := by
  refine ⟨?_, ?_, ?_, ?_⟩
  · rw [← stage_root_context_get? p data (by decide)]
    exact h.root.bundleHash
  · rw [← stage_root_context_get? p data (by decide)]
    exact h.root.bindingHash
  · obtain ⟨proposed, stageItems, hstage, -, -⟩ := validate_stage_bundle_iff.mp h.bundle
    exact (bundle_header_items hstage.header hstage.listed).1
  · have hbound := h.bound
    simp only [envelopeAgrees, Bool.and_eq_true, decide_eq_true_eq] at hbound
    tauto

theorem validate_stage_iff {result : DelegatedBundle} :
    validateStage p host db request selected task data = .ok result ↔
      ∃ envelope workflow agent proposal items evidence stage stageEvidence,
        StageAccepted p host db request selected task data envelope workflow agent proposal items
          evidence stage stageEvidence ∧
        result = stageResult p data proposal evidence stage stageEvidence := by
  constructor
  · intro h
    unfold validateStage at h
    obtain ⟨_, hkeys, h⟩ := bind_eq_ok h
    obtain ⟨⟨envelope, workflow⟩, henvelope, h⟩ := bind_eq_ok h
    dsimp only at h
    split at h
    · cases h
    · rename_i agent hagent
      obtain ⟨root, hroot, h⟩ := bind_eq_ok h
      obtain ⟨_, hreceipt, h⟩ := bind_eq_ok h
      obtain ⟨_, hupstream, h⟩ := bind_eq_ok h
      obtain ⟨⟨stage, stageHash, stageEvidence⟩, hstage, h⟩ := bind_eq_ok h
      obtain ⟨_, hagrees, h⟩ := bind_eq_ok h
      obtain ⟨_, hbound, h⟩ := bind_eq_ok h
      obtain ⟨proposal, items, evidence, haccepted, rfl⟩ := validate_root_iff.mp hroot
      obtain ⟨proposed, found, -, rfl, -⟩ := validate_stage_bundle_iff.mp hstage
      have hkeys := require_ok hkeys
      rw [Bool.and_eq_true] at hkeys
      have hall : StageAccepted p host db request selected task data envelope workflow agent proposal
          items evidence stage stageEvidence :=
        ⟨hkeys.1, hkeys.2, henvelope, hagent, haccepted, hreceipt, hupstream, hstage,
          require_ok hagrees, require_ok hbound⟩
      obtain ⟨hbundle, hbinding, hcarried, hhash⟩ := hall.hashes
      refine ⟨envelope, workflow, agent, proposal, items, evidence, stage, stageEvidence, hall, ?_⟩
      dsimp only at h
      have hresult := Except.ok.inj h
      rw [← hresult, stageResult, ← stage_result_form _ _ hcarried hhash,
        ← root_result_form hbundle hbinding]
      simp only [rootResult]
  · rintro ⟨envelope, workflow, agent, proposal, items, evidence, stage, stageEvidence, h, rfl⟩
    obtain ⟨hbundle, hbinding, hcarried, hhash⟩ := h.hashes
    have hroot : validateRootAuthoritativeBundle p host db request agent
        (boundTask (routingObjective p data) (carried data "capabilityBinding"))
        (some (.obj (stageRootContext p data))) =
          .ok (rootResult p (stageRootContext p data) proposal evidence) :=
      validate_root_iff.mpr ⟨proposal, items, evidence, h.root, rfl⟩
    have hform : (rootResult p (stageRootContext p data) proposal evidence).context =
        rootForm p data evidence := root_result_form hbundle hbinding
    have hstageForm := stage_result_form (p := p) evidence stageEvidence hcarried hhash
    simp only [validateStage, h.keys, h.fields, h.enveloped, h.headed, hroot, h.bundle, h.agrees,
      h.bound, require, bind, Except.bind, Bool.and_self, if_true, hform, hstageForm, stageResult,
      show (rootResult p (stageRootContext p data) proposal evidence).bundleHash =
        valueDigest p (.obj proposal.bundle) from rfl,
      show (rootResult p (stageRootContext p data) proposal evidence).bindingHash =
        valueDigest p (.obj proposal.binding) from rfl, h.receipt, h.upstream]

theorem root_carried_stage {key : String} (h : key ∈ rootCarriedKeys) : key ∈ stageContextKeys := by
  have hall : ∀ key ∈ rootCarriedKeys, key ∈ stageContextKeys := by decide
  exact hall key h

theorem stage_form_congr {a b : Dict}
    (h : ∀ key ∈ stageContextKeys, Dict.get? a key = Dict.get? b key) :
    stageForm p a evidence stageEvidence = stageForm p b evidence stageEvidence := by
  have hrouting : routingObjective p a = routingObjective p b :=
    routing_objective_congr fun key hkey => h key (by revert key; decide)
  have hcarried : ∀ key ∈ stageContextKeys, carried a key = carried b key := fun key hkey => by
    rw [carried, h key hkey, carried]
  have hroot : (rootCarriedKeys.map fun key => (key, carried a key)) =
      rootCarriedKeys.map fun key => (key, carried b key) :=
    List.map_congr_left fun key hkey => by rw [hcarried key (root_carried_stage hkey)]
  unfold stageForm rootForm
  rw [hrouting, hroot, hcarried "stageCapabilityBundle" (by decide),
    hcarried "stageCapabilityBundleHash" (by decide),
    hcarried "capmeshAuthorityReceipt" (by decide)]

theorem stage_form_routing (p : Platform) (data : Dict) (evidence stageEvidence : Json) :
    routingObjective p (stageForm p data evidence stageEvidence) = routingObjective p data :=
  routing_objective_congr fun key hkey => stage_form_get? p data _ _ (by revert key; decide)

theorem stage_root_context_form {fields : Dict} :
    stageRootContext p (stageForm p data (.obj fields) stageEvidence) =
      rootForm p data (.obj fields) := by
  have hcarried : (rootCarriedKeys.map fun key =>
        (key, carried (stageForm p data (.obj fields) stageEvidence) key)) =
      rootCarriedKeys.map fun key => (key, carried data key) :=
    List.map_congr_left fun key hkey => by
      rw [carried, stage_form_get? p data _ _ (root_carried_stage hkey), carried]
  unfold stageRootContext rootForm
  rw [stage_form_routing, hcarried]
  rfl

theorem StageAccepted.of_same {other : Dict}
    (h : StageAccepted p host db request selected task data envelope workflow agent proposal items
      evidence stage stageEvidence)
    (hsame : ∀ key ∈ stageContextKeys, Dict.get? other key = Dict.get? data key)
    (hkeys : (other.all fun field =>
      (stageContextKeys ++ normalizedOnlyKeys).contains field.1) = true)
    (hfields : stageContextKeys.all (Dict.has other) = true)
    (hroot : RootAccepted p host db request agent
      (boundTask (routingObjective p data) (carried data "capabilityBinding"))
      (stageRootContext p other) proposal items evidence)
    (hagrees : evidenceAgrees host (Dict.get? other "stageAuthorityEvidence") stageEvidence = true) :
    StageAccepted p host db request selected task other envelope workflow agent proposal items
      evidence stage stageEvidence := by
  have htext : ∀ key ∈ stageContextKeys, fieldText p other key = fieldText p data key :=
    fun key hkey => by rw [fieldText, hsame key hkey, fieldText]
  have hrouting : routingObjective p other = routingObjective p data :=
    routing_objective_congr fun key hkey => hsame key (by revert key; decide)
  have hbinding : carried other "capabilityBinding" = carried data "capabilityBinding" := by
    rw [carried, hsame "capabilityBinding" (by decide), carried]
  exact {
    keys := hkeys
    fields := hfields
    enveloped := h.enveloped
    headed := by
      unfold rootAgent bundleItemsAt
      rw [hsame "capabilityBundle" (by decide)]
      exact h.headed
    root := by
      rw [hrouting, hbinding]
      exact hroot
    receipt := by
      rw [hsame "capmeshAuthorityReceipt" (by decide), htext "upstreamDelegationId" (by decide),
        htext "workflowId" (by decide)]
      exact h.receipt
    upstream := by
      unfold upstreamAgrees
      rw [htext "upstreamDelegationId" (by decide), hsame "workflowId" (by decide)]
      exact h.upstream
    bundle := by
      rw [hsame "stageCapabilityBundle" (by decide)]
      exact h.bundle
    agrees := hagrees
    bound := by
      unfold envelopeAgrees
      rw [hsame "stageCapabilityBundleHash" (by decide), hsame "workflowId" (by decide),
        hsame "repo" (by decide), hsame "scope" (by decide), hsame "baseCommit" (by decide),
        hsame "upstreamDelegationId" (by decide), htext "upstreamDelegationId" (by decide)]
      exact h.bound }

theorem StageAccepted.result
    (h : StageAccepted p host db request selected task data envelope workflow agent proposal items
      evidence stage stageEvidence) :
    StageAccepted p host db request selected task (stageForm p data evidence stageEvidence) envelope
      workflow agent proposal items evidence stage stageEvidence := by
  obtain ⟨hbundle, hbinding, -, -⟩ := h.hashes
  obtain ⟨-, -, fields, rfl⟩ := root_evidence_ok h.root.computed
  obtain ⟨proposed, found, hstage, -, rfl⟩ := validate_stage_bundle_iff.mp h.bundle
  have hform : (rootResult p (stageRootContext p data) proposal (.obj fields)).context =
      rootForm p data (.obj fields) := root_result_form hbundle hbinding
  refine h.of_same (fun key hkey => stage_form_get? p data _ _ hkey) rfl rfl ?_ ?_
  · rw [stage_root_context_form, ← hform]
    exact h.root.result
  · exact stage_evidence_agrees hstage.read

theorem carried_read (h : Dict.Rewritten data read) (key : String) :
    carried read key = canonical (carried data key) := by
  unfold carried
  rw [h.get?]
  cases Dict.get? data key <;> rfl

theorem stage_root_context_read (h : Dict.Rewritten data read)
    (hrouting : routingObjective p read = routingObjective p data) :
    Dict.Rewritten (stageRootContext p data) (stageRootContext p read) := by
  have hmap : stageRootContext p read =
      (stageRootContext p data).map fun field => (field.1, canonical field.2) := by
    unfold stageRootContext
    rw [hrouting, List.map_append, List.map_cons, List.map_cons, List.map_map, h.get?,
      Option.isSome_map]
    congr 1
    · congr 2
      exact List.map_congr_left fun key _ => by rw [carried_read h, Function.comp_apply]
    · split
      · rw [carried_read h, List.map_cons, List.map_nil]
      · rfl
  rw [hmap]
  exact Dict.rewritten_map _

theorem root_texts_congr {a b : Dict}
    (h : ∀ key ∈ ["scope", "repo", "baseCommit", "capabilityBundle"],
      Dict.get? a key = Dict.get? b key) (hstable : RootTextsStable p db a) :
    RootTextsStable p db b := by
  have hitems : bundleItemsAt "capabilityBundle" b = bundleItemsAt "capabilityBundle" a := by
    unfold bundleItemsAt
    rw [h "capabilityBundle" (by decide)]
  have hrouting : routingObjective p b = routingObjective p a :=
    (routing_objective_congr fun key hkey => h key (by revert key; decide)).symm
  have hsorted : routingObjective p (canonicalFields b) = routingObjective p (canonicalFields a) :=
    routing_objective_congr fun key hkey => by
      rw [Dict.get?_canonical_fields, Dict.get?_canonical_fields, h key (by revert key; decide)]
  exact ⟨by rw [hsorted, hstable.objective, hrouting], hitems ▸ hstable.named,
    hitems ▸ hstable.uris⟩

theorem stage_root_context_keys :
    ∀ key ∈ ["scope", "repo", "baseCommit", "capabilityBundle"],
      Dict.get? (stageRootContext p data) key = Dict.get? data key := by
  have hkeys : ∀ key ∈ ["scope", "repo", "baseCommit", "capabilityBundle"],
      key ∈ rootCarriedKeys := by decide
  exact fun key hkey => stage_root_context_get? p data (hkeys key hkey)

/-- The texts of a context are those of the sorted one: of its root context, and of the URIs of a
stage bundle. -/
structure TextsStable (p : Platform) (db : Database) (context : Dict) : Prop where
  root : RootTextsStable p db context
  stage : ∀ json ∈ bundleItemsAt "stageCapabilityBundle" context,
    itemUri p (canonical json) = itemUri p json

/-- The form of a context that was read back sorts as that of the context. -/
theorem stage_form_read (h : Dict.Rewritten data read)
    (hrouting : routingObjective p read = routingObjective p data) :
    canonicalFields (stageForm p read evidence stageEvidence) =
      canonicalFields (stageForm p data evidence stageEvidence) := by
  refine canonical_fields_congr ?_
  simp only [stageForm, rootForm, rootCarriedKeys, hrouting, carried_read h, List.map_cons,
    List.map_nil, List.map_append, canonical_canonical, canonical]

theorem stage_items_at {proposed : List Json} {objective : String}
    (h : StageBundleAccepted p host db request selected
      (Dict.get? data "stageCapabilityBundle") objective stage proposed found) :
    bundleItemsAt "stageCapabilityBundle" data = proposed := by
  obtain ⟨hvalue, hitems⟩ := bundle_header_items h.header h.listed
  simp [bundleItemsAt, hvalue, hitems]

theorem StageAccepted.read_back (hapart : TextsApart p host)
    (h : StageAccepted p host db request selected task data envelope workflow agent proposal items
      evidence stage stageEvidence)
    (hread : Dict.Rewritten data read) (hstable : TextsStable p db data) :
    StageAccepted p host db request selected task read envelope workflow agent proposal.sorted
      (sortedItems p proposal.proposed items) evidence (canonicalFields stage) stageEvidence := by
  have hrouting : routingObjective p read = routingObjective p data :=
    (routing_objective_read hread).trans hstable.root.objective
  have hroot : RootTextsStable p db (stageRootContext p data) :=
    root_texts_congr (fun key hkey => (stage_root_context_keys key hkey).symm) hstable.root
  have htask : boundTask (routingObjective p data) (carried read "capabilityBinding") =
      boundTask (routingObjective p data) (carried data "capabilityBinding") := by
    rw [carried_read hread, boundTask, json_dumps_canonical, boundTask]
  have hbound := h.bound
  simp only [envelopeAgrees, Bool.and_eq_true] at hbound
  have hupstream : fieldText p read "upstreamDelegationId" =
      fieldText p data "upstreamDelegationId" :=
    field_text_read_of_tagged hread (by decide) ⟨by decide, by decide⟩ hbound.2
  obtain ⟨_, hproposal⟩ := root_proposal_iff.mp h.root.proposed
  have hworkflowId := hproposal.workflow
  rw [fieldText, stage_root_context_get? p data (by decide), ← fieldText] at hworkflowId
  have hworkflow : fieldText p read "workflowId" = fieldText p data "workflowId" :=
    field_text_read_of_tagged hread (by decide) ⟨by decide, by decide⟩ hworkflowId
  obtain ⟨proposed, found, hstage, -, hevidence⟩ := validate_stage_bundle_iff.mp h.bundle
  have htexts := hstable.stage
  rw [stage_items_at hstage] at htexts
  exact {
    keys := (hread.all_keys _).trans h.keys
    fields := by
      rw [← h.fields]
      congr 1
      funext key
      exact hread.has key
    enveloped := h.enveloped
    headed := (root_agent_read hread hstable.root.named).trans h.headed
    root := by
      rw [hrouting, htask]
      exact h.root.read_back hapart (stage_root_context_read hread hrouting) hroot
    receipt := by
      simp only [RootProposal.sorted, value_digest_canonical]
      rw [hread.get?, verify_bundle_receipt_canonical, hupstream, hworkflow]
      exact h.receipt
    upstream := by
      simp only [RootProposal.sorted, value_digest_canonical]
      rw [upstream_agrees_read hread, hupstream]
      exact h.upstream
    bundle := by
      rw [hread.get?]
      exact validate_stage_bundle_iff.mpr ⟨proposed.map canonical, found,
        hstage.sorted hapart htexts, rfl, hevidence⟩
    agrees := by
      have hagrees := h.agrees
      unfold evidenceAgrees at hagrees ⊢
      rw [hread.get?, Option.isNone_map, same_value_canonical_left]
      exact hagrees
    bound := by
      simp only [RootProposal.sorted, value_digest_canonical]
      rw [envelope_agrees_read hread]
      exact h.bound }

theorem stage_evidence_uris {others : List (String × Json)}
    (h : canonical (stageEvidenceOf others) = canonical (stageEvidenceOf found)) :
    others.map (fun item => (instructionUri item.2).map canonical) =
      found.map fun item => (instructionUri item.2).map canonical := by
  have hrelevance : ∀ list : List (String × Json),
      Dict.get? (canonicalFields [("schema", .str "capmesh.stage-bundle.authority-evidence.v1"),
        ("bundle_complete", .bool true), ("relevance", .arr (list.map (·.2)))]) "relevance" =
        some (.arr ((list.map (·.2)).map canonical)) := fun list => by
    rw [Dict.get?_canonical_fields, ← canonical_items_eq_map]
    rfl
  have hfields := hrelevance others
  rw [Json.obj.inj h, hrelevance found] at hfields
  have hitems := congrArg (List.map instructionUri) (Json.arr.inj (Option.some.inj hfields))
  have hcomp : (instructionUri ∘ canonical) ∘ (fun item : String × Json => item.2) =
      fun item => (instructionUri item.2).map canonical :=
    funext fun item => instruction_uri_canonical item.2
  rw [List.map_map, List.map_map, List.map_map, List.map_map, hcomp] at hitems
  exact hitems.symm

/-- The texts of a stage context are stable when it is accepted as it is and read back, with one
objective and one evidence. -/
theorem StageAccepted.texts_stable (hapart : TextsApart p host) {other : Capability}
    {envelope' workflow' stage' : Dict} {proposal' : RootProposal} {items' : List BundleItem}
    {evidence' stageEvidence' : Json}
    (h : StageAccepted p host db request selected task data envelope workflow agent proposal items
      evidence stage stageEvidence)
    (hread : Dict.Rewritten data read)
    (hback : StageAccepted p host db request selected task read envelope' workflow' other proposal'
      items' evidence' stage' stageEvidence')
    (hrouting : routingObjective p read = routingObjective p data)
    (hevidence : canonical stageEvidence' = canonical stageEvidence) :
    TextsStable p db data where
  root := root_texts_congr stage_root_context_keys
    (h.root.texts_stable hapart (stage_root_context_read hread hrouting) hback.root)
  stage := by
    obtain ⟨proposed, found, hstage, -, rfl⟩ := validate_stage_bundle_iff.mp h.bundle
    obtain ⟨proposed', found', hstageBack, -, rfl⟩ := validate_stage_bundle_iff.mp hback.bundle
    have hproposed : proposed' = proposed.map canonical := by
      rw [← stage_items_at hstageBack, bundle_items_at_read hread, stage_items_at hstage]
    have huris := congrArg (List.map (Option.map canonical)) (stage_items_uris hstage.read)
    have hurisBack := congrArg (List.map (Option.map canonical)) (stage_items_uris hstageBack.read)
    rw [List.map_map, List.map_map] at huris hurisBack
    have hfound : found'.map (Option.map canonical ∘ fun item => instructionUri item.2) =
        found.map (Option.map canonical ∘ fun item => instructionUri item.2) :=
      stage_evidence_uris hevidence
    rw [huris, hurisBack, hproposed, List.map_map] at hfound
    rw [stage_items_at hstage]
    intro json hjson
    have htext := List.map_inj_left.mp hfound json hjson
    exact Json.str.inj (Option.some.inj htext)

theorem stage_form_texts (evidence stageEvidence : Json) :
    TextsStable p db (stageForm p data evidence stageEvidence) ↔ TextsStable p db data := by
  have hkeys : ∀ key ∈ ["scope", "repo", "baseCommit", "capabilityBundle"],
      Dict.get? (stageForm p data evidence stageEvidence) key = Dict.get? data key :=
    fun key hkey => stage_form_get? p data _ _ (by revert key; decide)
  have hitems : bundleItemsAt "stageCapabilityBundle" (stageForm p data evidence stageEvidence) =
      bundleItemsAt "stageCapabilityBundle" data := by
    unfold bundleItemsAt
    rw [stage_form_get? p data _ _ (by decide)]
  constructor
  · exact fun h => ⟨root_texts_congr hkeys h.root, hitems ▸ h.stage⟩
  · exact fun h => ⟨root_texts_congr (fun key hkey => (hkeys key hkey).symm) h.root,
      hitems.symm ▸ h.stage⟩

theorem same_stage_forms {others : List (String × Json)} {evidence' : Json}
    (h : canonicalFields (stageForm p read evidence' (stageEvidenceOf others)) =
      canonicalFields (stageForm p data evidence (stageEvidenceOf found))) :
    routingObjective p read = routingObjective p data ∧
      canonical (stageEvidenceOf others) = canonical (stageEvidenceOf found) := by
  have hobjective : ∀ (fields : Dict) (first second : Json),
      Dict.get? (canonicalFields (stageForm p fields first second)) "objective" =
        some (.str (routingObjective p fields)) := fun fields first second => by
    rw [Dict.get?_canonical_fields]
    rfl
  have hevidence : ∀ (fields : Dict) (first : Json) (list : List (String × Json)),
      Dict.get? (canonicalFields (stageForm p fields first (stageEvidenceOf list)))
        "stageAuthorityEvidence" = some (canonical (stageEvidenceOf list)) :=
    fun fields first list => by
      rw [Dict.get?_canonical_fields]
      rfl
  constructor
  · have hread := hobjective read evidence' (stageEvidenceOf others)
    rw [h, hobjective] at hread
    exact (Json.str.inj (Option.some.inj hread)).symm
  · have hread := hevidence read evidence' others
    rw [h, hevidence] at hread
    exact (Option.some.inj hread).symm

/-- **A stage context is its own validation**, and once it was read back exactly when its texts are
stable. -/
theorem stage_revalidated (hapart : TextsApart p host) {result : DelegatedBundle}
    (h : validateStage p host db request selected task data = .ok result) :
    validateStage p host db request selected task result.context = .ok result ∧
      ((∃ again, validateStage p host db request selected task (canonicalFields result.context) =
          .ok again ∧ SameBundle again result) ↔ TextsStable p db data) := by
  obtain ⟨envelope, workflow, agent, proposal, items, evidence, stage, stageEvidence, haccepted,
    rfl⟩ := validate_stage_iff.mp h
  have hform : stageForm p (stageForm p data evidence stageEvidence) evidence stageEvidence =
      stageForm p data evidence stageEvidence :=
    stage_form_congr fun key hkey => stage_form_get? p data _ _ hkey
  have hread := Dict.rewritten_canonical_fields (stageForm p data evidence stageEvidence)
  refine ⟨validate_stage_iff.mpr ⟨envelope, workflow, agent, proposal, items, evidence, stage,
    stageEvidence, haccepted.result, by rw [stageResult, stageResult, hform]⟩, ?_⟩
  rw [← stage_form_texts evidence stageEvidence]
  constructor
  · rintro ⟨again, hagain, hsame⟩
    obtain ⟨envelope', workflow', other, proposal', items', evidence', stage', stageEvidence', hback,
      rfl⟩ := validate_stage_iff.mp hagain
    obtain ⟨_, found, -, -, rfl⟩ := validate_stage_bundle_iff.mp haccepted.bundle
    obtain ⟨_, found', -, -, rfl⟩ := validate_stage_bundle_iff.mp hback.bundle
    have hcontext := hsame.context
    rw [stage_result_context, stage_result_context] at hcontext
    obtain ⟨hrouting, hevidence⟩ := same_stage_forms hcontext
    exact haccepted.result.texts_stable hapart hread hback
      (hrouting.trans (stage_form_routing p data _ _).symm) hevidence
  · intro hstable
    have hrouting := (routing_objective_read hread).trans hstable.root.objective
    refine ⟨_, validate_stage_iff.mpr ⟨_, _, _, _, _, _, _, _,
      haccepted.result.read_back hapart hread hstable, rfl⟩, ?_, ?_, ?_⟩
    · show canonicalFields (stageForm p (canonicalFields (stageForm p data evidence stageEvidence))
        evidence stageEvidence) = canonicalFields (stageForm p data evidence stageEvidence)
      rw [stage_form_read hread hrouting, hform]
    · exact value_digest_canonical stage
    · exact value_digest_canonical proposal.binding

theorem root_context_no_stage
    (h : (data.all fun field => rootContextKeys.contains field.1) = true) :
    Dict.has data "stageCapabilityBundle" = false := by
  unfold Dict.has
  rw [List.any_eq_false]
  intro field hfield hkey
  have hcontains := List.all_eq_true.mp h field hfield
  rw [of_decide_eq_true hkey] at hcontains
  exact absurd hcontains (by decide)

theorem no_stage_items (h : Dict.has data "stageCapabilityBundle" = false) :
    bundleItemsAt "stageCapabilityBundle" data = [] := by
  have hnone : data.find? (fun field => field.1 = "stageCapabilityBundle") = none := by
    rw [List.find?_eq_none]
    unfold Dict.has at h
    exact List.any_eq_false.mp h
  simp [bundleItemsAt, Dict.get?, hnone]

/-- **A validation that returns a context accepts it again**, and returns it as it is. Once the
context was written with sorted keys and read back, the validation accepts it and returns it with its
digests exactly when the texts of the context are stable. -/
theorem revalidated (hapart : TextsApart p host) {context : Dict} {result : DelegatedBundle}
    (h : validateAuthoritativeBundle p host db request selected task (some (.obj context)) =
      .ok result) :
    validateAuthoritativeBundle p host db request selected task (some (.obj result.context)) =
        .ok result ∧
      ((∃ again, validateAuthoritativeBundle p host db request selected task
          (some (.obj (canonicalFields result.context))) = .ok again ∧ SameBundle again result) ↔
        TextsStable p db context) := by
  unfold validateAuthoritativeBundle at h ⊢
  dsimp only at h ⊢
  rw [Dict.has_canonical_fields]
  cases hstage : Dict.has context "stageCapabilityBundle" with
  | true =>
      rw [hstage, if_pos rfl] at h
      obtain ⟨_, _, _, proposal, _, evidence, stage, stageEvidence, -, hresult⟩ :=
        validate_stage_iff.mp h
      have hhas : Dict.has result.context "stageCapabilityBundle" = true := by
        rw [hresult]
        rfl
      rw [hhas, if_pos rfl, if_pos rfl]
      exact stage_revalidated hapart h
  | false =>
      rw [hstage, if_neg Bool.false_ne_true] at h
      obtain ⟨proposal, items, evidence, haccepted, hresult⟩ := validate_root_iff.mp h
      obtain ⟨_, hproposal⟩ := root_proposal_iff.mp haccepted.proposed
      have hhas : Dict.has result.context "stageCapabilityBundle" = false := by
        rw [hresult]
        exact root_context_no_stage ((root_result_keys p context proposal evidence).trans
          hproposal.keys)
      rw [hhas, if_neg Bool.false_ne_true, if_neg Bool.false_ne_true]
      have hkeys : ∀ key ∈ ["scope", "repo", "baseCommit", "capabilityBundle"],
          Dict.get? result.context key = Dict.get? context key := fun key hkey => by
        rw [hresult]
        exact root_result_get? p context proposal evidence (by revert key; decide)
      have hread := Dict.rewritten_canonical_fields result.context
      obtain ⟨hagain, hback⟩ := root_revalidated hapart h
      refine ⟨hagain, ?_⟩
      constructor
      · rintro ⟨again, hagain, -⟩
        obtain ⟨proposal', items', evidence', hother, -⟩ := validate_root_iff.mp hagain
        rw [hresult] at hread hother hkeys
        have hstable := haccepted.result.texts_stable hapart hread hother
        refine ⟨root_texts_congr hkeys hstable, fun json hjson => ?_⟩
        rw [no_stage_items hstage] at hjson
        exact absurd hjson List.not_mem_nil
      · intro hstable
        exact hback _ hread
          (root_texts_congr (fun key hkey => (hkeys key hkey).symm) hstable.root)

end

end

/-- The contents of the two agents. -/
def buildText : String := "Build the notes.\n"

def reviewText : String := "Review the notes.\n"

def buildDigest : String := "cfc99cc9c80df70cbe846a9c61e8c57dd4882782cea6a5ed4a85e13902cc753b"

def reviewDigest : String := "42b8cdb4f0f399cfb34c634ba067c4cba7c8691a6d3ad89663d71f2961948c29"

/-- An agent of the package `notes` that is published, approved and verified. -/
def bundledAgent (name title description digest : String) : Capability :=
  { uri := "cap://asg.local/agent/notes." ++ name ++ "@0.1.0", capabilityType := .agent, name
    version := "0.1.0", title, description
    packagePath := "/srv/notes", entrypoint := name ++ ".md"
    sourcePath := "/srv/notes/" ++ name ++ ".md", sourceKind := "agent"
    sourceSystem := "local", canonicalKey := "agent:notes:" ++ name ++ ":0.1.0"
    contentHash := "sha256:" ++ digest, plugin := some "notes", lifecycle := .published
    approvalState := .approved, signatureStatus := .verified, provenanceStatus := .verified
    riskReviewStatus := .approved }

def builderAgent : Capability := bundledAgent "builder" "Build notes" "Builds notes." buildDigest

def reviewerAgent : Capability :=
  bundledAgent "reviewer" "Review notes" "Reviews notes." reviewDigest

/-- The catalog with the two agents. -/
def agentCatalog : Database :=
  { Database.empty with
    capabilities := ⟨[⟨1, builderAgent⟩, ⟨2, reviewerAgent⟩], by
      refine List.pairwise_pair.mpr ?_
      decide⟩ }

/-- The item of a bundle for an agent. -/
def agentItem (cap : Capability) : Json :=
  .obj [("uri", .str cap.uri), ("version", .str cap.version), ("digest", .str cap.contentHash),
    ("lifecycle", .str "published"), ("approval", .str "approved"), ("signature", .str "verified"),
    ("provenance", .str "verified"), ("risk_review", .str "approved"),
    ("instructions_digest", .str cap.contentHash), ("tools", .arr []),
    ("agent_type", .str cap.name), ("advisory_only", .bool false)]

/-- The instruction of a binding for an agent. -/
def agentInstruction (cap : Capability) (content : String) : Json :=
  .obj [("uri", .str cap.uri), ("digest", .str cap.contentHash), ("instructions", .str content),
    ("source_path", .str ""), ("loaded_via", .str "cap.load --detail full"),
    ("read_required", .bool true)]

/-- A bundle of the two agents for a task. -/
def agentBundle (shape : String) : Dict :=
  [("schema", .str "capability_bundle.v1"), ("bundle_id", .str "capb_notes-0001"),
    ("task_shape_hash", .str ("sha256:" ++ shape)), ("created_at", .str "2026-01-01T00:00:00Z"),
    ("trust_decision", .str "authoritative"),
    ("capabilities", .arr [agentItem builderAgent, agentItem reviewerAgent])]

/-- The binding of a bundle. -/
def agentBinding (bundle : Dict) (digest : String) : Dict :=
  let entitlement := Json.obj [("status", .str "verified"),
    ("evidence", .str "cap.load authorized current principal")]
  [("schema", .str "asgcode.capability_binding.v1"), ("bundle", .obj bundle),
    ("bundle_hash", .str ("sha256:" ++ digest)), ("trust", .str "authoritative"),
    ("role_coverage", .obj [("primary_agent", .bool true), ("implementation", .bool true),
      ("verification", .bool true), ("security", .bool true)]),
    ("entitlements", .obj [(builderAgent.uri, entitlement), (reviewerAgent.uri, entitlement)]),
    ("instructions", .arr [agentInstruction builderAgent buildText,
      agentInstruction reviewerAgent reviewText]),
    ("read_requirement", .str readRequirement)]

/-- A workflow scope that names `notes.md`. -/
def notesScope (objective : Json) (advisory : Bool) : Dict :=
  let scope : Dict := [("schema", .str "asgcode.workflow.scope.v1"), ("objective", objective),
    ("repo", .null), ("worktree", .null), ("workflowId", .str "wf_notes-0001"),
    ("baseCommit", .null), ("advisory", .bool advisory), ("files", .arr [.str "notes.md"]),
    ("writeSet", .arr (if advisory then [] else [.str "notes.md"]))]
  scope ++ [("allowedTools", expectedTools scope), ("networkPolicy", .str "disabled"),
    ("dataClassification", .str "internal"), ("risk", .str (if advisory then "low" else "medium")),
    ("tests", .arr [.str "repository-defined deterministic tests for affected surfaces"]),
    ("acceptanceCriteria", .arr [.str "all planned lanes return canonical OK outcomes",
      .str "deterministic verification passes",
      .str "serial integration completes without overlapping write sets"]),
    ("budget", scopeBudget), ("contextReserveTokens", .int 41600),
    ("completionSchema", .str "asgcode.outcome.v2"), ("integration", .str "serial")]

/-- A path from the root. -/
def absolute (path : String) : String := if startsWith path "/" then path else "/" ++ path

theorem starts_with_absolute (path : String) : startsWith (absolute path) "/" = true := by
  unfold absolute
  split
  · assumption
  · exact starts_with_self_append "/" path

theorem absolute_absolute (path : String) : absolute (absolute path) = absolute path :=
  if_pos (starts_with_absolute path)

theorem absolute_ne (path : String) : absolute path ≠ "" := fun h => by
  have hstart := starts_with_absolute path
  rw [h] at hstart
  exact absurd hstart (by decide)

/-- What a root delegation proposes, with the digests of its parts. -/
structure ProposalSample where
  scopeObjective : Json
  advisory : Bool
  objective : String
  objectiveDigest : String
  scopeDigest : String
  bundleDigest : String
  bindingDigest : String
  upstream : Json

namespace ProposalSample

variable (sample : ProposalSample)

def scope : Dict := notesScope sample.scopeObjective sample.advisory

def bundle : Dict := agentBundle sample.objectiveDigest

def binding : Dict := agentBinding sample.bundle sample.bundleDigest

def task : String := boundTask sample.objective (.obj sample.binding)

def context : Dict :=
  [("schema", .str "asgcode.capmesh.delegation.context.v1"), ("objective", .str sample.objective),
    ("workflowId", .str "wf_notes-0001"), ("repo", .null), ("worktree", .null),
    ("baseCommit", .null), ("capabilityBundle", .obj sample.bundle),
    ("capabilityBinding", .obj sample.binding),
    ("capabilityBundleHash", .str ("sha256:" ++ sample.bundleDigest)),
    ("capabilityBindingHash", .str ("sha256:" ++ sample.bindingDigest)),
    ("scopeHash", .str ("sha256:" ++ sample.scopeDigest)), ("scope", .obj sample.scope),
    ("upstreamDelegationId", sample.upstream)]

/-- The first nine characters of the texts of the proposal, with the digests of the texts. -/
def digests : List (String × String) :=
  [("Build the", buildDigest), ("Review th", reviewDigest), ("\x7b\"accepta", sample.scopeDigest),
    ("\x7b\"bundle_", sample.bundleDigest), ("\x7b\"bundle\"", sample.bindingDigest),
    (String.ofList (sample.objective.toList.take 9), sample.objectiveDigest)]

/-- A deployment that tells the texts of the proposal apart by their starts, and where every path is
absolute. -/
def platform : Platform :=
  { Platform.ascii fun content => ((sample.digests.find? fun entry =>
      entry.1.toUTF8.data.toList = content.take 9).map (·.2)).getD "" with
    normalizePath := absolute
    normalizePath_idem := absolute_absolute
    normalizePath_ne := absolute_ne }

/-- What the context proposes. -/
def proposal : RootProposal where
  objective := sample.objective
  bundle := sample.bundle
  proposed := [agentItem builderAgent, agentItem reviewerAgent]
  binding := sample.binding

end ProposalSample

/-- The host at the start of 2026, with the files of the two agents. -/
def agentHost (loads : String → JsonOutcome) (signer : Except Failure AuthorityKey)
    (taskFile : String → Option Json) : AuthorityHost where
  fs path :=
    if path = "/srv/notes/builder.md" then .regular buildText.toUTF8.data.toList
    else if path = "/srv/notes/reviewer.md" then .regular reviewText.toUTF8.data.toList
    else .missing
  loads
  wholeFloat _ := none
  reMatches pattern text :=
    if pattern = implementationRe then (asciiWords text).contains "build"
    else if pattern = verifierRe then (asciiWords text).contains "review"
    else false
  reSub _ _ text := text
  reGroup _ _ := none
  fromIsoFormat text :=
    if text = "2026-01-01T00:00:00+00:00" then some (some 1767225600000000) else none
  now := 1767225600000000
  signer
  taskFile

/-- An administrator delegates. -/
def agentRequest : ToolRequest where
  params := []
  principal := { subject := "alice", tenantId := "asg", roles := ["platform_admin"] }
  directory := ⟨[], [], [], [], []⟩
  orgCache _ _ := none
  now := "2026-01-01 00:00:00"

/-- The objective of the scope is an object, whose keys are not sorted. -/
def splitSample : ProposalSample where
  scopeObjective := .obj [("verify", .str "notes"), ("implement", .str "notes")]
  advisory := false
  objective := "\x7b'verify': 'notes', 'implement': 'notes'\x7d"
  objectiveDigest := "aeb9d21d71e4e82cfc4f66d8bbe760eab0842a2d7ee57316cfe9e854f447c482"
  scopeDigest := "ca8eafb734ee50b1fa3b9b819940534edb42c604b2116b97e3a053b416492c57"
  bundleDigest := "715d5d792ae4877a1983754006f7feea3dae2c4b98786ada4ef8117bf1ef3f0a"
  bindingDigest := "19d3a30332b9d0afc50f207934bebedc029ea42996e6f701ae9408a3dd699792"
  upstream := .null

/-- A host without tasks. -/
def quietHost : AuthorityHost := agentHost (fun _ => .decodeError) (.error (.os "")) fun _ => none



theorem canonical_text_start {fields : Dict} {key : String}
    (h : (canonicalFields fields).head?.map (·.1) = some key) :
    ∃ rest, (Json.obj fields).canonicalText = "\x7b" ++ (quote key ++ ":") ++ rest := by
  cases hfields : canonicalFields fields with
  | nil => rw [hfields] at h; cases h
  | cons field others =>
      obtain ⟨name, value⟩ := field
      rw [hfields] at h
      have hname : name = key := Option.some.inj h
      refine ⟨text value ++ (if fieldTexts others = [] then "" else "," ++ join "," (fieldTexts others))
        ++ "\x7d", ?_⟩
      show "\x7b" ++ join "," (fieldTexts (canonicalFields fields)) ++ "\x7d" = _
      rw [hfields, fieldTexts, hname]
      cases fieldTexts others with
      | nil => simp [join, String.append_assoc]
      | cons first more => simp [join, String.append_assoc]

theorem sha256_text_start (p : Platform) (start rest : String) :
    p.sha256Text (start ++ rest) = p.sha256 (start.toUTF8.data.toList ++ rest.toUTF8.data.toList) := by
  simp [Runtime.sha256Text]


theorem ProposalSample.platform_start (sample : ProposalSample) {start more : List UInt8}
    (hlong : 9 ≤ start.length) : sample.platform.sha256 (start ++ more) = sample.platform.sha256 start := by
  have hstart : (start ++ more).take 9 = start.take 9 := List.take_append_of_le_length hlong
  simp only [ProposalSample.platform, Platform.ascii, hstart]

theorem value_digest_start {sample : ProposalSample} {fields : Dict} {key digest : String}
    (hkey : (canonicalFields fields).head?.map (·.1) = some key)
    (hlong : 9 ≤ ("\x7b" ++ (quote key ++ ":")).toUTF8.data.toList.length)
    (hdigest : sample.platform.sha256Text ("\x7b" ++ (quote key ++ ":")) = digest) :
    valueDigest sample.platform (.obj fields) = "sha256:" ++ digest := by
  obtain ⟨rest, htext⟩ := canonical_text_start hkey
  rw [valueDigest, textDigest, htext, sha256_text_start, sample.platform_start hlong, ← hdigest,
    Runtime.sha256Text]

/-- The checks that a root validation makes of a proposal, one by one. -/
def ProposalSample.Checked (sample : ProposalSample) (host : AuthorityHost) : Prop :=
  let p := sample.platform
  let proposal := sample.proposal
  ((canonicalFields sample.scope).head?.map (·.1) = some "acceptanceCriteria" ∧
    p.sha256Text ("\x7b" ++ (quote "acceptanceCriteria" ++ ":")) = sample.scopeDigest) ∧
  ((canonicalFields sample.bundle).head?.map (·.1) = some "bundle_id" ∧
    p.sha256Text ("\x7b" ++ (quote "bundle_id" ++ ":")) = sample.bundleDigest) ∧
  ((canonicalFields sample.binding).head?.map (·.1) = some "bundle" ∧
    p.sha256Text ("\x7b" ++ (quote "bundle" ++ ":")) = sample.bindingDigest) ∧
  (sample.context.all fun field => rootContextKeys.contains field.1) = true ∧
  rootObjective sample.context = .ok proposal.objective ∧
  isWorkflowId (fieldText p sample.context "workflowId") = true ∧
  bundleHeader p "" (Dict.get? sample.context "capabilityBundle") = .ok proposal.bundle ∧
  bundleFresh p host "" proposal.bundle = .ok () ∧
  objectOf scopeKeys "canonical workflow scope is required" (Dict.get? sample.context "scope") =
    .ok sample.scope ∧
  scopeAgrees p host sample.context sample.scope (fieldText p sample.context "workflowId") = true ∧
  isSha256 (fieldText p sample.context "scopeHash") = true ∧
  textDigest p proposal.objective = "sha256:" ++ sample.objectiveDigest ∧
  objectOf bindingKeys "canonical capability binding is required"
    (Dict.get? sample.context "capabilityBinding") = .ok proposal.binding ∧
  sameValue host (Dict.get? proposal.binding "bundle") (some (.obj proposal.bundle)) = true ∧
  ((rootItems p host agentCatalog agentRequest builderAgent [] proposal.proposed >>=
    rootEvidence p host builderAgent proposal).toOption.isSome = true)

instance (sample : ProposalSample) (host : AuthorityHost) : Decidable (sample.Checked host) := by
  unfold ProposalSample.Checked
  infer_instance

theorem ProposalSample.Checked.accepted {sample : ProposalSample} {host : AuthorityHost}
    (h : sample.Checked host) :
    ∃ items evidence, RootAccepted sample.platform host agentCatalog agentRequest builderAgent
      sample.task sample.context sample.proposal items evidence := by
  obtain ⟨⟨hscopeKey, hscope⟩, ⟨hbundleKey, hbundle⟩, ⟨hbindingKey, hbinding⟩, hkeys, hobjective,
    hworkflow, hheader, hfresh, hscopeRead, hagrees, hhash, hshape, hbound, hsame, hevidence⟩ := h
  have hscope := value_digest_start hscopeKey (by decide) hscope
  have hbundle : valueDigest sample.platform (.obj sample.proposal.bundle) =
      "sha256:" ++ sample.bundleDigest := value_digest_start hbundleKey (by decide) hbundle
  have hbinding : valueDigest sample.platform (.obj sample.proposal.binding) =
      "sha256:" ++ sample.bindingDigest :=
    value_digest_start hbindingKey (by decide) hbinding
  obtain ⟨evidence, hevidence⟩ := Option.isSome_iff_exists.mp hevidence
  obtain ⟨items, hitems, hevidence⟩ := bind_eq_ok (to_option_eq_some hevidence)
  refine ⟨items, evidence, ?_⟩
  exact {
    schema := rfl
    proposed := root_proposal_iff.mpr ⟨sample.scope, {
      keys := hkeys
      objective := hobjective
      workflow := hworkflow
      header := hheader
      fresh := hfresh
      scopeRead := hscopeRead
      agrees := hagrees
      scopeHash := ⟨hhash, by rw [hscope]; rfl⟩
      shape := by rw [hshape]; rfl
      listed := rfl
      bound := hbound
      same := ⟨rfl, hsame⟩ }⟩
    read := hitems
    computed := hevidence
    agrees := rfl
    trust := rfl
    requirement := rfl
    hashed := by rw [hbundle]; rfl
    bundleHash := by rw [hbundle]; rfl
    bindingHash := by rw [hbinding]; rfl
    task := rfl }

theorem split_checked : splitSample.Checked quietHost := by decide +kernel

theorem sample_texts_apart (sample : ProposalSample) (loads : String → JsonOutcome)
    (signer : Except Failure AuthorityKey) (taskFile : String → Option Json) :
    TextsApart sample.platform (agentHost loads signer taskFile) where
  times text htext := if_neg fun heq => by
    rw [heq] at htext
    exact absurd htext (by decide)
  paths path := by
    obtain ⟨rest, hrest⟩ := List.isPrefixOf_iff_prefix.mp (starts_with_absolute path)
    cases hopen : bracketed (sample.platform.normalizePath path) with
    | false => rfl
    | true =>
        obtain ⟨c, others, htext, hc⟩ := bracketed_head hopen
        have hhead : '/' :: rest = c :: others := hrest.trans htext
        obtain ⟨rfl, -⟩ := List.cons.inj hhead
        exact absurd hc (by decide)

/-- The law for a context with an object for the objective of its scope. -/
theorem revalidated_split : ∃ result,
    validateAuthoritativeBundle splitSample.platform quietHost agentCatalog agentRequest builderAgent
      splitSample.task (some (.obj splitSample.context)) = .ok result ∧
    validateAuthoritativeBundle splitSample.platform quietHost agentCatalog agentRequest builderAgent
      splitSample.task (some (.obj result.context)) = .ok result ∧
    ((∃ again, validateAuthoritativeBundle splitSample.platform quietHost agentCatalog agentRequest
        builderAgent splitSample.task (some (.obj (canonicalFields result.context))) = .ok again ∧
        SameBundle again result) ↔
      TextsStable splitSample.platform agentCatalog splitSample.context) := by
  obtain ⟨items, evidence, haccepted⟩ := split_checked.accepted
  have hresult := validate_root_iff.mpr ⟨_, _, _, haccepted, rfl⟩
  exact ⟨_, hresult, revalidated (sample_texts_apart _ _ _ _) hresult⟩

/-- A context with an object for the objective of its scope is accepted, and refused once it was
written with sorted keys and read back. -/
theorem revalidated_counterexample : ∃ result,
    validateAuthoritativeBundle splitSample.platform quietHost agentCatalog agentRequest builderAgent
      splitSample.task (some (.obj splitSample.context)) = .ok result ∧
    ¬ ∃ again, validateAuthoritativeBundle splitSample.platform quietHost agentCatalog agentRequest
      builderAgent splitSample.task (some (.obj (canonicalFields result.context))) = .ok again := by
  obtain ⟨items, evidence, haccepted⟩ := split_checked.accepted
  refine ⟨_, validate_root_iff.mpr ⟨_, _, _, haccepted, rfl⟩, ?_⟩
  rintro ⟨again, hagain⟩
  have hread := Dict.rewritten_canonical_fields
    (rootResult splitSample.platform splitSample.context splitSample.proposal evidence).context
  have hhas : Dict.has (canonicalFields (rootResult splitSample.platform splitSample.context
      splitSample.proposal evidence).context) "stageCapabilityBundle" = false := by
    obtain ⟨_, hproposal⟩ := root_proposal_iff.mp haccepted.proposed
    rw [Dict.has_canonical_fields]
    exact root_context_no_stage ((root_result_keys _ _ _ _).trans hproposal.keys)
  unfold validateAuthoritativeBundle at hagain
  dsimp only at hagain
  rw [hhas, if_neg Bool.false_ne_true] at hagain
  obtain ⟨proposal, others, _, hback, -⟩ := validate_root_iff.mp hagain
  have hstable := haccepted.result.texts_stable (sample_texts_apart _ _ _ _) hread hback
  have hsplit := root_texts_congr (fun key hkey => root_result_get? _ _ _ _ (by
    revert key
    decide)) hstable
  exact absurd hsplit.objective (by decide)

end Capmesh
