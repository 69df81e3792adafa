import Capmesh.Delegation.Revalidation

/-!
# A returned context is its own validation

The validation accepts a context that it returned, and returns it again. Once the context was written
with sorted keys and read back, that holds when the texts the validation takes of its values are
still the ones they were: the repository context of the objective, and the URIs of the items.
-/

namespace Capmesh

open Python Python.Json Relational

/-- Two results with the same digests, and contexts that `==` takes for the same. -/
structure SameBundle (a b : DelegatedBundle) : Prop where
  context : canonicalFields a.context = canonicalFields b.context
  bundleHash : a.bundleHash = b.bundleHash
  bindingHash : a.bindingHash = b.bindingHash

/-- The texts that the validation takes of a root context are those of the sorted one: the routing
objective, and for the items of the bundle the capabilities that their URIs name, under texts that
are the same up to their order. -/
structure RootTextsStable (p : Platform) (db : Database) (context : Dict) : Prop where
  objective : routingObjective p (canonicalFields context) = routingObjective p context
  named : ∀ json ∈ bundleItemsAt "capabilityBundle" context,
    getCapability db (itemUri p (canonical json)) = getCapability db (itemUri p json)
  uris : ((bundleItemsAt "capabilityBundle" context).map fun json => itemUri p (canonical json)).Perm
    ((bundleItemsAt "capabilityBundle" context).map (itemUri p))

section

variable {p : Platform} {host : AuthorityHost} {db : Database} {request : ToolRequest}
variable {selected other : Capability} {data read : Dict} {proposal : RootProposal}
variable {items others : List BundleItem} {evidence : Json} {task : String}

theorem routing_objective_congr {a b : Dict}
    (h : ∀ key ∈ ["scope", "repo", "baseCommit"], Dict.get? a key = Dict.get? b key) :
    routingObjective p a = routingObjective p b := by
  unfold routingObjective Dict.truthy fieldText
  rw [h "scope" (by decide), h "repo" (by decide), h "baseCommit" (by decide)]

theorem routing_objective_read (h : Dict.Rewritten data read) :
    routingObjective p read = routingObjective p (canonicalFields data) :=
  routing_objective_congr fun key _ => by rw [h.get?, Dict.get?_canonical_fields]

theorem bundle_header_items {label other : String} {value : Option Json} {bundle : Dict}
    {proposed : List Json} (hbundle : bundleHeader p label value = .ok bundle)
    (hproposed : bundleItems other bundle = .ok proposed) :
    value = some (.obj bundle) ∧ Dict.get? bundle "capabilities" = some (.arr proposed) := by
  obtain ⟨fields, hfields, hbundle⟩ := bind_eq_ok hbundle
  obtain ⟨_, -, hbundle⟩ := bind_eq_ok hbundle
  obtain ⟨_, -, hbundle⟩ := bind_eq_ok hbundle
  cases hbundle
  refine ⟨(object_of_ok hfields).1, ?_⟩
  unfold bundleItems at hproposed
  split at hproposed
  · rename_i hitems
    split at hproposed
    · cases hproposed
      exact hitems
    · cases hproposed
  · cases hproposed

theorem root_result_get? (p : Platform) (data : Dict) (proposal : RootProposal) (evidence : Json)
    {key : String}
    (h : key ∉ ["capabilityBundleHash", "capabilityBindingHash", "authorityEvidence"]) :
    Dict.get? (rootResult p data proposal evidence).context key = Dict.get? data key := by
  simp only [List.mem_cons, List.not_mem_nil, or_false, not_or] at h
  unfold rootResult
  rw [Dict.get?_set_of_ne _ _ (Ne.symm h.2.2), Dict.get?_set_of_ne _ _ (Ne.symm h.2.1),
    Dict.get?_set_of_ne _ _ (Ne.symm h.1)]

theorem root_result_keys (p : Platform) (data : Dict) (proposal : RootProposal) (evidence : Json) :
    (rootResult p data proposal evidence).context.all
        (fun field => rootContextKeys.contains field.1) =
      data.all fun field => rootContextKeys.contains field.1 := by
  unfold rootResult
  rw [Dict.all_keys_set (by decide), Dict.all_keys_set (by decide), Dict.all_keys_set (by decide)]

theorem root_result_same_proposal (p : Platform) (data : Dict) (proposal : RootProposal)
    (evidence : Json) : SameProposal data (rootResult p data proposal evidence).context := by
  have hapart : ∀ key ∈ ["objective", "workflowId", "repo", "worktree", "baseCommit",
      "capabilityBundle", "capabilityBinding", "scopeHash", "scope"],
      key ∉ ["capabilityBundleHash", "capabilityBindingHash", "authorityEvidence"] := by decide
  exact fun key hkey => root_result_get? p data proposal evidence (hapart key hkey)

theorem root_result_bundle_hash (p : Platform) (data : Dict) (proposal : RootProposal)
    (evidence : Json) : Dict.Holds (rootResult p data proposal evidence).context
      "capabilityBundleHash" (.str (valueDigest p (.obj proposal.bundle))) :=
  ((Dict.holds_set _ _ _).set_of_ne _ (by decide)).set_of_ne _ (by decide)

theorem root_result_binding_hash (p : Platform) (data : Dict) (proposal : RootProposal)
    (evidence : Json) : Dict.Holds (rootResult p data proposal evidence).context
      "capabilityBindingHash" (.str (valueDigest p (.obj proposal.binding))) :=
  (Dict.holds_set _ _ _).set_of_ne _ (by decide)

theorem root_result_evidence (p : Platform) (data : Dict) (proposal : RootProposal)
    (evidence : Json) : Dict.Holds (rootResult p data proposal evidence).context
      "authorityEvidence" evidence :=
  Dict.holds_set _ _ _

theorem equal_items_refl {whole : String → Option Int} {values : List Json}
    (h : ∀ json ∈ values, equals whole json json = true) :
    equalItems whole values values = true := by
  induction values with
  | nil => rfl
  | cons json values ih =>
      have hrest := ih fun later hlater => h later (List.mem_cons_of_mem _ hlater)
      rw [equalItems, h json List.mem_cons_self, hrest, Bool.or_true, Bool.and_self]

theorem equal_items_texts (whole : String → Option Int) (texts : List String) :
    equalItems whole (texts.map .str) (texts.map .str) = true := by
  refine equal_items_refl fun json hjson => ?_
  obtain ⟨text, -, rfl⟩ := List.mem_map.mp hjson
  rw [equals_str]

theorem relevance_of_equals {whole : String → Option Int} {label uri text : String}
    {terms : List String} {security : Bool} {json : Json}
    (h : relevanceOf host label terms security uri text = .ok json) :
    equals whole json json = true := by
  obtain ⟨_, -, h⟩ := bind_eq_ok h
  cases h
  have hreasons := equal_items_texts whole (relevanceReasons host terms security text)
  simp [equals, equalFields, isNan, hreasons]

theorem relevance_of_all_equals (whole : String → Option Int) {terms : List String}
    {security : Bool} {values : List Json}
    (h : relevanceOfAll p host terms security items = .ok values) :
    ∀ json ∈ values, equals whole json json = true := by
  induction items generalizing values with
  | nil =>
      cases h
      exact fun json hjson => absurd hjson List.not_mem_nil
  | cons item items ih =>
      obtain ⟨first, hfirst, h⟩ := bind_eq_ok h
      obtain ⟨rest, hrest, h⟩ := bind_eq_ok h
      cases h
      intro json hjson
      rcases List.mem_cons.mp hjson with rfl | hjson
      · exact relevance_of_equals hfirst
      · exact ih hrest json hjson

theorem root_evidence_ok (h : rootEvidence p host selected proposal items = .ok evidence) :
    bindingInstructions p host proposal.binding items = .ok () ∧
      entitlementsAgree (items.map (·.uri)) (Dict.get? proposal.binding "entitlements") = true ∧
      ∃ fields, evidence = .obj fields := by
  unfold rootEvidence at h
  dsimp only at h
  obtain ⟨_, -, h⟩ := bind_eq_ok h
  obtain ⟨_, hinstructions, h⟩ := bind_eq_ok h
  obtain ⟨_, hentitlements, h⟩ := bind_eq_ok h
  obtain ⟨_, -, h⟩ := bind_eq_ok h
  obtain ⟨relevance, -, h⟩ := bind_eq_ok h
  cases h
  exact ⟨hinstructions, require_ok hentitlements, _, rfl⟩

theorem root_evidence_agrees (h : rootEvidence p host selected proposal items = .ok evidence) :
    evidenceAgrees host (some evidence) evidence = true := by
  unfold rootEvidence at h
  dsimp only at h
  obtain ⟨_, -, h⟩ := bind_eq_ok h
  obtain ⟨_, -, h⟩ := bind_eq_ok h
  obtain ⟨_, -, h⟩ := bind_eq_ok h
  obtain ⟨_, -, h⟩ := bind_eq_ok h
  obtain ⟨relevance, hrelevance, h⟩ := bind_eq_ok h
  cases h
  have hitems := equal_items_refl (relevance_of_all_equals host.wholeFloat hrelevance)
  simp [evidenceAgrees, sameValue, equals, equalFields, roleCoverage, isNan, hitems, sameNumber,
    number]

theorem RootAccepted.result
    (h : RootAccepted p host db request selected task data proposal items evidence) :
    RootAccepted p host db request selected task (rootResult p data proposal evidence).context
      proposal items evidence where
  schema := (root_result_get? p data proposal evidence (by decide)).trans h.schema
  proposed := (root_proposal_congr (root_result_keys p data proposal evidence)
    (root_result_same_proposal p data proposal evidence)).trans h.proposed
  read := h.read
  computed := h.computed
  agrees := by
    obtain ⟨-, -, fields, rfl⟩ := root_evidence_ok h.computed
    rw [(root_result_evidence p data proposal (.obj fields)).get? nofun]
    exact root_evidence_agrees h.computed
  trust := h.trust
  requirement := h.requirement
  hashed := h.hashed
  bundleHash := (root_result_bundle_hash p data proposal evidence).get? nofun
  bindingHash := (root_result_binding_hash p data proposal evidence).get? nofun
  task := h.task

theorem root_result_result (p : Platform) (data : Dict) (proposal : RootProposal)
    (evidence : Json) :
    rootResult p (rootResult p data proposal evidence).context proposal evidence =
      rootResult p data proposal evidence := by
  have hbundle := (root_result_bundle_hash p data proposal evidence).set_eq
  have hbinding := (root_result_binding_hash p data proposal evidence).set_eq
  have hevidence := (root_result_evidence p data proposal evidence).set_eq
  rw [rootResult, hbundle, hbinding, hevidence]
  rfl

theorem value_digest_canonical (data : Dict) :
    valueDigest p (.obj (canonicalFields data)) = valueDigest p (.obj data) :=
  congrArg (textDigest p) (canonical_text_canonical (.obj data))

theorem root_result_read (h : Dict.Rewritten (rootResult p data proposal evidence).context read) :
    SameBundle (rootResult p read proposal.sorted evidence)
      (rootResult p data proposal evidence) where
  context := by
    have hbundle : Dict.Holds read "capabilityBundleHash"
        (.str (valueDigest p (.obj proposal.bundle))) :=
      (root_result_bundle_hash p data proposal evidence).read h
    have hbinding : Dict.Holds read "capabilityBindingHash"
        (.str (valueDigest p (.obj proposal.binding))) :=
      (root_result_binding_hash p data proposal evidence).read h
    have hevidence := (root_result_evidence p data proposal evidence).read h
    rw [← h.same]
    simp only [rootResult, RootProposal.sorted, value_digest_canonical]
    rw [ ((hevidence.set_of_ne _ (by decide)).set_of_ne _ (by decide)).canonical_set
      (canonical_canonical evidence).symm, (hbinding.set_of_ne _ (by decide)).canonical_set rfl,
      hbundle.canonical_set rfl]
  bundleHash := value_digest_canonical proposal.bundle
  bindingHash := value_digest_canonical proposal.binding

theorem root_proposal_bundle (h : rootProposal p host data = .ok proposal) :
    Dict.get? data "capabilityBundle" = some (.obj proposal.bundle) ∧
      bundleItemsAt "capabilityBundle" data = proposal.proposed := by
  obtain ⟨_, hread⟩ := root_proposal_iff.mp h
  obtain ⟨hvalue, hitems⟩ := bundle_header_items hread.header hread.listed
  refine ⟨hvalue, ?_⟩
  simp [bundleItemsAt, hvalue, hitems]

section

variable {values sorted : List Json}

/-- The texts and the capabilities under which items were read. -/
theorem items_read_uris (h : List.Forall₂ (ItemRead p host db request selected) values items) :
    items.map (·.uri) = values.map (itemUri p) ∧
      items.map (fun item => some item.cap) =
        values.map fun json => getCapability db (itemUri p json) := by
  induction h with
  | nil => exact ⟨rfl, rfl⟩
  | @cons json item values items hread _ ih =>
      have hnamed := hread.named
      rw [hread.uri] at hnamed
      exact ⟨by rw [List.map_cons, List.map_cons, hread.uri, ih.1],
        by rw [List.map_cons, List.map_cons, hnamed, ih.2]⟩

theorem items_read_mem (h : List.Forall₂ (ItemRead p host db request selected) values items)
    {item : BundleItem} (hitem : item ∈ items) :
    ∃ json, ItemRead p host db request selected json item := by
  induction h with
  | nil => exact absurd hitem List.not_mem_nil
  | cons hread _ ih =>
      rcases List.mem_cons.mp hitem with rfl | hitem
      · exact ⟨_, hread⟩
      · exact ih hitem

theorem same_items (h : List.Forall₂ (ItemRead p host db request selected) values items)
    (hother : List.Forall₂ (ItemRead p host db request other) sorted others)
    (hcaps : others.map (·.cap) = items.map (·.cap))
    (huris : (others.map (·.uri)).Perm (items.map (·.uri))) : SameItems items others where
  caps := hcaps
  uris := huris
  contents item hitem found hfound huri := by
    obtain ⟨json, hread⟩ := items_read_mem h hitem
    obtain ⟨_, hreadOther⟩ := items_read_mem hother hfound
    have hnamed := hreadOther.named
    rw [huri, hread.named] at hnamed
    have hcap : item.cap = found.cap := Option.some.inj hnamed
    have hcontent := hreadOther.content
    rw [← hcap, hread.content] at hcontent
    obtain ⟨hpath, htext⟩ := Prod.mk.inj (Except.ok.inj hcontent)
    exact ⟨hpath.symm, htext.symm⟩

/-- The items of a bundle that was sorted, under the texts of their sorted URIs. -/
def sortedItems (p : Platform) (values : List Json) (items : List BundleItem) : List BundleItem :=
  List.zipWith (fun json item => { item with uri := itemUri p (canonical json) }) values items

theorem items_read_sorted (h : List.Forall₂ (ItemRead p host db request selected) values items)
    (hnamed : ∀ json ∈ values,
      getCapability db (itemUri p (canonical json)) = getCapability db (itemUri p json)) :
    List.Forall₂ (ItemRead p host db request selected) (values.map canonical)
        (sortedItems p values items) ∧
      (sortedItems p values items).map (·.cap) = items.map (·.cap) := by
  induction h with
  | nil => exact ⟨.nil, rfl⟩
  | @cons json item values items hread _ ih =>
      obtain ⟨hreads, hcaps⟩ := ih fun later hlater => hnamed later (List.mem_cons_of_mem _ hlater)
      refine ⟨.cons (hread.sorted (hnamed json List.mem_cons_self)) hreads, ?_⟩
      show item.cap :: (sortedItems p values items).map (·.cap) = _
      rw [hcaps, List.map_cons]

theorem items_read_paths (hapart : TextsApart p host)
    (h : List.Forall₂ (ItemRead p host db request selected) values items) :
    ∀ item ∈ items, bracketed item.path = false := fun _ hitem => by
  obtain ⟨_, hread⟩ := items_read_mem h hitem
  exact load_authoritative_content_path hapart hread.content

end

theorem RootAccepted.read_back (hapart : TextsApart p host)
    (h : RootAccepted p host db request selected task data proposal items evidence)
    (hread : Dict.Rewritten data read) (hstable : RootTextsStable p db data) :
    RootAccepted p host db request selected task read proposal.sorted
      (sortedItems p proposal.proposed items) evidence := by
  obtain ⟨hreads, hnodup, -⟩ := root_items_iff.mp h.read
  have hproposed := (root_proposal_bundle h.proposed).2
  have hnamed := hstable.named
  have hperm := hstable.uris
  rw [hproposed] at hnamed hperm
  obtain ⟨hsorted, hcaps⟩ := items_read_sorted hreads hnamed
  have huris : ((sortedItems p proposal.proposed items).map (·.uri)).Perm (items.map (·.uri)) := by
    rw [(items_read_uris hsorted).1, (items_read_uris hreads).1, List.map_map]
    exact hperm
  have hsame := same_items hreads hsorted hcaps huris
  have hrouting : routingObjective p read = routingObjective p data :=
    (routing_objective_read hread).trans hstable.objective
  have hfields : ∀ (fields : Dict) (key text : String),
      Dict.get? fields key = some (.str text) →
        Dict.get? (canonicalFields fields) key = some (.str text) := fun fields key text htext => by
    rw [Dict.get?_canonical_fields, htext]
    rfl
  have hbindingText : boundTask proposal.objective (.obj (canonicalFields proposal.binding)) =
      boundTask proposal.objective (.obj proposal.binding) := by
    unfold boundTask
    rw [show Json.obj (canonicalFields proposal.binding) = canonical (.obj proposal.binding) from rfl,
      json_dumps_canonical]
  have htexts : ∀ (key text : String), Dict.get? data key = some (.str text) →
      Dict.get? read key = some (.str text) := fun key text htext => by
    rw [hread.get?, htext]
    rfl
  exact {
    schema := htexts _ _ h.schema
    proposed := by
      rw [root_proposal_read hapart hread hrouting, h.proposed]
      rfl
    read := root_items_iff.mpr ⟨hsorted, huris.nodup_iff.mpr hnodup, fun _ _ => List.not_mem_nil⟩
    computed := by
      rw [root_evidence_sorted hsame (items_read_paths hapart hreads)]
      exact h.computed
    agrees := by
      have hagrees := h.agrees
      unfold evidenceAgrees at hagrees ⊢
      rw [hread.get?, Option.isNone_map, same_value_canonical_left]
      exact hagrees
    trust := hfields _ _ _ h.trust
    requirement := hfields _ _ _ h.requirement
    hashed := by
      rw [show proposal.sorted.bundle = canonicalFields proposal.bundle from rfl,
        value_digest_canonical]
      exact hfields _ _ _ h.hashed
    bundleHash := by
      rw [show proposal.sorted.bundle = canonicalFields proposal.bundle from rfl,
        value_digest_canonical]
      exact htexts _ _ h.bundleHash
    bindingHash := by
      rw [show proposal.sorted.binding = canonicalFields proposal.binding from rfl,
        value_digest_canonical]
      exact htexts _ _ h.bindingHash
    task := h.task.trans hbindingText.symm }

/-- What an instruction names. -/
def instructionUri : Json → Option Json
  | .obj item => Dict.get? item "uri"
  | _ => none

theorem instruction_uri_canonical (json : Json) :
    instructionUri (canonical json) = (instructionUri json).map canonical := by
  cases json with
  | obj item => exact Dict.get?_canonical_fields item "uri"
  | null | bool | int | float | str | arr => rfl

theorem check_instruction_uri {remaining rest : Int} {json : Json} {cap : Capability}
    (h : checkInstruction p host items remaining json cap = .ok rest) :
    instructionUri json = some (.str cap.uri) := by
  unfold checkInstruction at h
  dsimp only at h
  obtain ⟨item, hitem, h⟩ := bind_eq_ok h
  obtain ⟨_, huri, -⟩ := bind_eq_ok h
  obtain ⟨hjson, -⟩ := object_of_ok hitem
  cases hjson
  have hnamed : Dict.get? item "uri" = some (.str cap.uri) := by simpa using require_ok huri
  exact hnamed

/-- The instructions of a binding name the capabilities in their order. -/
theorem check_instructions_uris {remaining : Int} {values : List Json} {caps : List Capability}
    (hlength : values.length = caps.length)
    (h : checkInstructions p host items remaining values caps = .ok ()) :
    values.map instructionUri = caps.map fun cap => some (.str cap.uri) := by
  induction values generalizing remaining caps with
  | nil => rw [List.length_eq_zero_iff.mp hlength.symm]; rfl
  | cons json values ih =>
      cases caps with
      | nil => cases hlength
      | cons cap caps =>
          obtain ⟨rest, hfirst, h⟩ := bind_eq_ok h
          rw [List.map_cons, List.map_cons, check_instruction_uri hfirst,
            ih (Nat.succ.inj hlength) h]

theorem binding_instructions_uris {binding : Dict}
    (h : bindingInstructions p host binding items = .ok ()) :
    ∃ values, Dict.get? binding "instructions" = some (.arr values) ∧
      values.map instructionUri = items.map fun item => some (.str item.cap.uri) := by
  unfold bindingInstructions at h
  split at h
  · rename_i values hvalues
    obtain ⟨_, hlength, h⟩ := bind_eq_ok h
    have hlength : values.length = items.length := by simpa using require_ok hlength
    have huris := check_instructions_uris (by rw [List.length_map]; exact hlength) h
    rw [List.map_map] at huris
    exact ⟨values, hvalues, huris⟩
  · cases h

/-- The binding fixes the URIs of the capabilities, sorted or not. -/
theorem binding_capability_uris {binding : Dict}
    (h : bindingInstructions p host binding items = .ok ())
    (hsorted : bindingInstructions p host (canonicalFields binding) others = .ok ()) :
    others.map (·.cap.uri) = items.map (·.cap.uri) := by
  obtain ⟨values, hvalues, huris⟩ := binding_instructions_uris h
  obtain ⟨others', hothers, hotherUris⟩ := binding_instructions_uris hsorted
  rw [Dict.get?_canonical_fields, hvalues] at hothers
  have hitems : canonicalItems values = others' := by
    injection hothers with hothers
    injection hothers
  rw [← hitems, canonical_items_eq_map, List.map_map] at hotherUris
  have hmap : others.map (fun item => some (Json.str item.cap.uri)) =
      items.map fun item => some (Json.str item.cap.uri) := by
    have hcomp : instructionUri ∘ canonical = Option.map canonical ∘ instructionUri :=
      funext instruction_uri_canonical
    rw [← hotherUris, hcomp, ← List.map_map, huris, List.map_map]
    rfl
  have hinj : Function.Injective fun uri : String => some (Json.str uri) := fun a b hab => by
    injection hab with hab
    injection hab
  refine hinj.list_map ?_
  rw [List.map_map, List.map_map]
  exact hmap

/-- The entitlements of a binding fix the set of the proposed texts. -/
theorem entitlements_uris {uris others : List String} {value : Option Json}
    (h : entitlementsAgree uris value = true)
    (hsorted : entitlementsAgree others (value.map canonical) = true) (uri : String) :
    uri ∈ others ↔ uri ∈ uris := by
  rw [entitlements_agree_canonical] at hsorted
  unfold entitlementsAgree at h hsorted
  split at h
  · rename_i fields
    have hiff : ∀ keys : List String, sameKeys fields keys = true →
        (uri ∈ keys ↔ Dict.has fields uri = true) := by
      intro keys hkeys
      obtain ⟨hfields, hhas⟩ := Bool.and_eq_true_iff.mp hkeys
      constructor
      · exact fun hmem => List.all_eq_true.mp hhas uri hmem
      · intro hfield
        obtain ⟨field, hmem, hkey⟩ := List.any_eq_true.mp hfield
        have hcontains := List.all_eq_true.mp hfields field hmem
        rw [List.contains_iff_mem, of_decide_eq_true hkey] at hcontains
        exact hcontains
    rw [hiff others (Bool.and_eq_true_iff.mp hsorted).1, hiff uris (Bool.and_eq_true_iff.mp h).1]
  · cases h

/-- Capabilities of the catalog with the same URIs are the same. -/
theorem caps_of_uris {first second : List Capability}
    (hfirst : ∀ cap ∈ first, ∃ text, getCapability db text = some cap)
    (hsecond : ∀ cap ∈ second, ∃ text, getCapability db text = some cap)
    (h : second.map (·.uri) = first.map (·.uri)) : second = first := by
  induction first generalizing second with
  | nil => exact List.map_eq_nil_iff.mp h
  | cons cap first ih =>
      obtain ⟨found, rest, rfl, huri, hrest⟩ := List.map_eq_cons_iff.mp h
      obtain ⟨text, htext⟩ := hfirst cap List.mem_cons_self
      obtain ⟨foundText, hfoundText⟩ := hsecond found List.mem_cons_self
      obtain ⟨row, hrow, hcap⟩ := get_capability_mem htext
      obtain ⟨foundRow, hfoundRow, hfound⟩ := get_capability_mem hfoundText
      have hsame : foundRow = row := Database.eq_of_uri hfoundRow hrow (by rw [hfound, hcap, huri])
      have hrows : rest = first := ih (fun later hlater => hfirst later (List.mem_cons_of_mem _ hlater))
        (fun later hlater => hsecond later (List.mem_cons_of_mem _ hlater)) hrest
      rw [← hfound, ← hcap, hsame, hrows]

theorem items_read_caps {values : List Json}
    (h : List.Forall₂ (ItemRead p host db request selected) values items) :
    ∀ cap ∈ items.map (·.cap), ∃ text, getCapability db text = some cap := fun cap hcap => by
  obtain ⟨item, hitem, rfl⟩ := List.mem_map.mp hcap
  obtain ⟨_, hread⟩ := items_read_mem h hitem
  exact ⟨item.uri, hread.named⟩

theorem RootAccepted.texts_stable (hapart : TextsApart p host) {proposal' : RootProposal}
    {evidence' : Json} {task' : String}
    (h : RootAccepted p host db request selected task data proposal items evidence)
    (hread : Dict.Rewritten data read)
    (hback : RootAccepted p host db request other task' read proposal' others evidence') :
    RootTextsStable p db data := by
  have hrouting : routingObjective p read = routingObjective p data := by
    have hobjective := (root_proposal_objective hback.proposed).2
    rw [hread.get?, map_canonical_eq_str, (root_proposal_objective h.proposed).2] at hobjective
    injection hobjective with hobjective
    injection hobjective with hobjective
    exact hobjective.symm
  have hproposed := hback.proposed
  rw [root_proposal_read hapart hread hrouting, h.proposed] at hproposed
  obtain rfl : proposal.sorted = proposal' := Except.ok.inj hproposed
  obtain ⟨hreads, hnodup, -⟩ := root_items_iff.mp h.read
  obtain ⟨hsorted, hnodupSorted, -⟩ := root_items_iff.mp hback.read
  obtain ⟨hinstructions, hentitled, -⟩ := root_evidence_ok h.computed
  obtain ⟨hinstructionsBack, hentitledBack, -⟩ := root_evidence_ok hback.computed
  have hcaps : others.map (·.cap) = items.map (·.cap) := by
    refine caps_of_uris (items_read_caps hreads) (items_read_caps hsorted) ?_
    rw [List.map_map, List.map_map]
    exact binding_capability_uris hinstructions hinstructionsBack
  have hbundle := (root_proposal_bundle h.proposed).2
  refine ⟨(routing_objective_read hread).symm.trans hrouting, ?_, ?_⟩
  · have hnamed := (items_read_uris hreads).2
    have hnamedBack := (items_read_uris hsorted).2
    have hsome : others.map (fun item => some item.cap) = items.map fun item => some item.cap := by
      have hmap := congrArg (List.map some) hcaps
      rwa [List.map_map, List.map_map] at hmap
    rw [hsome, hnamed, show proposal.sorted.proposed = proposal.proposed.map canonical from rfl,
      List.map_map] at hnamedBack
    rw [hbundle]
    exact fun json hjson => (List.map_inj_left.mp hnamedBack json hjson).symm
  · have hset := entitlements_uris hentitled (by
      rw [← Dict.get?_canonical_fields]
      exact hentitledBack)
    have hperm := (List.perm_ext_iff_of_nodup hnodupSorted hnodup).mpr hset
    rw [(items_read_uris hreads).1, (items_read_uris hsorted).1,
      show proposal.sorted.proposed = proposal.proposed.map canonical from rfl,
      List.map_map] at hperm
    rw [hbundle]
    exact hperm

/-- **A root context is its own validation.** A result is validated again to itself; written with
sorted keys and read back, it is exactly when its texts are stable. -/
theorem root_revalidated (hapart : TextsApart p host) {result : DelegatedBundle}
    (h : validateRootAuthoritativeBundle p host db request selected task (some (.obj data)) =
      .ok result) :
    validateRootAuthoritativeBundle p host db request selected task (some (.obj result.context)) =
        .ok result ∧
      ∀ read, Dict.Rewritten result.context read → RootTextsStable p db result.context →
        ∃ again, validateRootAuthoritativeBundle p host db request selected task
          (some (.obj read)) = .ok again ∧ SameBundle again result := by
  obtain ⟨proposal, items, evidence, haccepted, rfl⟩ := validate_root_iff.mp h
  constructor
  · exact validate_root_iff.mpr ⟨proposal, items, evidence, haccepted.result,
      (root_result_result p data proposal evidence).symm⟩
  · intro read hread hstable
    exact ⟨rootResult p read proposal.sorted evidence,
      validate_root_iff.mpr ⟨_, _, _, haccepted.result.read_back hapart hread hstable, rfl⟩,
      root_result_read hread⟩

end

end Capmesh
