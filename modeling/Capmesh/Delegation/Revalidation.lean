import Capmesh.Delegation.Stages

/-!
# Validating a returned context again

`cap.delegate` stores the context that a validation returned, and `cap.report` reads it back and
validates it again. `revalidated` compares the two: the context itself is accepted and returned as it
is; written with sorted keys and read back, it is as long as no object stands where the validation
reads a text.
-/

namespace Capmesh

open Python Python.Json Relational

/-- Whether a text is that of a list or an object. -/
def bracketed (text : String) : Bool := startsWith text "[" || startsWith text "\x7b"

section

variable {p : Platform} {host : AuthorityHost} {db : Database} {request : ToolRequest}
variable {selected cap : Capability} {data read : Dict} {value : Option Json} {key : String}
variable {json : Json} {start : String} {allowed : Char → Bool} {items others : List BundleItem}
variable {other : Dict}

theorem str_text_bracketed (repr : String → String) (h :
    (∃ items, json = .arr items) ∨ ∃ fields, json = .obj fields) :
    bracketed (strText repr json) = true := by
  rcases h with ⟨items, rfl⟩ | ⟨fields, rfl⟩
  · show (startsWith ("[" ++ _) "[" || _) = true
    rw [starts_with_self_append, Bool.true_or]
  · show (_ || startsWith ("\x7b" ++ _) "\x7b") = true
    rw [starts_with_self_append, Bool.or_true]

/-- A value that was sorted has the text it had, unless it is a list or an object. -/
theorem text_or_empty_cases (repr : String → String) (value : Option Json) :
    textOrEmpty repr (value.map canonical) = textOrEmpty repr value ∨
      bracketed (textOrEmpty repr (value.map canonical)) = true ∧
        bracketed (textOrEmpty repr value) = true := by
  cases value with
  | none => exact .inl rfl
  | some json =>
      show (if (canonical json).truthy then strText repr (canonical json) else "") =
        (if json.truthy then strText repr json else "") ∨
        bracketed (if (canonical json).truthy then strText repr (canonical json) else "") = true ∧
          bracketed (if json.truthy then strText repr json else "") = true
      rw [canonical_truthy]
      split
      · cases json with
        | null | bool | int | float | str => exact .inl rfl
        | arr items =>
            exact .inr ⟨str_text_bracketed repr (.inl ⟨canonicalItems items, rfl⟩),
              str_text_bracketed repr (.inl ⟨items, rfl⟩)⟩
        | obj fields =>
            exact .inr ⟨str_text_bracketed repr (.inr ⟨canonicalFields fields, rfl⟩),
              str_text_bracketed repr (.inr ⟨fields, rfl⟩)⟩
      · exact .inl rfl

theorem text_or_empty_canonical {β : Type} (repr : String → String) {test : String → β}
    {outcome : β} (htest : ∀ text, bracketed text = true → test text = outcome)
    (value : Option Json) :
    test (textOrEmpty repr (value.map canonical)) = test (textOrEmpty repr value) := by
  rcases text_or_empty_cases repr value with heq | ⟨hsorted, hvalue⟩
  · rw [heq]
  · rw [htest _ hsorted, htest _ hvalue]

theorem bracketed_head {text : String} (h : bracketed text = true) :
    ∃ c rest, text.toList = c :: rest ∧ (c = '[' ∨ c = Char.ofNat 123) := by
  unfold bracketed at h
  rcases Bool.or_eq_true_iff.mp h with h | h
  · obtain ⟨rest, hrest⟩ := List.isPrefixOf_iff_prefix.mp h
    exact ⟨'[', rest, hrest.symm, .inl rfl⟩
  · obtain ⟨rest, hrest⟩ := List.isPrefixOf_iff_prefix.mp h
    exact ⟨Char.ofNat 123, rest, hrest.symm, .inr rfl⟩

theorem bracketed_of_head {text : String} {c : Char} {rest : List Char}
    (h : text.toList = c :: rest) (hc : c = '[' ∨ c = Char.ofNat 123) : bracketed text = true := by
  unfold bracketed startsWith
  rw [h]
  rcases hc with rfl | rfl
  · simp
  · simp

theorem is_tagged_bracketed {low high : Nat} (hstart : bracketed start = false)
    (hallowed : allowed '[' = false ∧ allowed (Char.ofNat 123) = false) (text : String)
    (h : bracketed text = true) : isTagged start allowed low high text = false := by
  obtain ⟨c, rest, htext, hc⟩ := bracketed_head h
  by_contra hcontra
  have htagged : isTagged start allowed low high text = true := by simpa using hcontra
  unfold isTagged at htagged
  simp only [Bool.and_eq_true, decide_eq_true_eq] at htagged
  obtain ⟨⟨⟨hstarts, hall⟩, hlength⟩, -⟩ := htagged
  obtain ⟨more, hmore⟩ := List.isPrefixOf_iff_prefix.mp hstarts
  cases hchars : start.toList with
  | nil =>
      have hempty : start = "" := String.toList_eq_nil_iff.mp hchars
      have hfirst : allowed c = true := by
        refine List.all_eq_true.mp hall c ?_
        rw [hempty, htext]
        exact List.mem_cons_self
      rcases hc with rfl | rfl
      · exact absurd hfirst (by rw [hallowed.1]; decide)
      · exact absurd hfirst (by rw [hallowed.2]; decide)
  | cons first others =>
      rw [htext, hchars] at hmore
      obtain ⟨rfl, -⟩ := List.cons.inj hmore
      have hopen : bracketed start = true := by
        unfold bracketed startsWith
        rw [hchars]
        rcases hc with rfl | rfl
        · rfl
        · exact Bool.or_true _
      rw [hopen] at hstart
      cases hstart

theorem canonical_eq_str {text : String} : canonical json = .str text ↔ json = .str text := by
  cases json <;> simp [canonical]

theorem canonical_eq_bool {flag : Bool} : canonical json = .bool flag ↔ json = .bool flag := by
  cases json <;> simp [canonical]

@[simp] theorem map_canonical_eq_str {text : String} :
    value.map canonical = some (.str text) ↔ value = some (.str text) := by
  cases value <;> simp [canonical_eq_str]

@[simp] theorem map_canonical_eq_bool {flag : Bool} :
    value.map canonical = some (.bool flag) ↔ value = some (.bool flag) := by
  cases value <;> simp [canonical_eq_bool]

theorem equals_canonical_left (whole : String → Option Int) (a b : Json) :
    equals whole (canonical a) b = equals whole a b := by
  rw [← equals_canonical (canonical a) b, canonical_canonical, equals_canonical]

@[simp] theorem same_value_canonical_left (a b : Option Json) :
    sameValue host (a.map canonical) b = sameValue host a b := by
  cases a <;> cases b <;> simp [sameValue, equals_canonical_left]

theorem equals_canonical_right (whole : String → Option Int) (a b : Json) :
    equals whole a (canonical b) = equals whole a b := by
  rw [← equals_canonical a (canonical b), canonical_canonical, equals_canonical]

@[simp] theorem same_value_canonical_right (a b : Option Json) :
    sameValue host a (b.map canonical) = sameValue host a b := by
  cases a <;> cases b <;> simp [sameValue, equals_canonical_right]

theorem same_keys_canonical (data : Dict) (keys : List String) :
    sameKeys (canonicalFields data) keys = sameKeys data keys := by
  have hread := Dict.rewritten_canonical_fields data
  unfold sameKeys
  rw [hread.all_keys fun key => keys.contains key]
  congr 2
  funext key
  exact hread.has key

theorem object_of_canonical (keys : List String) (text : String) (value : Option Json) :
    objectOf keys text (value.map canonical) = canonicalFields <$> objectOf keys text value := by
  cases value with
  | none => rfl
  | some json =>
      cases json with
      | obj data =>
          show (if sameKeys (canonicalFields data) keys then _ else _) = _ <$> if _ then _ else _
          rw [same_keys_canonical]
          split <;> rfl
      | null | bool | int | float | str | arr => rfl

theorem bundle_id_canonical (p : Platform) (data : Dict) (key : String) :
    isBundleId (fieldText p (canonicalFields data) key) = isBundleId (fieldText p data key) := by
  unfold fieldText
  rw [Dict.get?_canonical_fields]
  exact text_or_empty_canonical p.repr
    (is_tagged_bracketed (by decide) ⟨by decide, by decide⟩) _

theorem bundle_header_canonical (label : String) (value : Option Json) :
    bundleHeader p label (value.map canonical) = canonicalFields <$> bundleHeader p label value := by
  unfold bundleHeader
  rw [object_of_canonical, bind_map_left, map_bind]
  refine bind_congr fun bundle => ?_
  simp only [Dict.get?_canonical_fields, map_canonical_eq_str, bundle_id_canonical, map_bind]
  rfl

/-- `fromisoformat` takes no list and no object for a time, and no resolved path reads as one. -/
structure TextsApart (p : Platform) (host : AuthorityHost) : Prop where
  times : ∀ text, bracketed text = true → host.fromIsoFormat text = none
  paths : ∀ path, bracketed (p.normalizePath path) = false

theorem bracketed_replace {text : String} (h : bracketed text = true) :
    bracketed (String.ofList (text.toList.flatMap fun c =>
      if c = 'Z' then "+00:00".toList else [c])) = true := by
  obtain ⟨c, rest, htext, hc⟩ := bracketed_head h
  rw [htext, List.flatMap_cons]
  rcases hc with rfl | rfl
  · exact bracketed_of_head (String.toList_ofList ..) (.inl rfl)
  · exact bracketed_of_head (String.toList_ofList ..) (.inr rfl)

theorem created_fresh_bracketed (hapart : TextsApart p host) (label : String) {text : String}
    (h : bracketed text = true) : createdFresh host label text =
      .error (.value (label ++ "capability bundle creation time is invalid")) := by
  unfold createdFresh
  rw [hapart.times _ (bracketed_replace h)]

theorem bundle_fresh_canonical (hapart : TextsApart p host) (label : String) (bundle : Dict) :
    bundleFresh p host label (canonicalFields bundle) = bundleFresh p host label bundle := by
  unfold bundleFresh fieldText
  rw [Dict.get?_canonical_fields]
  exact text_or_empty_canonical p.repr (fun text htext => created_fresh_bracketed hapart label htext) _

theorem bundle_items_canonical (label : String) (bundle : Dict) :
    bundleItems label (canonicalFields bundle) = (·.map canonical) <$> bundleItems label bundle := by
  unfold bundleItems
  rw [Dict.get?_canonical_fields]
  cases Dict.get? bundle "capabilities" with
  | none => rfl
  | some json =>
      cases json with
      | arr items =>
          show (if 2 ≤ (canonicalItems items).length && (canonicalItems items).length ≤ 4 then _
            else _) = _ <$> if _ then _ else _
          rw [canonical_items_eq_map, List.length_map]
          split <;> rfl
      | null | bool | int | float | str | obj => rfl

theorem is_scope_path_canonical (item : Json) :
    isScopePath p (canonical item) = isScopePath p item := by
  cases item <;> rfl

theorem canonical_of_scope_path {item : Json} (h : isScopePath p item = true) :
    canonical item = item := by
  cases item with
  | arr | obj => cases h
  | null | bool | int | float | str => rfl

theorem canonical_scope_files_canonical (value : Option Json) :
    canonicalScopeFiles p (value.map canonical) = canonicalScopeFiles p value := by
  cases value with
  | none => rfl
  | some json =>
      cases json with
      | arr items =>
          by_cases hplain : ∀ item ∈ items, canonical item = item
          · have hitems : canonicalItems items = items := by
              rw [canonical_items_eq_map]
              exact (List.map_congr_left hplain).trans (List.map_id items)
            show canonicalScopeFiles p (some (.arr (canonicalItems items))) = _
            rw [hitems]
          · -- such a list is no scope, sorted or not
            have hpaths : items.all (isScopePath p) = false := by
              rw [List.all_eq_false]
              obtain ⟨item, hitem, hne⟩ := not_forall₂.mp hplain
              exact ⟨item, hitem, fun hpath => hne (canonical_of_scope_path hpath)⟩
            have hsorted : (canonicalItems items).all (isScopePath p) = false := by
              rw [canonical_items_eq_map, List.all_map, ← hpaths]
              congr 1
              funext item
              exact is_scope_path_canonical item
            have hnone : ∀ list : List Json, list.all (isScopePath p) = false →
                list ≠ [.str "**"] → canonicalScopeFiles p (some (.arr list)) = none := by
              intro list hlist hwhole
              simp only [canonicalScopeFiles, hlist, if_neg hwhole]
              split <;> rfl
            have hwhole : items ≠ [.str "**"] := fun heq => hplain fun item hitem => by
              rw [heq, List.mem_singleton] at hitem
              rw [hitem]
              rfl
            have hwholeSorted : canonicalItems items ≠ [.str "**"] := fun heq => by
              rw [canonical_items_eq_map] at heq
              obtain ⟨item, rfl, hitem⟩ := List.map_eq_singleton_iff.mp heq
              exact hwhole (congrArg (fun only => [only]) (canonical_eq_str.mp hitem))
            show canonicalScopeFiles p (some (.arr (canonicalItems items))) = _
            rw [hnone _ hsorted hwholeSorted, hnone _ hpaths hwhole]
      | null | bool | int | float | str | obj => rfl

theorem root_objective_read (h : Dict.Rewritten data read) :
    rootObjective read = rootObjective data := by
  unfold rootObjective
  rw [h.get?]
  cases Dict.get? data "objective" with
  | none => rfl
  | some json => cases json <;> rfl

theorem tagged_text_read (h : Dict.Rewritten data read) {low high : Nat}
    (hstart : bracketed start = false)
    (hallowed : allowed '[' = false ∧ allowed (Char.ofNat 123) = false) (key : String) :
    isTagged start allowed low high (fieldText p read key) =
      isTagged start allowed low high (fieldText p data key) := by
  unfold fieldText
  rw [h.get?]
  exact text_or_empty_canonical p.repr (is_tagged_bracketed hstart hallowed) _

theorem field_text_read_of_tagged (h : Dict.Rewritten data read) {low high : Nat}
    (hstart : bracketed start = false)
    (hallowed : allowed '[' = false ∧ allowed (Char.ofNat 123) = false)
    (htagged : isTagged start allowed low high (fieldText p data key) = true) :
    fieldText p read key = fieldText p data key := by
  unfold fieldText at htagged ⊢
  rw [h.get?]
  rcases text_or_empty_cases p.repr (Dict.get? data key) with heq | ⟨-, hvalue⟩
  · exact heq
  · rw [is_tagged_bracketed hstart hallowed _ hvalue] at htagged
    cases htagged

theorem is_advisory_canonical (scope : Dict) :
    isAdvisory (canonicalFields scope) = isAdvisory scope := by
  simp only [isAdvisory, Dict.get?_canonical_fields, map_canonical_eq_bool]

/-- A scope that was sorted agrees with a context that was read back as it did. -/
theorem scope_agrees_read (h : Dict.Rewritten data read)
    (hrouting : routingObjective p read = routingObjective p data) (scope : Dict)
    (workflowId : String) :
    scopeAgrees p host read (canonicalFields scope) workflowId =
      scopeAgrees p host data scope workflowId := by
  simp only [scopeAgrees, expectedWriteSet, expectedTools, is_advisory_canonical, hrouting, h.get?,
    Dict.get?_canonical_fields, map_canonical_eq_str, same_value_canonical_left,
    same_value_canonical_right, canonical_scope_files_canonical]

/-- What a proposal becomes when its context is written with sorted keys and read back. -/
def RootProposal.sorted (proposal : RootProposal) : RootProposal :=
  { proposal with
    bundle := canonicalFields proposal.bundle
    proposed := proposal.proposed.map canonical
    binding := canonicalFields proposal.binding }

theorem root_proposal_read (hapart : TextsApart p host) (h : Dict.Rewritten data read)
    (hrouting : routingObjective p read = routingObjective p data) :
    rootProposal p host read = RootProposal.sorted <$> rootProposal p host data := by
  unfold rootProposal
  rw [h.all_keys, root_objective_read h, map_bind]
  refine bind_congr fun _ => ?_
  rw [map_bind]
  refine bind_congr fun objective => ?_
  dsimp only
  have hworkflow : isWorkflowId (fieldText p read "workflowId") =
      isWorkflowId (fieldText p data "workflowId") :=
    tagged_text_read h (by decide) ⟨by decide, by decide⟩ _
  cases hid : isWorkflowId (fieldText p data "workflowId") with
  | false =>
      rw [hworkflow, hid]
      rfl
  | true =>
      have htext : fieldText p read "workflowId" = fieldText p data "workflowId" :=
        field_text_read_of_tagged h (by decide) ⟨by decide, by decide⟩ hid
      rw [htext, hid, map_bind]
      refine bind_congr fun _ => ?_
      rw [h.get?, bundle_header_canonical, bind_map_left, map_bind]
      refine bind_congr fun bundle => ?_
      rw [bundle_fresh_canonical hapart, map_bind]
      refine bind_congr fun _ => ?_
      rw [h.get?, object_of_canonical, bind_map_left, map_bind]
      refine bind_congr fun scope => ?_
      rw [scope_agrees_read h hrouting, map_bind]
      refine bind_congr fun _ => ?_
      have hdigest : valueDigest p (.obj (canonicalFields scope)) = valueDigest p (.obj scope) :=
        congrArg (textDigest p) (canonical_text_canonical (.obj scope))
      have hhash : isSha256 (fieldText p read "scopeHash") =
          isSha256 (fieldText p data "scopeHash") :=
        tagged_text_read h (by decide) ⟨by decide, by decide⟩ _
      simp only [hdigest, hhash, h.get?, map_canonical_eq_str]
      rw [map_bind]
      refine bind_congr fun _ => ?_
      simp only [Dict.get?_canonical_fields, map_canonical_eq_str]
      rw [map_bind]
      refine bind_congr fun _ => ?_
      rw [bundle_items_canonical, bind_map_left, map_bind]
      refine bind_congr fun proposed => ?_
      rw [object_of_canonical, bind_map_left, map_bind]
      refine bind_congr fun binding => ?_
      have hbundle : sameValue host (Dict.get? binding "bundle")
          (some (.obj (canonicalFields bundle))) =
            sameValue host (Dict.get? binding "bundle") (some (.obj bundle)) :=
        same_value_canonical_right _ (some (.obj bundle))
      simp only [Dict.get?_canonical_fields, map_canonical_eq_str, same_value_canonical_left, hbundle]
      rw [map_bind]
      rfl

/-- The URI text of a proposed item. -/
def itemUri (p : Platform) (value : Json) : String :=
  match value with
  | .obj item => fieldText p item "uri"
  | _ => ""

theorem catalog_agrees_canonical (cap : Capability) (item : Dict) :
    catalogAgrees cap (canonicalFields item) = catalogAgrees cap item := by
  simp only [catalogAgrees, Dict.get?_canonical_fields, map_canonical_eq_str, map_canonical_eq_bool]

theorem digest_agrees_canonical (content : String) (item : Dict) :
    digestAgrees p content (canonicalFields item) = digestAgrees p content item := by
  simp only [digestAgrees, Dict.get?_canonical_fields, map_canonical_eq_str]

theorem tools_agree_canonical (content : String) (item : Dict) :
    toolsAgree p host content (canonicalFields item) = toolsAgree p host content item := by
  simp only [toolsAgree, Dict.get?_canonical_fields, same_value_canonical_left]

/-- What a turn of the loop over the proposed items has found. -/
structure ItemRead (p : Platform) (host : AuthorityHost) (db : Database) (request : ToolRequest)
    (selected : Capability) (value : Json) (item : BundleItem) : Prop where
  uri : item.uri = itemUri p value
  named : getCapability db item.uri = some item.cap
  content : loadAuthoritativeContent p host item.cap = .ok (item.path, item.content)
  permitted : permitItem p db request selected item.cap.uri item.cap
    "principal is not entitled to delegate every bundle capability" = .ok ()
  agrees : ∃ fields, value = .obj fields ∧ sameKeys fields bundleItemKeys = true ∧
    catalogAgrees item.cap fields = true ∧ digestAgrees p item.content fields = true ∧
    toolsAgree p host item.content fields = true

theorem root_item_iff {seen : List String} {item : BundleItem} :
    rootItem p host db request selected seen json = .ok item ↔
      ItemRead p host db request selected json item ∧ item.uri ∉ seen := by
  constructor
  · intro h
    unfold rootItem at h
    obtain ⟨fields, hfields, h⟩ := bind_eq_ok h
    obtain ⟨hjson, hkeys⟩ := object_of_ok hfields
    obtain ⟨cap, hcap, h⟩ := bind_eq_ok h
    obtain ⟨hnamed, hseen⟩ := item_capability_ok hcap
    obtain ⟨_, hagrees, h⟩ := bind_eq_ok h
    obtain ⟨_, hpermitted, h⟩ := bind_eq_ok h
    obtain ⟨⟨path, content⟩, hcontent, h⟩ := bind_eq_ok h
    obtain ⟨_, hdigest, h⟩ := bind_eq_ok h
    obtain ⟨_, htools, h⟩ := bind_eq_ok h
    cases h
    cases hjson
    exact ⟨⟨rfl, hnamed, hcontent, hpermitted, fields, rfl, hkeys, require_ok hagrees,
      require_ok hdigest, require_ok htools⟩, hseen⟩
  · rintro ⟨hread, hseen⟩
    obtain ⟨fields, rfl, hkeys, hagrees, hdigest, htools⟩ := hread.agrees
    have huri : fieldText p fields "uri" = item.uri := hread.uri.symm
    simp [rootItem, objectOf, hkeys, itemCapability, huri, hread.named, hseen, hagrees,
      hread.permitted, hread.content, hdigest, htools, require, bind, Except.bind]

/-- The loop over the proposed items reads each, and none under a URI of before. -/
theorem root_items_iff {seen : List String} {values : List Json} :
    rootItems p host db request selected seen values = .ok items ↔
      List.Forall₂ (ItemRead p host db request selected) values items ∧
        (items.map (·.uri)).Nodup ∧ ∀ item ∈ items, item.uri ∉ seen := by
  induction values generalizing seen items with
  | nil =>
      constructor
      · intro h
        cases h
        exact ⟨.nil, .nil, fun item hitem => absurd hitem List.not_mem_nil⟩
      · rintro ⟨hread, -, -⟩
        cases hread
        rfl
  | cons json values ih =>
      constructor
      · intro h
        obtain ⟨item, hitem, h⟩ := bind_eq_ok h
        obtain ⟨rest, hrest, h⟩ := bind_eq_ok h
        cases h
        obtain ⟨hread, hseen⟩ := root_item_iff.mp hitem
        obtain ⟨hreads, hnodup, hfresh⟩ := ih.mp hrest
        refine ⟨.cons hread hreads, List.nodup_cons.mpr ⟨fun hmem => ?_, hnodup⟩, ?_⟩
        · obtain ⟨other, hother, heq⟩ := List.mem_map.mp hmem
          exact hfresh other hother (heq ▸ List.mem_cons_self)
        · intro other hother
          rcases List.mem_cons.mp hother with rfl | hother
          · exact hseen
          · exact fun hmem => hfresh other hother (List.mem_cons_of_mem _ hmem)
      · rintro ⟨hreads, hnodup, hfresh⟩
        cases hreads with
        | cons hread hreads =>
            rename_i item rest
            obtain ⟨hhead, hnodup⟩ := List.nodup_cons.mp hnodup
            have hitem := root_item_iff.mpr ⟨hread, hfresh item List.mem_cons_self⟩
            have hrest := ih.mpr ⟨hreads, hnodup, fun other hother hmem => by
              rcases List.mem_cons.mp hmem with heq | hmem
              · exact hhead (List.mem_map.mpr ⟨other, hother, heq⟩)
              · exact hfresh other (List.mem_cons_of_mem _ hother) hmem⟩
            rw [rootItems, hitem]
            show (rootItems p host db request selected (item.uri :: seen) values >>= _) = _
            rw [hrest]
            rfl

/-- An item that was sorted names the capability it named, under its own text. -/
theorem ItemRead.sorted {item : BundleItem} (h : ItemRead p host db request selected json item)
    (hnamed : getCapability db (itemUri p (canonical json)) = getCapability db (itemUri p json)) :
    ItemRead p host db request selected (canonical json)
      { item with uri := itemUri p (canonical json) } := by
  obtain ⟨fields, rfl, hkeys, hagrees, hdigest, htools⟩ := h.agrees
  refine ⟨rfl, ?_, h.content, h.permitted, canonicalFields fields, rfl, ?_, ?_, ?_, ?_⟩
  · show getCapability db (itemUri p (canonical (.obj fields))) = some item.cap
    rw [hnamed, ← h.uri, h.named]
  · rw [same_keys_canonical, hkeys]
  · rw [catalog_agrees_canonical, hagrees]
  · rw [digest_agrees_canonical, hdigest]
  · rw [tools_agree_canonical, htools]

/-- A context has the fields of another that a proposal reads. -/
def SameProposal (data other : Dict) : Prop :=
  ∀ key ∈ ["objective", "workflowId", "repo", "worktree", "baseCommit", "capabilityBundle",
    "capabilityBinding", "scopeHash", "scope"], Dict.get? other key = Dict.get? data key

theorem SameProposal.text (h : SameProposal data other) (name : String)
    (hname : name ∈ ["objective", "workflowId", "repo", "worktree", "baseCommit",
      "capabilityBundle", "capabilityBinding", "scopeHash", "scope"]) :
    fieldText p other name = fieldText p data name := by
  rw [fieldText, h name hname, fieldText]

theorem SameProposal.routing (h : SameProposal data other) :
    routingObjective p other = routingObjective p data := by
  unfold routingObjective Dict.truthy
  rw [h "scope" (by decide), h "repo" (by decide), h.text "repo" (by decide),
    h.text "baseCommit" (by decide)]

theorem SameProposal.scopeAgrees (h : SameProposal data other) (scope : Dict)
    (workflowId : String) :
    scopeAgrees p host other scope workflowId = scopeAgrees p host data scope workflowId := by
  unfold Capmesh.scopeAgrees
  rw [h.routing, h "objective" (by decide), h "repo" (by decide), h "worktree" (by decide),
    h "baseCommit" (by decide)]

theorem root_proposal_congr (hall : other.all (fun field => rootContextKeys.contains field.1) =
      data.all fun field => rootContextKeys.contains field.1) (h : SameProposal data other) :
    rootProposal p host other = rootProposal p host data := by
  unfold rootProposal rootObjective
  simp only [hall, h.text "workflowId" (by decide),
    h.text "scopeHash" (by decide), h.scopeAgrees, h "objective" (by decide),
    h "capabilityBundle" (by decide), h "capabilityBinding" (by decide),
    h "scopeHash" (by decide), h "scope" (by decide)]

/-- What the proposal of a root context has passed. -/
structure ProposalRead (p : Platform) (host : AuthorityHost) (context scope : Dict)
    (proposal : RootProposal) : Prop where
  keys : (context.all fun field => rootContextKeys.contains field.1) = true
  objective : rootObjective context = .ok proposal.objective
  workflow : isWorkflowId (fieldText p context "workflowId") = true
  header : bundleHeader p "" (Dict.get? context "capabilityBundle") = .ok proposal.bundle
  fresh : bundleFresh p host "" proposal.bundle = .ok ()
  scopeRead : objectOf scopeKeys "canonical workflow scope is required"
    (Dict.get? context "scope") = .ok scope
  agrees : scopeAgrees p host context scope (fieldText p context "workflowId") = true
  scopeHash : isSha256 (fieldText p context "scopeHash") = true ∧
    Dict.get? context "scopeHash" = some (.str (valueDigest p (.obj scope)))
  shape : Dict.get? proposal.bundle "task_shape_hash" =
    some (.str (textDigest p proposal.objective))
  listed : bundleItems "" proposal.bundle = .ok proposal.proposed
  bound : objectOf bindingKeys "canonical capability binding is required"
    (Dict.get? context "capabilityBinding") = .ok proposal.binding
  same : Dict.get? proposal.binding "schema" = some (.str "asgcode.capability_binding.v1") ∧
    sameValue host (Dict.get? proposal.binding "bundle") (some (.obj proposal.bundle)) = true

theorem root_proposal_iff {proposal : RootProposal} :
    rootProposal p host data = .ok proposal ↔ ∃ scope, ProposalRead p host data scope proposal := by
  constructor
  · intro h
    unfold rootProposal at h
    obtain ⟨_, hkeys, h⟩ := bind_eq_ok h
    obtain ⟨objective, hobjective, h⟩ := bind_eq_ok h
    dsimp only at h
    obtain ⟨_, hworkflow, h⟩ := bind_eq_ok h
    obtain ⟨bundle, hbundle, h⟩ := bind_eq_ok h
    obtain ⟨_, hfresh, h⟩ := bind_eq_ok h
    obtain ⟨scope, hscope, h⟩ := bind_eq_ok h
    obtain ⟨_, hagrees, h⟩ := bind_eq_ok h
    obtain ⟨_, hhash, h⟩ := bind_eq_ok h
    obtain ⟨_, hshape, h⟩ := bind_eq_ok h
    obtain ⟨proposed, hproposed, h⟩ := bind_eq_ok h
    obtain ⟨binding, hbinding, h⟩ := bind_eq_ok h
    obtain ⟨_, hsame, h⟩ := bind_eq_ok h
    cases h
    have hhash := require_ok hhash
    have hsame := require_ok hsame
    simp only [Bool.and_eq_true, decide_eq_true_eq] at hhash hsame
    exact ⟨scope, require_ok hkeys, hobjective, require_ok hworkflow, hbundle, hfresh, hscope,
      require_ok hagrees, hhash, by simpa using require_ok hshape, hproposed, hbinding, hsame⟩
  · rintro ⟨scope, h⟩
    simp only [rootProposal, h.keys, h.objective, h.workflow, h.header, h.fresh, h.scopeRead, h.agrees,
      h.scopeHash.1, ← h.scopeHash.2, ← h.shape, h.listed, h.bound, h.same.1, h.same.2, require, bind,
      Except.bind, Bool.and_self, decide_true, if_true]

theorem root_proposal_objective {proposal : RootProposal}
    (h : rootProposal p host data = .ok proposal) :
    proposal.objective = routingObjective p data ∧
      Dict.get? data "objective" = some (.str (routingObjective p data)) := by
  obtain ⟨scope, hread⟩ := root_proposal_iff.mp h
  have hobjective := hread.objective
  have hscope := hread.agrees
  simp only [scopeAgrees, Bool.and_eq_true, decide_eq_true_eq] at hscope
  have hrouted : Dict.get? data "objective" = some (.str (routingObjective p data)) := by
    tauto
  refine ⟨?_, hrouted⟩
  unfold rootObjective at hobjective
  rw [hrouted] at hobjective
  obtain ⟨_, -, hobjective⟩ := bind_eq_ok hobjective
  exact (Except.ok.inj hobjective).symm

/-- Two loops over the items that read the same contents under the same URIs. -/
structure SameItems (items others : List BundleItem) : Prop where
  caps : others.map (·.cap) = items.map (·.cap)
  uris : (others.map (·.uri)).Perm (items.map (·.uri))
  contents : ∀ item ∈ items, ∀ other ∈ others, other.uri = item.uri →
    other.path = item.path ∧ other.content = item.content

theorem SameItems.find? (h : SameItems items others) (uri : String) :
    (others.find? (·.uri = uri)).map (fun item => (item.path, item.content)) =
      (items.find? (·.uri = uri)).map fun item => (item.path, item.content) := by
  cases hitem : items.find? (·.uri = uri) with
  | none =>
      have hnone : others.find? (·.uri = uri) = none := by
        rw [List.find?_eq_none] at hitem ⊢
        intro other hother huri
        obtain ⟨item, hmem, heq⟩ := List.mem_map.mp (h.uris.mem_iff.mp (List.mem_map_of_mem hother))
        exact hitem item hmem (by rw [heq]; exact huri)
      rw [hnone]
  | some item =>
      have huri : item.uri = uri := by simpa using List.find?_some hitem
      have hmem := List.mem_of_find?_eq_some hitem
      obtain ⟨other, hother, heq⟩ := List.mem_map.mp (h.uris.mem_iff.mpr (List.mem_map_of_mem hmem))
      cases hfound : others.find? (·.uri = uri) with
      | none =>
          rw [List.find?_eq_none] at hfound
          exact absurd (by simpa using heq.trans huri) (hfound other hother)
      | some found =>
          have hfoundUri : found.uri = uri := by simpa using List.find?_some hfound
          obtain ⟨hpath, hcontent⟩ := h.contents item hmem found
            (List.mem_of_find?_eq_some hfound) (hfoundUri.trans huri.symm)
          simp [hpath, hcontent]

/-- The path of a capability's content is resolved. -/
theorem load_authoritative_content_path (hapart : TextsApart p host) {path content : String}
    (h : loadAuthoritativeContent p host cap = .ok (path, content)) : bracketed path = false := by
  unfold loadAuthoritativeContent at h
  cases htarget : safeFileTarget p host.fs cap.packagePath cap.entrypoint with
  | none => simp [htarget] at h
  | some target =>
      simp only [htarget] at h
      obtain ⟨⟨actual, text⟩, -, h⟩ := bind_eq_ok h
      obtain ⟨same, -, h⟩ := bind_eq_ok h
      obtain ⟨_, -, h⟩ := bind_eq_ok h
      cases h
      unfold safeFileTarget at htarget
      dsimp only at htarget
      split at htarget
      · cases htarget
      · split at htarget
        · cases htarget
        · cases htarget
          exact hapart.paths _

theorem source_path_canonical {path : String} (hpath : bracketed path = false) (item : Dict) :
    ["", path].contains (fieldText p (canonicalFields item) "source_path") =
      ["", path].contains (fieldText p item "source_path") := by
  have htest : ∀ text, bracketed text = true → ["", path].contains text = false := by
    intro text htext
    cases hmem : ["", path].contains text with
    | false => rfl
    | true =>
        rcases List.mem_cons.mp (List.contains_iff_mem.mp hmem) with rfl | hmem
        · exact absurd htext (by decide)
        · rw [List.mem_singleton.mp hmem, hpath] at htext
          cases htext
  unfold fieldText
  rw [Dict.get?_canonical_fields]
  exact text_or_empty_canonical p.repr htest _

theorem check_instruction_canonical (h : SameItems items others)
    (hpaths : ∀ item ∈ items, bracketed item.path = false) (remaining : Int) (json : Json) :
    checkInstruction p host others remaining (canonical json) cap =
      checkInstruction p host items remaining json cap := by
  unfold checkInstruction
  dsimp only
  rw [show some (canonical json) = (some json).map canonical from rfl, object_of_canonical,
    bind_map_left]
  refine bind_congr fun item => ?_
  simp only [Dict.get?_canonical_fields, map_canonical_eq_str, map_canonical_eq_bool]
  refine bind_congr fun _ => ?_
  have hfind := h.find? cap.uri
  cases hitem : items.find? (·.uri = cap.uri) with
  | none =>
      rw [hitem] at hfind
      rw [Option.map_eq_none_iff.mp hfind]
  | some source =>
      rw [hitem] at hfind
      obtain ⟨other, hother, hpair⟩ := Option.map_eq_some_iff.mp hfind
      obtain ⟨hpath, hcontent⟩ := Prod.mk.inj hpair
      rw [hother]
      dsimp only
      rw [hpath, hcontent,
        source_path_canonical (hpaths source (List.mem_of_find?_eq_some hitem))]

theorem check_instructions_canonical (h : SameItems items others)
    (hpaths : ∀ item ∈ items, bracketed item.path = false) (remaining : Int) (values : List Json)
    (caps : List Capability) :
    checkInstructions p host others remaining (values.map canonical) caps =
      checkInstructions p host items remaining values caps := by
  induction values generalizing remaining caps with
  | nil => rfl
  | cons json values ih =>
      cases caps with
      | nil => rfl
      | cons cap caps =>
          rw [List.map_cons, checkInstructions, checkInstructions,
            check_instruction_canonical h hpaths]
          exact bind_congr fun rest => ih rest caps

theorem entitlements_agree_canonical (uris : List String) (value : Option Json) :
    entitlementsAgree uris (value.map canonical) = entitlementsAgree uris value := by
  cases value with
  | none => rfl
  | some json =>
      cases json with
      | obj data =>
          show (sameKeys (canonicalFields data) uris && (canonicalFields data).all _) =
            (sameKeys data uris && data.all _)
          rw [same_keys_canonical, (canonical_fields_perm data).all_eq, List.all_map]
          congr 2
          funext field
          cases field with
          | mk key entitlement =>
              cases entitlement with
              | obj fields =>
                  show (sameKeys (canonicalFields fields) _ && _ && _) = (sameKeys fields _ && _ && _)
                  simp only [same_keys_canonical, Dict.get?_canonical_fields, map_canonical_eq_str]
              | null | bool | int | float | str | arr => rfl
      | null | bool | int | float | str | arr => rfl

theorem entitlements_agree_perm {uris others : List String} (h : others.Perm uris)
    (value : Option Json) : entitlementsAgree others value = entitlementsAgree uris value := by
  unfold entitlementsAgree sameKeys
  have hcontains : ∀ key, others.contains key = uris.contains key := fun key => by
    rw [Bool.eq_iff_iff, List.contains_iff_mem, List.contains_iff_mem, h.mem_iff]
  simp only [hcontains, h.all_eq]

theorem binding_instructions_canonical (h : SameItems items others)
    (hpaths : ∀ item ∈ items, bracketed item.path = false) (binding : Dict) :
    bindingInstructions p host (canonicalFields binding) others =
      bindingInstructions p host binding items := by
  have hlength : others.length = items.length := by
    rw [← List.length_map (f := BundleItem.cap), h.caps, List.length_map]
  unfold bindingInstructions
  rw [Dict.get?_canonical_fields]
  cases Dict.get? binding "instructions" with
  | none => rfl
  | some json =>
      cases json with
      | arr values =>
          show (require ((canonicalItems values).length = others.length) _ >>= fun _ =>
              checkInstructions p host others 16000 (canonicalItems values) (others.map (·.cap))) =
            (require (values.length = items.length) _ >>= fun _ =>
              checkInstructions p host items 16000 values (items.map (·.cap)))
          rw [canonical_items_eq_map, List.length_map, hlength, h.caps,
            check_instructions_canonical h hpaths]
      | null | bool | int | float | str | obj => rfl

theorem relevance_of_all_congr (h : others.map (·.cap) = items.map (·.cap)) (terms : List String)
    (security : Bool) :
    relevanceOfAll p host terms security others = relevanceOfAll p host terms security items := by
  induction items generalizing others with
  | nil => rw [List.map_eq_nil_iff.mp h]
  | cons item items ih =>
      obtain ⟨other, rest, rfl, hcap, hrest⟩ := List.map_eq_cons_iff.mp h
      rw [relevanceOfAll, relevanceOfAll, ih hrest, hcap]

theorem root_evidence_sorted (h : SameItems items others)
    (hpaths : ∀ item ∈ items, bracketed item.path = false) (proposal : RootProposal) :
    rootEvidence p host selected proposal.sorted others =
      rootEvidence p host selected proposal items := by
  have hselected : (others.map (·.uri)).contains selected.uri =
      (items.map (·.uri)).contains selected.uri := by
    rw [Bool.eq_iff_iff, List.contains_iff_mem, List.contains_iff_mem, h.uris.mem_iff]
  have htexts : (others.map fun item => capabilityText p item.cap) =
      items.map fun item => capabilityText p item.cap := by
    have hmap := congrArg (List.map (capabilityText p)) h.caps
    rwa [List.map_map, List.map_map] at hmap
  unfold rootEvidence
  simp only [RootProposal.sorted, hselected, htexts, binding_instructions_canonical h hpaths,
    Dict.get?_canonical_fields, entitlements_agree_canonical, entitlements_agree_perm h.uris,
    same_value_canonical_left, relevance_of_all_congr h.caps]

/-- What an accepted root context has passed. -/
structure RootAccepted (p : Platform) (host : AuthorityHost) (db : Database)
    (request : ToolRequest) (selected : Capability) (task : String) (context : Dict)
    (proposal : RootProposal) (items : List BundleItem) (evidence : Json) : Prop where
  schema : Dict.get? context "schema" = some (.str "asgcode.capmesh.delegation.context.v1")
  proposed : rootProposal p host context = .ok proposal
  read : rootItems p host db request selected [] proposal.proposed = .ok items
  computed : rootEvidence p host selected proposal items = .ok evidence
  agrees : evidenceAgrees host (Dict.get? context "authorityEvidence") evidence = true
  trust : Dict.get? proposal.binding "trust" = some (.str "authoritative")
  requirement : Dict.get? proposal.binding "read_requirement" = some (.str readRequirement)
  hashed : Dict.get? proposal.binding "bundle_hash" =
    some (.str (valueDigest p (.obj proposal.bundle)))
  bundleHash : Dict.get? context "capabilityBundleHash" =
    some (.str (valueDigest p (.obj proposal.bundle)))
  bindingHash : Dict.get? context "capabilityBindingHash" =
    some (.str (valueDigest p (.obj proposal.binding)))
  task : task = boundTask proposal.objective (.obj proposal.binding)

/-- What the validation returns for an accepted root context. -/
def rootResult (p : Platform) (context : Dict) (proposal : RootProposal) (evidence : Json) :
    DelegatedBundle where
  context := Dict.set (Dict.set (Dict.set context "capabilityBundleHash"
    (.str (valueDigest p (.obj proposal.bundle)))) "capabilityBindingHash"
    (.str (valueDigest p (.obj proposal.binding)))) "authorityEvidence" evidence
  bundleHash := valueDigest p (.obj proposal.bundle)
  bindingHash := valueDigest p (.obj proposal.binding)

theorem validate_root_iff {task : String} {result : DelegatedBundle} :
    validateRootAuthoritativeBundle p host db request selected task (some (.obj data)) =
        .ok result ↔
      ∃ proposal items evidence,
        RootAccepted p host db request selected task data proposal items evidence ∧
          result = rootResult p data proposal evidence := by
  constructor
  · intro h
    unfold validateRootAuthoritativeBundle at h
    obtain ⟨_, hschema, h⟩ := bind_eq_ok h
    obtain ⟨proposal, hproposal, h⟩ := bind_eq_ok h
    obtain ⟨items, hitems, h⟩ := bind_eq_ok h
    obtain ⟨evidence, hevidence, h⟩ := bind_eq_ok h
    obtain ⟨_, hagrees, h⟩ := bind_eq_ok h
    obtain ⟨_, htrust, h⟩ := bind_eq_ok h
    obtain ⟨_, hrequirement, h⟩ := bind_eq_ok h
    obtain ⟨_, hhashes, h⟩ := bind_eq_ok h
    obtain ⟨_, htask, h⟩ := bind_eq_ok h
    have hhashes := require_ok hhashes
    simp only [Bool.and_eq_true, decide_eq_true_eq] at hhashes
    refine ⟨proposal, items, evidence, ⟨by simpa using require_ok hschema, hproposal, hitems,
      hevidence, require_ok hagrees, by simpa using require_ok htrust,
      by simpa using require_ok hrequirement, hhashes.1.1, hhashes.1.2, hhashes.2,
      by simpa using require_ok htask⟩, (Except.ok.inj h).symm⟩
  · rintro ⟨proposal, items, evidence, h, rfl⟩
    simp [validateRootAuthoritativeBundle, h.schema, h.proposed, h.read, h.computed, h.agrees,
      h.trust, h.requirement, h.hashed, h.bundleHash, h.bindingHash, ← h.task, require, rootResult,
      bind, Except.bind]

end

end Capmesh
