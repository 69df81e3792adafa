import Capmesh.Governance.Drafts

/-!
# Edits and reviews

`update_capability_draft` edits any capability the principal may manage, not only a draft, and
leaves the reset of the reviewed columns to the upsert, which looks at the content hash alone.
Read `edited_row` first: it says which row an edit writes. `edit_reviewed_iff` says when an edit
invalidates the review it overtakes and leaves changed content held.
-/

namespace Capmesh

open Python Relational Execution

/-- Whether a review stands: approved, with a verified signature and an approved risk review. -/
def Capability.isReviewed (cap : Capability) : Bool :=
  cap.approvalState = .approved && cap.signatureStatus = .verified &&
    cap.riskReviewStatus = .approved

/-- Whether two versions of a capability differ in a column that reviewers read. -/
def Capability.differs (old new : Capability) : Bool :=
  old.title ≠ new.title || old.description ≠ new.description || old.keywords ≠ new.keywords ||
    old.riskTier ≠ new.riskTier || old.contentHash ≠ new.contentHash

/-- What an edit of a capability promises: no review of the old values stands for the new ones,
and the changed content of anything but a draft is held and not served. -/
structure EditReviewed (result : Database) (cap : Capability) (row : CapabilityRow) : Prop where
  unreviewed : cap.differs row.cap = true → row.cap.isReviewed = false
  held : cap.sourceKind ≠ "capmesh_draft" → cap.contentHash ≠ row.cap.contentHash →
    capguardIsHeld result.quarantine row.cap = true ∧ Hidden result row

/-- The hash of a text, as the catalog stores it. -/
def contentDigest (p : Platform) (content : String) : String := "sha256:" ++ p.sha256Text content

/-- Whether the payload of an edit changes the title, the description, the keywords or the risk
tier. -/
def EditCall.retouches (call : EditCall) (cap : Capability) : Bool :=
  optOr call.title cap.title ≠ cap.title || optOr call.description cap.description ≠
    cap.description || (!call.keywords.isEmpty && call.keywords ≠ cap.keywords) ||
    optOr call.riskTier cap.riskTier.text ≠ cap.riskTier.text

/-- The tenant an upsert files a capability under. -/
def filedTenant (p : Platform) (cap : Capability) : String :=
  if cap.isSystem then cap.tenantId else p.tenantOr cap.tenantId

/-- An edit the upsert can be left alone with: a standing review is either not touched or meets new
content, and new content of anything but a draft has a hold already. -/
structure EditSound (p : Platform) (db : Database) (call : EditCall) (cap : Capability)
    (content : String) : Prop where
  reset : cap.isReviewed = true → call.retouches cap = true →
    contentDigest p content ≠ cap.contentHash
  held : cap.sourceKind = "capmesh_draft" ∨ contentDigest p content = cap.contentHash ∨
    capguardIsHeld db.quarantine
      { cap with tenantId := filedTenant p cap, contentHash := contentDigest p content } = true

/-- The capability an edit upserts. -/
def EditCall.edited (p : Platform) (call : EditCall) (cap : Capability) (content : String)
    (riskTier : RiskTier) : Capability :=
  { cap with
    title := optOr call.title cap.title
    description := optOr call.description cap.description
    riskTier
    keywords := if call.keywords.isEmpty then cap.keywords else call.keywords
    contentHash := contentDigest p content
    metadata := cap.metadata.set "validation" (validateCapabilityPayload p
      (optOr call.name cap.name) (optOr call.title cap.title)
      (optOr call.description cap.description) (optOr call.riskTier cap.riskTier.text) content) }

/-- The columns an edit leaves in the row of the capability it found. -/
def EditCall.landed (p : Platform) (call : EditCall) (cap : Capability) (content : String)
    (riskTier : RiskTier) : Capability :=
  merged cap { call.edited p cap content riskTier with tenantId := filedTenant p cap }.stored

section

variable {p : Platform} {db result : Database} {call : EditCall} {cap : Capability}
variable {content text : String} {riskTier : RiskTier} {row : CapabilityRow}

theorem checked_ok {α : Type} {what text : String} {value : Option α} {found : α}
    (h : checked what text value = .ok found) : value = some found := by
  cases value with
  | none => cases h
  | some value =>
      cases h
      rfl

theorem risk_tier_parse_eq (h : RiskTier.parse text = some riskTier) : riskTier.text = text := by
  unfold RiskTier.parse at h
  simpa using List.find?_some h

theorem risk_tier_text_inj {a b : RiskTier} (h : a.text = b.text) : a = b := by
  revert h
  cases a <;> cases b <;> decide

/-- An upsert that leaves the URI in place changes at most the tenant of what it files. -/
theorem apply_default_kept (h : (applyDefaultUserNamespace p cap).uri = cap.uri) :
    applyDefaultUserNamespace p cap = { cap with tenantId := filedTenant p cap } := by
  unfold filedTenant
  by_cases hsystem : cap.isSystem = true
  · rw [apply_default_of_governed (.inl hsystem), if_pos hsystem]
  · have hgoverned : isGovernedUri cap.uri = true := h ▸ (apply_default_filed (p := p) hsystem).1
    unfold applyDefaultUserNamespace
    simp only [if_neg hsystem, if_pos hgoverned]

theorem require_capability_ok (h : requireCapabilityForEdit db call = .ok cap) :
    ∃ row ∈ db.capabilities, row.cap = cap := by
  unfold requireCapabilityForEdit at h
  dsimp only at h
  split at h
  · cases h
  · split at h
    · cases h
    · rename_i found hserved
      split at h
      · cases h
      · split at h
        · cases h
        · cases h
          exact get_capability_mem hserved

theorem update_capability_draft_cases (h : updateCapabilityDraft p db call = .ok result) :
    ∃ cap content riskTier id, requireCapabilityForEdit db call = .ok cap ∧
      editedContent call = .ok content ∧
      RiskTier.parse (optOr call.riskTier cap.riskTier.text) = some riskTier ∧
      upsertCapability p db (call.edited p cap content riskTier) = .ok (id, result) := by
  unfold updateCapabilityDraft at h
  obtain ⟨cap, hcap, h⟩ := bind_eq_ok h
  obtain ⟨content, hcontent, h⟩ := bind_eq_ok h
  obtain ⟨riskTier, hrisk, h⟩ := bind_eq_ok h
  obtain ⟨⟨id, written⟩, hupsert, h⟩ := bind_eq_ok h
  cases h
  exact ⟨cap, content, riskTier, id, hcap, hcontent, checked_ok hrisk, hupsert⟩

theorem incoming_edited {id : Nat} (hrow : row ∈ db.capabilities)
    (h : upsertCapability p db (call.edited p row.cap content riskTier) = .ok (id, result)) :
    incoming p db (call.edited p row.cap content riskTier) =
      { call.edited p row.cap content riskTier with tenantId := filedTenant p row.cap } := by
  have hkey : row.cap.canonicalKey = (call.edited p row.cap content riskTier).canonicalKey := rfl
  have huri : (call.edited p row.cap content riskTier).uri = row.cap.uri := rfl
  have hlifecycle : (call.edited p row.cap content riskTier).lifecycle = row.cap.lifecycle := rfl
  have htenant : filedTenant p (call.edited p row.cap content riskTier) =
      filedTenant p row.cap := rfl
  have hfiled := upsert_at_key hrow hkey h
  generalize call.edited p row.cap content riskTier = edited at *
  unfold incoming
  dsimp only
  rw [apply_default_kept (hfiled.symm.trans huri.symm), htenant]
  have hat : db.capabilityAt edited.uri = some row := huri ▸ Database.capability_at_eq hrow
  -- The edited lifecycle is the stored one, so that there is nothing to clamp.
  simp [clampLifecycle, hat, hlifecycle]

/-- The row an edit writes: the found one, merged with the edited values. -/
theorem edited_row (h : updateCapabilityDraft p db call = .ok result) :
    ∃ row ∈ db.capabilities, ∃ content riskTier,
      requireCapabilityForEdit db call = .ok row.cap ∧ editedContent call = .ok content ∧
      RiskTier.parse (optOr call.riskTier row.cap.riskTier.text) = some riskTier ∧
      (⟨row.id, call.landed p row.cap content riskTier⟩ : CapabilityRow) ∈ result.capabilities ∧
      result.quarantine = db.quarantine := by
  obtain ⟨cap, content, riskTier, id, hcap, hcontent, hrisk, hupsert⟩ :=
    update_capability_draft_cases h
  obtain ⟨row, hrow, rfl⟩ := require_capability_ok hcap
  refine ⟨row, hrow, content, riskTier, hcap, hcontent, hrisk, ?_⟩
  obtain ⟨table, expected, hwrite, -, -, rfl⟩ := upsert_capability_ok hupsert
  obtain ⟨hmem, hid, -⟩ := write_row_ok hwrite
  rw [incoming_edited hrow hupsert] at hmem hid
  have hat : db.capabilityAt row.cap.uri = some row := Database.capability_at_eq hrow
  refine ⟨(hmem _).mpr (.inl ?_), rfl⟩
  show _ = (⟨id, written (db.capabilityAt row.cap.uri) _⟩ : CapabilityRow)
  rw [hat, hid row hat]
  rfl

theorem merge_state_same {σ : Type} [DecidableEq σ] {trusted fallback old : σ} {same : Bool}
    (h : fallback ≠ trusted) :
    mergeState trusted fallback same old old = trusted ↔ same = true ∧ old = trusted := by
  unfold mergeState
  cases same with
  | true => simp
  | false =>
      by_cases hold : old = trusted <;> simp [hold, h]

/-- A merge that brings no verdicts leaves a review standing exactly when the content is the
same. -/
theorem merged_is_reviewed {new : Capability} (happroval : new.approvalState = cap.approvalState)
    (hsignature : new.signatureStatus = cap.signatureStatus)
    (hrisk : new.riskReviewStatus = cap.riskReviewStatus) :
    (merged cap new).isReviewed = true ↔
      cap.contentHash = new.contentHash ∧ cap.isReviewed = true := by
  simp only [merged, Capability.isReviewed, happroval, hsignature, hrisk, Bool.and_eq_true,
    decide_eq_true_eq, merge_state_same (show ApprovalState.pending ≠ .approved by decide),
    merge_state_same (show CheckStatus.pending ≠ .verified by decide),
    merge_state_same (show RiskReview.pending ≠ .approved by decide)]
  tauto

/-- A review stands after an edit exactly when it stood before and the content is the same. -/
theorem landed_is_reviewed : (call.landed p cap content riskTier).isReviewed = true ↔
    contentDigest p content = cap.contentHash ∧ cap.isReviewed = true := by
  rw [eq_comm (a := contentDigest p content)]
  exact merged_is_reviewed rfl rfl rfl

/-- An edit changes a reviewed column exactly when its payload does or the content is new. -/
theorem landed_differs
    (hrisk : RiskTier.parse (optOr call.riskTier cap.riskTier.text) = some riskTier) :
    cap.differs (call.landed p cap content riskTier) = true ↔
      call.retouches cap = true ∨ contentDigest p content ≠ cap.contentHash := by
  have htier : cap.riskTier ≠ riskTier ↔
      optOr call.riskTier cap.riskTier.text ≠ cap.riskTier.text := by
    rw [← risk_tier_parse_eq hrisk]
    exact ⟨fun h hsame => h (risk_tier_text_inj hsame.symm), fun h hsame => h (by rw [hsame])⟩
  have hkeywords : cap.keywords ≠ (if call.keywords.isEmpty then cap.keywords else call.keywords) ↔
      call.keywords.isEmpty = false ∧ call.keywords ≠ cap.keywords := by
    cases hempty : call.keywords.isEmpty with
    | true => simp
    | false => simp [ne_comm]
  simp only [Capability.differs, EditCall.retouches, EditCall.landed, merged, Capability.stored,
    EditCall.edited, Bool.or_eq_true, Bool.and_eq_true, decide_eq_true_eq, Bool.not_eq_true',
    htier, hkeywords]
  simp only [ne_comm (a := cap.title), ne_comm (a := cap.description),
    ne_comm (a := cap.contentHash)]

/-- What holds an edited row: the tenant, the URI and the new content. -/
theorem landed_held {quarantine : Table QuarantineRow} :
    capguardIsHeld quarantine (call.landed p cap content riskTier) = capguardIsHeld quarantine
      { cap with tenantId := filedTenant p cap, contentHash := contentDigest p content } :=
  capguard_is_held_congr rfl rfl rfl

theorem landed_content : (call.landed p cap content riskTier).contentHash =
    contentDigest p content := rfl

theorem landed_uri : (call.landed p cap content riskTier).uri = cap.uri := rfl

/-- An edit keeps its promises exactly when the upsert can be left alone with it. -/
theorem edit_reviewed_iff (h : updateCapabilityDraft p db call = .ok result)
    (hcap : requireCapabilityForEdit db call = .ok cap)
    (hcontent : editedContent call = .ok content) :
    (∃ row ∈ result.capabilities, row.cap.uri = cap.uri ∧ EditReviewed result cap row) ↔
      EditSound p db call cap content := by
  obtain ⟨old, -, content', riskTier, hcap', hcontent', hrisk, hmem, hquarantine⟩ := edited_row h
  cases hcontent.symm.trans hcontent'
  cases hcap.symm.trans hcap'
  constructor
  · rintro ⟨row, hrow, huri, hreviewed⟩
    -- The URI decides the row.
    have hrow : row = ⟨old.id, call.landed p old.cap content riskTier⟩ :=
      Database.eq_of_uri hrow hmem (huri.trans landed_uri.symm)
    subst hrow
    refine ⟨fun hstands hretouches hsame => ?_, ?_⟩
    · have hstale := hreviewed.unreviewed ((landed_differs hrisk).mpr (.inl hretouches))
      rw [landed_is_reviewed.mpr ⟨hsame, hstands⟩] at hstale
      cases hstale
    · by_cases hdraft : old.cap.sourceKind = "capmesh_draft"
      · exact .inl hdraft
      by_cases hsame : contentDigest p content = old.cap.contentHash
      · exact .inr (.inl hsame)
      have hheld := (hreviewed.held hdraft fun hback => hsame (landed_content.symm.trans hback.symm)).1
      rw [hquarantine, landed_held] at hheld
      exact .inr (.inr hheld)
  · intro hsound
    refine ⟨_, hmem, landed_uri, fun hdiffers => ?_, fun hdraft hchanged => ?_⟩
    · by_contra hstands
      obtain ⟨hsame, hbefore⟩ := landed_is_reviewed.mp (Bool.not_eq_false _ ▸ hstands)
      rcases (landed_differs hrisk).mp hdiffers with hretouches | hnew
      · exact hsound.reset hbefore hretouches hsame
      · exact hnew hsame
    · have hheld : capguardIsHeld result.quarantine (call.landed p old.cap content riskTier) =
          true := by
        rw [hquarantine, landed_held]
        rcases hsound.held with hkind | hsame | hheld
        · exact absurd hkind hdraft
        · exact absurd (landed_content.trans hsame).symm hchanged
        · exact hheld
      exact ⟨hheld, hidden_of_held hheld⟩

end

/-- SHA-256 on the texts that name and fill the drafts of the closed examples. -/
def editPlatform : Platform := .ascii fun content =>
  (([("asg\x1fann\x1fworkflow\x1fnotes\x1f0.1.0",
        "4e69b05f30ba7b53eca5aab5e9179f9679b7fd2800fa8886f8c3b624c352f19a"),
      ("asg\x1fbob\x1fworkflow\x1fnotes\x1f0.1.0",
        "ffd1c5551b9c5fd41c3915f4bfaf271d743c4ffaf200f79b81dc526c6a28c656"),
      ("# Notes", "360aa5ebfa18efd19f60eb2432c11d53e21586ff3a392ca246980970de15f0c4"),
      ("# Notes, revised",
        "bb260c93aacd79b319195ae0e7c318a84bebff3e803b4f46a1b9556d03315cc2")].find?
    fun entry => entry.1.toUTF8.data.toList = content).map (·.2)).getD ""

/-- A person with a private store. -/
def annDirectory : Directory where
  stores := [{ id := "store_ann", tenantId := "asg", kind := .userPrivate, disabled := false
               ownerIdentityId := some "idn_ann" }]
  namespaces := [⟨"ns_ann", "asg", "store_ann", "cap://user/asg/ann/private/personal", true⟩]
  organizations := []

/-- The draft of a workflow in that store. -/
def draftNotes : DraftCall where
  principal := { subject := "ann", tenantId := "asg", identityId := some "idn_ann" }
  name := "notes"
  title := "Notes"
  description := "Keeps notes."
  content := "# Notes"
  storeId := some "store_ann"
  namespaceId := some "ns_ann"
  directory := annDirectory

/-- A review of the draft that passes every gate. -/
def reviewDraft : ReviewCall where
  principal := { subject := "capmesh", tenantId := "asg" }
  identifier := "cap://user/asg/ann/private/personal/workflow/notes@0.1.0"
  dryRun := false
  manage := ⟨true, ""⟩
  approve := ⟨true, ""⟩
  runner := ⟨fun _ => .ok (gateNames.map (·, .passed)), fun _ _ => (.passed, "")⟩

/-- An edit of the draft by its author. -/
def editNotes : EditCall where
  capabilityUri := some "cap://user/asg/ann/private/personal/workflow/notes@0.1.0"
  access := ⟨true, ""⟩
  fileText := some "# Notes"

/-- A draft is created in an empty catalog and reviewed. -/
def reviewedDraft (p : Platform) (draft : DraftCall) (review : ReviewCall) :
    Except Failure Database := do
  let created ← createCapabilityDraft p .empty draft
  let (_, reviewed) ← reviewCapability p created review
  .ok reviewed

/-- What an edit finds, reads, and leaves. -/
def observedEdit (p : Platform) (db : Database) (edit : EditCall) :
    Except Failure (Capability × String × Database) := do
  let cap ← requireCapabilityForEdit db edit
  let content ← editedContent edit
  let result ← updateCapabilityDraft p db edit
  .ok (cap, content, result)

theorem observed_edit_ok {p : Platform} {db result : Database} {edit : EditCall} {cap : Capability}
    {content : String} (h : observedEdit p db edit = .ok (cap, content, result)) :
    requireCapabilityForEdit db edit = .ok cap ∧ editedContent edit = .ok content ∧
      updateCapabilityDraft p db edit = .ok result := by
  unfold observedEdit at h
  obtain ⟨found, hfound, h⟩ := bind_eq_ok h
  obtain ⟨text, htext, h⟩ := bind_eq_ok h
  obtain ⟨after, hafter, h⟩ := bind_eq_ok h
  cases h
  exact ⟨hfound, htext, hafter⟩

/-- The author of an approved draft raises its risk tier, and the review of the low tier stands. -/
theorem risk_raised_after_review :
    ¬ ∀ (p : Platform) (draft : DraftCall) (review : ReviewCall) (edit : EditCall)
      (db result : Database) (cap : Capability), reviewedDraft p draft review = .ok db →
      requireCapabilityForEdit db edit = .ok cap → updateCapabilityDraft p db edit = .ok result →
      ∃ row ∈ result.capabilities, row.cap.uri = cap.uri ∧ EditReviewed result cap row := by
  intro hclaim
  have hrun : ((reviewedDraft editPlatform draftNotes reviewDraft).bind fun db =>
      (observedEdit editPlatform db { editNotes with riskTier := some "critical" }).map
        fun seen => seen.2.2.capabilities.rows.all fun row =>
          seen.1.differs row.cap && row.cap.isReviewed) = .ok true := by decide +kernel
  obtain ⟨db, hdb, hrun⟩ := bind_eq_ok hrun
  obtain ⟨⟨cap, content, result⟩, hobserved, hall⟩ := map_eq_ok hrun
  obtain ⟨hcap, -, hupdate⟩ := observed_edit_ok hobserved
  obtain ⟨row, hrow, -, hreviewed⟩ := hclaim _ _ _ _ _ _ _ hdb hcap hupdate
  obtain ⟨hdiffers, hstands⟩ := Bool.and_eq_true_iff.mp (List.all_eq_true.mp hall row hrow)
  rw [hreviewed.unreviewed hdiffers] at hstands
  cases hstands

/-- New content takes the review with it. -/
theorem edit_reviewed_iff_new_content : ∃ db cap result,
    reviewedDraft editPlatform draftNotes reviewDraft = .ok db ∧
    updateCapabilityDraft editPlatform db
      { editNotes with riskTier := some "critical", content := some "# Notes, revised" } =
      .ok result ∧
    ∃ row ∈ result.capabilities, row.cap.uri = cap.uri ∧ EditReviewed result cap row := by
  have hrun : ((reviewedDraft editPlatform draftNotes reviewDraft).bind fun db =>
      (observedEdit editPlatform db
        { editNotes with riskTier := some "critical", content := some "# Notes, revised" }).map
        fun seen => contentDigest editPlatform seen.2.1 ≠ seen.1.contentHash &&
          seen.1.sourceKind = "capmesh_draft") = .ok true := by decide +kernel
  obtain ⟨db, hdb, hrun⟩ := bind_eq_ok hrun
  obtain ⟨⟨cap, content, result⟩, hobserved, hseen⟩ := map_eq_ok hrun
  obtain ⟨hcap, hcontent, hupdate⟩ := observed_edit_ok hobserved
  obtain ⟨hnew, hdraft⟩ := Bool.and_eq_true_iff.mp hseen
  refine ⟨db, cap, result, hdb, hupdate, (edit_reviewed_iff hupdate hcap hcontent).mpr ⟨?_, ?_⟩⟩
  · exact fun _ _ => of_decide_eq_true hnew
  · exact .inl (of_decide_eq_true hdraft)

end Capmesh
