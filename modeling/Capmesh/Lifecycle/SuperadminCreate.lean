import Capmesh.Lifecycle.Approval

/-!
# A superadmin's create

`system.capabilities` with the action `create`, as `dispatch_system_capability` handles it: the
draft is created and committed, and for a configured superadmin the catalog is approved. The
approval is that of the whole catalog, so the draft shares the fate of every other row:
`superadmin_create_iff`.
-/

namespace Capmesh

open Python Relational Execution

/-- The environment `install_policy.py` reads. -/
structure InstallPolicy where
  autoApprove : String := ""
  actor : String := ""
  actors : String := ""

/-- `configured_superadmin_auto_approval`. -/
def configuredSuperadminAutoApproval (p : Platform) (policy : InstallPolicy)
    (actor : Option String) : Except Failure (Option String) :=
  let normalized := fun text => p.lower (p.stripSpace text)
  let raw := normalized policy.autoApprove
  if ["", "0", "false", "no", "off"].contains raw then .ok none
  else if !(["1", "true", "yes", "on"].contains raw) then
    .error (.value "CAPMESH_SUPERADMIN_INSTALL_AUTO_APPROVE must be a boolean value.")
  else
    let configured := normalized policy.actor
    let listed := (((splitOn ',' policy.actors.toList).map String.ofList).filter
      (p.stripSpace · ≠ "")).map normalized
    let allowed := if !listed.isEmpty then listed else if configured ≠ "" then [configured] else []
    if !allowed.contains configured then
      .error (.value ("CAPMESH_SUPERADMIN_ACTOR must be one of the configured superadmins: " ++
        join ", " allowed))
    else match actor with
      | none => .ok (some configured)
      | some actor =>
          .ok (if allowed.contains (normalized actor) then some (normalized actor) else none)

/-- `create_capability_draft` on the lifecycle's state: the id of the row, and the state with the
row and the draft's file. -/
def createDraft (p : Platform) (ctx : Reviewing) (call : DraftCall) :
    Except Failure (Nat × Reviewing) := do
  let storeId ← checkDraft p call
  let cap ← draftCapability p call storeId
  let (id, db) ← upsertCapability p ctx.db cap
  .ok (id,
    { ctx with
      db
      directory := call.directory
      host := { ctx.host with
        files := fun path =>
          if path = cap.sourcePath then .regular call.content.toUTF8.data.toList
          else ctx.host.files path } })

/-- The principal that approves for a superadmin. -/
def superadmin (p : Platform) (actor : String) (principal : Principal) : Principal :=
  { subject := actor, tenantId := p.tenantOr principal.tenantId, roles := ["org_admin"] }

/-- `dispatch_system_capability` for a create of `system.capabilities`. -/
def dispatchCreate (p : Platform) (ctx : Reviewing) (policy : InstallPolicy) (call : DraftCall) :
    Option (Except Failure (Option CatalogApproval × Reviewing)) :=
  match createDraft p ctx call with
  | .error failure => some (.error failure)
  | .ok (_, created) =>
      match configuredSuperadminAutoApproval p policy (some call.principal.subject) with
      | .error failure => some (.error failure)
      | .ok none => some (.ok (none, created))
      | .ok (some actor) =>
          if actor = "" then some (.ok (none, created))
          else match approveCatalog p created (superadmin p actor call.principal) true with
            | none => none
            | some (.error failure) => some (.error failure)
            | some (.ok (report, _, last)) => some (.ok (some report, last))

/-- A superadmin's create of a draft that passes its dry run: the row with the id, in the state the
create leaves. -/
structure PassingCreate (p : Platform) (ctx : Reviewing) (policy : InstallPolicy)
    (call : DraftCall) (actor : String) (created : Reviewing) (row : CapabilityRow) : Prop where
  create : createDraft p ctx call = .ok (row.id, created)
  mem : row ∈ created.db.capabilities
  configured : configuredSuperadminAutoApproval p policy (some call.principal.subject) =
    .ok (some actor)
  named : actor ≠ ""
  passes : ∃ review next, lifecycleReview p created (superadmin p actor call.principal) {}
    row.cap.uri true = .ok (review, next) ∧ review.passed = true ∧
      review.capabilityUri = row.cap.uri

/-- A superadmin's create is approved on its own gates. -/
def ApprovedOnOwnGates (p : Platform) (ctx : Reviewing) (policy : InstallPolicy)
    (call : DraftCall) : Prop :=
  ∀ actor created row, PassingCreate p ctx policy call actor created row →
    ∃ report last, dispatchCreate p ctx policy call = some (.ok (report, last)) ∧
      ∃ after ∈ last.db.capabilities, after.id = row.id ∧ after.cap.approvalState = .approved

section

variable {p : Platform} {ctx created : Reviewing} {policy : InstallPolicy} {call : DraftCall}
variable {actor : String} {row : CapabilityRow} {id : Nat}

theorem upsert_capability_row {db result : Database} {cap : Capability}
    (h : upsertCapability p db cap = .ok (id, result)) (hrow : row ∈ result.capabilities)
    (hid : row.id = id) (htenant : cap.tenantId ≠ "") :
    row.cap.sourceKind = cap.sourceKind ∧ row.cap.tenantId = cap.tenantId := by
  obtain ⟨table, expected, hwrite, -, -, rfl⟩ := upsert_capability_ok h
  obtain ⟨hmem, -, -⟩ := write_row_ok hwrite
  have hwritten := (hmem _).mpr (.inl rfl)
  have hsame : row = ⟨id, written (db.capabilityAt (incoming p db cap).uri) (incoming p db cap)⟩ :=
    Table.eq_of_conflict (show row ∈ table from hrow) hwritten (.inl hid)
  have hcolumns : ∀ existing target, (written existing target).sourceKind = target.sourceKind ∧
      (written existing target).tenantId = target.tenantId := by
    intro existing target
    cases existing <;> exact ⟨rfl, rfl⟩
  have hincoming : (incoming p db cap).sourceKind = cap.sourceKind ∧
      (incoming p db cap).tenantId = cap.tenantId := by
    obtain ⟨lifecycle, heq⟩ := incoming_lifecycle p db cap
    rw [heq]
    refine ⟨(apply_default_source cap).2.2, ?_⟩
    show (applyDefaultUserNamespace p cap).tenantId = cap.tenantId
    unfold applyDefaultUserNamespace
    have hkept : p.tenantOr cap.tenantId = cap.tenantId := or_else_of_ne _ htenant
    split
    · rfl
    · simp only
      split <;> exact hkept
  rw [hsame]
  exact ⟨(hcolumns _ _).1.trans hincoming.1, (hcolumns _ _).2.trans hincoming.2⟩

theorem PassingCreate.governed (h : PassingCreate p ctx policy call actor created row) :
    row.cap.isGoverned (superadmin p actor call.principal).lifecycleTenant = true := by
  have hcreate := h.create
  unfold createDraft at hcreate
  obtain ⟨storeId, -, hcreate⟩ := bind_eq_ok hcreate
  obtain ⟨cap, hcap, hcreate⟩ := bind_eq_ok hcreate
  obtain ⟨⟨id, db⟩, hupsert, hcreate⟩ := bind_eq_ok hcreate
  cases hcreate
  obtain ⟨hkind, htenant⟩ := draft_capability_ok hcap
  have hne : cap.tenantId ≠ "" := by
    rw [htenant]
    exact p.tenant_or_ne _
  obtain ⟨hrowKind, hrowTenant⟩ := upsert_capability_row hupsert h.mem rfl hne
  have hlifecycle : (superadmin p actor call.principal).lifecycleTenant =
      p.tenantOr call.principal.tenantId := or_else_of_ne _ (p.tenant_or_ne _)
  unfold Capability.isGoverned
  rw [hrowKind, hrowTenant, hkind, htenant, hlifecycle]
  simp

/-- The outcome of a superadmin's create: the draft is approved when it was already, or when the
whole catalog is. -/
theorem PassingCreate.approved_iff (h : PassingCreate p ctx policy call actor created row) :
    (∃ report last, dispatchCreate p ctx policy call = some (.ok (report, last)) ∧
      ∃ after ∈ last.db.capabilities, after.id = row.id ∧ after.cap.approvalState = .approved) ↔
    row.cap.approvalState = .approved ∨
      created.Approvable p (superadmin p actor call.principal) := by
  obtain ⟨cap, -, hpasses⟩ := lifecycle_review_passed_iff.mp h.passes
  obtain ⟨report, items, next, hspec, -, -, hnext, happroved⟩ :=
    approve_catalog_spec true hpasses.authorized
  have hdispatch : dispatchCreate p ctx policy call = some (.ok (some report,
      if (true && !report.catalogApproved) = true then { next with db := created.db }
      else next)) := by
    unfold dispatchCreate
    simp only [h.create, h.configured, if_neg h.named, hspec]
  rw [hdispatch]
  cases hreport : report.catalogApproved with
  | false =>
      have hrefused : ¬ created.Approvable p (superadmin p actor call.principal) := by
        rw [← happroved, hreport]
        exact Bool.false_ne_true
      rw [or_iff_left hrefused]
      constructor
      · rintro ⟨_, last, heq, after, hafter, hid, hstate⟩
        cases heq
        rwa [← Database.eq_of_id (show after ∈ created.db.capabilities from hafter) h.mem hid]
      · intro hstate
        exact ⟨_, _, rfl, row, h.mem, rfl, hstate⟩
  | true =>
      have happrovable := happroved.mp hreport
      refine iff_of_true ⟨_, _, rfl, ?_⟩ (.inr happrovable)
      have hmem : row.reviewedIn ((created.swept p (superadmin p actor call.principal)).filterMap
          (created.approves p (superadmin p actor call.principal))) ∈ next.db.capabilities := by
        rw [← Table.mem_rows, hnext.rows]
        exact List.mem_map_of_mem h.mem
      have hgoverned := h.governed
      have hcompliant := compliant_of_approvable hnext happrovable _ hmem
        (reviewed_in_governed.trans hgoverned)
      refine ⟨_, hmem, rfl, ?_⟩
      simp only [Capability.isCompliant, Bool.and_eq_true, decide_eq_true_eq] at hcompliant
      exact hcompliant.1.1.1.1

end

/-- A superadmin's create is approved on its own gates exactly when every draft that passes its dry
run is approved already, or stands in a catalog that can be approved as a whole. -/
theorem superadmin_create_iff (p : Platform) (ctx : Reviewing) (policy : InstallPolicy)
    (call : DraftCall) :
    ApprovedOnOwnGates p ctx policy call ↔
      ∀ actor created row, PassingCreate p ctx policy call actor created row →
        row.cap.approvalState = .approved ∨
          created.Approvable p (superadmin p actor call.principal) := by
  constructor
  · intro h actor created row hcreate
    exact hcreate.approved_iff.mp (h actor created row hcreate)
  · intro h actor created row hcreate
    exact hcreate.approved_iff.mpr (h actor created row hcreate)

/-- The environment of a node whose superadmin is alice. -/
def alicePolicy : InstallPolicy := { autoApprove := "1", actor := "alice" }

/-- SHA-256 on the texts that name and fill a draft of a memo skill. -/
def memoPlatform : Platform := .ascii fun content =>
  (((notesSource :: ("asg\x1falice\x1fskill\x1fmemo\x1f0.1.0", "a9712c9b70408758fe0b016ae1c186143734057221d0f67b19829ab2bae75223") ::
    sampleDigests).find? fun entry => entry.1.toUTF8.data.toList = content).map (·.2)).getD ""

/-- A draft of a memo skill in the team's namespace. -/
def memoDraft : DraftCall where
  principal := platformAdmin
  name := "memo"
  title := "Memo"
  description := "Keeps notes."
  content := notesSource.1
  capabilityType := "skill"
  storeId := some "store_team"
  namespaceId := some "ns_team"
  directory := teamDirectory

/-- A catalog with one skill whose file has changed since it was indexed. -/
def staleCatalog : Reviewing where
  db := ((upsertCapability memoPlatform .empty (notesSkill "sha256:v1")).toOption.map (·.2)).getD
    .empty
  host := notesHost
  directory := teamDirectory
  orgCache _ _ := none
  reviewIds uri := "crv_" ++ uri

/-- Whether a superadmin's create leaves an unapproved row that passes its dry run, beside one whose
source fails. -/
def leavesDraft (p : Platform) (ctx : Reviewing) (policy : InstallPolicy) (call : DraftCall) :
    Bool :=
  match createDraft p ctx call,
      configuredSuperadminAutoApproval p policy (some call.principal.subject) with
  | .ok (id, created), .ok (some actor) => actor ≠ "" &&
      (created.db.capabilities.rows.any fun row => row.id = id &&
        row.cap.approvalState ≠ .approved &&
        match quickReview p created (superadmin p actor call.principal) {} row.cap.uri true with
        | .ok (review, _) => review.passed && review.capabilityUri = row.cap.uri
        | .error _ => false) &&
      created.db.capabilities.rows.any fun row =>
        row.cap.isGoverned (superadmin p actor call.principal).lifecycleTenant &&
          !row.cap.isCompliant &&
            !(sourceBytes p created.host row.cap).toOption.any (·.2.state = .passed)
  | _, _ => false

/-- A catalog cannot be approved while the source of a row fails. -/
theorem not_approvable_of_source {p : Platform} {ctx : Reviewing} {principal : Principal}
    {row : CapabilityRow} (hrow : row ∈ ctx.db.capabilities)
    (hgoverned : row.cap.isGoverned principal.lifecycleTenant = true)
    (hopen : row.cap.isCompliant = false)
    (hsource : (sourceBytes p ctx.host row.cap).toOption.any (·.2.state = .passed) = false) :
    ¬ ctx.Approvable p principal := by
  intro happrovable
  rcases happrovable.covers row hrow hgoverned with hcompliant | ⟨uri, -, happroves⟩
  · exact Bool.false_ne_true (hopen.symm.trans hcompliant)
  · obtain ⟨cap, huri, hpasses⟩ := approves_eq_some_iff.mp happroves
    obtain ⟨served, hserved, rfl⟩ := get_capability_mem hpasses.served
    have hsame : served = row := Database.eq_of_uri hserved hrow huri
    obtain ⟨scope, target, -, hcontent⟩ := hpasses.content
    rcases hcontent .sourceIntegrity (by decide) with hpassed | ⟨hprovenance, -⟩
    · rw [hsame] at hpassed
      cases hgates : evaluateGates p ctx.host ctx.db row.cap scope target principal.subject
          false with
      | error failure =>
          rw [hgates] at hpassed
          cases hpassed
      | ok gates =>
          rw [hgates] at hpassed
          obtain ⟨source, hsources, hlist⟩ := bind_eq_ok hgates
          obtain ⟨read, hread, hrest⟩ := bind_eq_ok hsources
          cases hlist
          have hverified : read.2.state = .passed := by
            cases hcontent : read.1 with
            | none =>
                rw [hcontent] at hrest
                cases hrest
                exact Option.some.inj hpassed
            | some content =>
                rw [hcontent] at hrest
                obtain ⟨tests, -, hrest⟩ := bind_eq_ok hrest
                cases hrest
                exact Option.some.inj hpassed
          rw [hread] at hsource
          simp [Except.toOption, hverified] at hsource
    · cases hprovenance

theorem not_approved_of_leaves {p : Platform} {ctx : Reviewing} {policy : InstallPolicy}
    {call : DraftCall} (h : leavesDraft p ctx policy call = true) :
    ¬ ApprovedOnOwnGates p ctx policy call := by
  intro happroved
  unfold leavesDraft at h
  split at h
  · rename_i id created actor hcreate hactor
    simp only [Bool.and_eq_true, decide_eq_true_eq] at h
    obtain ⟨⟨hnamed, hdraft⟩, hstale⟩ := h
    obtain ⟨row, hmem, hrow⟩ := List.any_eq_true.mp hdraft
    obtain ⟨stale, hstaleMem, hfails⟩ := List.any_eq_true.mp hstale
    simp only [Bool.and_eq_true, Bool.not_eq_true', decide_eq_true_eq] at hrow hfails
    obtain ⟨⟨rfl, hstate⟩, hreview⟩ := hrow
    rw [← lifecycle_review_quick] at hreview
    split at hreview
    · rename_i review next hok
      obtain ⟨hpassed, huri⟩ := Bool.and_eq_true_iff.mp hreview
      have hpassing : PassingCreate p ctx policy call actor created row :=
        ⟨hcreate, hmem, hactor, hnamed, review, next, hok, hpassed, of_decide_eq_true huri⟩
      rcases hpassing.approved_iff.mp (happroved actor created row hpassing) with
        happroved | happrovable
      · exact hstate happroved
      · exact not_approvable_of_source hstaleMem hfails.1.1 hfails.1.2 hfails.2 happrovable
    · cases hreview
  · cases h

/-- The memo skill passes its own gates and stays a draft, because the notes skill fails its own. -/
theorem superadmin_create_counterexample :
    ¬ ∀ (p : Platform) (ctx : Reviewing) (policy : InstallPolicy) (call : DraftCall),
      ApprovedOnOwnGates p ctx policy call := by
  intro hclaim
  have hleaves : leavesDraft memoPlatform staleCatalog alicePolicy memoDraft = true := by
    decide +kernel
  exact not_approved_of_leaves hleaves (hclaim _ _ _ _)

end Capmesh
