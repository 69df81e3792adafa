import Capmesh.Governance.Drafts
import Capmesh.Governance.HoldMigration
import Capmesh.Lifecycle.Catalog

/-!
# What a catalog approval promises

`ApprovalContract` is the contract of `approve_catalog`: it reviews every selected row once, it
is all or nothing, and it approves a catalog whose dry runs pass. The page query, the count at
the end and the writers of the status columns disagree: a released capability is `published`,
which the count refuses and no page selects. `approval_contract_iff` says when the contract
holds.
-/

namespace Capmesh

open Python Relational Execution

/-- One call of the operations that write the catalog. -/
inductive LifecycleCall (p : Platform) where
  | hold (call : HoldCall p)
  | createDraft (call : DraftCall)
  | updateDraft (call : EditCall)

/-- One step; a refused call leaves the catalog as it is. -/
def lifecycleStep (p : Platform) (crypto : Crypto) (host : Host) : LifecycleCall p → Host
  | .hold call => holdStep p crypto host call
  | .createDraft call =>
      match createCapabilityDraft p host.db call with
      | .ok db => { host with db }
      | .error _ => host
  | .updateDraft call =>
      match updateCapabilityDraft p host.db call with
      | .ok db => { host with db }
      | .error _ => host

/-- A catalog in which nothing of the tenant is held or blocked, and every capability passes its
dry run. -/
structure CatalogReady (p : Platform) (ctx : Reviewing) (principal : Principal) : Prop where
  unheld : ∀ row ∈ ctx.db.capabilities, row.cap.tenantId = principal.lifecycleTenant →
    capguardIsHeld ctx.db.quarantine row.cap = false
  unblocked : ∀ row ∈ ctx.db.capabilities, row.cap.tenantId = principal.lifecycleTenant →
    row.cap.isBlocked = false
  passes : ∀ row ∈ ctx.db.capabilities, row.cap.isGoverned principal.lifecycleTenant = true →
    ∃ review next, lifecycleReview p ctx principal {} row.cap.uri true = .ok (review, next) ∧
      review.passed = true ∧ review.capabilityUri = row.cap.uri

/-- The contract of `approve_catalog` on a connection without an open transaction. -/
structure ApprovalContract (p : Platform) (ctx : Reviewing) (principal : Principal) : Prop where
  reviewed : ∃ report items last, approveCatalog p ctx principal true =
    some (.ok (report, items, last)) ∧ items.map (·.uri) = ctx.eligible principal
  atomic : ∀ report items last,
    approveCatalog p ctx principal true = some (.ok (report, items, last)) →
    (∀ row ∈ last.db.capabilities, row.cap.isGoverned principal.lifecycleTenant = true →
      row.cap.isCompliant = true) ∨
    last.db.capabilities = ctx.db.capabilities ∧ last.db.reviews = ctx.db.reviews
  complete : CatalogReady p ctx principal → ∀ report items last,
    approveCatalog p ctx principal true = some (.ok (report, items, last)) →
    report.catalogApproved = true

/-- Every capability the last count would refuse is one that a page selects. -/
def Reviewing.Covered (ctx : Reviewing) (principal : Principal) : Prop :=
  ∀ row ∈ ctx.db.capabilities, row.cap.isGoverned principal.lifecycleTenant = true →
    row.cap.isCompliant = true ∨ row.cap.isSelected principal.lifecycleTenant true = true

section

variable {p : Platform} {start ctx next : Reviewing} {principal : Principal}
variable {options : ReviewOptions} {identifier uri target : String} {cap : Capability}
variable {row : CapabilityRow} {targets : List String}

/-- A real review asks one thing more than a dry run: that the signing key can be kept. -/
theorem review_passes_kept_iff : ReviewPasses p ctx principal options true identifier cap ↔
    ctx.host.KeyLoads p true ∧ ReviewPasses p ctx principal options false identifier cap := by
  constructor
  · rintro ⟨hauthorized, haddressed, hserved, htenant, hkey, hcontent⟩
    exact ⟨hkey, hauthorized, haddressed, hserved, htenant, hkey.used, hcontent⟩
  · rintro ⟨hkey, hauthorized, haddressed, hserved, htenant, -, hcontent⟩
    exact ⟨hauthorized, haddressed, hserved, htenant, hkey, hcontent⟩

theorem CatalogReady.dry (h : CatalogReady p ctx principal) (hrow : row ∈ ctx.db.capabilities)
    (hgoverned : row.cap.isGoverned principal.lifecycleTenant = true) :
    ∃ cap, cap.uri = row.cap.uri ∧ ReviewPasses p ctx principal {} false row.cap.uri cap :=
  lifecycle_review_passed_iff.mp (h.passes row hrow hgoverned)

theorem CatalogReady.approves (h : CatalogReady p ctx principal)
    (hkey : ctx.host.KeyLoads p true) (hrow : row ∈ ctx.db.capabilities)
    (hgoverned : row.cap.isGoverned principal.lifecycleTenant = true) :
    ctx.approves p principal row.cap.uri = some row.cap.uri := by
  obtain ⟨cap, huri, hpasses⟩ := h.dry hrow hgoverned
  exact approves_eq_some_iff.mpr ⟨cap, huri, review_passes_kept_iff.mpr ⟨hkey, hpasses⟩⟩

theorem CatalogReady.approves_only (h : CatalogReady p ctx principal)
    (hrow : row ∈ ctx.db.capabilities)
    (hgoverned : row.cap.isGoverned principal.lifecycleTenant = true)
    (happroves : ctx.approves p principal row.cap.uri = some target) : target = row.cap.uri := by
  obtain ⟨cap, huri, hpasses⟩ := h.dry hrow hgoverned
  obtain ⟨other, rfl, hother⟩ := approves_eq_some_iff.mp happroves
  rw [← huri, hpasses.unique (review_passes_kept_iff.mp hother).2]

theorem governed_of_selected {tenant : String} {includeApproved : Bool}
    (h : cap.isSelected tenant includeApproved = true) : cap.isGoverned tenant = true := by
  unfold Capability.isSelected at h
  exact (Bool.and_eq_true_iff.mp h).1

theorem mem_eligible : uri ∈ ctx.eligible principal ↔ ∃ row ∈ ctx.db.capabilities,
    row.cap.isSelected principal.lifecycleTenant true = true ∧ "" < row.cap.uri ∧
      row.cap.uri = uri :=
  mem_selected_uris

theorem key_loads_of_approves (h : (ctx.approves p principal uri).isSome = true) :
    ctx.host.KeyLoads p true := by
  obtain ⟨target, happroves⟩ := Option.isSome_iff_exists.mp h
  obtain ⟨cap, -, hpasses⟩ := approves_eq_some_iff.mp happroves
  exact hpasses.key

theorem empty_lt {text : String} (h : text ≠ "") : "" < text := by
  rw [String.lt_iff_toList_lt]
  cases hchars : text.toList with
  | nil => exact absurd (String.toList_eq_nil_iff.mp hchars) h
  | cons c chars => exact List.Lex.nil

/-- A ready catalog is approvable when the pages and the count agree about it and the key can be
kept. -/
theorem CatalogReady.approvable_iff (h : CatalogReady p ctx principal)
    (hswept : ctx.swept p principal = ctx.eligible principal) :
    ctx.Approvable p principal ↔
      ctx.Covered principal ∧ (ctx.eligible principal = [] ∨ ctx.host.KeyLoads p true) := by
  constructor
  · intro happrovable
    have hpasses := happrovable.passes
    have hcovers := happrovable.covers
    rw [hswept] at hpasses hcovers
    refine ⟨fun row hrow hgoverned => ?_, ?_⟩
    · refine (hcovers row hrow hgoverned).imp_right ?_
      rintro ⟨uri, huri, happroves⟩
      obtain ⟨other, hother, hselected, -, rfl⟩ := mem_eligible.mp huri
      have hsame := h.approves_only hother (governed_of_selected hselected) happroves
      rw [Database.eq_of_uri hrow hother hsame]
      exact hselected
    · cases heligible : ctx.eligible principal with
      | nil => exact .inl rfl
      | cons uri uris =>
          rw [heligible] at hpasses
          exact .inr (key_loads_of_approves (hpasses uri List.mem_cons_self))
  · rintro ⟨hcovered, hkey⟩
    have happroves : ∀ row ∈ ctx.db.capabilities,
        row.cap.isSelected principal.lifecycleTenant true = true →
        row.cap.uri ∈ ctx.eligible principal →
        ctx.approves p principal row.cap.uri = some row.cap.uri := by
      intro row hrow hselected huri
      have hkey := hkey.resolve_left (List.ne_nil_of_mem huri)
      exact h.approves hkey hrow (governed_of_selected hselected)
    refine ⟨fun uri huri => ?_, fun row hrow hgoverned => ?_⟩
    · rw [hswept] at huri
      obtain ⟨row, hrow, hselected, -, rfl⟩ := mem_eligible.mp huri
      rw [happroves row hrow hselected huri]
      rfl
    · refine (hcovered row hrow hgoverned).imp_right fun hselected => ?_
      -- An empty URI is no address, so its dry run cannot have passed.
      obtain ⟨cap, -, hpasses⟩ := h.dry hrow hgoverned
      have hnonempty : "" < row.cap.uri := by
        refine empty_lt fun hempty => hpasses.addressed ?_
        rw [hempty]
        rfl
      have huri : row.cap.uri ∈ ctx.eligible principal :=
        mem_eligible.mpr ⟨row, hrow, hselected, hnonempty, rfl⟩
      exact ⟨row.cap.uri, by rwa [hswept], happroves row hrow hselected huri⟩

/-- After reviews a catalog is compliant when its count says so. -/
theorem compliant_of_approvable
    (hnext : ReviewedFrom p ctx next ((ctx.swept p principal).filterMap (ctx.approves p principal)))
    (happrovable : ctx.Approvable p principal) :
    ∀ row ∈ next.db.capabilities, row.cap.isGoverned principal.lifecycleTenant = true →
      row.cap.isCompliant = true := by
  have hcount : next.db.nonCompliant principal.lifecycleTenant = 0 := by
    rw [non_compliant_eq_zero_iff hnext]
    simpa only [List.mem_filterMap] using happrovable.covers
  intro row hrow hgoverned
  rw [Database.nonCompliant, List.length_eq_zero_iff, List.filter_eq_nil_iff] at hcount
  have hrefused := hcount row hrow
  rw [hgoverned] at hrefused
  simpa using hrefused

/-- A catalog approval is all or nothing, whatever it finds. -/
theorem approve_catalog_atomic {report : CatalogApproval} {items : List ReviewItem}
    {last : Reviewing}
    (h : approveCatalog p ctx principal true = some (.ok (report, items, last))) :
    (∀ row ∈ last.db.capabilities, row.cap.isGoverned principal.lifecycleTenant = true →
      row.cap.isCompliant = true) ∨ last.db = ctx.db := by
  by_cases hauthorized : ctx.Authorizes p principal
  · obtain ⟨report', items', next, hok, -, -, hnext, happroved⟩ :=
      approve_catalog_spec true hauthorized
    rw [hok] at h
    cases h
    cases hreport : report.catalogApproved with
    | false => exact .inr rfl
    | true => exact .inl (compliant_of_approvable hnext (happroved.mp hreport))
  · obtain ⟨failure, hrefused⟩ := approve_catalog_refused hauthorized
    rw [hrefused] at h
    cases h

end

/-- The contract holds for an authorized caller when no review names a row of a later page, and, if
the catalog is ready, every capability that is not compliant is one the pages select and the signing
key can be kept wherever there is something to review. -/
theorem approval_contract_iff (p : Platform) (ctx : Reviewing) (principal : Principal) :
    ApprovalContract p ctx principal ↔
      ctx.Authorizes p principal ∧
        Execution.Undisturbed maxBatch (ctx.approves p principal) (ctx.eligible principal) ∧
        (CatalogReady p ctx principal → ctx.Covered principal ∧
          (ctx.eligible principal = [] ∨ ctx.host.KeyLoads p true)) := by
  have hundisturbed : ctx.swept p principal = ctx.eligible principal ↔
      Execution.Undisturbed maxBatch (ctx.approves p principal) (ctx.eligible principal) :=
    sweep_eq_iff (by decide)
  rw [← hundisturbed]
  constructor
  · rintro ⟨⟨report, items, last, hok, huris⟩, -, hcomplete⟩
    by_cases hauthorized : ctx.Authorizes p principal
    · obtain ⟨report', items', next, hspec, hswept, -, -, happroved⟩ :=
        approve_catalog_spec true hauthorized
      have hsame := hspec
      rw [hok] at hsame
      cases hsame
      rw [hswept] at huris
      refine ⟨hauthorized, huris, fun hready => ?_⟩
      exact (hready.approvable_iff huris).mp (happroved.mp (hcomplete hready _ _ _ hspec))
    · obtain ⟨failure, hrefused⟩ := @approve_catalog_refused _ _ _ true hauthorized
      rw [hrefused] at hok
      cases hok
  · rintro ⟨hauthorized, hswept, hready⟩
    obtain ⟨report, items, next, hspec, huris, -, -, happroved⟩ :=
      approve_catalog_spec true hauthorized
    refine ⟨⟨report, items, _, hspec, huris.trans hswept⟩, ?_, ?_⟩
    · intro report items last hok
      refine (approve_catalog_atomic hok).imp_right fun hsame => ?_
      rw [hsame]
      exact ⟨rfl, rfl⟩
    · intro h report' items' last' hok
      rw [hspec] at hok
      cases hok
      exact happroved.mpr ((h.approvable_iff hswept).mpr (hready h))

/-- An ingest of the notes skill with the content of its file. -/
def sourcedInput : IngestInput notesPlatform :=
  .bare (.single (notesSkill ("sha256:" ++ notesSource.2)) (by decide)
    (Capability.unlisted rfl))

/-- The scan of that file. -/
def sourcedScan : ScanResult where
  passed := some true
  error := none
  findings := []
  criticalCount := some 0
  highCount := some 0
  fileHash := some ("sha256:" ++ notesSource.2)
  fileSize := some 34

/-- The skill is ingested, which holds it, and released after its scan. -/
def releaseRun : List (LifecycleCall notesPlatform) :=
  [.hold (.ingest sourcedInput),
    .hold (.guard (.scan "qtn_0" "asg" sourcedScan "capmesh-malware" none true
      ⟨"2026-01-01T00:00:00Z", "att_1", ""⟩)),
    .hold (.guard (.release "qtn_0" { tenantId := "asg", actor := "op" }
      ⟨"2026-01-01T00:00:00Z", "att_2", ""⟩))]

/-- The lifecycle on the catalog a run leaves, with the files and the signing key of a host. -/
def Host.reviewing (host : Host) (gates : GateHost) : Reviewing where
  db := host.db
  host := { gates with keys := host.keys }
  directory := sharedDirectory
  orgCache _ _ := none
  reviewIds uri := "crv_" ++ uri

/-- Whether a catalog is ready, and its approval returns without approving it. -/
def refusesReady (p : Platform) (ctx : Reviewing) (principal : Principal) : Bool :=
  (ctx.db.capabilities.rows.all fun row =>
    !capguardIsHeld ctx.db.quarantine row.cap && !row.cap.isBlocked &&
      match lifecycleReview p ctx principal {} row.cap.uri true with
      | .ok (review, _) => review.passed && review.capabilityUri = row.cap.uri
      | .error _ => false) &&
  match approveCatalog p ctx principal true with
  | some (.ok (report, _)) => !report.catalogApproved
  | _ => false

theorem refuses_ready_quick (p : Platform) (ctx : Reviewing) (principal : Principal) :
    refusesReady p ctx principal =
      ((ctx.db.capabilities.rows.all fun row =>
        !capguardIsHeld ctx.db.quarantine row.cap && !row.cap.isBlocked &&
          match quickReview p ctx principal {} row.cap.uri true with
          | .ok (review, _) => review.passed && review.capabilityUri = row.cap.uri
          | .error _ => false) &&
      match approveCatalog p ctx principal true with
      | some (.ok (report, _)) => !report.catalogApproved
      | _ => false) := by
  simp only [← lifecycle_review_quick]
  rfl

theorem not_contract_of_refuses {p : Platform} {ctx : Reviewing} {principal : Principal}
    (h : refusesReady p ctx principal = true) :
    CatalogReady p ctx principal ∧ ¬ ApprovalContract p ctx principal := by
  obtain ⟨hrows, hrefused⟩ := Bool.and_eq_true_iff.mp h
  simp only [List.all_eq_true, Bool.and_eq_true, Bool.not_eq_true'] at hrows
  have hready : CatalogReady p ctx principal := by
    refine ⟨fun row hrow _ => (hrows row hrow).1.1, fun row hrow _ => (hrows row hrow).1.2, ?_⟩
    intro row hrow _
    have hreview := (hrows row hrow).2
    split at hreview
    · rename_i review next hok
      obtain ⟨hpassed, huri⟩ := Bool.and_eq_true_iff.mp hreview
      exact ⟨review, next, hok, hpassed, of_decide_eq_true huri⟩
    · cases hreview
  refine ⟨hready, fun hcontract => ?_⟩
  split at hrefused
  · rename_i report rest hok
    rw [hcontract.complete hready report rest.1 rest.2 hok] at hrefused
    cases hrefused
  · cases hrefused

/-- A released skill passes its dry run, no page of the approval selects it, and the last count
refuses it. -/
theorem approval_contract_counterexample :
    ¬ ∀ (p : Platform) (crypto : Crypto) (keys : KeyStore) (calls : List (LifecycleCall p))
      (gates : GateHost) (principal : Principal),
      ((run (lifecycleStep p crypto) ⟨.empty, keys⟩ calls).reviewing gates).Authorizes p principal →
      ApprovalContract p
        ((run (lifecycleStep p crypto) ⟨.empty, keys⟩ calls).reviewing gates) principal := by
  intro hclaim
  have hchecked : ((run (lifecycleStep notesPlatform .transparent)
        ⟨.empty, ⟨true, .key "k", true⟩⟩ releaseRun).reviewing notesHost).Authorizes notesPlatform
          platformAdmin ∧
      refusesReady notesPlatform ((run (lifecycleStep notesPlatform .transparent)
        ⟨.empty, ⟨true, .key "k", true⟩⟩ releaseRun).reviewing notesHost) platformAdmin = true := by
    rw [refuses_ready_quick]
    decide +kernel
  exact (not_contract_of_refuses hchecked.2).2 (hclaim _ _ _ _ _ _ hchecked.1)

end Capmesh
