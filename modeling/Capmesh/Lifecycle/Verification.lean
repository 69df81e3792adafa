import Capmesh.Lifecycle.Approval

/-!
# The dry run of a catalog

`verify_catalog` of `lifecycle.py`. It reviews every row of the tenant as a dry run, without the
savepoint that `review_batch` puts around each row: one row that cannot be reviewed ends it, be it
held or a source whose reading raises. `dry_run_predicts_iff` compares it with the approval.
-/

namespace Capmesh

open Python Relational Execution

/-- The URIs `verify_catalog` lists, in order. -/
def Database.governedUris (db : Database) (tenant : String) : List String :=
  ((db.capabilities.rows.filter (·.cap.isGoverned tenant)).map (·.cap.uri)).insertionSort (· ≤ ·)

/-- What `verify_catalog` returns, without the count of warnings. -/
structure CatalogCheck where
  processed : Nat
  passed : Nat
  failed : Nat
  catalogPassed : Bool
  failures : List (String × List String)
  failuresTruncated : Bool

/-- The names of the gates of a review that did not pass, in order. -/
def Review.failedGates (review : Review) : List String :=
  ((review.gates.filter (·.2 ≠ .passed)).map (·.1.text)).insertionSort (· ≤ ·)

/-- The loop of `verify_catalog`. -/
def verifyItems (p : Platform) (principal : Principal) :
    Reviewing → List String → Except Failure (List (String × Review) × Reviewing)
  | ctx, [] => .ok ([], ctx)
  | ctx, uri :: uris => do
      let (review, next) ← lifecycleReview p ctx principal {} uri true
      let (reviews, last) ← verifyItems p principal next uris
      .ok ((uri, review) :: reviews, last)

/-- `verify_catalog`, with the reviews it made; `none` is a bound that is no integer. -/
def verifyCatalog (p : Platform) (ctx : Reviewing) (principal : Principal)
    (maximum : Option Int) : Except Failure (CatalogCheck × List (String × Review)) := do
  authorize p ctx principal
  match maximum with
  | none => .error (.value "maxCapabilities must be an integer between 1 and 10000.")
  | some maximum =>
      if maximum < 1 || 10000 < maximum then
        .error (.value "maxCapabilities must be between 1 and 10000.")
      else
        let rows := (ctx.db.governedUris principal.lifecycleTenant).take (maximum.toNat + 1)
        if maximum.toNat < rows.length then
          .error (.value ("Catalog contains more than maxCapabilities=" ++ toString maximum ++
            "; increase the explicit bound."))
        else do
          let (reviews, _) ← verifyItems p principal ctx rows
          let failures := (reviews.filter (!·.2.passed)).map fun entry =>
            (entry.2.capabilityUri, entry.2.failedGates)
          .ok (
            { processed := rows.length
              passed := rows.length - failures.length
              failed := failures.length
              catalogPassed := failures.isEmpty
              failures := failures.take 100
              failuresTruncated := 100 < failures.length }, reviews)

/-- A bound that admits the catalog. -/
def Reviewing.WithinBound (ctx : Reviewing) (principal : Principal) (maximum : Option Int) : Prop :=
  ∃ bound : Int, maximum = some bound ∧ 1 ≤ bound ∧ bound ≤ 10000 ∧
    (ctx.db.governedUris principal.lifecycleTenant).length ≤ bound.toNat

/-- A URI that names a served capability of the caller's tenant whose source can be read. -/
def Reviewing.Reviewable (p : Platform) (ctx : Reviewing) (principal : Principal) (uri : String) :
    Prop :=
  p.stripSpace uri ≠ "" ∧ ∃ cap, getCapability ctx.db (p.stripSpace uri) = some cap ∧
    cap.tenantId = orElse principal.tenantId "asg" ∧ SourceReads p ctx.host cap

/-- The dry run of a catalog predicts its approval: within its bound it returns and reviews every
row, and it gives every row that the approval reviews the approval's verdict. -/
structure DryRunPredicts (p : Platform) (ctx : Reviewing) (principal : Principal)
    (maximum : Option Int) : Prop where
  returns : ctx.Authorizes p principal → ctx.WithinBound principal maximum →
    ∃ check reviews, verifyCatalog p ctx principal maximum = .ok (check, reviews) ∧
      reviews.map (·.1) = ctx.db.governedUris principal.lifecycleTenant
  agrees : ∀ check reviews report items last,
    verifyCatalog p ctx principal maximum = .ok (check, reviews) →
    approveCatalog p ctx principal true = some (.ok (report, items, last)) →
    ∀ item ∈ items, ∀ entry ∈ reviews, entry.1 = item.uri → entry.2.passed = item.passed

section

variable {p : Platform} {ctx next : Reviewing} {principal : Principal} {uri : String}
variable {review : Review} {reviews : List (String × Review)} {uris : List String}
variable {maximum : Option Int} {check : CatalogCheck}

/-- A dry run of an authorized caller returns for a served capability of the tenant whose source can
be read. -/
theorem lifecycle_review_returns_iff (hauthorized : ctx.Authorizes p principal) :
    (∃ review, lifecycleReview p ctx principal {} uri true = .ok (review, ctx)) ↔
      ctx.Reviewable p principal uri := by
  constructor
  · rintro ⟨review, hreview⟩
    obtain ⟨cap, gates, hgates⟩ := lifecycle_review_ok hreview
    obtain ⟨-, haddressed, hserved, htenant, scope, target, evaluated, -, hevaluated, -⟩ :=
      review_gates_ok_iff.mp hgates
    exact ⟨haddressed, cap, hserved, htenant, evaluate_review_iff.mp ⟨evaluated, hevaluated⟩⟩
  · rintro ⟨haddressed, cap, hserved, htenant, hreads⟩
    have hscope : requestedScope p ctx.directory cap {} = .ok (scopeFor ctx.directory cap none) :=
      rfl
    have hgates : ∃ gates, reviewGates p ctx.db (ctx.call p principal {} uri true) =
        .ok (cap, gates) := by
      obtain ⟨evaluated, hevaluated⟩ := evaluate_review_iff.mpr hreads
      exact ⟨_, review_gates_ok_iff.mpr
        ⟨hauthorized, haddressed, hserved, htenant, _, _, evaluated, hscope, hevaluated, rfl⟩⟩
    obtain ⟨gates, hgates⟩ := hgates
    have hreview := lifecycle_review_eq hgates
    exact ⟨_, hreview.trans (by rw [lifecycle_review_dry hreview])⟩

/-- The loop returns the reviews of its rows on the state it started from. -/
theorem verify_items_ok (h : verifyItems p principal ctx uris = .ok (reviews, next)) :
    reviews.map (·.1) = uris ∧
      ∀ entry ∈ reviews, lifecycleReview p ctx principal {} entry.1 true = .ok (entry.2, ctx) := by
  induction uris generalizing reviews next with
  | nil =>
      cases h
      exact ⟨rfl, by simp⟩
  | cons uri uris ih =>
      unfold verifyItems at h
      obtain ⟨⟨review, after⟩, hreview, h⟩ := bind_eq_ok h
      obtain ⟨⟨rest, last⟩, hrest, h⟩ := bind_eq_ok h
      cases h
      obtain rfl := lifecycle_review_dry hreview
      obtain ⟨huris, hentries⟩ := ih hrest
      refine ⟨by rw [List.map_cons, huris], fun entry hentry => ?_⟩
      rcases List.mem_cons.mp hentry with rfl | hentry
      · exact hreview
      · exact hentries entry hentry

/-- The loop returns when every row can be reviewed. -/
theorem verify_items_returns_iff (hauthorized : ctx.Authorizes p principal) :
    (∃ reviews next, verifyItems p principal ctx uris = .ok (reviews, next)) ↔
      ∀ uri ∈ uris, ctx.Reviewable p principal uri := by
  constructor
  · rintro ⟨reviews, next, h⟩ uri huri
    obtain ⟨huris, hentries⟩ := verify_items_ok h
    rw [← huris] at huri
    obtain ⟨entry, hentry, rfl⟩ := List.mem_map.mp huri
    exact (lifecycle_review_returns_iff hauthorized).mp ⟨_, hentries entry hentry⟩
  · intro h
    induction uris with
    | nil => exact ⟨[], ctx, rfl⟩
    | cons uri uris ih =>
        obtain ⟨hreviewable, hrest⟩ := List.forall_mem_cons.mp h
        obtain ⟨review, hreview⟩ := (lifecycle_review_returns_iff hauthorized).mpr hreviewable
        obtain ⟨reviews, next, hreviews⟩ := ih hrest
        refine ⟨(uri, review) :: reviews, next, ?_⟩
        simp only [verifyItems, hreview, bind, Except.bind, hreviews]

theorem verify_catalog_ok (h : verifyCatalog p ctx principal maximum = .ok (check, reviews)) :
    ctx.Authorizes p principal ∧ ctx.WithinBound principal maximum ∧
      ∃ next, verifyItems p principal ctx (ctx.db.governedUris principal.lifecycleTenant) =
        .ok (reviews, next) := by
  unfold verifyCatalog at h
  obtain ⟨granted, hauthorize, h⟩ := bind_eq_ok h
  cases maximum with
  | none => cases h
  | some bound =>
      dsimp only at h
      split at h
      · cases h
      rename_i hbound
      split at h
      · cases h
      rename_i hcount
      obtain ⟨⟨entries, next⟩, hitems, h⟩ := bind_eq_ok h
      cases h
      simp only [Bool.or_eq_true, decide_eq_true_eq, not_or, not_lt] at hbound
      rw [List.length_take] at hcount
      have hlength : (ctx.db.governedUris principal.lifecycleTenant).length ≤ bound.toNat := by
        omega
      rw [List.take_of_length_le (by omega)] at hitems
      exact ⟨authorize_eq_ok_iff.mp hauthorize, ⟨bound, rfl, hbound.1, hbound.2, hlength⟩, next,
        hitems⟩

theorem verify_catalog_returns (hauthorized : ctx.Authorizes p principal)
    (hbound : ctx.WithinBound principal maximum)
    (h : verifyItems p principal ctx (ctx.db.governedUris principal.lifecycleTenant) =
      .ok (reviews, next)) :
    ∃ check, verifyCatalog p ctx principal maximum = .ok (check, reviews) := by
  obtain ⟨bound, rfl, hlow, hhigh, hlength⟩ := hbound
  have hlimits : ¬ ((bound < 1 || 10000 < bound) = true) := by
    simp only [Bool.or_eq_true, decide_eq_true_eq]
    omega
  have hrows : (ctx.db.governedUris principal.lifecycleTenant).take (bound.toNat + 1) =
      ctx.db.governedUris principal.lifecycleTenant := List.take_of_length_le (by omega)
  have hcount : ¬ bound.toNat < (ctx.db.governedUris principal.lifecycleTenant).length := by omega
  unfold verifyCatalog
  rw [authorize_eq_ok_iff.mpr hauthorized]
  simp only [bind, Except.bind, if_neg hlimits, hrows, if_neg hcount, h]
  exact ⟨_, rfl⟩

theorem mem_governed_uris {db : Database} {tenant : String} : uri ∈ db.governedUris tenant ↔
    ∃ row ∈ db.capabilities, row.cap.isGoverned tenant = true ∧ row.cap.uri = uri := by
  unfold Database.governedUris
  rw [List.mem_insertionSort, List.mem_map]
  simp only [List.mem_filter, Table.mem_rows, and_assoc]

theorem mem_governed_of_eligible (h : uri ∈ ctx.eligible principal) :
    uri ∈ ctx.db.governedUris principal.lifecycleTenant := by
  obtain ⟨row, hrow, hselected, -, huri⟩ := mem_eligible.mp h
  exact mem_governed_uris.mpr ⟨row, hrow, governed_of_selected hselected, huri⟩

/-- The verdict of a dry run. -/
theorem dry_passed_iff (h : lifecycleReview p ctx principal {} uri true = .ok (review, ctx)) :
    review.passed = true ↔ ∃ cap, ReviewPasses p ctx principal {} false uri cap := by
  constructor
  · intro hpassed
    obtain ⟨cap, -, hpasses⟩ := lifecycle_review_passed_iff.mp ⟨review, ctx, h, hpassed, rfl⟩
    exact ⟨cap, hpasses⟩
  · rintro ⟨cap, hpasses⟩
    obtain ⟨other, next, hother, hpassed, -⟩ := (@lifecycle_review_passed_iff _ _ _ _ _ _ true).mpr
      ⟨cap, rfl, hpasses⟩
    rw [h] at hother
    cases hother
    exact hpassed

/-- The verdict of a real review: the dry run's, where the signing key can be kept. -/
theorem approves_is_some_iff : (ctx.approves p principal uri).isSome = true ↔
    ctx.host.KeyLoads p true ∧ ∃ cap, ReviewPasses p ctx principal {} false uri cap := by
  constructor
  · intro h
    obtain ⟨target, htarget⟩ := Option.isSome_iff_exists.mp h
    obtain ⟨cap, -, hpasses⟩ := approves_eq_some_iff.mp htarget
    obtain ⟨hkey, hdry⟩ := review_passes_kept_iff.mp hpasses
    exact ⟨hkey, cap, hdry⟩
  · rintro ⟨hkey, cap, hpasses⟩
    exact Option.isSome_iff_exists.mpr
      ⟨cap.uri, approves_eq_some_iff.mpr ⟨cap, rfl, review_passes_kept_iff.mpr ⟨hkey, hpasses⟩⟩⟩

/-- Without a key that can be kept, no review takes a row out of a later page. -/
theorem swept_eq_eligible_of_no_key (h : ¬ ctx.host.KeyLoads p true) :
    ctx.swept p principal = ctx.eligible principal := by
  refine (sweep_eq_iff (show 0 < maxBatch by decide)).mpr fun i j key other _ _ _ happroves => ?_
  exact h (key_loads_of_approves (Option.isSome_iff_exists.mpr ⟨other, happroves⟩))

end

/-- The dry run predicts the approval exactly when every row it lists can be reviewed, and the signing
key can be kept or no row that the approval selects passes. -/
theorem dry_run_predicts_iff (p : Platform) (ctx : Reviewing) (principal : Principal)
    (maximum : Option Int) :
    DryRunPredicts p ctx principal maximum ↔
      (ctx.Authorizes p principal → ctx.WithinBound principal maximum →
        (∀ uri ∈ ctx.db.governedUris principal.lifecycleTenant, ctx.Reviewable p principal uri) ∧
        (ctx.host.KeyLoads p true ∨ ∀ uri ∈ ctx.eligible principal, ∀ cap,
          ¬ ReviewPasses p ctx principal {} false uri cap)) := by
  constructor
  · rintro ⟨hreturns, hagrees⟩ hauthorized hbound
    obtain ⟨check, reviews, hcheck, huris⟩ := hreturns hauthorized hbound
    obtain ⟨-, -, next, hitems⟩ := verify_catalog_ok hcheck
    refine ⟨(verify_items_returns_iff hauthorized).mp ⟨reviews, next, hitems⟩, ?_⟩
    by_cases hkey : ctx.host.KeyLoads p true
    · exact .inl hkey
    · refine .inr fun uri huri cap hpasses => ?_
      -- The row is on both lists; its dry run passes and its review does not.
      obtain ⟨report, items, last, happroval, hswept, hverdicts, -⟩ :=
        approve_catalog_spec true hauthorized
      rw [swept_eq_eligible_of_no_key hkey] at hswept
      have hreviewed := huri
      rw [← hswept] at hreviewed
      obtain ⟨item, hitem, rfl⟩ := List.mem_map.mp hreviewed
      have hentry := mem_governed_of_eligible huri
      rw [← huris] at hentry
      obtain ⟨entry, hentry, hsame⟩ := List.mem_map.mp hentry
      have hdry := (verify_items_ok hitems).2 entry hentry
      rw [hsame] at hdry
      have hpassed := hagrees _ _ _ _ _ hcheck happroval item hitem entry hentry hsame
      rw [(dry_passed_iff hdry).mpr ⟨cap, hpasses⟩, hverdicts item hitem] at hpassed
      exact hkey (approves_is_some_iff.mp hpassed.symm).1
  · intro h
    constructor
    · intro hauthorized hbound
      obtain ⟨reviews, next, hitems⟩ :=
        (verify_items_returns_iff hauthorized).mpr (h hauthorized hbound).1
      obtain ⟨check, hcheck⟩ := verify_catalog_returns hauthorized hbound hitems
      exact ⟨check, reviews, hcheck, (verify_items_ok hitems).1⟩
    · intro check reviews report items last hcheck happroval item hitem entry hentry hsame
      obtain ⟨hauthorized, hbound, next, hitems⟩ := verify_catalog_ok hcheck
      obtain ⟨-, hkey⟩ := h hauthorized hbound
      obtain ⟨report', items', last', hspec, hswept, hverdicts, -⟩ :=
        approve_catalog_spec true hauthorized
      rw [happroval] at hspec
      cases hspec
      have hdry := (verify_items_ok hitems).2 entry hentry
      rw [hsame] at hdry
      rw [hverdicts item hitem, Bool.eq_iff_iff, dry_passed_iff hdry, approves_is_some_iff]
      refine ⟨fun hpasses => ⟨?_, hpasses⟩, fun hreal => hreal.2⟩
      refine hkey.resolve_right fun hnone => ?_
      obtain ⟨cap, hpasses⟩ := hpasses
      have heligible : item.uri ∈ ctx.eligible principal := by
        refine sweep_sublist.subset (show item.uri ∈ ctx.swept p principal from ?_)
        rw [← hswept]
        exact List.mem_map_of_mem hitem
      exact hnone item.uri heligible cap hpasses

/-- One held skill ends the dry run of its catalog. -/
theorem dry_run_predicts_counterexample :
    ¬ ∀ (p : Platform) (ctx : Reviewing) (principal : Principal) (maximum : Option Int),
      DryRunPredicts p ctx principal maximum := by
  intro hclaim
  have hheld : ∀ ctx, ctx = (run (lifecycleStep notesPlatform .transparent)
        ⟨.empty, ⟨true, .key "k", true⟩⟩ [.hold (.ingest sourcedInput)]).reviewing notesHost →
      ctx.Authorizes notesPlatform platformAdmin ∧
        (ctx.db.governedUris platformAdmin.lifecycleTenant).length = 1 ∧
        (verifyCatalog notesPlatform ctx platformAdmin (some 10000)).isOk = false := by
    rintro ctx rfl
    decide +kernel
  obtain ⟨hauthorized, hlength, hraises⟩ := hheld _ rfl
  obtain ⟨check, reviews, hcheck, -⟩ := (hclaim _ _ _ (some 10000)).returns hauthorized
    ⟨10000, rfl, by decide, by decide, hlength.trans_le (by decide)⟩
  rw [hcheck] at hraises
  cases hraises

end Capmesh
