import Mathlib.Data.String.Basic
import Capmesh.Execution.Paging
import Capmesh.Lifecycle.Review

/-!
# Approving a catalog

`review_batch` and `approve_catalog` of `lifecycle.py`. A batch selects a page of rows by one
predicate over the status columns, reviews each row under a savepoint, and hands on a cursor;
the approval reads page after page, counts the rows that a second predicate calls
non-compliant, and commits or rolls back. `approve_pages_sweep` is the refinement: the pages
are a sweep of the rows selected at the start, and what each review answers does not change
on the way. `approve_catalog_spec` says what the approval returns.
-/

namespace Capmesh

open Python Relational Execution

/-- One item of a batch: the URI of the row, and what its review returned. -/
structure ReviewItem where
  uri : String
  outcome : Except Failure Review

/-- Whether an item passed. -/
def ReviewItem.passed (item : ReviewItem) : Bool :=
  match item.outcome with
  | .ok review => review.passed
  | .error _ => false

/-- Whether an item approved a capability. -/
def ReviewItem.approved (item : ReviewItem) : Bool :=
  match item.outcome with
  | .ok review => review.approved
  | .error _ => false

/-- The arguments of `review_batch`. -/
structure BatchRequest where
  limit : Int := 100
  afterUri : String := ""
  dryRun : Bool := true
  includeApproved : Bool := false
  options : ReviewOptions := {}

/-- What `review_batch` returns. -/
structure BatchReview where
  items : List ReviewItem
  nextAfterUri : Option String

/-- `MAX_BATCH`. -/
def maxBatch : Nat := 500

/-- The tenant the lifecycle works in. -/
def Principal.lifecycleTenant (principal : Principal) : String := orElse principal.tenantId "asg"

/-- A capability of a tenant that is not a system capability. -/
def Capability.isGoverned (tenant : String) (cap : Capability) : Bool :=
  cap.tenantId = tenant && cap.sourceKind ≠ "system_capability"

/-- Whether a batch selects a capability. -/
def Capability.isSelected (tenant : String) (includeApproved : Bool) (cap : Capability) : Bool :=
  cap.isGoverned tenant &&
    if includeApproved then
      [.approved, .draft, .pending].contains cap.approvalState &&
        (cap.approvalState ≠ .approved || cap.signatureStatus ≠ .verified ||
          cap.provenanceStatus ≠ .verified || cap.riskReviewStatus ≠ .approved)
    else [.draft, .pending].contains cap.approvalState

/-- Whether the last count of `approve_catalog` passes a capability. -/
def Capability.isCompliant (cap : Capability) : Bool :=
  cap.approvalState = .approved && cap.lifecycle = .published && cap.signatureStatus = .verified &&
    cap.provenanceStatus = .verified && cap.riskReviewStatus = .approved

/-- The URIs a batch selects behind a cursor, in order. -/
def Database.selectedUris (db : Database) (tenant : String) (includeApproved : Bool)
    (after : String) : List String :=
  ((db.capabilities.rows.filter fun row =>
    row.cap.isSelected tenant includeApproved && after < row.cap.uri).map (·.cap.uri)).insertionSort
    (· ≤ ·)

/-- `_authorize`. -/
def authorize (p : Platform) (ctx : Reviewing) (principal : Principal) : Except Failure Unit :=
  let manage := ctx.access p principal "manage"
  let approve := ctx.access p principal "approve"
  if !manage.allowed then .error (.permission (orElse manage.reason "manage right required."))
  else if !approve.allowed then
    .error (.permission (orElse approve.reason "approve right required."))
  else .ok ()

/-- The loop body of `review_batch`: an item that raises is rolled back to its savepoint. -/
def reviewItem (p : Platform) (principal : Principal) (options : ReviewOptions) (dryRun : Bool)
    (ctx : Reviewing) (uri : String) : ReviewItem × Reviewing :=
  match lifecycleReview p ctx principal options uri dryRun with
  | .ok (review, next) => (⟨uri, .ok review⟩, next)
  | .error failure => (⟨uri, .error failure⟩, ctx)

/-- The loop of `review_batch`. -/
def reviewItems (p : Platform) (principal : Principal) (options : ReviewOptions) (dryRun : Bool) :
    Reviewing → List String → List ReviewItem × Reviewing
  | ctx, [] => ([], ctx)
  | ctx, uri :: uris =>
      let (item, next) := reviewItem p principal options dryRun ctx uri
      let (items, last) := reviewItems p principal options dryRun next uris
      (item :: items, last)

/-- `review_batch`. -/
def reviewBatch (p : Platform) (ctx : Reviewing) (principal : Principal) (request : BatchRequest) :
    Except Failure (BatchReview × Reviewing) := do
  authorize p ctx principal
  if request.limit < 1 || (maxBatch : Int) < request.limit then
    .error (.value "limit must be between 1 and 500.")
  else
    let limit := request.limit.toNat
    let rows := (ctx.db.selectedUris principal.lifecycleTenant request.includeApproved
      request.afterUri).take (limit + 1)
    let page := rows.take limit
    let (items, next) := reviewItems p principal request.options request.dryRun ctx page
    .ok (⟨items, if limit < rows.length then page.getLast? else none⟩, next)

/-- The page `approve_catalog` asks for. -/
def catalogPage (after : String) : BatchRequest :=
  { limit := maxBatch, afterUri := after, dryRun := false, includeApproved := true }

/-- The loop of `approve_catalog`; `none` means that the fuel, which counts pages, ran out. -/
def approvePages (p : Platform) (principal : Principal) :
    Nat → Reviewing → String → List ReviewItem →
      Option (Except Failure (List ReviewItem × Reviewing))
  | 0, _, _, _ => none
  | fuel + 1, ctx, after, items =>
      match reviewBatch p ctx principal (catalogPage after) with
      | .error failure => some (.error failure)
      | .ok (page, next) =>
          match page.nextAfterUri with
          | none => some (.ok (items ++ page.items, next))
          | some cursor =>
              if cursor = "" then some (.ok (items ++ page.items, next))
              else approvePages p principal fuel next cursor (items ++ page.items)

/-- The capabilities the last count of `approve_catalog` finds. -/
def Database.nonCompliant (db : Database) (tenant : String) : Nat :=
  (db.capabilities.rows.filter fun row => row.cap.isGoverned tenant && !row.cap.isCompliant).length

/-- What `approve_catalog` returns. -/
structure CatalogApproval where
  processed : Nat
  passed : Nat
  approved : Nat
  failed : Nat
  remainingNonCompliant : Nat
  catalogApproved : Bool
  failures : List ReviewItem
  failuresTruncated : Bool

/-- `approve_catalog` on a connection without an open transaction, with the items it reviewed. A
catalog that is not approved is rolled back; without `commit` the writes are left to the caller. -/
def approveCatalog (p : Platform) (ctx : Reviewing) (principal : Principal) (commit : Bool) :
    Option (Except Failure (CatalogApproval × List ReviewItem × Reviewing)) :=
  match authorize p ctx principal with
  | .error failure => some (.error failure)
  | .ok () =>
      match approvePages p principal (ctx.db.capabilities.rows.length + 1) ctx "" [] with
      | none => none
      | some (.error failure) => some (.error failure)
      | some (.ok (items, next)) =>
          let tenant := principal.lifecycleTenant
          let failures := items.filter (!·.passed)
          let approved := failures.length = 0 && next.db.nonCompliant tenant = 0
          let last := if commit && !approved then { next with db := ctx.db } else next
          some (.ok (
            { processed := items.length
              passed := (items.filter (·.passed)).length
              approved := (items.filter (·.approved)).length
              failed := failures.length
              remainingNonCompliant := last.db.nonCompliant tenant
              catalogApproved := approved
              failures := failures.take 100
              failuresTruncated := 100 < failures.length }, items, last))

/-- The URI a real review approves, where it passes. -/
def Reviewing.approvesWith (p : Platform) (ctx : Reviewing) (principal : Principal)
    (options : ReviewOptions) (identifier : String) : Option String :=
  match lifecycleReview p ctx principal options identifier false with
  | .ok (review, _) => if review.passed then some review.capabilityUri else none
  | .error _ => none

/-- The URI a catalog approval's review of a row approves, where it passes. -/
def Reviewing.approves (p : Platform) (ctx : Reviewing) (principal : Principal) (uri : String) :
    Option String :=
  ctx.approvesWith p principal {} uri

section

variable {p : Platform} {start ctx next : Reviewing} {principal : Principal}
variable {targets uris : List String} {uri tenant after : String} {items : List ReviewItem}
variable {options : ReviewOptions} {includeApproved : Bool} {cursor : String}

theorem approves_with_eq_some_iff {target : String} :
    ctx.approvesWith p principal options uri = some target ↔
      ∃ cap, cap.uri = target ∧ ReviewPasses p ctx principal options true uri cap := by
  have hpassed : (∃ review next,
        lifecycleReview p ctx principal options uri false = .ok (review, next) ∧
          review.passed = true ∧ review.capabilityUri = target) ↔
      ∃ cap, cap.uri = target ∧ ReviewPasses p ctx principal options true uri cap :=
    lifecycle_review_passed_iff
  rw [← hpassed]
  unfold Reviewing.approvesWith
  cases lifecycleReview p ctx principal options uri false with
  | error failure => simp
  | ok result =>
      obtain ⟨review, next⟩ := result
      cases hreview : review.passed <;> simp [hreview]

theorem approves_eq_some_iff {target : String} : ctx.approves p principal uri = some target ↔
    ∃ cap, cap.uri = target ∧ ReviewPasses p ctx principal {} true uri cap :=
  approves_with_eq_some_iff

/-- What a review answers stays the same while rows are reviewed. -/
theorem approves_reviewed (h : ReviewedFrom p start ctx targets) :
    ctx.approvesWith p principal options = start.approvesWith p principal options := by
  funext uri
  refine Option.ext fun target => ?_
  rw [approves_with_eq_some_iff, approves_with_eq_some_iff]
  exact review_passes_reviewed h

theorem authorize_eq_ok_iff : authorize p ctx principal = .ok () ↔ ctx.Authorizes p principal := by
  unfold authorize Reviewing.Authorizes
  dsimp only
  generalize ctx.access p principal "manage" = manage
  generalize ctx.access p principal "approve" = approve
  cases hmanage : manage.allowed <;> cases happrove : approve.allowed <;> simp

theorem authorizes_reviewed (h : ReviewedFrom p start ctx targets) :
    ctx.Authorizes p principal ↔ start.Authorizes p principal := by
  unfold Reviewing.Authorizes
  rw [access_reviewed h, access_reviewed h]

theorem review_item_step (principal : Principal) (options : ReviewOptions) (uri : String)
    (h : ReviewedFrom p start ctx targets) :
    (reviewItem p principal options false ctx uri).1.uri = uri ∧
      (reviewItem p principal options false ctx uri).1.passed =
        (start.approvesWith p principal options uri).isSome ∧
      ReviewedFrom p start (reviewItem p principal options false ctx uri).2
        (targets ++ (start.approvesWith p principal options uri).toList) := by
  rw [← approves_reviewed h]
  unfold reviewItem Reviewing.approvesWith
  cases hreview : lifecycleReview p ctx principal options uri false with
  | error failure => exact ⟨rfl, rfl, by simpa using h⟩
  | ok result =>
      obtain ⟨review, next⟩ := result
      have hstep := lifecycle_review_step h hreview
      cases hpassed : review.passed with
      | false =>
          exact ⟨rfl, by simp [ReviewItem.passed, hpassed], by simpa [hpassed] using hstep⟩
      | true =>
          exact ⟨rfl, by simp [ReviewItem.passed, hpassed], by simpa [hpassed] using hstep⟩

/-- The loop of a batch reviews every row of its page once, and approves what the reviews that
pass name. -/
theorem review_items_spec (principal : Principal) (options : ReviewOptions) (uris : List String)
    (h : ReviewedFrom p start ctx targets) :
    (reviewItems p principal options false ctx uris).1.map (·.uri) = uris ∧
      (∀ item ∈ (reviewItems p principal options false ctx uris).1,
        item.passed = (start.approvesWith p principal options item.uri).isSome) ∧
      ReviewedFrom p start (reviewItems p principal options false ctx uris).2
        (targets ++ uris.filterMap (start.approvesWith p principal options)) := by
  induction uris generalizing ctx targets with
  | nil => exact ⟨rfl, by simp [reviewItems], by simpa [reviewItems] using h⟩
  | cons uri uris ih =>
      obtain ⟨huri, hpassed, hnext⟩ := review_item_step principal options uri h
      obtain ⟨huris, hitems, hlast⟩ := ih hnext
      have hcons : reviewItems p principal options false ctx (uri :: uris) =
          ((reviewItem p principal options false ctx uri).1 ::
              (reviewItems p principal options false
                (reviewItem p principal options false ctx uri).2 uris).1,
            (reviewItems p principal options false
              (reviewItem p principal options false ctx uri).2 uris).2) := rfl
      rw [hcons]
      refine ⟨?_, ?_, ?_⟩
      · rw [List.map_cons, huri, huris]
      · intro item hitem
        rcases List.mem_cons.mp hitem with rfl | hitem
        · rw [hpassed, huri]
        · exact hitems item hitem
      · rw [List.append_assoc] at hlast
        rw [List.filterMap_cons]
        cases hanswer : start.approvesWith p principal options uri with
        | none => simpa [hanswer] using hlast
        | some target => simpa [hanswer] using hlast

/-- A dry run of a batch writes nothing. -/
theorem review_items_dry (principal : Principal) (options : ReviewOptions) (uris : List String) :
    (reviewItems p principal options true ctx uris).2 = ctx := by
  induction uris with
  | nil => rfl
  | cons uri uris ih =>
      have hitem : (reviewItem p principal options true ctx uri).2 = ctx := by
        unfold reviewItem
        cases hreview : lifecycleReview p ctx principal options uri true with
        | error failure => rfl
        | ok result => exact lifecycle_review_dry hreview
      show (reviewItems p principal options true
        (reviewItem p principal options true ctx uri).2 uris).2 = ctx
      rw [hitem, ih]

theorem mem_selected_uris {db : Database} :
    uri ∈ db.selectedUris tenant includeApproved after ↔ ∃ row ∈ db.capabilities,
      row.cap.isSelected tenant includeApproved = true ∧ after < row.cap.uri ∧
        row.cap.uri = uri := by
  unfold Database.selectedUris
  rw [List.mem_insertionSort, List.mem_map]
  simp only [List.mem_filter, Bool.and_eq_true, decide_eq_true_eq, Table.mem_rows, and_assoc]

theorem selected_uris_sorted {db : Database} :
    (db.selectedUris tenant includeApproved after).Pairwise (· < ·) := by
  have hnodup : (db.selectedUris tenant includeApproved after).Nodup := by
    unfold Database.selectedUris
    refine ((List.perm_insertionSort _ _).nodup_iff).mpr ?_
    refine List.pairwise_map.mpr ((db.capabilities.unique.filter _).imp fun hab huri => hab ?_)
    exact .inr (.inl huri)
  have hsorted : (db.selectedUris tenant includeApproved after).Pairwise (· ≤ ·) :=
    List.pairwise_insertionSort _ _
  exact (hsorted.and hnodup).imp fun h => lt_of_le_of_ne h.1 h.2

theorem reviewed_compliant (cap : Capability) : cap.reviewed.isCompliant = true := rfl

theorem reviewed_in_governed {cap : Capability} :
    (cap.reviewedIn targets).isGoverned tenant = cap.isGoverned tenant := by
  unfold Capability.reviewedIn
  split <;> rfl

theorem reviewed_in_selected {cap : Capability} :
    (cap.reviewedIn targets).isSelected tenant true = true ↔
      cap.isSelected tenant true = true ∧ cap.uri ∉ targets := by
  unfold Capability.reviewedIn
  by_cases htarget : cap.uri ∈ targets
  · simp [htarget, Capability.isSelected, Capability.reviewed]
  · simp [htarget]

/-- The rows selected behind a cursor while rows are reviewed. -/
theorem mem_selected_reviewed (h : ReviewedFrom p start ctx targets) :
    uri ∈ ctx.db.selectedUris tenant true after ↔
      uri ∈ start.db.selectedUris tenant true after ∧ uri ∉ targets := by
  rw [mem_selected_uris, mem_selected_uris]
  constructor
  · rintro ⟨row, hrow, hselected, hafter, rfl⟩
    rw [← Table.mem_rows, h.rows] at hrow
    obtain ⟨before, hbefore, rfl⟩ := List.mem_map.mp hrow
    obtain ⟨hselected, hfree⟩ := reviewed_in_selected.mp hselected
    have huri : (before.reviewedIn targets).cap.uri = before.cap.uri := reviewed_in_uri
    rw [huri] at hafter ⊢
    exact ⟨⟨before, hbefore, hselected, hafter, rfl⟩, hfree⟩
  · rintro ⟨⟨row, hrow, hselected, hafter, rfl⟩, hfree⟩
    refine ⟨row.reviewedIn targets, ?_, reviewed_in_selected.mpr ⟨hselected, hfree⟩, ?_,
      reviewed_in_uri⟩
    · rw [← Table.mem_rows, h.rows]
      exact List.mem_map_of_mem hrow
    · rw [show (row.reviewedIn targets).cap.uri = row.cap.uri from reviewed_in_uri]
      exact hafter

theorem mem_selected_beyond {db : Database} (hafter : after < cursor) :
    uri ∈ db.selectedUris tenant includeApproved cursor ↔
      uri ∈ db.selectedUris tenant includeApproved after ∧ cursor < uri := by
  rw [mem_selected_uris, mem_selected_uris]
  constructor
  · rintro ⟨row, hrow, hselected, hcursor, rfl⟩
    exact ⟨⟨row, hrow, hselected, hafter.trans hcursor, rfl⟩, hcursor⟩
  · rintro ⟨⟨row, hrow, hselected, -, rfl⟩, hcursor⟩
    exact ⟨row, hrow, hselected, hcursor, rfl⟩

theorem selected_next_page (h : ReviewedFrom p start ctx targets) (hcursor :
    ((ctx.db.selectedUris tenant true after).take maxBatch).getLast? = some cursor)
    (hnext : ReviewedFrom p start next (targets ++
      ((ctx.db.selectedUris tenant true after).take maxBatch).filterMap
        (start.approves p principal))) :
    next.db.selectedUris tenant true cursor =
      leftBehind maxBatch (start.approves p principal)
        (ctx.db.selectedUris tenant true after) := by
  have hsorted : (ctx.db.selectedUris tenant true after).Pairwise (· < ·) := selected_uris_sorted
  have hafter : after < cursor := by
    obtain ⟨row, -, -, hafter, rfl⟩ := mem_selected_uris.mp
      (List.mem_of_mem_take (List.mem_of_getLast? hcursor))
    exact hafter
  refine List.Pairwise.eq_of_mem_iff selected_uris_sorted
    (hsorted.sublist (left_behind_sublist.trans (List.drop_sublist _ _))) fun uri => ?_
  unfold leftBehind
  rw [mem_selected_reviewed hnext, mem_selected_beyond hafter, List.mem_filter,
    mem_drop_iff_lt hsorted hcursor, mem_selected_reviewed h]
  have hhit : uri ∈ ((ctx.db.selectedUris tenant true after).take maxBatch).filterMap
        (start.approves p principal) ↔
      ∃ handled ∈ (ctx.db.selectedUris tenant true after).take maxBatch,
        start.approves p principal handled = some uri := List.mem_filterMap
  rw [List.mem_append, hhit]
  simp only [Bool.not_eq_true', List.any_eq_false, decide_eq_true_eq]
  grind

/-- The selected rows of a catalog from the first cursor on. -/
def Reviewing.eligible (ctx : Reviewing) (principal : Principal) : List String :=
  ctx.db.selectedUris principal.lifecycleTenant true ""

theorem review_batch_eq {request : BatchRequest} (hauthorized : ctx.Authorizes p principal)
    (hlow : 1 ≤ request.limit) (hhigh : request.limit ≤ maxBatch) {rows : List String}
    (hrows : ctx.db.selectedUris principal.lifecycleTenant request.includeApproved
      request.afterUri = rows) :
    reviewBatch p ctx principal request = .ok
      (⟨(reviewItems p principal request.options request.dryRun ctx
          (rows.take request.limit.toNat)).1,
        if request.limit.toNat < rows.length then (rows.take request.limit.toNat).getLast?
        else none⟩,
        (reviewItems p principal request.options request.dryRun ctx
          (rows.take request.limit.toNat)).2) := by
  have hlimit : ¬ ((request.limit < 1 || (maxBatch : Int) < request.limit) = true) := by
    simp only [Bool.or_eq_true, decide_eq_true_eq]
    omega
  have hcount : request.limit.toNat < (rows.take (request.limit.toNat + 1)).length ↔
      request.limit.toNat < rows.length := by
    rw [List.length_take]
    omega
  unfold reviewBatch
  rw [authorize_eq_ok_iff.mpr hauthorized]
  simp only [bind, Except.bind, if_neg hlimit, hrows, List.take_take, hcount,
    Nat.min_eq_left (Nat.le_succ request.limit.toNat)]

theorem ne_empty_of_lt (h : after < cursor) : cursor ≠ "" := by
  rintro rfl
  exact absurd (String.lt_iff_toList_lt.mp h) (List.not_lt_nil _)

theorem approve_pages_sweep {fuel : Nat} (hauthorized : start.Authorizes p principal)
    (h : ReviewedFrom p start ctx targets)
    (hfuel : (ctx.db.selectedUris principal.lifecycleTenant true after).length < fuel) :
    ∃ more last, approvePages p principal fuel ctx after items = some (.ok (items ++ more, last)) ∧
      more.map (·.uri) = sweep maxBatch (start.approves p principal)
        (ctx.db.selectedUris principal.lifecycleTenant true after) ∧
      (∀ item ∈ more, item.passed = (start.approves p principal item.uri).isSome) ∧
      ReviewedFrom p start last (targets ++
        (more.map (·.uri)).filterMap (start.approves p principal)) := by
  have hsize : 0 < maxBatch := by decide
  induction fuel generalizing ctx targets after items with
  | zero => omega
  | succ fuel ih =>
      generalize hrows : ctx.db.selectedUris principal.lifecycleTenant true after = rows at hfuel
      obtain ⟨huris, hpassed, hnext⟩ := review_items_spec principal {} (rows.take maxBatch) h
      have hpage : reviewBatch p ctx principal (catalogPage after) = .ok
          (⟨(reviewItems p principal {} false ctx (rows.take maxBatch)).1,
            if maxBatch < rows.length then (rows.take maxBatch).getLast? else none⟩,
            (reviewItems p principal {} false ctx (rows.take maxBatch)).2) :=
        review_batch_eq ((authorizes_reviewed h).mpr hauthorized)
          (show (1 : Int) ≤ maxBatch by decide) (le_refl (maxBatch : Int)) hrows
      unfold approvePages
      rw [hpage, sweep_eq hsize]
      clear hpage
      generalize reviewItems p principal {} false ctx (rows.take maxBatch) = page at *
      obtain ⟨reviewed, next⟩ := page
      dsimp only at huris hpassed hnext ⊢
      by_cases hmore : maxBatch < rows.length
      · -- The page is full, so its last row is the cursor.
        obtain ⟨cursor, hcursor⟩ : ∃ cursor, (rows.take maxBatch).getLast? = some cursor := by
          cases hlast : (rows.take maxBatch).getLast? with
          | some cursor => exact ⟨cursor, rfl⟩
          | none =>
              rw [List.getLast?_eq_none_iff, List.take_eq_nil_iff] at hlast
              rcases hlast with hlast | rfl
              · cases hlast
              · simp at hmore
        have hnonempty : cursor ≠ "" := by
          have hmem := List.mem_of_mem_take (List.mem_of_getLast? hcursor)
          rw [← hrows] at hmem
          obtain ⟨row, -, -, hafter, rfl⟩ := mem_selected_uris.mp hmem
          exact ne_empty_of_lt hafter
        subst hrows
        have hleft := selected_next_page h hcursor hnext
        have hshorter := length_left_behind (start.approves p principal) hsize
          (List.ne_nil_of_length_pos (by omega) :
            ctx.db.selectedUris principal.lifecycleTenant true after ≠ [])
        obtain ⟨more, last, hpages, hmap, hitems, hlast⟩ :=
          @ih _ _ _ (items ++ reviewed) hnext (by rw [hleft]; omega)
        rw [if_pos hmore, hcursor]
        refine ⟨reviewed ++ more, last, ?_, ?_, ?_, ?_⟩
        · simp only [if_neg hnonempty]
          rw [hpages, List.append_assoc]
        · rw [List.map_append, huris, hmap, hleft]
        · intro item hitem
          rcases List.mem_append.mp hitem with hitem | hitem
          · exact hpassed item hitem
          · exact hitems item hitem
        · rw [List.map_append, List.filterMap_append, huris, ← List.append_assoc]
          exact hlast
      · have hall : rows.take maxBatch = rows := List.take_of_length_le (by omega)
        have hnothing : leftBehind maxBatch (start.approves p principal) rows = [] := by
          unfold leftBehind
          rw [List.drop_of_length_le (by omega)]
          rfl
        rw [if_neg hmore, hnothing]
        rw [hall] at huris hnext ⊢
        refine ⟨reviewed, next, rfl, ?_, hpassed, ?_⟩
        · rw [huris]
          simp [sweep, sweepFrom]
        · rw [huris]
          exact hnext

end

/-- The rows a catalog approval reviews, in order. -/
def Reviewing.swept (p : Platform) (ctx : Reviewing) (principal : Principal) : List String :=
  sweep maxBatch (ctx.approves p principal) (ctx.eligible principal)

/-- What lets a catalog approval succeed: every review it makes passes, and every capability of
the tenant is compliant or named by a review. -/
structure Reviewing.Approvable (p : Platform) (ctx : Reviewing) (principal : Principal) : Prop where
  passes : ∀ uri ∈ ctx.swept p principal, (ctx.approves p principal uri).isSome = true
  covers : ∀ row ∈ ctx.db.capabilities, row.cap.isGoverned principal.lifecycleTenant = true →
    row.cap.isCompliant = true ∨ ∃ uri ∈ ctx.swept p principal,
      ctx.approves p principal uri = some row.cap.uri

section

variable {p : Platform} {start ctx next : Reviewing} {principal : Principal} {commit : Bool}
variable {targets : List String} {tenant : String}

theorem length_eligible_le : (ctx.eligible principal).length ≤ ctx.db.capabilities.rows.length := by
  unfold Reviewing.eligible Database.selectedUris
  rw [List.length_insertionSort, List.length_map]
  exact List.length_filter_le _ _

theorem non_compliant_eq_zero_iff (h : ReviewedFrom p start ctx targets) :
    ctx.db.nonCompliant tenant = 0 ↔ ∀ row ∈ start.db.capabilities,
      row.cap.isGoverned tenant = true → row.cap.isCompliant = true ∨ row.cap.uri ∈ targets := by
  have hcompliant : ∀ cap : Capability, (cap.reviewedIn targets).isCompliant = true ↔
      cap.isCompliant = true ∨ cap.uri ∈ targets := by
    intro cap
    unfold Capability.reviewedIn
    by_cases htarget : cap.uri ∈ targets <;> simp [htarget, reviewed_compliant]
  unfold Database.nonCompliant
  rw [List.length_eq_zero_iff, List.filter_eq_nil_iff, h.rows, List.forall_mem_map]
  refine forall_congr' fun row => forall_congr' fun _ => ?_
  have hgoverned : (row.reviewedIn targets).cap.isGoverned tenant = row.cap.isGoverned tenant :=
    reviewed_in_governed
  have hrow : (row.reviewedIn targets).cap.isCompliant = true ↔
      row.cap.isCompliant = true ∨ row.cap.uri ∈ targets := hcompliant row.cap
  rw [hgoverned, ← hrow]
  cases row.cap.isGoverned tenant <;> simp

/-- An authorized catalog approval returns. It reviewed the rows it swept, approves the catalog
exactly when the catalog is approvable, and keeps its reviews or the database it started from. -/
theorem approve_catalog_spec (commit : Bool) (hauthorized : ctx.Authorizes p principal) :
    ∃ report items next, approveCatalog p ctx principal commit = some (.ok (report, items,
        if commit && !report.catalogApproved then { next with db := ctx.db } else next)) ∧
      items.map (·.uri) = ctx.swept p principal ∧
      (∀ item ∈ items, item.passed = (ctx.approves p principal item.uri).isSome) ∧
      ReviewedFrom p ctx next
        ((ctx.swept p principal).filterMap (ctx.approves p principal)) ∧
      (report.catalogApproved = true ↔ ctx.Approvable p principal) := by
  have hfuel : (ctx.db.selectedUris principal.lifecycleTenant true "").length <
      ctx.db.capabilities.rows.length + 1 := Nat.lt_succ_of_le length_eligible_le
  obtain ⟨items, next, hpages, huris, hpassed, hnext⟩ :=
    @approve_pages_sweep _ _ _ _ _ _ [] _ hauthorized (ReviewedFrom.refl ctx) hfuel
  rw [List.nil_append] at hpages hnext
  have hswept : items.map (·.uri) = ctx.swept p principal := huris
  rw [hswept] at hnext
  have hfailures : (items.filter (!·.passed)).length = 0 ↔
      ∀ uri ∈ ctx.swept p principal, (ctx.approves p principal uri).isSome = true := by
    rw [List.length_eq_zero_iff, List.filter_eq_nil_iff, ← hswept, List.forall_mem_map]
    refine forall_congr' fun item => forall_congr' fun hitem => ?_
    rw [hpassed item hitem]
    cases ctx.approves p principal item.uri <;> simp
  have hcovers : next.db.nonCompliant principal.lifecycleTenant = 0 ↔
      ∀ row ∈ ctx.db.capabilities, row.cap.isGoverned principal.lifecycleTenant = true →
        row.cap.isCompliant = true ∨ ∃ uri ∈ ctx.swept p principal,
          ctx.approves p principal uri = some row.cap.uri := by
    rw [non_compliant_eq_zero_iff hnext]
    simp only [List.mem_filterMap]
  unfold approveCatalog
  rw [authorize_eq_ok_iff.mpr hauthorized]
  simp only [hpages]
  refine ⟨_, items, next, rfl, hswept, hpassed, hnext, ?_⟩
  simp only [Bool.and_eq_true, decide_eq_true_eq, hfailures, hcovers]
  exact ⟨fun h => ⟨h.1, h.2⟩, fun h => ⟨h.passes, h.covers⟩⟩

/-- A catalog approval that is refused returns nothing else. -/
theorem approve_catalog_refused (hrefused : ¬ ctx.Authorizes p principal) :
    ∃ failure, approveCatalog p ctx principal commit = some (.error failure) := by
  unfold approveCatalog
  cases hauthorize : authorize p ctx principal with
  | error failure => exact ⟨failure, rfl⟩
  | ok granted => exact absurd (authorize_eq_ok_iff.mp hauthorize) hrefused

end

end Capmesh
