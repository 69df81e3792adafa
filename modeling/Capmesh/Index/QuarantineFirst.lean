import Capmesh.Index.Progress

/-!
# Quarantine before indexing

Whether everything an ingest newly indexes is held. The quarantine pass holds each
capability at its effective URI; the index pass writes it there too, except over an
approved promotion with the same canonical key, where it is carried over to the promoted
address. `ingest_quarantines_iff` says that this is the only way out: the guarantee holds
exactly when no changed capability is carried over to an address without a hold.
-/

namespace Capmesh

open Python Relational

/-- The guarantee of the quarantine pass: a row that is neither a system capability nor a draft and
whose URI and content were not in the catalog before is held and not served. -/
def QuarantinedBeforeIndexing (before after : Database) : Prop :=
  ∀ row ∈ after.capabilities, row.cap.isSystemOrDraft = false →
    (∀ old ∈ before.capabilities,
      ¬ (old.cap.uri = row.cap.uri ∧ old.cap.contentHash = row.cap.contentHash)) →
    capguardIsHeld after.quarantine row.cap = true ∧ Hidden after row

/-- A planned capability whose content differs from the approved promotion with its key, at an
address outside the plan without a hold on the new content. -/
def HoldEscapes (db : Database) (planned : List Capability) : Prop :=
  ∃ e ∈ planned, ∃ r ∈ db.capabilities, r.cap.isPromoted = true ∧
    r.cap.canonicalKey = e.canonicalKey ∧ r.cap.contentHash ≠ e.contentHash ∧
    (∀ d ∈ planned, d.uri ≠ r.cap.uri) ∧
    capguardIsHeld db.quarantine { e with uri := r.cap.uri } = false

section

variable {p : Platform} {input : IngestInput p} {db result held : Database}
variable {planned : List Capability} {changes : Changes} {counts : QuarantineCounts}
variable {e : Capability} {row : CapabilityRow}

theorem normalized_holds_added (hdb : db.Normalized) (h : HoldsAdded db held) :
    held.Normalized := by
  intro row hrow
  rw [h.capabilities] at hrow
  exact hdb row hrow

theorem planned_held (hquarantine : quarantineNewCapabilities p db input = (held, .ok counts))
    (hplan : plan p input db.capabilities = .ok planned) (he : e ∈ planned)
    (hnew : ¬ db.indexes e.uri e.contentHash = true) :
    capguardIsHeld held.quarantine e = true := by
  obtain ⟨-, htenant, -⟩ := (plan_ok hplan).filed e he
  obtain ⟨cap, hcap, metadata, rfl⟩ := plan_origin hplan he
  obtain ⟨q, hq, hholds⟩ := (quarantine_loop_ok (.refl db) hquarantine).2.2 counts rfl cap hcap
    ⟨(input.batch.discovered cap hcap).1, by simpa using hnew⟩
  refine (capguard_is_held_iff _).mpr ⟨q, hq, ?_⟩
  have hsame : p.tenantOr (orElse (effective p input.placement db.capabilities cap).tenantId "asg")
      = orElse (effective p input.placement db.capabilities cap).tenantId "asg" :=
    or_else_of_ne _ (or_else_ne _ (by decide))
  unfold Capability.HeldBy at hholds
  dsimp only at hholds
  rwa [hsame] at hholds

theorem held_before_of_unplanned (cap : Capability)
    (hquarantine : quarantineNewCapabilities p db input = (held, .ok counts))
    (hplan : plan p input db.capabilities = .ok planned)
    (hfree : ∀ d ∈ planned, d.uri ≠ cap.uri)
    (hheld : capguardIsHeld held.quarantine cap = true) :
    capguardIsHeld db.quarantine cap = true := by
  obtain ⟨q, hq, hholds⟩ := (capguard_is_held_iff _).mp hheld
  rcases (quarantine_loop_ok (.refl db) hquarantine).2.1 q hq with hq | ⟨source, hsource, -, hnew⟩
  · exact (capguard_is_held_iff _).mpr ⟨q, hq, hholds⟩
  · obtain ⟨d, hd, huri⟩ := merge_by_effective_uri_covers hplan
      (effective p input.placement db.capabilities source) (List.mem_map_of_mem hsource)
    exact absurd (huri.trans (hnew.2.1.symm.trans hholds.2.1)) (hfree d hd)

/-- An ingest holds everything it newly indexes exactly when no changed capability is carried over
to an address without a hold. -/
theorem ingest_quarantines_iff (hdb : db.Normalized)
    (h : ingest p db input = (result, .ok changes))
    (hplan : plan p input db.capabilities = .ok planned) :
    QuarantinedBeforeIndexing db result ↔ ¬ HoldEscapes db planned := by
  obtain ⟨held, counts, planned', final, removed, hquarantine, hadded, hplan', hindex, hdelete, -⟩ :=
    ingest_ok h
  cases hplan.symm.trans hplan'
  have hplanned := plan_ok hplan
  have hheldDb := normalized_holds_added hdb hadded
  obtain ⟨hprogress, hquarantineFinal⟩ := index_all_progress hplanned hheldDb hindex
  have hretired := delete_source_orphaned_ok hdelete
  have hquarantineResult : result.quarantine = held.quarantine := by
    rw [hretired.rest]
    exact hquarantineFinal
  constructor
  · rintro hguarantee ⟨e, he, r, hr, hpromoted, hkey, hhash, hfree, hunheld⟩
    have hrHeld : r ∈ held.capabilities := hadded.capabilities ▸ hr
    obtain ⟨before, next, row, -, -, hlanding, hprevious, hsettled⟩ := index_all_refreshes hplanned
      hheldDb hrHeld he hkey (fun d hd huri => absurd huri (hfree d hd)) hindex
    have hcolumns := hlanding.indexedColumns
    rw [hprevious] at hcolumns
    have huri : row.cap.uri = r.cap.uri := by
      rw [hcolumns.uri]
      simp [carryOver, hpromoted]
    have htenant : row.cap.tenantId = e.tenantId :=
      hcolumns.tenantId.trans (carry_over_source _ e).2.2.1
    have hkind : row.cap.isSystemOrDraft = false := by
      have hkind : row.cap.sourceKind = e.sourceKind :=
        hcolumns.sourceKind.trans (carry_over_source _ e).2.2.2
      simpa [Capability.isSystemOrDraft, hkind] using (hplanned.filed e he).2.2
    have hresult := (hretired.mem_iff row).mpr ⟨hsettled.mem, hsettled.not_orphan⟩
    -- The carried-over row is new: the only row of the start at its URI has other content.
    obtain ⟨hheldRow, -⟩ := hguarantee row hresult hkind fun old hold hsame => by
      rw [Database.eq_of_uri hold hr (hsame.1.trans huri), hlanding.contentHash] at hsame
      exact hhash hsame.2
    rw [hquarantineResult, capguard_is_held_congr (b := { e with uri := r.cap.uri }) htenant huri
      hlanding.contentHash] at hheldRow
    rw [held_before_of_unplanned { e with uri := r.cap.uri } hquarantine hplan hfree hheldRow]
      at hunheld
    cases hunheld
  · intro hescapes row hrow hkind hnew
    obtain ⟨hrowFinal, -⟩ := (hretired.mem_iff row).mp hrow
    suffices hheld : capguardIsHeld result.quarantine row.cap = true from
      ⟨hheld, hidden_of_held hheld⟩
    rw [hquarantineResult]
    rcases hprogress row hrowFinal with ⟨hstart, -⟩ | ⟨e, he, hlanded⟩
    · exact absurd ⟨rfl, rfl⟩ (hnew row (hadded.capabilities ▸ hstart))
    · rcases hlanded.address with huri | ⟨r, hr, hpromoted, hkey, huri, hfree⟩
      · rw [capguard_is_held_congr hlanded.tenantId huri hlanded.contentHash]
        refine planned_held hquarantine hplan he fun hindexes => ?_
        obtain ⟨old, hold, hsame⟩ := Database.indexes_iff.mp hindexes
        rw [← huri, ← hlanded.contentHash] at hsame
        exact hnew old hold hsame
      · have hr : r ∈ db.capabilities := hadded.capabilities ▸ hr
        by_contra hunheld
        refine hescapes ⟨e, he, r, hr, hpromoted, hkey, fun hhash => ?_, hfree, ?_⟩
        · exact hnew r hr ⟨huri.symm, hhash.trans hlanded.contentHash.symm⟩
        · by_contra hbefore
          obtain ⟨q, hq, hholds⟩ := (capguard_is_held_iff _).mp (by simpa using hbefore)
          refine hunheld ((capguard_is_held_iff _).mpr ⟨q, hadded.kept q hq, ?_⟩)
          rw [hlanded.tenantId, huri, hlanded.contentHash]
          exact hholds

end

/-- The batch of the notes skill alone. -/
def notesBatch (contentHash : String) (h : contentHash ≠ "") : Batch .sample :=
  .single (notesSkill contentHash) ⟨rfl, h, by simp [notesSkill]⟩ (Capability.unlisted rfl)

/-- An ingest of that skill without a manifest and without vectors. -/
def notesInput (contentHash : String) (h : contentHash ≠ "") : IngestInput .sample where
  batch := notesBatch contentHash h
  placement := []
  vectorEnabled := false
  embed _ _ := none
  ids n := "qtn_" ++ contentHash ++ "_" ++ toString n

/-- The skill after an approved promotion into the org namespace, as `approve_request` leaves it. -/
def promotedNotes : CapabilityRow where
  id := 1
  cap := { notesSkill "sha256:v1" with
    uri := "cap://org/asg/asg/shared/skill/notes.notes@0.1.0"
    storeId := some (orgStoreId .sample "asg")
    namespaceId := some (orgSharedNamespaceId .sample "asg")
    visibility := .protected, discoveryMode := .hidden, owner := "capmesh"
    createdBy := some "capmesh", submittedBy := some "capmesh"
    promotedFromUri := some (userNamespaceCapabilityUri .sample (notesSkill "sha256:v1"))
    approvalState := .approved, lifecycle := .published, riskReviewStatus := .approved
    signatureStatus := .pending, provenanceStatus := .pending }

/-- A catalog with the promoted skill alone. -/
def promotedCatalog : Database :=
  { Database.empty with
    capabilities := ⟨[promotedNotes], List.pairwise_singleton _ _⟩
    sources := ⟨[⟨promotedNotes.cap.sourcePath, promotedNotes.cap.uri, "skill", "asg-os.plugins",
      "sha256:v1"⟩], List.pairwise_singleton _ _⟩
    fts := ⟨[promotedNotes.cap.ftsRow 1], List.pairwise_singleton _ _⟩ }

theorem promoted_catalog_normalized : promotedCatalog.Normalized := by
  intro row hrow
  rw [List.mem_singleton.mp hrow]
  decide +kernel

/-- Whether some row is new, is neither a system capability nor a draft, and is not held. -/
def hasUnheldNewRow (before after : Database) : Bool :=
  after.capabilities.rows.any fun row =>
    !row.cap.isSystemOrDraft && !capguardIsHeld after.quarantine row.cap &&
      before.capabilities.rows.all fun old =>
        old.cap.uri ≠ row.cap.uri || old.cap.contentHash ≠ row.cap.contentHash

theorem not_quarantined_of_unheld {before after : Database}
    (h : hasUnheldNewRow before after = true) : ¬ QuarantinedBeforeIndexing before after := by
  intro hguarantee
  obtain ⟨row, hrow, hbad⟩ := List.any_eq_true.mp h
  simp only [Bool.and_eq_true, Bool.not_eq_true', List.all_eq_true, Bool.or_eq_true,
    decide_eq_true_eq, ne_eq] at hbad
  obtain ⟨⟨hkind, hunheld⟩, hnew⟩ := hbad
  have hheld := (hguarantee row hrow hkind fun old hold hsame =>
    (hnew old hold).elim (· hsame.1) (· hsame.2)).1
  rw [hunheld] at hheld
  cases hheld

/-- The content of a promoted skill changes: its hold is recorded at the private URI, and its row
is refreshed at the promoted one. -/
theorem ingest_carried_over_counterexample :
    ¬ ∀ (p : Platform) (input : IngestInput p) (db result : Database) (changes : Changes),
      db.Normalized → ingest p db input = (result, .ok changes) →
      QuarantinedBeforeIndexing db result := by
  intro hclaim
  have hok := ingest_of_changes (show
    (ingest .sample promotedCatalog (notesInput "sha256:v2" (by decide))).2.toOption =
      some ⟨0, 1, 0, 0, false, 0, 0, false⟩ by decide +kernel)
  exact not_quarantined_of_unheld (by decide +kernel)
    (hclaim _ _ _ _ _ promoted_catalog_normalized hok)

theorem ingest_quarantines_iff_first_ingest :
    QuarantinedBeforeIndexing .empty
      (ingest .sample .empty (notesInput "sha256:v1" (by decide))).1 := by
  have hok := ingest_of_changes (show
    (ingest .sample .empty (notesInput "sha256:v1" (by decide))).2.toOption =
      some ⟨1, 0, 0, 0, false, 0, 0, false⟩ by decide +kernel)
  obtain ⟨_, _, planned, _, _, _, _, hplan, _⟩ := ingest_ok hok
  refine (ingest_quarantines_iff (fun row hrow => by cases hrow) hok hplan).mpr ?_
  rintro ⟨e, -, r, hr, -⟩
  cases hr

end Capmesh
