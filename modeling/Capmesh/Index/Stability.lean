import Capmesh.Execution.Run
import Capmesh.Index.QuarantineFirst

/-!
# Stable addresses

Whether the row of a canonical key stays at its URI, store and namespace while ingests
rediscover it. `ingest_keeps_address` is the step: the row of a key stays when it is an
approved promotion, or when the plan files the capability at the row's own address.
`address_stable` is the run. A content change resets `approved` to `pending`, so the first
case does not survive it: the next ingest migrates the row.
-/

namespace Capmesh

open Python Relational Execution

/-- The catalog after an ingest, successful or not. -/
def ingestStep (p : Platform) (db : Database) (input : IngestInput p) : Database :=
  (ingest p db input).1

/-- Some row has this key and this address. -/
def Database.Files (db : Database) (row : CapabilityRow) : Prop :=
  ∃ current ∈ db.capabilities, current.cap.canonicalKey = row.cap.canonicalKey ∧
    current.cap.uri = row.cap.uri ∧ current.cap.storeId = row.cap.storeId ∧
    current.cap.namespaceId = row.cap.namespaceId

/-- An ingest that leaves the row of a key at its address: the key is in the plan, no other
planned capability has the row's URI, and the row is an approved promotion or the plan files the
capability where the row is. -/
def KeepsAddress (p : Platform) (key : String) (db : Database) (input : IngestInput p) : Prop :=
  ∀ row ∈ db.capabilities, row.cap.canonicalKey = key →
    ∀ planned, plan p input db.capabilities = .ok planned →
      ∃ e ∈ planned, e.canonicalKey = key ∧ (∀ d ∈ planned, d.uri = row.cap.uri → d = e) ∧
        (row.cap.isPromoted = true ∨ (e.uri = row.cap.uri ∧ e.storeId = row.cap.storeId ∧
          e.namespaceId = row.cap.namespaceId))

section

variable {p : Platform} {input : IngestInput p} {db : Database} {row : CapabilityRow}

theorem ingest_normalized (hdb : db.Normalized) : (ingestStep p db input).Normalized := by
  unfold ingestStep
  cases houtcome : ingest p db input with
  | mk result outcome =>
      cases outcome with
      | error failure => exact normalized_holds_added hdb (ingest_error houtcome)
      | ok changes =>
          obtain ⟨held, _, planned, final, removed, _, hadded, hplan, hindex, hdelete, _⟩ :=
            ingest_ok houtcome
          have hfinal := (index_all_rule (motive := fun _ _ => True) (plan_ok hplan)
            (normalized_holds_added hdb hadded) trivial
            (fun _ _ _ _ _ _ _ _ _ _ _ => trivial) hindex).2
          intro x hx
          exact hfinal x (((delete_source_orphaned_ok hdelete).mem_iff x).mp hx).1

theorem ingest_keeps_address (hdb : db.Normalized) (hrow : row ∈ db.capabilities)
    (hkeeps : KeepsAddress p row.cap.canonicalKey db input) :
    (ingestStep p db input).Files row := by
  unfold ingestStep
  cases houtcome : ingest p db input with
  | mk result outcome =>
      cases outcome with
      | error failure =>
          have hadded := ingest_error houtcome
          exact ⟨row, by rw [hadded.capabilities]; exact hrow, rfl, rfl, rfl, rfl⟩
      | ok changes =>
          obtain ⟨held, _, planned, final, removed, _, hadded, hplan, hindex, hdelete, _⟩ :=
            ingest_ok houtcome
          obtain ⟨e, he, hkey, hfree, haddress⟩ := hkeeps row hrow rfl planned hplan
          have hrowHeld : row ∈ held.capabilities := hadded.capabilities ▸ hrow
          obtain ⟨before, next, landed, -, -, hlanding, hprevious, hsettled⟩ :=
            index_all_refreshes (plan_ok hplan) (normalized_holds_added hdb hadded) hrowHeld he
              hkey.symm hfree hindex
          have hcolumns := hlanding.indexedColumns
          rw [hprevious] at hcolumns
          refine ⟨landed, ((delete_source_orphaned_ok hdelete).mem_iff landed).mpr
            ⟨hsettled.mem, hsettled.not_orphan⟩, hlanding.canonicalKey.trans hkey, ?_⟩
          rw [hcolumns.uri, hcolumns.storeId, hcolumns.namespaceId]
          simp only [carryOver]
          split
          · exact ⟨rfl, rfl, rfl⟩
          · rename_i hpromoted
            exact haddress.resolve_left hpromoted

/-- Over every sequence of ingests that each keep the address of the key, the row of the key stays
at its URI, store and namespace. -/
theorem address_stable (inputs : List (IngestInput p)) (hdb : db.Normalized)
    (hrow : row ∈ db.capabilities)
    (halong : Along (ingestStep p) (KeepsAddress p row.cap.canonicalKey) db inputs) :
    (run (ingestStep p) db inputs).Files row := by
  have hinvariant : (run (ingestStep p) db inputs).Normalized ∧
      (run (ingestStep p) db inputs).Files row := by
    refine run_invariant_along (I := fun db => db.Normalized ∧ db.Files row) ?_ halong
      ⟨hdb, row, hrow, rfl, rfl, rfl, rfl⟩
    rintro current input hkeeps ⟨hcurrent, found, hfound, hkey, huri, hstore, hnamespace⟩
    refine ⟨ingest_normalized hcurrent, ?_⟩
    obtain ⟨next, hnext, hnextKey, hnextUri, hnextStore, hnextNamespace⟩ :=
      ingest_keeps_address hcurrent hfound (hkey ▸ hkeeps)
    exact ⟨next, hnext, hnextKey.trans hkey, hnextUri.trans huri, hnextStore.trans hstore,
      hnextNamespace.trans hnamespace⟩
  exact hinvariant.2

end

/-- Whether some row has this key and this address. -/
def filesRow (db : Database) (row : CapabilityRow) : Bool :=
  db.capabilities.rows.any fun current =>
    current.cap.canonicalKey = row.cap.canonicalKey && current.cap.uri = row.cap.uri &&
      current.cap.storeId = row.cap.storeId && current.cap.namespaceId = row.cap.namespaceId

theorem files_row_iff {db : Database} {row : CapabilityRow} :
    filesRow db row = true ↔ db.Files row := by
  simp [filesRow, Database.Files, and_assoc]

/-- Two changes of content after an approved promotion: the first leaves the row `pending`, the
second moves it back to the private namespace. -/
theorem address_drift_counterexample :
    ¬ ∀ (p : Platform) (inputs : List (IngestInput p)) (db : Database) (row : CapabilityRow),
      db.Normalized → row ∈ db.capabilities → row.cap.isPromoted = true →
      (startsWith row.cap.uri "cap://org/" = true ∨ startsWith row.cap.uri "cap://all/" = true) →
      (∀ input ∈ inputs, ∃ cap ∈ input.batch.capabilities,
        cap.canonicalKey = row.cap.canonicalKey) →
      (run (ingestStep p) db inputs).Files row := by
  intro hclaim
  have hfiles := hclaim .sample
    [notesInput "sha256:v2" (by decide), notesInput "sha256:v3" (by decide)] promotedCatalog
    promotedNotes promoted_catalog_normalized List.mem_cons_self (by decide +kernel)
    (.inl (by decide +kernel)) ?_
  · rw [← files_row_iff] at hfiles
    revert hfiles
    decide +kernel
  · intro input hinput
    simp only [List.mem_cons, List.not_mem_nil, or_false] at hinput
    rcases hinput with rfl | rfl
    · exact ⟨_, List.mem_cons_self, rfl⟩
    · exact ⟨_, List.mem_cons_self, rfl⟩

theorem address_stable_first_change :
    (run (ingestStep .sample) promotedCatalog [notesInput "sha256:v2" (by decide)]).Files
      promotedNotes := by
  refine address_stable _ promoted_catalog_normalized List.mem_cons_self ⟨?_, trivial⟩
  intro row hrow _ planned hplan
  cases (merge_by_effective_uri_singleton _).symm.trans hplan
  rw [List.mem_singleton.mp hrow]
  refine ⟨_, List.mem_cons_self, ?_, fun d hd _ => List.mem_singleton.mp hd, .inl ?_⟩
  · exact (effective_source _ _ _ _).1
  · decide +kernel

end Capmesh
