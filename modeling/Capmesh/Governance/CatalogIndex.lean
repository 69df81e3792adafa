import Capmesh.Governance.Drafts
import Capmesh.Governance.References
import Capmesh.Index.Rebuild

/-!
# The catalog and its index

Five writers keep `capability_fts` and `capability_sources` in step with `capabilities`:
ingest, the creation and the update of drafts, approval, and the normalization of
namespaces. `Database.Follows` is the invariant, with a URI at which the full-text row may
lag: a migration renames the row and leaves its full-text row to the upsert that comes
next. `catalog_index_invariant` proves it of every run.
-/

namespace Capmesh

open Python Relational Execution

/-- No full-text row is without a capability. -/
def Database.Backed (db : Database) : Prop :=
  ∀ fts ∈ db.fts, ∃ row ∈ db.capabilities, row.id = fts.rowid

/-- The index follows the catalog: each row has a full-text row with its id and, unless it is at
the URI that lags, with its URI; each full-text row has a row; each source has the row of its
URI. -/
structure Database.Follows (db : Database) (lagging : Option String) : Prop where
  text : ∀ row ∈ db.capabilities, ∃ fts ∈ db.fts, fts.rowid = row.id ∧
    (lagging ≠ some row.cap.uri → fts.uri = row.cap.uri)
  backed : db.Backed
  owned : ∀ source ∈ db.sources, ∃ row ∈ db.capabilities, row.cap.uri = source.uri

/-- The catalog index: one full-text row for each capability, with its id and URI, none without a
capability, and each source path at one URI of the catalog. -/
structure Database.CatalogIndexed (db : Database) : Prop where
  text : ∀ row ∈ db.capabilities, ∃ fts ∈ db.fts, fts.rowid = row.id ∧ fts.uri = row.cap.uri ∧
    ∀ other ∈ db.fts, other.rowid = row.id ∨ other.uri = row.cap.uri → other = fts
  backed : ∀ fts ∈ db.fts, ∃ row ∈ db.capabilities, row.id = fts.rowid ∧ row.cap.uri = fts.uri
  owned : ∀ source ∈ db.sources, (∃ row ∈ db.capabilities, row.cap.uri = source.uri) ∧
    ∀ other ∈ db.sources, other.sourcePath = source.sourcePath → other = source

section

variable {p : Platform} {db result moved : Database} {row : CapabilityRow} {cap : Capability}
variable {lagging : Option String} {id : Nat} {input : IngestInput p} {changed : Nat}

/-- A full-text row has the URI of its capability. -/
theorem Database.Follows.uri {fts : FtsRow} (h : db.Follows none) (hfts : fts ∈ db.fts)
    (hrow : row ∈ db.capabilities) (hid : row.id = fts.rowid) : fts.uri = row.cap.uri := by
  obtain ⟨other, hother, hotherId, hotherUri⟩ := h.text row hrow
  rw [Table.eq_of_conflict hfts hother (hid.symm.trans hotherId.symm)]
  exact hotherUri (by simp)

theorem Database.Follows.catalogIndexed (h : db.Follows none) : db.CatalogIndexed where
  text row hrow := by
    obtain ⟨fts, hfts, hid, huri⟩ := h.text row hrow
    refine ⟨fts, hfts, hid, huri (by simp), fun other hother hsame => ?_⟩
    refine Table.eq_of_conflict hother hfts ?_
    rcases hsame with hsame | hsame
    · exact hsame.trans hid.symm
    · obtain ⟨found, hfound, hfoundId⟩ := h.backed other hother
      have hsameRow := Database.eq_of_uri hfound hrow
        ((h.uri hother hfound hfoundId).symm.trans hsame)
      exact hfoundId.symm.trans ((congrArg CapabilityRow.id hsameRow).trans hid.symm)
  backed fts hfts := by
    obtain ⟨row, hrow, hid⟩ := h.backed fts hfts
    exact ⟨row, hrow, hid, (h.uri hfts hrow hid).symm⟩
  owned source hsource :=
    ⟨h.owned source hsource, fun _ hother hpath => Table.eq_of_conflict hother hsource hpath⟩

/-- Only the three tables matter. -/
theorem Database.Follows.congr {other : Database} (h : db.Follows lagging)
    (hcapabilities : other.capabilities = db.capabilities) (hfts : other.fts = db.fts)
    (hsources : other.sources = db.sources) : other.Follows lagging := by
  refine ⟨?_, ?_, ?_⟩
  · rw [hcapabilities, hfts]
    exact h.text
  · unfold Database.Backed
    rw [hcapabilities, hfts]
    exact h.backed
  · rw [hcapabilities, hsources]
    exact h.owned

/-- A change of columns that keeps the ids and the URIs. -/
theorem Database.Follows.amend {other : Database} {change : CapabilityRow → CapabilityRow}
    (h : db.Follows lagging)
    (hcapabilities : ∀ x, x ∈ other.capabilities ↔ ∃ y ∈ db.capabilities, change y = x)
    (hchange : ∀ y, (change y).id = y.id ∧ (change y).cap.uri = y.cap.uri)
    (hfts : other.fts = db.fts) (hsources : other.sources = db.sources) :
    other.Follows lagging := by
  have hmem : ∀ {y}, y ∈ db.capabilities → change y ∈ other.capabilities :=
    fun hy => (hcapabilities _).mpr ⟨_, hy, rfl⟩
  refine ⟨fun row hrow => ?_, fun fts hmemFts => ?_, fun source hsource => ?_⟩
  · obtain ⟨y, hy, rfl⟩ := (hcapabilities row).mp hrow
    rw [hfts, (hchange y).1, (hchange y).2]
    exact h.text y hy
  · rw [hfts] at hmemFts
    obtain ⟨y, hy, hid⟩ := h.backed fts hmemFts
    exact ⟨change y, hmem hy, (hchange y).1.trans hid⟩
  · rw [hsources] at hsource
    obtain ⟨y, hy, huri⟩ := h.owned source hsource
    exact ⟨change y, hmem hy, (hchange y).2.trans huri⟩

/-- What an upsert leaves: one row at its URI, with the id that no other row has, and every other
row as it was. -/
structure UpsertedRow (before after : Table CapabilityRow) (target : Capability) (id : Nat) :
    Prop where
  written : ∃ row ∈ after, row.id = id ∧ row.cap.uri = target.uri
  mem : ∀ x ∈ after, x.id = id ∧ x.cap.uri = target.uri ∨ x ∈ before ∧ x.cap.uri ≠ target.uri
  kept : ∀ x ∈ before, x.cap.uri ≠ target.uri → x ∈ after
  id_iff : ∀ x ∈ before, x.id = id ↔ x.cap.uri = target.uri

theorem upserted_row {target : Capability} {table : Table CapabilityRow}
    (hwrite : writeRow db target = .ok (id, table)) :
    UpsertedRow db.capabilities table target id := by
  obtain ⟨hmem, hat, hfresh⟩ := write_row_ok hwrite
  refine ⟨⟨_, (hmem _).mpr (.inl rfl), rfl, written_uri _ target⟩, fun x hx => ?_,
    fun x hx huri => (hmem x).mpr (.inr ⟨hx, huri⟩), fun x hx => ?_⟩
  · rcases (hmem x).mp hx with rfl | hx
    · exact .inl ⟨rfl, written_uri _ target⟩
    · exact .inr hx
  · cases hfind : db.capabilityAt target.uri with
    | none =>
        exact ⟨fun hsame => absurd hsame (hfresh hfind x hx),
          fun hsame => absurd hsame (Database.capability_at_none hfind hx)⟩
    | some r =>
        obtain ⟨hr, hruri⟩ := Database.capability_at_some hfind
        rw [hat r hfind, ← hruri]
        exact ⟨fun hsame => congrArg (·.cap.uri) (Database.eq_of_id hx hr hsame),
          fun hsame => congrArg (·.id) (Database.eq_of_uri hx hr hsame)⟩

/-- An upsert backs the full-text row it writes. -/
theorem Database.Backed.upsert (h : db.Backed)
    (hupsert : upsertCapability p db cap = .ok (id, result)) : result.Backed := by
  obtain ⟨table, expected, hwrite, -, -, rfl⟩ := upsert_capability_ok hupsert
  have hrow := upserted_row hwrite
  intro fts hfts
  rcases (mem_sync_fts fts).mp hfts with rfl | ⟨hfts, hne⟩
  · obtain ⟨row, hrow, hid, -⟩ := hrow.written
    exact ⟨row, hrow, hid⟩
  · obtain ⟨row, hmem, hrowid⟩ := h fts hfts
    refine ⟨row, hrow.kept row hmem fun huri => hne ?_, hrowid⟩
    exact hrowid.symm.trans ((hrow.id_iff row hmem).mpr huri)

/-- An upsert brings the index up to date at its URI and keeps it elsewhere. -/
theorem Database.Follows.upsert (h : db.Follows lagging)
    (hlagging : ∀ uri, lagging = some uri → uri = (applyDefaultUserNamespace p cap).uri)
    (hupsert : upsertCapability p db cap = .ok (id, result)) : result.Follows none := by
  have hbacked := h.backed.upsert hupsert
  obtain ⟨table, expected, hwrite, hexpected, -, rfl⟩ := upsert_capability_ok hupsert
  obtain ⟨hkeyed, -, -⟩ := capability_source_rows_ok hexpected
  rw [← incoming_uri p db cap] at hlagging
  generalize incoming p db cap = target at *
  have hrows := upserted_row hwrite
  refine ⟨fun row hrow => ?_, hbacked, fun source hsource => ?_⟩
  · rcases hrows.mem row hrow with ⟨hid, huri⟩ | ⟨hrow, huri⟩
    · exact ⟨target.ftsRow id, (mem_sync_fts _).mpr (.inl rfl), hid.symm, fun _ => huri.symm⟩
    · obtain ⟨fts, hfts, hrowid, hftsUri⟩ := h.text row hrow
      refine ⟨fts, (mem_sync_fts _).mpr (.inr ⟨hfts, ?_⟩), hrowid, fun _ => hftsUri ?_⟩
      · intro hsame
        exact huri ((hrows.id_iff row hrow).mp (hrowid.symm.trans hsame))
      · intro hlags
        exact huri (hlagging _ hlags)
  · rcases (mem_sync_sources hkeyed source).mp hsource with hsource | ⟨hsource, hne, -⟩
    · obtain ⟨row, hrow, -, huri⟩ := hrows.written
      exact ⟨row, hrow, huri.trans (hkeyed.1 source hsource).symm⟩
    · obtain ⟨row, hrow, huri⟩ := h.owned source hsource
      exact ⟨row, hrows.kept row hrow (huri ▸ hne), huri⟩

/-- A migration keeps the ids. -/
theorem Relocated.backed {previous : Option CapabilityRow} {uri : String}
    (hrelocated : Relocated previous uri db moved) (h : db.Backed) : moved.Backed := by
  intro fts hfts
  rw [hrelocated.fts] at hfts
  obtain ⟨row, hrow, hid⟩ := h fts hfts
  by_cases hmoves : previous = some row
  · exact ⟨_, (hrelocated.capabilities _).mpr (.inl ⟨row, hmoves, rfl⟩), hid⟩
  · exact ⟨row, (hrelocated.capabilities _).mpr (.inr ⟨hrow, hmoves⟩), hid⟩

/-- After a migration the index lags at the new URI and nowhere else. -/
theorem Relocated.follows {previous : Option CapabilityRow} {uri : String}
    (hrelocated : Relocated previous uri db moved)
    (hprevious : ∀ r, previous = some r → r ∈ db.capabilities) (h : db.Follows none) :
    moved.Follows (some uri) := by
  -- A row of the catalog is the one that moves, or it stands.
  have hstands : ∀ row ∈ db.capabilities,
      (previous = some row ∧ row.moved uri ∈ moved.capabilities) ∨ row ∈ moved.capabilities := by
    intro row hrow
    by_cases hmoves : previous = some row
    · exact .inl ⟨hmoves, (hrelocated.capabilities _).mpr (.inl ⟨row, hmoves, rfl⟩)⟩
    · exact .inr ((hrelocated.capabilities _).mpr (.inr ⟨hrow, hmoves⟩))
  refine ⟨fun row hrow => ?_, hrelocated.backed h.backed, fun source hsource => ?_⟩
  · rw [hrelocated.fts]
    rcases (hrelocated.capabilities row).mp hrow with ⟨r, hr, rfl⟩ | ⟨hrow, -⟩
    · obtain ⟨fts, hfts, hid, -⟩ := h.text r (hprevious r hr)
      exact ⟨fts, hfts, hid, fun hlags => absurd rfl hlags⟩
    · obtain ⟨fts, hfts, hid, huri⟩ := h.text row hrow
      exact ⟨fts, hfts, hid, fun _ => huri (by simp)⟩
  · obtain ⟨hsource, hkept⟩ := (hrelocated.sources source).mp hsource
    obtain ⟨row, hrow, huri⟩ := h.owned source hsource
    rcases hstands row hrow with ⟨hmoves, hmoved⟩ | hstays
    · rcases hkept row hmoves with hsame | hother
      · exact ⟨_, hmoved, hsame.symm.trans huri⟩
      · exact absurd huri.symm hother
    · exact ⟨row, hstays, huri⟩

/-- The vector half of the loop body does not reach the index. -/
theorem embed_follows {state : Indexing} (input : IngestInput p) (text : String) (unchanged : Bool)
    (h : state.db.Follows none) : (state.embed input id text unchanged).db.Follows none := by
  obtain ⟨vectors, heq | heq⟩ := embed_db state input id text unchanged
  · rw [heq]
    exact h.congr rfl rfl rfl
  · rw [heq]
    refine h.amend (fun x => Table.mem_map (mark_failed_conflict id) x) (fun y => ?_) rfl rfl
    unfold CapabilityRow.markFailed
    split <;> exact ⟨rfl, rfl⟩

/-- The loop body of an ingest keeps the index. A capability carried over a promotion is not
migrated; every other capability is upserted at the URI the migration left. -/
theorem index_one_keeps_index {state next : Indexing} {effective : Capability}
    (hgoverned : effective.Governed) (h : state.db.Follows none)
    (hindex : indexOne p input state effective = .ok next) : next.db.Follows none := by
  obtain ⟨moved, id, written, hrelocate, hupsert, rfl⟩ := index_one_inv hindex
  refine embed_follows input _ _ ?_
  rw [count_db]
  show written.Follows none
  generalize hprevious : previousRow state.db effective = previous at hrelocate hupsert
  have hmem : ∀ r, previous = some r → r ∈ state.db.capabilities :=
    fun r hr => previous_row_mem (hprevious.trans hr)
  have hdowngrade : ∀ held (target : Capability), target.Governed →
      (applyDefaultUserNamespace p (holdDowngrade held target)).uri = target.uri := by
    intro held target htarget
    rw [apply_default_of_governed (hold_downgrade_governed htarget), hold_downgrade_uri]
  by_cases hpromoted : ∃ r, previous = some r ∧ r.cap.isPromoted = true
  · obtain ⟨r, rfl, hpromoted⟩ := hpromoted
    have huri : (carryOver (some r) effective).uri = r.cap.uri := by simp [carryOver, hpromoted]
    simp only [relocate, huri, ne_eq, not_true_eq_false, if_false] at hrelocate
    cases hrelocate
    exact h.upsert (by simp) hupsert
  · have htarget : carryOver previous effective = effective := by
      unfold carryOver
      split
      · rename_i r
        split
        · exact absurd ⟨r, rfl, ‹_›⟩ hpromoted
        · rfl
      · rfl
    rw [htarget] at hrelocate hupsert
    refine ((relocate_ok hmem hrelocate).follows hmem h).upsert (fun uri hlags => ?_) hupsert
    rw [hdowngrade _ effective hgoverned]
    exact (Option.some.inj hlags).symm

theorem index_all_keeps_index {state final : Indexing} {planned : List Capability}
    (hplanned : ∀ e ∈ planned, e.Governed) (h : state.db.Follows none)
    (hindex : indexAll p input state planned = .ok final) : final.db.Follows none := by
  induction planned generalizing state with
  | nil =>
      cases hindex
      exact h
  | cons e planned ih =>
      unfold indexAll at hindex
      obtain ⟨next, hnext, hindex⟩ := bind_eq_ok hindex
      exact ih (fun other hother => hplanned other (List.mem_cons_of_mem e hother))
        (index_one_keeps_index (hplanned e List.mem_cons_self) h hnext) hindex

/-- A retired row takes its full-text row with it. -/
theorem Retired.backed {gone : Nat → Prop} (hretired : Retired gone db result) (h : db.Backed) :
    result.Backed := by
  intro fts hfts
  obtain ⟨hfts, hkept⟩ := (hretired.fts fts).mp hfts
  obtain ⟨row, hrow, hid⟩ := h fts hfts
  exact ⟨row, (hretired.capabilities row).mpr ⟨hrow, hid ▸ hkept⟩, hid⟩

/-- The retirement of the rows without a source keeps the index. -/
theorem Retired.follows (hretired : Retired
    (fun id => ∃ row ∈ db.capabilities, db.isOrphan row = true ∧ id = row.id) db result)
    (h : db.Follows none) : result.Follows none := by
  refine ⟨fun row hrow => ?_, hretired.backed h.backed, fun source hsource => ?_⟩
  · obtain ⟨hrow, hkept⟩ := (hretired.capabilities row).mp hrow
    obtain ⟨fts, hfts, hid, huri⟩ := h.text row hrow
    exact ⟨fts, (hretired.fts fts).mpr ⟨hfts, hid ▸ hkept⟩, hid, huri⟩
  · rw [hretired.rest] at hsource
    obtain ⟨row, hrow, huri⟩ := h.owned source hsource
    have hsourced : db.sources.any (·.uri = row.cap.uri) = true :=
      Table.any_iff.mpr ⟨source, hsource, by simpa using huri.symm⟩
    refine ⟨row, (hretired.mem_iff row).mpr ⟨hrow, ?_⟩, huri⟩
    simp [Database.isOrphan, hsourced]

/-- An ingest keeps the index. -/
theorem ingest_follows (h : db.Follows none) :
    (ingest p db input).1.Follows none := by
  cases hingest : ingest p db input with
  | mk result outcome =>
      cases outcome with
      | error failure =>
          have hrest := (ingest_error hingest).rest
          exact h.congr (by rw [hrest]) (by rw [hrest]) (by rw [hrest])
      | ok changes =>
          obtain ⟨held, counts, planned, final, removed, -, hadded, hplan, hindex, hdelete, -⟩ :=
            ingest_ok hingest
          have hheld : held.Follows none := by
            have hrest := hadded.rest
            exact h.congr (by rw [hrest]) (by rw [hrest]) (by rw [hrest])
          have hfinal : final.db.Follows none :=
            index_all_keeps_index (fun e he => ((plan_ok hplan).filed e he).1) hheld hindex
          exact (delete_source_orphaned_ok hdelete).follows hfinal

theorem ingest_sourced {changes : Changes} (h : ingest p db input = (result, .ok changes)) :
    ∀ row ∈ result.capabilities, row.cap.isSystemOrDraft = false →
      ∃ source ∈ result.sources, source.uri = row.cap.uri := by
  obtain ⟨held, counts, planned, final, removed, -, -, -, -, hdelete, -⟩ := ingest_ok h
  have hretired := delete_source_orphaned_ok hdelete
  intro row hrow hkind
  obtain ⟨-, hsourced⟩ := (hretired.mem_iff row).mp hrow
  simp only [Database.isOrphan, hkind, Bool.not_false, Bool.true_and, Bool.not_eq_false'] at hsourced
  obtain ⟨source, hsource, huri⟩ := Table.any_iff.mp hsourced
  rw [hretired.rest]
  exact ⟨source, hsource, by simpa using huri⟩

theorem mem_foldl_replace_uri {uri : String} {rows : List SourceRow} {sources : Table SourceRow}
    {x : SourceRow}
    (h : x ∈ rows.foldl (fun table source => table.replace { source with uri }) sources) :
    x ∈ sources ∨ x.uri = uri := by
  induction rows generalizing sources with
  | nil => exact .inl h
  | cons row rows ih =>
      rcases ih h with hx | hx
      · rcases (Table.mem_replace x).mp hx with ⟨hx, -⟩ | rfl
        · exact .inl hx
        · exact .inr rfl
      · exact .inr hx

/-- Normalizing a row keeps the index. -/
theorem normalize_row_follows (hrow : row ∈ db.capabilities) (h : db.Follows none)
    (hnormalize : normalizeRow p db row = .ok (changed, result)) : result.Follows none := by
  rcases normalize_row_ok hrow hnormalize with ⟨-, rfl⟩ | ⟨hmoves, -, hmem⟩
  · exact h
  unfold normalizeRow at hnormalize
  dsimp only at hnormalize
  rw [if_neg hmoves] at hnormalize
  obtain ⟨capabilities, -, hnormalize⟩ := bind_eq_ok hnormalize
  obtain ⟨sources, -, hnormalize⟩ := bind_eq_ok hnormalize
  obtain ⟨tuples, -, hnormalize⟩ := bind_eq_ok hnormalize
  cases hnormalize
  dsimp only at hmem
  have hfiled := (hmem _).mpr (.inl rfl)
  refine ⟨fun x hx => ?_, fun fts hfts => ?_, fun source hsource => ?_⟩
  · rcases (hmem x).mp hx with rfl | ⟨hx, hne⟩
    · exact ⟨_, (Table.mem_replace _).mpr (.inr rfl), rfl, fun _ => rfl⟩
    · obtain ⟨fts, hfts, hid, huri⟩ := h.text x hx
      refine ⟨fts, (Table.mem_replace _).mpr (.inl ⟨hfts, fun hsame => hne ?_⟩), hid, huri⟩
      exact hid.symm.trans hsame
  · rcases (Table.mem_replace fts).mp hfts with ⟨hfts, hne⟩ | rfl
    · obtain ⟨x, hx, hid⟩ := h.backed fts hfts
      refine ⟨x, (hmem x).mpr (.inr ⟨hx, fun hsame => hne ?_⟩), hid⟩
      exact hid.symm.trans hsame
    · exact ⟨_, hfiled, rfl⟩
  · rcases mem_foldl_replace_uri hsource with hsource | hsource
    · obtain ⟨hsource, hkept⟩ := (Table.mem_filter source).mp hsource
      obtain ⟨x, hx, huri⟩ := h.owned source hsource
      refine ⟨x, (hmem x).mpr (.inr ⟨hx, fun hid => ?_⟩), huri⟩
      rw [Database.eq_of_id hx hrow hid] at huri
      simp [huri] at hkept
    · exact ⟨_, hfiled, hsource.symm⟩

theorem normalize_all_keeps {I : Database → Prop}
    (hstep : ∀ {db result : Database} {row changed}, row ∈ db.capabilities → I db →
      normalizeRow p db row = .ok (changed, result) → I result) {rows : List CapabilityRow}
    (hrows : ∀ row ∈ rows, row ∈ db.capabilities) (hids : rows.Pairwise fun a b => a.id ≠ b.id)
    (h : I db) (hnormalize : normalizeAll p db rows = .ok (changed, result)) :
    I result := by
  induction rows generalizing db changed with
  | nil =>
      cases hnormalize
      exact h
  | cons row rows ih =>
      unfold normalizeAll at hnormalize
      obtain ⟨⟨first, next⟩, hnext, hnormalize⟩ := bind_eq_ok hnormalize
      obtain ⟨⟨more, final⟩, hfinal, hnormalize⟩ := bind_eq_ok hnormalize
      cases hnormalize
      obtain ⟨hother, hids⟩ := List.pairwise_cons.mp hids
      have hrow := hrows row List.mem_cons_self
      refine ih (fun other hmem => ?_) hids (hstep hrow h hnext) hfinal
      have hstood := hrows other (List.mem_cons_of_mem row hmem)
      rcases normalize_row_ok hrow hnext with ⟨-, rfl⟩ | ⟨-, -, hnextMem⟩
      · exact hstood
      · exact (hnextMem other).mpr (.inr ⟨hstood, (hother other hmem).symm⟩)

theorem normalize_existing_keeps {I : Database → Prop}
    (hstep : ∀ {db result : Database} {row changed}, row ∈ db.capabilities → I db →
      normalizeRow p db row = .ok (changed, result) → I result) (h : I db)
    (hnormalize : normalizeExistingCapabilityNamespaces p db = .ok (changed, result)) :
    I result := by
  refine normalize_all_keeps hstep (fun row hrow => (List.mem_filter.mp hrow).1) ?_ h hnormalize
  exact (db.capabilities.unique.imp fun hconflict hid => hconflict (.inl hid)).filter _

theorem normalize_existing_follows (h : db.Follows none)
    (hnormalize : normalizeExistingCapabilityNamespaces p db = .ok (changed, result)) :
    result.Follows none :=
  normalize_existing_keeps normalize_row_follows h hnormalize

/-- The new address of a promoted capability reaches the index. -/
theorem remint_follows {tenant requestId old new : String} (h : db.Follows none)
    (hremint : remint db tenant requestId old new = .ok result) : result.Follows none := by
  unfold remint at hremint
  split at hremint
  · cases hremint
    exact h
  obtain ⟨capabilities, hcapabilities, hremint⟩ := bind_eq_ok hremint
  obtain ⟨tuples, -, hremint⟩ := bind_eq_ok hremint
  cases hremint
  have hmem := Table.mem_update? (constrained_ok hcapabilities)
  have hmoved : ∀ {y}, y ∈ db.capabilities →
      y.moved (renamed old new y.cap.uri) ∈ capabilities :=
    fun hy => (hmem _).mpr ⟨_, hy, rfl⟩
  -- The row found at the new URI is the one whose full-text row is renamed.
  have hfound : ∀ x ∈ capabilities,
      (capabilities.find? (·.cap.uri = new)).map (·.id) = some x.id ↔ x.cap.uri = new := by
    intro x hx
    constructor
    · intro hid
      obtain ⟨z, hz, hid⟩ := Option.map_eq_some_iff.mp hid
      obtain ⟨hz, huri⟩ := Table.find?_some hz
      rw [← Table.eq_of_conflict hz hx (.inl hid)]
      simpa using huri
    · intro huri
      rw [Table.find?_eq_some hx (by simpa using huri) fun y _ hy =>
        .inr (.inl ((of_decide_eq_true hy).trans huri.symm))]
      rfl
  refine ⟨fun x hx => ?_, fun fts hfts => ?_, fun source hsource => ?_⟩
  · obtain ⟨y, hy, rfl⟩ := (hmem x).mp hx
    obtain ⟨fts, hfts, hid, huri⟩ := h.text y hy
    refine ⟨_, List.mem_map.mpr ⟨fts, hfts, rfl⟩, hid, fun _ => ?_⟩
    show (if (capabilities.find? (·.cap.uri = new)).map (·.id) = some fts.rowid then new
      else fts.uri) = renamed old new y.cap.uri
    rw [hid, huri (by simp)]
    have hat := hfound _ (hmoved hy)
    unfold renamed at hat ⊢
    split
    · exact (hat.mp ‹_›).symm
    · split
      · rename_i hother hold
        exact absurd (hat.mpr (if_pos hold)) hother
      · rfl
  · obtain ⟨before, hbefore, rfl⟩ := List.mem_map.mp hfts
    obtain ⟨y, hy, hid⟩ := h.backed before hbefore
    exact ⟨_, hmoved hy, hid⟩
  · obtain ⟨before, hbefore, rfl⟩ := List.mem_map.mp hsource
    obtain ⟨y, hy, huri⟩ := h.owned before hbefore
    exact ⟨_, hmoved hy, congrArg (renamed old new) huri⟩

theorem Database.Follows.amendCapabilities {selects : Capability → Bool}
    {change : Capability → Capability} (hchange : KeepsIdentity change) (h : db.Follows lagging) :
    (db.amendCapabilities selects change hchange).Follows lagging := by
  refine h.amend (fun x => mem_amend_capabilities x) (fun y => ?_) rfl rfl
  obtain ⟨hid, huri, -⟩ := amend_identity selects hchange y
  exact ⟨hid, huri⟩

/-- The writes of an approval keep the index. -/
theorem promote_follows {call : ApproveCall} {request : PromotionRequest} {view : GateView}
    (h : db.Follows none) (hpromote : promote p db call request view = .ok result) :
    result.Follows none := by
  unfold promote at hpromote
  obtain ⟨gates, -, hpromote⟩ := bind_eq_ok hpromote
  obtain ⟨⟨uri, storeId⟩, -, hpromote⟩ := bind_eq_ok hpromote
  refine remint_follows (Database.Follows.amendCapabilities _ ?_) hpromote
  exact h.congr rfl rfl rfl

/-- A decision on a request keeps the index. -/
theorem approve_request_follows {call : ApproveCall} (h : db.Follows none) :
    (approveRequest p db call).1.Follows none := by
  unfold approveRequest
  split
  · exact h
  rename_i decision _
  split
  · exact h
  split
  · exact h
  rename_i request _
  split
  · split
    · exact h
    · rename_i view evaluated _
      have hstored : (if evaluated = true then db.setRequest request.id
          (fun row => { row with gates := some view.gates }) fun _ => rfl else db).Follows none := by
        split
        · exact h.congr rfl rfl rfl
        · exact h
      dsimp only
      split
      · exact hstored
      · exact promote_follows hstored ‹_›
  · refine Database.Follows.amendCapabilities (fun cap => ⟨rfl, rfl, rfl, rfl⟩ : KeepsIdentity
      fun cap => { cap with approvalState := decision.approvalState }) ?_
    exact h.congr rfl rfl rfl

/-- The built-in capabilities are upserted. -/
theorem upsert_builtins_follows {builtins : List Capability} (h : db.Follows none)
    (hupsert : upsertBuiltins p db builtins = .ok result) : result.Follows none := by
  induction builtins generalizing db with
  | nil =>
      cases hupsert
      exact h
  | cons cap builtins ih =>
      unfold upsertBuiltins at hupsert
      obtain ⟨⟨id, next⟩, hnext, hupsert⟩ := bind_eq_ok hupsert
      exact ih (h.upsert (by simp) hnext) hupsert

/-- `init_db` keeps the index. -/
theorem init_db_follows {builtins : List Capability} (h : db.Follows none)
    (hinit : initDb p builtins db = .ok result) : result.Follows none := by
  unfold initDb at hinit
  obtain ⟨⟨changed, normalized⟩, hnormalize, hinit⟩ := bind_eq_ok hinit
  exact upsert_builtins_follows (normalize_existing_follows h hnormalize) hinit

/-- The index of a fresh database. -/
theorem empty_follows : Database.empty.Follows none :=
  ⟨fun row hrow => absurd hrow (Table.not_mem_empty row),
    fun fts hfts => absurd hfts (Table.not_mem_empty fts),
    fun source hsource => absurd hsource (Table.not_mem_empty source)⟩

end

/-- The operations that write the catalog and its index. -/
inductive CatalogAction (p : Platform) where
  | ingest (input : IngestInput p)
  | createDraft (call : DraftCall)
  | updateDraft (call : EditCall)
  | decide (call : ApproveCall)
  | normalize

/-- The database a transaction leaves: its result, or what it found when it rolled back. -/
def committed (before : Database) : Except Failure Database → Database
  | .ok after => after
  | .error _ => before

/-- One operation on the catalog. -/
def catalogStep (p : Platform) (db : Database) : CatalogAction p → Database
  | .ingest input => (ingest p db input).1
  | .createDraft call => committed db (createCapabilityDraft p db call)
  | .updateDraft call => committed db (updateCapabilityDraft p db call)
  | .decide call => (approveRequest p db call).1
  | .normalize => committed db ((normalizeExistingCapabilityNamespaces p db).map (·.2))

/-- A transaction keeps the index when its result does. -/
theorem committed_follows {before : Database} {outcome : Except Failure Database}
    (hbefore : before.Follows none) (h : ∀ after, outcome = .ok after → after.Follows none) :
    (committed before outcome).Follows none := by
  cases outcome with
  | error failure => exact hbefore
  | ok after => exact h after rfl

/-- Every operation keeps the index. -/
theorem catalog_step_follows {p : Platform} {db : Database} (action : CatalogAction p)
    (h : db.Follows none) : (catalogStep p db action).Follows none := by
  cases action with
  | ingest input => exact ingest_follows h
  | createDraft call =>
      refine committed_follows h fun after hafter => ?_
      obtain ⟨cap, id, -, hupsert⟩ := create_capability_draft_ok hafter
      exact h.upsert (by simp) hupsert
  | updateDraft call =>
      refine committed_follows h fun after hafter => ?_
      obtain ⟨cap, id, hupsert⟩ := update_capability_draft_ok hafter
      exact h.upsert (by simp) hupsert
  | decide call => exact approve_request_follows h
  | normalize =>
      refine committed_follows h fun after hafter => ?_
      obtain ⟨⟨changed, normalized⟩, hnormalize, rfl⟩ := map_eq_ok hafter
      exact normalize_existing_follows h hnormalize

/-- SHA-256 on the texts that name and fill a draft of the notes skill. -/
def draftPlatform : Platform := .ascii fun content =>
  (([("asg\x1falice\x1fskill\x1fnotes\x1f0.1.0",
        "440a711ba7a3d93a29febc8177ce4364651260d9f63aaf78745da2c4f7249552"),
      ("Keep notes.", "afd2e50651c90652f9907b3854a3ff32898942da1cbfb6d5b43ef7294f9c9686")].find?
    fun entry => entry.1.toUTF8.data.toList = content).map (·.2)).getD ""

/-- A draft of the notes skill in the team's namespace. -/
def notesDraft : DraftCall :=
  { principal := platformAdmin, name := "notes", title := "Notes", description := "Keeps notes."
    content := "Keep notes.", capabilityType := "skill", storeId := some "store_team"
    namespaceId := some "ns_team", directory := teamDirectory }

end Capmesh
