import Capmesh.Index.Landing

/-!
# The index pass as a whole

Invariants of the loop of `_upsert_discovered`. `index_all_rule` is the induction rule:
a property of the capabilities done so far and the loop state that every landing keeps
holds at the end. From it `Progress` says where each row comes from, `index_all_untouched`
that a row the plan does not mention stays, and `Settled` that a landed row keeps its
place, its sources and its full-text row.
-/

namespace Capmesh

open Python Relational

/-- A list of effective capabilities as an ingest plans it: one for each URI, for each canonical
key and for each source path, all filed in a namespace of a tenant. -/
structure Planned (p : Platform) (planned : List Capability) : Prop where
  uris : planned.Pairwise fun a b => a.uri ≠ b.uri
  keys : planned.Pairwise fun a b => a.canonicalKey ≠ b.canonicalKey
  sources : planned.Pairwise fun a b => ∀ path ∈ claimedPaths p a, path ∉ claimedPaths p b
  filed : ∀ e ∈ planned, e.Governed ∧ e.tenantId ≠ "" ∧ e.isSystemOrDraft = false

section

variable {p : Platform} {input : IngestInput p} {catalog : Table CapabilityRow}
variable {planned : List Capability} {db result : Database} {state final : Indexing}
variable {e other : Capability} {row : CapabilityRow}

theorem effective_tenant (cap : Capability) (h : cap.tenantId ≠ "") :
    (effective p input.placement catalog cap).tenantId ≠ "" := by
  unfold effective
  rw [apply_vault_placement_eq]
  cases placedVault p input.placement catalog cap with
  | none =>
      show (applyDefaultUserNamespace p cap).tenantId ≠ ""
      unfold applyDefaultUserNamespace
      split
      · exact h
      · split <;> exact p.tenant_or_ne _
  | some vault =>
      simp only [Option.map_some, placeInVault, apply_ite Capability.tenantId, ite_self]
      exact p.tenant_or_ne _

theorem plan_origin (h : plan p input catalog = .ok planned) (he : e ∈ planned) :
    ∃ cap ∈ input.batch.capabilities, ∃ metadata,
      e = { effective p input.placement catalog cap with metadata } := by
  obtain ⟨horigin, -⟩ := merge_by_effective_uri_ok h
  obtain ⟨source, hsource, metadata, rfl⟩ := horigin e he
  obtain ⟨cap, hcap, rfl⟩ := List.mem_map.mp hsource
  exact ⟨cap, hcap, metadata, rfl⟩

theorem effective_claimed (cap : Capability) :
    claimedPaths p (effective p input.placement catalog cap) = claimedPaths p cap := by
  obtain ⟨hpath, hprovenance⟩ := effective_metadata p input.placement catalog
    (show "sourceProvenance" ∉ addressKeys by decide) cap
  obtain ⟨-, hpaths⟩ := effective_metadata p input.placement catalog
    (show "sourcePaths" ∉ addressKeys by decide) cap
  simp only [claimedPaths, provenancePaths, rawSourcePaths, hpath, hprovenance, hpaths]

theorem plan_sources (h : plan p input catalog = .ok planned) :
    planned.Pairwise fun a b => ∀ path ∈ claimedPaths p a, path ∉ claimedPaths p b := by
  obtain ⟨-, huris⟩ := merge_by_effective_uri_ok h
  have hlist : ∀ cap ∈ input.batch.capabilities.map (effective p input.placement catalog),
      ∀ text, Dict.get? cap.metadata "sourcePaths" ≠ some (.str text) := by
    intro cap hcap text
    obtain ⟨source, hsource, rfl⟩ := List.mem_map.mp hcap
    rw [(effective_metadata p input.placement catalog
      (show "sourcePaths" ∉ addressKeys by decide) source).2]
    exact input.batch.listed source hsource text
  -- A path of a planned capability is a path of some capability of the batch with its URI.
  have horigin : ∀ e ∈ planned, ∀ path ∈ claimedPaths p e, ∃ cap ∈ input.batch.capabilities,
      (effective p input.placement catalog cap).uri = e.uri ∧ path ∈ claimedPaths p cap := by
    intro e he path hpath
    obtain ⟨source, hsource, huri, hclaimed⟩ :=
      merge_by_effective_uri_claimed hlist h e he path hpath
    obtain ⟨cap, hcap, rfl⟩ := List.mem_map.mp hsource
    rw [effective_claimed] at hclaimed
    exact ⟨cap, hcap, huri, hclaimed⟩
  refine huris.imp_of_mem fun {a b} ha hb hab path hpathA hpathB => ?_
  obtain ⟨capA, hcapA, huriA, hclaimedA⟩ := horigin a ha path hpathA
  obtain ⟨capB, hcapB, huriB, hclaimedB⟩ := horigin b hb path hpathB
  have hne : capA ≠ capB := fun hsame => hab (by rw [← huriA, ← huriB, hsame])
  have hsymm : Std.Symm fun a b : Capability => ∀ path ∈ claimedPaths p a, path ∉ claimedPaths p b :=
    ⟨fun _ _ hdisjoint path hb ha => hdisjoint path ha hb⟩
  exact input.batch.sources.forall hcapA hcapB hne path hclaimedA hclaimedB

theorem plan_ok (h : plan p input catalog = .ok planned) : Planned p planned := by
  have horigin := fun e (he : e ∈ planned) => plan_origin h he
  obtain ⟨-, huris⟩ := merge_by_effective_uri_ok h
  refine ⟨huris, ?_, plan_sources h, fun e he => ?_⟩
  · refine huris.imp_of_mem fun {a b} ha hb hab hkey => ?_
    obtain ⟨capA, hcapA, metadataA, rfl⟩ := horigin a ha
    obtain ⟨capB, hcapB, metadataB, rfl⟩ := horigin b hb
    have hkeys : capA.canonicalKey = capB.canonicalKey := by
      rw [← (effective_source p input.placement catalog capA).1,
        ← (effective_source p input.placement catalog capB).1]
      exact hkey
    have hsame : capA = capB := by
      by_contra hne
      have hsymm : Std.Symm fun a b : Capability => a.canonicalKey ≠ b.canonicalKey :=
        ⟨fun _ _ h => h.symm⟩
      exact input.batch.keys.forall hcapA hcapB hne hkeys
    exact hab (by rw [hsame])
  · obtain ⟨cap, hcap, metadata, rfl⟩ := horigin e he
    obtain ⟨hkind, -, htenant⟩ := input.batch.discovered cap hcap
    refine ⟨effective_governed p input.placement catalog cap, effective_tenant cap htenant, ?_⟩
    simpa [Capability.isSystemOrDraft, (effective_source p input.placement catalog cap).2.2]
      using hkind

/-- A filed capability has an address: discovery reads no system capabilities. -/
theorem Planned.addressed (h : Planned p planned) (he : e ∈ planned) :
    isAddressed e.uri = true := by
  obtain ⟨hgoverned, -, hkind⟩ := h.filed e he
  rcases hgoverned with hsystem | ⟨huri, -⟩
  · simp only [Capability.isSystem, Bool.or_eq_true, decide_eq_true_eq] at hsystem
    rcases hsystem with hsystem | hsystem
    · simp [Capability.isSystemOrDraft, hsystem] at hkind
    · simp [isAddressed, hsystem]
  · simp [isAddressed, huri]

theorem Planned.sublist {part : List Capability} (h : Planned p planned)
    (hpart : part.Sublist planned) : Planned p part :=
  ⟨h.uris.sublist hpart, h.keys.sublist hpart, h.sources.sublist hpart,
    fun e he => h.filed e (hpart.subset he)⟩

theorem Planned.ne_of_mem {done rest : List Capability} (h : Planned p (done ++ e :: rest))
    (hother : other ∈ done ∨ other ∈ rest) :
    other.uri ≠ e.uri ∧ other.canonicalKey ≠ e.canonicalKey := by
  obtain ⟨-, huris, huriDone⟩ := List.pairwise_append.mp h.uris
  obtain ⟨-, hkeys, hkeyDone⟩ := List.pairwise_append.mp h.keys
  rcases hother with hother | hother
  · exact ⟨huriDone other hother e List.mem_cons_self, hkeyDone other hother e List.mem_cons_self⟩
  · exact ⟨((List.pairwise_cons.mp huris).1 other hother).symm,
      ((List.pairwise_cons.mp hkeys).1 other hother).symm⟩

theorem Planned.disjoint_of_mem {done rest : List Capability} (h : Planned p (done ++ e :: rest))
    (hother : other ∈ done ∨ other ∈ rest) {path : String} (hpath : path ∈ claimedPaths p other) :
    path ∉ claimedPaths p e := by
  obtain ⟨-, hrest, hdone⟩ := List.pairwise_append.mp h.sources
  rcases hother with hother | hother
  · exact hdone other hother e List.mem_cons_self path hpath
  · exact fun he => (List.pairwise_cons.mp hrest).1 other hother path he hpath

namespace Landing

variable (h : Landing p db result e row)

include h

theorem row_mem : row ∈ result.capabilities := (h.mem row).mpr (.inl rfl)

theorem kept {x : CapabilityRow} (hx : x ∈ db.capabilities) (hne : previousRow db e ≠ some x) :
    x ∈ result.capabilities :=
  (h.mem x).mpr (.inr ⟨hx, hne⟩)

/-- The columns of a landed row are those of the carried-over capability. -/
theorem indexedColumns : IndexedColumns (carryOver (previousRow db e) e) row.cap := by
  have hcolumns := indexed_columns
    (capguardIsHeld db.quarantine (carryOver (previousRow db e) e)) (previousRow db e) e
  rw [h.columns]
  exact ⟨hcolumns.uri, hcolumns.canonicalKey, hcolumns.contentHash, hcolumns.tenantId,
    hcolumns.sourceKind, hcolumns.storeId, hcolumns.namespaceId, hcolumns.packagePath,
    hcolumns.entrypoint, hcolumns.sourcePath, hcolumns.owner, hcolumns.createdBy⟩

theorem canonicalKey : row.cap.canonicalKey = e.canonicalKey :=
  h.indexedColumns.canonicalKey.trans (carry_over_source _ e).1

theorem contentHash : row.cap.contentHash = e.contentHash :=
  h.indexedColumns.contentHash.trans (carry_over_source _ e).2.1

/-- A landing keeps the catalog normalized. -/
theorem normalized (hdb : db.Normalized) (he : isAddressed e.uri = true) : result.Normalized := by
  intro x hx
  rcases (h.mem x).mp hx with rfl | ⟨hx, -⟩
  · rw [h.indexedColumns.uri]
    cases hprevious : previousRow db e with
    | none => exact he
    | some r =>
        simp only [carryOver]
        split
        · exact hdb r (previous_row_mem hprevious)
        · exact he
  · exact hdb x hx

end Landing

/-- The loop body lands each capability of a plan in a row that is neither a system capability
nor a draft. -/
theorem Planned.lands {next : Indexing} (hplanned : Planned p planned) (he : e ∈ planned)
    (h : indexOne p input state e = .ok next) :
    ∃ row, Landing p state.db next.db e row ∧ row.cap.isSystemOrDraft = false := by
  obtain ⟨hgoverned, htenant, hordinary⟩ := hplanned.filed e he
  obtain ⟨row, hlanding⟩ := index_one_ok hgoverned htenant h
  refine ⟨row, hlanding, ?_⟩
  have hkind : row.cap.sourceKind = e.sourceKind :=
    hlanding.indexedColumns.sourceKind.trans (carry_over_source _ e).2.2.2
  simpa [Capability.isSystemOrDraft, hkind] using hordinary

/-- The induction rule of the loop: what every landing keeps holds at the end. -/
theorem index_all_induction {motive : List Capability → Indexing → Prop}
    (hplanned : Planned p planned) (hstart : motive [] state)
    (hstep : ∀ done e rest current next row, planned = done ++ e :: rest →
      motive done current → indexOne p input current e = .ok next →
      Landing p current.db next.db e row → motive (done ++ [e]) next)
    (h : indexAll p input state planned = .ok final) : motive planned final := by
  -- The induction is on the capabilities still to do; `done` is the part of the plan before them.
  have hrest : ∀ rest done current, planned = done ++ rest → motive done current →
      indexAll p input current rest = .ok final → motive planned final := by
    intro rest
    induction rest with
    | nil =>
        intro done current hsplit hmotive hfinal
        cases hfinal
        rw [hsplit, List.append_nil]
        exact hmotive
    | cons e rest ih =>
        intro done current hsplit hmotive hfinal
        unfold indexAll at hfinal
        obtain ⟨next, hnext, hfinal⟩ := bind_eq_ok hfinal
        have he : e ∈ planned := by
          rw [hsplit]
          simp
        obtain ⟨row, hlanding, -⟩ := hplanned.lands he hnext
        exact ih (done ++ [e]) next (by rw [hsplit]; simp)
          (hstep done e rest current next row hsplit hmotive hnext hlanding) hfinal
  exact hrest planned [] state rfl hstart h

theorem index_all_rule {motive : List Capability → Indexing → Prop} (hplanned : Planned p planned)
    (hdb : state.db.Normalized) (hstart : motive [] state)
    (hstep : ∀ done e rest current next row, planned = done ++ e :: rest →
      motive done current → current.db.Normalized → indexOne p input current e = .ok next →
      Landing p current.db next.db e row → motive (done ++ [e]) next)
    (h : indexAll p input state planned = .ok final) :
    motive planned final ∧ final.db.Normalized := by
  refine index_all_induction (motive := fun done current =>
    motive done current ∧ current.db.Normalized) hplanned ⟨hstart, hdb⟩ ?_ h
  intro done e rest current next row hsplit hmotive hnext hlanding
  have he : e ∈ planned := by
    rw [hsplit]
    simp
  exact ⟨hstep done e rest current next row hsplit hmotive.1 hmotive.2 hnext hlanding,
    hlanding.normalized hmotive.2 (hplanned.addressed he)⟩

theorem index_all_append {first second : List Capability} :
    indexAll p input state (first ++ second) = .ok final ↔
      ∃ middle, indexAll p input state first = .ok middle ∧
        indexAll p input middle second = .ok final := by
  induction first generalizing state with
  | nil => simp [indexAll]
  | cons e first ih =>
      simp only [List.cons_append, indexAll, bind, Except.bind]
      cases indexOne p input state e with
      | error failure => simp
      | ok next => exact ih

/-- A row that a capability of the plan landed in: at the capability's URI, or at the address of
an approved promotion with its key that no capability done so far has. -/
structure LandedBy (initial : Database) (done : List Capability) (e : Capability)
    (row : CapabilityRow) : Prop where
  canonicalKey : row.cap.canonicalKey = e.canonicalKey
  contentHash : row.cap.contentHash = e.contentHash
  tenantId : row.cap.tenantId = e.tenantId
  address : row.cap.uri = e.uri ∨ ∃ r ∈ initial.capabilities, r.cap.isPromoted = true ∧
    r.cap.canonicalKey = e.canonicalKey ∧ row.cap.uri = r.cap.uri ∧
    ∀ d ∈ done, d.uri ≠ r.cap.uri

/-- Where the rows of the catalog come from once part of the plan is done: a row of the start that
no capability named, or a landed one. -/
def Progress (initial : Database) (done : List Capability) (current : Database) : Prop :=
  ∀ row ∈ current.capabilities,
    (row ∈ initial.capabilities ∧
      ∀ d ∈ done, d.canonicalKey ≠ row.cap.canonicalKey ∧ d.uri ≠ row.cap.uri) ∨
    ∃ d ∈ done, LandedBy initial done d row

theorem Progress.step {initial current next : Database} {done rest : List Capability}
    (hplanned : Planned p (done ++ e :: rest)) (h : Progress initial done current)
    (hlanding : Landing p current next e row) : Progress initial (done ++ [e]) next := by
  intro x hx
  rcases (hlanding.mem x).mp hx with rfl | ⟨hx, hne⟩
  · refine .inr ⟨e, by simp, hlanding.canonicalKey, hlanding.contentHash,
      hlanding.indexedColumns.tenantId.trans (carry_over_source _ e).2.2.1, ?_⟩
    rw [hlanding.indexedColumns.uri]
    cases hprevious : previousRow current e with
    | none => exact .inl rfl
    | some r =>
        by_cases hpromoted : r.cap.isPromoted = true
        · simp only [carryOver, hpromoted, if_true]
          rcases previous_row_cases hprevious with huri | ⟨hnone, hkey⟩
          · exact .inl huri
          · have hr := previous_row_mem hprevious
            rcases h r hr with ⟨hinitial, hdone⟩ | ⟨d, hd, hlanded⟩
            · refine .inr ⟨r, hinitial, hpromoted, hkey, rfl, fun d hd => ?_⟩
              rcases List.mem_append.mp hd with hd | hd
              · exact (hdone d hd).2
              · rw [List.mem_singleton.mp hd]
                exact (Database.capability_at_none hnone hr).symm
            · exact absurd (hlanded.canonicalKey.symm.trans hkey)
                (hplanned.ne_of_mem (.inl hd)).2
        · simp [carryOver, hpromoted]
  · have huri : e.uri ≠ x.cap.uri := fun huri => hne (previous_row_of_uri hx huri.symm)
    rcases h x hx with ⟨hinitial, hdone⟩ | ⟨d, hd, hlanded⟩
    · by_cases hkey : e.canonicalKey = x.cap.canonicalKey
      · -- The landed row has this key, so it is this row.
        have hsame : row = x := Database.eq_of_key hlanding.row_mem (hlanding.kept hx hne)
          (hlanding.canonicalKey.trans hkey)
        exact absurd (hsame ▸ rfl) (hlanding.others x hx hne)
      · refine .inl ⟨hinitial, fun d hd => ?_⟩
        rcases List.mem_append.mp hd with hd | hd
        · exact hdone d hd
        · rw [List.mem_singleton.mp hd]
          exact ⟨hkey, huri⟩
    · refine .inr ⟨d, by simp [hd], hlanded.canonicalKey, hlanded.contentHash, hlanded.tenantId,
        hlanded.address.imp_right ?_⟩
      rintro ⟨r, hr, hpromoted, hkey, hxr, hfree⟩
      refine ⟨r, hr, hpromoted, hkey, hxr, fun d' hd' => ?_⟩
      rcases List.mem_append.mp hd' with hd' | hd'
      · exact hfree d' hd'
      · rw [List.mem_singleton.mp hd', ← hxr]
        exact huri

/-- Where the rows of the catalog come from at the end of the index pass. -/
theorem index_all_progress (hplanned : Planned p planned) (hdb : state.db.Normalized)
    (h : indexAll p input state planned = .ok final) :
    Progress state.db planned final.db ∧ final.db.quarantine = state.db.quarantine := by
  refine (index_all_rule (motive := fun done current => Progress state.db done current.db ∧
    current.db.quarantine = state.db.quarantine) hplanned hdb ?_ ?_ h).1
  · exact ⟨fun x hx => .inl ⟨hx, by simp⟩, rfl⟩
  · intro done e rest current next row hsplit hmotive _ _ hlanding
    exact ⟨hmotive.1.step (hsplit ▸ hplanned) hlanding,
      hlanding.quarantine.trans hmotive.2⟩

theorem index_all_landed (hplanned : Planned p planned) (hdb : state.db.Normalized)
    (h : indexAll p input state planned = .ok final) {x : CapabilityRow}
    (hx : x ∈ final.db.capabilities) :
    x ∈ state.db.capabilities ∨ ∃ done e rest before after, planned = done ++ e :: rest ∧
      indexAll p input state done = .ok before ∧ Landing p before.db after e x := by
  refine (index_all_rule (motive := fun done current =>
    indexAll p input state done = .ok current ∧
    ∀ x ∈ current.db.capabilities, x ∈ state.db.capabilities ∨
      ∃ done e rest before after, planned = done ++ e :: rest ∧
        indexAll p input state done = .ok before ∧ Landing p before.db after e x)
    hplanned hdb ?_ ?_ h).1.2 x hx
  · exact ⟨rfl, fun x hx => .inl hx⟩
  · rintro done e rest current next row hsplit ⟨hdone, hrows⟩ _ hnext hlanding
    refine ⟨index_all_append.mpr ⟨current, hdone, by simp [indexAll, hnext, bind, Except.bind]⟩,
      fun x hx => ?_⟩
    rcases (hlanding.mem x).mp hx with rfl | ⟨hx, -⟩
    · exact .inr ⟨done, e, rest, current, next.db, hsplit, hdone, hlanding⟩
    · exact hrows x hx

theorem carry_over_claimed (previous : Option CapabilityRow) :
    claimedPaths p (carryOver previous e) = claimedPaths p e := by
  unfold carryOver
  split
  · split <;> rfl
  · rfl

theorem Landing.leaves (h : Landing p db result e row) {old : CapabilityRow}
    (hold : old ∈ db.capabilities) (hkey : e.canonicalKey ≠ old.cap.canonicalKey)
    (huri : e.uri ≠ old.cap.uri) :
    old ∈ result.capabilities ∧ old.id ≠ row.id ∧ ∀ x : SourceRow, x.uri = old.cap.uri →
      (x ∈ result.sources ↔ x ∈ db.sources ∧ x.sourcePath ∉ claimedPaths p e) := by
  have hne : previousRow db e ≠ some old := by
    intro hprevious
    rcases previous_row_cases hprevious with hsame | ⟨-, hsame⟩
    · exact huri hsame.symm
    · exact hkey hsame.symm
  have hkept := h.kept hold hne
  have hid := h.others old hold hne
  have hrowUri : old.cap.uri ≠ row.cap.uri := fun hsame =>
    hid (congrArg CapabilityRow.id (Database.eq_of_uri hkept h.row_mem hsame))
  obtain ⟨expected, hexpected, hsources⟩ := h.sources
  have hpaths := capability_source_rows_paths hexpected
  rw [carry_over_claimed] at hpaths
  have hlanded : ∀ x ∈ expected, x.uri = row.cap.uri := by
    rw [h.indexedColumns.uri]
    exact (capability_source_rows_ok hexpected).1.1
  refine ⟨hkept, hid, fun x hx => ?_⟩
  rw [hsources, ← hpaths]
  constructor
  · rintro (hnew | ⟨hsource, -, -, hfree⟩)
    · exact absurd (hx.symm.trans (hlanded x hnew)) hrowUri
    · refine ⟨hsource, ?_⟩
      rintro ⟨y, hy, hpath⟩
      exact hfree y hy hpath.symm
  · rintro ⟨hsource, hfree⟩
    refine .inr ⟨hsource, hx ▸ hrowUri, fun r hr hxr => ?_, fun y hy hpath => ?_⟩
    · exact hne (Database.eq_of_uri hold (previous_row_mem hr) (hx.symm.trans hxr) ▸ hr)
    · exact hfree ⟨y, hy, hpath.symm⟩

/-- A row that no planned capability names stays, with the sources that none lays claim to. -/
theorem index_all_untouched (hplanned : Planned p planned) (hdb : state.db.Normalized)
    (hrow : row ∈ state.db.capabilities)
    (hfree : ∀ e ∈ planned, e.canonicalKey ≠ row.cap.canonicalKey ∧ e.uri ≠ row.cap.uri)
    (h : indexAll p input state planned = .ok final) :
    row ∈ final.db.capabilities ∧ ∀ x : SourceRow, x.uri = row.cap.uri →
      (x ∈ final.db.sources ↔
        x ∈ state.db.sources ∧ ∀ e ∈ planned, x.sourcePath ∉ claimedPaths p e) := by
  refine (index_all_rule (motive := fun done current => row ∈ current.db.capabilities ∧
    ∀ x : SourceRow, x.uri = row.cap.uri → (x ∈ current.db.sources ↔
      x ∈ state.db.sources ∧ ∀ e ∈ done, x.sourcePath ∉ claimedPaths p e))
    hplanned hdb ⟨hrow, by simp⟩ ?_ h).1
  rintro done e rest current next landed hsplit ⟨hmem, hsources⟩ _ _ hlanding
  obtain ⟨hkey, huri⟩ := hfree e (by rw [hsplit]; simp)
  obtain ⟨hkept, -, hleft⟩ := hlanding.leaves hmem hkey huri
  refine ⟨hkept, fun x hx => ?_⟩
  rw [hleft x hx, hsources x hx, and_assoc, List.forall_mem_append, List.forall_mem_singleton]

/-- A row that holds a capability: it is in the table, the sources of its URI are the
capability's, and so is its full-text row. -/
structure Settled (p : Platform) (target : Capability) (row : CapabilityRow) (db : Database) :
    Prop where
  mem : row ∈ db.capabilities
  sources : ∃ expected, capabilitySourceRows p target = .ok expected ∧
    ∀ x, x ∈ expected ↔ x ∈ db.sources ∧ x.uri = row.cap.uri
  fts : target.ftsRow row.id ∈ db.fts

theorem Landing.settled (h : Landing p db result e row) :
    Settled p (carryOver (previousRow db e) e) row result := by
  obtain ⟨expected, hexpected, hsources⟩ := h.sources
  refine ⟨h.row_mem, ⟨expected, hexpected, fun x => ?_⟩, (h.fts _).mpr (.inl rfl)⟩
  have huri : ∀ x ∈ expected, x.uri = row.cap.uri := by
    rw [h.indexedColumns.uri]
    exact (capability_source_rows_ok hexpected).1.1
  constructor
  · exact fun hx => ⟨(hsources x).mpr (.inl hx), huri x hx⟩
  · rintro ⟨hx, hxuri⟩
    exact ((hsources x).mp hx).resolve_right fun hother => hother.2.1 hxuri

theorem Settled.step {target : Capability} {settled : CapabilityRow}
    (h : Settled p target settled db) (hlanding : Landing p db result e row)
    (huri : e.uri ≠ settled.cap.uri) (hkey : e.canonicalKey ≠ settled.cap.canonicalKey)
    (hpaths : ∀ path ∈ claimedPaths p e, path ∉ claimedPaths p target) :
    Settled p target settled result := by
  obtain ⟨hmem, hid, hleft⟩ := hlanding.leaves h.mem hkey huri
  obtain ⟨expected, hexpected, hsources⟩ := h.sources
  refine ⟨hmem, ⟨expected, hexpected, fun x => ?_⟩, (hlanding.fts _).mpr (.inr ⟨h.fts, hid⟩)⟩
  rw [hsources]
  refine and_congr_left fun hx => (and_iff_left_of_imp fun hsource => ?_).symm.trans
    (hleft x hx).symm
  have hclaimed := (capability_source_rows_paths hexpected x.sourcePath).mp
    ⟨x, (hsources x).mpr ⟨hsource, hx⟩, rfl⟩
  exact fun hother => hpaths _ hother hclaimed

/-- The capability landed somewhere on the way; if no later capability has the URI of its row, the
row is settled at the end. -/
theorem index_all_settled {done rest : List Capability} (hplanned : Planned p (done ++ e :: rest))
    (hdb : state.db.Normalized) (h : indexAll p input state (done ++ e :: rest) = .ok final) :
    ∃ before next row, indexAll p input state done = .ok before ∧ before.db.Normalized ∧
      indexOne p input before e = .ok next ∧ Landing p before.db next.db e row ∧
      ((∀ later ∈ rest, later.uri ≠ row.cap.uri) →
        Settled p (carryOver (previousRow before.db e) e) row final.db) := by
  obtain ⟨before, hbefore, hafter⟩ := index_all_append.mp h
  unfold indexAll at hafter
  obtain ⟨next, hnext, hrest⟩ := bind_eq_ok hafter
  have hdone : Planned p done := hplanned.sublist (List.sublist_append_left _ _)
  have htail : Planned p rest :=
    hplanned.sublist ((List.sublist_cons_self _ _).trans (List.sublist_append_right _ _))
  have hbeforeDb := (index_all_rule (motive := fun _ _ => True) hdone hdb trivial
    (fun _ _ _ _ _ _ _ _ _ _ _ => trivial) hbefore).2
  obtain ⟨row, hlanding, -⟩ := hplanned.lands (by simp) hnext
  have hnextDb := hlanding.normalized hbeforeDb (hplanned.addressed (by simp))
  refine ⟨before, next, row, hbefore, hbeforeDb, hnext, hlanding, fun hfree => ?_⟩
  refine (index_all_rule (motive := fun _ current =>
    Settled p (carryOver (previousRow before.db e) e) row current.db) htail hnextDb
    hlanding.settled ?_ hrest).1
  intro first later last current after landed hsplit hsettled _ _ hlater
  have hmem : later ∈ rest := by
    rw [hsplit]
    simp
  refine hsettled.step hlater (hfree later hmem) ?_ fun path hpath => ?_
  · rw [hlanding.canonicalKey]
    exact (hplanned.ne_of_mem (.inr hmem)).2
  · rw [carry_over_claimed]
    exact hplanned.disjoint_of_mem (.inr hmem) hpath

theorem index_all_refreshes {r : CapabilityRow} (hplanned : Planned p planned)
    (hdb : state.db.Normalized) (hr : r ∈ state.db.capabilities) (he : e ∈ planned)
    (hkey : r.cap.canonicalKey = e.canonicalKey)
    (hfree : ∀ d ∈ planned, d.uri = r.cap.uri → d = e)
    (h : indexAll p input state planned = .ok final) :
    ∃ before next row, before.db.quarantine = state.db.quarantine ∧
      indexOne p input before e = .ok next ∧ Landing p before.db next.db e row ∧
      previousRow before.db e = some r ∧ Settled p (carryOver (some r) e) row final.db := by
  obtain ⟨done, rest, rfl⟩ := List.append_of_mem he
  have hdone : Planned p done := hplanned.sublist (List.sublist_append_left _ _)
  have hne : ∀ d, d ∈ done ∨ d ∈ rest → d.uri ≠ r.cap.uri ∧ d.canonicalKey ≠ r.cap.canonicalKey := by
    intro d hd
    obtain ⟨huri, hdkey⟩ := hplanned.ne_of_mem hd
    refine ⟨fun hsame => huri ?_, hkey ▸ hdkey⟩
    rw [hfree d (by rcases hd with hd | hd <;> simp [hd]) hsame]
  obtain ⟨before, next, row, hbefore, -, hnext, hlanding, hsettled⟩ :=
    index_all_settled hplanned hdb h
  have hrBefore : r ∈ before.db.capabilities := (index_all_untouched hdone hdb hr
    (fun d hd => ⟨(hne d (.inl hd)).2, (hne d (.inl hd)).1⟩) hbefore).1
  have hprevious : previousRow before.db e = some r := by
    by_contra hprevious
    -- Otherwise the landed row and this one would share the key.
    have hsame := Database.eq_of_key hlanding.row_mem (hlanding.kept hrBefore hprevious)
      (hlanding.canonicalKey.trans hkey.symm)
    exact hlanding.others r hrBefore hprevious (congrArg CapabilityRow.id hsame.symm)
  refine ⟨before, next, row, (index_all_progress hdone hdb hbefore).2, hnext, hlanding, hprevious,
    hprevious ▸ hsettled fun later hlater => ?_⟩
  rw [hlanding.indexedColumns.uri, hprevious]
  simp only [carryOver]
  split
  · exact (hne later (.inr hlater)).1
  · exact (hplanned.ne_of_mem (.inr hlater)).1

theorem Settled.not_orphan {target : Capability} (h : Settled p target row db) :
    db.isOrphan row = false := by
  obtain ⟨expected, hexpected, hsources⟩ := h.sources
  obtain ⟨-, -, source, hsource, -⟩ := capability_source_rows_ok hexpected
  obtain ⟨hmem, huri⟩ := (hsources source).mp hsource
  have hany : db.sources.any (·.uri = row.cap.uri) = true :=
    Table.any_iff.mpr ⟨source, hmem, by simpa using huri⟩
  simp [Database.isOrphan, hany]

end

end Capmesh
