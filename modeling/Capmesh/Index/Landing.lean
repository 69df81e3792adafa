import Capmesh.Index.Ingest

/-!
# Where a capability lands

What the loop body of `_upsert_discovered` does, as one relation between the catalog
before and after: `Landing` names the row a capability ends in, and says that every
other row, source, and full-text row stands. `index_one_ok` proves it of the loop body;
the rest of the development uses nothing else about it.
-/

namespace Capmesh

open Python Relational

/-- Whether a URI is in a governed namespace or names a system capability. -/
def isAddressed (uri : String) : Bool := isGovernedUri uri || startsWith uri "cap://system/"

/-- A catalog as `init_db` leaves it: every row has a governed or system URI. -/
def Database.Normalized (db : Database) : Prop :=
  ∀ row ∈ db.capabilities, isAddressed row.cap.uri = true

/-- A row at another URI. -/
def CapabilityRow.moved (row : CapabilityRow) (uri : String) : CapabilityRow :=
  { row with cap := { row.cap with uri } }

/-- The columns the loop body writes for a capability over the row it refreshes. -/
def indexed (held : Bool) (previous : Option CapabilityRow) (effective : Capability) :
    Capability :=
  let target := carryOver previous effective
  let existing := previous.map (·.moved target.uri)
  written existing (clampLifecycle existing (holdDowngrade held target))

/-- A capability landed in a row: the row it refreshes is replaced, the source rows of both URIs
and the claimed paths become the capability's, and everything else stands. -/
structure Landing (p : Platform) (before after : Database) (effective : Capability)
    (row : CapabilityRow) : Prop where
  mem : ∀ x, x ∈ after.capabilities ↔
    x = row ∨ (x ∈ before.capabilities ∧ previousRow before effective ≠ some x)
  id : ∀ r, previousRow before effective = some r → row.id = r.id
  others : ∀ x ∈ before.capabilities, previousRow before effective ≠ some x → x.id ≠ row.id
  columns : row.cap = { indexed
    (capguardIsHeld before.quarantine (carryOver (previousRow before effective) effective))
    (previousRow before effective) effective with metadata := row.cap.metadata }
  sources : ∃ expected,
    capabilitySourceRows p (carryOver (previousRow before effective) effective) = .ok expected ∧
    ∀ x, x ∈ after.sources ↔ x ∈ expected ∨ (x ∈ before.sources ∧ x.uri ≠ row.cap.uri ∧
      (∀ r, previousRow before effective = some r → x.uri ≠ r.cap.uri) ∧
      ∀ source ∈ expected, x.sourcePath ≠ source.sourcePath)
  fts : ∀ x, x ∈ after.fts ↔
    x = (carryOver (previousRow before effective) effective).ftsRow row.id ∨
      (x ∈ before.fts ∧ x.rowid ≠ row.id)
  quarantine : after.quarantine = before.quarantine

section

variable {p : Platform} {db result : Database} {effective : Capability} {row : CapabilityRow}
variable {input : IngestInput p} {state next : Indexing}

theorem previous_row_mem (h : previousRow db effective = some row) : row ∈ db.capabilities := by
  unfold previousRow at h
  split at h
  · rename_i hat
    cases h
    exact (Database.capability_at_some hat).1
  · exact (Database.capability_with_key_some h).1

/-- Without a row to refresh, neither the URI nor the key is in the table. -/
theorem previous_row_none (h : previousRow db effective = none) :
    db.capabilityAt effective.uri = none ∧
      db.capabilityWithKey effective.canonicalKey = none := by
  unfold previousRow at h
  split at h
  · cases h
  · exact ⟨‹_›, h⟩

/-- A row at the capability's URI is the one it refreshes. -/
theorem previous_row_of_uri (hrow : row ∈ db.capabilities)
    (huri : row.cap.uri = effective.uri) : previousRow db effective = some row := by
  simp [previousRow, ← huri, Database.capability_at_eq hrow]

theorem previous_row_cases (h : previousRow db effective = some row) :
    row.cap.uri = effective.uri ∨ (db.capabilityAt effective.uri = none ∧
      row.cap.canonicalKey = effective.canonicalKey) := by
  unfold previousRow at h
  split at h
  · rename_i hat
    cases h
    exact .inl (Database.capability_at_some hat).2
  · exact .inr ⟨‹_›, (Database.capability_with_key_some h).2⟩

theorem carry_over_source (previous : Option CapabilityRow) (effective : Capability) :
    (carryOver previous effective).canonicalKey = effective.canonicalKey ∧
      (carryOver previous effective).contentHash = effective.contentHash ∧
      (carryOver previous effective).tenantId = effective.tenantId ∧
      (carryOver previous effective).sourceKind = effective.sourceKind := by
  unfold carryOver
  split
  · split <;> exact ⟨rfl, rfl, rfl, rfl⟩
  · exact ⟨rfl, rfl, rfl, rfl⟩

/-- A database in which the row a capability refreshes has moved to a URI. -/
structure Relocated (previous : Option CapabilityRow) (uri : String) (before after : Database) :
    Prop where
  capabilities : ∀ x, x ∈ after.capabilities ↔
    (∃ r, previous = some r ∧ x = r.moved uri) ∨ (x ∈ before.capabilities ∧ previous ≠ some x)
  sources : ∀ x, x ∈ after.sources ↔
    x ∈ before.sources ∧ ∀ r, previous = some r → r.cap.uri = uri ∨ x.uri ≠ r.cap.uri
  fts : after.fts = before.fts
  vectors : after.vectors = before.vectors
  quarantine : after.quarantine = before.quarantine

@[simp] theorem moved_self (row : CapabilityRow) : row.moved row.cap.uri = row := rfl

theorem migrate_canonical_uri_ok {new : String} (hrow : row ∈ db.capabilities)
    (hne : row.cap.uri ≠ new) (h : migrateCanonicalUri db row.cap.uri new = .ok result) :
    Relocated (some row) new db result := by
  simp only [migrateCanonicalUri, if_neg hne, Database.capability_at_eq hrow] at h
  obtain ⟨capabilities, hcapabilities, h⟩ := bind_eq_ok h
  obtain ⟨tuples, -, h⟩ := bind_eq_ok h
  cases h
  refine ⟨fun x => ?_, fun x => ?_, rfl, rfl, rfl⟩
  · rw [Table.mem_update? (constrained_ok hcapabilities)]
    -- The statement addresses the one row at the old URI.
    have hother : ∀ y ∈ db.capabilities, y ≠ row → y.cap.uri ≠ row.cap.uri :=
      fun y hy hyne huri => hyne (Database.eq_of_uri hy hrow huri)
    constructor
    · rintro ⟨y, hy, rfl⟩
      by_cases hyrow : y = row
      · subst hyrow
        exact .inl ⟨y, rfl, by simp [renamed, CapabilityRow.moved]⟩
      · right
        simp only [renamed, if_neg (hother y hy hyrow)]
        exact ⟨hy, fun heq => hyrow (Option.some.inj heq).symm⟩
    · rintro (⟨r, hr, rfl⟩ | ⟨hx, hxne⟩)
      · cases hr
        exact ⟨row, hrow, by simp [renamed, CapabilityRow.moved]⟩
      · refine ⟨x, hx, ?_⟩
        simp only [renamed, if_neg (hother x hx fun heq => hxne (heq ▸ rfl))]
  · simp [hne]

/-- Relocation moves the row a capability refreshes and nothing else. -/
theorem relocate_ok {previous : Option CapabilityRow} {uri : String}
    (hprevious : ∀ r, previous = some r → r ∈ db.capabilities)
    (h : relocate db previous uri = .ok result) : Relocated previous uri db result := by
  unfold relocate at h
  cases previous with
  | none =>
      cases h
      exact ⟨by simp, by simp, rfl, rfl, rfl⟩
  | some row =>
      have hrow := hprevious row rfl
      dsimp only at h
      split at h
      · exact migrate_canonical_uri_ok hrow ‹_› h
      · rename_i hsame
        have huri : row.cap.uri = uri := not_not.mp hsame
        subst huri
        cases h
        refine ⟨fun x => ?_, by simp, rfl, rfl, rfl⟩
        constructor
        · intro hx
          by_cases hxrow : x = row
          · exact .inl ⟨row, rfl, by simpa using hxrow⟩
          · exact .inr ⟨hx, fun heq => hxrow (Option.some.inj heq).symm⟩
        · rintro (⟨r, hr, rfl⟩ | ⟨hx, -⟩)
          · cases hr
            simpa using hrow
          · exact hx

theorem Relocated.capability_at {uri : String} (h : Relocated (previousRow db effective) uri db result)
    (huri : previousRow db effective = none → uri = effective.uri) :
    result.capabilityAt uri = (previousRow db effective).map (·.moved uri) := by
  cases hprevious : previousRow db effective with
  | some row =>
      have hmoved : row.moved uri ∈ result.capabilities :=
        (h.capabilities _).mpr (.inl ⟨row, hprevious, rfl⟩)
      exact Database.capability_at_eq hmoved
  | none =>
      cases hat : result.capabilityAt uri with
      | none => rfl
      | some x =>
          obtain ⟨hx, hxuri⟩ := Database.capability_at_some hat
          rcases (h.capabilities x).mp hx with ⟨r, hr, -⟩ | ⟨hx, -⟩
          · rw [hprevious] at hr
            cases hr
          · have hnone := (previous_row_none hprevious).1
            exact absurd (hxuri.trans (huri hprevious)) (Database.capability_at_none hnone hx)

@[simp] theorem count_db (state : Indexing) (previous : Option CapabilityRow) (hash : String) :
    (state.count previous hash).db = state.db := by
  unfold Indexing.count
  split
  · rfl
  · split <;> rfl

/-- The vector half of the loop body writes vectors, and flags the row when its embedding
failed. -/
theorem embed_db (state : Indexing) (input : IngestInput p) (id : Nat) (text : String)
    (unchanged : Bool) : ∃ vectors,
      (state.embed input id text unchanged).db = { state.db with vectors } ∨
      (state.embed input id text unchanged).db =
        markVectorFailure { state.db with vectors } id := by
  unfold Indexing.embed
  split
  · dsimp only
    split
    · exact ⟨_, .inl rfl⟩
    · exact ⟨_, .inr rfl⟩
  · exact ⟨state.db.vectors, .inl rfl⟩

theorem hold_downgrade_governed {held : Bool} (h : effective.Governed) :
    (holdDowngrade held effective).Governed := by
  unfold holdDowngrade
  split <;> exact h

theorem hold_downgrade_uri (held : Bool) (effective : Capability) :
    (holdDowngrade held effective).uri = effective.uri := by
  unfold holdDowngrade
  split <;> rfl

/-- Neither the clamp nor the downgrade of a held capability reaches the source rows or the
full-text row. -/
theorem incoming_rows (existing : Option CapabilityRow) (held : Bool) (effective : Capability) :
    let target := clampLifecycle existing (holdDowngrade held effective)
    target.uri = effective.uri ∧
      capabilitySourceRows p target = capabilitySourceRows p effective ∧
      (∀ id, target.ftsRow id = effective.ftsRow id) ∧ target.riskTier = effective.riskTier := by
  obtain ⟨lifecycle, heq⟩ := clamp_lifecycle_eq existing (holdDowngrade held effective)
  dsimp only
  rw [heq, holdDowngrade]
  split <;> exact ⟨rfl, capability_source_rows_congr rfl rfl rfl rfl, fun _ => rfl, rfl⟩

/-- The columns of an indexed capability that come from discovery or from the carry-over. -/
structure IndexedColumns (target cap : Capability) : Prop where
  uri : cap.uri = target.uri
  canonicalKey : cap.canonicalKey = target.canonicalKey
  contentHash : cap.contentHash = target.contentHash
  tenantId : cap.tenantId = target.tenantId
  sourceKind : cap.sourceKind = target.sourceKind
  storeId : cap.storeId = target.storeId
  namespaceId : cap.namespaceId = target.namespaceId
  packagePath : cap.packagePath = target.packagePath
  entrypoint : cap.entrypoint = target.entrypoint
  sourcePath : cap.sourcePath = target.sourcePath
  owner : cap.owner = target.owner
  createdBy : cap.createdBy = target.createdBy

theorem indexed_columns (held : Bool) (previous : Option CapabilityRow) (effective : Capability) :
    IndexedColumns (carryOver previous effective) (indexed held previous effective) := by
  unfold indexed
  dsimp only
  generalize previous.map (·.moved (carryOver previous effective).uri) = existing
  obtain ⟨lifecycle, heq⟩ :=
    clamp_lifecycle_eq existing (holdDowngrade held (carryOver previous effective))
  rw [heq, holdDowngrade]
  cases existing with
  | none => split <;> exact ⟨rfl, rfl, rfl, rfl, rfl, rfl, rfl, rfl, rfl, rfl, rfl, rfl⟩
  | some row => split <;> exact ⟨rfl, rfl, rfl, rfl, rfl, rfl, rfl, rfl, rfl, rfl, rfl, rfl⟩

/-- What the loop body did: it moved the row it refreshes and upserted the capability there. -/
theorem index_one_inv (h : indexOne p input state effective = .ok next) :
    let previous := previousRow state.db effective
    let target := carryOver previous effective
    ∃ moved id written, relocate state.db previous target.uri = .ok moved ∧
      upsertCapability p moved
        (holdDowngrade (capguardIsHeld moved.quarantine target) target) = .ok (id, written) ∧
      next = (({ state with db := written }).count previous target.contentHash).embed input id
        target.indexText (previousIndexText state.db previous = some target.indexText) := by
  unfold indexOne at h
  obtain ⟨moved, hmoved, h⟩ := bind_eq_ok h
  obtain ⟨⟨id, written⟩, hupsert, h⟩ := bind_eq_ok h
  cases h
  refine ⟨moved, id, written, hmoved, hupsert, ?_⟩
  have hsame : ∀ target : Capability, ∀ held, (holdDowngrade held target).contentHash =
      target.contentHash ∧ (holdDowngrade held target).indexText = target.indexText := by
    intro target held
    unfold holdDowngrade
    split <;> exact ⟨rfl, rfl⟩
  simp only [(hsame _ _).1, (hsame _ _).2]

theorem Relocated.landing {moved : Database} {id : Nat} {held : Bool} {target : Capability}
    (htarget : carryOver (previousRow db effective) effective = target)
    (hrelocated : Relocated (previousRow db effective) target.uri db moved)
    (hheld : capguardIsHeld db.quarantine target = held) (hgoverned : target.Governed)
    (h : upsertCapability p moved (holdDowngrade held target) = .ok (id, result)) :
    Landing p db result effective ⟨id, indexed held (previousRow db effective) effective⟩ := by
  have hat := hrelocated.capability_at fun hnone => by rw [← htarget, hnone]; rfl
  obtain ⟨table, expected, hwrite, hexpected, -, rfl⟩ := upsert_capability_ok h
  have hincoming : incoming p moved (holdDowngrade held target) = _ :=
    incoming_of_governed (hold_downgrade_governed hgoverned)
  rw [hold_downgrade_uri, hat] at hincoming
  obtain ⟨huri, hrows, hfts, -⟩ := incoming_rows (p := p)
    ((previousRow db effective).map (·.moved target.uri)) held target
  rw [hincoming] at hwrite hexpected
  rw [hrows] at hexpected
  obtain ⟨hmem, hid, hfresh⟩ := write_row_ok hwrite
  rw [huri, hat] at hmem hid hfresh
  have hindexed : indexed held (previousRow db effective) effective =
      written ((previousRow db effective).map (·.moved target.uri))
        (clampLifecycle ((previousRow db effective).map (·.moved target.uri))
          (holdDowngrade held target)) := by rw [indexed, htarget]
  rw [← hindexed] at hmem
  have hrowUri : (indexed held (previousRow db effective) effective).uri = target.uri := by
    rw [(indexed_columns held _ effective).uri, htarget]
  refine ⟨fun x => ?_, fun r hr => ?_, fun x hx hne => ?_, ?_,
    ⟨expected, by rw [htarget]; exact hexpected, fun x => ?_⟩, fun x => ?_,
    hrelocated.quarantine⟩
  · rw [hmem, hrelocated.capabilities]
    refine or_congr_right ?_
    constructor
    · rintro ⟨⟨r, hr, rfl⟩ | ⟨hx, hne⟩, huri⟩
      · exact absurd rfl huri
      · exact ⟨hx, hne⟩
    · rintro ⟨hx, hne⟩
      refine ⟨.inr ⟨hx, hne⟩, fun hxuri => ?_⟩
      have hmoved : x ∈ moved.capabilities := (hrelocated.capabilities x).mpr (.inr ⟨hx, hne⟩)
      have hxat : moved.capabilityAt target.uri = some x := by
        rw [← hxuri]
        exact Database.capability_at_eq hmoved
      rw [hat] at hxat
      obtain ⟨r, hr, hrx⟩ := Option.map_eq_some_iff.mp hxat
      -- The moved row keeps its id, so it is the row that was there before.
      have hid : x.id = r.id := by
        rw [← hrx]
        rfl
      exact hne (by rw [hr, Database.eq_of_id hx (previous_row_mem hr) hid])
  · exact hid (r.moved target.uri) (by rw [hr]; rfl)
  · cases hprevious : previousRow db effective with
    | none =>
        refine hfresh (by rw [hprevious]; rfl) x ?_
        exact (hrelocated.capabilities x).mpr (.inr ⟨hx, hne⟩)
    | some r =>
        intro hxid
        have hrid := hid (r.moved target.uri) (by rw [hprevious]; rfl)
        have hxr : x = r := Database.eq_of_id hx (previous_row_mem hprevious) (hxid.trans hrid)
        exact hne (hxr ▸ hprevious)
  · rw [htarget, hheld]
  · have hkeyed := (capability_source_rows_ok hexpected).1
    rw [hincoming, huri, mem_sync_sources hkeyed, hrelocated.sources, hrowUri]
    refine or_congr_right ?_
    constructor
    · rintro ⟨⟨hx, hmoved⟩, huri, hpaths⟩
      refine ⟨hx, huri, fun r hr hxr => ?_, hpaths⟩
      rcases hmoved r hr with hsame | hne
      · exact huri (hxr.trans hsame)
      · exact hne hxr
    · rintro ⟨hx, huri, hprevious, hpaths⟩
      exact ⟨⟨hx, fun r hr => .inr (hprevious r hr)⟩, huri, hpaths⟩
  · rw [hincoming, hfts, htarget, mem_sync_fts, hrelocated.fts]
    rfl

theorem Landing.vectors (h : Landing p db result effective row) (vectors : Table VectorRow) :
    Landing p db { result with vectors } effective row :=
  ⟨h.mem, h.id, h.others, h.columns, h.sources, h.fts, h.quarantine⟩

/-- Flagging a failed embedding changes the metadata of the row and nothing else. -/
theorem Landing.flagged {after : Database} (h : Landing p db result effective row)
    (hafter : after = markVectorFailure result row.id) :
    Landing p db after effective (row.markFailed row.id) := by
  have hmarked : row.markFailed row.id = { row with cap :=
      { row.cap with metadata := failedMetadata row.cap.metadata } } := by
    simp [CapabilityRow.markFailed]
  subst hafter
  refine ⟨fun x => ?_, ?_, ?_, ?_, ?_, ?_, h.quarantine⟩
  · have hother : ∀ y ∈ db.capabilities, previousRow db effective ≠ some y →
        y.markFailed row.id = y := fun y hy hne => by
      simp [CapabilityRow.markFailed, h.others y hy hne]
    rw [show x ∈ (markVectorFailure result row.id).capabilities ↔ _ from
      Table.mem_map (mark_failed_conflict row.id) x]
    constructor
    · rintro ⟨y, hy, rfl⟩
      rcases (h.mem y).mp hy with rfl | ⟨hy, hne⟩
      · exact .inl rfl
      · rw [hother y hy hne]
        exact .inr ⟨hy, hne⟩
    · rintro (rfl | ⟨hx, hne⟩)
      · exact ⟨row, (h.mem row).mpr (.inl rfl), rfl⟩
      · exact ⟨x, (h.mem x).mpr (.inr ⟨hx, hne⟩), hother x hx hne⟩
  · rw [hmarked]
    exact h.id
  · rw [hmarked]
    exact h.others
  · rw [hmarked]
    have hcolumns := h.columns
    rw [hcolumns]
  · rw [hmarked]
    exact h.sources
  · rw [hmarked]
    exact h.fts

/-- The loop body lands its capability in one row, when the upsert does not rename it. -/
theorem index_one_landing (hgoverned : (carryOver
    (previousRow state.db effective) effective).Governed)
    (h : indexOne p input state effective = .ok next) :
    ∃ row, Landing p state.db next.db effective row := by
  obtain ⟨moved, id, upserted, hmoved, hupsert, rfl⟩ := index_one_inv h
  have hrelocated := relocate_ok (fun r hr => previous_row_mem hr) hmoved
  rw [hrelocated.quarantine] at hupsert
  have hlanding := hrelocated.landing rfl rfl hgoverned hupsert
  generalize hcounted : ({ state with db := upserted }).count (previousRow state.db effective)
    (carryOver (previousRow state.db effective) effective).contentHash = counted
  have hcountedDb : counted.db = upserted := by rw [← hcounted, count_db]
  obtain ⟨vectors, hdb | hdb⟩ := embed_db counted input id
    (carryOver (previousRow state.db effective) effective).indexText
    (previousIndexText state.db (previousRow state.db effective) =
      some (carryOver (previousRow state.db effective) effective).indexText)
  · rw [hdb, hcountedDb]
    exact ⟨_, hlanding.vectors vectors⟩
  · rw [hdb, hcountedDb]
    exact ⟨_, (hlanding.vectors vectors).flagged rfl⟩

/-- A loop body that succeeds does not rename the capability: a promoted row that it carries over
has the capability's URI or its key. -/
theorem index_one_carried (heffective : effective.Governed) (htenant : effective.tenantId ≠ "")
    (h : indexOne p input state effective = .ok next) :
    (carryOver (previousRow state.db effective) effective).Governed := by
  obtain ⟨moved, id, upserted, hmoved, hupsert, -⟩ := index_one_inv h
  cases hprevious : previousRow state.db effective with
  | none => exact heffective
  | some row =>
      rw [hprevious] at hmoved hupsert
      by_cases hpromoted : row.cap.isPromoted = true
      · obtain ⟨hkey, -, htarget, hkind⟩ := carry_over_source (some row) effective
        have huri : (carryOver (some row) effective).uri = row.cap.uri := by
          simp [carryOver, hpromoted]
        generalize carryOver (some row) effective = target at *
        -- The capability is governed at its own URI, and so is what the upsert writes.
        have hgoverned : ∀ cap : Capability, cap.Governed → cap.uri = row.cap.uri →
            cap.sourceKind = target.sourceKind → target.Governed := by
          intro cap hcap hcapUri hcapKind
          rcases hcap with hsystem | ⟨hgoverned, -⟩
          · left
            simpa [Capability.isSystem, huri, ← hcapUri, ← hcapKind] using hsystem
          · exact .inr ⟨by rw [huri, ← hcapUri]; exact hgoverned, htarget ▸ htenant⟩
        rcases previous_row_cases hprevious with hsame | ⟨-, hsame⟩
        · exact hgoverned effective heffective hsame.symm hkind.symm
        · simp only [relocate, huri, ne_eq, not_true_eq_false, if_false] at hmoved
          cases hmoved
          generalize hheld : capguardIsHeld state.db.quarantine target = held at hupsert
          have hdowngrade : (holdDowngrade held target).canonicalKey = target.canonicalKey ∧
              (holdDowngrade held target).sourceKind = target.sourceKind := by
            unfold holdDowngrade
            split <;> exact ⟨rfl, rfl⟩
          have hwritten := upsert_at_key (previous_row_mem hprevious)
            (hsame.trans (hkey.symm.trans hdowngrade.1.symm)) hupsert
          refine hgoverned _ (apply_default_governed _) hwritten.symm ?_
          exact (apply_default_source _).2.2.trans hdowngrade.2
      · rw [show carryOver (some row) effective = effective by simp [carryOver, hpromoted]]
        exact heffective

/-- The loop body lands its capability in one row. -/
theorem index_one_ok (heffective : effective.Governed) (htenant : effective.tenantId ≠ "")
    (h : indexOne p input state effective = .ok next) :
    ∃ row, Landing p state.db next.db effective row :=
  index_one_landing (index_one_carried heffective htenant h) h

end

end Capmesh
