import Capmesh.Index.QuarantineFirst

/-!
# The row written for a discovered capability

An ingest places each capability of the batch, merges those with one effective URI, and
indexes the merged one. The row it writes for a capability has the canonical key of that
merged capability. `ingest_written` says where the row is: at the effective URI, or at the
address of the approved promotion with the same key. A later capability of the plan at that
address replaces the row. `ingest_stands` says for each URI which row the ingest leaves there.
-/

namespace Capmesh

open Python Relational

/-- The row an ingest wrote for a capability of its batch: the row with the key of the planned
capability at its effective URI. -/
def WrittenFor (p : Platform) (input : IngestInput p) (before after : Database)
    (planned : List Capability) (cap : Capability) (row : CapabilityRow) : Prop :=
  row ∈ after.capabilities ∧ ∃ e ∈ planned,
    e.uri = (effective p input.placement before.capabilities cap).uri ∧
      row.cap.canonicalKey = e.canonicalKey

/-- The URI a planned capability is written at: over the approved promotion with its key that is
the promoted address, unless a capability earlier in the plan has that URI. -/
def landingUri (db : Database) (earlier : List Capability) (e : Capability) : String :=
  match db.capabilityWithKey e.canonicalKey with
  | some row =>
      if row.cap.isPromoted && !earlier.any (·.uri = row.cap.uri) then row.cap.uri else e.uri
  | none => e.uri

/-- The planned capability whose row stands at a URI after the ingest. -/
def landedAt (db : Database) (uri : String) : List Capability → List Capability → Option Capability
  | _, [] => none
  | earlier, e :: later =>
      if landingUri db earlier e = uri && later.all (·.uri ≠ uri) then some e
      else landedAt db uri (earlier ++ [e]) later

/-- Whether a row outlasts an ingest as it is: no planned capability has its URI or its key, and it
keeps a source that none of them lays claim to. -/
def outlasts (p : Platform) (db : Database) (planned : List Capability) (row : CapabilityRow) :
    Bool :=
  planned.all (fun e => e.canonicalKey ≠ row.cap.canonicalKey && e.uri ≠ row.cap.uri) &&
    (row.cap.isSystemOrDraft || db.sources.any fun source => source.uri = row.cap.uri &&
      planned.all fun e => !(claimedPaths p e).contains source.sourcePath)

/-- The tenant and the source file of the row an ingest leaves at a URI. -/
def standsAt (p : Platform) (db : Database) (planned : List Capability) (uri : String) :
    Option (String × String) :=
  match landedAt db uri [] planned with
  | some e => some (e.tenantId, e.sourcePath)
  | none => ((db.capabilityAt uri).filter (outlasts p db planned)).map fun row =>
      (row.cap.tenantId, row.cap.sourcePath)

section

variable {p : Platform} {input : IngestInput p} {db result : Database}
variable {planned earlier later : List Capability} {changes : Changes}
variable {e : Capability} {row : CapabilityRow}

theorem landing_uri_cases (db : Database) (earlier : List Capability) (e : Capability) :
    landingUri db earlier e = e.uri ∨ ∃ r ∈ db.capabilities, r.cap.isPromoted = true ∧
      r.cap.canonicalKey = e.canonicalKey ∧ landingUri db earlier e = r.cap.uri := by
  unfold landingUri
  split
  · rename_i r hkey
    obtain ⟨hr, hrKey⟩ := Database.capability_with_key_some hkey
    split
    · rename_i hpromoted
      exact .inr ⟨r, hr, (Bool.and_eq_true _ _ ▸ hpromoted).1, hrKey, rfl⟩
    · exact .inl rfl
  · exact .inl rfl

/-- A plan of one capability has nothing before it. -/
theorem split_of_singleton {only : Capability} (h : [only] = earlier ++ e :: later) :
    earlier = [] ∧ e = only := by
  cases earlier with
  | nil => exact ⟨rfl, (List.cons.inj h).1.symm⟩
  | cons first earlier => simp at h

theorem carry_over_uri_of_at {r : CapabilityRow} (huri : r.cap.uri = e.uri) :
    (carryOver (some r) e).uri = e.uri := by
  unfold carryOver
  dsimp only
  split
  · exact huri
  · rfl

theorem Landing.uri_eq_landing_uri {before : Indexing} {after : Database} (hdb : db.Normalized)
    (hplanned : Planned p (earlier ++ e :: later))
    (hbefore : indexAll p input (.start db) earlier = .ok before)
    (hlanding : Landing p before.db after e row) :
    row.cap.uri = landingUri db earlier e := by
  have hearlier : Planned p earlier := hplanned.sublist (List.sublist_append_left _ _)
  have hprogress := (index_all_progress hearlier hdb hbefore).1
  -- A row with the key of the capability is a row of the start that nothing earlier named.
  have hkeyed : ∀ x ∈ before.db.capabilities, x.cap.canonicalKey = e.canonicalKey →
      x ∈ db.capabilities ∧ ∀ d ∈ earlier, d.uri ≠ x.cap.uri := by
    intro x hx hxKey
    rcases hprogress x hx with ⟨hstart, hdone⟩ | ⟨d, hd, hlanded⟩
    · exact ⟨hstart, fun d hd => (hdone d hd).2⟩
    · exact absurd (hlanded.canonicalKey.symm.trans hxKey) (hplanned.ne_of_mem (.inl hd)).2
  -- Without such a row the capability refreshes at most the row at its own URI.
  have hown : (∀ x ∈ before.db.capabilities, x.cap.canonicalKey ≠ e.canonicalKey) →
      row.cap.uri = e.uri := by
    intro hnone
    rw [hlanding.indexedColumns.uri]
    cases hprevious : previousRow before.db e with
    | none => rfl
    | some x =>
        rcases previous_row_cases hprevious with huri | ⟨-, hkey⟩
        · exact carry_over_uri_of_at huri
        · exact absurd hkey (hnone x (previous_row_mem hprevious))
  unfold landingUri
  cases hfound : db.capabilityWithKey e.canonicalKey with
  | none =>
      refine hown fun x hx hxKey => ?_
      exact absurd hxKey (Database.capability_with_key_none hfound (hkeyed x hx hxKey).1)
  | some r =>
      obtain ⟨hr, hrKey⟩ := Database.capability_with_key_some hfound
      by_cases hnamed : earlier.any (·.uri = r.cap.uri) = true
      · simp only [hnamed, Bool.not_true, Bool.and_false, Bool.false_eq_true, if_false]
        refine hown fun x hx hxKey => ?_
        obtain ⟨hxStart, hfree⟩ := hkeyed x hx hxKey
        obtain ⟨d, hd, huri⟩ := List.any_eq_true.mp hnamed
        rw [Database.eq_of_key hxStart hr (hxKey.trans hrKey.symm)] at hfree
        exact hfree d hd (by simpa using huri)
      · have hfree : ∀ d ∈ earlier, d.uri ≠ r.cap.uri := by simpa using hnamed
        have hrBefore : r ∈ before.db.capabilities := (index_all_untouched hearlier hdb hr
          (fun d hd => ⟨hrKey ▸ (hplanned.ne_of_mem (.inl hd)).2, hfree d hd⟩) hbefore).1
        have hprevious : previousRow before.db e = some r := by
          by_contra hprevious
          -- Otherwise the landed row and this one would share the key.
          have hsame := Database.eq_of_key hlanding.row_mem (hlanding.kept hrBefore hprevious)
            (hlanding.canonicalKey.trans hrKey.symm)
          exact hlanding.others r hrBefore hprevious (congrArg CapabilityRow.id hsame.symm)
        rw [hlanding.indexedColumns.uri, hprevious]
        simp only [carryOver, Bool.eq_false_iff.mpr hnamed, Bool.not_false, Bool.and_true]
        split <;> rfl

/-- What the row of a planned capability takes from it. -/
structure WrittenColumns (db : Database) (earlier : List Capability) (e : Capability)
    (row : CapabilityRow) : Prop where
  uri : row.cap.uri = landingUri db earlier e
  tenantId : row.cap.tenantId = e.tenantId
  sourcePath : row.cap.sourcePath = e.sourcePath

theorem Landing.sourcePath {after : Database} (h : Landing p db after e row) :
    row.cap.sourcePath = e.sourcePath := by
  rw [h.indexedColumns.sourcePath]
  unfold carryOver
  split
  · split <;> rfl
  · rfl

theorem landing_uri_holds_added {held : Database} (h : HoldsAdded db held) :
    landingUri held earlier e = landingUri db earlier e := by
  unfold landingUri Database.capabilityWithKey
  rw [h.capabilities]

theorem Planned.eq_of_key {d : Capability} (h : Planned p (earlier ++ e :: later))
    (hd : d ∈ earlier ++ e :: later) (hkey : d.canonicalKey = e.canonicalKey) : d = e := by
  by_contra hne
  have hother : d ∈ earlier ∨ d ∈ later := by simpa [hne] using hd
  exact (h.ne_of_mem hother).2 hkey

theorem index_all_key_uri {final : Indexing} (hdb : db.Normalized)
    (hplanned : Planned p (earlier ++ e :: later))
    (h : indexAll p input (.start db) (earlier ++ e :: later) = .ok final)
    (hrow : row ∈ final.db.capabilities) (hkey : row.cap.canonicalKey = e.canonicalKey) :
    row ∈ db.capabilities ∨ row.cap.uri = landingUri db earlier e := by
  rcases index_all_landed hplanned hdb h hrow with
    hstart | ⟨done, d, rest, before, after, hsplit, hbefore, hlanding⟩
  · exact .inl hstart
  · obtain rfl : d = e := hplanned.eq_of_key (by rw [hsplit]; simp)
      (hlanding.canonicalKey.symm.trans hkey)
    have hnotMem : d ∉ earlier ∧ d ∉ later := ⟨fun hd => (hplanned.ne_of_mem (.inl hd)).1 rfl,
      fun hd => (hplanned.ne_of_mem (.inr hd)).1 rfl⟩
    obtain ⟨rfl, -, rfl⟩ :=
      (List.append_cons_inj_of_notMem hnotMem.1 hnotMem.2).mp hsplit
    exact .inr (hlanding.uri_eq_landing_uri hdb hplanned hbefore)

theorem ingest_landed (hdb : db.Normalized) (h : ingest p db input = (result, .ok changes))
    (hplan : plan p input db.capabilities = .ok (earlier ++ e :: later)) :
    ∃ before after landed, Landing p before after e landed ∧
      landed.cap.uri = landingUri db earlier e ∧
      (∀ row ∈ result.capabilities, row.cap.canonicalKey = e.canonicalKey →
        row = landed ∧ ∀ d ∈ later, d.uri ≠ landingUri db earlier e) ∧
      ((∀ d ∈ later, d.uri ≠ landingUri db earlier e) → landed ∈ result.capabilities) := by
  obtain ⟨held, counts, planned', final, removed, hquarantine, hadded, hplan', hindex, hdelete, -⟩ :=
    ingest_ok h
  cases hplan.symm.trans hplan'
  have hplanned := plan_ok hplan
  have hheldDb := normalized_holds_added hdb hadded
  have hretired := delete_source_orphaned_ok hdelete
  obtain ⟨before, next, landed, hbefore, -, -, hlanding, hsettled⟩ :=
    index_all_settled hplanned hheldDb hindex
  have huri := hlanding.uri_eq_landing_uri hheldDb hplanned hbefore
  rw [landing_uri_holds_added hadded] at huri
  have hstands : (∀ d ∈ later, d.uri ≠ landingUri db earlier e) → landed ∈ result.capabilities := by
    intro hfree
    have hsettledRow := hsettled (huri ▸ hfree)
    exact (hretired.mem_iff landed).mpr ⟨hsettledRow.mem, hsettledRow.not_orphan⟩
  refine ⟨before.db, next.db, landed, hlanding, huri, fun row hrow hkey => ?_, hstands⟩
  have hfree : ∀ d ∈ later, d.uri ≠ landingUri db earlier e := by
    intro d hd hsame
    obtain ⟨hrowFinal, -⟩ := (hretired.mem_iff row).mp hrow
    -- The landing URI is then the address of the promotion, which the row left for good.
    obtain ⟨r, hr, hpromoted, hrKey, hrUri⟩ := (landing_uri_cases db earlier e).resolve_left
      fun hown => (hplanned.ne_of_mem (.inr hd)).1 (hsame.trans hown)
    rcases (index_all_progress hplanned hheldDb hindex).1 row hrowFinal with
      ⟨-, hdone⟩ | ⟨d', hd', hlanded⟩
    · exact (hdone e (by simp)).1 hkey.symm
    · rcases hlanded.address with hown | ⟨other, hother, -, hotherKey, -, haway⟩
      · have hd'e : d' = e := hplanned.eq_of_key hd' (hlanded.canonicalKey.symm.trans hkey)
        rcases index_all_key_uri hheldDb hplanned hindex hrowFinal hkey with hstart | hlandingUri
        · have hrow : row = r := Database.eq_of_key (hadded.capabilities ▸ hstart) hr
            (hkey.trans hrKey.symm)
          exact (hplanned.ne_of_mem (.inr hd)).1
            (by rw [hsame, hrUri, ← hrow, hown, hd'e])
        · rw [landing_uri_holds_added hadded] at hlandingUri
          exact (hplanned.ne_of_mem (.inr hd)).1
            (by rw [hsame, ← hlandingUri, hown, hd'e])
      · have hsameRow : other = r := Database.eq_of_key (hadded.capabilities ▸ hother) hr
          (hotherKey.trans (hlanded.canonicalKey.symm.trans (hkey.trans hrKey.symm)))
        exact haway d (by simp [hd]) (by rw [hsame, hrUri, hsameRow])
  exact ⟨Database.eq_of_key hrow (hstands hfree) (hkey.trans hlanding.canonicalKey.symm), hfree⟩

/-- The row written for a planned capability stands at its landing URI, unless a later capability
of the plan has that URI. -/
theorem ingest_written (hdb : db.Normalized) (h : ingest p db input = (result, .ok changes))
    (hplan : plan p input db.capabilities = .ok (earlier ++ e :: later)) :
    (∀ row ∈ result.capabilities, row.cap.canonicalKey = e.canonicalKey →
      WrittenColumns db earlier e row ∧ ∀ d ∈ later, d.uri ≠ landingUri db earlier e) ∧
    ((∀ d ∈ later, d.uri ≠ landingUri db earlier e) →
      ∃ row ∈ result.capabilities, row.cap.canonicalKey = e.canonicalKey) := by
  obtain ⟨before, after, landed, hlanding, huri, hkeyed, hstands⟩ := ingest_landed hdb h hplan
  have hcolumns : WrittenColumns db earlier e landed :=
    ⟨huri, hlanding.indexedColumns.tenantId.trans (carry_over_source _ e).2.2.1,
      hlanding.sourcePath⟩
  refine ⟨fun row hrow hkey => ?_, fun hfree => ⟨landed, hstands hfree, hlanding.canonicalKey⟩⟩
  obtain ⟨rfl, hfree⟩ := hkeyed row hrow hkey
  exact ⟨hcolumns, hfree⟩

theorem landed_at_some {uri : String} (h : landedAt db uri earlier planned = some e) :
    ∃ front later, planned = front ++ e :: later ∧ landingUri db (earlier ++ front) e = uri ∧
      ∀ d ∈ later, d.uri ≠ uri := by
  induction planned generalizing earlier with
  | nil => cases h
  | cons first rest ih =>
      unfold landedAt at h
      split at h
      · rename_i hlands
        cases h
        simp only [Bool.and_eq_true, decide_eq_true_eq, List.all_eq_true] at hlands
        exact ⟨[], rest, rfl, by simpa using hlands.1, hlands.2⟩
      · obtain ⟨front, later, rfl, hlands, hfree⟩ := ih h
        exact ⟨first :: front, later, rfl, by simpa using hlands, hfree⟩

theorem landed_at_none {uri : String} {front : List Capability}
    (h : landedAt db uri earlier (front ++ e :: later) = none)
    (hlands : landingUri db (earlier ++ front) e = uri) : ∃ d ∈ later, d.uri = uri := by
  induction front generalizing earlier with
  | nil =>
      rw [List.append_nil] at hlands
      rw [List.nil_append, landedAt] at h
      by_contra hfree
      simp only [not_exists, not_and] at hfree
      rw [if_pos (by simpa [hlands] using hfree)] at h
      cases h
  | cons first front ih =>
      rw [List.cons_append, landedAt] at h
      split at h
      · cases h
      · exact ih h (by simpa using hlands)

theorem is_orphan_iff : db.isOrphan row = false ↔
    row.cap.isSystemOrDraft = true ∨ ∃ x ∈ db.sources, x.uri = row.cap.uri := by
  unfold Database.isOrphan
  simp [Table.any_iff, or_iff_not_imp_left]

theorem outlasts_iff : outlasts p db planned row = true ↔
    (∀ e ∈ planned, e.canonicalKey ≠ row.cap.canonicalKey ∧ e.uri ≠ row.cap.uri) ∧
      (row.cap.isSystemOrDraft = true ∨ ∃ x ∈ db.sources, x.uri = row.cap.uri ∧
        ∀ e ∈ planned, x.sourcePath ∉ claimedPaths p e) := by
  simp [outlasts, Table.any_iff]

/-- The rows that no planned capability landed in are those that outlast the ingest. -/
theorem ingest_outlasts (hdb : db.Normalized) (h : ingest p db input = (result, .ok changes))
    (hplan : plan p input db.capabilities = .ok planned) :
    (row ∈ result.capabilities ∧ ∀ e ∈ planned, e.canonicalKey ≠ row.cap.canonicalKey) ↔
      row ∈ db.capabilities ∧ outlasts p db planned row = true := by
  obtain ⟨held, counts, planned', final, removed, hquarantine, hadded, hplan', hindex, hdelete, -⟩ :=
    ingest_ok h
  cases hplan.symm.trans hplan'
  have hplanned := plan_ok hplan
  have hheldDb := normalized_holds_added hdb hadded
  have hsources : held.sources = db.sources := by rw [hadded.rest]
  rw [(delete_source_orphaned_ok hdelete).mem_iff, is_orphan_iff, outlasts_iff,
    ← hadded.capabilities, ← hsources]
  constructor
  · rintro ⟨⟨hrow, hsource⟩, hkeys⟩
    rcases (index_all_progress hplanned hheldDb hindex).1 row hrow with
      ⟨hstart, hfree⟩ | ⟨d, hd, hlanded⟩
    · obtain ⟨-, hleft⟩ := index_all_untouched hplanned hheldDb hstart hfree hindex
      refine ⟨hstart, hfree, hsource.imp_right ?_⟩
      rintro ⟨x, hx, hxUri⟩
      obtain ⟨hxStart, hxFree⟩ := (hleft x hxUri).mp hx
      exact ⟨x, hxStart, hxUri, hxFree⟩
    · exact absurd hlanded.canonicalKey.symm (hkeys d hd)
  · rintro ⟨hstart, hfree, hsource⟩
    obtain ⟨hrow, hleft⟩ := index_all_untouched hplanned hheldDb hstart hfree hindex
    refine ⟨⟨hrow, hsource.imp_right ?_⟩, fun e he => (hfree e he).1⟩
    rintro ⟨x, hx, hxUri, hxFree⟩
    exact ⟨x, (hleft x hxUri).mpr ⟨hx, hxFree⟩, hxUri⟩

/-- What an ingest leaves at each URI: the row of the planned capability that landed there last, or
else the row that stood there, if it outlasts the ingest. -/
theorem ingest_stands (hdb : db.Normalized) (h : ingest p db input = (result, .ok changes))
    (hplan : plan p input db.capabilities = .ok planned) (uri : String) :
    (result.capabilityAt uri).map (fun row => (row.cap.tenantId, row.cap.sourcePath)) =
      standsAt p db planned uri := by
  unfold standsAt
  cases hlanded : landedAt db uri [] planned with
  | some e =>
      obtain ⟨front, later, rfl, rfl, hfree⟩ := landed_at_some hlanded
      obtain ⟨hcolumns, hstands⟩ := ingest_written hdb h hplan
      obtain ⟨row, hrow, hkey⟩ := hstands hfree
      have hcolumns := (hcolumns row hrow hkey).1
      rw [List.nil_append, ← hcolumns.uri, Database.capability_at_eq hrow]
      simp only [Option.map_some, hcolumns.tenantId, hcolumns.sourcePath]
  | none =>
      have hsame : result.capabilityAt uri =
          (db.capabilityAt uri).filter (outlasts p db planned) := by
        ext row
        have houtlasts : (row ∈ result.capabilities ∧
            ∀ e ∈ planned, e.canonicalKey ≠ row.cap.canonicalKey) ↔
            row ∈ db.capabilities ∧ outlasts p db planned row = true :=
          ingest_outlasts hdb h hplan
        rw [Option.filter_eq_some_iff]
        constructor
        · intro hat
          obtain ⟨hrow, rfl⟩ := Database.capability_at_some hat
          have hkeys : ∀ e ∈ planned, e.canonicalKey ≠ row.cap.canonicalKey := by
            intro e he hkey
            obtain ⟨front, later, rfl⟩ := List.append_of_mem he
            obtain ⟨hcolumns, hfree⟩ := (ingest_written hdb h hplan).1 row hrow hkey.symm
            obtain ⟨d, hd, huri⟩ := landed_at_none hlanded hcolumns.uri.symm
            exact hfree d hd (huri.trans hcolumns.uri)
          obtain ⟨hstart, houtlasts⟩ := houtlasts.mp ⟨hrow, hkeys⟩
          exact ⟨Database.capability_at_eq hstart, houtlasts⟩
        · rintro ⟨hat, houtlasts'⟩
          obtain ⟨hstart, rfl⟩ := Database.capability_at_some hat
          exact Database.capability_at_eq (houtlasts.mpr ⟨hstart, houtlasts'⟩).1
      rw [hsame]

end

end Capmesh
