import Capmesh.Discovery.Attribution
import Capmesh.Index.CanonicalMerge

/-!
# Provenance through the two merges

Discovery merges the capabilities of one canonical key, the default namespace gives each winner its
effective URI, and ingest merges the winners of one URI. The second merge unfolds the provenance
that the first one recorded. Read `sources_unified` first: for discovered capabilities with
different source paths the result does not depend on their order, and loses no source.
-/

namespace Capmesh

open Python Relational

/-- Discovery's merge, the default namespace without a placement, and the merge of ingest. -/
def unifySources (p : Platform) (caps : List Capability) : Except Failure (List Capability) := do
  let canonical ← mergeDuplicateCapabilities p caps
  mergeByEffectiveUri p (canonical.map (applyDefaultUserNamespace p))

/-- The tuple of a source row. -/
def SourceRow.tuple (row : SourceRow) : SourceTuple :=
  ⟨row.sourcePath, row.sourceKind, row.sourceSystem, row.contentHash⟩

/-- A tuple as discovery writes it: a normalized path, and no empty label. -/
structure SourceTuple.Labelled (p : Platform) (source : SourceTuple) : Prop where
  normal : p.normalizePath source.sourcePath = source.sourcePath
  kind : source.sourceKind ≠ ""
  system : source.sourceSystem ≠ ""
  hash : source.contentHash ≠ ""

/-- The metadata of a capability records these sources, and no other path. -/
structure Recorded (p : Platform) (cap : Capability) (sources : List SourceTuple) : Prop where
  provenance : Dict.get? cap.metadata "sourceProvenance" =
    some (.arr (sources.map SourceTuple.record))
  paths : ∃ paths : List String, Dict.get? cap.metadata "sourcePaths" =
    some (.arr (paths.map .str)) ∧ ∀ path ∈ paths, ∃ source ∈ sources, source.sourcePath = path
  own : ∃ source ∈ sources, source.sourcePath = p.normalizePath cap.sourcePath
  nodup : sources.Nodup
  labelled : ∀ source ∈ sources, source.Labelled p

section

variable {p : Platform} {caps others merged : List Capability} {cap e : Capability} {uri : String}
  {sources : List SourceTuple} {source : SourceTuple} {recorded : Capability → List SourceTuple}

/-- The metadata that the first merge writes. -/
theorem canonical_metadata_get? (p : Platform) (preferred : Capability)
    (sources : List SourceTuple) (ambiguous : List String) :
    Dict.get? (canonicalMetadata p preferred sources ambiguous) "sourceProvenance" =
        some (.arr (sources.map SourceTuple.record)) ∧
      Dict.get? (canonicalMetadata p preferred sources ambiguous) "sourcePaths" =
        some (.arr (((sources.map (·.sourcePath)).dedup.insertionSort (· ≤ ·)).map .str)) := by
  unfold canonicalMetadata
  dsimp only
  split <;> split <;> simp [Dict.get?_set_of_ne, Dict.get?_set]

theorem recorded_canonical {preferred : Capability} {group : List Capability}
    (hpreferred : preferred ∈ group)
    (hlabelled : ∀ cap ∈ group, (cap.sourceTuple p).Labelled p) (ambiguous : List String) :
    Recorded p { preferred with
      metadata := canonicalMetadata p preferred (canonicalProvenance p group) ambiguous }
      (canonicalProvenance p group) := by
  obtain ⟨hprovenance, hpaths⟩ :=
    canonical_metadata_get? p preferred (canonicalProvenance p group) ambiguous
  refine ⟨hprovenance, ⟨_, hpaths, fun path hpath => ?_⟩,
    ⟨_, mem_canonical_provenance.mpr ⟨preferred, hpreferred, rfl⟩, rfl⟩,
    canonical_provenance_nodup, fun source hsource => ?_⟩
  · obtain ⟨source, hsource, heq⟩ :=
      List.mem_map.mp (List.mem_dedup.mp ((List.mem_insertionSort _).mp hpath))
    exact ⟨source, hsource, heq⟩
  · obtain ⟨cap, hcap, rfl⟩ := mem_canonical_provenance.mp hsource
    exact hlabelled cap hcap

theorem Recorded.namespaced (h : Recorded p cap sources) :
    Recorded p (applyDefaultUserNamespace p cap) sources := by
  obtain ⟨hpath, hprovenance⟩ :=
    apply_default_metadata (p := p) (show "sourceProvenance" ∉ addressKeys by decide) cap
  obtain ⟨-, hpaths⟩ := apply_default_metadata (p := p) (show "sourcePaths" ∉ addressKeys by decide) cap
  refine ⟨by rw [hprovenance, h.provenance], ?_, by rw [hpath]; exact h.own, h.nodup, h.labelled⟩
  obtain ⟨paths, hget, hmem⟩ := h.paths
  exact ⟨paths, by rw [hpaths, hget], hmem⟩

/-- The second merge reads a record as it was written. -/
theorem provenance_row_record (h : source.Labelled p) :
    provenanceRow p cap source.record = some (source.toRow cap.uri) := by
  have hpath : source.sourcePath ≠ "" := h.normal ▸ p.normalizePath_ne _
  simp [provenanceRow, SourceTuple.record, SourceRow.record, SourceTuple.toRow, Dict.truthy,
    Dict.get?, Json.truthy, Json.toStr, Json.strText, hpath, h.normal, h.kind, h.system, h.hash]

theorem Recorded.mirror (h : Recorded p cap sources) :
    mirrorProvenance p cap = .ok (sources.map (·.toRow cap.uri)) := by
  obtain ⟨paths, hget, hmem⟩ := h.paths
  have hprior : (sources.map SourceTuple.record).filterMap (provenanceRow p cap) =
      sources.map (·.toRow cap.uri) := by
    rw [List.filterMap_map, ← List.filterMap_eq_map]
    exact List.filterMap_congr fun source hsource => provenance_row_record (h.labelled source hsource)
  -- every path the mirror lists is the path of a source it records
  have hrepresented : ∀ path, (∃ source ∈ sources, source.sourcePath = p.normalizePath path) →
      ((sources.map (·.toRow cap.uri)).all
        (·.sourcePath ≠ (plainSource p cap path).sourcePath)) = false := by
    rintro path ⟨source, hsource, hpath⟩
    rw [List.all_eq_false]
    exact ⟨_, List.mem_map_of_mem hsource, by simp [SourceTuple.toRow, plainSource, hpath]⟩
  have hlisted : ∀ path ∈ paths, ∃ source ∈ sources, source.sourcePath = p.normalizePath path := by
    intro path hpath
    obtain ⟨source, hsource, rfl⟩ := hmem path hpath
    exact ⟨source, hsource, (h.labelled source hsource).normal.symm⟩
  have hplain : ∀ items : List String,
      (∀ path ∈ items, ∃ source ∈ sources, source.sourcePath = p.normalizePath path) →
      ((((items.map Json.str).filter Json.truthy).map fun path =>
        plainSource p cap path.toStr).filter fun row =>
          (sources.map (·.toRow cap.uri)).all (·.sourcePath ≠ row.sourcePath)) = [] := by
    intro items hitems
    refine List.filter_eq_nil_iff.mpr fun row hrow => ?_
    obtain ⟨json, hjson, rfl⟩ := List.mem_map.mp hrow
    obtain ⟨path, hpath, rfl⟩ := List.mem_map.mp (List.mem_filter.mp hjson).1
    rw [show (Json.str path).toStr = path from rfl, hrepresented path (hitems path hpath)]
    decide
  unfold mirrorProvenance mirrorPaths
  simp only [h.provenance, hget, hprior]
  split
  · show Except.ok (_ ++ _) = _
    rw [hplain paths hlisted, List.append_nil]
  · show Except.ok (_ ++ _) = _
    rw [show [Json.str cap.sourcePath] = [cap.sourcePath].map Json.str from rfl,
      hplain [cap.sourcePath] (by simpa using h.own), List.append_nil]

theorem group_provenance_recorded (h : ∀ cap ∈ caps, Recorded p cap (recorded cap)) :
    groupProvenance p caps =
      .ok (caps.flatMap fun cap => (recorded cap).map (·.toRow cap.uri)) := by
  induction caps with
  | nil => rfl
  | cons cap caps ih =>
      rw [groupProvenance, (h cap List.mem_cons_self).mirror,
        ih fun cap hcap => h cap (List.mem_cons_of_mem _ hcap)]
      rfl

theorem outranks_iff (a b : Capability) : outranks p a b = true ↔
    if a.authority p ≠ b.authority p then b.authority p ≤ a.authority p
    else if a.canonicalKey ≠ b.canonicalKey then a.canonicalKey ≤ b.canonicalKey
    else if a.sourceSystem ≠ b.sourceSystem then a.sourceSystem ≤ b.sourceSystem
    else p.normalizePath a.sourcePath ≤ p.normalizePath b.sourcePath := by
  unfold outranks
  split_ifs <;> simp
  omega

theorem outranks_preordered : Preordered fun a b => outranks p a b = true := by
  simp only [outranks_iff]
  exact .byKey _ ranks_preordered (fun _ _ hab hba => Nat.le_antisymm hba hab) <|
    .byKey _ texts_preordered texts_antisymm <| .byKey _ texts_preordered texts_antisymm <|
      texts_preordered.comap fun cap : Capability => p.normalizePath cap.sourcePath

theorem outranks_antisymm {a b : Capability} (hab : outranks p a b = true)
    (hba : outranks p b a = true) :
    p.normalizePath a.sourcePath = p.normalizePath b.sourcePath := by
  rw [outranks_iff] at hab hba
  obtain ⟨-, hab, hba⟩ := byKey_antisymm (Capability.authority p)
    (fun _ _ hab hba => Nat.le_antisymm hba hab) hab hba
  obtain ⟨-, hab, hba⟩ := byKey_antisymm Capability.canonicalKey texts_antisymm hab hba
  obtain ⟨-, hab, hba⟩ := byKey_antisymm Capability.sourceSystem texts_antisymm hab hba
  exact texts_antisymm _ _ hab hba

theorem authority_of_outranks {a b : Capability} (h : outranks p a b = true) :
    b.authority p ≤ a.authority p := by
  rw [outranks_iff] at h
  split at h
  · exact h
  · rename_i hsame
    exact (not_not.mp hsame).ge

theorem group_metadata_provenance (winner : Capability) (rows : List SourceRow)
    (ambiguous : List String) :
    Dict.get? (groupMetadata p winner rows ambiguous) "sourceProvenance" =
      some (.arr ((rows.dedup.insertionSort fun a b => a.precedes b).map SourceRow.record)) := by
  unfold groupMetadata
  dsimp only
  split <;> split <;> simp [Dict.get?_set_of_ne, Dict.get?_set]

theorem group_metadata_congr {rows again : List SourceRow} (winner : Capability)
    (ambiguous : List String) (huri : ∀ row ∈ rows, row.uri = uri)
    (h : ∀ row, row ∈ rows ↔ row ∈ again) :
    groupMetadata p winner rows ambiguous = groupMetadata p winner again ambiguous := by
  have hsorted := sorted_set_eq precedes_preordered
    (fun a ha b hb => precedes_antisymm ((huri a ha).trans (huri b hb).symm)) h
  unfold groupMetadata
  rw [hsorted]

theorem collision_message_perm (winner : Capability) (h : caps.Perm others) :
    collisionMessage p uri winner caps = collisionMessage p uri winner others := by
  have hhashes := (((h.filter fun cap => decide (cap.authority p = winner.authority p)).map
    (·.contentHash)).dedup).length_eq
  unfold collisionMessage
  rw [ambiguous_sources_perm winner h]
  simp only [hhashes]

/-- The rows that the members of one URI contribute. -/
def recordedRows (recorded : Capability → List SourceTuple) (caps : List Capability) :
    List SourceRow :=
  caps.flatMap fun cap => (recorded cap).map (·.toRow cap.uri)

theorem mem_recorded_rows {row : SourceRow} (huri : ∀ cap ∈ caps, cap.uri = uri) :
    row ∈ recordedRows recorded caps ↔
      row.uri = uri ∧ ∃ cap ∈ caps, row.tuple ∈ recorded cap := by
  rw [recordedRows, List.mem_flatMap]
  constructor
  · rintro ⟨cap, hcap, hrow⟩
    obtain ⟨source, hsource, rfl⟩ := List.mem_map.mp hrow
    exact ⟨huri cap hcap, cap, hcap, hsource⟩
  · rintro ⟨hrow, cap, hcap, hsource⟩
    refine ⟨cap, hcap, List.mem_map.mpr ⟨row.tuple, hsource, ?_⟩⟩
    rw [huri cap hcap, ← hrow]
    rfl

/-- A group of more than one member, as the code handles it. -/
theorem merge_group_of_many (hcaps : caps.length ≠ 1)
    (hrecorded : ∀ cap ∈ caps, Recorded p cap (recorded cap)) :
    mergeGroup p uri caps =
      match caps.insertionSort fun a b => outranks p a b with
      | [] => .ok []
      | winner :: _ =>
          if !(ambiguousSources p winner caps).isEmpty && p.strictCollisions then
            .error (.value (collisionMessage p uri winner caps))
          else .ok [{ winner with
            metadata := groupMetadata p winner (recordedRows recorded caps)
              (ambiguousSources p winner caps) }] := by
  unfold mergeGroup
  split
  · exact absurd rfl hcaps
  · rw [group_provenance_recorded hrecorded]
    rfl

/-- The outcome for one URI does not depend on the order of its members. -/
theorem merge_group_perm (hpaths : PathsApart p caps) (huri : ∀ cap ∈ caps, cap.uri = uri)
    (hrecorded : ∀ cap ∈ caps, Recorded p cap (recorded cap)) (h : caps.Perm others) :
    mergeGroup p uri caps = mergeGroup p uri others := by
  by_cases hone : caps.length = 1
  · obtain ⟨cap, rfl⟩ := List.length_eq_one_iff.mp hone
    rw [List.singleton_perm.mp h]
  · have hranked : caps.insertionSort (fun a b => outranks p a b) =
        others.insertionSort fun a b => outranks p a b :=
      sort_eq_of_perm outranks_preordered
        (fun a ha b hb hab hba => hpaths.eq ha hb (outranks_antisymm hab hba)) h
    rw [merge_group_of_many hone hrecorded, merge_group_of_many (h.length_eq ▸ hone)
      fun cap hcap => hrecorded cap (h.mem_iff.mpr hcap), hranked]
    have hrows : ∀ row, row ∈ recordedRows recorded caps ↔ row ∈ recordedRows recorded others :=
      fun row => by
        rw [mem_recorded_rows huri, mem_recorded_rows fun cap hcap => huri cap (h.mem_iff.mpr hcap)]
        simp only [h.mem_iff]
    have huris : ∀ row ∈ recordedRows recorded caps, row.uri = uri :=
      fun row hrow => ((mem_recorded_rows huri).mp hrow).1
    cases others.insertionSort fun a b => outranks p a b with
    | nil => rfl
    | cons winner rest =>
        simp only [ambiguous_sources_perm winner h, collision_message_perm winner h,
          group_metadata_congr winner _ huris hrows]

theorem merge_group_is_ok (hstrict : p.strictCollisions = false)
    (hrecorded : ∀ cap ∈ caps, Recorded p cap (recorded cap)) :
    ∃ merged, mergeGroup p uri caps = .ok merged := by
  by_cases hone : caps.length = 1
  · obtain ⟨cap, rfl⟩ := List.length_eq_one_iff.mp hone
    exact ⟨_, rfl⟩
  · rw [merge_group_of_many hone hrecorded]
    cases caps.insertionSort fun a b => outranks p a b with
    | nil => exact ⟨_, rfl⟩
    | cons winner rest =>
        simp only [hstrict, Bool.and_false, Bool.false_eq_true, if_false]
        exact ⟨_, rfl⟩

theorem merge_group_recorded (hcaps : caps ≠ []) (huri : ∀ cap ∈ caps, cap.uri = uri)
    (hrecorded : ∀ cap ∈ caps, Recorded p cap (recorded cap))
    (h : mergeGroup p uri caps = .ok merged) :
    ∃ winner ∈ caps, (∀ cap ∈ caps, cap.authority p ≤ winner.authority p) ∧
      ∃ (metadata : Dict) (sources : List SourceTuple), merged = [{ winner with metadata }] ∧
        Dict.get? metadata "sourceProvenance" = some (.arr (sources.map SourceTuple.record)) ∧
        sources.Nodup ∧ ∀ source, source ∈ sources ↔ ∃ cap ∈ caps, source ∈ recorded cap := by
  by_cases hone : caps.length = 1
  · obtain ⟨cap, rfl⟩ := List.length_eq_one_iff.mp hone
    cases h
    have hown := hrecorded cap (List.mem_singleton_self cap)
    exact ⟨cap, List.mem_singleton_self cap, by simp, cap.metadata, recorded cap, rfl,
      hown.provenance, hown.nodup, by simp⟩
  · rw [merge_group_of_many hone hrecorded] at h
    cases hranked : caps.insertionSort fun a b => outranks p a b with
    | nil =>
        have hperm := List.perm_insertionSort (fun a b => outranks p a b = true) caps
        rw [hranked] at hperm
        exact absurd hperm.symm.eq_nil hcaps
    | cons winner rest =>
        obtain ⟨hmem, hfirst⟩ := sort_head_le outranks_preordered hranked
        simp only [hranked] at h
        split at h
        · cases h
        cases h
        refine ⟨winner, hmem, fun cap hcap => authority_of_outranks (hfirst cap hcap), _,
          ((recordedRows recorded caps).dedup.insertionSort fun a b => a.precedes b).map
            SourceRow.tuple, rfl, ?_, ?_, fun source => ?_⟩
        · rw [group_metadata_provenance, List.map_map]
          rfl
        · refine ((List.perm_insertionSort _ _).map _).nodup_iff.mpr
            ((List.nodup_dedup _).map_on fun a ha b hb hab => ?_)
          have ha := (mem_recorded_rows huri).mp (List.mem_dedup.mp ha)
          have hb := (mem_recorded_rows huri).mp (List.mem_dedup.mp hb)
          cases a
          cases b
          simp only [SourceRow.tuple, SourceTuple.mk.injEq] at hab
          simp only at ha hb
          rw [hab.1, hab.2.1, hab.2.2.1, hab.2.2.2, ha.1, hb.1]
        · rw [List.mem_map]
          constructor
          · rintro ⟨row, hrow, rfl⟩
            exact ((mem_recorded_rows huri).mp
              (List.mem_dedup.mp ((List.mem_insertionSort _).mp hrow))).2
          · rintro ⟨cap, hcap, hsource⟩
            exact ⟨source.toRow uri, (List.mem_insertionSort _).mpr (List.mem_dedup.mpr
              ((mem_recorded_rows huri).mpr ⟨rfl, cap, hcap, hsource⟩)), rfl⟩

theorem merge_groups_eq (uris : List String) :
    mergeGroups p caps uris = collate (·.uri) (mergeGroup p) caps uris := by
  induction uris with
  | nil => rfl
  | cons uri uris ih =>
      rw [mergeGroups, ih]
      rfl

/-- The merge of ingest does not depend on the order of its capabilities. -/
theorem merge_by_effective_uri_perm (hpaths : PathsApart p caps)
    (hrecorded : ∀ cap ∈ caps, Recorded p cap (recorded cap)) (h : caps.Perm others) :
    mergeByEffectiveUri p caps = mergeByEffectiveUri p others := by
  have huris : (caps.map (·.uri)).dedup.insertionSort (· ≤ ·) =
      (others.map (·.uri)).dedup.insertionSort (· ≤ ·) :=
    sorted_set_eq texts_preordered (fun a _ b _ => texts_antisymm a b) fun uri =>
      (h.map _).mem_iff
  unfold mergeByEffectiveUri
  rw [merge_groups_eq, merge_groups_eq, huris]
  refine collate_congr fun uri _ => merge_group_perm (hpaths.filter _) (fun cap hcap => ?_)
    (fun cap hcap => hrecorded cap (List.mem_filter.mp hcap).1) (h.filter _)
  exact of_decide_eq_true (List.mem_filter.mp hcap).2

theorem discovered_labels {host : DiscoveryHost} {file : SourceText}
    (h : discoverFile p host file = some cap) :
    cap.sourceKind ≠ "" ∧ cap.sourceSystem ≠ "" ∧ cap.contentHash = file.contentHash p ∧
      cap.sourcePath = p.normalizePath (pathText file.path) ∧ cap.shareState = .notShared := by
  have hread := discovered_read_from h
  exact ⟨hread.kind, hread.system, hread.digest, hread.path, hread.share⟩

theorem discovered_labelled {host : DiscoveryHost} {file : SourceText}
    (h : discoverFile p host file = some cap) : (cap.sourceTuple p).Labelled p :=
  ⟨p.normalizePath_idem _, (discovered_labels h).1, (discovered_labels h).2.1,
    (discovered_as_discovered h).hashed⟩

/-- A capability that was merged into a result: the winner of its canonical key has the result's
effective URI. -/
def MergedInto (p : Platform) (caps : List Capability) (cap result : Capability) : Prop :=
  ∃ canonical, mergeDuplicateCapabilities p caps = .ok canonical ∧ ∃ winner ∈ canonical,
    winner.canonicalKey = cap.canonicalKey ∧
    (applyDefaultUserNamespace p winner).uri = result.uri

/-- A result of the two merges stands for its members: it is one of them, of the highest authority,
and records the source of each of them once, and no other. -/
structure StandsFor (p : Platform) (caps : List Capability) (result : Capability) : Prop where
  chosen : ∃ cap ∈ caps, MergedInto p caps cap result ∧ cap.sourcePath = result.sourcePath ∧
    cap.sourceKind = result.sourceKind ∧ cap.sourceSystem = result.sourceSystem ∧
    cap.contentHash = result.contentHash
  highest : ∀ cap ∈ caps, MergedInto p caps cap result → cap.authority p ≤ result.authority p
  provenance : ∃ sources : List SourceTuple,
    Dict.get? result.metadata "sourceProvenance" = some (.arr (sources.map SourceTuple.record)) ∧
    sources.Nodup ∧
    ∀ source, source ∈ sources ↔
      ∃ cap ∈ caps, MergedInto p caps cap result ∧ cap.sourceTuple p = source

theorem apply_default_system (cap : Capability) :
    (applyDefaultUserNamespace p cap).sourceSystem = cap.sourceSystem := by
  unfold applyDefaultUserNamespace
  split
  · rfl
  · simp only
    split <;> rfl

theorem apply_default_authority (cap : Capability) :
    (applyDefaultUserNamespace p cap).authority p = cap.authority p := by
  obtain ⟨hpath, -⟩ :=
    apply_default_metadata (p := p) (show "sourcePaths" ∉ addressKeys by decide) cap
  rw [Capability.authority, Capability.authority, hpath, apply_default_system]

/-- The winners of the first merge under their effective URIs. -/
structure Placed (p : Platform) (caps canonical : List Capability) : Prop where
  apart : PathsApart p (canonical.map (applyDefaultUserNamespace p))
  recorded : ∀ cap ∈ canonical.map (applyDefaultUserNamespace p),
    Recorded p cap (canonicalProvenance p (keyGroup caps cap.canonicalKey))

theorem canonical_placed {canonical : List Capability}
    (hlabelled : ∀ cap ∈ caps, (cap.sourceTuple p).Labelled p) (hpaths : PathsApart p caps)
    (h : mergeDuplicateCapabilities p caps = .ok canonical) : Placed p caps canonical := by
  refine ⟨?_, fun cap hcap => ?_⟩
  · have hkeys := merge_duplicates_nodup h
    unfold PathsApart
    rw [List.map_map]
    refine (List.Nodup.of_map _ hkeys).map_on fun a ha b hb hab => ?_
    refine List.inj_on_of_nodup_map hkeys ha hb ?_
    obtain ⟨first, hfirst, -, ambiguous, heqa⟩ := merge_duplicates_ok h ha
    obtain ⟨second, hsecond, -, ambiguous', heqb⟩ := merge_duplicates_ok h hb
    have hpath : ∀ cap : Capability,
        (applyDefaultUserNamespace p cap).sourcePath = cap.sourcePath := fun cap =>
      (apply_default_metadata (p := p) (show "sourcePaths" ∉ addressKeys by decide) cap).1
    simp only [Function.comp_apply, hpath] at hab
    rw [heqa, heqb] at hab
    have hsame : first = second := hpaths.eq hfirst hsecond hab
    rw [heqa, heqb, hsame]
  · obtain ⟨winner, hwinner, rfl⟩ := List.mem_map.mp hcap
    obtain ⟨preferred, hpreferred, -, ambiguous, heq⟩ := merge_duplicates_ok h hwinner
    rw [(apply_default_source winner).1]
    refine Recorded.namespaced ?_
    rw [heq]
    refine recorded_canonical (List.mem_filter.mpr ⟨hpreferred, decide_eq_true rfl⟩)
      (fun cap hcap => hlabelled cap (List.mem_filter.mp hcap).1) ambiguous

/-- Another order of the capabilities gives the same result. -/
theorem unify_sources_perm (hlabelled : ∀ cap ∈ caps, (cap.sourceTuple p).Labelled p)
    (hpaths : PathsApart p caps) (hperm : caps.Perm others)
    (h : unifySources p caps = .ok merged) : unifySources p others = .ok merged := by
  obtain ⟨canonical, hcanonical, h⟩ := bind_eq_ok h
  obtain ⟨again, hagain, hsame⟩ := merge_duplicates_perm hpaths hperm hcanonical
  obtain ⟨hapart, hrecorded⟩ := canonical_placed hlabelled hpaths hcanonical
  rw [unifySources, hagain]
  exact (merge_by_effective_uri_perm hapart hrecorded (hsame.map _)).symm.trans h

theorem unify_sources_is_ok (hlabelled : ∀ cap ∈ caps, (cap.sourceTuple p).Labelled p)
    (hpaths : PathsApart p caps) (hstrict : p.strictCollisions = false) :
    ∃ merged, unifySources p caps = .ok merged := by
  have hcollated := collate_eq_ok_iff.mpr ⟨fun key (_ : key ∈ canonicalKeys caps) =>
    merge_canonical_key_is_ok hstrict key (caps.filter (·.canonicalKey = key)), rfl⟩
  obtain ⟨canonical, hcanonical⟩ : ∃ canonical, mergeDuplicateCapabilities p caps = .ok canonical := by
    rw [mergeDuplicateCapabilities, hcollated]
    exact ⟨_, rfl⟩
  have hplaced := canonical_placed hlabelled hpaths hcanonical
  rw [unifySources, hcanonical]
  show ∃ merged, mergeByEffectiveUri p (canonical.map (applyDefaultUserNamespace p)) = .ok merged
  rw [mergeByEffectiveUri, merge_groups_eq]
  exact ⟨_, collate_eq_ok_iff.mpr ⟨fun uri _ => merge_group_is_ok hstrict fun cap hcap =>
    hplaced.recorded cap (List.mem_filter.mp hcap).1, rfl⟩⟩

theorem merged_into_one (h : unifySources p caps = .ok merged) (hcap : cap ∈ caps) :
    ∃! result, result ∈ merged ∧ MergedInto p caps cap result := by
  obtain ⟨canonical, hcanonical, h⟩ := bind_eq_ok h
  have hkey : cap.canonicalKey ∈ canonical.map (·.canonicalKey) :=
    (merge_duplicates_keys hcanonical).mem_iff.mpr (mem_canonical_keys.mpr ⟨cap, hcap, rfl⟩)
  obtain ⟨winner, hwinner, hkey⟩ := List.mem_map.mp hkey
  obtain ⟨result, hresult, huri⟩ :=
    merge_by_effective_uri_covers h _ (List.mem_map_of_mem hwinner)
  refine ⟨result, ⟨hresult, canonical, hcanonical, winner, hwinner, hkey, huri.symm⟩, ?_⟩
  rintro other ⟨hother, canonical', hcanonical', winner', hwinner', hkey', huri'⟩
  obtain rfl : canonical = canonical' := Except.ok.inj (hcanonical.symm.trans hcanonical')
  obtain rfl : winner = winner' := List.inj_on_of_nodup_map (merge_duplicates_nodup hcanonical)
    hwinner hwinner' (hkey.trans hkey'.symm)
  have huris : (merged.map (·.uri)).Nodup := List.pairwise_map.mpr (merge_by_effective_uri_ok h).2
  exact List.inj_on_of_nodup_map huris hother hresult (huri'.symm.trans huri.symm)

theorem unified_stands_for (hlabelled : ∀ cap ∈ caps, (cap.sourceTuple p).Labelled p)
    (hpaths : PathsApart p caps) (h : unifySources p caps = .ok merged) (he : e ∈ merged) :
    StandsFor p caps e := by
  obtain ⟨canonical, hcanonical, h⟩ := bind_eq_ok h
  have hplaced := canonical_placed hlabelled hpaths hcanonical
  rw [mergeByEffectiveUri, merge_groups_eq] at h
  obtain ⟨uri, huri, group, hgroup, he⟩ := (mem_collate h).mp he
  have hmembers : ∀ cap ∈ (canonical.map (applyDefaultUserNamespace p)).filter (·.uri = uri),
      cap ∈ canonical.map (applyDefaultUserNamespace p) ∧ cap.uri = uri := fun cap hcap => by
    obtain ⟨hcap, hcapUri⟩ := List.mem_filter.mp hcap
    exact ⟨hcap, of_decide_eq_true hcapUri⟩
  have hne : (canonical.map (applyDefaultUserNamespace p)).filter (·.uri = uri) ≠ [] := by
    obtain ⟨cap, hcap, hcapUri⟩ :=
      List.mem_map.mp (List.mem_dedup.mp ((List.mem_insertionSort _).mp huri))
    exact List.ne_nil_of_mem (List.mem_filter.mpr ⟨hcap, decide_eq_true hcapUri⟩)
  obtain ⟨placed, hwinner, htop, metadata, sources, rfl, hprovenance, hnodup, hsources⟩ :=
    merge_group_recorded hne (fun cap hcap => (hmembers cap hcap).2)
      (fun cap hcap => hplaced.recorded cap (hmembers cap hcap).1) hgroup
  obtain rfl := List.mem_singleton.mp he
  obtain ⟨hmem, hplacedUri⟩ := hmembers placed hwinner
  -- what was merged into the result: the members of the keys of this URI
  have hmerged : ∀ cap, MergedInto p caps cap { placed with metadata } ↔
      ∃ winner ∈ canonical, winner.canonicalKey = cap.canonicalKey ∧
        (applyDefaultUserNamespace p winner).uri = uri := fun cap => by
    constructor
    · rintro ⟨again, hagain, winner, hmemWinner, hkey, hwinnerUri⟩
      obtain rfl : canonical = again := Except.ok.inj (hcanonical.symm.trans hagain)
      exact ⟨winner, hmemWinner, hkey, hwinnerUri.trans hplacedUri⟩
    · rintro ⟨winner, hmemWinner, hkey, hwinnerUri⟩
      exact ⟨canonical, hcanonical, winner, hmemWinner, hkey, hwinnerUri.trans hplacedUri.symm⟩
  obtain ⟨winner, hmemWinner, hplacedEq⟩ := List.mem_map.mp hmem
  obtain ⟨preferred, hpreferred, -, ambiguous, heq⟩ := merge_duplicates_ok hcanonical hmemWinner
  refine ⟨⟨preferred, hpreferred, (hmerged preferred).mpr ⟨winner, hmemWinner, ?_, ?_⟩, ?_⟩,
    fun cap hcap hinto => ?_, sources, hprovenance, hnodup, fun source => ?_⟩
  · rw [heq]
  · rw [hplacedEq, hplacedUri]
  · obtain ⟨-, hhash, hkind⟩ := apply_default_source (p := p) winner
    obtain ⟨hpath, -⟩ :=
      apply_default_metadata (p := p) (show "sourcePaths" ∉ addressKeys by decide) winner
    have hsystem := apply_default_system (p := p) winner
    rw [hplacedEq, heq] at hpath hkind hsystem hhash
    exact ⟨hpath.symm, hkind.symm, hsystem.symm, hhash.symm⟩
  · obtain ⟨other, hother, hkey, hotherUri⟩ := (hmerged cap).mp hinto
    obtain ⟨first, -, hfirstTop, ambiguous', hother'⟩ := merge_duplicates_ok hcanonical hother
    calc cap.authority p ≤ first.authority p :=
          hfirstTop cap (List.mem_filter.mpr ⟨hcap, decide_eq_true hkey.symm⟩)
      _ = other.authority p := by rw [hother']; rfl
      _ = (applyDefaultUserNamespace p other).authority p := (apply_default_authority other).symm
      _ ≤ placed.authority p := htop _ (List.mem_filter.mpr
          ⟨List.mem_map_of_mem hother, decide_eq_true hotherUri⟩)
  · rw [hsources]
    constructor
    · rintro ⟨member, hmember, hsource⟩
      obtain ⟨hmember, hmemberUri⟩ := hmembers member hmember
      obtain ⟨other, hother, rfl⟩ := List.mem_map.mp hmember
      obtain ⟨cap, hcap, hcapSource⟩ := mem_canonical_provenance.mp hsource
      obtain ⟨hcap, hkey⟩ := List.mem_filter.mp hcap
      refine ⟨cap, hcap, (hmerged cap).mpr ⟨other, hother, ?_, hmemberUri⟩, hcapSource⟩
      rw [← (apply_default_source (p := p) other).1]
      exact (of_decide_eq_true hkey).symm
    · rintro ⟨cap, hcap, hinto, hcapSource⟩
      obtain ⟨other, hother, hkey, hotherUri⟩ := (hmerged cap).mp hinto
      refine ⟨applyDefaultUserNamespace p other, List.mem_filter.mpr
        ⟨List.mem_map_of_mem hother, decide_eq_true hotherUri⟩,
        mem_canonical_provenance.mpr ⟨cap, List.mem_filter.mpr ⟨hcap, decide_eq_true ?_⟩,
          hcapSource⟩⟩
      rw [(apply_default_source other).1, hkey]

/-- For discovered capabilities with different source paths the two merges do not depend on the
order, succeed unless collisions are strict, give each effective URI one result, merge each
capability into one result, and each result stands for what was merged into it. -/
theorem sources_unified (p : Platform) (caps : List Capability)
    (hdiscovered : ∀ cap ∈ caps, ∃ host file, discoverFile p host file = some cap)
    (hpaths : PathsApart p caps) :
    (∀ order : List Capability, order.Perm caps →
      (unifySources p order).toOption = (unifySources p caps).toOption) ∧
    (p.strictCollisions = false → ∃ merged, unifySources p caps = .ok merged) ∧
    ∀ merged, unifySources p caps = .ok merged →
      (merged.map (·.uri)).Nodup ∧
      (∀ canonical, mergeDuplicateCapabilities p caps = .ok canonical → ∀ uri,
        uri ∈ merged.map (·.uri) ↔
          uri ∈ canonical.map fun winner => (applyDefaultUserNamespace p winner).uri) ∧
      (∀ cap ∈ caps, ∃! result, result ∈ merged ∧ MergedInto p caps cap result) ∧
      ∀ result ∈ merged, StandsFor p caps result := by
  have hlabelled : ∀ cap ∈ caps, (cap.sourceTuple p).Labelled p := fun cap hcap => by
    obtain ⟨host, file, hfound⟩ := hdiscovered cap hcap
    exact discovered_labelled hfound
  refine ⟨fun order hperm => ?_, unify_sources_is_ok hlabelled hpaths, fun merged h => ⟨?_, ?_,
    fun cap hcap => merged_into_one h hcap,
    fun result hresult => unified_stands_for hlabelled hpaths h hresult⟩⟩
  · have hforth : ∀ merged, unifySources p caps = .ok merged →
        unifySources p order = .ok merged := fun merged h =>
      unify_sources_perm hlabelled hpaths hperm.symm h
    have hback : ∀ merged, unifySources p order = .ok merged →
        unifySources p caps = .ok merged := fun merged h =>
      unify_sources_perm (fun cap hcap => hlabelled cap (hperm.subset hcap))
        ((hperm.map _).nodup_iff.mpr hpaths) hperm h
    cases hcaps : unifySources p caps with
    | ok merged => rw [hforth merged hcaps]
    | error failure =>
        cases horder : unifySources p order with
        | ok merged =>
            rw [hback merged horder] at hcaps
            cases hcaps
        | error failure => rfl
  · obtain ⟨canonical, -, h⟩ := bind_eq_ok h
    exact List.pairwise_map.mpr (merge_by_effective_uri_ok h).2
  · intro canonical hcanonical uri
    obtain ⟨again, hagain, h⟩ := bind_eq_ok h
    obtain rfl : canonical = again := Except.ok.inj (hcanonical.symm.trans hagain)
    constructor
    · intro huri
      obtain ⟨result, hresult, rfl⟩ := List.mem_map.mp huri
      obtain ⟨placed, hmem, metadata, rfl⟩ := (merge_by_effective_uri_ok h).1 result hresult
      obtain ⟨winner, hwinner, rfl⟩ := List.mem_map.mp hmem
      exact List.mem_map.mpr ⟨winner, hwinner, rfl⟩
    · intro huri
      obtain ⟨winner, hwinner, rfl⟩ := List.mem_map.mp huri
      obtain ⟨result, hresult, heq⟩ :=
        merge_by_effective_uri_covers h _ (List.mem_map_of_mem hwinner)
      exact List.mem_map.mpr ⟨result, hresult, heq⟩

/-- The manifest of the package `notes` and its copy in a release. -/
def notesMirrors : List Capability :=
  [notesManifest notesText, ⟨["srv", "capability-roots", "asg-os-plugins", "notes", "cap.json"],
    ["srv", "capability-roots", "asg-os-plugins"], notesText.toUTF8.data.toList⟩].filterMap
      (discoverFile .sample manifestHost)

/-- The two manifests become one capability, in either order. -/
theorem sources_unified_notes :
    (unifySources .sample notesMirrors.reverse).toOption =
        (unifySources .sample notesMirrors).toOption ∧
      ∃ merged, unifySources .sample notesMirrors = .ok merged ∧ merged.length = 1 ∧
        ∀ result ∈ merged, StandsFor .sample notesMirrors result := by
  obtain ⟨horder, -, hmerged⟩ := sources_unified .sample notesMirrors
    (fun cap hcap => by
      obtain ⟨file, -, hfound⟩ := List.mem_filterMap.mp hcap
      exact ⟨manifestHost, file, hfound⟩)
    (by decide +kernel)
  have hone : (unifySources .sample notesMirrors).toOption.map (·.length) = some 1 := by
    decide +kernel
  refine ⟨horder _ (List.reverse_perm _), ?_⟩
  cases hunified : unifySources .sample notesMirrors with
  | error failure =>
      rw [hunified] at hone
      cases hone
  | ok merged =>
      rw [hunified] at hone
      exact ⟨merged, rfl, Option.some.inj hone, (hmerged merged hunified).2.2.2⟩

end

end Capmesh
