import Mathlib.Data.List.Dedup
import Capmesh.Index.Upsert

/-!
# Merging mirrors of one effective URI

`_merge_by_effective_uri` of `index.py` and the authority order of `manifest.py`.
Capabilities that resolve to one URI are mirrors of each other: the one with the highest
authority wins, and the union of their provenance goes into its metadata. Read
`merge_by_effective_uri_ok` first: a merged list has one capability for each URI, and each
is a capability of the batch with new metadata.
-/

namespace Capmesh

open Python Relational

/-- `source_authority_rank`. -/
def sourceAuthorityRank (p : Platform) (system path : String) : Nat :=
  let within := fun part : String => contains (p.normalizePath path).toList part.toList
  if system = "asg-os.plugins" then
    if within "/.codex/" || within "/.cursor/" then 250 else 500
  else if system = "codex.skills" && within "/.codex/skills/.system/" then 450
  else if system = "agents.skill-registry" then 400
  else if system = "codex.skills" then 300
  else if system = "codex.plugin-cache" then
    if within "/.codex/plugins/cache/openai-curated-remote/" then 260
    else if within "/.codex/plugins/cache/openai-bundled/" then 250
    else if within "/.codex/plugins/cache/openai-curated/" then 220
    else 200
  else if system = "claude.plugin-cache" then 100
  else 0

/-- The authority of a capability's source. -/
def Capability.authority (p : Platform) (cap : Capability) : Nat :=
  sourceAuthorityRank p cap.sourceSystem cap.sourcePath

/-- The order mirrors are ranked in: authority first, then key, system and path. -/
def outranks (p : Platform) (a b : Capability) : Bool :=
  if a.authority p ≠ b.authority p then b.authority p < a.authority p
  else if a.canonicalKey ≠ b.canonicalKey then a.canonicalKey ≤ b.canonicalKey
  else if a.sourceSystem ≠ b.sourceSystem then a.sourceSystem ≤ b.sourceSystem
  else p.normalizePath a.sourcePath ≤ p.normalizePath b.sourcePath

/-- The order of provenance tuples. -/
def SourceRow.precedes (a b : SourceRow) : Bool :=
  if a.sourcePath ≠ b.sourcePath then a.sourcePath ≤ b.sourcePath
  else if a.sourceKind ≠ b.sourceKind then a.sourceKind ≤ b.sourceKind
  else if a.sourceSystem ≠ b.sourceSystem then a.sourceSystem ≤ b.sourceSystem
  else a.contentHash ≤ b.contentHash

/-- The values a `for` loop over a metadata value runs through. -/
def iterate : Json → Except Failure (List Json)
  | .str text => .ok (text.toList.map fun c => .str (String.ofList [c]))
  | .arr items => .ok items
  | .obj fields => .ok (fields.map fun field => .str field.1)
  | _ => .error (.runtime "object is not iterable")

/-- The paths of a mirror: its `sourcePaths`, else its own path. -/
def mirrorPaths (cap : Capability) : Except Failure (List Json) :=
  match Dict.get? cap.metadata "sourcePaths" with
  | some value => if value.truthy then iterate value else .ok [.str cap.sourcePath]
  | none => .ok [.str cap.sourcePath]

/-- The provenance one mirror contributes: its records, and its paths without a record. -/
def mirrorProvenance (p : Platform) (cap : Capability) : Except Failure (List SourceRow) := do
  let prior := match Dict.get? cap.metadata "sourceProvenance" with
    | some (.arr items) => items.filterMap (provenanceRow p cap)
    | _ => []
  let paths ← mirrorPaths cap
  let plain := (paths.filter Json.truthy).map fun path => plainSource p cap path.toStr
  .ok (prior ++ plain.filter fun row => prior.all (·.sourcePath ≠ row.sourcePath))

/-- The provenance of every mirror of a group. -/
def groupProvenance (p : Platform) : List Capability → Except Failure (List SourceRow)
  | [] => .ok []
  | cap :: caps => do
      let own ← mirrorProvenance p cap
      let rest ← groupProvenance p caps
      .ok (own ++ rest)

/-- A provenance tuple as a metadata record. -/
def SourceRow.record (row : SourceRow) : Json :=
  .obj [("sourcePath", .str row.sourcePath), ("sourceKind", .str row.sourceKind),
    ("sourceSystem", .str row.sourceSystem), ("contentHash", .str row.contentHash)]

/-- The sources of the winner's authority when they disagree on the content. -/
def ambiguousSources (p : Platform) (winner : Capability) (caps : List Capability) :
    List String :=
  let top := caps.filter fun cap => cap.authority p = winner.authority p
  if 1 < (top.map (·.contentHash)).dedup.length then
    (top.map fun cap => p.normalizePath cap.sourcePath).insertionSort (· ≤ ·)
  else []

/-- The message about an ambiguous group. -/
def collisionMessage (p : Platform) (uri : String) (winner : Capability)
    (caps : List Capability) : String :=
  let top := caps.filter fun cap => cap.authority p = winner.authority p
  "effective URI collision for " ++ uri ++ ": equal-authority sources contain " ++
    toString (top.map (·.contentHash)).dedup.length ++ " content hashes: [" ++
    join ", " ((ambiguousSources p winner caps).map p.repr) ++ "]; selected " ++
    p.normalizePath winner.sourcePath ++
    " deterministically. Recorded as ambiguousEffectiveUriCollision in capability metadata."

/-- The `sourceAuthority` record of a group's winner. -/
def authorityRecord (p : Platform) (winner : Capability) : Dict :=
  [("selectedSourcePath", .str (p.normalizePath winner.sourcePath)),
    ("selectedSourceSystem", .str winner.sourceSystem),
    ("rank", .int (winner.authority p))]

/-- The metadata of a group's winner. -/
def groupMetadata (p : Platform) (winner : Capability) (provenance : List SourceRow)
    (ambiguous : List String) : Dict :=
  let provenance := provenance.dedup.insertionSort fun a b => a.precedes b
  let paths := (provenance.map (·.sourcePath)).dedup.insertionSort (· ≤ ·)
  let conflicts := provenance.filter (·.contentHash ≠ winner.contentHash)
  let metadata := (winner.metadata.set "sourcePaths" (.arr (paths.map .str))).set
    "sourceProvenance" (.arr (provenance.map SourceRow.record))
  let metadata :=
    if conflicts.isEmpty then metadata
    else ((metadata.set "staleMirrorDetected" (.bool true)).set "sourceConflicts"
      (.arr (conflicts.map SourceRow.record))).set "sourceAuthority"
        (.obj (authorityRecord p winner))
  if ambiguous.isEmpty then metadata
  else ((metadata.set "ambiguousEffectiveUriCollision" (.bool true)).set "ambiguousSources"
    (.arr (ambiguous.map .str))).set "sourceAuthority"
      (.obj (authorityRecord p winner ++ [("resolvedBy", .str "deterministic-tiebreak")]))

/-- Merge the capabilities of one URI. -/
def mergeGroup (p : Platform) (uri : String) (caps : List Capability) :
    Except Failure (List Capability) :=
  match caps with
  | [cap] => .ok [cap]
  | caps =>
      match caps.insertionSort fun a b => outranks p a b with
      | [] => .ok []
      | winner :: _ => do
          let ambiguous := ambiguousSources p winner caps
          if !ambiguous.isEmpty && p.strictCollisions then
            .error (.value (collisionMessage p uri winner caps))
          else do
            let provenance ← groupProvenance p caps
            .ok [{ winner with metadata := groupMetadata p winner provenance ambiguous }]

/-- Merge the groups of a list of URIs. -/
def mergeGroups (p : Platform) (caps : List Capability) :
    List String → Except Failure (List Capability)
  | [] => .ok []
  | uri :: uris => do
      let group ← mergeGroup p uri (caps.filter (·.uri = uri))
      let rest ← mergeGroups p caps uris
      .ok (group ++ rest)

/-- `_merge_by_effective_uri`: one capability for each URI, in the order of the URIs. -/
def mergeByEffectiveUri (p : Platform) (caps : List Capability) :
    Except Failure (List Capability) :=
  mergeGroups p caps ((caps.map (·.uri)).dedup.insertionSort (· ≤ ·))

section

variable {p : Platform} {caps merged : List Capability} {uri : String} {uris : List String}
variable {path : String} {rows : List SourceRow}

theorem merge_group_ok (h : mergeGroup p uri caps = .ok merged) :
    (∀ e ∈ merged, ∃ cap ∈ caps, ∃ metadata, e = { cap with metadata }) ∧
      merged.Pairwise fun a b => a.uri ≠ b.uri := by
  unfold mergeGroup at h
  split at h
  · cases h
    exact ⟨fun e he => ⟨e, he, e.metadata, rfl⟩, List.pairwise_singleton _ _⟩
  · cases hranked : caps.insertionSort fun a b => outranks p a b with
    | nil =>
        simp only [hranked] at h
        cases h
        exact ⟨by simp, .nil⟩
    | cons winner others =>
        simp only [hranked] at h
        split at h
        · cases h
        · obtain ⟨provenance, -, h⟩ := bind_eq_ok h
          cases h
          refine ⟨fun e he => ?_, List.pairwise_singleton _ _⟩
          rw [List.mem_singleton.mp he]
          have hwinner : winner ∈ caps.insertionSort fun a b => outranks p a b := by
            rw [hranked]
            exact List.mem_cons_self
          exact ⟨winner, (List.mem_insertionSort _).mp hwinner, _, rfl⟩

theorem merge_groups_ok (huris : uris.Nodup) (h : mergeGroups p caps uris = .ok merged) :
    (∀ e ∈ merged, e.uri ∈ uris ∧ ∃ cap ∈ caps, ∃ metadata, e = { cap with metadata }) ∧
      merged.Pairwise fun a b => a.uri ≠ b.uri := by
  induction uris generalizing merged with
  | nil =>
      cases h
      exact ⟨by simp, .nil⟩
  | cons uri uris ih =>
      obtain ⟨huri, huris⟩ := List.nodup_cons.mp huris
      unfold mergeGroups at h
      obtain ⟨group, hgroup, h⟩ := bind_eq_ok h
      obtain ⟨rest, hrest, h⟩ := bind_eq_ok h
      cases h
      obtain ⟨hmember, hgroupUris⟩ := merge_group_ok hgroup
      obtain ⟨hrestMember, hrestUris⟩ := ih huris hrest
      have hgroupUri : ∀ e ∈ group, e.uri = uri ∧
          ∃ cap ∈ caps, ∃ metadata, e = { cap with metadata } := by
        intro e he
        obtain ⟨cap, hcap, metadata, rfl⟩ := hmember e he
        obtain ⟨hcap, hcapUri⟩ := List.mem_filter.mp hcap
        exact ⟨by simpa using hcapUri, cap, hcap, metadata, rfl⟩
      refine ⟨fun e he => ?_, List.pairwise_append.mpr ⟨hgroupUris, hrestUris, fun a ha b hb hsame => ?_⟩⟩
      · rcases List.mem_append.mp he with he | he
        · obtain ⟨heq, hcap⟩ := hgroupUri e he
          exact ⟨heq ▸ List.mem_cons_self, hcap⟩
        · obtain ⟨hin, hcap⟩ := hrestMember e he
          exact ⟨List.mem_cons_of_mem _ hin, hcap⟩
      · rw [(hgroupUri a ha).1] at hsame
        exact huri (hsame ▸ (hrestMember b hb).1)

/-- A merged list has one capability for each URI, and each is a capability of the batch with new
metadata. -/
theorem merge_by_effective_uri_ok (h : mergeByEffectiveUri p caps = .ok merged) :
    (∀ e ∈ merged, ∃ cap ∈ caps, ∃ metadata, e = { cap with metadata }) ∧
      merged.Pairwise fun a b => a.uri ≠ b.uri := by
  have hnodup : ((caps.map (·.uri)).dedup.insertionSort (· ≤ ·)).Nodup :=
    (List.perm_insertionSort _ _).nodup_iff.mpr (List.nodup_dedup _)
  obtain ⟨hmember, huris⟩ := merge_groups_ok hnodup h
  exact ⟨fun e he => (hmember e he).2, huris⟩

theorem provenance_path_normal {item : Json}
    (h : provenancePath p item = some path) : p.normalizePath path = path := by
  unfold provenancePath at h
  split at h
  · split at h
    · split at h
      · cases h
        exact p.normalizePath_idem _
      · cases h
    · cases h
  · cases h

/-- The loop over the paths of a mirror runs through paths it lays claim to. Discovery writes
`sourcePaths` as a list, never as one text. -/
theorem mirror_paths_claimed {cap : Capability} {paths : List Json} {path : Json}
    (hlist : ∀ text, Dict.get? cap.metadata "sourcePaths" ≠ some (.str text))
    (h : mirrorPaths cap = .ok paths) (hpath : path ∈ paths) :
    p.normalizePath path.toStr ∈ claimedPaths p cap := by
  have hraw : ∀ raw, rawSourcePaths cap = .ok raw → path.toStr ∈ raw →
      p.normalizePath path.toStr ∈ claimedPaths p cap := by
    intro raw hraw hmem
    have hmap : p.normalizePath path.toStr ∈ raw.map p.normalizePath :=
      List.mem_map_of_mem hmem
    simp only [claimedPaths, hraw, List.mem_append]
    exact .inl (.inr hmap)
  cases hget : Dict.get? cap.metadata "sourcePaths" with
  | none =>
      simp only [mirrorPaths, hget] at h
      cases h
      rw [List.mem_singleton.mp hpath] at hraw ⊢
      exact hraw [cap.sourcePath] (by simp [rawSourcePaths, hget]) List.mem_cons_self
  | some value =>
      simp only [mirrorPaths, hget] at h
      split at h
      · rename_i htruthy
        cases value with
        | str text => exact absurd hget (hlist text)
        | arr items =>
            cases h
            exact hraw (paths.map Json.toStr) (by simp [rawSourcePaths, hget, htruthy])
              (List.mem_map_of_mem hpath)
        | obj fields =>
            cases h
            obtain ⟨field, hfield, rfl⟩ := List.mem_map.mp hpath
            exact hraw (fields.map (·.1)) (by simp [rawSourcePaths, hget, htruthy])
              (List.mem_map_of_mem hfield)
        | null | bool | int | float => cases h
      · rename_i hfalsy
        cases h
        rw [List.mem_singleton.mp hpath] at hraw ⊢
        exact hraw [cap.sourcePath] (by simp [rawSourcePaths, hget, hfalsy]) List.mem_cons_self

theorem mirror_provenance_claimed {cap : Capability}
    (hlist : ∀ text, Dict.get? cap.metadata "sourcePaths" ≠ some (.str text))
    (h : mirrorProvenance p cap = .ok rows) :
    ∀ row ∈ rows, row.sourcePath ∈ claimedPaths p cap ∧
      p.normalizePath row.sourcePath = row.sourcePath := by
  unfold mirrorProvenance at h
  obtain ⟨paths, hpaths, h⟩ := bind_eq_ok h
  cases h
  intro row hrow
  rcases List.mem_append.mp hrow with hrow | hrow
  · split at hrow
    · rename_i items hitems
      obtain ⟨item, hitem, hitemRow⟩ := List.mem_filterMap.mp hrow
      have hpath : provenancePath p item = some row.sourcePath := by
        rw [← provenance_row_path p cap, hitemRow, Option.map_some]
      have hclaimed : row.sourcePath ∈ provenancePaths p cap.metadata := by
        simp only [provenancePaths, hitems]
        exact List.mem_filterMap.mpr ⟨item, hitem, hpath⟩
      exact ⟨List.mem_append_left _ (List.mem_append_left _ hclaimed),
        provenance_path_normal hpath⟩
    · cases hrow
  · obtain ⟨hrow, -⟩ := List.mem_filter.mp hrow
    obtain ⟨path, hpath, rfl⟩ := List.mem_map.mp hrow
    obtain ⟨hpath, -⟩ := List.mem_filter.mp hpath
    exact ⟨mirror_paths_claimed hlist hpaths hpath, p.normalizePath_idem _⟩

theorem group_provenance_claimed
    (hlist : ∀ cap ∈ caps, ∀ text, Dict.get? cap.metadata "sourcePaths" ≠ some (.str text))
    (h : groupProvenance p caps = .ok rows) :
    ∀ row ∈ rows, (∃ cap ∈ caps, row.sourcePath ∈ claimedPaths p cap) ∧
      p.normalizePath row.sourcePath = row.sourcePath := by
  induction caps generalizing rows with
  | nil =>
      cases h
      simp
  | cons cap caps ih =>
      unfold groupProvenance at h
      obtain ⟨own, hown, h⟩ := bind_eq_ok h
      obtain ⟨rest, hrest, h⟩ := bind_eq_ok h
      cases h
      intro row hrow
      rcases List.mem_append.mp hrow with hrow | hrow
      · obtain ⟨hclaimed, hnormal⟩ :=
          mirror_provenance_claimed (hlist cap List.mem_cons_self) hown row hrow
        exact ⟨⟨cap, List.mem_cons_self, hclaimed⟩, hnormal⟩
      · obtain ⟨⟨other, hother, hclaimed⟩, hnormal⟩ :=
          ih (fun other hother => hlist other (List.mem_cons_of_mem _ hother)) hrest row hrow
        exact ⟨⟨other, List.mem_cons_of_mem _ hother, hclaimed⟩, hnormal⟩

/-- The records a merge leaves for the next reader of the metadata. -/
theorem group_metadata_get? (winner : Capability) (rows : List SourceRow)
    (ambiguous : List String) :
    ∃ (provenance : List SourceRow) (paths : List String), (∀ row ∈ provenance, row ∈ rows) ∧
      (∀ path ∈ paths, ∃ row ∈ rows, path = row.sourcePath) ∧
      Dict.get? (groupMetadata p winner rows ambiguous) "sourceProvenance" =
        some (.arr (provenance.map SourceRow.record)) ∧
      Dict.get? (groupMetadata p winner rows ambiguous) "sourcePaths" =
        some (.arr (paths.map .str)) := by
  refine ⟨rows.dedup.insertionSort fun a b => a.precedes b,
    ((rows.dedup.insertionSort fun a b => a.precedes b).map
      (·.sourcePath)).dedup.insertionSort (· ≤ ·), fun row hrow => ?_, fun path hpath => ?_, ?_, ?_⟩
  · exact List.mem_dedup.mp ((List.mem_insertionSort _).mp hrow)
  · obtain ⟨row, hrow, rfl⟩ :=
      List.mem_map.mp (List.mem_dedup.mp ((List.mem_insertionSort _).mp hpath))
    exact ⟨row, List.mem_dedup.mp ((List.mem_insertionSort _).mp hrow), rfl⟩
  · unfold groupMetadata
    dsimp only
    split <;> split <;> simp [Dict.get?_set_of_ne, Dict.get?_set]
  · unfold groupMetadata
    dsimp only
    split <;> split <;> simp [Dict.get?_set_of_ne, Dict.get?_set]

theorem provenance_path_record {row : SourceRow}
    (h : provenancePath p row.record = some path) : path = p.normalizePath row.sourcePath := by
  simp only [provenancePath, SourceRow.record, Dict.get?] at h
  simp only [List.find?_cons_of_pos, decide_true] at h
  split at h
  · simpa [Json.toStr, Json.strText] using h.symm
  · cases h

theorem mem_group_claimed {winner : Capability} {ambiguous : List String} (h : path ∈ claimedPaths p
      { winner with metadata := groupMetadata p winner rows ambiguous }) :
    path = p.normalizePath winner.sourcePath ∨
      ∃ row ∈ rows, path = p.normalizePath row.sourcePath := by
  obtain ⟨provenance, paths, hprovenance, hpaths, hget, hgetPaths⟩ :=
    group_metadata_get? (p := p) winner rows ambiguous
  simp only [claimedPaths, provenancePaths, rawSourcePaths, hget, hgetPaths, List.mem_append] at h
  rcases h with (h | h) | h
  · obtain ⟨item, hitem, hpath⟩ := List.mem_filterMap.mp h
    obtain ⟨row, hrow, rfl⟩ := List.mem_map.mp hitem
    exact .inr ⟨row, hprovenance row hrow, provenance_path_record hpath⟩
  · by_cases htruthy : (Json.arr (paths.map .str)).truthy = true
    · simp only [htruthy, if_true, List.mem_map] at h
      obtain ⟨text, ⟨json, ⟨text', htext, rfl⟩, rfl⟩, rfl⟩ := h
      obtain ⟨row, hrow, rfl⟩ := hpaths text' htext
      exact .inr ⟨row, hrow, rfl⟩
    · simp only [htruthy, Bool.false_eq_true, if_false, List.map_cons, List.map_nil,
        List.mem_singleton] at h
      exact .inl h
  · exact .inl (List.mem_singleton.mp h)

theorem merge_group_claimed
    (hlist : ∀ cap ∈ caps, ∀ text, Dict.get? cap.metadata "sourcePaths" ≠ some (.str text))
    (h : mergeGroup p uri caps = .ok merged) :
    ∀ e ∈ merged, ∀ path ∈ claimedPaths p e, ∃ cap ∈ caps, path ∈ claimedPaths p cap := by
  unfold mergeGroup at h
  split at h
  · cases h
    exact fun e he path hpath => ⟨e, he, hpath⟩
  · cases hranked : caps.insertionSort fun a b => outranks p a b with
    | nil =>
        simp only [hranked] at h
        cases h
        simp
    | cons winner others =>
        simp only [hranked] at h
        split at h
        · cases h
        · obtain ⟨rows, hrows, h⟩ := bind_eq_ok h
          cases h
          intro e he path hpath
          rw [List.mem_singleton.mp he] at hpath
          have hwinner : winner ∈ caps := by
            rw [← List.mem_insertionSort fun a b => outranks p a b, hranked]
            exact List.mem_cons_self
          have hclaimed := group_provenance_claimed hlist hrows
          rcases mem_group_claimed hpath with hown | ⟨row, hrow, hnormal⟩
          · exact ⟨winner, hwinner, by simp [claimedPaths, hown]⟩
          · obtain ⟨⟨cap, hcap, hcapPath⟩, hsame⟩ := hclaimed row hrow
            exact ⟨cap, hcap, by rw [hnormal, hsame]; exact hcapPath⟩

theorem merge_groups_claimed
    (hlist : ∀ cap ∈ caps, ∀ text, Dict.get? cap.metadata "sourcePaths" ≠ some (.str text))
    (h : mergeGroups p caps uris = .ok merged) :
    ∀ e ∈ merged, ∀ path ∈ claimedPaths p e,
      ∃ cap ∈ caps, cap.uri = e.uri ∧ path ∈ claimedPaths p cap := by
  induction uris generalizing merged with
  | nil =>
      cases h
      simp
  | cons uri uris ih =>
      unfold mergeGroups at h
      obtain ⟨group, hgroup, h⟩ := bind_eq_ok h
      obtain ⟨rest, hrest, h⟩ := bind_eq_ok h
      cases h
      intro e he path hpath
      rcases List.mem_append.mp he with he | he
      · have hmember : ∀ cap ∈ caps.filter (·.uri = uri), cap ∈ caps ∧ cap.uri = uri := by
          intro cap hcap
          simpa using hcap
        obtain ⟨cap, hcap, hclaimed⟩ := merge_group_claimed
          (fun cap hcap => hlist cap (hmember cap hcap).1) hgroup e he path hpath
        obtain ⟨origin, horigin, metadata, rfl⟩ := (merge_group_ok hgroup).1 e he
        exact ⟨cap, (hmember cap hcap).1,
          (hmember cap hcap).2.trans (hmember origin horigin).2.symm, hclaimed⟩
      · exact ih hrest e he path hpath

theorem merge_by_effective_uri_claimed
    (hlist : ∀ cap ∈ caps, ∀ text, Dict.get? cap.metadata "sourcePaths" ≠ some (.str text))
    (h : mergeByEffectiveUri p caps = .ok merged) :
    ∀ e ∈ merged, ∀ path ∈ claimedPaths p e,
      ∃ cap ∈ caps, cap.uri = e.uri ∧ path ∈ claimedPaths p cap :=
  merge_groups_claimed hlist h

/-- A group that is not empty has a winner. -/
theorem merge_group_covers (hcaps : caps ≠ []) (h : mergeGroup p uri caps = .ok merged) :
    merged ≠ [] := by
  unfold mergeGroup at h
  split at h
  · cases h
    simp
  · cases hranked : caps.insertionSort fun a b => outranks p a b with
    | nil =>
        have hperm := List.perm_insertionSort (fun a b => outranks p a b = true) caps
        rw [hranked] at hperm
        exact absurd hperm.symm.eq_nil hcaps
    | cons winner others =>
        simp only [hranked] at h
        split at h
        · cases h
        · obtain ⟨rows, -, h⟩ := bind_eq_ok h
          cases h
          simp

theorem merge_groups_covers (h : mergeGroups p caps uris = .ok merged) :
    ∀ cap ∈ caps, cap.uri ∈ uris → ∃ e ∈ merged, e.uri = cap.uri := by
  induction uris generalizing merged with
  | nil => simp
  | cons uri uris ih =>
      unfold mergeGroups at h
      obtain ⟨group, hgroup, h⟩ := bind_eq_ok h
      obtain ⟨rest, hrest, h⟩ := bind_eq_ok h
      cases h
      intro cap hcap hin
      rcases List.mem_cons.mp hin with rfl | hin
      · have hne := merge_group_covers (List.ne_nil_of_mem
          (List.mem_filter.mpr ⟨hcap, decide_eq_true rfl⟩)) hgroup
        obtain ⟨e, he⟩ := List.exists_mem_of_ne_nil group hne
        obtain ⟨origin, horigin, metadata, rfl⟩ := (merge_group_ok hgroup).1 e he
        exact ⟨_, List.mem_append_left _ he, by simpa using (List.mem_filter.mp horigin).2⟩
      · obtain ⟨e, he, huri⟩ := ih hrest cap hcap hin
        exact ⟨e, List.mem_append_right _ he, huri⟩

theorem merge_by_effective_uri_covers (h : mergeByEffectiveUri p caps = .ok merged) :
    ∀ cap ∈ caps, ∃ e ∈ merged, e.uri = cap.uri := fun cap hcap =>
  merge_groups_covers h cap hcap ((List.mem_insertionSort _).mpr
    (List.mem_dedup.mpr (List.mem_map_of_mem hcap)))

/-- One capability needs no merging. -/
theorem merge_by_effective_uri_singleton (cap : Capability) :
    mergeByEffectiveUri p [cap] = .ok [cap] := by
  simp [mergeByEffectiveUri, mergeGroups, mergeGroup, bind, Except.bind]

end

end Capmesh
