import Capmesh.Index.Merge
import Capmesh.Relational.Collation

/-!
# Merging canonical duplicates

`merge_duplicate_capabilities` of `manifest.py`, the last step of discovery: the capabilities of
one canonical key become the one with the highest authority, and its metadata records where each
came from. Read `merge_duplicates_ok` first: the winner has the highest authority of its key, and
its provenance is exactly that of the members.
-/

namespace Capmesh

open Python Relational

/-- A provenance tuple. -/
structure SourceTuple where
  sourcePath : String
  sourceKind : String
  sourceSystem : String
  contentHash : String
  deriving DecidableEq, Repr

namespace SourceTuple

/-- The source row of a tuple, at an address. -/
def toRow (source : SourceTuple) (uri : String) : SourceRow :=
  ⟨source.sourcePath, uri, source.sourceKind, source.sourceSystem, source.contentHash⟩

/-- A provenance tuple as a metadata record. -/
def record (source : SourceTuple) : Json := (source.toRow "").record

/-- The order of tuples. -/
def precedes (a b : SourceTuple) : Bool := (a.toRow "").precedes (b.toRow "")

end SourceTuple

section

variable (p : Platform)

/-- The provenance tuple of a discovered capability. -/
def Capability.sourceTuple (cap : Capability) : SourceTuple :=
  ⟨p.normalizePath cap.sourcePath, cap.sourceKind, cap.sourceSystem, cap.contentHash⟩

/-- The order the members of one canonical key are ranked in: authority, system, path. -/
def preferredTo (a b : Capability) : Bool :=
  if a.authority p ≠ b.authority p then b.authority p < a.authority p
  else if a.sourceSystem ≠ b.sourceSystem then a.sourceSystem ≤ b.sourceSystem
  else p.normalizePath a.sourcePath ≤ p.normalizePath b.sourcePath

/-- The message about an ambiguous canonical key. -/
def canonicalCollisionMessage (canonicalKey : String) (preferred : Capability)
    (caps : List Capability) : String :=
  "capmesh: ambiguous canonical-key collision for " ++ canonicalKey ++
    ": equal-authority sources contain different content: [" ++
    join ", " ((ambiguousSources p preferred caps).map p.repr) ++ "]; selected " ++
    p.normalizePath preferred.sourcePath ++
    " deterministically. Recorded as ambiguousAuthorityCollision in capability metadata."

/-- The metadata of the preferred member. -/
def canonicalMetadata (preferred : Capability) (provenance : List SourceTuple)
    (ambiguous : List String) : Dict :=
  let paths := (provenance.map (·.sourcePath)).dedup.insertionSort (· ≤ ·)
  let conflicts := provenance.filter (·.contentHash ≠ preferred.contentHash)
  let metadata := (preferred.metadata.set "sourcePaths" (.arr (paths.map .str))).set
    "sourceProvenance" (.arr (provenance.map SourceTuple.record))
  let metadata :=
    if conflicts.isEmpty then metadata
    else ((metadata.set "staleMirrorDetected" (.bool true)).set "sourceConflicts"
      (.arr (conflicts.map SourceTuple.record))).set "sourceAuthority"
        (.obj (authorityRecord p preferred))
  if ambiguous.isEmpty then metadata
  else ((metadata.set "ambiguousAuthorityCollision" (.bool true)).set "ambiguousSources"
    (.arr (ambiguous.map .str))).set "sourceAuthority"
      (.obj (authorityRecord p preferred ++ [("resolvedBy", .str "deterministic-tiebreak")]))

/-- The provenance of the members of a key, each tuple once, in order. -/
def canonicalProvenance (caps : List Capability) : List SourceTuple :=
  (caps.map (·.sourceTuple p)).dedup.insertionSort fun a b => a.precedes b

/-- Merge the capabilities of one canonical key. -/
def mergeCanonicalKey (canonicalKey : String) (caps : List Capability) :
    Except Failure (List Capability) :=
  match caps.insertionSort fun a b => preferredTo p a b with
  | [] => .ok []
  | preferred :: _ =>
      let ambiguous := ambiguousSources p preferred caps
      if !ambiguous.isEmpty && p.strictCollisions then
        .error (.value (canonicalCollisionMessage p canonicalKey preferred caps))
      else .ok [{ preferred with
        metadata := canonicalMetadata p preferred (canonicalProvenance p caps) ambiguous }]

/-- The canonical keys in the order in which they first occur. -/
def canonicalKeys (caps : List Capability) : List String :=
  (caps.map (·.canonicalKey)).reverse.dedup.reverse

/-- `merge_duplicate_capabilities`. -/
def mergeDuplicateCapabilities (caps : List Capability) : Except Failure (List Capability) := do
  let merged ← collate (·.canonicalKey) (mergeCanonicalKey p) caps (canonicalKeys caps)
  .ok (merged.insertionSort fun a b => a.uri ≤ b.uri)

end

section

variable {p : Platform} {caps others merged : List Capability} {cap e : Capability}
  {canonicalKey : String}

theorem texts_antisymm (a b : String) (hab : a ≤ b) (hba : b ≤ a) : a = b :=
  String.le_antisymm hab hba

theorem precedes_iff (a b : SourceRow) : a.precedes b = true ↔
    if a.sourcePath ≠ b.sourcePath then a.sourcePath ≤ b.sourcePath
    else if a.sourceKind ≠ b.sourceKind then a.sourceKind ≤ b.sourceKind
    else if a.sourceSystem ≠ b.sourceSystem then a.sourceSystem ≤ b.sourceSystem
    else a.contentHash ≤ b.contentHash := by
  unfold SourceRow.precedes
  split_ifs <;> simp

theorem precedes_preordered : Preordered fun a b : SourceRow => a.precedes b = true := by
  simp only [precedes_iff]
  exact .byKey _ texts_preordered texts_antisymm <| .byKey _ texts_preordered texts_antisymm <|
    .byKey _ texts_preordered texts_antisymm <| texts_preordered.comap SourceRow.contentHash

/-- The order of provenance tuples tells the tuples of one address apart. -/
theorem precedes_antisymm {a b : SourceRow} (huri : a.uri = b.uri) (hab : a.precedes b = true)
    (hba : b.precedes a = true) : a = b := by
  rw [precedes_iff] at hab hba
  obtain ⟨hpath, hab, hba⟩ := byKey_antisymm SourceRow.sourcePath texts_antisymm hab hba
  obtain ⟨hkind, hab, hba⟩ := byKey_antisymm SourceRow.sourceKind texts_antisymm hab hba
  obtain ⟨hsystem, hab, hba⟩ := byKey_antisymm SourceRow.sourceSystem texts_antisymm hab hba
  cases a
  cases b
  simp only at hpath hkind hsystem huri hab hba
  rw [hpath, hkind, hsystem, huri, texts_antisymm _ _ hab hba]

theorem SourceTuple.precedes_preordered :
    Preordered fun a b : SourceTuple => a.precedes b = true :=
  Capmesh.precedes_preordered.comap fun source : SourceTuple => source.toRow ""

theorem SourceTuple.precedes_antisymm {a b : SourceTuple} (hab : a.precedes b = true)
    (hba : b.precedes a = true) : a = b := by
  have hrow : a.toRow "" = b.toRow "" := Capmesh.precedes_antisymm rfl hab hba
  cases a
  cases b
  simpa [SourceTuple.toRow] using hrow

theorem preferred_to_iff (a b : Capability) : preferredTo p a b = true ↔
    if a.authority p ≠ b.authority p then b.authority p ≤ a.authority p
    else if a.sourceSystem ≠ b.sourceSystem then a.sourceSystem ≤ b.sourceSystem
    else p.normalizePath a.sourcePath ≤ p.normalizePath b.sourcePath := by
  unfold preferredTo
  split_ifs <;> simp
  omega

theorem preferred_to_preordered : Preordered fun a b => preferredTo p a b = true := by
  simp only [preferred_to_iff]
  exact .byKey _ ranks_preordered (fun _ _ hab hba => Nat.le_antisymm hba hab) <|
    .byKey _ texts_preordered texts_antisymm <|
      texts_preordered.comap fun cap : Capability => p.normalizePath cap.sourcePath

/-- Two capabilities that rank before each other have one source path. -/
theorem preferred_to_antisymm {a b : Capability} (hab : preferredTo p a b = true)
    (hba : preferredTo p b a = true) :
    p.normalizePath a.sourcePath = p.normalizePath b.sourcePath := by
  rw [preferred_to_iff] at hab hba
  obtain ⟨-, hab, hba⟩ := byKey_antisymm (Capability.authority p)
    (fun _ _ hab hba => Nat.le_antisymm hba hab) hab hba
  obtain ⟨-, hab, hba⟩ := byKey_antisymm Capability.sourceSystem texts_antisymm hab hba
  exact texts_antisymm _ _ hab hba

theorem authority_of_preferred {a b : Capability} (h : preferredTo p a b = true) :
    b.authority p ≤ a.authority p := by
  rw [preferred_to_iff] at h
  split at h
  · exact h
  · rename_i hsame
    exact (not_not.mp hsame).ge

/-- The ambiguous sources of a group do not depend on the order of its members. -/
theorem ambiguous_sources_perm (winner : Capability) (h : caps.Perm others) :
    ambiguousSources p winner caps = ambiguousSources p winner others := by
  have htop := h.filter fun cap => decide (cap.authority p = winner.authority p)
  have hhashes := ((htop.map (·.contentHash)).dedup).length_eq
  have hsorted := sort_eq_of_perm texts_preordered (fun a _ b _ => texts_antisymm a b)
    (htop.map fun cap => p.normalizePath cap.sourcePath)
  unfold ambiguousSources
  simp only [hhashes, hsorted]

theorem canonical_message_perm (canonicalKey : String) (preferred : Capability)
    (h : caps.Perm others) :
    canonicalCollisionMessage p canonicalKey preferred caps =
      canonicalCollisionMessage p canonicalKey preferred others := by
  unfold canonicalCollisionMessage
  rw [ambiguous_sources_perm preferred h]

theorem canonical_provenance_perm (h : caps.Perm others) :
    canonicalProvenance p caps = canonicalProvenance p others :=
  sorted_set_eq SourceTuple.precedes_preordered
    (fun _ _ _ _ => SourceTuple.precedes_antisymm) fun _ => (h.map _).mem_iff

theorem mem_canonical_provenance {source : SourceTuple} :
    source ∈ canonicalProvenance p caps ↔ ∃ cap ∈ caps, cap.sourceTuple p = source := by
  rw [canonicalProvenance, List.mem_insertionSort, List.mem_dedup, List.mem_map]

theorem canonical_provenance_nodup : (canonicalProvenance p caps).Nodup :=
  (List.perm_insertionSort _ _).nodup_iff.mpr (List.nodup_dedup _)

/-- No two capabilities of a list have one source path. -/
def PathsApart (p : Platform) (caps : List Capability) : Prop :=
  (caps.map fun cap => p.normalizePath cap.sourcePath).Nodup

instance : Decidable (PathsApart p caps) := inferInstanceAs (Decidable (List.Nodup _))

theorem PathsApart.eq (h : PathsApart p caps) {a b : Capability} (ha : a ∈ caps) (hb : b ∈ caps)
    (hpath : p.normalizePath a.sourcePath = p.normalizePath b.sourcePath) : a = b :=
  List.inj_on_of_nodup_map h ha hb hpath

theorem PathsApart.filter (h : PathsApart p caps) (selects : Capability → Bool) :
    PathsApart p (caps.filter selects) :=
  h.sublist (List.filter_sublist.map _)

/-- The outcome for one key does not depend on the order of its members. -/
theorem merge_canonical_key_perm (canonicalKey : String) (hpaths : PathsApart p caps)
    (h : caps.Perm others) :
    mergeCanonicalKey p canonicalKey caps = mergeCanonicalKey p canonicalKey others := by
  have hranked : caps.insertionSort (fun a b => preferredTo p a b) =
      others.insertionSort fun a b => preferredTo p a b :=
    sort_eq_of_perm preferred_to_preordered
      (fun a ha b hb hab hba => hpaths.eq ha hb (preferred_to_antisymm hab hba)) h
  have hprovenance := canonical_provenance_perm (p := p) h
  unfold mergeCanonicalKey
  rw [hranked, hprovenance]
  cases others.insertionSort fun a b => preferredTo p a b with
  | nil => rfl
  | cons preferred rest =>
      simp only [ambiguous_sources_perm preferred h, canonical_message_perm canonicalKey preferred h]

theorem merge_canonical_key_is_ok (hstrict : p.strictCollisions = false) (canonicalKey : String)
    (caps : List Capability) : ∃ merged, mergeCanonicalKey p canonicalKey caps = .ok merged := by
  unfold mergeCanonicalKey
  cases caps.insertionSort fun a b => preferredTo p a b with
  | nil => exact ⟨_, rfl⟩
  | cons preferred rest =>
      simp only [hstrict, Bool.and_false, Bool.false_eq_true, if_false]
      exact ⟨_, rfl⟩

/-- The winner of a key: a member of the highest authority, with the provenance of them all. -/
theorem merge_canonical_key_ok (hcaps : caps ≠ [])
    (h : mergeCanonicalKey p canonicalKey caps = .ok merged) :
    ∃ preferred ∈ caps, (∀ cap ∈ caps, cap.authority p ≤ preferred.authority p) ∧
      ∃ ambiguous, merged = [{ preferred with
        metadata := canonicalMetadata p preferred (canonicalProvenance p caps) ambiguous }] := by
  unfold mergeCanonicalKey at h
  cases hranked : caps.insertionSort fun a b => preferredTo p a b with
  | nil =>
      have hperm := List.perm_insertionSort (fun a b => preferredTo p a b = true) caps
      rw [hranked] at hperm
      exact absurd hperm.symm.eq_nil hcaps
  | cons preferred others =>
      obtain ⟨hmem, hfirst⟩ := sort_head_le preferred_to_preordered hranked
      simp only [hranked] at h
      split at h
      · cases h
      · cases h
        exact ⟨preferred, hmem, fun cap hcap => authority_of_preferred (hfirst cap hcap), _, rfl⟩

theorem mem_canonical_keys : canonicalKey ∈ canonicalKeys caps ↔
    ∃ cap ∈ caps, cap.canonicalKey = canonicalKey := by
  simp [canonicalKeys]

theorem canonical_keys_perm (h : caps.Perm others) :
    (canonicalKeys caps).Perm (canonicalKeys others) := by
  refine (List.perm_ext_iff_of_nodup ?_ ?_).mpr fun canonicalKey => ?_
  · exact List.nodup_reverse.mpr (List.nodup_dedup _)
  · exact List.nodup_reverse.mpr (List.nodup_dedup _)
  · simp only [mem_canonical_keys, h.mem_iff]

/-- The members of one canonical key. -/
def keyGroup (caps : List Capability) (canonicalKey : String) : List Capability :=
  caps.filter (·.canonicalKey = canonicalKey)

theorem merge_key_group_ok {group : List Capability}
    (hkey : ∃ cap ∈ caps, cap.canonicalKey = canonicalKey)
    (h : mergeCanonicalKey p canonicalKey (keyGroup caps canonicalKey) = .ok group) :
    ∃ preferred ∈ caps, preferred.canonicalKey = canonicalKey ∧
      (∀ cap ∈ keyGroup caps canonicalKey, cap.authority p ≤ preferred.authority p) ∧
      ∃ ambiguous, group = [{ preferred with
        metadata := canonicalMetadata p preferred
          (canonicalProvenance p (keyGroup caps canonicalKey)) ambiguous }] := by
  obtain ⟨cap, hcap, hkey⟩ := hkey
  have hne : keyGroup caps canonicalKey ≠ [] :=
    List.ne_nil_of_mem (List.mem_filter.mpr ⟨hcap, decide_eq_true hkey⟩)
  obtain ⟨preferred, hmem, htop, ambiguous, hmerged⟩ := merge_canonical_key_ok hne h
  obtain ⟨hmem, hpreferred⟩ := List.mem_filter.mp hmem
  exact ⟨preferred, hmem, of_decide_eq_true hpreferred, htop, ambiguous, hmerged⟩

theorem merge_duplicates_keys (h : mergeDuplicateCapabilities p caps = .ok merged) :
    (merged.map (·.canonicalKey)).Perm (canonicalKeys caps) := by
  obtain ⟨collated, hcollated, h⟩ := bind_eq_ok h
  cases h
  have hkeys : collated.map (·.canonicalKey) = (canonicalKeys caps).map id := by
    refine collate_map (fun canonicalKey hkey group hgroup => ?_) hcollated
    obtain ⟨preferred, -, hpreferred, -, ambiguous, rfl⟩ :=
      merge_key_group_ok (mem_canonical_keys.mp hkey) hgroup
    rw [List.map_singleton, hpreferred, id]
  rw [List.map_id] at hkeys
  rw [← hkeys]
  exact (List.perm_insertionSort _ _).map _

theorem merge_duplicates_nodup (h : mergeDuplicateCapabilities p caps = .ok merged) :
    (merged.map (·.canonicalKey)).Nodup :=
  (merge_duplicates_keys h).nodup_iff.mpr (List.nodup_reverse.mpr (List.nodup_dedup _))

/-- One capability for each canonical key: the winner has the highest authority of its key, and
the provenance of all its members. -/
theorem merge_duplicates_ok (h : mergeDuplicateCapabilities p caps = .ok merged) (he : e ∈ merged) :
    ∃ preferred ∈ caps,
      (∀ cap ∈ keyGroup caps e.canonicalKey, cap.authority p ≤ preferred.authority p) ∧
      ∃ ambiguous, e = { preferred with
        metadata := canonicalMetadata p preferred
          (canonicalProvenance p (keyGroup caps preferred.canonicalKey)) ambiguous } := by
  obtain ⟨collated, hcollated, h⟩ := bind_eq_ok h
  cases h
  obtain ⟨canonicalKey, hkey, group, hgroup, he⟩ :=
    (mem_collate hcollated).mp ((List.mem_insertionSort _).mp he)
  obtain ⟨preferred, hmem, rfl, htop, ambiguous, rfl⟩ :=
    merge_key_group_ok (mem_canonical_keys.mp hkey) hgroup
  obtain rfl := List.mem_singleton.mp he
  exact ⟨preferred, hmem, htop, ambiguous, rfl⟩

/-- Another order of the capabilities gives the same winners. -/
theorem merge_duplicates_perm (hpaths : PathsApart p caps) (hperm : caps.Perm others)
    (h : mergeDuplicateCapabilities p caps = .ok merged) :
    ∃ again, mergeDuplicateCapabilities p others = .ok again ∧ merged.Perm again := by
  obtain ⟨collated, hcollated, h⟩ := bind_eq_ok h
  cases h
  obtain ⟨again, hagain, hsame⟩ := collate_perm (canonical_keys_perm hperm)
    (fun key _ => merge_canonical_key_perm key (hpaths.filter _) (hperm.filter _)) hcollated
  refine ⟨again.insertionSort fun a b => a.uri ≤ b.uri, ?_, ?_⟩
  · rw [mergeDuplicateCapabilities, hagain]
    rfl
  · exact ((List.perm_insertionSort _ _).trans hsame).trans (List.perm_insertionSort _ _).symm

end

end Capmesh
