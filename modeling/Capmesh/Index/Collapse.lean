import Capmesh.Governance.Addresses
import Capmesh.Index.Written

/-!
# Discovered capabilities that collapse onto one address

Placement and the default rewrite file a discovered capability under a prefix and rebuild the
rest of its address from its type, plugin, name and version; a capability that declares a
governed address keeps it. Read `same_address_iff` first: it says which two capabilities get
one effective URI. `no_collapse_iff` says when every capability of a batch keeps a row of its
own.
-/

namespace Capmesh

open Python Relational

/-- The prefix a discovered capability is filed under; `none` for one that keeps the address it
declares. -/
def filedUnder (p : Platform) (index : PlacementIndex) (catalog : Table CapabilityRow)
    (cap : Capability) : Option String :=
  match placedVault p index catalog cap with
  | some vault => some (vaultTarget p (p.tenantOr cap.tenantId) vault).uriPrefix
  | none =>
      if cap.isSystem || isGovernedUri cap.uri then none
      else some (defaultUserNamespacePrefix p (p.tenantOr cap.tenantId))

/-- Two discovered capabilities with one address: they are filed under one prefix and spelled alike,
plugin included, or one declares the address of the other. -/
def SameAddress (p : Platform) (index : PlacementIndex) (catalog : Table CapabilityRow)
    (a b : Capability) : Prop :=
  match filedUnder p index catalog a, filedUnder p index catalog b with
  | some start, some start' => start = start' ∧ Alike p a b ∧
      spelledWords p (optOr a.plugin "global") = spelledWords p (optOr b.plugin "global")
  | some start, none => start ++ "/" ++ capabilityCanonicalTail p a = b.uri
  | none, some start => a.uri = start ++ "/" ++ capabilityCanonicalTail p b
  | none, none => a.uri = b.uri

/-- No two capabilities of a batch get one effective URI, and a successful ingest leaves a row for the
canonical key of each. -/
def NoCollapse (p : Platform) (db : Database) (input : IngestInput p) : Prop :=
  (∀ a ∈ input.batch.capabilities, ∀ b ∈ input.batch.capabilities,
      a.canonicalKey ≠ b.canonicalKey →
        (effective p input.placement db.capabilities a).uri ≠
          (effective p input.placement db.capabilities b).uri) ∧
    ∀ result changes, ingest p db input = (result, .ok changes) →
      ∀ cap ∈ input.batch.capabilities, ∃ row ∈ result.capabilities,
        row.cap.canonicalKey = cap.canonicalKey

/-- No capability of a batch is filed at the address of the approved promotion with another one's
key, unless it comes before that one. -/
def PromotionsApart (p : Platform) (db : Database) (input : IngestInput p) : Prop :=
  ∀ a ∈ input.batch.capabilities, ∀ b ∈ input.batch.capabilities,
    a.canonicalKey ≠ b.canonicalKey → ∀ row ∈ db.capabilities, row.cap.isPromoted = true →
      row.cap.canonicalKey = a.canonicalKey →
        (effective p input.placement db.capabilities b).uri = row.cap.uri →
          row.cap.uri < (effective p input.placement db.capabilities a).uri

section

variable {p : Platform} {index : PlacementIndex} {catalog : Table CapabilityRow}
variable {a b cap : Capability}

theorem effective_uri (p : Platform) (index : PlacementIndex) (catalog : Table CapabilityRow)
    (cap : Capability) :
    (effective p index catalog cap).uri =
      match filedUnder p index catalog cap with
      | some start => start ++ "/" ++ capabilityCanonicalTail p cap
      | none => cap.uri := by
  unfold effective filedUnder
  rw [apply_vault_placement_eq]
  cases placedVault p index catalog cap with
  | some vault => exact place_in_vault_uri p cap vault
  | none =>
      show (applyDefaultUserNamespace p cap).uri = _
      rw [apply_default_uri]
      dsimp only
      split <;> rfl

/-- **Two discovered capabilities get one effective URI exactly when they have one address.** -/
theorem same_address_iff :
    (effective p index catalog a).uri = (effective p index catalog b).uri ↔
      SameAddress p index catalog a b := by
  rw [effective_uri, effective_uri, SameAddress]
  cases filedUnder p index catalog a with
  | none => cases filedUnder p index catalog b <;> exact Iff.rfl
  | some start =>
      cases filedUnder p index catalog b with
      | none => exact Iff.rfl
      | some start' => exact filed_uri_eq_iff.trans (and_congr_right fun _ => canonical_tail_eq_iff)

end

section

variable {p : Platform} {input : IngestInput p} {db result : Database} {changes : Changes}
variable {catalog : Table CapabilityRow} {caps merged planned earlier later : List Capability}
variable {uris : List String} {e cap : Capability}

/-- The merged capabilities come in the order of their URIs. -/
theorem merge_groups_sorted (huris : uris.Pairwise (· < ·))
    (h : mergeGroups p caps uris = .ok merged) : merged.Pairwise fun a b => a.uri < b.uri := by
  induction uris generalizing merged with
  | nil =>
      cases h
      exact .nil
  | cons uri uris ih =>
      obtain ⟨hfirst, huris⟩ := List.pairwise_cons.mp huris
      unfold mergeGroups at h
      obtain ⟨group, hgroup, h⟩ := bind_eq_ok h
      obtain ⟨rest, hrest, h⟩ := bind_eq_ok h
      cases h
      obtain ⟨hmember, hgroupUris⟩ := merge_group_ok hgroup
      have hgroupUri : ∀ e ∈ group, e.uri = uri := by
        intro e he
        obtain ⟨cap, hcap, metadata, rfl⟩ := hmember e he
        simpa using (List.mem_filter.mp hcap).2
      have hlt : ∀ a b : String, a < b → a ≠ b := fun a b hab hsame =>
        String.lt_irrefl b (hsame ▸ hab)
      have hnodup : uris.Nodup := huris.imp (hlt _ _)
      refine List.pairwise_append.mpr ⟨?_, ih huris hrest, fun a ha b hb => ?_⟩
      · refine hgroupUris.imp_of_mem fun ha hb hab => ?_
        exact absurd ((hgroupUri _ ha).trans (hgroupUri _ hb).symm) hab
      · rw [hgroupUri a ha]
        exact hfirst _ ((merge_groups_ok hnodup hrest).1 b hb).1

theorem plan_sorted (h : plan p input catalog = .ok planned) :
    planned.Pairwise fun a b => a.uri < b.uri := by
  refine merge_groups_sorted ?_ h
  generalize (input.batch.capabilities.map (effective p input.placement catalog)).map (·.uri) = uris
  have hnodup : (uris.dedup.insertionSort (· ≤ ·)).Nodup :=
    (List.perm_insertionSort _ _).nodup_iff.mpr (List.nodup_dedup _)
  have hsorted := List.pairwise_insertionSort (· ≤ ·) uris.dedup
  refine (hsorted.and hnodup).imp fun {a b} hab => ?_
  by_contra hnot
  exact hab.2 (String.le_antisymm hab.1 (String.not_lt.mp hnot))

/-- Without a collapse each capability of the batch is planned, with its own key. -/
theorem planned_of_mem (hplan : plan p input catalog = .ok planned)
    (happart : ∀ a ∈ input.batch.capabilities, ∀ b ∈ input.batch.capabilities,
      a.canonicalKey ≠ b.canonicalKey → (effective p input.placement catalog a).uri ≠
        (effective p input.placement catalog b).uri)
    (hcap : cap ∈ input.batch.capabilities) :
    ∃ e ∈ planned, e.uri = (effective p input.placement catalog cap).uri ∧
      e.canonicalKey = cap.canonicalKey := by
  obtain ⟨e, he, huri⟩ := merge_by_effective_uri_covers hplan _ (List.mem_map_of_mem hcap)
  obtain ⟨origin, horigin, metadata, rfl⟩ := plan_origin hplan he
  refine ⟨_, he, huri, ?_⟩
  have hkey : origin.canonicalKey = cap.canonicalKey := by
    by_contra hne
    exact happart origin horigin cap hcap hne huri
  exact (effective_source p input.placement catalog origin).1.trans hkey

theorem exists_ingest_ok (h : (ingest p db input).2.toOption.isSome = true) :
    ∃ result changes, ingest p db input = (result, .ok changes) := by
  cases hingest : ingest p db input with
  | mk result outcome =>
      cases outcome with
      | error failure =>
          rw [hingest] at h
          cases h
      | ok changes => exact ⟨result, changes, rfl⟩

/-- Where the rows all stand, no capability took the address of another one's promotion. -/
theorem promotions_apart (hdb : db.Normalized) (h : ingest p db input = (result, .ok changes))
    (happart : ∀ a ∈ input.batch.capabilities, ∀ b ∈ input.batch.capabilities,
      a.canonicalKey ≠ b.canonicalKey → (effective p input.placement db.capabilities a).uri ≠
        (effective p input.placement db.capabilities b).uri)
    (hrows : ∀ cap ∈ input.batch.capabilities, ∃ row ∈ result.capabilities,
      row.cap.canonicalKey = cap.canonicalKey) : PromotionsApart p db input := by
  obtain ⟨-, -, planned, -, -, -, -, hplan, -, -, -⟩ := ingest_ok h
  have hplanned := plan_ok hplan
  intro a ha b hb hkey r hr hpromoted hrKey hrUri
  obtain ⟨e, he, heUri, heKey⟩ := planned_of_mem hplan happart ha
  obtain ⟨d, hd, hdUri, hdKey⟩ := planned_of_mem hplan happart hb
  obtain ⟨earlier, later, rfl⟩ := List.append_of_mem he
  obtain ⟨row, hrow, hrowKey⟩ := hrows a ha
  obtain ⟨-, hfree⟩ := (ingest_written hdb h hplan).1 row hrow (hrowKey.trans heKey.symm)
  have hne : d ≠ e := by
    rintro rfl
    exact hkey (heKey.symm.trans hdKey)
  obtain ⟨-, hsorted, hbefore⟩ := List.pairwise_append.mp (plan_sorted hplan)
  rcases List.mem_append.mp hd with hd | hd
  · have hlt := hbefore d hd e List.mem_cons_self
    rw [hdUri, hrUri, heUri] at hlt
    exact hlt
  · -- Behind `e` the capability `d` would replace the row at the landing address.
    have hd : d ∈ later := (List.mem_cons.mp hd).resolve_left hne
    have hnamed : earlier.any (·.uri = r.cap.uri) = false := by
      rw [List.any_eq_false]
      intro x hx
      have hlt := hbefore x hx d (List.mem_cons_of_mem _ hd)
      rw [hdUri, hrUri] at hlt
      simp only [decide_eq_true_eq]
      exact fun hsame => String.lt_irrefl _ (hsame ▸ hlt)
    have hlanding : landingUri db earlier e = r.cap.uri := by
      rw [landingUri, show e.canonicalKey = r.cap.canonicalKey from heKey.trans hrKey.symm,
        Database.capability_with_key_eq hr]
      simp [hpromoted, hnamed]
    exact absurd (hdUri.trans (hrUri.trans hlanding.symm)) (hfree d hd)

/-- Where no capability is filed behind another one at the address of its promotion, the rows all
stand. -/
theorem rows_of_promotions_apart (hdb : db.Normalized)
    (h : ingest p db input = (result, .ok changes))
    (happart : ∀ a ∈ input.batch.capabilities, ∀ b ∈ input.batch.capabilities,
      a.canonicalKey ≠ b.canonicalKey → (effective p input.placement db.capabilities a).uri ≠
        (effective p input.placement db.capabilities b).uri)
    (hpromotions : PromotionsApart p db input) (hcap : cap ∈ input.batch.capabilities) :
    ∃ row ∈ result.capabilities, row.cap.canonicalKey = cap.canonicalKey := by
  obtain ⟨-, -, planned, -, -, -, -, hplan, -, -, -⟩ := ingest_ok h
  have hplanned := plan_ok hplan
  obtain ⟨e, he, heUri, heKey⟩ := planned_of_mem hplan happart hcap
  obtain ⟨earlier, later, rfl⟩ := List.append_of_mem he
  obtain ⟨-, hsorted, -⟩ := List.pairwise_append.mp (plan_sorted hplan)
  have hstands := (ingest_written hdb h hplan).2 fun d hd hsame => ?_
  · obtain ⟨row, hrow, hkey⟩ := hstands
    exact ⟨row, hrow, hkey.trans heKey⟩
  · have hne := hplanned.ne_of_mem (.inr hd)
    obtain ⟨r, hr, hpromoted, hrKey, hrUri⟩ := (landing_uri_cases db earlier e).resolve_left
      fun hown => hne.1 (hsame.trans hown)
    obtain ⟨other, hother, metadata, rfl⟩ := plan_origin hplan
      (List.mem_append_right earlier (List.mem_cons_of_mem e hd))
    have hkey : cap.canonicalKey ≠ other.canonicalKey := by
      intro hkey
      refine hne.2 ?_
      exact (effective_source p input.placement db.capabilities other).1.trans
        (hkey.symm.trans heKey.symm)
    have hbefore := hpromotions cap hcap other hother hkey r hr hpromoted (hrKey.trans heKey)
      (hsame.trans hrUri)
    have hafter := (List.pairwise_cons.mp hsorted).1 _ hd
    rw [hsame, hrUri, heUri] at hafter
    exact String.lt_irrefl _ (String.lt_trans hbefore hafter)

/-- **A batch does not collapse exactly when no two of its capabilities with different keys have one
address, and, if the ingest succeeds, none is filed behind another one at the address of the
approved promotion with its key.** -/
theorem no_collapse_iff (p : Platform) (db : Database) (input : IngestInput p)
    (hdb : db.Normalized) :
    NoCollapse p db input ↔
      (∀ a ∈ input.batch.capabilities, ∀ b ∈ input.batch.capabilities,
        a.canonicalKey ≠ b.canonicalKey →
          ¬ SameAddress p input.placement db.capabilities a b) ∧
      ((ingest p db input).2.toOption.isSome = true → PromotionsApart p db input) := by
  constructor
  · rintro ⟨happart, hrows⟩
    refine ⟨fun a ha b hb hkey hsame => happart a ha b hb hkey (same_address_iff.mpr hsame),
      fun hok => ?_⟩
    obtain ⟨result, changes, h⟩ := exists_ingest_ok hok
    exact promotions_apart hdb h happart fun cap hcap => hrows result changes h cap hcap
  · rintro ⟨happart, hpromotions⟩
    have huris : ∀ a ∈ input.batch.capabilities, ∀ b ∈ input.batch.capabilities,
        a.canonicalKey ≠ b.canonicalKey → (effective p input.placement db.capabilities a).uri ≠
          (effective p input.placement db.capabilities b).uri :=
      fun a ha b hb hkey hsame => happart a ha b hb hkey (same_address_iff.mp hsame)
    refine ⟨huris, fun result changes h cap hcap => ?_⟩
    exact rows_of_promotions_apart hdb h huris (hpromotions (by rw [h]; rfl)) hcap

end

/-- Skills of one plugin whose names differ by a dot and a hyphen. -/
def separatedNotes (separator : String) : Capability :=
  let name := "release" ++ separator ++ "notes"
  { notesSkill "sha256:v1" with
    uri := "cap://asg.local/skill/notes." ++ name ++ "@0.1.0", name
    sourcePath := "/asg-os/plugins/notes/skills/" ++ name ++ "/SKILL.md"
    canonicalKey := "skill:notes:" ++ name ++ ":0.1.0", contentHash := "sha256:" ++ name }

/-- The two skills, discovered together. -/
def separatedBatch : Batch .sample where
  capabilities := [separatedNotes ".", separatedNotes "-"]
  keys := by decide +kernel
  sources := by decide +kernel
  discovered := by decide +kernel
  listed cap hcap text := by
    have hempty : ∀ cap ∈ [separatedNotes ".", separatedNotes "-"], cap.metadata = [] := by decide
    rw [hempty cap hcap]
    simp [Dict.get?]

/-- A new version of the promoted skill, discovered with one of them. -/
def notesBesides : Batch .sample where
  capabilities := [notesSkill "sha256:v2", separatedNotes "-"]
  keys := by decide +kernel
  sources := by decide +kernel
  discovered := by decide +kernel
  listed cap hcap text := by
    have hempty : ∀ cap ∈ [notesSkill "sha256:v2", separatedNotes "-"], cap.metadata = [] := by
      decide
    rw [hempty cap hcap]
    simp [Dict.get?]

/-- These two do not collapse, although one has the key of an approved promotion. -/
theorem notes_besides_no_collapse :
    NoCollapse .sample promotedCatalog
      { notesInput "sha256:v2" (by decide) with batch := notesBesides } := by
  have huris : ∀ a ∈ notesBesides.capabilities, ∀ b ∈ notesBesides.capabilities,
      a.canonicalKey ≠ b.canonicalKey →
      (effective .sample [] promotedCatalog.capabilities a).uri ≠
        (effective .sample [] promotedCatalog.capabilities b).uri := by
    decide +kernel
  have hfiled : ∀ b ∈ notesBesides.capabilities,
      (effective .sample [] promotedCatalog.capabilities b).uri ≠ promotedNotes.cap.uri := by
    decide +kernel
  refine (no_collapse_iff .sample promotedCatalog
    { notesInput "sha256:v2" (by decide) with batch := notesBesides }
    promoted_catalog_normalized).mpr ⟨fun a ha b hb hkey hsame => ?_,
      fun _ a _ b hb _ row hrow _ _ huri => ?_⟩
  · exact huris a ha b hb hkey (same_address_iff.mpr hsame)
  · rw [List.mem_singleton.mp hrow] at huri
    exact absurd huri (hfiled b hb)

/-- The two skills collapse onto one private address. -/
theorem release_notes_collapse : ¬ ∀ (p : Platform) (db : Database) (input : IngestInput p),
    db.Normalized → NoCollapse p db input := by
  intro h
  have happart := (h .sample promotedCatalog
    { notesInput "sha256:v2" (by decide) with batch := separatedBatch } promoted_catalog_normalized).1
  refine happart (separatedNotes ".") (by decide) (separatedNotes "-") (by decide) (by decide) ?_
  decide +kernel

end Capmesh
