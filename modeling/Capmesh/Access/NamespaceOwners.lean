import Capmesh.Governance.Promotion
import Capmesh.Index.Stability
import Capmesh.Index.Written

/-!
# Transferring a namespace

`transfer_namespace` of `namespace_owners.py` sets the owner of a namespace and of its
capabilities. `owner_grant` reads the creator of a capability before its owner, and every
ingest writes both columns again from the discovered file, so a transfer takes effect and
lasts under a condition on the creators: `transfer_lasts`.
-/

namespace Capmesh

open Python Relational Execution

/-- The columns of `namespaces` that a transfer reads and writes. -/
structure NamespaceOwner where
  id : String
  tenantId : String
  name : String
  owner : String
  deriving DecidableEq, Repr

instance : Constrained NamespaceOwner where
  Conflict a b := a.id = b.id
  symm h := h.symm

/-- What a transfer returns and records in `audit_events`. -/
structure NamespaceTransfer where
  tenantId : String
  namespaceId : String
  namespaceName : String
  fromOwner : String
  toOwner : String
  reason : String
  actor : String
  deriving DecidableEq, Repr

/-- A catalog with its namespaces and the transfers it recorded. -/
structure NamespaceCatalog where
  db : Database
  namespaces : Table NamespaceOwner
  transfers : List NamespaceTransfer

/-- The arguments of `transfer_namespace`. -/
structure TransferCall where
  namespaceId : String
  newOwner : String
  actor : String
  tenantId : String := "asg"
  reason : String := ""

/-- The namespace with an id, under a new owner. -/
def NamespaceOwner.transferred (id newOwner : String) (row : NamespaceOwner) : NamespaceOwner :=
  if row.id = id then { row with owner := newOwner } else row

theorem NamespaceOwner.transferred_id (id newOwner : String) (row : NamespaceOwner) :
    (row.transferred id newOwner).id = row.id := by
  unfold NamespaceOwner.transferred
  split <;> rfl

/-- Whether a capability is filed in a namespace of a tenant. -/
def Capability.inNamespace (tenantId namespaceId : String) (cap : Capability) : Bool :=
  cap.namespaceId = some namespaceId && cap.tenantId = tenantId

/-- A capability under a new owner. -/
def Capability.ownedBy (newOwner : String) (cap : Capability) : Capability :=
  { cap with owner := newOwner }

theorem owned_by_keeps_identity (newOwner : String) : KeepsIdentity (·.ownedBy newOwner) :=
  fun _ => ⟨rfl, rfl, rfl, rfl⟩

/-- The transfer of a namespace row: the owner of the row and of its capabilities, and the event. -/
def NamespaceCatalog.transfer (catalog : NamespaceCatalog) (call : TransferCall)
    (row : NamespaceOwner) : NamespaceCatalog × NamespaceTransfer :=
  let transfer : NamespaceTransfer :=
    ⟨call.tenantId, call.namespaceId, row.name, row.owner, call.newOwner, call.reason, call.actor⟩
  ({ db := catalog.db.amendCapabilities (·.inNamespace call.tenantId call.namespaceId)
      (·.ownedBy call.newOwner) (owned_by_keeps_identity call.newOwner)
     namespaces := catalog.namespaces.map (·.transferred call.namespaceId call.newOwner)
      fun a b h => (NamespaceOwner.transferred_id _ _ a).symm.trans
        (h.trans (NamespaceOwner.transferred_id _ _ b))
     transfers := catalog.transfers ++ [transfer] }, transfer)

/-- `transfer_namespace`. -/
def transferNamespace (catalog : NamespaceCatalog) (call : TransferCall) :
    Except Failure (NamespaceCatalog × NamespaceTransfer) :=
  match catalog.namespaces.find? fun row =>
      row.id = call.namespaceId && row.tenantId = call.tenantId with
  | none => .error (.value ("Namespace not found: " ++ call.namespaceId))
  | some row =>
      if row.owner = call.newOwner then
        .error (.value "New owner is the same as current owner")
      else .ok (catalog.transfer call row)

/-- The name `owner_grant` compares with a principal. -/
def Capability.grantedOwner (cap : Capability) : String := optOr cap.createdBy cap.owner

/-- Whether an owner's name is one of a principal. -/
def Principal.answersTo (principal : Principal) (owner : String) : Bool :=
  owner = principal.subject || some owner = principal.identityId ||
    principal.groups.contains owner

/-- `owner_grant` holds for whoever answers to the new owner, and no longer for who answers to the
old one alone. -/
def OwnerMoved (fromOwner toOwner : String) (cap : Capability) : Prop :=
  ∀ right ∈ ownerRights, ∀ principal : Principal,
    (principal.answersTo toOwner = true → ownerGrant cap principal right = true) ∧
    (principal.answersTo fromOwner = true → principal.answersTo toOwner = false →
      ownerGrant cap principal right = false)

/-- The owner moved on every capability of a namespace. -/
def TransferHolds (transfer : NamespaceTransfer) (db : Database) : Prop :=
  ∀ row ∈ db.capabilities, row.cap.inNamespace transfer.tenantId transfer.namespaceId = true →
    OwnerMoved transfer.fromOwner transfer.toOwner row.cap

/-- A capability names the new owner of a transfer if it is filed in the namespace: as its creator,
or as its owner without a creator. -/
def NamesOwner (transfer : NamespaceTransfer) (cap : Capability) : Prop :=
  cap.inNamespace transfer.tenantId transfer.namespaceId = true →
    cap.grantedOwner = transfer.toOwner

/-- Every capability an ingest writes names the new owner: the planned one, at the address and with
the owner it takes over from the approved promotion it refreshes. -/
def KeepsOwner (p : Platform) (transfer : NamespaceTransfer) (db : Database)
    (input : IngestInput p) : Prop :=
  ∀ planned, plan p input db.capabilities = .ok planned →
    ∀ earlier e later, planned = earlier ++ e :: later →
      ∀ current, indexAll p input (.start (quarantineNewCapabilities p db input).1) earlier =
          .ok current →
        NamesOwner transfer (carryOver (previousRow current.db e) e)

section

variable {p : Platform} {catalog moved : NamespaceCatalog} {call : TransferCall}
variable {transfer : NamespaceTransfer} {input : IngestInput p} {db : Database}

/-- The owner moved exactly when the name `owner_grant` compares is the new one. -/
theorem owner_moved_iff (fromOwner toOwner : String) (cap : Capability) :
    OwnerMoved fromOwner toOwner cap ↔ cap.grantedOwner = toOwner := by
  constructor
  · intro hmoved
    have hgrant := (hmoved "discover" (by decide)
      { subject := toOwner, tenantId := "", groups := [] }).1 (by simp [Principal.answersTo])
    have hnamed : optOr cap.createdBy cap.owner = toOwner := by
      simpa [ownerGrant, ownerRights] using hgrant
    exact hnamed
  · intro hnamed right hright principal
    have hgrant : ownerGrant cap principal right = principal.answersTo toOwner := by
      unfold Capability.grantedOwner at hnamed
      simp [ownerGrant, Principal.answersTo, hnamed, hright]
    rw [hgrant]
    exact ⟨fun h => h, fun _ h => h⟩

theorem transfer_holds_iff : TransferHolds transfer db ↔
    ∀ row ∈ db.capabilities, NamesOwner transfer row.cap := by
  unfold TransferHolds NamesOwner
  simp only [owner_moved_iff]

theorem transfer_namespace_ok (h : transferNamespace catalog call = .ok (moved, transfer)) :
    transfer.tenantId = call.tenantId ∧ transfer.namespaceId = call.namespaceId ∧
      transfer.toOwner = call.newOwner ∧
      ∀ x, x ∈ moved.db.capabilities ↔ ∃ y ∈ catalog.db.capabilities,
        y.amend (·.inNamespace call.tenantId call.namespaceId) (·.ownedBy call.newOwner) = x := by
  unfold transferNamespace at h
  split at h
  · cases h
  split at h
  · cases h
  cases h
  exact ⟨rfl, rfl, rfl, fun x =>
    Table.mem_map (amend_conflict (owned_by_keeps_identity call.newOwner)) x⟩

/-- The owner counts exactly for a capability without another creator. -/
theorem granted_owner_eq_iff (createdBy : Option String) (owner : String) :
    optOr createdBy owner = owner ↔ (present createdBy = true → createdBy = some owner) := by
  cases createdBy with
  | none => simp [optOr, present]
  | some creator =>
      by_cases hempty : creator = ""
      · simp [optOr, present, orElse, hempty]
      · simp [optOr, present, orElse, hempty]

theorem transfer_holds_after (h : transferNamespace catalog call = .ok (moved, transfer)) :
    TransferHolds transfer moved.db ↔ ∀ row ∈ catalog.db.capabilities,
      row.cap.inNamespace call.tenantId call.namespaceId = true →
        present row.cap.createdBy = true → row.cap.createdBy = some call.newOwner := by
  obtain ⟨htenant, hnamespace, howner, hrows⟩ := transfer_namespace_ok h
  rw [transfer_holds_iff]
  unfold NamesOwner
  rw [htenant, hnamespace, howner]
  constructor
  · intro hnames row hrow hin
    have hnamed := hnames _ ((hrows _).mpr ⟨row, hrow, rfl⟩)
    rw [CapabilityRow.amend, if_pos hin] at hnamed
    exact (granted_owner_eq_iff _ _).mp (hnamed hin)
  · intro hcreators x hx hin
    obtain ⟨row, hrow, rfl⟩ := (hrows x).mp hx
    by_cases hrowIn : row.cap.inNamespace call.tenantId call.namespaceId = true
    · rw [CapabilityRow.amend, if_pos hrowIn]
      exact (granted_owner_eq_iff _ _).mpr (hcreators row hrow hrowIn)
    · rw [CapabilityRow.amend, if_neg hrowIn] at hin
      exact absurd hin hrowIn

theorem Landing.names_owner_iff {after : Database} {e : Capability} {row : CapabilityRow}
    (h : Landing p db after e row) :
    NamesOwner transfer row.cap ↔ NamesOwner transfer (carryOver (previousRow db e) e) := by
  have hcolumns := h.indexedColumns
  have howner : row.cap.grantedOwner = (carryOver (previousRow db e) e).grantedOwner := by
    unfold Capability.grantedOwner
    rw [hcolumns.owner, hcolumns.createdBy]
  unfold NamesOwner Capability.inNamespace
  rw [hcolumns.namespaceId, hcolumns.tenantId, howner]

/-- A loop body that writes a capability of the new owner keeps the transfer. -/
theorem transfer_holds_landing {after : Database} {e : Capability} {row : CapabilityRow}
    (h : Landing p db after e row)
    (hnames : NamesOwner transfer (carryOver (previousRow db e) e))
    (hdb : TransferHolds transfer db) : TransferHolds transfer after := by
  rw [transfer_holds_iff] at hdb ⊢
  intro x hx
  cases (h.mem x).mp hx with
  | inl hnew =>
      subst hnew
      exact h.names_owner_iff.mpr hnames
  | inr hold => exact hdb x hold.1

theorem transfer_holds_ingest (hkeeps : KeepsOwner p transfer db input)
    (hdb : TransferHolds transfer db) : TransferHolds transfer (ingestStep p db input) := by
  unfold ingestStep
  cases houtcome : ingest p db input with
  | mk result outcome =>
      cases outcome with
      | error failure =>
          have hadded := ingest_error houtcome
          unfold TransferHolds
          rw [hadded.capabilities]
          exact hdb
      | ok changes =>
          obtain ⟨held, counts, planned, final, removed, hquarantine, hadded, hplan, hindex,
            hdelete, _⟩ := ingest_ok houtcome
          have hfinal : TransferHolds transfer final.db := by
            refine (index_all_induction (motive := fun done current =>
              indexAll p input (.start held) done = .ok current ∧
                TransferHolds transfer current.db) (plan_ok hplan) ⟨rfl, ?_⟩ ?_ hindex).2
            · unfold TransferHolds
              rw [show (Indexing.start held).db.capabilities = db.capabilities from
                hadded.capabilities]
              exact hdb
            · intro done e rest current next row hsplit ⟨hdone, hcurrent⟩ hnext hlanding
              refine ⟨?_, transfer_holds_landing hlanding ?_ hcurrent⟩
              · refine index_all_append.mpr ⟨current, hdone, ?_⟩
                simp [indexAll, hnext, bind, Except.bind]
              · refine hkeeps planned hplan done e rest hsplit current ?_
                rw [hquarantine]
                exact hdone
          intro x hx
          exact hfinal x (((delete_source_orphaned_ok hdelete).mem_iff x).mp hx).1

end

/-- A transfer takes effect exactly when no capability of the namespace has another creator, and it
lasts over every run of ingests that write only capabilities of the new owner into the namespace.
A loop body that writes another one ends it. -/
theorem transfer_lasts (p : Platform) (catalog moved : NamespaceCatalog) (call : TransferCall)
    (transfer : NamespaceTransfer)
    (h : transferNamespace catalog call = .ok (moved, transfer)) :
    (TransferHolds transfer moved.db ↔ ∀ row ∈ catalog.db.capabilities,
      row.cap.inNamespace call.tenantId call.namespaceId = true →
        present row.cap.createdBy = true → row.cap.createdBy = some call.newOwner) ∧
    (∀ inputs, TransferHolds transfer moved.db →
      Along (ingestStep p) (KeepsOwner p transfer) moved.db inputs →
      ∀ earlier later, inputs = earlier ++ later →
        TransferHolds transfer (run (ingestStep p) moved.db earlier)) ∧
    ∀ (input : IngestInput p) current next e, e.Governed → e.tenantId ≠ "" →
      indexOne p input current e = .ok next →
      ¬ NamesOwner transfer (carryOver (previousRow current.db e) e) →
      ¬ TransferHolds transfer next.db := by
  refine ⟨transfer_holds_after h, fun inputs hholds hkeeps earlier later hsplit => ?_,
    fun input current next e hgoverned htenant hnext hother hholds => ?_⟩
  · subst hsplit
    exact run_invariant_along (fun db input hkeeps hdb => transfer_holds_ingest hkeeps hdb)
      ((along_append _ earlier later).mp hkeeps).1 hholds
  · obtain ⟨row, hlanding⟩ := index_one_ok hgoverned htenant hnext
    refine hother (hlanding.names_owner_iff.mp ?_)
    exact transfer_holds_iff.mp hholds row ((hlanding.mem row).mpr (.inl rfl))

/-- The notes skill in the namespace of a team, with its creator. -/
def teamNotes (createdBy : Option String) : Capability :=
  { notesSkill "sha256:v1" with
    uri := "cap://app/asg/team/notes@0-1-0", namespaceId := some "ns_team", owner := "alice"
    createdBy }

/-- An ingest of that skill. -/
def teamInput (createdBy : Option String) : IngestInput .sample :=
  .bare (.single (teamNotes createdBy)
    ⟨rfl, by simp [teamNotes, notesSkill], by simp [teamNotes, notesSkill]⟩
    (Capability.unlisted rfl))

/-- The namespace of the team, which alice owns. -/
def teamNamespace : NamespaceOwner := ⟨"ns_team", "asg", "team", "alice"⟩

/-- The catalog after a first ingest of the skill. -/
def teamCatalog (createdBy : Option String) : NamespaceCatalog :=
  ⟨ingestStep .sample Database.empty (teamInput createdBy),
    ⟨[teamNamespace], List.pairwise_singleton _ _⟩, []⟩

/-- The transfer of the team's namespace to bob. -/
def transferTeam : TransferCall := { namespaceId := "ns_team", newOwner := "bob", actor := "admin" }

theorem transfer_team_ok (createdBy : Option String) :
    transferNamespace (teamCatalog createdBy) transferTeam =
      .ok ((teamCatalog createdBy).transfer transferTeam teamNamespace) := by
  simp [transferNamespace, teamCatalog, teamNamespace, transferTeam, Table.find?]

instance (transfer : NamespaceTransfer) (cap : Capability) : Decidable (NamesOwner transfer cap) :=
  inferInstanceAs (Decidable (_ → _))

/-- Alice created the skill, and keeps what the transfer gives bob; nobody did, and the next ingest
of the same file gives it back to her. -/
theorem transfer_lasts_counterexample :
    (¬ ∀ (p : Platform) (start : Database) (input : IngestInput p)
        (catalog moved : NamespaceCatalog) (call : TransferCall) (transfer : NamespaceTransfer),
      catalog.db = ingestStep p start input →
      transferNamespace catalog call = .ok (moved, transfer) →
      TransferHolds transfer moved.db) ∧
    ¬ ∀ (p : Platform) (start : Database) (input : IngestInput p)
        (catalog moved : NamespaceCatalog) (call : TransferCall) (transfer : NamespaceTransfer),
      catalog.db = ingestStep p start input →
      transferNamespace catalog call = .ok (moved, transfer) →
      TransferHolds transfer moved.db → TransferHolds transfer (ingestStep p moved.db input) := by
  refine ⟨fun hclaim => ?_, fun hclaim => ?_⟩
  · have hholds := hclaim .sample _ _ _ _ _ _ rfl (transfer_team_ok (some "alice"))
    have hother : ¬ ∀ row ∈ ((teamCatalog (some "alice")).transfer transferTeam
        teamNamespace).1.db.capabilities.rows, NamesOwner ((teamCatalog (some "alice")).transfer
          transferTeam teamNamespace).2 row.cap := by decide +kernel
    exact hother (transfer_holds_iff.mp hholds)
  · have hfirst : ∀ row ∈ ((teamCatalog none).transfer transferTeam
        teamNamespace).1.db.capabilities.rows, NamesOwner ((teamCatalog none).transfer
          transferTeam teamNamespace).2 row.cap := by decide +kernel
    have hother : ¬ ∀ row ∈ (ingestStep .sample ((teamCatalog none).transfer transferTeam
        teamNamespace).1.db (teamInput none)).capabilities.rows,
        NamesOwner ((teamCatalog none).transfer transferTeam teamNamespace).2 row.cap := by
      decide +kernel
    exact hother (transfer_holds_iff.mp (hclaim .sample _ _ _ _ _ _ rfl (transfer_team_ok none)
      (transfer_holds_iff.mpr hfirst)))

/-- Bob created the skill: the transfer to him takes effect and outlives an ingest. -/
theorem transfer_lasts_creator :
    TransferHolds ((teamCatalog (some "bob")).transfer transferTeam teamNamespace).2
      (run (ingestStep .sample)
        ((teamCatalog (some "bob")).transfer transferTeam teamNamespace).1.db
        [teamInput (some "bob")]) := by
  obtain ⟨heffect, hlasts, -⟩ := transfer_lasts .sample _ _ _ _ (transfer_team_ok (some "bob"))
  refine hlasts [teamInput (some "bob")] (heffect.mpr ?_) ⟨?_, trivial⟩ _ [] rfl
  · have hcreators : ∀ row ∈ (teamCatalog (some "bob")).db.capabilities.rows,
        row.cap.createdBy = some "bob" := by decide +kernel
    exact fun row hrow _ _ => hcreators row hrow
  · intro planned hplan earlier e later hsplit current hcurrent
    cases (merge_by_effective_uri_singleton _).symm.trans hplan
    obtain ⟨rfl, rfl⟩ := split_of_singleton hsplit
    cases hcurrent
    decide +kernel

end Capmesh
