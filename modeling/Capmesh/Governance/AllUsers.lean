import Capmesh.Discovery.Sources
import Capmesh.Governance.Trust
import Capmesh.Index.Collapse

/-!
# The all-users vault

Runs of ingests, reviews, submissions, approvals, shares and CapGuard calls. A row takes a place,
that is an address, a store and a namespace, from the placement of a discovered capability or from
an approval, and keeps it otherwise: `vault_step_place` is the one statement about a step.
`all_users_vouched` reads off how a row comes to the all-users vault.
-/

namespace Capmesh

open Python Relational Execution

/-- What one ingest takes in, with capabilities as discovery returns them. -/
structure DiscoveredInput (p : Platform) extends IngestInput p where
  asDiscovered : ∀ cap ∈ batch.capabilities, cap.AsDiscovered

/-- One call that may change a row of the catalog. -/
inductive CatalogCall (p : Platform) where
  | ingest (input : DiscoveredInput p)
  | review (call : ReviewCall)
  | submit (call : SubmitCall)
  | approve (call : ApproveCall)
  | share (call : ShareCall)
  | guard (call : GuardCall)

/-- One step. What an ingest that fails has committed stays. -/
def vaultStep (p : Platform) (crypto : Crypto) (host : Host) : CatalogCall p → Host
  | .ingest input => { host with db := (ingest p host.db input.toIngestInput).1 }
  | .review call => trustStep p crypto host (.review call)
  | .submit call => trustStep p crypto host (.submit call)
  | .approve call => trustStep p crypto host (.approve call)
  | .share call => trustStep p crypto host (.share call)
  | .guard call => trustStep p crypto host (.guard call)

/-- A capability in the store and the namespace of all users. -/
def InAllUsers (p : Platform) (tenant : String) (cap : Capability) : Prop :=
  cap.storeId = some (allUsersStoreId p tenant) ∧
    cap.namespaceId = some (allUsersNamespaceId p tenant)

/-- A capability whose risk tier the policy denies in the all-users vault. -/
def Capability.isDenied (cap : Capability) : Bool :=
  !(evaluateRiskTierPolicy (orElse cap.riskTier.text "unknown") Vault.all.text).1

/-- An approval that moved a capability into a namespace, to this address. -/
def ApprovedInto (p : Platform) (namespaceId uri : String) (host : Host) (call : CatalogCall p) :
    Prop :=
  ∃ approval, call = .approve approval ∧ approval.decision = some .approve ∧
    (approveRequest p host.db approval).2 = .ok () ∧
    ∃ request ∈ host.db.requests, request.id = approval.requestId ∧
      request.targetNamespaceId = namespaceId ∧
      ∃ storeId, promotedAddress p host.db approval.directory request = .ok (uri, storeId)

/-- An ingest whose manifest names for all users a capability of this address, which is no draft or
one of a tier that the policy allows. -/
def NamedForAll (p : Platform) (uri : String) (_ : Host) (call : CatalogCall p) : Prop :=
  ∃ input, call = .ingest input ∧ ∃ cap ∈ input.batch.capabilities,
    input.placement.lookup (vaultMatchKey (capabilityCanonicalTail p cap)) = some .all ∧
    uri = allUsersNamespacePrefix "asg" ++ "/" ++ capabilityCanonicalTail p cap ∧
    (cap.isDraft = false ∨ cap.isDenied = false)

/-- Denied tiers are reviewed: every row of a denied tier in the all-users vault was approved
into it. -/
def DeniedReviewed (p : Platform) (crypto : Crypto) (tenant : String) (host : Host)
    (calls : List (CatalogCall p)) : Prop :=
  ∀ row ∈ (run (vaultStep p crypto) host calls).db.capabilities,
    InAllUsers p tenant row.cap → row.cap.isDenied = true →
      Occurs (vaultStep p crypto) (ApprovedInto p (allUsersNamespaceId p tenant) row.cap.uri)
        host calls

/-- Two rows at one address, in one store and one namespace. -/
structure SamePlace (a b : Capability) : Prop where
  uri : a.uri = b.uri
  storeId : a.storeId = b.storeId
  namespaceId : a.namespaceId = b.namespaceId

/-- A capability in other states: what a review, a submission, a share or a hold writes. -/
def Restated (cap old : Capability) : Prop :=
  ∃ lifecycle approvalState shareState signatureStatus provenanceStatus riskReviewStatus submittedBy,
    cap = { old with
      lifecycle, approvalState, shareState, signatureStatus, provenanceStatus, riskReviewStatus
      submittedBy }

section

variable {p : Platform} {crypto : Crypto} {host : Host} {db result : Database}
variable {e cap : Capability} {tenant : String} {row : CapabilityRow} {a b : Capability}
variable {index : PlacementIndex}

theorem SamePlace.refl (cap : Capability) : SamePlace cap cap := ⟨rfl, rfl, rfl⟩

theorem SamePlace.trans {c : Capability} (hab : SamePlace a b) (hbc : SamePlace b c) :
    SamePlace a c :=
  ⟨hab.uri.trans hbc.uri, hab.storeId.trans hbc.storeId, hab.namespaceId.trans hbc.namespaceId⟩

theorem Restated.refl (cap : Capability) : Restated cap cap := ⟨_, _, _, _, _, _, _, rfl⟩

theorem Restated.same_place (h : Restated a b) : SamePlace a b := by
  obtain ⟨_, _, _, _, _, _, _, rfl⟩ := h
  exact ⟨rfl, rfl, rfl⟩

theorem InAllUsers.of_same_place (h : InAllUsers p tenant a) (hsame : SamePlace a b) :
    InAllUsers p tenant b :=
  ⟨hsame.storeId.symm.trans h.1, hsame.namespaceId.symm.trans h.2⟩

theorem place_carry_over (previous : Option CapabilityRow) (e : Capability) :
    SamePlace (carryOver previous e) e ∨
      ∃ r, previous = some r ∧ SamePlace (carryOver previous e) r.cap := by
  unfold carryOver
  cases previous with
  | none => exact .inl (.refl e)
  | some r =>
      dsimp only
      split
      · exact .inr ⟨r, rfl, rfl, rfl, rfl⟩
      · exact .inl (.refl e)

theorem Landing.place (h : Landing p db result e row) :
    SamePlace row.cap e ∨ ∃ r ∈ db.capabilities, SamePlace row.cap r.cap := by
  have hcolumns := h.indexedColumns
  have hrow : SamePlace row.cap (carryOver (previousRow db e) e) :=
    ⟨hcolumns.uri, hcolumns.storeId, hcolumns.namespaceId⟩
  rcases place_carry_over (previousRow db e) e with hown | ⟨r, hr, hkept⟩
  · exact .inl (hrow.trans hown)
  · exact .inr ⟨r, previous_row_mem hr, hrow.trans hkept⟩

theorem ingest_place (input : IngestInput p) (hrow : row ∈ (ingest p db input).1.capabilities) :
    (∃ old ∈ db.capabilities, SamePlace row.cap old.cap) ∨
      ∃ cap ∈ input.batch.capabilities,
        SamePlace row.cap (effective p input.placement db.capabilities cap) := by
  cases hingest : ingest p db input with
  | mk result outcome =>
      rw [hingest] at hrow
      cases outcome with
      | error failure =>
          rw [(ingest_error hingest).capabilities] at hrow
          exact .inl ⟨row, hrow, .refl row.cap⟩
      | ok changes =>
          obtain ⟨held, counts, planned, final, removed, -, hadded, hplan, hindex, hdelete, -⟩ :=
            ingest_ok hingest
          have hplanned := plan_ok hplan
          obtain ⟨hfinal, -⟩ := ((delete_source_orphaned_ok hdelete).capabilities row).mp hrow
          have hplaces : ∀ x ∈ final.db.capabilities,
              (∃ old ∈ held.capabilities, SamePlace x.cap old.cap) ∨
                ∃ e ∈ planned, SamePlace x.cap e := by
            refine index_all_induction (motive := fun done current =>
              ∀ x ∈ current.db.capabilities,
                (∃ old ∈ held.capabilities, SamePlace x.cap old.cap) ∨
                  ∃ e ∈ done, SamePlace x.cap e) hplanned ?_ ?_ hindex
            · exact fun x hx => .inl ⟨x, hx, .refl x.cap⟩
            · intro done e rest current next landed _ hmotive _ hlanding x hx
              have hkept : ∀ y ∈ current.db.capabilities, SamePlace x.cap y.cap →
                  (∃ old ∈ held.capabilities, SamePlace x.cap old.cap) ∨
                    ∃ d ∈ done ++ [e], SamePlace x.cap d := by
                intro y hy hxy
                rcases hmotive y hy with ⟨old, hold, hplace⟩ | ⟨d, hd, hplace⟩
                · exact .inl ⟨old, hold, hxy.trans hplace⟩
                · exact .inr ⟨d, List.mem_append_left _ hd, hxy.trans hplace⟩
              rcases (hlanding.mem x).mp hx with rfl | ⟨hx, -⟩
              · rcases hlanding.place with hown | ⟨r, hr, hplace⟩
                · exact .inr ⟨e, List.mem_append_right _ (List.mem_singleton.mpr rfl), hown⟩
                · exact hkept r hr hplace
              · exact hkept x hx (.refl x.cap)
          rcases hplaces row hfinal with ⟨old, hold, hplace⟩ | ⟨e, he, hplace⟩
          · exact .inl ⟨old, hadded.capabilities ▸ hold, hplace⟩
          · obtain ⟨cap, hcap, metadata, rfl⟩ := plan_origin hplan he
            exact .inr ⟨cap, hcap, hplace.uri, hplace.storeId, hplace.namespaceId⟩

theorem govern_step_row (crypto : Crypto) {call : CatalogCall p}
    (hcall : ∀ input, call ≠ .ingest input) (hrow : row ∈
    (vaultStep p crypto host call).db.capabilities) :
    ∃ old ∈ host.db.capabilities, Restated row.cap old.cap ∨
      ∃ namespaceId uri storeId,
        row.cap = { Capability.approvedInto storeId namespaceId old.cap with uri } ∧
          ApprovedInto p namespaceId uri host call := by
  have hamend : ∀ {after : Database} {selects : Capability → Bool} {change : Capability → Capability},
      (∀ x, x ∈ after.capabilities ↔ ∃ y ∈ host.db.capabilities, y.amend selects change = x) →
      row ∈ after.capabilities → (∀ cap, Restated (change cap) cap) →
      ∃ old ∈ host.db.capabilities, Restated row.cap old.cap := by
    intro after selects change hmem hrow hchange
    obtain ⟨old, hold, rfl⟩ := (hmem row).mp hrow
    refine ⟨old, hold, ?_⟩
    unfold CapabilityRow.amend
    split
    · exact hchange old.cap
    · exact .refl old.cap
  have hsame : row ∈ host.db.capabilities →
      ∃ old ∈ host.db.capabilities, Restated row.cap old.cap :=
    fun hold => ⟨row, hold, .refl row.cap⟩
  have hstates : (∃ old ∈ host.db.capabilities, Restated row.cap old.cap) →
      ∃ old ∈ host.db.capabilities, Restated row.cap old.cap ∨
        ∃ namespaceId uri storeId,
          row.cap = { Capability.approvedInto storeId namespaceId old.cap with uri } ∧
            ApprovedInto p namespaceId uri host call :=
    fun ⟨old, hold, hrestated⟩ => ⟨old, hold, .inl hrestated⟩
  cases call with
  | ingest input => exact absurd rfl (hcall input)
  | review call =>
      refine hstates ?_
      simp only [vaultStep, trustStep] at hrow
      split at hrow
      · rename_i gates db hreview
        rcases review_capability_ok hreview with rfl | ⟨cap, -, -, -, -, hmem⟩
        · exact hsame hrow
        · exact hamend hmem hrow fun cap => ⟨_, _, _, _, _, _, _, rfl⟩
      · exact hsame hrow
  | submit call =>
      refine hstates ?_
      simp only [vaultStep, trustStep] at hrow
      split at hrow
      · rename_i db hsubmit
        exact hamend (submit_promotion_ok hsubmit).2 hrow fun cap => ⟨_, _, _, _, _, _, _, rfl⟩
      · exact hsame hrow
  | approve call =>
      simp only [vaultStep, trustStep] at hrow
      obtain ⟨-, hkept | ⟨request, hrequest, hok, hid, hrows⟩⟩ :=
        approve_request_cases (Prod.eta (approveRequest p host.db call)).symm
      · rw [hkept] at hrow
        exact hstates (hsame hrow)
      · rcases hrows with ⟨decision, -, -, hmem⟩ | ⟨hdecision, -, uri, storeId, haddress, hmem⟩
        · exact hstates (hamend hmem hrow fun cap => ⟨_, _, _, _, _, _, _, rfl⟩)
        · obtain ⟨old, hold, hpromoted⟩ := (hmem row).mp hrow
          refine ⟨old, hold, ?_⟩
          unfold CapabilityRow.promoted at hpromoted
          split at hpromoted
          · right
            rw [← hpromoted]
            exact ⟨request.targetNamespaceId, uri, storeId, rfl, call, rfl, hdecision, hok, request,
              hrequest, hid, rfl, storeId, haddress⟩
          · rw [← hpromoted]
            exact .inl (.refl old.cap)
  | share call =>
      refine hstates ?_
      simp only [vaultStep, trustStep] at hrow
      split at hrow
      · rename_i db hshare
        exact hamend (create_share_ok hshare).2 hrow fun cap => ⟨_, _, _, _, _, _, _, rfl⟩
      · exact hsame hrow
  | guard call =>
      refine hstates ?_
      obtain ⟨decided, hmem, hdecided⟩ := guard_step_capabilities p crypto host call
      obtain ⟨old, hold, rfl⟩ := (hmem row).mp hrow
      refine ⟨old, hold, ?_⟩
      rcases hdecided old with hkept | ⟨lifecycle, approvalState, -, hdecision⟩
      · rw [hkept]
        exact .refl old.cap
      · rw [hdecision]
        exact ⟨_, _, _, _, _, _, _, rfl⟩

theorem govern_step_place (crypto : Crypto) {call : CatalogCall p}
    (hcall : ∀ input, call ≠ .ingest input) (hrow : row ∈
    (vaultStep p crypto host call).db.capabilities) :
    (∃ old ∈ host.db.capabilities, SamePlace row.cap old.cap) ∨
      ∃ namespaceId, row.cap.namespaceId = some namespaceId ∧
        ApprovedInto p namespaceId row.cap.uri host call := by
  obtain ⟨old, hold, hrestated | ⟨namespaceId, uri, storeId, hmoved, happroved⟩⟩ :=
    govern_step_row crypto hcall hrow
  · exact .inl ⟨old, hold, hrestated.same_place⟩
  · rw [hmoved]
    exact .inr ⟨namespaceId, rfl, happroved⟩

theorem wanted_vault_all (h : wantedVault p index cap = some .all) :
    index.lookup (vaultMatchKey (capabilityCanonicalTail p cap)) = some .all ∧
      (cap.isDraft = false ∨ cap.isDenied = false) := by
  unfold wantedVault at h
  split at h
  · cases h
  · split at h
    · cases h
    · rename_i vault hlookup
      split at h
      · cases h
      · rename_i hgate
        cases h
        refine ⟨hlookup, ?_⟩
        simp only [Bool.and_eq_true, decide_true, Bool.and_true, Bool.not_eq_true', not_and,
          Bool.not_eq_false] at hgate
        cases hdraft : cap.isDraft with
        | false => exact .inl rfl
        | true => exact .inr (by simp [Capability.isDenied, hgate hdraft])

theorem placed_vault_wanted {catalog : Table CapabilityRow} {vault : Vault}
    (h : placedVault p index catalog cap = some vault) : wantedVault p index cap = some vault := by
  unfold placedVault at h
  split at h
  · cases h
  · rename_i wanted hwanted
    dsimp only at h
    split at h
    · cases h
    · rw [hwanted, h]

theorem effective_store (index : PlacementIndex) (catalog : Table CapabilityRow)
    (cap : Capability) :
    (effective p index catalog cap).storeId =
      match placedVault p index catalog cap with
      | some vault => some (vaultTarget p (p.tenantOr cap.tenantId) vault).store
      | none =>
          if cap.isSystem || isGovernedUri cap.uri then cap.storeId
          else some (defaultUserPrivateStoreId p (p.tenantOr cap.tenantId)) := by
  unfold effective
  rw [apply_vault_placement_eq]
  cases placedVault p index catalog cap with
  | some vault =>
      show (placeInVault p cap vault).storeId = _
      unfold placeInVault
      dsimp only
      split <;> rfl
  | none =>
      show (applyDefaultUserNamespace p cap).storeId = _
      unfold applyDefaultUserNamespace
      cases cap.isSystem with
      | true => rfl
      | false =>
          cases isGovernedUri cap.uri with
          | true => rfl
          | false => rfl

theorem effective_all_users {catalog : Table CapabilityRow} (hdiscovered : cap.AsDiscovered)
    (horg : allUsersStoreId p tenant ≠ orgStoreId p "asg")
    (hprivate : allUsersStoreId p tenant ≠ defaultUserPrivateStoreId p "asg")
    (h : InAllUsers p tenant (effective p index catalog cap)) :
    wantedVault p index cap = some .all ∧ (effective p index catalog cap).uri =
      allUsersNamespacePrefix "asg" ++ "/" ++ capabilityCanonicalTail p cap := by
  have htenant : p.tenantOr cap.tenantId = "asg" := by
    rw [hdiscovered.tenantId]
    rfl
  have hstore := effective_store (p := p) index catalog cap
  have huri := effective_uri p index catalog cap
  rw [h.1] at hstore
  unfold filedUnder at huri
  cases hplaced : placedVault p index catalog cap with
  | some vault =>
      rw [hplaced, htenant] at hstore huri
      cases vault with
      | org => exact absurd (Option.some.inj hstore) horg
      | all => exact ⟨placed_vault_wanted hplaced, huri⟩
  | none =>
      rw [hplaced, htenant] at hstore
      dsimp only at hstore
      split at hstore
      · rw [hdiscovered.storeId] at hstore
        cases hstore
      · exact absurd (Option.some.inj hstore) hprivate

theorem catalog_step_all_users (horg : allUsersStoreId p tenant ≠ orgStoreId p "asg")
    (hprivate : allUsersStoreId p tenant ≠ defaultUserPrivateStoreId p "asg") (call : CatalogCall p)
    (hrow : row ∈ (vaultStep p crypto host call).db.capabilities)
    (h : InAllUsers p tenant row.cap) : (∃ old ∈ host.db.capabilities, SamePlace row.cap old.cap)
    ∨
      ApprovedInto p (allUsersNamespaceId p tenant) row.cap.uri host call ∨
      NamedForAll p row.cap.uri host call := by
  by_cases hcall : ∃ input, call = .ingest input
  · obtain ⟨input, rfl⟩ := hcall
    rcases ingest_place input.toIngestInput hrow with hold | ⟨cap, hcap, hplace⟩
    · exact .inl hold
    · obtain ⟨hwanted, huri⟩ := effective_all_users (input.asDiscovered cap hcap) horg hprivate
        (h.of_same_place hplace)
      obtain ⟨hlookup, hgate⟩ := wanted_vault_all hwanted
      exact .inr (.inr ⟨input, rfl, cap, hcap, hlookup, hplace.uri.trans huri, hgate⟩)
  · rcases govern_step_place crypto (fun input hinput => hcall ⟨input, hinput⟩) hrow with
      hold | ⟨namespaceId, hnamespace, happroved⟩
    · exact .inl hold
    · right
      left
      rw [h.2] at hnamespace
      obtain rfl := Option.some.inj hnamespace
      exact happroved

/-- **A row of the all-users vault, whatever its tier, was approved into it, or an ingest's manifest
named a capability of its address for all users.** -/
theorem all_users_vouched (p : Platform) (crypto : Crypto) (tenant : String) (host : Host)
    (calls : List (CatalogCall p))
    (horg : allUsersStoreId p tenant ≠ orgStoreId p "asg")
    (hprivate : allUsersStoreId p tenant ≠ defaultUserPrivateStoreId p "asg")
    (hstart : ∀ row ∈ host.db.capabilities, ¬ InAllUsers p tenant row.cap) :
    ∀ row ∈ (run (vaultStep p crypto) host calls).db.capabilities,
      InAllUsers p tenant row.cap →
        Occurs (vaultStep p crypto) (ApprovedInto p (allUsersNamespaceId p tenant) row.cap.uri)
          host calls ∨
        Occurs (vaultStep p crypto) (NamedForAll p row.cap.uri) host calls := by
  induction calls using List.reverseRecOn with
  | nil => exact fun row hrow h => absurd h (hstart row hrow)
  | append_singleton calls call ih =>
      intro row hrow h
      rw [run_append] at hrow
      rw [occurs_concat, occurs_concat]
      rcases catalog_step_all_users horg hprivate call hrow h with
        ⟨old, hold, hplace⟩ | happroved | hnamed
      · rw [hplace.uri]
        exact (ih old hold (h.of_same_place hplace)).imp .inl .inl
      · exact .inl (.inr happroved)
      · exact .inr (.inr hnamed)

end

/-- The agent of the notes plugin, which declares a high risk tier. -/
def notesAgent : Capability :=
  { uri := "cap://asg.local/agent/notes.notes@0.1.0", capabilityType := .agent, name := "notes"
    version := "0.1.0", title := "Notes", description := "Keeps notes."
    packagePath := "/asg-os/plugins/notes", entrypoint := "agents/notes.md"
    sourcePath := "/asg-os/plugins/notes/agents/notes.md", sourceKind := "agent"
    sourceSystem := "asg-os.plugins", canonicalKey := "agent:notes:notes:0.1.0"
    contentHash := "sha256:v1", plugin := some "notes", riskTier := .high }

/-- An ingest of the agent, with a manifest that names it for all users. -/
def notesAgentInput : DiscoveredInput .sample where
  batch := .single notesAgent (by decide) (Capability.unlisted rfl)
  placement := loadVaultPlacementIndex [⟨"cap://all/asg/everyone/agent/notes.notes@0.1.0", "all"⟩]
  vectorEnabled := false
  embed _ _ := none
  ids n := "qtn_" ++ toString n
  asDiscovered cap hcap := by
    rw [List.mem_singleton.mp hcap]
    exact ⟨rfl, by decide, rfl, rfl, rfl, rfl, rfl, rfl⟩

/-- In an empty catalog that ingest alone brings a row to the all-users vault. -/
theorem all_users_vouched_notes_agent :
    (run (vaultStep .sample .transparent) emptyHost
      [.ingest notesAgentInput]).db.capabilities.rows.length = 1 ∧
    ∀ row ∈ (run (vaultStep .sample .transparent) emptyHost
      [.ingest notesAgentInput]).db.capabilities, InAllUsers .sample "asg" row.cap →
      Occurs (vaultStep .sample .transparent)
        (ApprovedInto .sample (allUsersNamespaceId .sample "asg") row.cap.uri) emptyHost
        [.ingest notesAgentInput] ∨
      Occurs (vaultStep .sample .transparent) (NamedForAll .sample row.cap.uri) emptyHost
        [.ingest notesAgentInput] :=
  ⟨by decide +kernel,
    all_users_vouched .sample .transparent "asg" emptyHost _ (by decide +kernel) (by decide +kernel)
      fun _ hrow => by cases hrow⟩

/-- A published agent of a high tier is placed in the all-users vault by the manifest alone. -/
theorem denied_placed_unreviewed : ¬ ∀ (p : Platform) (crypto : Crypto) (tenant : String)
    (host : Host) (calls : List (CatalogCall p)),
    (∀ row ∈ host.db.capabilities, ¬ InAllUsers p tenant row.cap) →
      DeniedReviewed p crypto tenant host calls := by
  intro hclaim
  have hplaced : ((run (vaultStep .sample .transparent) emptyHost
      [.ingest notesAgentInput]).db.capabilities.rows.any fun row =>
        row.cap.storeId = some (allUsersStoreId .sample "asg") &&
          row.cap.namespaceId = some (allUsersNamespaceId .sample "asg") && row.cap.isDenied) =
      true := by decide +kernel
  obtain ⟨row, hrow, hplaced⟩ := List.any_eq_true.mp hplaced
  simp only [Bool.and_eq_true, decide_eq_true_eq] at hplaced
  obtain ⟨hplace, hdenied⟩ := hplaced
  obtain ⟨first, action, second, hsplit, approval, hcall, -⟩ := hclaim .sample .transparent "asg"
    emptyHost [.ingest notesAgentInput] (fun _ hrow => by cases hrow) row hrow hplace hdenied
  have hmem : action ∈ [CatalogCall.ingest notesAgentInput] := by
    rw [hsplit]
    simp
  rw [List.mem_singleton.mp hmem] at hcall
  cases hcall

end Capmesh
