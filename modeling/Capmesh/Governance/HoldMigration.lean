import Capmesh.CapGuard.StateMachine
import Capmesh.Governance.Normalization
import Capmesh.Governance.Promotion
import Capmesh.Index.QuarantineFirst

/-!
# Holds on a row that moves

A hold names a tenant, a URI and a content hash, while a promotion, an ingest and the
normalization pass may each move a row to another URI. The runs here follow one row by its
id. `hold_step_held` is the step: a held row stays held through every call, provided that a
call which moves it moves it to an address under a hold. An ingest does so by itself, since
its quarantine pass runs first; a promotion and the normalization pass leave the hold behind.
`hold_kept` is the run.
-/

namespace Capmesh

open Python Relational Execution

/-- One call of an operation that reads or moves a held row. `ingest_index` is a `normalize`
followed by an `ingest`. -/
inductive HoldCall (p : Platform) where
  | guard (call : GuardCall)
  | submit (call : SubmitCall)
  | approve (call : ApproveCall)
  | ingest (input : IngestInput p)
  | normalize

/-- One step; a refused call leaves the host as it is, up to the holds an ingest recorded and the
gates an approval stored. -/
def holdStep (p : Platform) (crypto : Crypto) (host : Host) : HoldCall p → Host
  | .guard call => guardStep p crypto host call
  | .submit call =>
      match submitPromotion p host.db call with
      | .ok db => { host with db }
      | .error _ => host
  | .approve call => { host with db := (approveRequest p host.db call).1 }
  | .ingest input => { host with db := (ingest p host.db input).1 }
  | .normalize =>
      match normalizeExistingCapabilityNamespaces p host.db with
      | .ok (_, db) => { host with db }
      | .error _ => host

/-- Whether a quarantine row is an active hold on a capability row. -/
def QuarantineRow.HoldsRow (q : QuarantineRow) (row : CapabilityRow) : Prop :=
  q.Holds (orElse row.cap.tenantId "asg") row.cap.uri row.cap.contentHash

/-- A call that leaves the row with an id in the table with its content, and neither releases nor
rejects a hold. -/
def Untouched (p : Platform) (crypto : Crypto) (id : Nat) (hold : String) (host : Host)
    (call : HoldCall p) : Prop :=
  (∀ row ∈ host.db.capabilities, row.id = id →
    ∃ x ∈ (holdStep p crypto host call).db.capabilities,
      x.id = id ∧ x.cap.contentHash = row.cap.contentHash) ∧
  ∃ q ∈ (holdStep p crypto host call).db.quarantine, q.id = hold ∧ q.status = .quarantined

/-- No hold escapes by a move: in every state of a run that touches neither a held row nor its
hold, the row is held. -/
def HoldKept (p : Platform) (crypto : Crypto) (host : Host) (calls : List (HoldCall p)) : Prop :=
  ∀ row ∈ host.db.capabilities, ∀ q ∈ host.db.quarantine, q.HoldsRow row →
    ∀ first second, calls = first ++ second →
      Along (holdStep p crypto) (Untouched p crypto row.id q.id) host first →
      ∀ x ∈ (run (holdStep p crypto) host first).db.capabilities, x.id = row.id →
        capguardIsHeld (run (holdStep p crypto) host first).db.quarantine x.cap = true

/-- A call that keeps the row with an id under a hold. An approval that passes its gates must find a
hold at the promoted URI, and the normalization pass a governed row. An ingest must run on a normalized
catalog, keep the tenant, and not move the row to a URI that the catalog already had with this
content and no hold. Another hold that the row was moved under is not decided. -/
def MovesUnderHold (p : Platform) (id : Nat) (hold : String) (host : Host) (call : HoldCall p) :
    Prop :=
  ∀ row ∈ host.db.capabilities, row.id = id →
    match call with
    | .guard call => ∀ q ∈ host.db.quarantine, q.HoldsRow row → q.id ≠ hold →
        call.decides ≠ some q.id
    | .submit _ => True
    | .approve call => ∀ request ∈ host.db.requests, request.id = call.requestId →
        call.decision = some .approve → call.Passes p host.db request →
        request.capabilityUri = row.cap.uri →
        ∀ uri storeId, promotedAddress p host.db call.directory request = .ok (uri, storeId) →
          capguardIsHeld host.db.quarantine { row.cap with uri } = true
    | .normalize => row.cap.Governed
    | .ingest input => host.db.Normalized ∧
        ∀ planned, plan p input host.db.capabilities = .ok planned → ∀ e ∈ planned,
          e.canonicalKey = row.cap.canonicalKey ∨ e.uri = row.cap.uri →
          e.contentHash = row.cap.contentHash →
          orElse e.tenantId "asg" = orElse row.cap.tenantId "asg" ∧
            (row.cap.isPromoted = true ∨ (host.db.indexes e.uri e.contentHash = true →
              capguardIsHeld host.db.quarantine e = true))

/-- Where an ingest took a row: a capability of the plan with this content and tenant landed in it,
at the capability's URI or at the row's own. -/
structure FollowedBy (start : CapabilityRow) (planned : List Capability) (e : Capability)
    (row : CapabilityRow) : Prop where
  mem : e ∈ planned
  canonicalKey : row.cap.canonicalKey = e.canonicalKey
  contentHash : row.cap.contentHash = e.contentHash
  tenantId : row.cap.tenantId = e.tenantId
  address : (row.cap.uri = e.uri ∧ (e.uri = start.cap.uri ∨
      (e.canonicalKey = start.cap.canonicalKey ∧ start.cap.isPromoted = false))) ∨
    (row.cap.uri = start.cap.uri ∧ e.canonicalKey = start.cap.canonicalKey)

section

variable {p : Platform} {crypto : Crypto} {host : Host} {row x start : CapabilityRow}
variable {q : QuarantineRow}

theorem held_iff {quarantine : Table QuarantineRow} :
    capguardIsHeld quarantine row.cap = true ↔ ∃ q ∈ quarantine, q.HoldsRow row :=
  capguard_is_held_iff row.cap

theorem FollowedBy.mono {planned more : List Capability} {e : Capability}
    (h : FollowedBy start planned e row) (hmore : ∀ d ∈ planned, d ∈ more) :
    FollowedBy start more e row :=
  ⟨hmore e h.mem, h.canonicalKey, h.contentHash, h.tenantId, h.address⟩

/-- Through the index pass a row stays as it is, or a capability of the plan landed in it. -/
theorem index_all_follows {input : IngestInput p} {planned : List Capability}
    {state final : Indexing} (hplanned : Planned p planned) (hdb : state.db.Normalized)
    (hstart : start ∈ state.db.capabilities) (h : indexAll p input state planned = .ok final) :
    ∀ x ∈ final.db.capabilities, x.id = start.id →
      x = start ∨ ∃ e, FollowedBy start planned e x := by
  refine (index_all_rule (motive := fun done current =>
    (∃ x ∈ current.db.capabilities, x.id = start.id) ∧
    ∀ x ∈ current.db.capabilities, x.id = start.id →
      x = start ∨ ∃ e, FollowedBy start done e x) hplanned hdb ?_ ?_ h).1.2
  · exact ⟨⟨start, hstart, rfl⟩, fun x hx hid => .inl (Database.eq_of_id hx hstart hid)⟩
  · rintro done e rest current next landed hsplit ⟨⟨y, hy, hyId⟩, hrows⟩ _ _ hlanding
    have hplanned : Planned p (done ++ e :: rest) := hsplit ▸ hplanned
    refine ⟨?_, fun x hx hid => ?_⟩
    · by_cases hprevious : previousRow current.db e = some y
      · exact ⟨landed, hlanding.row_mem, (hlanding.id y hprevious).trans hyId⟩
      · exact ⟨y, hlanding.kept hy hprevious, hyId⟩
    · rcases (hlanding.mem x).mp hx with rfl | ⟨hx, -⟩
      · -- The landed row has the id, so it refreshed the row that is followed.
        have hprevious : previousRow current.db e = some y := by
          by_contra hne
          exact hlanding.others y hy hne (hyId.trans hid.symm)
        have hcolumns := hlanding.indexedColumns
        have hsource := carry_over_source (previousRow current.db e) e
        rw [hprevious] at hcolumns hsource
        refine .inr ⟨e, by simp, hcolumns.canonicalKey.trans hsource.1,
          hcolumns.contentHash.trans hsource.2.1, hcolumns.tenantId.trans hsource.2.2.1, ?_⟩
        rw [hcolumns.uri]
        rcases hrows y hy hyId with rfl | ⟨d, hd⟩
        · by_cases hpromoted : y.cap.isPromoted = true
          · have huri : (carryOver (some y) e).uri = y.cap.uri := by simp [carryOver, hpromoted]
            rcases previous_row_cases hprevious with hown | ⟨-, hkey⟩
            · exact .inl ⟨huri.trans hown, .inl hown.symm⟩
            · exact .inr ⟨huri, hkey.symm⟩
          · have huri : (carryOver (some y) e).uri = e.uri := by simp [carryOver, hpromoted]
            refine .inl ⟨huri, ?_⟩
            rcases previous_row_cases hprevious with hown | ⟨-, hkey⟩
            · exact .inl hown.symm
            · exact .inr ⟨hkey.symm, by simpa using hpromoted⟩
        · obtain ⟨hdUri, hdKey⟩ := hplanned.ne_of_mem (.inl hd.mem)
          -- Only a capability with the row's own URI can land in a row that was carried over.
          rcases previous_row_cases hprevious with huri | ⟨-, hkey⟩
          · have hown : e.uri = start.cap.uri := by
              rcases hd.address with ⟨hyUri, -⟩ | ⟨hyUri, -⟩
              · exact absurd (hyUri.symm.trans huri) hdUri
              · exact huri.symm.trans hyUri
            refine .inl ⟨?_, .inl hown⟩
            simp only [carryOver]
            split
            · exact huri
            · rfl
          · exact absurd (hd.canonicalKey.symm.trans hkey) hdKey
      · rcases hrows x hx hid with hsame | ⟨d, hd⟩
        · exact .inl hsame
        · exact .inr ⟨d, hd.mono fun _ hmem => by simp [hmem]⟩

theorem held_of_same {quarantine : Table QuarantineRow} (hq : q ∈ quarantine)
    (hholds : q.HoldsRow row) (htenant : x.cap.tenantId = row.cap.tenantId)
    (huri : x.cap.uri = row.cap.uri) (hhash : x.cap.contentHash = row.cap.contentHash) :
    capguardIsHeld quarantine x.cap = true := by
  rw [capguard_is_held_congr htenant huri hhash]
  exact held_iff.mpr ⟨q, hq, hholds⟩

theorem guard_step_held {call : GuardCall} {hold : String} (hrow : row ∈ host.db.capabilities)
    (hq : q ∈ host.db.quarantine) (hholds : q.HoldsRow row)
    (hactive : ∃ q' ∈ (guardStep p crypto host call).db.quarantine,
      q'.id = hold ∧ q'.status = .quarantined) (hdecides : q.id ≠ hold → call.decides ≠ some q.id)
    (hx : x ∈ (guardStep p crypto host call).db.capabilities) (hid : x.id = row.id) :
    capguardIsHeld (guardStep p crypto host call).db.quarantine x.cap = true := by
  obtain ⟨new, hnew, hamends⟩ := guard_step_amends crypto call hq
  have hstatus : new.status = .quarantined := by
    by_cases hid : q.id = hold
    · obtain ⟨q', hq', hq'Id, hstatus⟩ := hactive
      have heq : q' = new := Table.eq_of_conflict hq' hnew
        (.inl (hq'Id.trans (hid.symm.trans hamends.id.symm)))
      exact heq ▸ hstatus
    · exact (hamends.status_of_undecided (hdecides hid)).trans hholds.2.2.2
  obtain ⟨decided, hmem, hdecided⟩ := guard_step_capabilities p crypto host call
  obtain ⟨y, hy, rfl⟩ := (hmem x).mp hx
  have hyId : (decided y).id = y.id := by
    rcases hdecided y with h | ⟨_, _, _, h⟩ <;> rw [h]
  have hyRow : y = row := Database.eq_of_id hy hrow (hyId.symm.trans hid)
  subst hyRow
  have hnewHolds : new.HoldsRow y :=
    ⟨hamends.tenantId.trans hholds.1, hamends.capabilityUri.trans hholds.2.1,
      hamends.contentHash.trans hholds.2.2.1, hstatus⟩
  rcases hdecided y with h | ⟨_, _, _, h⟩
  · rw [h]
    exact held_iff.mpr ⟨new, hnew, hnewHolds⟩
  · exact held_of_same hnew hnewHolds (by rw [h]) (by rw [h]) (by rw [h])

theorem amend_held {selects : Capability → Bool} {change : Capability → Capability}
    {db result : Database} (hchange : KeepsIdentity change)
    (hquarantine : result.quarantine = db.quarantine)
    (hmem : ∀ x, x ∈ result.capabilities ↔ ∃ y ∈ db.capabilities, y.amend selects change = x)
    (hrow : row ∈ db.capabilities) (hq : q ∈ db.quarantine) (hholds : q.HoldsRow row)
    (hx : x ∈ result.capabilities) (hid : x.id = row.id) :
    capguardIsHeld result.quarantine x.cap = true := by
  obtain ⟨y, hy, rfl⟩ := (hmem x).mp hx
  obtain ⟨hyId, huri, -, hhash, htenant⟩ := amend_identity selects hchange y
  have hyRow : y = row := Database.eq_of_id hy hrow (hyId.symm.trans hid)
  subst hyRow
  rw [hquarantine]
  exact held_of_same hq hholds htenant huri hhash

theorem approve_request_held {db : Database} {call : ApproveCall} (hrow : row ∈ db.capabilities)
    (hq : q ∈ db.quarantine) (hholds : q.HoldsRow row)
    (hmoves : ∀ request ∈ db.requests, request.id = call.requestId →
      call.decision = some .approve → call.Passes p db request →
      request.capabilityUri = row.cap.uri →
      ∀ uri storeId, promotedAddress p db call.directory request = .ok (uri, storeId) →
        capguardIsHeld db.quarantine { row.cap with uri } = true)
    (hx : x ∈ (approveRequest p db call).1.capabilities) (hid : x.id = row.id) :
    capguardIsHeld (approveRequest p db call).1.quarantine x.cap = true := by
  cases houtcome : approveRequest p db call with
  | mk result outcome =>
      rw [houtcome] at hx
      obtain ⟨hquarantine, hsame | ⟨request, hrequest, -, hrequestId, hdecided⟩⟩ :=
        approve_request_cases houtcome
      · rw [hsame] at hx
        rw [hquarantine, Database.eq_of_id hx hrow hid]
        exact held_iff.mpr ⟨q, hq, hholds⟩
      rcases hdecided with ⟨decision, -, -, hmem⟩ | ⟨happrove, hpasses, uri, storeId, haddress, hmem⟩
      · exact amend_held (by exact fun _ => ⟨rfl, rfl, rfl, rfl⟩) hquarantine hmem hrow hq hholds
          hx hid
      · obtain ⟨y, hy, rfl⟩ := (hmem x).mp hx
        have hyId : (y.promoted request uri storeId).id = y.id := by
          unfold CapabilityRow.promoted
          split <;> rfl
        have hyRow : y = row := Database.eq_of_id hy hrow (hyId.symm.trans hid)
        subst hyRow
        rw [hquarantine]
        unfold CapabilityRow.promoted
        split
        · exact hmoves request hrequest hrequestId happrove hpasses (Eq.symm ‹_›) uri storeId
            haddress
        · exact held_iff.mpr ⟨q, hq, hholds⟩

theorem ingest_held {db : Database} {input : IngestInput p} (hrow : row ∈ db.capabilities)
    (hq : q ∈ db.quarantine) (hholds : q.HoldsRow row)
    (hdb : db.Normalized)
    (hmoves : ∀ planned, plan p input db.capabilities = .ok planned → ∀ e ∈ planned,
      e.canonicalKey = row.cap.canonicalKey ∨ e.uri = row.cap.uri →
      e.contentHash = row.cap.contentHash →
      orElse e.tenantId "asg" = orElse row.cap.tenantId "asg" ∧
        (row.cap.isPromoted = true ∨ (db.indexes e.uri e.contentHash = true →
          capguardIsHeld db.quarantine e = true))) (hx : x ∈ (ingest p db input).1.capabilities)
    (hid : x.id = row.id) (hhash : x.cap.contentHash = row.cap.contentHash) :
    capguardIsHeld (ingest p db input).1.quarantine x.cap = true := by
  cases houtcome : ingest p db input with
  | mk result outcome =>
      rw [houtcome] at hx
      cases outcome with
      | error failure =>
          have hadded := ingest_error houtcome
          rw [hadded.capabilities] at hx
          rw [Database.eq_of_id hx hrow hid]
          exact held_iff.mpr ⟨q, hadded.kept q hq, hholds⟩
      | ok changes =>
          obtain ⟨held, counts, planned, final, removed, hquarantine, hadded, hplan, hindex,
            hdelete, -⟩ := ingest_ok houtcome
          have hplanned := plan_ok hplan
          have hheldDb := normalized_holds_added hdb hadded
          have hretired := delete_source_orphaned_ok hdelete
          have hresult : result.quarantine = held.quarantine := by
            rw [hretired.rest]
            exact (index_all_progress hplanned hheldDb hindex).2
          obtain ⟨hxFinal, -⟩ := (hretired.mem_iff x).mp hx
          rw [hresult]
          rcases index_all_follows hplanned hheldDb (hadded.capabilities ▸ hrow) hindex x hxFinal
            hid with rfl | ⟨e, hfollowed⟩
          · exact held_iff.mpr ⟨q, hadded.kept q hq, hholds⟩
          · have heHash : e.contentHash = row.cap.contentHash :=
              hfollowed.contentHash.symm.trans hhash
            obtain ⟨htenant, hmoves⟩ := hmoves planned hplan e hfollowed.mem
              (hfollowed.address.elim (fun h => h.2.elim .inr fun h => .inl h.1) fun h => .inl h.2)
              heHash
            -- At its own URI the row keeps its hold, since neither the tenant nor the content changed.
            have hstays : x.cap.uri = row.cap.uri → capguardIsHeld held.quarantine x.cap = true := by
              intro huri
              refine held_iff.mpr ⟨q, hadded.kept q hq, ?_⟩
              unfold QuarantineRow.HoldsRow
              rw [hfollowed.tenantId, htenant, huri, hhash]
              exact hholds
            rcases hfollowed.address with ⟨huri, hown | ⟨-, hunpromoted⟩⟩ | ⟨huri, -⟩
            · exact hstays (huri.trans hown)
            · rw [capguard_is_held_congr hfollowed.tenantId huri hfollowed.contentHash]
              by_cases hindexed : db.indexes e.uri e.contentHash = true
              · rw [hunpromoted] at hmoves
                obtain ⟨q', hq', hholds'⟩ := (capguard_is_held_iff e).mp
                  ((hmoves.resolve_left Bool.false_ne_true) hindexed)
                exact (capguard_is_held_iff e).mpr ⟨q', hadded.kept q' hq', hholds'⟩
              · exact planned_held hquarantine hplan hfollowed.mem hindexed
            · exact hstays huri

theorem hold_step_held {call : HoldCall p} {hold : String} (hrow : row ∈ host.db.capabilities)
    (hheld : capguardIsHeld host.db.quarantine row.cap = true)
    (huntouched : Untouched p crypto row.id hold host call)
    (hmoves : MovesUnderHold p row.id hold host call)
    (hx : x ∈ (holdStep p crypto host call).db.capabilities) (hid : x.id = row.id) :
    capguardIsHeld (holdStep p crypto host call).db.quarantine x.cap = true := by
  obtain ⟨q, hq, hholds⟩ := held_iff.mp hheld
  obtain ⟨y, hy, hyId, hhash⟩ := huntouched.1 row hrow rfl
  rw [Database.eq_of_id hy hx (hyId.trans hid.symm)] at hhash
  have hmoves := hmoves row hrow rfl
  cases call with
  | guard call =>
      exact guard_step_held hrow hq hholds huntouched.2 (hmoves q hq hholds) hx hid
  | submit call =>
      simp only [holdStep] at hx ⊢
      cases hsubmit : submitPromotion p host.db call with
      | error failure =>
          rw [hsubmit] at hx
          rw [Database.eq_of_id hx hrow hid]
          exact hheld
      | ok result =>
          rw [hsubmit] at hx
          obtain ⟨hquarantine, hmem⟩ := submit_promotion_ok hsubmit
          exact amend_held (by exact fun _ => ⟨rfl, rfl, rfl, rfl⟩) hquarantine hmem hrow hq hholds
            hx hid
  | approve call => exact approve_request_held hrow hq hholds hmoves hx hid
  | ingest input => exact ingest_held hrow hq hholds hmoves.1 hmoves.2 hx hid hhash
  | normalize =>
      simp only [holdStep] at hx ⊢
      cases hnormalize : normalizeExistingCapabilityNamespaces p host.db with
      | error failure =>
          rw [hnormalize] at hx
          rw [Database.eq_of_id hx hrow hid]
          exact hheld
      | ok pair =>
          rw [hnormalize] at hx
          obtain ⟨hquarantine, hgoverned, -⟩ := normalize_existing_ok hnormalize
          have hxRow : x = row := Database.eq_of_id hx (hgoverned row hrow hmoves) hid
          dsimp only
          rw [hquarantine, hxRow]
          exact hheld

/-- A row that is held stays held in every run that keeps it under a hold. -/
theorem hold_kept {calls : List (HoldCall p)}
    (h : ∀ row ∈ host.db.capabilities, ∀ q ∈ host.db.quarantine, q.HoldsRow row →
      Along (holdStep p crypto) (MovesUnderHold p row.id q.id) host calls) :
    HoldKept p crypto host calls := by
  rintro row hrow q hq hholds first second rfl huntouched x hx hid
  have hmoves := ((along_append host first second).mp (h row hrow q hq hholds)).1
  have hboth : Along (holdStep p crypto) (fun state call =>
      Untouched p crypto row.id q.id state call ∧ MovesUnderHold p row.id q.id state call)
      host first :=
    (along_iff host first).mpr fun before call after hsplit =>
      ⟨(along_iff host first).mp huntouched before call after hsplit,
        (along_iff host first).mp hmoves before call after hsplit⟩
  -- The invariant of the run: the row is there and is held, by this hold or by a later one.
  obtain ⟨y, hy, hyId, hyHeld⟩ := run_invariant_along
    (I := fun state => ∃ y ∈ state.db.capabilities,
      y.id = row.id ∧ capguardIsHeld state.db.quarantine y.cap = true)
    (fun state call ⟨huntouched, hmoves⟩ ⟨y, hy, hyId, hyHeld⟩ => by
      rw [← hyId] at huntouched hmoves
      obtain ⟨z, hz, hzId, -⟩ := huntouched.1 y hy rfl
      exact ⟨z, hz, hzId.trans hyId, hold_step_held hy hyHeld huntouched hmoves hz hzId⟩)
    hboth ⟨row, hrow, rfl, held_iff.mpr ⟨q, hq, hholds⟩⟩
  rw [Database.eq_of_id hx hy (hid.trans hyId.symm)]
  exact hyHeld

end

/-- The organization whose shared namespace the notes skill is promoted into. -/
def sharedDirectory : Directory where
  stores := [{ id := orgStoreId .sample "asg", tenantId := "asg", kind := .org, disabled := false }]
  namespaces := [⟨orgSharedNamespaceId .sample "asg", "asg", orgStoreId .sample "asg",
    "cap://org/asg/asg/shared", true⟩]
  organizations := [{ tenantId := "asg", storeId := orgStoreId .sample "asg", active := true }]

/-- A first ingest of the skill, which holds it, and its submission for promotion. -/
def submitRun : List (HoldCall .sample) :=
  [.ingest (notesInput "sha256:v1" (by decide)),
    .submit ⟨{ subject := "capmesh", tenantId := "asg" }, userNamespaceCapabilityUri .sample (notesSkill "sha256:v1"),
      orgSharedNamespaceId .sample "asg", ⟨true, ""⟩, sharedDirectory, "prm_1"⟩]

/-- The host after that run, from a host without rows. -/
def submittedHost : Host :=
  run (holdStep .sample .transparent) ⟨.empty, ⟨true, .key "k", true⟩⟩ submitRun

/-- The approval of the request over its pending gates. -/
def approveHeld : HoldCall .sample :=
  .approve
    { principal := { subject := "capmesh", tenantId := "asg" }, requestId := "prm_1"
      overridePendingGates := true
      access := ⟨true, ""⟩, manage := ⟨true, ""⟩, approve := ⟨true, ""⟩
      runner := ⟨fun _ => .ok [], fun _ _ => (.passed, "")⟩, directory := sharedDirectory }

/-- Whether a held row is in a later database with its content, and is not held although its hold
is active. -/
def losesHold (before after : Database) : Bool :=
  before.capabilities.rows.any fun row => before.quarantine.rows.any fun q =>
    q.Holds (orElse row.cap.tenantId "asg") row.cap.uri row.cap.contentHash &&
      (after.quarantine.rows.any fun q' => q'.id = q.id && q'.status = .quarantined) &&
      after.capabilities.rows.any fun x => x.id = row.id &&
        x.cap.contentHash = row.cap.contentHash && !capguardIsHeld after.quarantine x.cap

theorem not_hold_kept_of_loses {p : Platform} {crypto : Crypto} {host : Host} {call : HoldCall p}
    (h : losesHold host.db (holdStep p crypto host call).db = true) :
    ¬ HoldKept p crypto host [call] := by
  intro hkept
  obtain ⟨row, hrow, h⟩ := List.any_eq_true.mp h
  obtain ⟨q, hq, h⟩ := List.any_eq_true.mp h
  simp only [Bool.and_eq_true, decide_eq_true_eq, List.any_eq_true, Bool.not_eq_true'] at h
  obtain ⟨⟨hholds, q', hq', hactive⟩, x, hx, ⟨hid, hhash⟩, hunheld⟩ := h
  have huntouched : Untouched p crypto row.id q.id host call :=
    ⟨fun row' hrow' hrowId => ⟨x, hx, hid, by rw [Database.eq_of_id hrow' hrow hrowId, hhash]⟩,
      q', hq', hactive⟩
  have hheld := hkept row hrow q hq hholds [call] [] rfl ⟨huntouched, trivial⟩ x hx hid
  exact Bool.false_ne_true (hunheld.symm.trans hheld)

/-- The approval moves the held skill to the org namespace and leaves its hold at the private
URI. -/
theorem hold_escapes_by_promotion_counterexample :
    ¬ ∀ (p : Platform) (crypto : Crypto) (host : Host) (calls : List (HoldCall p)),
      HoldKept p crypto host calls := by
  intro hclaim
  have hloses : losesHold submittedHost.db
      (holdStep .sample .transparent submittedHost approveHeld).db = true := by decide +kernel
  exact not_hold_kept_of_loses hloses (hclaim _ _ _ _)

theorem hold_kept_reindexed : (∃ row ∈ submittedHost.db.capabilities,
      capguardIsHeld submittedHost.db.quarantine row.cap = true) ∧
    HoldKept .sample .transparent submittedHost submitRun := by
  have hstart : ((submittedHost.db.capabilities.rows.any fun row =>
        capguardIsHeld submittedHost.db.quarantine row.cap) &&
      (submittedHost.db.capabilities.rows.all fun row =>
        isAddressed row.cap.uri && orElse row.cap.tenantId "asg" = "asg") &&
      (plan .sample (notesInput "sha256:v1" (by decide))
        submittedHost.db.capabilities).toOption.all fun planned => planned.all fun e =>
          orElse e.tenantId "asg" = "asg" && capguardIsHeld submittedHost.db.quarantine e) = true := by
    decide +kernel
  simp only [Bool.and_eq_true, List.any_eq_true, List.all_eq_true, decide_eq_true_eq] at hstart
  obtain ⟨⟨hheld, hrows⟩, hplanned⟩ := hstart
  refine ⟨hheld, hold_kept fun _ _ _ _ _ => ⟨?_, fun _ _ _ => trivial, trivial⟩⟩
  intro row hrow _
  refine ⟨fun x hx => (hrows x hx).1, fun planned hplan e he _ _ => ?_⟩
  simp only [hplan, Except.toOption, Option.all_some, List.all_eq_true, Bool.and_eq_true,
    decide_eq_true_eq] at hplanned
  obtain ⟨htenant, heHeld⟩ := hplanned e he
  exact ⟨htenant.trans (hrows row hrow).2.symm, .inr fun _ => heHeld⟩

end Capmesh
