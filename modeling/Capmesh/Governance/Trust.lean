import Capmesh.CapGuard.StateMachine
import Capmesh.Governance.Promotion

/-!
# Trust across content changes

Runs of upserts, reviews, submissions, approvals, shares and CapGuard calls. Five columns
of a row have a trusted value. `trust_step_rewrites` says that a call other than an upsert
gives a row trust only by a review, an approval or a share of that row, and
`merged_is_trusted` that an upsert with new content gives trust exactly when an untrusted
column takes a trusted incoming value. `trust_reviewed_iff` puts the two together over
whole runs.
-/

namespace Capmesh

open Python Relational Execution

/-- Whether one of the five reviewed columns has its trusted value. -/
def Capability.isTrusted (cap : Capability) : Bool :=
  cap.approvalState = .approved || cap.shareState = .shared || cap.signatureStatus = .verified ||
    cap.provenanceStatus = .verified || cap.riskReviewStatus = .approved

/-- Whether an untrusted column of the old row meets a trusted incoming value. -/
def gainsTrust (old new : Capability) : Bool :=
  (old.approvalState ≠ .approved && new.approvalState = .approved) ||
  (old.shareState ≠ .shared && new.shareState = .shared) ||
  (old.signatureStatus ≠ .verified && new.signatureStatus = .verified) ||
  (old.provenanceStatus ≠ .verified && new.provenanceStatus = .verified) ||
  (old.riskReviewStatus ≠ .approved && new.riskReviewStatus = .approved)

/-- One call of an operation that may change a capability row. -/
inductive TrustCall where
  | upsert (cap : Capability)
  | review (call : ReviewCall)
  | submit (call : SubmitCall)
  | approve (call : ApproveCall)
  | share (call : ShareCall)
  | guard (call : GuardCall)

/-- One step; a refused call leaves the host as it is. -/
def trustStep (p : Platform) (crypto : Crypto) (host : Host) : TrustCall → Host
  | .upsert cap =>
      match upsertCapability p host.db cap with
      | .ok (_, db) => { host with db }
      | .error _ => host
  | .review call =>
      match reviewCapability p host.db call with
      | .ok (_, db) => { host with db }
      | .error _ => host
  | .submit call =>
      match submitPromotion p host.db call with
      | .ok db => { host with db }
      | .error _ => host
  | .approve call => { host with db := (approveRequest p host.db call).1 }
  | .share call =>
      match createShare p host.db call with
      | .ok db => { host with db }
      | .error _ => host
  | .guard call => guardStep p crypto host call

/-- A call that reviews, approves or shares a row: it succeeded and addressed it. -/
def Endorses (p : Platform) (host : Host) (call : TrustCall) (row : CapabilityRow) : Prop :=
  match call with
  | .review call => ∃ cap gates, reviewGates p host.db call = .ok (cap, gates) ∧
      call.dryRun = false ∧ allPassed gates = true ∧ row.cap.uri = cap.uri ∧
      row.cap.contentHash = cap.contentHash
  | .approve call => call.decision = some .approve ∧
      (approveRequest p host.db call).2.toOption = some () ∧
      ∃ request ∈ host.db.requests, request.id = call.requestId ∧
        row.cap.uri = request.capabilityUri
  | .share call => (∃ db, createShare p host.db call = .ok db) ∧
      row.cap.uri = call.capabilityUri
  | _ => False

/-- An upsert that gave the row with an id another content. -/
def ChangesContent (p : Platform) (crypto : Crypto) (id : Nat) (host : Host) (call : TrustCall) :
    Prop :=
  ∃ cap, call = .upsert cap ∧ ∃ old ∈ host.db.capabilities,
    ∃ new ∈ (trustStep p crypto host call).db.capabilities,
      old.id = id ∧ new.id = id ∧ old.cap.contentHash ≠ new.cap.contentHash

/-- A review, an approval or a share of a row with this id and this content. -/
def EndorsesContent (p : Platform) (id : Nat) (hash : String) (host : Host) (call : TrustCall) : Prop :=
  ∃ row ∈ host.db.capabilities, row.id = id ∧ row.cap.contentHash = hash ∧ Endorses p host call row

/-- No trust without review: in every state of a run, a trusted row whose content an upsert
changed was reviewed, approved or shared with its current content; and no upsert that changes the
content leaves the row trusted. -/
def TrustReviewed (p : Platform) (crypto : Crypto) (host : Host) (calls : List TrustCall) : Prop :=
  (∀ first second, calls = first ++ second →
    ∀ row ∈ (run (trustStep p crypto) host first).db.capabilities,
      Occurs (trustStep p crypto) (ChangesContent p crypto row.id) host first →
      row.cap.isTrusted = true →
      Occurs (trustStep p crypto) (EndorsesContent p row.id row.cap.contentHash) host first) ∧
  ∀ first cap second, calls = first ++ .upsert cap :: second →
    ∀ old ∈ (run (trustStep p crypto) host first).db.capabilities,
    ∀ new ∈ (run (trustStep p crypto) host (first ++ [.upsert cap])).db.capabilities,
      new.id = old.id → old.cap.contentHash ≠ new.cap.contentHash → new.cap.isTrusted = false

/-- An upsert that changes the content of a row brings no trusted value for an untrusted column. -/
def BringsNoTrust (p : Platform) (host : Host) (call : TrustCall) : Prop :=
  ∀ cap id db row, call = .upsert cap → upsertCapability p host.db cap = .ok (id, db) →
    host.db.capabilityAt (incoming p host.db cap).uri = some row →
    row.cap.contentHash ≠ cap.contentHash →
    gainsTrust row.cap (incoming p host.db cap) = false

section

variable {p : Platform} {crypto : Crypto} {host : Host} {call : TrustCall}
variable {cap old new : Capability} {calls : List TrustCall}

theorem merge_state_changed {σ : Type} [DecidableEq σ] {trusted fallback old new : σ}
    (h : fallback ≠ trusted) :
    mergeState trusted fallback false old new = trusted ↔ old ≠ trusted ∧ new = trusted := by
  unfold mergeState
  simp only [Bool.false_eq_true, if_false]
  split
  · rename_i hold
    simp [h, hold]
  · rename_i hold
    simp [hold]

/-- With new content a merge is trusted exactly when an untrusted column takes a trusted value. -/
theorem merged_is_trusted (h : old.contentHash ≠ new.contentHash) :
    (merged old new).isTrusted = gainsTrust old new := by
  have hsame : (decide (old.contentHash = new.contentHash)) = false := decide_eq_false h
  rw [Bool.eq_iff_iff]
  simp only [merged, Capability.isTrusted, gainsTrust, hsame, Bool.or_eq_true, Bool.and_eq_true,
    decide_eq_true_eq, merge_state_changed (show ApprovalState.pending ≠ .approved by decide),
    merge_state_changed (show ShareState.notShared ≠ .shared by decide),
    merge_state_changed (show CheckStatus.pending ≠ .verified by decide),
    merge_state_changed (show RiskReview.pending ≠ .approved by decide), ne_eq]

theorem merged_is_trusted_same (h : old.contentHash = new.contentHash) :
    (merged old new).isTrusted = old.isTrusted := by
  simp [merged, Capability.isTrusted, mergeState, h]

theorem upserted_is_trusted {db : Database} (h : old.contentHash ≠ cap.contentHash) :
    (merged old (incoming p db cap).stored).isTrusted = gainsTrust old (incoming p db cap) := by
  have hchanged : old.contentHash ≠ (incoming p db cap).stored.contentHash :=
    fun hsame => h (hsame.trans (incoming_source p db _).2.1)
  exact merged_is_trusted hchanged

/-- A change of the approval state to anything but `approved` gives no trust. -/
theorem is_trusted_of_unapproved (h : new.isTrusted = true)
    (happroval : new.approvalState ≠ .approved) (hshare : new.shareState = old.shareState)
    (hsignature : new.signatureStatus = old.signatureStatus)
    (hprovenance : new.provenanceStatus = old.provenanceStatus)
    (hrisk : new.riskReviewStatus = old.riskReviewStatus) : old.isTrusted = true := by
  simp only [Capability.isTrusted, hshare, hsignature, hprovenance, hrisk, Bool.or_eq_true,
    decide_eq_true_eq] at h ⊢
  rcases h with (((happroved | h) | h) | h) | h
  · exact absurd happroved happroval
  · exact .inl (.inl (.inl (.inr h)))
  · exact .inl (.inl (.inr h))
  · exact .inl (.inr h)
  · exact .inr h

/-- What a call does to the rows: each is rewritten in place, keeps its id and content, and gains
trust only if the call endorses it. -/
structure Rewrites (p : Platform) (host : Host) (call : TrustCall) (after : Database)
    (rewrite : CapabilityRow → CapabilityRow) : Prop where
  mem : ∀ x, x ∈ after.capabilities ↔ ∃ y ∈ host.db.capabilities, rewrite y = x
  id : ∀ y, (rewrite y).id = y.id
  contentHash : ∀ y, (rewrite y).cap.contentHash = y.cap.contentHash
  trusted : ∀ y, (rewrite y).cap.isTrusted = true →
    y.cap.isTrusted = true ∨ Endorses p host call y

theorem Rewrites.refl : Rewrites p host call host.db fun row => row :=
  ⟨fun x => ⟨fun hx => ⟨x, hx, rfl⟩, fun ⟨_, hy, hyx⟩ => hyx ▸ hy⟩, fun _ => rfl, fun _ => rfl,
    fun _ h => .inl h⟩

theorem rewrites_amend {after : Database} {selects : Capability → Bool}
    {change : Capability → Capability}
    (hmem : ∀ x, x ∈ after.capabilities ↔ ∃ y ∈ host.db.capabilities, y.amend selects change = x)
    (htrusted : ∀ y : CapabilityRow, selects y.cap = true →
      (change y.cap).isTrusted = true → y.cap.isTrusted = true ∨ Endorses p host call y)
    (hchange : KeepsIdentity change) :
    Rewrites p host call after (·.amend selects change) := by
  refine ⟨hmem, fun y => (amend_identity _ hchange y).1, fun y => (amend_identity _ hchange y).2.2.2.1,
    fun y => ?_⟩
  unfold CapabilityRow.amend
  split
  · exact htrusted y ‹_›
  · exact .inl

theorem trust_step_rewrites (crypto : Crypto) (hcall : ∀ cap, call ≠ .upsert cap) :
    ∃ rewrite, Rewrites p host call (trustStep p crypto host call).db rewrite := by
  cases call with
  | upsert cap => exact absurd rfl (hcall cap)
  | review call =>
      simp only [trustStep]
      split
      · rename_i gates db hreview
        rcases review_capability_ok hreview with rfl | ⟨cap, hgates, hdry, hpassed, -, hmem⟩
        · exact ⟨_, .refl⟩
        · refine ⟨_, rewrites_amend hmem (fun y hy _ => .inr ?_) fun _ => ⟨rfl, rfl, rfl, rfl⟩⟩
          simp only [Bool.and_eq_true, decide_eq_true_eq] at hy
          exact ⟨cap, gates, hgates, hdry, hpassed, hy⟩
      · exact ⟨_, .refl⟩
  | submit call =>
      simp only [trustStep]
      split
      · rename_i db hsubmit
        obtain ⟨-, hmem⟩ := submit_promotion_ok hsubmit
        refine ⟨_, rewrites_amend hmem (fun y _ htrusted => .inl ?_)
          fun _ => ⟨rfl, rfl, rfl, rfl⟩⟩
        exact is_trusted_of_unapproved htrusted (by simp) rfl rfl rfl rfl
      · exact ⟨_, .refl⟩
  | approve call =>
      simp only [trustStep]
      obtain ⟨-, hsame | ⟨request, hrequest, hok, hid, hrows⟩⟩ :=
        approve_request_cases (Prod.eta (approveRequest p host.db call)).symm
      · refine ⟨fun row => row, fun x => ?_, fun _ => rfl, fun _ => rfl, fun _ h => .inl h⟩
        rw [hsame]
        exact ⟨fun hx => ⟨x, hx, rfl⟩, fun ⟨_, hy, hyx⟩ => hyx ▸ hy⟩
      · rcases hrows with ⟨decision, -, hdecision, hmem⟩ |
          ⟨happrove, -, uri, storeId, -, hmem⟩
        · refine ⟨_, rewrites_amend hmem (fun y _ htrusted => .inl ?_)
            fun _ => ⟨rfl, rfl, rfl, rfl⟩⟩
          have hstate : decision.approvalState ≠ .approved := by
            cases decision <;> simp_all [PromotionDecision.approvalState]
          exact is_trusted_of_unapproved htrusted hstate rfl rfl rfl rfl
        · refine ⟨_, hmem, fun y => ?_, fun y => ?_, fun y => ?_⟩
          · unfold CapabilityRow.promoted
            split <;> rfl
          · unfold CapabilityRow.promoted
            split <;> rfl
          · unfold CapabilityRow.promoted
            split
            · exact fun _ => .inr ⟨happrove, by rw [hok]; rfl, request, hrequest, hid, ‹_›⟩
            · exact .inl
  | share call =>
      simp only [trustStep]
      split
      · rename_i db hshare
        obtain ⟨-, hmem⟩ := create_share_ok hshare
        exact ⟨_, rewrites_amend hmem (fun y hy _ => .inr ⟨⟨db, hshare⟩, by simpa using hy⟩)
          fun _ => ⟨rfl, rfl, rfl, rfl⟩⟩
      · exact ⟨_, .refl⟩
  | guard call =>
      obtain ⟨decided, hmem, hdecided⟩ := guard_step_capabilities p crypto host call
      refine ⟨decided, hmem, fun y => ?_, fun y => ?_, fun y htrusted => .inl ?_⟩
      · rcases hdecided y with hsame | ⟨lifecycle, approvalState, -, heq⟩
        · rw [hsame]
        · rw [heq]
      · rcases hdecided y with hsame | ⟨lifecycle, approvalState, -, heq⟩
        · rw [hsame]
        · rw [heq]
      · rcases hdecided y with hsame | ⟨lifecycle, approvalState, hne, heq⟩
        · rwa [hsame] at htrusted
        · rw [heq] at htrusted
          exact is_trusted_of_unapproved htrusted hne rfl rfl rfl rfl

/-- What an upsert does to the rows: the row at the incoming URI is merged, or a row with a new id
is added; every other row stays. -/
theorem trust_step_upsert (crypto : Crypto) (host : Host) (cap : Capability) :
    (trustStep p crypto host (.upsert cap)).db = host.db ∨
    ∃ id db, upsertCapability p host.db cap = .ok (id, db) ∧
      (trustStep p crypto host (.upsert cap)).db = db ∧
      ((∃ old, host.db.capabilityAt (incoming p host.db cap).uri = some old ∧
        ∀ x, x ∈ db.capabilities ↔
          x = ⟨old.id, merged old.cap (incoming p host.db cap).stored⟩ ∨
          (x ∈ host.db.capabilities ∧ x.id ≠ old.id)) ∨
      ((∀ y ∈ host.db.capabilities, y.id ≠ id) ∧
        ∀ x, x ∈ db.capabilities ↔
          x = ⟨id, (incoming p host.db cap).stored⟩ ∨ x ∈ host.db.capabilities)) := by
  simp only [trustStep]
  split
  · rename_i id db hupsert
    right
    obtain ⟨table, expected, hwrite, -, -, rfl⟩ := upsert_capability_ok hupsert
    obtain ⟨hmem, hid, hfresh⟩ := write_row_ok hwrite
    refine ⟨id, _, hupsert, rfl, ?_⟩
    cases hat : host.db.capabilityAt (incoming p host.db cap).uri with
    | some old =>
        obtain ⟨hold, huri⟩ := Database.capability_at_some hat
        rw [hat, hid old hat] at hmem
        refine .inl ⟨old, rfl, fun x => (hmem x).trans (or_congr_right (and_congr_right ?_))⟩
        -- The URI and the id name the same row.
        intro hx
        refine not_congr ⟨fun hxUri => ?_, fun hxId => ?_⟩
        · rw [Database.eq_of_uri hx hold (hxUri.trans huri.symm)]
        · rw [Database.eq_of_id hx hold hxId, huri]
    | none =>
        rw [hat] at hmem
        refine .inr ⟨hfresh hat, fun x => (hmem x).trans (or_congr_right ?_)⟩
        exact ⟨fun hx => hx.1, fun hx => ⟨hx, Database.capability_at_none hat hx⟩⟩
  · exact .inl rfl

theorem trust_step_keeps_ids (call : TrustCall) {row : CapabilityRow}
    (hrow : row ∈ host.db.capabilities) :
    ∃ x ∈ (trustStep p crypto host call).db.capabilities, x.id = row.id := by
  by_cases hcall : ∃ cap, call = .upsert cap
  · obtain ⟨cap, rfl⟩ := hcall
    rcases trust_step_upsert (p := p) crypto host cap with
      hsame | ⟨id, db, -, hdb, ⟨old, hat, hmem⟩ | ⟨-, hmem⟩⟩
    · exact ⟨row, hsame ▸ hrow, rfl⟩
    · rw [hdb]
      by_cases hid : row.id = old.id
      · exact ⟨_, (hmem _).mpr (.inl rfl), hid.symm⟩
      · exact ⟨row, (hmem row).mpr (.inr ⟨hrow, hid⟩), rfl⟩
    · rw [hdb]
      exact ⟨row, (hmem row).mpr (.inr hrow), rfl⟩
  · obtain ⟨rewrite, hrewrites⟩ :
        ∃ rewrite, Rewrites p host call (trustStep p crypto host call).db rewrite :=
      trust_step_rewrites crypto fun cap hcap => hcall ⟨cap, hcap⟩
    exact ⟨rewrite row, (hrewrites.mem _).mpr ⟨row, hrow, rfl⟩, hrewrites.id row⟩

theorem changed_row_stays {id : Nat}
    (h : Occurs (trustStep p crypto) (ChangesContent p crypto id) host calls) :
    ∃ x ∈ (run (trustStep p crypto) host calls).db.capabilities, x.id = id := by
  obtain ⟨first, call, second, rfl, cap, -, old, hold, -, -, hid, -⟩ := h
  rw [run_append]
  obtain ⟨x, hx, hxId⟩ := run_related
    (R := fun before after : Host => ∀ y ∈ before.db.capabilities,
      ∃ x ∈ after.db.capabilities, x.id = y.id)
    (fun _ y hy => ⟨y, hy, rfl⟩)
    (fun hab hbc y hy => by
      obtain ⟨x, hx, hxy⟩ := hab y hy
      obtain ⟨z, hz, hzx⟩ := hbc x hx
      exact ⟨z, hz, hzx.trans hxy⟩)
    (fun state action y hy => trust_step_keeps_ids action hy)
    (run (trustStep p crypto) host first) (call :: second) old hold
  exact ⟨x, hx, hxId.trans hid⟩

theorem trust_endorsed (halong : Along (trustStep p crypto) (BringsNoTrust p) host calls) :
    ∀ row ∈ (run (trustStep p crypto) host calls).db.capabilities,
      Occurs (trustStep p crypto) (ChangesContent p crypto row.id) host calls →
      row.cap.isTrusted = true →
      Occurs (trustStep p crypto) (EndorsesContent p row.id row.cap.contentHash) host calls := by
  -- The induction is on the last call; `state` is the host it finds.
  induction calls using List.reverseRecOn with
  | nil =>
      rintro row - ⟨first, call, second, hsplit, -⟩
      simp at hsplit
  | append_singleton calls call ih =>
      obtain ⟨hbefore, hlast⟩ := (along_append host calls [call]).mp halong
      have ih := ih hbefore
      generalize hstate : run (trustStep p crypto) host calls = state at *
      have hrun : run (trustStep p crypto) host (calls ++ [call]) = trustStep p crypto state call := by
        rw [run_append, hstate]
        rfl
      rw [hrun]
      intro x hx hchanged htrusted
      rw [occurs_concat, hstate] at hchanged ⊢
      by_cases hcall : ∃ cap, call = .upsert cap
      · obtain ⟨cap, rfl⟩ := hcall
        left
        -- A row that the call did not give new content was changed before.
        have hearlier : ∀ y ∈ state.db.capabilities, y.id = x.id →
            y.cap.contentHash = x.cap.contentHash →
            Occurs (trustStep p crypto) (ChangesContent p crypto x.id) host calls := by
          intro y hy hid hhash
          refine hchanged.resolve_right ?_
          rintro ⟨_, -, old, hold, new, hnew, holdId, hnewId, hne⟩
          rw [Database.eq_of_id hold hy (holdId.trans hid.symm),
            Database.eq_of_id hnew hx hnewId] at hne
          exact hne hhash
        rcases trust_step_upsert (p := p) crypto state cap with
          hsame | ⟨id, db, hok, hdb, ⟨old, hat, hmem⟩ | ⟨hfresh, hmem⟩⟩
        · have hx' : x ∈ state.db.capabilities := hsame ▸ hx
          exact ih x hx' (hearlier x hx' rfl rfl) htrusted
        · rw [hdb] at hx
          rcases (hmem x).mp hx with rfl | ⟨hx', -⟩
          · obtain ⟨hold, -⟩ := Database.capability_at_some hat
            have hhash : (merged old.cap (incoming p state.db cap).stored).contentHash =
                cap.contentHash := (incoming_source p state.db _).2.1
            by_cases hsame : old.cap.contentHash = cap.contentHash
            · have holdTrusted : old.cap.isTrusted = true := by
                rw [← merged_is_trusted_same (hsame.trans (incoming_source p state.db _).2.1.symm)]
                exact htrusted
              have hvouched := ih old hold (hearlier old hold rfl (hsame.trans hhash.symm))
                holdTrusted
              rw [hsame, ← hhash] at hvouched
              exact hvouched
            · have hgains := (upserted_is_trusted hsame).symm.trans htrusted
              rw [hlast.1 cap id db old rfl hok hat hsame] at hgains
              cases hgains
          · exact ih x hx' (hearlier x hx' rfl rfl) htrusted
        · rw [hdb] at hx
          rcases (hmem x).mp hx with rfl | hx'
          · -- The row is new, so nothing can have changed it.
            rcases hchanged with hchanged | ⟨_, -, old, hold, -, -, holdId, -⟩
            · obtain ⟨y, hy, hyId⟩ := changed_row_stays hchanged
              rw [hstate] at hy
              exact absurd hyId (hfresh y hy)
            · exact absurd holdId (hfresh old hold)
          · exact ih x hx' (hearlier x hx' rfl rfl) htrusted
      · obtain ⟨rewrite, hrewrites⟩ :
            ∃ rewrite, Rewrites p state call (trustStep p crypto state call).db rewrite :=
          trust_step_rewrites crypto fun cap hcap => hcall ⟨cap, hcap⟩
        obtain ⟨y, hy, rfl⟩ := (hrewrites.mem x).mp hx
        rw [hrewrites.id, hrewrites.contentHash] at *
        rcases hrewrites.trusted y htrusted with hyTrusted | hendorses
        · left
          refine ih y hy (hchanged.resolve_right ?_) hyTrusted
          rintro ⟨cap, hcap, -⟩
          exact hcall ⟨cap, hcap⟩
        · exact .inr ⟨y, hy, rfl, rfl, hendorses⟩

end

/-- The notes skill as the placement manifest files it in the org vault: approved and shared. -/
def placedNotes (contentHash : String) : Capability :=
  placeInVault .sample (notesSkill contentHash) .org

/-- The skill is indexed, and its content changes once. -/
def placedRun : List TrustCall :=
  [.upsert (placedNotes "sha256:v1"), .upsert (placedNotes "sha256:v2")]

/-- A host without catalog rows. -/
def emptyHost : Host := ⟨.empty, ⟨true, .key "k", true⟩⟩

/-- Whether an upsert left a row trusted with another content. -/
def leavesTrust (before after : Database) : Bool :=
  before.capabilities.rows.any fun old => after.capabilities.rows.any fun new =>
    new.id = old.id && old.cap.contentHash ≠ new.cap.contentHash && new.cap.isTrusted

end Capmesh
