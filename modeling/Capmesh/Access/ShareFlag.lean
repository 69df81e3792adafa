import Capmesh.Access.Sharing

/-!
# The share flag

A share is recorded three times: the row of `shares`, one relationship tuple for each
right, and the flag `share_state` of the capability row. `create_share` writes all three.
`revoke_share` takes back the first two and leaves the flag; the `SET` clause of
`upsert_capability` takes back the flag when the content changes and leaves the other two.
`share_flag_agrees` says for which calls the flag and the shares go on agreeing.
-/

namespace Capmesh

open Python Relational Execution

/-- A call that writes the flag of a capability, or its shares. -/
inductive FlagCall where
  | create (call : ShareCall)
  | revoke (call : RevokeCall)
  | upsert (cap : Capability)

/-- What a call leaves. -/
def FlagCall.result (p : Platform) (db : Database) : FlagCall → Except Failure Database
  | .create call => createShare p db call
  | .revoke call => revokeShare p db call
  | .upsert cap => (upsertCapability p db cap).map (·.2)

/-- One call; a refused call changes nothing. -/
def flagStep (p : Platform) (db : Database) (call : FlagCall) : Database :=
  match call.result p db with
  | .ok result => result
  | .error _ => db

/-- The capability at a URI has the flag. -/
def Flagged (db : Database) (uri : String) : Prop :=
  ∃ row ∈ db.capabilities, row.cap.uri = uri ∧ row.cap.shareState = .shared

/-- A URI has an active share. -/
def ActivelyShared (db : Database) (uri : String) : Prop :=
  ∃ share ∈ db.shares, share.capabilityUri = uri ∧ share.state = .active

instance (db : Database) (uri : String) : Decidable (Flagged db uri) :=
  inferInstanceAs (Decidable (∃ row ∈ db.capabilities.rows,
    row.cap.uri = uri ∧ row.cap.shareState = .shared))

instance (db : Database) (uri : String) : Decidable (ActivelyShared db uri) :=
  inferInstanceAs (Decidable (∃ share ∈ db.shares.rows,
    share.capabilityUri = uri ∧ share.state = .active))

/-- The three records of the shares of a URI agree: the flag with the rows, and every tuple with a
row. -/
structure SharesAgree (uri : String) (db : Database) : Prop where
  flag : Flagged db uri ↔ ActivelyShared db uri
  recorded : ∀ tuple ∈ db.tuples, tuple.source = "share" → tuple.object = uri →
    ∃ share ∈ db.shares, share.state = .active ∧ share.records tuple = true

/-- No share gives a right on a URI, neither by its row nor by a tuple. -/
def NothingShared (uri : String) (db : Database) : Prop :=
  (∀ now tenant subjects right, shareGrant db.shares now tenant subjects uri right = false) ∧
    ∀ tuple ∈ db.tuples, tuple.source = "share" → tuple.object ≠ uri

/-- A call does not bring a capability to a URI with the flag set, as vault placement does. -/
def FlagCall.Unplaced (p : Platform) (uri : String) : FlagCall → Prop
  | .upsert cap => (applyDefaultUserNamespace p cap).uri = uri → cap.shareState ≠ .shared
  | _ => True

/-- A call revokes no last active share of a URI, and does not change its content while it has an
active share. -/
def KeepsFlag (p : Platform) (uri : String) (db : Database) : FlagCall → Prop
  | .create _ => True
  | .revoke call => ∀ share ∈ db.shares, share.id = call.shareId → share.capabilityUri = uri →
      share.state = .active →
      ∃ other ∈ db.shares, other.id ≠ call.shareId ∧ other.capabilityUri = uri ∧
        other.state = .active
  | .upsert cap => (applyDefaultUserNamespace p cap).uri = uri → ∀ row ∈ db.capabilities,
      row.cap.uri = uri → row.cap.contentHash ≠ cap.contentHash → ¬ ActivelyShared db uri

section

variable {p : Platform} {uri : String} {db result : Database} {call : ShareCall} {cap : Capability}
variable {id : Nat}

theorem nothing_shared_of_agree (h : SharesAgree uri db) (hflag : ¬ Flagged db uri) :
    NothingShared uri db := by
  have hinactive : ¬ ActivelyShared db uri := fun hshared => hflag (h.flag.mpr hshared)
  refine ⟨fun now tenant subjects right => ?_, fun tuple htuple hsource hobject => ?_⟩
  · refine Bool.eq_false_iff.mpr fun hgrant => hinactive ?_
    simp only [shareGrant, Bool.and_eq_true, decide_eq_true_eq, Table.any_iff] at hgrant
    obtain ⟨-, share, hshare, ⟨⟨⟨-, huri⟩, hforce⟩, -⟩, -⟩ := hgrant
    simp only [ShareRow.inForce, Bool.and_eq_true, decide_eq_true_eq] at hforce
    exact ⟨share, hshare, huri, hforce.1.1⟩
  · obtain ⟨share, hshare, hactive, hrecords⟩ := h.recorded tuple htuple hsource hobject
    simp only [ShareRow.records, Bool.and_eq_true, decide_eq_true_eq] at hrecords
    exact hinactive ⟨share, hshare, hrecords.1.1.1.2.symm.trans hobject, hactive⟩

theorem flagged_create_iff (hcall : createShare p db call = .ok result) :
    Flagged result uri ↔ Flagged db uri ∨ call.capabilityUri = uri := by
  obtain ⟨row, -, -, hrow, -⟩ := create_share_writes hcall
  obtain ⟨hmem, hat⟩ := Database.capability_at_some hrow
  have hrows := (create_share_ok hcall).2
  constructor
  · intro ⟨x, hx, hxuri, hshared⟩
    obtain ⟨y, hy, rfl⟩ := (hrows x).mp hx
    by_cases hyuri : y.cap.uri = call.capabilityUri
    · have hsame : call.capabilityUri = uri := by
        simpa [CapabilityRow.amend, hyuri] using hxuri
      exact .inr hsame
    · have hkept : y.amend (·.uri = call.capabilityUri)
          (fun cap => { cap with shareState := .shared }) = y := if_neg (by simpa using hyuri)
      rw [hkept] at hxuri hshared
      exact .inl ⟨y, hy, hxuri, hshared⟩
  · intro h
    cases h with
    | inl hflag =>
        obtain ⟨y, hy, hyuri, hshared⟩ := hflag
        refine ⟨_, (hrows _).mpr ⟨y, hy, rfl⟩, ?_⟩
        unfold CapabilityRow.amend
        split
        · exact ⟨hyuri, rfl⟩
        · exact ⟨hyuri, hshared⟩
    | inr huri =>
        refine ⟨_, (hrows _).mpr ⟨row, hmem, rfl⟩, ?_⟩
        simp [CapabilityRow.amend, hat, huri]

theorem actively_shared_create_iff (hcall : createShare p db call = .ok result) :
    ActivelyShared result uri ↔ ActivelyShared db uri ∨ call.capabilityUri = uri := by
  obtain ⟨row, shares, -, -, -, -, hshares, rfl⟩ := create_share_writes hcall
  have hmore : ∀ share, share ∈ shares ↔ share ∈ db.shares ∨ share = call.row p :=
    Table.mem_insert? hshares
  constructor
  · intro ⟨share, hshare, huri, hactive⟩
    cases (hmore share).mp hshare with
    | inl hold => exact .inl ⟨share, hold, huri, hactive⟩
    | inr hnew =>
        subst hnew
        exact .inr huri
  · intro h
    cases h with
    | inl hold =>
        obtain ⟨share, hshare, hactive⟩ := hold
        exact ⟨share, (hmore share).mpr (.inl hshare), hactive⟩
    | inr huri => exact ⟨call.row p, (hmore _).mpr (.inr rfl), huri, rfl⟩

/-- A new share sets the flag of its URI. -/
theorem shares_agree_create (hcall : createShare p db call = .ok result) (h : SharesAgree uri db) :
    SharesAgree uri result := by
  refine ⟨?_, fun tuple htuple hsource hobject => ?_⟩
  · rw [flagged_create_iff hcall, actively_shared_create_iff hcall, h.flag]
  obtain ⟨row, shares, -, -, -, -, hshares, rfl⟩ := create_share_writes hcall
  cases mem_grant_rights htuple with
  | inl hold =>
      obtain ⟨share, hshare, hrecords⟩ := h.recorded tuple hold hsource hobject
      exact ⟨share, (Table.mem_insert? hshares share).mpr (.inl hshare), hrecords⟩
  | inr hnew =>
      obtain ⟨right, hright, rfl⟩ := hnew
      refine ⟨call.row p, (Table.mem_insert? hshares _).mpr (.inr rfl), rfl, ?_⟩
      simp [ShareRow.records, ShareCall.row, ShareRow.subject, ShareCall.subject, hright]

/-- The active shares after a revocation are those with another id. -/
theorem actively_shared_revoke_iff {call : RevokeCall}
    (hcall : revokeShare p db call = .ok result) :
    ActivelyShared result uri ↔ ∃ other ∈ db.shares, other.id ≠ call.shareId ∧
      other.capabilityUri = uri ∧ other.state = .active := by
  obtain ⟨share, -, -, hshares, -, -⟩ := revoke_share_writes hcall
  constructor
  · intro ⟨other, hother, huri, hactive⟩
    obtain ⟨old, hold, rfl⟩ := (hshares other).mp hother
    by_cases hid : old.id = call.shareId
    · simp [ShareRow.revokedBy, hid] at hactive
    · have hsame : old.revokedBy call.shareId = old := if_neg hid
      rw [hsame] at huri hactive
      exact ⟨old, hold, hid, huri, hactive⟩
  · intro ⟨other, hother, hid, huri, hactive⟩
    have hsame : other.revokedBy call.shareId = other := if_neg hid
    exact ⟨other, (hshares other).mpr ⟨other, hother, hsame⟩, huri, hactive⟩

/-- A revocation leaves the flag. -/
theorem flagged_revoke_iff {call : RevokeCall} (hcall : revokeShare p db call = .ok result) :
    Flagged result uri ↔ Flagged db uri := by
  obtain ⟨share, -, -, -, -, hcapabilities⟩ := revoke_share_writes hcall
  unfold Flagged
  rw [hcapabilities]

theorem shares_agree_revoke {call : RevokeCall} (hcall : revokeShare p db call = .ok result)
    (hkeeps : KeepsFlag p uri db (.revoke call)) (h : SharesAgree uri db) :
    SharesAgree uri result := by
  refine ⟨?_, fun tuple htuple hsource hobject => ?_⟩
  · rw [flagged_revoke_iff hcall, actively_shared_revoke_iff hcall, h.flag]
    refine ⟨fun ⟨share, hshare, huri, hactive⟩ => ?_, fun ⟨other, hother, _, hrest⟩ =>
      ⟨other, hother, hrest⟩⟩
    by_cases hid : share.id = call.shareId
    · exact hkeeps share hshare hid huri hactive
    · exact ⟨share, hshare, hid, huri, hactive⟩
  · obtain ⟨share, hshare, hid, hshares, htuples, -⟩ := revoke_share_writes hcall
    obtain ⟨hold, hunrecorded⟩ := (htuples tuple).mp htuple
    obtain ⟨other, hother, hactive, hrecords⟩ := h.recorded tuple hold hsource hobject
    -- The share that records the tuple is not the revoked one, whose tuples are gone.
    have hne : other.id ≠ call.shareId := by
      intro hsame
      have heq : other = share := Table.eq_of_conflict hother hshare (hsame.trans hid.symm)
      rw [heq, hunrecorded] at hrecords
      cases hrecords
    have hkept : other.revokedBy call.shareId = other := if_neg hne
    exact ⟨other, (hshares other).mpr ⟨other, hother, hkept⟩, hactive, hrecords⟩

theorem incoming_flag (p : Platform) (db : Database) (cap : Capability) :
    (incoming p db cap).contentHash = cap.contentHash ∧
      (incoming p db cap).shareState = cap.shareState := by
  have happly : (applyDefaultUserNamespace p cap).shareState = cap.shareState := by
    unfold applyDefaultUserNamespace
    split
    · rfl
    · dsimp only
      split <;> rfl
  obtain ⟨lifecycle, heq⟩ := incoming_lifecycle p db cap
  rw [heq]
  exact ⟨(apply_default_source cap).2.1, happly⟩

theorem flagged_upsert_iff (hcall : upsertCapability p db cap = .ok (id, result))
    (huri : (applyDefaultUserNamespace p cap).uri = uri) (hunplaced : cap.shareState ≠ .shared) :
    Flagged result uri ↔ ∃ row ∈ db.capabilities, row.cap.uri = uri ∧
      row.cap.contentHash = cap.contentHash ∧ row.cap.shareState = .shared := by
  obtain ⟨table, expected, hwrite, -, -, rfl⟩ := upsert_capability_ok hcall
  obtain ⟨hmem, -, -⟩ := write_row_ok hwrite
  obtain ⟨hhash, hstate⟩ := incoming_flag p db cap
  rw [← incoming_uri p db cap] at huri
  generalize incoming p db cap = target at *
  subst huri
  have hflag : Flagged { db with
      capabilities := table, sources := syncSources db.sources target.uri expected
      fts := syncFts db.fts (target.ftsRow id) } target.uri ↔
        (written (db.capabilityAt target.uri) target).shareState = .shared := by
    refine ⟨fun ⟨x, hx, hxuri, hshared⟩ => ?_, fun h =>
      ⟨_, (hmem _).mpr (.inl rfl), written_uri _ _, h⟩⟩
    cases (hmem x).mp hx with
    | inl hnew =>
        subst hnew
        exact hshared
    | inr hold => exact absurd hxuri hold.2
  rw [hflag]
  cases hat : db.capabilityAt target.uri with
  | none =>
      refine iff_of_false (fun h => hunplaced (hstate ▸ h)) fun ⟨row, hrow, hrowUri, _⟩ => ?_
      exact Database.capability_at_none hat hrow hrowUri
  | some row =>
      obtain ⟨hrow, hrowUri⟩ := Database.capability_at_some hat
      have honly : (∃ other ∈ db.capabilities, other.cap.uri = target.uri ∧
          other.cap.contentHash = cap.contentHash ∧ other.cap.shareState = .shared) ↔
            row.cap.contentHash = cap.contentHash ∧ row.cap.shareState = .shared := by
        refine ⟨fun ⟨other, hother, hotherUri, h⟩ => ?_, fun h => ⟨row, hrow, hrowUri, h⟩⟩
        exact Database.eq_of_uri hother hrow (hotherUri.trans hrowUri.symm) ▸ h
      rw [honly, ← hhash]
      rw [← hstate] at hunplaced
      show mergeState .shared .notShared (decide (row.cap.contentHash = target.contentHash))
        row.cap.shareState target.shareState = .shared ↔ _
      unfold mergeState
      by_cases hsame : row.cap.contentHash = target.contentHash
      · simp [hsame]
      · by_cases hshared : row.cap.shareState = .shared
        · simp [hsame, hshared]
        · simp [hsame, hshared, hunplaced]

theorem flagged_upsert_other (hcall : upsertCapability p db cap = .ok (id, result))
    (huri : (applyDefaultUserNamespace p cap).uri ≠ uri) : Flagged result uri ↔ Flagged db uri := by
  obtain ⟨table, expected, hwrite, -, -, rfl⟩ := upsert_capability_ok hcall
  obtain ⟨hmem, -, -⟩ := write_row_ok hwrite
  rw [← incoming_uri p db cap] at huri
  refine ⟨fun ⟨x, hx, hxuri, hshared⟩ => ?_, fun ⟨x, hx, hxuri, hshared⟩ => ?_⟩
  · cases (hmem x).mp hx with
    | inl hnew =>
        rw [hnew, written_uri] at hxuri
        exact absurd hxuri huri
    | inr hold => exact ⟨x, hold.1, hxuri, hshared⟩
  · exact ⟨x, (hmem x).mpr (.inr ⟨hx, hxuri ▸ huri.symm⟩), hxuri, hshared⟩

theorem upsert_capability_shares (hcall : upsertCapability p db cap = .ok (id, result)) :
    result.shares = db.shares ∧ result.tuples = db.tuples := by
  obtain ⟨table, expected, -, -, -, rfl⟩ := upsert_capability_ok hcall
  exact ⟨rfl, rfl⟩

theorem shares_agree_upsert (hcall : upsertCapability p db cap = .ok (id, result))
    (hunplaced : (FlagCall.upsert cap).Unplaced p uri) (hkeeps : KeepsFlag p uri db (.upsert cap))
    (h : SharesAgree uri db) : SharesAgree uri result := by
  obtain ⟨hshares, htuples⟩ := upsert_capability_shares hcall
  have hactive : ActivelyShared result uri ↔ ActivelyShared db uri := by
    unfold ActivelyShared
    rw [hshares]
  refine ⟨?_, by rw [hshares, htuples]; exact h.recorded⟩
  rw [hactive, ← h.flag]
  by_cases huri : (applyDefaultUserNamespace p cap).uri = uri
  · rw [flagged_upsert_iff hcall huri (hunplaced huri)]
    refine ⟨fun ⟨row, hrow, hrowUri, _, hshared⟩ => ⟨row, hrow, hrowUri, hshared⟩, fun hflag => ?_⟩
    obtain ⟨row, hrow, hrowUri, hshared⟩ := hflag
    refine ⟨row, hrow, hrowUri, Classical.byContradiction fun hchanged => ?_, hshared⟩
    exact hkeeps huri row hrow hrowUri hchanged (h.flag.mp ⟨row, hrow, hrowUri, hshared⟩)
  · exact flagged_upsert_other hcall huri

/-- Every call that meets the condition keeps the three records in agreement. -/
theorem shares_agree_step {call : FlagCall} (hunplaced : call.Unplaced p uri)
    (hkeeps : KeepsFlag p uri db call) (h : SharesAgree uri db) :
    SharesAgree uri (flagStep p db call) := by
  unfold flagStep
  cases hresult : call.result p db with
  | error failure => exact h
  | ok result =>
      cases call with
      | create call => exact shares_agree_create hresult h
      | revoke call => exact shares_agree_revoke hresult hkeeps h
      | upsert cap =>
          obtain ⟨⟨id, result⟩, hupsert, rfl⟩ := map_eq_ok hresult
          exact shares_agree_upsert hupsert hunplaced hkeeps h

theorem flag_disagrees_step {call : FlagCall} (hunplaced : call.Unplaced p uri)
    (hresult : call.result p db = .ok result) (hbreaks : ¬ KeepsFlag p uri db call)
    (h : SharesAgree uri db) : ¬ (Flagged result uri ↔ ActivelyShared result uri) := by
  intro hagrees
  cases call with
  | create call => exact hbreaks trivial
  | revoke call =>
      rw [flagged_revoke_iff hresult, actively_shared_revoke_iff hresult] at hagrees
      exact hbreaks fun share hshare _ huri hactive =>
        hagrees.mp (h.flag.mpr ⟨share, hshare, huri, hactive⟩)
  | upsert cap =>
      obtain ⟨⟨id, result⟩, hupsert, rfl⟩ := map_eq_ok hresult
      refine hbreaks fun huri row hrow hrowUri hchanged hactive => ?_
      obtain ⟨hshares, -⟩ := upsert_capability_shares hupsert
      have hafter : ActivelyShared result uri := by
        unfold ActivelyShared
        rw [hshares]
        exact hactive
      obtain ⟨other, hother, hotherUri, hsame, -⟩ :=
        (flagged_upsert_iff hupsert huri (hunplaced huri)).mp (hagrees.mpr hafter)
      rw [Database.eq_of_uri hother hrow (hotherUri.trans hrowUri.symm)] at hsame
      exact hchanged hsame

end

/-- In a run that revokes no last active share of a URI and changes no content under an active
share, the flag, the shares and their tuples agree after every call, and an unset flag means that no
share gives anything. A call that succeeds and does not keep to this ends the agreement. -/
theorem share_flag_agrees (p : Platform) (uri : String) (start : Database)
    (calls : List FlagCall) (hstart : SharesAgree uri start)
    (hunplaced : ∀ call ∈ calls, call.Unplaced p uri)
    (hcalls : Along (flagStep p) (KeepsFlag p uri) start calls) :
    (∀ earlier later, calls = earlier ++ later →
      SharesAgree uri (run (flagStep p) start earlier) ∧
        (¬ Flagged (run (flagStep p) start earlier) uri →
          NothingShared uri (run (flagStep p) start earlier))) ∧
    ∀ call result, call.Unplaced p uri →
      call.result p (run (flagStep p) start calls) = .ok result →
      ¬ KeepsFlag p uri (run (flagStep p) start calls) call →
      ¬ (Flagged result uri ↔ ActivelyShared result uri) := by
  have hagree : ∀ earlier later, calls = earlier ++ later →
      SharesAgree uri (run (flagStep p) start earlier) := by
    intro earlier later hsplit
    subst hsplit
    have hfirst := ((along_append start earlier later).mp hcalls).1
    have hboth : Along (flagStep p) (fun db call => call.Unplaced p uri ∧ KeepsFlag p uri db call)
        start earlier := by
      refine (along_iff start earlier).mpr fun first call second hearlier => ⟨?_, ?_⟩
      · exact hunplaced call (by simp [hearlier])
      · exact (along_iff start earlier).mp hfirst first call second hearlier
    exact run_invariant_along (fun db call hcall => shares_agree_step hcall.1 hcall.2) hboth hstart
  refine ⟨fun earlier later hsplit => ?_, fun call result hcall hresult hbreaks => ?_⟩
  · have hearlier := hagree earlier later hsplit
    exact ⟨hearlier, nothing_shared_of_agree hearlier⟩
  · exact flag_disagrees_step hcall hresult hbreaks (hagree calls [] (by simp))

/-- The notes skill in the namespace of its owner. -/
def privateNotes (contentHash : String) : Capability :=
  { notesSkill contentHash with
    uri := "cap://user/asg/alice/notes@0-1-0", owner := "alice", visibility := .protected }

/-- A catalog with that capability. -/
def privateCatalog : Database :=
  { Database.empty with
    capabilities := ⟨[⟨1, (privateNotes "sha256:v1").stored⟩], List.pairwise_singleton _ _⟩ }

/-- Its owner shares the skill. -/
def sharePrivate (shareId subjectId : String) : FlagCall :=
  .create { principal := { subject := "alice", tenantId := "asg" }
            capabilityUri := "cap://user/asg/alice/notes@0-1-0", rights := ["load"]
            subjectId, access := ⟨true, ""⟩, grant := fun _ => ⟨true, ""⟩, shareId
            tupleIds := ((shareId ++ "_") ++ ·) }

/-- Its owner takes a share back. -/
def revokePrivate (shareId : String) : FlagCall :=
  .revoke ⟨{ subject := "alice", tenantId := "asg" }, shareId, ⟨true, ""⟩⟩

theorem private_catalog_agrees :
    SharesAgree "cap://user/asg/alice/notes@0-1-0" privateCatalog where
  flag := iff_of_false (by decide +kernel) (by decide +kernel)
  recorded tuple htuple := absurd htuple (Table.not_mem_empty tuple)

/-- A revoked share leaves the flag; changed content leaves the share, and with it the right to the
new content. -/
theorem share_flag_counterexample :
    (¬ ∀ (p : Platform) (uri : String) (start : Database) (calls : List FlagCall),
      SharesAgree uri start → (∀ call ∈ calls, call.Unplaced p uri) →
      (Flagged (run (flagStep p) start calls) uri ↔
        ActivelyShared (run (flagStep p) start calls) uri)) ∧
    ¬ ∀ (p : Platform) (uri : String) (start : Database) (calls : List FlagCall),
      SharesAgree uri start → (∀ call ∈ calls, call.Unplaced p uri) →
      ¬ Flagged (run (flagStep p) start calls) uri →
      NothingShared uri (run (flagStep p) start calls) := by
  refine ⟨fun hclaim => ?_, fun hclaim => ?_⟩
  · have hagrees := hclaim .sample _ _ [sharePrivate "shr_1" "bob", revokePrivate "shr_1"]
      private_catalog_agrees (by simp [sharePrivate, revokePrivate, FlagCall.Unplaced])
    exact absurd (hagrees.mp (by decide +kernel)) (by decide +kernel)
  · have hnothing := hclaim .sample _ _
      [sharePrivate "shr_1" "bob", .upsert (privateNotes "sha256:v2")] private_catalog_agrees
      (by simp [sharePrivate, FlagCall.Unplaced, privateNotes, notesSkill]) (by decide +kernel)
    have hgrants : shareGrant (run (flagStep .sample) privateCatalog
        [sharePrivate "shr_1" "bob", .upsert (privateNotes "sha256:v2")]).shares
        "2026-01-01 00:00:00" "asg" ["user:bob"] "cap://user/asg/alice/notes@0-1-0" "load" =
          true := by decide +kernel
    exact Bool.false_ne_true ((hnothing.1 _ _ _ _).symm.trans hgrants)

/-- The owner shares with two users, the skill is ingested again as it is, and one share is taken
back. -/
theorem share_flag_agrees_two :
    SharesAgree "cap://user/asg/alice/notes@0-1-0" (run (flagStep .sample) privateCatalog
      [sharePrivate "shr_1" "bob", sharePrivate "shr_2" "carol",
        .upsert (privateNotes "sha256:v1"), revokePrivate "shr_1"]) := by
  refine ((share_flag_agrees .sample _ privateCatalog [sharePrivate "shr_1" "bob",
    sharePrivate "shr_2" "carol", .upsert (privateNotes "sha256:v1"), revokePrivate "shr_1"]
    private_catalog_agrees ?_ ?_).1 _ [] rfl).1
  · simp [sharePrivate, revokePrivate, FlagCall.Unplaced, privateNotes, notesSkill]
  · refine ⟨trivial, trivial, fun _ => ?_, ?_, trivial⟩
    · show ∀ row ∈ (run (flagStep .sample) privateCatalog [sharePrivate "shr_1" "bob",
        sharePrivate "shr_2" "carol"]).capabilities.rows, row.cap.uri = _ →
          row.cap.contentHash ≠ "sha256:v1" → ¬ ActivelyShared _ _
      have hsame : ∀ row ∈ (run (flagStep .sample) privateCatalog [sharePrivate "shr_1" "bob",
          sharePrivate "shr_2" "carol"]).capabilities.rows,
          row.cap.contentHash = "sha256:v1" := by decide +kernel
      exact fun row hrow _ hchanged => absurd (hsame row hrow) hchanged
    · have hother : ∃ other ∈ (run (flagStep .sample) privateCatalog [sharePrivate "shr_1" "bob",
          sharePrivate "shr_2" "carol", .upsert (privateNotes "sha256:v1")]).shares.rows,
          other.id ≠ "shr_1" ∧ other.capabilityUri = "cap://user/asg/alice/notes@0-1-0" ∧
            other.state = .active := by decide +kernel
      exact fun _ _ _ _ _ => hother

end Capmesh
