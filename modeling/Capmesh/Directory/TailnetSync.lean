import Capmesh.Directory.Identities
import Capmesh.Execution.Run

/-!
# The tailnet sync

`run` of `tailscale_sync.py` from the snapshot it fetched: its users become identities, and its
ACL groups become groups with members. A login that only the ACL names gets a thin identity, and
the loops pass on the identity of every login. `upsertGroupFromTailnet` adds the members a group
lacks and prunes those it no longer has; `mem_sync_members` says what is left.
-/

namespace Capmesh

open Python Relational Execution

/-- A row of `groups`. -/
structure GroupRow where
  id : String
  tenantId : String
  externalId : Option String
  displayName : String
  active : Bool
  rawJson : Json
  updatedAt : String

/-- The primary key, `UNIQUE(tenant_id, display_name)` and `UNIQUE(tenant_id, external_id)`. -/
instance : Constrained GroupRow where
  Conflict a b := a.id = b.id ∨ a.tenantId = b.tenantId ∧
    (a.displayName = b.displayName ∨ a.externalId.isSome ∧ a.externalId = b.externalId)
  symm h := by
    rcases h with h | ⟨htenant, h | ⟨hsome, h⟩⟩
    · exact .inl h.symm
    · exact .inr ⟨htenant.symm, .inl h.symm⟩
    · exact .inr ⟨htenant.symm, .inr ⟨h ▸ hsome, h.symm⟩⟩

theorem group_conflict_of_id (a b : GroupRow) (h : a.id = b.id) : Constrained.Conflict a b :=
  .inl h

/-- A row of `group_members`. -/
structure GroupMember where
  groupId : String
  identityId : String
  source : String := "scim"
  deriving DecidableEq, Repr

/-- `PRIMARY KEY(group_id, identity_id)`. -/
instance : Constrained GroupMember where
  Conflict a b := a.groupId = b.groupId ∧ a.identityId = b.identityId
  symm h := ⟨h.1.symm, h.2.symm⟩

/-- The tables the sync writes. -/
structure TailnetTables where
  identities : Table IdentityRow
  groups : Table GroupRow
  members : Table GroupMember

/-- A member of the sync's own. -/
def tailnetMember (groupId identityId : String) : GroupMember := ⟨groupId, identityId, "tailscale"⟩

/-- Whether the raw record of a row is the sync's. -/
def isTailnetRecord (rawJson : Json) : Bool := rawJson.field "source" = some (.str "tailscale")

/-- `tag_to_group`. -/
def tagToGroup (p : Platform) (tsName : String) : String :=
  let trimmed := p.stripSpace tsName
  let tagged := if startsWith trimmed "tag:" then removePrefix trimmed "tag:"
    else removePrefix trimmed "group:"
  let name := String.ofList (strip (· = ':') (p.stripSpace tagged).toList)
  if trimmed = "" || name = "" then p.defaultTenant ++ ":tailnet"
  else if startsWith name (p.defaultTenant ++ ":") then name
  else p.defaultTenant ++ ":" ++ name

/-- The identities a group is to have and lacks, and those it has and is not to have, of the members
that are the sync's own. -/
def memberDiff (members : Table GroupMember) (groupId : String) (memberIds : List String) :
    List String × List String :=
  let desired := memberIds.dedup
  let existing := (members.rows.filter fun member =>
    member.groupId = groupId && member.source = "tailscale").map (·.identityId)
  (desired.filter (!existing.contains ·), existing.filter (!desired.contains ·))

/-- The members of a group after its diff. -/
def syncMembers (members : Table GroupMember) (groupId : String) (memberIds : List String) :
    Table GroupMember :=
  let (added, pruned) := memberDiff members groupId memberIds
  (members.insertAll (added.map (tailnetMember groupId))).filter fun member =>
    !(member.groupId = groupId && pruned.contains member.identityId &&
      member.source = "tailscale")

/-- `upsert_group_from_tailnet`: the tables, and how many members it added and pruned. -/
def upsertGroupFromTailnet (p : Platform) (tables : TailnetTables)
    (tenant externalId displayName : String) (memberIds : List String) (now : String) :
    Except Failure (TailnetTables × Nat × Nat) := do
  let groupId := p.stableId "grp" [tenant, orElse externalId displayName]
  let row : GroupRow :=
    { id := groupId, tenantId := tenant, externalId := some (orElse externalId groupId)
      displayName, active := true, updatedAt := now
      rawJson := .obj [("source", .str "tailscale"), ("tsGroup", .str externalId)] }
  let groups ← constrained "groups"
    (tables.groups.upsert? (·.id) row fun old => { row with tenantId := old.tenantId })
  let (added, pruned) := memberDiff tables.members groupId memberIds
  pure ({ tables with groups, members := syncMembers tables.members groupId memberIds },
    added.length, pruned.length)

/-- A user of the tailnet, as the API lists it. -/
structure TailnetUser where
  loginName : Option String := none
  login : Option String := none
  id : Option String := none
  displayName : Option String := none
  type : Option String := none
  status : Option String := none
  deriving DecidableEq, Repr

/-- A group of the tailnet's ACL. -/
structure AclGroup where
  name : String
  members : List String
  deriving DecidableEq, Repr

/-- What the API returned. -/
structure TailnetSnapshot where
  users : List TailnetUser
  groups : List AclGroup
  deriving DecidableEq, Repr

/-- The statuses of a user who may no longer sign in. -/
def inactiveStatuses : List String := ["suspended", "removed", "deactivated", "disabled"]

namespace TailnetUser

variable (p : Platform) (tenant : String) (user : TailnetUser)

/-- The login, without surrounding space and in lower case. -/
def loginText : String := p.lower (p.stripSpace (optOr user.loginName (optOr user.login "")))

/-- Whether the status lets the user sign in. -/
def isActive : Bool := !inactiveStatuses.contains (p.lower (optOr user.status "active"))

/-- The arguments of the user's upsert. -/
def identity : TailnetIdentity where
  tenantId := tenant
  externalId := optOr user.id (user.loginText p)
  loginName := user.loginText p
  displayName := some (optOr user.displayName (user.loginText p))
  tsType := optOr user.type "member"
  active := user.isActive p

/-- The identity of a user. -/
def identityId : String := (user.identity p tenant).identityId p

end TailnetUser

/-- The arguments of the upsert of a login that only the ACL names. -/
def thinIdentity (tenant login : String) : TailnetIdentity where
  tenantId := tenant
  externalId := login
  loginName := login
  displayName := some login
  active := true

/-- The counts of `run`. -/
structure SyncSummary where
  usersSeen : Nat
  groupsSeen : Nat
  usersUpserted : Nat := 0
  usersDeactivated : Nat := 0
  groupsUpserted : Nat := 0
  groupMembersAdded : Nat := 0
  groupMembersPruned : Nat := 0
  deriving DecidableEq, Repr

/-- A sync in progress: the tables, the identity of each login with the latest first, and the
counts. -/
structure SyncState where
  tables : TailnetTables
  logins : List (String × String)
  summary : SyncSummary

section

variable (p : Platform) (tenant now : String) (dryRun : Bool)

/-- One turn of the loop over the users. -/
def syncUser (state : SyncState) (user : TailnetUser) : Except Failure SyncState :=
  let login := user.loginText p
  let identity := user.identity p tenant
  let counted := fun deactivated : Bool =>
    { state.summary with
      usersUpserted := state.summary.usersUpserted + 1
      usersDeactivated := state.summary.usersDeactivated + if deactivated then 1 else 0 }
  if login = "" then .ok state
  else if dryRun then
    .ok { state with
      logins := (login, p.stableId "idn" [tenant, identity.externalId]) :: state.logins
      summary := counted !identity.active }
  else do
    let wasActive := state.tables.identities.any fun row =>
      row.id = identity.identityId p && row.active
    let identities ← upsertIdentityFromTailnet p state.tables.identities identity now
    pure
      { tables := { state.tables with identities }
        logins := (login, identity.identityId p) :: state.logins
        summary := counted (wasActive && !identity.active) }

/-- One member of an ACL group, with the identities found so far. -/
def syncMember (progress : SyncState × List String) (member : String) :
    Except Failure (SyncState × List String) :=
  let (state, memberIds) := progress
  let login := p.lower (p.stripSpace member)
  if startsWith login "group:" then .ok progress
  else match state.logins.lookup login with
    | some identityId => .ok (state, memberIds ++ [identityId])
    | none =>
        if dryRun then
          let identityId := p.stableId "idn" [tenant, login]
          .ok ({ state with logins := (login, identityId) :: state.logins },
            memberIds ++ [identityId])
        else do
          let identityId := (thinIdentity tenant login).identityId p
          let identities ← upsertIdentityFromTailnet p state.tables.identities
            (thinIdentity tenant login) now
          pure
            ({ state with
                tables := { state.tables with identities }
                logins := (login, identityId) :: state.logins },
              memberIds ++ [identityId])

/-- One turn of the loop over the ACL groups. -/
def syncGroup (state : SyncState) (group : AclGroup) : Except Failure SyncState := do
  let (state, memberIds) ← group.members.foldlM (syncMember p tenant now dryRun) (state, [])
  let counted := fun added pruned =>
    { state.summary with
      groupsUpserted := state.summary.groupsUpserted + 1
      groupMembersAdded := state.summary.groupMembersAdded + added
      groupMembersPruned := state.summary.groupMembersPruned + pruned }
  if dryRun then pure { state with summary := counted memberIds.length 0 }
  else
    let (tables, added, pruned) ← upsertGroupFromTailnet p state.tables tenant group.name
      (tagToGroup p group.name) memberIds now
    pure { state with tables, summary := counted added pruned }

/-- `run`, from the snapshot it fetched. -/
def tailnetSync (snapshot : TailnetSnapshot) (tables : TailnetTables) :
    Except Failure (TailnetTables × SyncSummary) := do
  let summary : SyncSummary :=
    { usersSeen := snapshot.users.length, groupsSeen := snapshot.groups.length }
  let state ← snapshot.users.foldlM (syncUser p tenant now dryRun) ⟨tables, [], summary⟩
  let state ← snapshot.groups.foldlM (syncGroup p tenant now dryRun) state
  pure (state.tables, state.summary)

end

section

variable {p : Platform} {tenant now groupId : String} {members : Table GroupMember}
variable {memberIds : List String}

theorem mem_member_diff (identityId : String) :
    (identityId ∈ (memberDiff members groupId memberIds).1 ↔
      identityId ∈ memberIds ∧ tailnetMember groupId identityId ∉ members) ∧
    (identityId ∈ (memberDiff members groupId memberIds).2 ↔
      tailnetMember groupId identityId ∈ members ∧ identityId ∉ memberIds) := by
  have hexisting : identityId ∈ ((members.rows.filter fun member =>
      member.groupId = groupId && member.source = "tailscale").map (·.identityId)) ↔
      tailnetMember groupId identityId ∈ members := by
    simp only [List.mem_map, List.mem_filter, Bool.and_eq_true, decide_eq_true_eq]
    constructor
    · rintro ⟨⟨_, _, _⟩, ⟨hmember, rfl, rfl⟩, rfl⟩
      exact hmember
    · exact fun h => ⟨_, ⟨h, rfl, rfl⟩, rfl⟩
  simp only [memberDiff, List.mem_filter, List.mem_dedup, List.contains_eq_mem, Bool.not_eq_true',
    decide_eq_false_iff_not, hexisting, and_self]

theorem mem_sync_members (member : GroupMember) :
    member ∈ syncMembers members groupId memberIds ↔
      if member.source = "tailscale" ∧ member.groupId = groupId then
        member.identityId ∈ memberIds ∧ ∀ other ∈ members, other.groupId = groupId →
          other.identityId = member.identityId → other.source = "tailscale"
      else member ∈ members := by
  have hrows : ∀ a ∈ (memberDiff members groupId memberIds).1.map (tailnetMember groupId),
      ∀ b ∈ (memberDiff members groupId memberIds).1.map (tailnetMember groupId),
      Constrained.Conflict a b → a = b := by
    intro a ha b hb hconflict
    obtain ⟨first, -, rfl⟩ := List.mem_map.mp ha
    obtain ⟨second, -, rfl⟩ := List.mem_map.mp hb
    rw [show first = second from hconflict.2]
  have hmem : member ∈ syncMembers members groupId memberIds ↔
      (member ∈ members ∨ (∃ identityId, (identityId ∈ memberIds ∧
          tailnetMember groupId identityId ∉ members) ∧ tailnetMember groupId identityId = member) ∧
        ∀ other ∈ members, ¬ Constrained.Conflict other member) ∧
      ¬ ((member.groupId = groupId ∧ tailnetMember groupId member.identityId ∈ members ∧
        member.identityId ∉ memberIds) ∧ member.source = "tailscale") := by
    simp only [syncMembers, Table.mem_filter, Table.mem_insertAll hrows, List.mem_map,
      mem_member_diff, List.contains_eq_mem, Bool.not_eq_true', ← Bool.not_eq_true,
      Bool.and_eq_true, decide_eq_true_eq]
  rw [hmem]
  split
  · rename_i hown
    obtain ⟨group, identityId, source⟩ := member
    obtain ⟨rfl, rfl⟩ := hown
    constructor
    · rintro ⟨hmember | ⟨⟨_, ⟨hwanted, -⟩, heq⟩, hfree⟩, hkept⟩
      · refine ⟨?_, fun other hother hgroup hidentity => ?_⟩
        · by_contra hunwanted
          exact hkept ⟨⟨rfl, hmember, hunwanted⟩, rfl⟩
        · rw [Table.eq_of_conflict hother hmember ⟨hgroup, hidentity⟩]
      · cases heq
        exact ⟨hwanted, fun other hother hgroup hidentity =>
          absurd ⟨hgroup, hidentity⟩ (hfree other hother)⟩
    · rintro ⟨hwanted, hothers⟩
      refine ⟨?_, fun hpruned => hpruned.1.2.2 hwanted⟩
      by_cases hmember : tailnetMember group identityId ∈ members
      · exact .inl hmember
      · refine .inr ⟨⟨identityId, ⟨hwanted, hmember⟩, rfl⟩, fun other hother hconflict => ?_⟩
        -- A row with this key is the sync's own, and so the row itself.
        obtain ⟨otherGroup, otherIdentity, otherSource⟩ := other
        obtain ⟨rfl, rfl⟩ := hconflict
        cases hothers _ hother rfl rfl
        exact hmember hother
  · rename_i hother
    constructor
    · rintro ⟨hmember | ⟨⟨_, -, rfl⟩, -⟩, -⟩
      · exact hmember
      · exact absurd ⟨rfl, rfl⟩ hother
    · exact fun hmember => ⟨.inl hmember, fun hpruned => hother ⟨hpruned.2, hpruned.1.1⟩⟩

/-- What a dry run may foretell: it cannot know who was active, and which members a group has. -/
structure SyncSummary.Foretold (summary foretold : SyncSummary) : Prop where
  usersSeen : summary.usersSeen = foretold.usersSeen
  groupsSeen : summary.groupsSeen = foretold.groupsSeen
  usersUpserted : summary.usersUpserted = foretold.usersUpserted
  usersDeactivated : summary.usersDeactivated ≤ foretold.usersDeactivated
  groupsUpserted : summary.groupsUpserted = foretold.groupsUpserted
  groupMembersAdded : summary.groupMembersAdded ≤ foretold.groupMembersAdded
  noPruned : foretold.groupMembersPruned = 0

/-- A dry run beside a sync: it knows the same identities. -/
def Foretells (dry sync : SyncState) : Prop :=
  dry.logins = sync.logins ∧ sync.summary.Foretold dry.summary

theorem user_identity (user : TailnetUser) (h : user.loginText p ≠ "") :
    (user.identity p tenant).identityId p =
      p.stableId "idn" [tenant, (user.identity p tenant).externalId] := by
  have hid : optOr user.id (user.loginText p) ≠ "" := by
    cases user.id with
    | none => exact h
    | some id => exact or_else_ne id h
  exact congrArg (fun text => p.stableId "idn" [tenant, text]) (or_else_of_ne _ hid)

theorem thin_identity (login : String) :
    (thinIdentity tenant login).identityId p = p.stableId "idn" [tenant, login] := by
  have hid : orElse login (p.lower (p.stripSpace login)) = login := by
    by_cases hlogin : login = ""
    · rw [hlogin]
      rfl
    · exact or_else_of_ne _ hlogin
  exact congrArg (fun text => p.stableId "idn" [tenant, text]) hid

theorem sync_user_foretold (p : Platform) (tenant now : String) (dry : SyncState) (user : TailnetUser) :
    ∃ next, syncUser p tenant now true dry user = .ok next ∧ next.tables = dry.tables ∧
      ∀ before after, Foretells dry before → syncUser p tenant now false before user = .ok after →
        Foretells next after := by
  unfold syncUser
  by_cases hlogin : user.loginText p = ""
  · simp only [if_pos hlogin]
    refine ⟨dry, rfl, rfl, fun before after hbefore hturn => ?_⟩
    cases hturn
    exact hbefore
  · simp only [if_neg hlogin, if_true, Bool.false_eq_true, if_false]
    refine ⟨_, rfl, rfl, fun before after hbefore hturn => ?_⟩
    obtain ⟨hlogins, hsummary⟩ := hbefore
    obtain ⟨identities, -, hturn⟩ := bind_eq_ok hturn
    cases hturn
    rw [user_identity user hlogin]
    refine ⟨by rw [hlogins], { hsummary with
      usersUpserted := congrArg (· + 1) hsummary.usersUpserted
      usersDeactivated := Nat.add_le_add hsummary.usersDeactivated ?_ }⟩
    cases (user.identity p tenant).active <;> simp
    split <;> decide

theorem sync_member_foretold (p : Platform) (tenant now : String)
    (dry : SyncState × List String) (member : String) :
    ∃ next, syncMember p tenant now true dry member = .ok next ∧ next.1.tables = dry.1.tables ∧
      ∀ before after, Foretells dry.1 before.1 ∧ dry.2 = before.2 →
        syncMember p tenant now false before member = .ok after →
        Foretells next.1 after.1 ∧ next.2 = after.2 := by
  obtain ⟨state, memberIds⟩ := dry
  unfold syncMember
  dsimp only
  split
  · refine ⟨_, rfl, rfl, fun before after hbefore hturn => ?_⟩
    cases hturn
    exact hbefore
  · cases hlookup : state.logins.lookup (p.lower (p.stripSpace member)) with
    | some identityId =>
        refine ⟨_, rfl, rfl, fun before after hbefore hturn => ?_⟩
        obtain ⟨⟨hlogins, hsummary⟩, hids⟩ := hbefore
        rw [← hlogins, hlookup] at hturn
        cases hturn
        exact ⟨⟨hlogins, hsummary⟩, by rw [hids]⟩
    | none =>
        refine ⟨_, rfl, rfl, fun before after hbefore hturn => ?_⟩
        obtain ⟨⟨hlogins, hsummary⟩, hids⟩ := hbefore
        rw [← hlogins, hlookup] at hturn
        simp only [Bool.false_eq_true, if_false, thin_identity] at hturn
        obtain ⟨identities, -, hturn⟩ := bind_eq_ok hturn
        cases hturn
        exact ⟨⟨rfl, hsummary⟩, by rw [hids]⟩

theorem sync_group_foretold (p : Platform) (tenant now : String) (dry : SyncState)
    (group : AclGroup) :
    ∃ next, syncGroup p tenant now true dry group = .ok next ∧ next.tables = dry.tables ∧
      ∀ before after, Foretells dry before → syncGroup p tenant now false before group = .ok after →
        Foretells next after := by
  obtain ⟨⟨state, memberIds⟩, hmembers, htables, hforetold⟩ :=
    fold_foretold (·.1.tables) (sync_member_foretold p tenant now) group.members (dry, [])
  unfold syncGroup
  rw [hmembers]
  refine ⟨_, rfl, htables, fun before after hbefore hturn => ?_⟩
  obtain ⟨⟨after, otherIds⟩, hloop, hturn⟩ := bind_eq_ok hturn
  obtain ⟨⟨hlogins, hsummary⟩, rfl⟩ := hforetold (before, []) _ ⟨hbefore, rfl⟩ hloop
  obtain ⟨⟨tables, added, pruned⟩, hgroup, hturn⟩ := bind_eq_ok hturn
  cases hturn
  obtain ⟨groups, -, hgroup⟩ := bind_eq_ok hgroup
  cases hgroup
  refine ⟨hlogins, { hsummary with
    groupsUpserted := congrArg (· + 1) hsummary.groupsUpserted
    groupMembersAdded := Nat.add_le_add hsummary.groupMembersAdded ?_ }⟩
  exact (List.length_filter_le _ _).trans (List.dedup_sublist _).length_le

/-- A dry run never fails and writes nothing, and a sync that succeeds has the counts that the dry
run foretold. -/
theorem tailnet_sync_dry_run (p : Platform) (tenant now : String) (snapshot : TailnetSnapshot)
    (before : TailnetTables) :
    ∃ foretold, tailnetSync p tenant now true snapshot before = .ok (before, foretold) ∧
      ∀ after summary, tailnetSync p tenant now false snapshot before = .ok (after, summary) →
        summary.Foretold foretold := by
  let start : SyncState :=
    ⟨before, [], { usersSeen := snapshot.users.length, groupsSeen := snapshot.groups.length }⟩
  have hstart : Foretells start start := ⟨rfl, rfl, rfl, rfl, le_rfl, rfl, le_rfl, rfl⟩
  obtain ⟨middle, husers, hmiddle, hforetold⟩ :=
    fold_foretold (·.tables) (sync_user_foretold p tenant now) snapshot.users start
  obtain ⟨final, hgroups, hfinal, hrest⟩ :=
    fold_foretold (·.tables) (sync_group_foretold p tenant now) snapshot.groups middle
  have htables : final.tables = before := hfinal.trans hmiddle
  refine ⟨final.summary, ?_, fun after summary h => ?_⟩
  · unfold tailnetSync
    dsimp only
    rw [husers]
    show (do
      let state ← snapshot.groups.foldlM (syncGroup p tenant now true) middle
      pure (state.tables, state.summary)) = _
    rw [hgroups, ← htables]
    rfl
  · obtain ⟨users, hloop, h⟩ := bind_eq_ok h
    obtain ⟨groups, hgroup, h⟩ := bind_eq_ok h
    cases h
    exact (hrest users groups (hforetold start users hstart hloop) hgroup).2

end

end Capmesh
