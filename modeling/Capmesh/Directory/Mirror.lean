import Capmesh.Directory.TailnetSync

/-!
# What the tailnet sync mirrors

A sync writes the users and groups of its snapshot, and looks at nothing else: an identity whose
user left the tailnet, and a group that left the ACL, stay as they are. `UsersDone`, `LoginsDone`
and `GroupsDone` say what each loop has left so far, and `tailnet_sync_done` what the whole sync
leaves. `tailnet_sync_mirrors_iff` is the exact condition under which that mirrors the snapshot.
-/

namespace Capmesh

open Python Relational Execution

/-- Whether an identity is the sync's. -/
def IdentityRow.isTailnet (row : IdentityRow) : Bool := isTailnetRecord row.rawJson

/-- Whether a group is the sync's. -/
def GroupRow.isTailnet (group : GroupRow) : Bool := isTailnetRecord group.rawJson

/-- Whether an identity is active, and whether it is the sync's. -/
def IdentityRow.standing (row : IdentityRow) : Bool × Bool := (row.active, row.isTailnet)

section

variable (p : Platform) (tenant : String) (users : List TailnetUser)

/-- The users the sync does not skip. -/
def namedUsers : List TailnetUser := users.filter (·.loginText p ≠ "")

/-- The identity of each login that a user has, the last user first. -/
def userLogins : List (String × String) :=
  ((namedUsers p users).map fun user => (user.loginText p, user.identityId p tenant)).reverse

/-- The identity of a login that only the ACL names. -/
def thinId (login : String) : String := (thinIdentity tenant login).identityId p

/-- The identity of a login. -/
def identityOf (login : String) : String :=
  ((userLogins p tenant users).lookup login).getD (thinId p tenant login)

/-- An active user has this identity. -/
def ListsActive (identityId : String) : Prop :=
  ∃ user ∈ users, user.isActive p = true ∧ user.identityId p tenant = identityId

instance (identityId : String) : Decidable (ListsActive p tenant users identityId) :=
  inferInstanceAs (Decidable (∃ user ∈ users, _))

/-- The stored group of an ACL group. -/
def AclGroup.groupId (group : AclGroup) : String :=
  p.stableId "grp" [tenant, orElse group.name (tagToGroup p group.name)]

/-- The login a member of an ACL group names, or none when it is a nested group. -/
def memberLogin (member : String) : List String :=
  if startsWith (p.lower (p.stripSpace member)) "group:" then []
  else [p.lower (p.stripSpace member)]

/-- The logins of an ACL group. -/
def AclGroup.logins (group : AclGroup) : List String := group.members.flatMap (memberLogin p)

/-- The identities the ACL gives a group. -/
def AclGroup.memberIds (group : AclGroup) : List String :=
  (group.logins p).map (identityOf p tenant users)

/-- What the ACL gives each stored group, the last ACL group first. -/
def givenMembers (groups : List AclGroup) : List (String × List String) :=
  (groups.map fun group => (group.groupId p tenant, group.memberIds p tenant users)).reverse

end

/-- No other source than the sync made an identity a member of a group. -/
def Unclaimed (members : Table GroupMember) (groupId identityId : String) : Prop :=
  ∀ member ∈ members, member.groupId = groupId → member.identityId = identityId →
    member.source = "tailscale"

/-- The tables after a sync mirror its snapshot. -/
structure Mirrors (p : Platform) (tenant : String) (snapshot : TailnetSnapshot)
    (before after : TailnetTables) : Prop where
  /-- An identity of the sync that no active user has is inactive. -/
  identities : ∀ row ∈ after.identities, row.isTailnet = true →
    ¬ ListsActive p tenant snapshot.users row.id → row.active = false
  /-- A group of the sync has the members the ACL gives it. -/
  members : ∀ group ∈ after.groups, group.isTailnet = true → ∀ identityId,
    tailnetMember group.id identityId ∈ after.members ↔
      ∃ acl ∈ snapshot.groups, acl.groupId p tenant = group.id ∧
        identityId ∈ acl.memberIds p tenant snapshot.users
  /-- The members of other sources are untouched. -/
  others : ∀ member : GroupMember, member.source ≠ "tailscale" →
    (member ∈ after.members ↔ member ∈ before.members)

/-- Nothing a sync leaves alone, or writes over, keeps the tables from mirroring the snapshot. -/
structure CanMirror (p : Platform) (tenant : String) (snapshot : TailnetSnapshot)
    (before : TailnetTables) : Prop where
  /-- The identities of users that are gone are inactive. -/
  gone : ∀ row ∈ before.identities, row.isTailnet = true →
    (∀ user ∈ namedUsers p snapshot.users, user.identityId p tenant ≠ row.id) →
    ¬ ListsActive p tenant snapshot.users row.id → row.active = false
  /-- A login that only the ACL names is the id of an active user. -/
  unlisted : ∀ acl ∈ snapshot.groups, ∀ login ∈ acl.logins p,
    (∀ user ∈ namedUsers p snapshot.users, user.loginText p ≠ login) →
    ListsActive p tenant snapshot.users (thinId p tenant login)
  /-- The groups that are gone have no members of the sync's. -/
  dropped : ∀ group ∈ before.groups, group.isTailnet = true →
    (∀ acl ∈ snapshot.groups, acl.groupId p tenant ≠ group.id) →
    ∀ identityId, tailnetMember group.id identityId ∉ before.members
  /-- No other source made a member of one that the ACL gives, -/
  unclaimed : ∀ acl ∈ snapshot.groups, ∀ identityId ∈ acl.memberIds p tenant snapshot.users,
    Unclaimed before.members (acl.groupId p tenant) identityId
  /-- and the last ACL group with its stored group gives it too. -/
  unshadowed : ∀ acl ∈ snapshot.groups, ∀ identityId ∈ acl.memberIds p tenant snapshot.users,
    ∃ memberIds, (givenMembers p tenant snapshot.users snapshot.groups).lookup
      (acl.groupId p tenant) = some memberIds ∧ identityId ∈ memberIds

section

variable {p : Platform} {tenant now : String} {before tables : TailnetTables}
variable {users : List TailnetUser} {state next : SyncState}

theorem upsert_identity_from_tailnet_replaced {table result : Table IdentityRow}
    {user : TailnetIdentity} (h : upsertIdentityFromTailnet p table user now = .ok result) :
    ∃ written, Table.Replaced (·.id) table result written ∧ written.id = user.identityId p ∧
      written.standing = (user.active, true) := by
  unfold upsertIdentityFromTailnet at h
  obtain ⟨written, hreplaced, ⟨rfl, -⟩ | ⟨old, -, -, rfl⟩⟩ :=
    Table.mem_upsert? identity_conflict_of_id (constrained_ok h) fun _ => rfl
  · exact ⟨_, hreplaced, rfl, rfl⟩
  · exact ⟨_, hreplaced, rfl, rfl⟩

/-- The writes of the loop over the users, the last first. -/
def userWrites (p : Platform) (tenant : String) (users : List TailnetUser) :
    List (String × Bool × Bool) :=
  ((namedUsers p users).map fun user => (user.identityId p tenant, user.isActive p, true)).reverse

/-- What the loop over the users has left. -/
structure UsersDone (p : Platform) (tenant : String) (before : TailnetTables)
    (users : List TailnetUser) (state : SyncState) : Prop where
  logins : state.logins = userLogins p tenant users
  identities : Table.Rewritten (·.id) (·.standing) before.identities state.tables.identities
    (userWrites p tenant users)
  groups : state.tables.groups = before.groups
  members : state.tables.members = before.members

theorem users_done_turn {user : TailnetUser} (h : UsersDone p tenant before users state)
    (hturn : syncUser p tenant now false state user = .ok next) :
    UsersDone p tenant before (users ++ [user]) next := by
  unfold syncUser at hturn
  dsimp only at hturn
  split at hturn
  · rename_i hskipped
    cases hturn
    have hnamed : namedUsers p (users ++ [user]) = namedUsers p users := by
      simp [namedUsers, hskipped]
    refine ⟨?_, ?_, h.groups, h.members⟩
    · rw [h.logins, userLogins, userLogins, hnamed]
    · simpa only [userWrites, hnamed] using h.identities
  · rename_i hlogin
    rw [if_neg (by simp)] at hturn
    obtain ⟨identities, hupsert, hnext⟩ := bind_eq_ok hturn
    cases hnext
    obtain ⟨written, hreplaced, hid, hstanding⟩ := upsert_identity_from_tailnet_replaced hupsert
    have hnamed : namedUsers p (users ++ [user]) = namedUsers p users ++ [user] := by
      simp [namedUsers, hlogin]
    refine ⟨?_, ?_, h.groups, h.members⟩
    · simp only [userLogins, hnamed, List.map_append, List.reverse_append, h.logins]
      rfl
    · have hcons := h.identities.cons hreplaced
      rw [hid, hstanding] at hcons
      simp only [userWrites, hnamed, List.map_append, List.reverse_append]
      exact hcons

/-- What the loops have left once they have seen these logins of the ACL. -/
structure LoginsDone (p : Platform) (tenant : String) (before : TailnetTables)
    (users : List TailnetUser) (seen : List String) (state : SyncState) : Prop where
  thin : ∃ thin : List String,
    (∀ login, login ∈ thin ↔ login ∈ seen ∧ (userLogins p tenant users).lookup login = none) ∧
    state.logins = thin.map (fun login => (login, thinId p tenant login)) ++
      userLogins p tenant users ∧
    Table.Rewritten (·.id) (·.standing) before.identities state.tables.identities
      (thin.map (fun login => (thinId p tenant login, true, true)) ++ userWrites p tenant users)

variable {seen memberIds nextIds : List String} {member : String}

theorem UsersDone.logins_done (h : UsersDone p tenant before users state) :
    LoginsDone p tenant before users [] state :=
  ⟨[], by simp, h.logins, h.identities⟩

theorem mem_of_lookup {α β : Type} [DecidableEq α] {entries : List (α × β)} {key : α} {value : β}
    (h : entries.lookup key = some value) : (key, value) ∈ entries := by
  obtain ⟨first, second, rfl, -⟩ := List.lookup_eq_some_iff.mp h
  simp

/-- What a login is looked up as: its identity, or nothing while it is new. -/
theorem LoginsDone.lookup (h : LoginsDone p tenant before users seen state) (login : String) :
    (∀ identityId, state.logins.lookup login = some identityId →
      identityId = identityOf p tenant users login ∧
        ((userLogins p tenant users).lookup login = none → login ∈ seen)) ∧
    (state.logins.lookup login = none → (userLogins p tenant users).lookup login = none) := by
  obtain ⟨thin, hthin, hlogins, -⟩ := h.thin
  rw [hlogins, List.lookup_append]
  cases hlookup : (thin.map fun login => (login, thinId p tenant login)).lookup login with
  | some found =>
      obtain ⟨_, hmem, heq⟩ := List.mem_map.mp (mem_of_lookup hlookup)
      cases heq
      obtain ⟨hseen, hnone⟩ := (hthin login).mp hmem
      simp [identityOf, hnone, hseen]
  | none =>
      rw [Option.none_or]
      refine ⟨fun identityId hfound => ⟨?_, fun hnone => ?_⟩, id⟩
      · simp [identityOf, hfound]
      · rw [hnone] at hfound
        cases hfound

theorem logins_done_member (h : LoginsDone p tenant before users seen state)
    (hturn : syncMember p tenant now false (state, memberIds) member = .ok (next, nextIds)) :
    LoginsDone p tenant before users (seen ++ memberLogin p member) next ∧
      nextIds = memberIds ++ (memberLogin p member).map (identityOf p tenant users) ∧
      next.tables.groups = state.tables.groups ∧ next.tables.members = state.tables.members := by
  unfold syncMember at hturn
  dsimp only at hturn
  unfold memberLogin
  split at hturn
  · rename_i hnested
    cases hturn
    simpa [hnested] using h
  · rename_i hconcrete
    rw [if_neg hconcrete]
    obtain ⟨hfound, hmissing⟩ := h.lookup (p.lower (p.stripSpace member))
    obtain ⟨thin, hthin, hlogins, hrewritten⟩ := h.thin
    split at hturn
    · rename_i identityId hlookup
      cases hturn
      obtain ⟨hidentity, hseen⟩ := hfound identityId hlookup
      refine ⟨⟨thin, fun login => ?_, hlogins, hrewritten⟩, by simp [hidentity], rfl, rfl⟩
      rw [hthin, List.mem_append, List.mem_singleton]
      constructor
      · exact fun ⟨hold, hnone⟩ => ⟨.inl hold, hnone⟩
      · rintro ⟨hold | rfl, hnone⟩
        · exact ⟨hold, hnone⟩
        · exact ⟨hseen hnone, hnone⟩
    · rename_i hlookup
      rw [if_neg (by simp)] at hturn
      obtain ⟨identities, hupsert, hnext⟩ := bind_eq_ok hturn
      cases hnext
      have hnew := hmissing hlookup
      obtain ⟨written, hreplaced, hid, hstanding⟩ := upsert_identity_from_tailnet_replaced hupsert
      have hcons := hrewritten.cons hreplaced
      rw [hid, hstanding] at hcons
      refine ⟨⟨p.lower (p.stripSpace member) :: thin, fun login => ?_, ?_, hcons⟩, ?_, rfl, rfl⟩
      · rw [List.mem_cons, hthin, List.mem_append, List.mem_singleton]
        constructor
        · rintro (rfl | ⟨hold, hnone⟩)
          · exact ⟨.inr rfl, hnew⟩
          · exact ⟨.inl hold, hnone⟩
        · rintro ⟨hold | rfl, hnone⟩
          · exact .inr ⟨hold, hnone⟩
          · exact .inl rfl
      · rw [hlogins]
        rfl
      · simp [identityOf, hnew, thinId]

theorem logins_done_members {members : List String}
    (h : LoginsDone p tenant before users seen state)
    (hloop : members.foldlM (syncMember p tenant now false) (state, []) = .ok (next, nextIds)) :
    LoginsDone p tenant before users (seen ++ members.flatMap (memberLogin p)) next ∧
      nextIds = (members.flatMap (memberLogin p)).map (identityOf p tenant users) ∧
      next.tables.groups = state.tables.groups ∧ next.tables.members = state.tables.members := by
  let kept : List String → SyncState × List String → Prop := fun done progress =>
    LoginsDone p tenant before users (seen ++ done.flatMap (memberLogin p)) progress.1 ∧
      progress.2 = (done.flatMap (memberLogin p)).map (identityOf p tenant users) ∧
      progress.1.tables.groups = state.tables.groups ∧
      progress.1.tables.members = state.tables.members
  have hstart : kept [] (state, []) := ⟨by simpa using h, rfl, rfl, rfl⟩
  refine fold_ok (I := kept) (fun done member progress after hdone hturn => ?_) hstart hloop
  obtain ⟨hlogins, hids, hgroups, hmembers⟩ := hdone
  obtain ⟨hlogins', hids', hgroups', hmembers'⟩ := logins_done_member hlogins hturn
  refine ⟨?_, ?_, hgroups'.trans hgroups, hmembers'.trans hmembers⟩
  · simpa [List.flatMap_append, List.append_assoc] using hlogins'
  · rw [hids', hids, List.flatMap_append, List.map_append]
    simp

theorem upsert_group_from_tailnet_ok {after : TailnetTables} {externalId displayName : String}
    {added pruned : Nat} (h : upsertGroupFromTailnet p tables tenant externalId displayName
      memberIds now = .ok (after, added, pruned)) :
    after.identities = tables.identities ∧
      after.members = syncMembers tables.members
        (p.stableId "grp" [tenant, orElse externalId displayName]) memberIds ∧
      ∃ written, Table.Replaced (·.id) tables.groups after.groups written ∧
        written.id = p.stableId "grp" [tenant, orElse externalId displayName] ∧
        written.isTailnet = true := by
  unfold upsertGroupFromTailnet at h
  obtain ⟨groups, hupsert, hafter⟩ := bind_eq_ok h
  cases hafter
  obtain ⟨written, hreplaced, ⟨rfl, -⟩ | ⟨old, -, -, rfl⟩⟩ :=
    Table.mem_upsert? group_conflict_of_id (constrained_ok hupsert) fun _ => rfl
  · exact ⟨rfl, rfl, _, hreplaced, rfl, rfl⟩
  · exact ⟨rfl, rfl, _, hreplaced, rfl, rfl⟩

/-- What the loop over the ACL groups has left. -/
structure GroupsDone (p : Platform) (tenant : String) (before : TailnetTables)
    (users : List TailnetUser) (acls : List AclGroup) (state : SyncState) : Prop where
  logins : LoginsDone p tenant before users (acls.flatMap (·.logins p)) state
  groups : Table.Rewritten (·.id) (·.isTailnet) before.groups state.tables.groups
    ((acls.map fun acl => (acl.groupId p tenant, true)).reverse)
  others : ∀ member : GroupMember, member.source ≠ "tailscale" →
    (member ∈ state.tables.members ↔ member ∈ before.members)
  kept : ∀ groupId identityId, (givenMembers p tenant users acls).lookup groupId = none →
    (tailnetMember groupId identityId ∈ state.tables.members ↔
      tailnetMember groupId identityId ∈ before.members)
  given : ∀ groupId identityId memberIds,
    (givenMembers p tenant users acls).lookup groupId = some memberIds →
    (tailnetMember groupId identityId ∈ state.tables.members ↔
      identityId ∈ memberIds ∧ Unclaimed before.members groupId identityId)

variable {acls : List AclGroup}

theorem UsersDone.groups_done (h : UsersDone p tenant before users state) :
    GroupsDone p tenant before users [] state where
  logins := h.logins_done
  groups := h.groups ▸ Table.Rewritten.refl _
  others _ _ := by rw [h.members]
  kept _ _ _ := by rw [h.members]
  given _ _ _ hlookup := by cases hlookup

theorem GroupsDone.unclaimed_iff (h : GroupsDone p tenant before users acls state)
    (groupId identityId : String) :
    Unclaimed state.tables.members groupId identityId ↔
      Unclaimed before.members groupId identityId := by
  constructor
  all_goals
    intro hfree member hmember hgroup hidentity
    by_contra hsource
  · exact hsource (hfree member ((h.others member hsource).mpr hmember) hgroup hidentity)
  · exact hsource (hfree member ((h.others member hsource).mp hmember) hgroup hidentity)

theorem groups_done_turn {acl : AclGroup} (h : GroupsDone p tenant before users acls state)
    (hturn : syncGroup p tenant now false state acl = .ok next) :
    GroupsDone p tenant before users (acls ++ [acl]) next := by
  unfold syncGroup at hturn
  obtain ⟨⟨middle, memberIds⟩, hmembers, hturn⟩ := bind_eq_ok hturn
  dsimp only at hturn
  rw [if_neg (by simp)] at hturn
  obtain ⟨⟨tables, added, pruned⟩, hupsert, hnext⟩ := bind_eq_ok hturn
  cases hnext
  obtain ⟨hlogins, hids, hmiddleGroups, hmiddleMembers⟩ := logins_done_members h.logins hmembers
  obtain ⟨hidentities, htables, written, hreplaced, hid, htailnet⟩ :=
    upsert_group_from_tailnet_ok hupsert
  rw [hmiddleMembers] at htables
  have hlookup : ∀ groupId,
      (givenMembers p tenant users (acls ++ [acl])).lookup groupId =
        if groupId = acl.groupId p tenant then some memberIds
        else (givenMembers p tenant users acls).lookup groupId := by
    intro groupId
    simp only [givenMembers, List.map_append, List.reverse_append, List.map_cons, List.map_nil,
      List.reverse_singleton, List.singleton_append, List.lookup_cons]
    by_cases hsame : groupId = acl.groupId p tenant
    · simp [hsame, hids, AclGroup.memberIds, AclGroup.logins]
    · have hne : (groupId == acl.groupId p tenant) = false := by simpa using hsame
      rw [hne, if_neg hsame]
  have hother : ∀ groupId identityId, groupId ≠ acl.groupId p tenant →
      (tailnetMember groupId identityId ∈ tables.members ↔
        tailnetMember groupId identityId ∈ state.tables.members) := by
    intro groupId identityId hne
    rw [htables, mem_sync_members, if_neg fun hown => hne hown.2]
  refine ⟨?_, ?_, fun member hsource => ?_, fun groupId identityId hnone => ?_,
    fun groupId identityId given hgiven => ?_⟩
  · obtain ⟨thin, hthin, hthinLogins, hrewritten⟩ := hlogins.thin
    refine ⟨thin, ?_, hthinLogins, hidentities ▸ hrewritten⟩
    simpa [List.flatMap_append, AclGroup.logins] using hthin
  · rw [hmiddleGroups] at hreplaced
    have hcons := h.groups.cons hreplaced
    rw [hid, htailnet] at hcons
    simp only [List.map_append, List.reverse_append]
    exact hcons
  · rw [← h.others member hsource]
    show member ∈ tables.members ↔ _
    rw [htables, mem_sync_members, if_neg fun hown => hsource hown.1]
  · rw [hlookup] at hnone
    split at hnone
    · cases hnone
    · rename_i hne
      exact (hother groupId identityId hne).trans (h.kept groupId identityId hnone)
  · rw [hlookup] at hgiven
    split at hgiven
    · rename_i hsame
      cases hgiven
      subst hsame
      show tailnetMember _ identityId ∈ tables.members ↔ _
      rw [htables, mem_sync_members, if_pos ⟨rfl, rfl⟩, ← h.unclaimed_iff]
      rfl
    · rename_i hne
      exact (hother groupId identityId hne).trans (h.given groupId identityId given hgiven)

/-- What a whole sync leaves. -/
theorem tailnet_sync_done {snapshot : TailnetSnapshot} {after : TailnetTables}
    {summary : SyncSummary}
    (h : tailnetSync p tenant now false snapshot before = .ok (after, summary)) :
    ∃ state, state.tables = after ∧
      GroupsDone p tenant before snapshot.users snapshot.groups state := by
  unfold tailnetSync at h
  obtain ⟨state, husers, h⟩ := bind_eq_ok h
  obtain ⟨final, hgroups, h⟩ := bind_eq_ok h
  cases h
  have hstart : UsersDone p tenant before []
      ⟨before, [], { usersSeen := snapshot.users.length, groupsSeen := snapshot.groups.length }⟩ :=
    ⟨rfl, Table.Rewritten.refl _, rfl, rfl⟩
  have husersDone := fold_ok (fun _ _ _ _ => users_done_turn) hstart husers
  exact ⟨final, rfl, fold_ok (fun _ _ _ _ => groups_done_turn) husersDone.groups_done hgroups⟩

theorem lookup_eq_none {α β : Type} [DecidableEq α] {entries : List (α × β)} {key : α} :
    entries.lookup key = none ↔ ∀ entry ∈ entries, entry.1 ≠ key := by
  rw [List.lookup_eq_none_iff]
  exact forall₂_congr fun entry _ => by rw [bne_iff_ne, ne_comm]

theorem identities_mirror_iff (h : GroupsDone p tenant before users acls state) :
    (∀ row ∈ state.tables.identities, row.isTailnet = true → ¬ ListsActive p tenant users row.id →
        row.active = false) ↔
      (∀ row ∈ before.identities, row.isTailnet = true →
        (∀ user ∈ namedUsers p users, user.identityId p tenant ≠ row.id) →
        ¬ ListsActive p tenant users row.id → row.active = false) ∧
      ∀ acl ∈ acls, ∀ login ∈ acl.logins p,
        (∀ user ∈ namedUsers p users, user.loginText p ≠ login) →
        ListsActive p tenant users (thinId p tenant login) := by
  obtain ⟨thin, hthin, -, hrewritten⟩ := h.logins.thin
  have hthin : ∀ login, login ∈ thin ↔ (∃ acl ∈ acls, login ∈ acl.logins p) ∧
      ∀ user ∈ namedUsers p users, user.loginText p ≠ login := by
    intro login
    rw [hthin, List.mem_flatMap, lookup_eq_none]
    simp [userLogins]
  have huserNone : ∀ id, (userWrites p tenant users).lookup id = none ↔
      ∀ user ∈ namedUsers p users, user.identityId p tenant ≠ id := by
    intro id
    rw [lookup_eq_none]
    simp [userWrites]
  have hthinNone : ∀ id, (thin.map fun login => (thinId p tenant login, true, true)).lookup id =
      none ↔ ∀ login ∈ thin, thinId p tenant login ≠ id := by
    intro id
    rw [lookup_eq_none]
    simp
  have hthinSome : ∀ id info, (thin.map fun login => (thinId p tenant login, true, true)).lookup id =
      some info → info = (true, true) ∧ ∃ login ∈ thin, thinId p tenant login = id := by
    intro id info hlookup
    obtain ⟨login, hlogin, heq⟩ := List.mem_map.mp (mem_of_lookup hlookup)
    cases heq
    exact ⟨rfl, login, hlogin, rfl⟩
  constructor
  · intro hmirror
    have hactive : ∀ login ∈ thin, ListsActive p tenant users (thinId p tenant login) := by
      intro login hlogin
      by_contra hnot
      cases hlookup : (thin.map fun login => (thinId p tenant login, true, true)).lookup
          (thinId p tenant login) with
      | none => exact (hthinNone _).mp hlookup login hlogin rfl
      | some info =>
          obtain ⟨rfl, -⟩ := hthinSome _ _ hlookup
          obtain ⟨row, hrow, hid, hstanding⟩ := hrewritten.written (thinId p tenant login)
            (true, true) (by rw [List.lookup_append, hlookup, Option.some_or])
          obtain ⟨hrowActive, hrowTailnet⟩ := Prod.mk.inj hstanding
          have hinactive := hmirror row hrow hrowTailnet (by rw [hid]; exact hnot)
          rw [hrowActive] at hinactive
          cases hinactive
    refine ⟨fun row hrow htailnet huntouched hgone => ?_, fun acl hacl login hlogin hnew => ?_⟩
    · have hkept : (thin.map fun login => (thinId p tenant login, true, true)).lookup row.id =
          none := by
        rw [hthinNone]
        intro login hlogin hsame
        exact hgone (hsame ▸ hactive login hlogin)
      have hafter := (hrewritten.kept row (by
        rw [List.lookup_append, hkept, (huserNone _).mpr huntouched]
        rfl)).mpr hrow
      exact hmirror row hafter htailnet hgone
    · exact hactive login ((hthin login).mpr ⟨⟨acl, hacl, hlogin⟩, hnew⟩)
  · rintro ⟨hgone, hunlisted⟩ row hrow htailnet hnot
    have hkept : (thin.map fun login => (thinId p tenant login, true, true)).lookup row.id =
        none := by
      rw [hthinNone]
      intro login hlogin hsame
      obtain ⟨⟨acl, hacl, hmem⟩, hnew⟩ := (hthin login).mp hlogin
      exact hnot (hsame ▸ hunlisted acl hacl login hmem hnew)
    cases huser : (userWrites p tenant users).lookup row.id with
    | none =>
        have hbefore := (hrewritten.kept row (by rw [List.lookup_append, hkept, huser]; rfl)).mp hrow
        exact hgone row hbefore htailnet ((huserNone _).mp huser) hnot
    | some info =>
        have hstanding := hrewritten.info_eq identity_conflict_of_id hrow (i := info)
          (by rw [List.lookup_append, hkept, huser]; rfl)
        obtain ⟨user, huserMem, heq⟩ := List.mem_map.mp (List.mem_reverse.mp (mem_of_lookup huser))
        obtain ⟨hid, rfl⟩ := Prod.mk.inj heq
        -- The last user with this id is not active, and so neither is its row.
        rw [← Bool.not_eq_true]
        intro hactive
        have huserActive := (Prod.mk.inj hstanding).1.symm.trans hactive
        exact hnot ⟨user, (List.mem_filter.mp huserMem).1, huserActive, hid⟩

/-- The members mirror the snapshot exactly when the groups that are gone have none, and what the
ACL gives a group is neither claimed by another source nor left out by a later ACL group. -/
theorem members_mirror_iff (h : GroupsDone p tenant before users acls state) :
    (∀ group ∈ state.tables.groups, group.isTailnet = true → ∀ identityId,
        tailnetMember group.id identityId ∈ state.tables.members ↔
          ∃ acl ∈ acls, acl.groupId p tenant = group.id ∧
            identityId ∈ acl.memberIds p tenant users) ↔
      (∀ group ∈ before.groups, group.isTailnet = true →
        (∀ acl ∈ acls, acl.groupId p tenant ≠ group.id) →
        ∀ identityId, tailnetMember group.id identityId ∉ before.members) ∧
      (∀ acl ∈ acls, ∀ identityId ∈ acl.memberIds p tenant users,
        Unclaimed before.members (acl.groupId p tenant) identityId) ∧
      ∀ acl ∈ acls, ∀ identityId ∈ acl.memberIds p tenant users, ∃ memberIds,
        (givenMembers p tenant users acls).lookup (acl.groupId p tenant) = some memberIds ∧
          identityId ∈ memberIds := by
  have hnone : ∀ groupId, (givenMembers p tenant users acls).lookup groupId = none ↔
      ∀ acl ∈ acls, acl.groupId p tenant ≠ groupId := by
    intro groupId
    rw [lookup_eq_none]
    simp [givenMembers]
  have hwrites : ∀ groupId,
      ((acls.map fun acl => (acl.groupId p tenant, true)).reverse).lookup groupId = none ↔
        ∀ acl ∈ acls, acl.groupId p tenant ≠ groupId := by
    intro groupId
    rw [lookup_eq_none]
    simp
  constructor
  · intro hmirror
    have hgiven : ∀ acl ∈ acls, ∀ identityId ∈ acl.memberIds p tenant users,
        ∃ memberIds, (givenMembers p tenant users acls).lookup (acl.groupId p tenant) =
          some memberIds ∧ identityId ∈ memberIds ∧
          Unclaimed before.members (acl.groupId p tenant) identityId := by
      intro acl hacl identityId hidentity
      cases hlookup : (givenMembers p tenant users acls).lookup (acl.groupId p tenant) with
      | none => exact absurd rfl ((hnone _).mp hlookup acl hacl)
      | some memberIds =>
          cases hwritten : ((acls.map fun acl => (acl.groupId p tenant, true)).reverse).lookup
              (acl.groupId p tenant) with
          | none => exact absurd rfl ((hwrites _).mp hwritten acl hacl)
          | some own =>
              obtain ⟨_, -, heq⟩ :=
                List.mem_map.mp (List.mem_reverse.mp (mem_of_lookup hwritten))
              obtain ⟨-, rfl⟩ := Prod.mk.inj heq
              obtain ⟨group, hgroup, hid, hown⟩ := h.groups.written _ _ hwritten
              have hmember := (hmirror group hgroup hown identityId).mpr
                ⟨acl, hacl, hid.symm, hidentity⟩
              rw [show group.id = acl.groupId p tenant from hid] at hmember
              exact ⟨memberIds, rfl, (h.given _ _ _ hlookup).mp hmember⟩
    refine ⟨fun group hgroup htailnet hgone identityId hmember => ?_, ?_, ?_⟩
    · have hafter := (h.groups.kept group ((hwrites _).mpr hgone)).mpr hgroup
      obtain ⟨acl, hacl, hid, -⟩ := (hmirror group hafter htailnet identityId).mp
        ((h.kept _ _ ((hnone _).mpr hgone)).mpr hmember)
      exact hgone acl hacl hid
    · intro acl hacl identityId hidentity
      obtain ⟨_, -, -, hfree⟩ := hgiven acl hacl identityId hidentity
      exact hfree
    · intro acl hacl identityId hidentity
      obtain ⟨memberIds, hlookup, hmember, -⟩ := hgiven acl hacl identityId hidentity
      exact ⟨memberIds, hlookup, hmember⟩
  · rintro ⟨hdropped, hunclaimed, hunshadowed⟩ group hgroup htailnet identityId
    cases hlookup : (givenMembers p tenant users acls).lookup group.id with
    | none =>
        have hgone := (hnone _).mp hlookup
        have hbefore := (h.groups.kept group ((hwrites _).mpr hgone)).mp hgroup
        rw [h.kept _ _ hlookup]
        constructor
        · exact fun hmember => absurd hmember (hdropped group hbefore htailnet hgone identityId)
        · rintro ⟨acl, hacl, hid, -⟩
          exact absurd hid (hgone acl hacl)
    | some memberIds =>
        rw [h.given _ _ _ hlookup]
        constructor
        · rintro ⟨hmember, -⟩
          obtain ⟨acl, hacl, heq⟩ := List.mem_map.mp (List.mem_reverse.mp (mem_of_lookup hlookup))
          obtain ⟨hid, rfl⟩ := Prod.mk.inj heq
          exact ⟨acl, hacl, hid, hmember⟩
        · rintro ⟨acl, hacl, hid, hidentity⟩
          obtain ⟨found, hfound, hmember⟩ := hunshadowed acl hacl identityId hidentity
          rw [hid, hlookup] at hfound
          cases hfound
          exact ⟨hmember, hid ▸ hunclaimed acl hacl identityId hidentity⟩

/-- A sync mirrors its snapshot exactly when the tables before it let it. -/
theorem tailnet_sync_mirrors_iff {snapshot : TailnetSnapshot} {after : TailnetTables}
    {summary : SyncSummary}
    (h : tailnetSync p tenant now false snapshot before = .ok (after, summary)) :
    Mirrors p tenant snapshot before after ↔ CanMirror p tenant snapshot before := by
  obtain ⟨state, rfl, hdone⟩ := tailnet_sync_done h
  constructor
  · rintro ⟨hidentities, hmembers, -⟩
    obtain ⟨hgone, hunlisted⟩ := (identities_mirror_iff hdone).mp hidentities
    obtain ⟨hdropped, hunclaimed, hunshadowed⟩ := (members_mirror_iff hdone).mp hmembers
    exact ⟨hgone, hunlisted, hdropped, hunclaimed, hunshadowed⟩
  · rintro ⟨hgone, hunlisted, hdropped, hunclaimed, hunshadowed⟩
    exact ⟨(identities_mirror_iff hdone).mpr ⟨hgone, hunlisted⟩,
      (members_mirror_iff hdone).mpr ⟨hdropped, hunclaimed, hunshadowed⟩, hdone.others⟩

end

/-- SHA-256 on the texts that name two users and a group. -/
def tailnetDigests : List (String × String) :=
  [("asg\x1fu1", "c90b971a6ff796f212c97a4a93473ba91b4f5f32da4f80e0f1e32e3afb681637"),
    ("asg\x1fu2", "96b0c2b57cda7f41cf46955ba98f6bb34fb45d5cb4767fafb0d7718088894f14"),
    ("asg\x1fgroup:eng", "14eb5056babf4c66ce5d4d27a3440434e09cb87ab33971567408656a6b61291d")]

/-- A deployment that knows these digests. -/
def Platform.tailnetSample : Platform := .ascii fun content =>
  ((tailnetDigests.find? fun entry => entry.1.toUTF8.data.toList = content).map (·.2)).getD ""

/-- Alice and Bob, of whom Alice is in the engineering group. -/
def firstSnapshot : TailnetSnapshot where
  users := [{ loginName := some "alice@corp", id := some "u1" },
    { loginName := some "bob@corp", id := some "u2" }]
  groups := [⟨"group:eng", ["alice@corp"]⟩]

/-- Tables without rows. -/
def TailnetTables.empty : TailnetTables := ⟨.empty, .empty, .empty⟩

/-- The first sync. -/
def firstSync : Except Failure (TailnetTables × SyncSummary) :=
  tailnetSync .tailnetSample "asg" "2026-01-01 09:00:00" false firstSnapshot .empty

/-- Bob is suspended, and takes the place of Alice in the group. -/
def suspendingSnapshot : TailnetSnapshot where
  users := [{ loginName := some "alice@corp", id := some "u1" },
    { loginName := some "bob@corp", id := some "u2", status := some "suspended" }]
  groups := [⟨"group:eng", ["bob@corp"]⟩]

/-- A sync after the first. -/
def laterSync (snapshot : TailnetSnapshot) (before : TailnetTables) :
    Except Failure (TailnetTables × SyncSummary) :=
  tailnetSync .tailnetSample "asg" "2026-01-02 09:00:00" false snapshot before

/-- Bob's identity is inactive after the second sync, and the group is his. -/
theorem tailnet_sync_mirrors_iff_second : ∃ before first after summary,
    firstSync = .ok (before, first) ∧
      laterSync suspendingSnapshot before = .ok (after, summary) ∧
      Mirrors .tailnetSample "asg" suspendingSnapshot before after := by
  have hruns : firstSync.toOption.any (fun first =>
      (first.1.identities.rows.all fun row =>
        (namedUsers .tailnetSample suspendingSnapshot.users).any
          (·.identityId .tailnetSample "asg" = row.id)) &&
      (first.1.groups.rows.all fun group =>
        suspendingSnapshot.groups.any (·.groupId .tailnetSample "asg" = group.id)) &&
      (first.1.members.rows.all (·.source = "tailscale")) &&
      (laterSync suspendingSnapshot first.1).toOption.isSome) = true := by
    decide +kernel
  obtain ⟨⟨before, first⟩, hfirst, hruns⟩ := (Option.any_eq_true _ _).mp hruns
  simp only [Bool.and_eq_true, List.all_eq_true, List.any_eq_true, decide_eq_true_eq] at hruns
  obtain ⟨⟨⟨hlisted, hgroups⟩, hmembers⟩, hlater⟩ := hruns
  obtain ⟨⟨after, summary⟩, hsecond⟩ := Option.isSome_iff_exists.mp hlater
  have hsync := to_option_eq_some hsecond
  refine ⟨before, first, after, summary, to_option_eq_some hfirst, hsync,
    (tailnet_sync_mirrors_iff hsync).mpr
    { gone := fun row hrow _ hgone => ?_
      unlisted := by decide +kernel
      dropped := fun group hgroup _ hgone => ?_
      unclaimed := fun _ _ _ _ member hmember _ _ => hmembers member hmember
      unshadowed := ?_ }⟩
  · obtain ⟨user, huser, hid⟩ := hlisted row hrow
    exact absurd hid (hgone user huser)
  · obtain ⟨acl, hacl, hid⟩ := hgroups group hgroup
    exact absurd hid (hgone acl hacl)
  · intro acl hacl identityId hidentity
    cases List.mem_singleton.mp hacl
    exact ⟨_, rfl, hidentity⟩

/-- Bob has left the tailnet. -/
def secondSnapshot : TailnetSnapshot :=
  { firstSnapshot with users := [{ loginName := some "alice@corp", id := some "u1" }] }

/-- The sync leaves the identity of a user who left as it is. -/
theorem tailnet_sync_mirrors_counterexample :
    ¬ ∀ (p : Platform) (tenant now : String) (snapshot : TailnetSnapshot)
      (before after : TailnetTables) (summary : SyncSummary),
      tailnetSync p tenant now false snapshot before = .ok (after, summary) →
      Mirrors p tenant snapshot before after := by
  intro hclaim
  let second := firstSync.toOption.bind fun first =>
    (laterSync secondSnapshot first.1).toOption
  have hstale : second.any (fun result => result.1.identities.any fun row =>
      row.isTailnet && row.active && !ListsActive .tailnetSample "asg" secondSnapshot.users row.id) =
      true := by
    decide +kernel
  obtain ⟨⟨after, summary⟩, hsecond, hany⟩ := (Option.any_eq_true _ _).mp hstale
  obtain ⟨⟨before, _⟩, -, hsync⟩ := Option.bind_eq_some_iff.mp hsecond
  obtain ⟨row, hrow, hmatch⟩ := Table.any_iff.mp hany
  simp only [Bool.and_eq_true, Bool.not_eq_true', decide_eq_false_iff_not] at hmatch
  obtain ⟨⟨htailnet, hactive⟩, hgone⟩ := hmatch
  have hmirrors := hclaim _ _ _ _ _ _ _ (to_option_eq_some hsync)
  have hinactive := hmirrors.identities row hrow htailnet hgone
  rw [hactive] at hinactive
  cases hinactive

end Capmesh
