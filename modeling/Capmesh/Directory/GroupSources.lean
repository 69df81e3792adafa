import Capmesh.Directory.TailnetSync

/-!
# Groups with two sources

`upsert_group` of `scim.py` and `upsert_group_from_tailnet` of `sync.py` on one group. Each source
deletes and inserts the members that carry its own label, and a member has one label: the one of the
source that named it first. `members_of_both` says when the members are those that either source
asked for last: as long as no source withdraws a member that it labelled and the other one still
lists.
-/

namespace Capmesh

open Python Relational Execution

/-- A SCIM Group; `members` holds the `value` of each member. -/
structure ScimGroup where
  id : Option String := none
  externalId : Option String := none
  displayName : Option String
  members : List (Option String) := []
  payload : Json := .obj []

namespace ScimGroup

variable (p : Platform) (tenant : String) (group : ScimGroup)

/-- `externalId`, else `id`. -/
def external : String := optOr group.externalId (optOr group.id "")

/-- `displayName` without surrounding space. -/
def name : String := p.stripSpace (optOr group.displayName "")

/-- The group that the call is about. -/
def groupId : String :=
  optOr group.id (p.stableId "grp" [tenant, orElse group.external (group.name p)])

/-- The members that the call asks for; an empty `value` names nobody. -/
def memberIds : List String := (group.members.map fun value => optOr value "").filter (· ≠ "")

/-- The row of a SCIM Group. -/
def row (now : String) : GroupRow where
  id := group.groupId p tenant
  tenantId := tenant
  externalId := some (orElse group.external (group.groupId p tenant))
  displayName := group.name p
  active := true
  rawJson := group.payload
  updatedAt := now

/-- The checks of `upsert_group`, before its first write. -/
def validate (tables : TailnetTables) : Except Failure Unit :=
  if group.name p = "" then .error (.value "SCIM Group displayName is required.")
  else if tables.groups.any fun old =>
      old.id = group.groupId p tenant && old.tenantId ≠ tenant then
    .error (.value "SCIM Group id belongs to a different tenant.")
  else if group.memberIds.any fun id =>
      !tables.identities.any fun row => row.id = id && row.tenantId = tenant then
    .error (.value "SCIM Group member must exist in the same tenant.")
  else .ok ()

end ScimGroup

/-- A member that SCIM provisioned. -/
def scimMember (groupId identityId : String) : GroupMember := ⟨groupId, identityId, "scim"⟩

/-- The members of a group after `DELETE … WHERE source = 'scim'` and the inserts that follow. -/
def scimMembers (members : Table GroupMember) (groupId : String) (memberIds : List String) :
    Table GroupMember :=
  (members.filter fun member => !(member.groupId = groupId && member.source = "scim")).insertAll
    (memberIds.map (scimMember groupId))

/-- `upsert_group`, on the tables: what it leaves, and how it ends. -/
def upsertGroup (p : Platform) (tables : TailnetTables) (tenant : String) (group : ScimGroup)
    (now : String) : TailnetTables × Except Failure Unit :=
  match group.validate p tenant tables with
  | .error failure => (tables, .error failure)
  | .ok _ =>
      let row := group.row p tenant now
      match constrained "groups"
        (tables.groups.upsert? (·.id) row fun old => { row with tenantId := old.tenantId }) with
      | .error failure => (tables, .error failure)
      | .ok groups =>
          ({ tables with
              groups
              members := scimMembers tables.members (group.groupId p tenant) group.memberIds },
            .ok ())

/-- What SCIM leaves of the members: its own are those it asks for, but for those that another
source made members; every other row is the old one. -/
theorem mem_scim_members {members : Table GroupMember} {groupId : String} {memberIds : List String}
    (member : GroupMember) :
    member ∈ scimMembers members groupId memberIds ↔
      if member.source = "scim" ∧ member.groupId = groupId then
        member.identityId ∈ memberIds ∧ ∀ other ∈ members, other.groupId = groupId →
          other.identityId = member.identityId → other.source = "scim"
      else member ∈ members := by
  have hrows : ∀ a ∈ memberIds.map (scimMember groupId), ∀ b ∈ memberIds.map (scimMember groupId),
      Constrained.Conflict a b → a = b := by
    intro a ha b hb hconflict
    obtain ⟨first, -, rfl⟩ := List.mem_map.mp ha
    obtain ⟨second, -, rfl⟩ := List.mem_map.mp hb
    rw [show first = second from hconflict.2]
  have hmem : member ∈ scimMembers members groupId memberIds ↔
      (member ∈ members ∧ ¬ (member.groupId = groupId ∧ member.source = "scim")) ∨
      (∃ identityId ∈ memberIds, scimMember groupId identityId = member) ∧
        ∀ other, other ∈ members ∧ ¬ (other.groupId = groupId ∧ other.source = "scim") →
          ¬ Constrained.Conflict other member := by
    simp only [scimMembers, Table.mem_insertAll hrows, Table.mem_filter, List.mem_map,
      Bool.not_eq_true', ← Bool.not_eq_true, Bool.and_eq_true, decide_eq_true_eq]
  rw [hmem]
  split
  · rename_i hown
    obtain ⟨group, identityId, source⟩ := member
    obtain ⟨rfl, rfl⟩ := hown
    constructor
    · intro h
      cases h with
      | inl hold => exact absurd ⟨rfl, rfl⟩ hold.2
      | inr hnew =>
          obtain ⟨⟨_, hwanted, heq⟩, hfree⟩ := hnew
          cases heq
          refine ⟨hwanted, fun other hother hgroup hidentity => ?_⟩
          by_contra hsource
          exact hfree other ⟨hother, fun h => hsource h.2⟩ ⟨hgroup, hidentity⟩
    · intro h
      refine .inr ⟨⟨identityId, h.1, rfl⟩, fun other hother hconflict => ?_⟩
      exact hother.2 ⟨hconflict.1, h.2 other hother.1 hconflict.1 hconflict.2⟩
  · rename_i hother
    constructor
    · intro h
      cases h with
      | inl hold => exact hold.1
      | inr hnew =>
          obtain ⟨⟨_, -, rfl⟩, -⟩ := hnew
          exact absurd ⟨rfl, rfl⟩ hother
    · exact fun hmember => .inl ⟨hmember, fun h => hother ⟨h.2, h.1⟩⟩

/-- The members of a group that carry one label are renewed to a list of identities, but for those
that carry another label already; every other row is the old one. -/
def Renewed (label groupId : String) (memberIds : List String)
    (members result : Table GroupMember) : Prop :=
  ∀ member, member ∈ result ↔
    if member.source = label ∧ member.groupId = groupId then
      member.identityId ∈ memberIds ∧ ∀ other ∈ members, other.groupId = groupId →
        other.identityId = member.identityId → other.source = label
    else member ∈ members

namespace Renewed

variable {label groupId : String} {memberIds : List String} {members result : Table GroupMember}

/-- A row that carries another label stays. -/
theorem kept (h : Renewed label groupId memberIds members result) {member : GroupMember}
    (hmember : member ∈ members) (hlabel : member.source ≠ label) : member ∈ result := by
  rw [h, if_neg fun hown => hlabel hown.1]
  exact hmember

theorem wanted (h : Renewed label groupId memberIds members result) {identityId : String}
    (hwanted : identityId ∈ memberIds) :
    ∃ member ∈ result, member.groupId = groupId ∧ member.identityId = identityId := by
  by_cases hother : ∃ other ∈ members, other.groupId = groupId ∧ other.identityId = identityId ∧
      other.source ≠ label
  · obtain ⟨other, hmember, hgroup, hidentity, hlabel⟩ := hother
    exact ⟨other, h.kept hmember hlabel, hgroup, hidentity⟩
  · refine ⟨⟨groupId, identityId, label⟩, ?_, rfl, rfl⟩
    rw [h, if_pos ⟨rfl, rfl⟩]
    refine ⟨hwanted, fun other hmember hgroup hidentity => ?_⟩
    by_contra hlabel
    exact hother ⟨other, hmember, hgroup, hidentity, hlabel⟩

theorem stays (h : Renewed label groupId memberIds members result) {member : GroupMember}
    (hmember : member ∈ members) (hgroup : member.groupId = groupId)
    (hkept : member.source = label → member.identityId ∈ memberIds) :
    ∃ last ∈ result, last.groupId = groupId ∧ last.identityId = member.identityId := by
  by_cases hlabel : member.source = label
  · exact h.wanted (hkept hlabel)
  · exact ⟨member, h.kept hmember hlabel, hgroup, rfl⟩

/-- A row of the label goes with an identity that is not asked for. -/
theorem lost (h : Renewed label groupId memberIds members result) {identityId : String}
    (hmember : (⟨groupId, identityId, label⟩ : GroupMember) ∈ members)
    (hunwanted : identityId ∉ memberIds) :
    ¬ ∃ member ∈ result, member.groupId = groupId ∧ member.identityId = identityId := by
  intro hlast
  obtain ⟨last, hlast, hgroup, hidentity⟩ := hlast
  rw [h] at hlast
  split at hlast
  · rw [hidentity] at hlast
    exact hunwanted hlast.1
  · rename_i hother
    have hsame := Table.eq_of_conflict hlast hmember ⟨hgroup, hidentity⟩
    exact hother ⟨by rw [hsame], hgroup⟩

end Renewed

theorem renewed_scim (members : Table GroupMember) (groupId : String) (memberIds : List String) :
    Renewed "scim" groupId memberIds members (scimMembers members groupId memberIds) :=
  mem_scim_members

theorem renewed_tailnet (members : Table GroupMember) (groupId : String) (memberIds : List String) :
    Renewed "tailscale" groupId memberIds members (syncMembers members groupId memberIds) :=
  mem_sync_members

/-! ### Calls on one group -/

/-- A call of either source. -/
inductive GroupCall where
  | scim (group : ScimGroup) (now : String)
  | tailnet (externalId displayName : String) (memberIds : List String) (now : String)

/-- The group that a call is about. -/
def GroupCall.groupId (p : Platform) (tenant : String) : GroupCall → String
  | .scim group _ => group.groupId p tenant
  | .tailnet externalId displayName _ _ =>
      p.stableId "grp" [tenant, orElse externalId displayName]

/-- The tables, and what each source asked for in its last call. -/
structure GroupHistory where
  tables : TailnetTables
  scim : List String
  tailnet : List String

/-- One call; a call that raises asks for nothing. -/
def groupStep (p : Platform) (tenant : String) (state : GroupHistory) : GroupCall → GroupHistory
  | .scim group now =>
      match upsertGroup p state.tables tenant group now with
      | (tables, .ok _) => { state with tables, scim := group.memberIds }
      | (tables, .error _) => { state with tables }
  | .tailnet externalId displayName memberIds now =>
      match upsertGroupFromTailnet p state.tables tenant externalId displayName memberIds now with
      | .ok (tables, _) => { state with tables, tailnet := memberIds }
      | .error _ => state

/-- The members of a group are those that either source asked for last. -/
def MembersOfBoth (groupId : String) (state : GroupHistory) : Prop :=
  ∀ identityId, (∃ member ∈ state.tables.members, member.groupId = groupId ∧
    member.identityId = identityId) ↔ identityId ∈ state.scim ∨ identityId ∈ state.tailnet

/-- Whether a call does not raise. -/
def groupCallOk (p : Platform) (tenant : String) (state : GroupHistory) : GroupCall → Bool
  | .scim group now => (upsertGroup p state.tables tenant group now).2.isOk
  | .tailnet externalId displayName memberIds now =>
      (upsertGroupFromTailnet p state.tables tenant externalId displayName memberIds now).isOk

/-- A call withdraws no member that carries its label and that the other source still lists. -/
def KeepsShared (groupId : String) (state : GroupHistory) : GroupCall → Prop
  | .scim group _ => ∀ identityId ∈ state.tailnet,
      scimMember groupId identityId ∈ state.tables.members → identityId ∈ group.memberIds
  | .tailnet _ _ memberIds _ => ∀ identityId ∈ state.scim,
      tailnetMember groupId identityId ∈ state.tables.members → identityId ∈ memberIds

instance (groupId : String) (state : GroupHistory) (call : GroupCall) :
    Decidable (KeepsShared groupId state call) :=
  match call with
  | .scim group _ => inferInstanceAs (Decidable (∀ identityId ∈ state.tailnet,
      scimMember groupId identityId ∈ state.tables.members.rows → identityId ∈ group.memberIds))
  | .tailnet _ _ memberIds _ => inferInstanceAs (Decidable (∀ identityId ∈ state.scim,
      tailnetMember groupId identityId ∈ state.tables.members.rows → identityId ∈ memberIds))

/-- A member carries the label of a source that lists it. -/
def Labelled (groupId : String) (state : GroupHistory) : Prop :=
  ∀ member ∈ state.tables.members, member.groupId = groupId →
    member.source = "scim" ∧ member.identityId ∈ state.scim ∨
      member.source = "tailscale" ∧ member.identityId ∈ state.tailnet

section

variable {p : Platform} {tenant groupId : String} {state : GroupHistory}

/-- How a SCIM call ends: it raises and leaves the tables, or it leaves its members. -/
theorem upsert_group_cases (p : Platform) (tenant : String) (tables : TailnetTables)
    (group : ScimGroup) (now : String) :
    (∃ failure, upsertGroup p tables tenant group now = (tables, .error failure)) ∨
      ∃ groups, upsertGroup p tables tenant group now = ({ tables with
        groups
        members := scimMembers tables.members (group.groupId p tenant) group.memberIds }, .ok ()) := by
  unfold upsertGroup
  split
  · rename_i failure _
    exact .inl ⟨failure, rfl⟩
  · dsimp only
    split
    · rename_i failure _
      exact .inl ⟨failure, rfl⟩
    · rename_i groups _
      exact .inr ⟨groups, rfl⟩

/-- What a tailnet call that succeeds makes of the members. -/
theorem upsert_group_from_tailnet_members {tables : TailnetTables} {externalId displayName : String}
    {memberIds : List String} {now : String} {result : TailnetTables × Nat × Nat}
    (h : upsertGroupFromTailnet p tables tenant externalId displayName memberIds now = .ok result) :
    result.1.members = syncMembers tables.members
      (p.stableId "grp" [tenant, orElse externalId displayName]) memberIds := by
  unfold upsertGroupFromTailnet at h
  obtain ⟨groups, -, hresult⟩ := bind_eq_ok h
  cases hresult
  rfl

theorem group_step_cases (state : GroupHistory) (call : GroupCall)
    (hcall : call.groupId p tenant = groupId) :
    (groupStep p tenant state call).tables.members = state.tables.members ∧
        (groupStep p tenant state call).scim = state.scim ∧
        (groupStep p tenant state call).tailnet = state.tailnet ∨
      (∃ group now, call = .scim group now ∧ (groupStep p tenant state call).tables.members =
          scimMembers state.tables.members groupId group.memberIds ∧
        (groupStep p tenant state call).scim = group.memberIds ∧
        (groupStep p tenant state call).tailnet = state.tailnet) ∨
      ∃ externalId displayName memberIds now, call = .tailnet externalId displayName memberIds now ∧
        (groupStep p tenant state call).tables.members =
          syncMembers state.tables.members groupId memberIds ∧
        (groupStep p tenant state call).scim = state.scim ∧
        (groupStep p tenant state call).tailnet = memberIds := by
  subst hcall
  cases call with
  | scim group now =>
      cases upsert_group_cases p tenant state.tables group now with
      | inl hraised =>
          obtain ⟨failure, hraised⟩ := hraised
          refine .inl ?_
          simp only [groupStep, hraised, and_self]
      | inr hdone =>
          obtain ⟨groups, hdone⟩ := hdone
          refine .inr (.inl ⟨group, now, rfl, ?_⟩)
          simp only [groupStep, hdone, GroupCall.groupId, and_self]
  | tailnet externalId displayName memberIds now =>
      cases hcall : upsertGroupFromTailnet p state.tables tenant externalId displayName memberIds
          now with
      | error failure =>
          refine .inl ?_
          simp only [groupStep, hcall, and_self]
      | ok result =>
          refine .inr (.inr ⟨externalId, displayName, memberIds, now, rfl, ?_⟩)
          have hmembers := upsert_group_from_tailnet_members hcall
          simp only [groupStep, hcall, GroupCall.groupId, hmembers, and_self]

/-- Every call keeps the labels right. -/
theorem labelled_step (hstate : Labelled groupId state) (call : GroupCall)
    (hcall : call.groupId p tenant = groupId) :
    Labelled groupId (groupStep p tenant state call) := by
  intro member hmember hgroup
  obtain ⟨hmembers, hscim, htailnet⟩ | ⟨group, now, -, hmembers, hscim, htailnet⟩ |
    ⟨externalId, displayName, memberIds, now, -, hmembers, hscim, htailnet⟩ :=
      group_step_cases state call hcall
  · rw [hmembers] at hmember
    rw [hscim, htailnet]
    exact hstate member hmember hgroup
  · rw [hmembers, mem_scim_members] at hmember
    rw [hscim, htailnet]
    split at hmember
    · rename_i hown
      exact .inl ⟨hown.1, hmember.1⟩
    · rename_i hother
      have hlabel := hstate member hmember hgroup
      exact .inr (hlabel.resolve_left fun h => hother ⟨h.1, hgroup⟩)
  · rw [hmembers, mem_sync_members] at hmember
    rw [hscim, htailnet]
    split at hmember
    · rename_i hown
      exact .inr ⟨hown.1, hmember.1⟩
    · rename_i hother
      have hlabel := hstate member hmember hgroup
      exact .inl (hlabel.resolve_right fun h => hother ⟨h.1, hgroup⟩)

theorem members_of_both_step (hlabelled : Labelled groupId state)
    (hstate : MembersOfBoth groupId state) (call : GroupCall)
    (hcall : call.groupId p tenant = groupId) (hkeeps : KeepsShared groupId state call) :
    MembersOfBoth groupId (groupStep p tenant state call) := by
  intro identityId
  refine ⟨fun ⟨member, hmember, hgroup, hidentity⟩ => ?_, fun hlisted => ?_⟩
  · have hlabel := labelled_step hlabelled call hcall member hmember hgroup
    rw [hidentity] at hlabel
    exact hlabel.imp (fun h => h.2) fun h => h.2
  obtain ⟨hmembers, hscim, htailnet⟩ | ⟨group, now, rfl, hmembers, hscim, htailnet⟩ |
    ⟨externalId, displayName, memberIds, now, rfl, hmembers, hscim, htailnet⟩ :=
      group_step_cases state call hcall
  · rw [hscim, htailnet] at hlisted
    rw [hmembers]
    exact (hstate identityId).mpr hlisted
  · have hrenewed := renewed_scim state.tables.members groupId group.memberIds
    rw [hscim, htailnet] at hlisted
    rw [hmembers]
    cases hlisted with
    | inl hwanted => exact hrenewed.wanted hwanted
    | inr hshared =>
        obtain ⟨member, hmember, rfl, rfl⟩ := (hstate identityId).mpr (.inr hshared)
        refine hrenewed.stays hmember rfl fun hlabel => hkeeps _ hshared ?_
        rw [scimMember, ← hlabel]
        exact hmember
  · have hrenewed := renewed_tailnet state.tables.members groupId memberIds
    rw [hscim, htailnet] at hlisted
    rw [hmembers]
    cases hlisted with
    | inr hwanted => exact hrenewed.wanted hwanted
    | inl hshared =>
        obtain ⟨member, hmember, rfl, rfl⟩ := (hstate identityId).mpr (.inl hshared)
        refine hrenewed.stays hmember rfl fun hlabel => hkeeps _ hshared ?_
        rw [tailnetMember, ← hlabel]
        exact hmember

theorem members_of_both_lost (call : GroupCall) (hcall : call.groupId p tenant = groupId)
    (hok : groupCallOk p tenant state call = true) (hdrops : ¬ KeepsShared groupId state call) :
    ¬ MembersOfBoth groupId (groupStep p tenant state call) := by
  subst hcall
  intro hboth
  cases call with
  | scim group now =>
      simp only [KeepsShared, not_forall] at hdrops
      obtain ⟨identityId, hshared, hmember, hunwanted⟩ := hdrops
      obtain ⟨failure, hraised⟩ | ⟨groups, hdone⟩ :=
        upsert_group_cases p tenant state.tables group now
      · simp only [groupCallOk, hraised] at hok
        cases hok
      · have hlisted := (hboth identityId).mpr (.inr (by simpa only [groupStep, hdone] using hshared))
        simp only [groupStep, hdone] at hlisted
        exact (renewed_scim _ _ _).lost hmember hunwanted hlisted
  | tailnet externalId displayName memberIds now =>
      simp only [KeepsShared, not_forall] at hdrops
      obtain ⟨identityId, hshared, hmember, hunwanted⟩ := hdrops
      cases hend : upsertGroupFromTailnet p state.tables tenant externalId displayName memberIds
          now with
      | error failure =>
          simp only [groupCallOk, hend] at hok
          cases hok
      | ok result =>
          have hlisted := (hboth identityId).mpr (.inl (by simpa only [groupStep, hend] using hshared))
          simp only [groupStep, hend, upsert_group_from_tailnet_members hend] at hlisted
          exact (renewed_tailnet _ _ _).lost hmember hunwanted hlisted

/-- A SCIM call that raises on its checks leaves the tables. -/
theorem upsert_group_refused (tables : TailnetTables) (group : ScimGroup) (now : String)
    {failure : Failure} (h : group.validate p tenant tables = .error failure) :
    upsertGroup p tables tenant group now = (tables, .error failure) := by
  unfold upsertGroup
  rw [h]

end

/-- From a group without members: in a run whose calls withdraw no shared member, the members are
those of both sources after every call; a call that succeeds and withdraws one ends that; and a
SCIM call that raises on its checks leaves the tables as they are. -/
theorem group_members_of_both (p : Platform) (tenant groupId : String) (tables : TailnetTables)
    (hempty : ∀ member ∈ tables.members, member.groupId ≠ groupId) (calls : List GroupCall)
    (hcalls : ∀ call ∈ calls, call.groupId p tenant = groupId)
    (hkeeps : Along (groupStep p tenant) (KeepsShared groupId) ⟨tables, [], []⟩ calls) :
    (∀ earlier later, calls = earlier ++ later →
      MembersOfBoth groupId (run (groupStep p tenant) ⟨tables, [], []⟩ earlier)) ∧
    (∀ call, call.groupId p tenant = groupId →
      groupCallOk p tenant (run (groupStep p tenant) ⟨tables, [], []⟩ calls) call = true →
      ¬ KeepsShared groupId (run (groupStep p tenant) ⟨tables, [], []⟩ calls) call →
      ¬ MembersOfBoth groupId (groupStep p tenant
        (run (groupStep p tenant) ⟨tables, [], []⟩ calls) call)) ∧
    ∀ current group now failure, group.validate p tenant current = .error failure →
      upsertGroup p current tenant group now = (current, .error failure) := by
  refine ⟨fun earlier later hsplit => ?_, fun call hcall hok hdrops =>
    members_of_both_lost call hcall hok hdrops, fun current group now _ hrefused =>
    upsert_group_refused current group now hrefused⟩
  subst hsplit
  have hfirst := ((along_append _ earlier later).mp hkeeps).1
  have hboth : ∀ call ∈ earlier, call.groupId p tenant = groupId := fun call hcall =>
    hcalls call (List.mem_append_left _ hcall)
  have hstart : Labelled groupId ⟨tables, [], []⟩ ∧ MembersOfBoth groupId ⟨tables, [], []⟩ := by
    refine ⟨fun member hmember hgroup => absurd hgroup (hempty member hmember), fun identityId => ?_⟩
    refine ⟨fun ⟨member, hmember, hgroup, _⟩ => absurd hgroup (hempty member hmember), fun h => ?_⟩
    exact absurd h (by simp)
  clear hkeeps hcalls hempty
  generalize (⟨tables, [], []⟩ : GroupHistory) = state at hfirst hstart
  induction earlier generalizing state with
  | nil => exact hstart.2
  | cons call earlier ih =>
      obtain ⟨hlabelled, hmembers⟩ := hstart
      have hcall := hboth call List.mem_cons_self
      exact ih (fun other hother => hboth other (.tail _ hother)) _ hfirst.2
        ⟨labelled_step hlabelled call hcall,
          members_of_both_step hlabelled hmembers call hcall hfirst.1⟩

/-! ### One identity in both sources -/

/-- SHA-256 on the text that names the group. -/
def groupPlatform : Platform :=
  .ascii fun _ => "14eb5056babf4c66ce5d4d27a3440434e09cb87ab33971567408656a6b61291d"

/-- Two people of the tenant, and no group. -/
def staffTables : TailnetTables where
  identities :=
    ⟨[{ id := "idn_a", tenantId := "asg", externalId := some "a", userName := "ada@asg.com"
        displayName := none, email := none, active := true, rawJson := .obj [], updatedAt := "t0" },
      { id := "idn_b", tenantId := "asg", externalId := some "b", userName := "bea@asg.com"
        displayName := none, email := none, active := true, rawJson := .obj [], updatedAt := "t0" }],
      by decide⟩
  groups := .empty
  members := .empty

/-- A SCIM call on the group `group:eng`. -/
def provisioned (members : List (Option String)) : GroupCall :=
  .scim { id := some "grp_14eb5056babf4c66ce5d4d27", displayName := some "eng", members } "t1"

/-- A tailnet call on it. -/
def synced (memberIds : List String) : GroupCall := .tailnet "group:eng" "eng" memberIds "t2"

/-- Ada is named by the tailnet, then by SCIM, and then the tailnet drops her: she is no member,
though SCIM lists her. -/
theorem group_members_of_both_counterexample :
    ¬ ∀ calls : List GroupCall, (∀ call ∈ calls,
        call.groupId groupPlatform "asg" = "grp_14eb5056babf4c66ce5d4d27") →
      MembersOfBoth "grp_14eb5056babf4c66ce5d4d27"
        (run (groupStep groupPlatform "asg") ⟨staffTables, [], []⟩ calls) := by
  intro h
  have hboth := h [synced ["idn_a"], provisioned [some "idn_a"], synced []] (by decide +kernel)
  have hlisted := (hboth "idn_a").mpr (.inl (by decide +kernel))
  obtain ⟨member, hmember, -⟩ := hlisted
  have hnone : (run (groupStep groupPlatform "asg") ⟨staffTables, [], []⟩
      [synced ["idn_a"], provisioned [some "idn_a"], synced []]).tables.members.rows = [] := by
    decide +kernel
  rw [← Table.mem_rows, hnone] at hmember
  cases hmember

/-- Ada from the tailnet and Bea from SCIM; then the tailnet drops Ada, whom only it listed. -/
theorem group_members_of_both_disjoint :
    MembersOfBoth "grp_14eb5056babf4c66ce5d4d27" (run (groupStep groupPlatform "asg")
      ⟨staffTables, [], []⟩ [synced ["idn_a"], provisioned [some "idn_b"], synced []]) := by
  refine (group_members_of_both groupPlatform "asg" "grp_14eb5056babf4c66ce5d4d27" staffTables
    (fun _ hmember => nomatch hmember)
    [synced ["idn_a"], provisioned [some "idn_b"], synced []] (by decide +kernel) ?_).1 _ [] rfl
  exact ⟨by decide +kernel, by decide +kernel, by decide +kernel, trivial⟩

end Capmesh
