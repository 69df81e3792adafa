import Capmesh.Governance.Promotion
import Capmesh.Relational.Upsert

/-!
# Identities and who writes them

The table `identities` and its writers: SCIM provisioning (`scim.py`), the tailnet sync
(`sync.py`), and the requests of a principal (`ensure_identity_for_principal` in
`governance.py`). All but the deactivation are upserts on the primary key, which raise when the
user name or the external id belongs to another row of the tenant. `Wrote` says what each writer
leaves.
-/

namespace Capmesh

open Python Relational

/-- A row of `identities`. -/
structure IdentityRow where
  id : String
  tenantId : String
  externalId : Option String
  userName : String
  displayName : Option String
  email : Option String
  identityType : String := "human"
  entraObjectId : Option String := none
  active : Bool
  rawJson : Json
  updatedAt : String

/-- The primary key, `UNIQUE(tenant_id, user_name)` and `UNIQUE(tenant_id, external_id)`. -/
instance : Constrained IdentityRow where
  Conflict a b := a.id = b.id ∨ a.tenantId = b.tenantId ∧
    (a.userName = b.userName ∨ a.externalId.isSome ∧ a.externalId = b.externalId)
  symm h := by
    rcases h with h | ⟨htenant, h | ⟨hsome, h⟩⟩
    · exact .inl h.symm
    · exact .inr ⟨htenant.symm, .inl h.symm⟩
    · exact .inr ⟨htenant.symm, .inr ⟨h ▸ hsome, h.symm⟩⟩

/-- The columns access control reads. -/
def IdentityRow.identity (row : IdentityRow) : Identity where
  id := row.id
  tenantId := row.tenantId
  userName := row.userName
  email := row.email
  active := row.active
  updatedAt := row.updatedAt

/-- `INSERT … ON CONFLICT(id) DO UPDATE`. -/
def upsertIdentity (table : Table IdentityRow) (row : IdentityRow)
    (refresh : IdentityRow → IdentityRow) : Except Failure (Table IdentityRow) :=
  constrained "identities" (table.upsert? (·.id) row refresh)

/-- An entry of `emails`. -/
structure ScimEmail where
  isPrimary : Bool
  value : Option String
  deriving DecidableEq, Repr

/-- A SCIM User. -/
structure ScimUser where
  tenantId : String
  id : Option String := none
  externalId : Option String := none
  userName : Option String
  displayName : Option String := none
  formattedName : Option String := none
  emails : List ScimEmail := []
  active : Bool := true
  payload : Json := .obj []

/-- `primary_email`. -/
def primaryEmail (emails : List ScimEmail) : Option String :=
  match emails.find? fun item => item.isPrimary && present item.value with
  | some item => item.value
  | none =>
      match emails with
      | first :: _ => if present first.value then first.value else none
      | [] => none

namespace ScimUser

variable (p : Platform) (user : ScimUser)

/-- `externalId`, else `id`. -/
def external : String := optOr user.externalId (optOr user.id "")

/-- `userName` without surrounding space. -/
def name : String := p.stripSpace (optOr user.userName "")

/-- The identity a SCIM User is about. -/
def identityId : String :=
  optOr user.id (p.stableId "idn" [user.tenantId, orElse user.external (user.name p)])

/-- The row of a SCIM User. -/
def row (now : String) : IdentityRow where
  id := user.identityId p
  tenantId := user.tenantId
  externalId := some (orElse user.external (user.identityId p))
  userName := user.name p
  displayName := if present user.displayName then user.displayName else user.formattedName
  email := primaryEmail user.emails
  entraObjectId := some (orElse user.external (user.identityId p))
  active := user.active
  rawJson := user.payload
  updatedAt := now

end ScimUser

/-- `upsert_user`. -/
def upsertUser (p : Platform) (table : Table IdentityRow) (user : ScimUser) (now : String) :
    Except Failure (Table IdentityRow) :=
  let row := user.row p now
  if row.userName = "" then .error (.value "SCIM User userName is required.")
  else if table.any fun old => old.id = row.id && old.tenantId ≠ user.tenantId then
    .error (.value "SCIM User id belongs to a different tenant.")
  else upsertIdentity table row fun old =>
    { row with tenantId := old.tenantId, identityType := old.identityType }

/-- The `UPDATE` of `delete_user`. -/
def IdentityRow.deactivate (id now : String) (row : IdentityRow) : IdentityRow :=
  if row.id = id then { row with active := false, updatedAt := now } else row

theorem deactivate_conflict (id now : String) (a b : IdentityRow)
    (h : Constrained.Conflict (a.deactivate id now) (b.deactivate id now)) :
    Constrained.Conflict a b := by
  unfold IdentityRow.deactivate at h
  split at h <;> split at h <;> exact h

/-- `delete_user`; `none` when there is no such user. -/
def deleteUser (table : Table IdentityRow) (id tenant now : String) : Option (Table IdentityRow) :=
  if table.any fun row => row.id = id && row.tenantId = tenant then
    some (table.map (·.deactivate id now) (deactivate_conflict id now))
  else none

/-- The arguments of `upsert_identity_from_tailnet`. -/
structure TailnetIdentity where
  tenantId : String
  externalId : String
  loginName : String
  displayName : Option String := none
  tsType : String := "member"
  active : Bool
  deriving DecidableEq, Repr

namespace TailnetIdentity

variable (p : Platform) (user : TailnetIdentity)

/-- The login. -/
def login : String := p.lower (p.stripSpace user.loginName)

/-- The identity of a tailnet user. -/
def identityId : String :=
  p.stableId "idn" [user.tenantId, orElse user.externalId (user.login p)]

/-- The row of a tailnet user. -/
def row (now : String) : IdentityRow where
  id := user.identityId p
  tenantId := user.tenantId
  externalId := some (orElse user.externalId (user.login p))
  userName := user.login p
  displayName := some (optOr user.displayName (user.login p))
  email := if (user.login p).toList.contains '@' then some (user.login p) else none
  active := user.active
  rawJson := .obj [("source", .str "tailscale"), ("tsType", .str user.tsType),
    ("loginName", .str (user.login p)),
    ("displayName", .str (optOr user.displayName (user.login p))),
    ("externalId", .str (orElse user.externalId (user.login p)))]
  updatedAt := now

end TailnetIdentity

/-- `upsert_identity_from_tailnet`. -/
def upsertIdentityFromTailnet (p : Platform) (table : Table IdentityRow) (user : TailnetIdentity)
    (now : String) : Except Failure (Table IdentityRow) :=
  let row := user.row p now
  upsertIdentity table row fun old =>
    { row with
      tenantId := old.tenantId, identityType := old.identityType, entraObjectId := old.entraObjectId }

/-- The request of a principal, with the display name `models.Principal` has. -/
structure SignIn where
  principal : Principal
  displayName : Option String := none

namespace SignIn

variable (p : Platform) (request : SignIn)

/-- The subject, cut to 256 characters. -/
def subject : String := String.ofList (request.principal.subject.toList.take 256)

/-- The identity of the principal. -/
def identityId : String := Capmesh.ensureIdentityForPrincipal p request.principal

/-- The email of the principal, else a subject that looks like one. -/
def email : Option String :=
  if present request.principal.email then request.principal.email
  else if request.subject.toList.contains '@' then some request.subject else none

/-- `principal.to_dict()`. -/
def toDict : Json :=
  let text := fun value : Option String => (value.map Json.str).getD .null
  let list := fun items : List String => Json.arr (items.map .str)
  .obj [("subject", .str request.principal.subject), ("tenantId", .str request.principal.tenantId),
    ("identityId", text request.principal.identityId), ("email", text request.principal.email),
    ("displayName", text request.displayName), ("appId", text request.principal.appId),
    ("groups", list request.principal.groups), ("roles", list request.principal.roles),
    ("scopes", list request.principal.scopes),
    ("authenticated", .bool request.principal.authenticated),
    ("disabled", .bool request.principal.disabled)]

/-- The row of a principal. -/
def row (now : String) : IdentityRow where
  id := request.identityId p
  tenantId := p.tenantOr request.principal.tenantId
  externalId := some request.principal.subject
  userName := request.principal.subject
  displayName := some (optOr request.displayName request.principal.subject)
  email := request.email
  active := true
  rawJson := .obj [("principal", request.toDict)]
  updatedAt := now

/-- The fast path: a row of the tenant that says all this already. -/
def isUnchanged (now : String) (old : IdentityRow) : Bool :=
  let row := request.row p now
  old.id = row.id && old.tenantId = row.tenantId && old.userName = row.userName &&
    old.displayName = row.displayName && (row.email = none || old.email = row.email) &&
    old.identityType = "human" && old.active &&
    old.rawJson.canonicalText = row.rawJson.canonicalText

/-- `ensure_identity_for_principal`, on the table of identities. -/
def ensureIdentityForPrincipal (table : Table IdentityRow) (now : String) :
    Except Failure (Table IdentityRow) :=
  let row := request.row p now
  if table.any (request.isUnchanged p now) then .ok table
  else upsertIdentity table row fun old =>
    { row with
      tenantId := old.tenantId, externalId := old.externalId
      email := row.email.or old.email
      identityType := old.identityType, entraObjectId := old.entraObjectId }

end SignIn

section

variable {p : Platform} {table result : Table IdentityRow} {row : IdentityRow}
variable {refresh : IdentityRow → IdentityRow} {now : String}

theorem identity_conflict_of_id (a b : IdentityRow) (h : a.id = b.id) : Constrained.Conflict a b :=
  .inl h

theorem identity_eq_of_id {a b : IdentityRow} (ha : a ∈ table) (hb : b ∈ table)
    (h : a.id = b.id) : a = b := Table.eq_of_conflict ha hb (.inl h)

/-- The tenant of an identity: that of the row with its id, else the one it is written for. -/
def tenantOf (table : Table IdentityRow) (id tenant : String) : String :=
  ((table.find? (·.id = id)).map (·.tenantId)).getD tenant

theorem tenant_of_mem {old : IdentityRow} (hold : old ∈ table) (tenant : String) :
    tenantOf table old.id tenant = old.tenantId := by
  have hfind : table.find? (·.id = old.id) = some old :=
    Table.find?_eq_some hold (by simp) fun y hy hid => .inl (by simpa using hid)
  simp [tenantOf, hfind]

theorem tenant_of_not_mem {id : String} (h : ∀ x ∈ table, x.id ≠ id) (tenant : String) :
    tenantOf table id tenant = tenant := by
  cases hfind : table.find? (·.id = id) with
  | none => simp [tenantOf, hfind]
  | some x =>
      obtain ⟨hx, hid⟩ := Table.find?_some hfind
      exact absurd (by simpa using hid) (h x hx)

/-- What a write leaves: one row with this id, tenant, flag and time in place of the old one. -/
structure Wrote (table result : Table IdentityRow) (id tenant : String) (active : Bool)
    (now : String) : Prop where
  row : ∃ written, Table.Replaced (·.id) table result written ∧ written.id = id ∧
    written.tenantId = tenantOf table id tenant ∧ written.active = active ∧ written.updatedAt = now

theorem upsert_identity_wrote
    (h : upsertIdentity table row refresh = .ok result)
    (hrefresh : ∀ old, (refresh old).id = row.id ∧ (refresh old).tenantId = old.tenantId ∧
      (refresh old).active = row.active ∧ (refresh old).updatedAt = row.updatedAt) :
    Wrote table result row.id row.tenantId row.active row.updatedAt := by
  obtain ⟨written, hreplaced, ⟨rfl, hnone⟩ | ⟨old, hold, hid, rfl⟩⟩ :=
    Table.mem_upsert? identity_conflict_of_id (constrained_ok h) fun old => (hrefresh old).1
  · exact ⟨written, hreplaced, rfl, (tenant_of_not_mem hnone _).symm, rfl, rfl⟩
  · obtain ⟨hrowId, htenant, hactive, hnow⟩ := hrefresh old
    exact ⟨_, hreplaced, hrowId, by rw [htenant, ← hid, tenant_of_mem hold], hactive, hnow⟩

/-- What the writers leave. -/
theorem upsert_user_wrote {user : ScimUser} (h : upsertUser p table user now = .ok result) :
    Wrote table result (user.identityId p) user.tenantId user.active now := by
  unfold upsertUser at h
  dsimp only at h
  split at h
  · cases h
  · split at h
    · cases h
    · exact upsert_identity_wrote h fun _ => ⟨rfl, rfl, rfl, rfl⟩

theorem upsert_identity_from_tailnet_wrote {user : TailnetIdentity}
    (h : upsertIdentityFromTailnet p table user now = .ok result) :
    Wrote table result (user.identityId p) user.tenantId user.active now := by
  unfold upsertIdentityFromTailnet at h
  exact upsert_identity_wrote h fun _ => ⟨rfl, rfl, rfl, rfl⟩

theorem delete_user_wrote {id tenant : String} (h : deleteUser table id tenant now = some result) :
    Wrote table result id tenant false now := by
  unfold deleteUser at h
  split at h
  · rename_i hany
    cases h
    obtain ⟨old, hold, hid⟩ := Table.any_iff.mp hany
    simp only [Bool.and_eq_true, decide_eq_true_eq] at hid
    obtain ⟨rfl, rfl⟩ := hid
    refine ⟨old.deactivate old.id now, fun x => ?_, ?_⟩
    · rw [Table.mem_map]
      simp only [IdentityRow.deactivate, if_true]
      constructor
      · rintro ⟨y, hy, rfl⟩
        by_cases hsame : y.id = old.id
        · rw [if_pos hsame, identity_eq_of_id hy hold hsame]
          exact .inl rfl
        · rw [if_neg hsame]
          exact .inr ⟨hy, hsame⟩
      · rintro (rfl | ⟨hx, hne⟩)
        · exact ⟨old, hold, if_pos rfl⟩
        · exact ⟨x, hx, if_neg hne⟩
    · simp [IdentityRow.deactivate, tenant_of_mem hold]
  · cases h

/-- A request writes nothing, or a row that is active. -/
theorem ensure_identity_for_principal_wrote {request : SignIn}
    (h : request.ensureIdentityForPrincipal p table now = .ok result) :
    table.any (request.isUnchanged p now) = true ∧ result = table ∨
      table.any (request.isUnchanged p now) = false ∧ Wrote table result (request.identityId p)
        (p.tenantOr request.principal.tenantId) true now := by
  unfold SignIn.ensureIdentityForPrincipal at h
  dsimp only at h
  split at h
  · rename_i hunchanged
    cases h
    exact .inl ⟨hunchanged, rfl⟩
  · rename_i hchanged
    have hwrote := upsert_identity_wrote h fun _ => ⟨rfl, rfl, rfl, rfl⟩
    exact .inr ⟨by simpa using hchanged, hwrote⟩

end

end Capmesh
