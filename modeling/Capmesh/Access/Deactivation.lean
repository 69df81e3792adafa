import Capmesh.Access.Monotone
import Capmesh.Directory.Identities
import Capmesh.Execution.Run

/-!
# Deactivated identities

Provisioning sets identities inactive and active; the requests of a principal write its own row.
A state keeps, beside the identities, those that provisioning last set inactive. `is_disabled`
looks at the matching row updated last, so a deactivation lasts exactly while no active row of the
tenant is as recent: `Outlasting` says so, and `sticks_of_outlasting` that access is then denied.
`deactivation_sticks_along` is the result over runs.
-/

namespace Capmesh

open Python Relational Execution

/-- The identities, and the ids of those that provisioning last set inactive. -/
structure Provisioned where
  identities : Table IdentityRow
  deactivated : List String

/-- What writes identities. -/
inductive IdentityAction where
  | upsertUser (user : ScimUser) (now : String)
  | deleteUser (id tenant now : String)
  | upsertFromTailnet (user : TailnetIdentity) (now : String)
  | request (signIn : SignIn) (now : String)

/-- The row an action writes: its id, the tenant it is written for, its flag and its time. -/
structure IdentityWrite where
  id : String
  tenantId : String
  active : Bool
  now : String
  deriving DecidableEq, Repr

namespace IdentityAction

variable (p : Platform)

/-- What an action writes. -/
def write : IdentityAction → IdentityWrite
  | .upsertUser user now => ⟨user.identityId p, user.tenantId, user.active, now⟩
  | .deleteUser id tenant now => ⟨id, tenant, false, now⟩
  | .upsertFromTailnet user now => ⟨user.identityId p, user.tenantId, user.active, now⟩
  | .request signIn now =>
      ⟨signIn.identityId p, p.tenantOr signIn.principal.tenantId, true, now⟩

/-- Whether provisioning takes the action. -/
def isProvisioning : IdentityAction → Bool
  | .request .. => false
  | _ => true

/-- The table after an action, or nothing when it is refused. -/
def attempt (table : Table IdentityRow) : IdentityAction → Option (Table IdentityRow)
  | .upsertUser user now => (Capmesh.upsertUser p table user now).toOption
  | .deleteUser id tenant now => Capmesh.deleteUser table id tenant now
  | .upsertFromTailnet user now => (upsertIdentityFromTailnet p table user now).toOption
  | .request signIn now => (signIn.ensureIdentityForPrincipal p table now).toOption

/-- Whether an action writes: it is not refused, and not a request of a principal whose row says
all it would write. -/
def Writes (table : Table IdentityRow) (action : IdentityAction) : Prop :=
  (action.attempt p table).isSome ∧
    match action with
    | .request signIn now => table.any (signIn.isUnchanged p now) = false
    | _ => True

end IdentityAction

instance (p : Platform) (table : Table IdentityRow) (action : IdentityAction) :
    Decidable (action.Writes p table) := by
  cases action <;> exact inferInstanceAs (Decidable (_ ∧ _))

/-- The identities set inactive after an action that was not refused. -/
def deactivatedAfter (p : Platform) (deactivated : List String) (action : IdentityAction) :
    List String :=
  if action.isProvisioning then
    if (action.write p).active then deactivated.filter (· ≠ (action.write p).id)
    else (action.write p).id :: deactivated
  else deactivated

/-- One action. -/
def identityStep (p : Platform) (state : Provisioned) (action : IdentityAction) : Provisioned :=
  match action.attempt p state.identities with
  | some table => ⟨table, deactivatedAfter p state.deactivated action⟩
  | none => state

/-- A principal of the tenant whose id, subject or email is that of an identity. -/
def IdentityRow.IsOf (p : Platform) (row : IdentityRow) (principal : Principal) : Prop :=
  row.tenantId = p.tenantOr principal.tenantId ∧
    (row.userName = principal.subject ∨
      present principal.identityId = true ∧ some row.id = principal.identityId ∨
      present principal.email = true ∧ row.email = principal.email)

/-- Access is denied to every principal of a deactivated identity, for every right and in every
context with these identities. -/
def DeactivationSticks (p : Platform) (state : Provisioned) : Prop :=
  ∀ row ∈ state.identities, row.id ∈ state.deactivated →
    ∀ (ctx : AccessContext) (request : AccessRequest),
      ctx.directory.identities = state.identities.rows.map (·.identity) →
      row.IsOf p request.principal → (evaluateAccess p ctx request).allowed = false

/-- An active row is written over no identity that provisioning set inactive, unless provisioning
writes it, and no other one of its tenant was set inactive before it. An inactive row is written
after the active ones of its tenant. -/
def IdentityWrite.Respects (write : IdentityWrite) (isProvisioning : Bool) (state : Provisioned) :
    Prop :=
  if write.active then
    (isProvisioning = true ∨ write.id ∉ state.deactivated) ∧
      ∀ row ∈ state.identities, row.id ∈ state.deactivated → row.id ≠ write.id →
        row.tenantId = tenantOf state.identities write.id write.tenantId →
        write.now < row.updatedAt
  else ∀ row ∈ state.identities, row.active = true → row.id ≠ write.id →
    row.tenantId = tenantOf state.identities write.id write.tenantId → row.updatedAt < write.now

instance (write : IdentityWrite) (isProvisioning : Bool) (state : Provisioned) :
    Decidable (write.Respects isProvisioning state) :=
  inferInstanceAs (Decidable (if write.active then
    (isProvisioning = true ∨ write.id ∉ state.deactivated) ∧
      ∀ row ∈ state.identities.rows, row.id ∈ state.deactivated → row.id ≠ write.id →
        row.tenantId = tenantOf state.identities write.id write.tenantId →
        write.now < row.updatedAt
  else ∀ row ∈ state.identities.rows, row.active = true → row.id ≠ write.id →
    row.tenantId = tenantOf state.identities write.id write.tenantId →
    row.updatedAt < write.now))

/-- What an action writes respects the deactivations. -/
def Respects (p : Platform) (state : Provisioned) (action : IdentityAction) : Prop :=
  action.Writes p state.identities → (action.write p).Respects action.isProvisioning state

instance (p : Platform) (state : Provisioned) (action : IdentityAction) :
    Decidable (Respects p state action) :=
  inferInstanceAs (Decidable (_ → _))

/-- Every identity set inactive is inactive, and more recent than the active ones of its tenant. -/
def Outlasting (state : Provisioned) : Prop :=
  ∀ row ∈ state.identities, row.id ∈ state.deactivated → row.active = false ∧
    ∀ other ∈ state.identities, other.active = true → other.tenantId = row.tenantId →
      other.updatedAt < row.updatedAt

section

variable {p : Platform} {state : Provisioned} {action : IdentityAction}
variable {table : Table IdentityRow}

/-- The rows `is_disabled` selects are those of the principal. -/
theorem mem_matching_identities {directory : Directory} {principal : Principal}
    (hidentities : directory.identities = table.rows.map (·.identity)) (identity : Identity) :
    identity ∈ matchingIdentities p directory principal ↔
      ∃ row ∈ table, row.IsOf p principal ∧ row.identity = identity := by
  simp only [matchingIdentities, List.mem_insertionSort, List.mem_filter, hidentities, List.mem_map,
    Table.mem_rows, Bool.and_eq_true, Bool.or_eq_true, decide_eq_true_eq, or_assoc]
  constructor
  · rintro ⟨⟨row, hrow, rfl⟩, hof⟩
    exact ⟨row, hrow, hof, rfl⟩
  · rintro ⟨row, hrow, hof, rfl⟩
    exact ⟨⟨row, hrow, rfl⟩, hof⟩

/-- The selected row updated last, when some row is selected. -/
theorem head_matching_identities {directory : Directory} {principal : Principal}
    {identity : Identity} (h : identity ∈ matchingIdentities p directory principal) :
    ∃ newest ∈ matchingIdentities p directory principal,
      (matchingIdentities p directory principal).head? = some newest ∧
        identity.updatedAt ≤ newest.updatedAt := by
  have hsorted : (matchingIdentities p directory principal).Pairwise
      fun a b => b.updatedAt ≤ a.updatedAt := by
    have : Std.Total fun a b : Identity => b.updatedAt ≤ a.updatedAt :=
      ⟨fun a b => String.le_total b.updatedAt a.updatedAt⟩
    have : IsTrans Identity fun a b => b.updatedAt ≤ a.updatedAt :=
      ⟨fun _ _ _ hab hbc => String.le_trans hbc hab⟩
    exact List.pairwise_insertionSort _ _
  cases hlist : matchingIdentities p directory principal with
  | nil =>
      rw [hlist] at h
      cases h
  | cons newest rest =>
      rw [hlist] at h hsorted
      refine ⟨newest, List.mem_cons_self, rfl, ?_⟩
      rcases List.mem_cons.mp h with rfl | hrest
      · exact String.le_refl _
      · exact (List.pairwise_cons.mp hsorted).1 identity hrest

/-- A deactivation that no active row outlives denies access. -/
theorem sticks_of_outlasting (h : Outlasting state) : DeactivationSticks p state := by
  intro row hrow hdeactivated ctx request hidentities hof
  obtain ⟨hinactive, hnewer⟩ := h row hrow hdeactivated
  have hmem : row.identity ∈ matchingIdentities p ctx.directory request.principal :=
    (mem_matching_identities hidentities _).mpr ⟨row, hrow, hof, rfl⟩
  obtain ⟨newest, hnewest, hhead, hle⟩ := head_matching_identities hmem
  obtain ⟨other, hother, hotherOf, rfl⟩ := (mem_matching_identities hidentities _).mp hnewest
  have hotherInactive : other.active = false := by
    rw [← Bool.not_eq_true]
    intro hactive
    have hlt := hnewer other hother hactive (hotherOf.1.trans hof.1.symm)
    exact String.not_lt.mpr hle hlt
  refine not_allowed_of_refused ⟨_, .head _, ?_⟩
  show isDisabled p ctx.directory request.principal = true
  simp [isDisabled, hhead, IdentityRow.identity, hotherInactive]

theorem identity_step_cases (p : Platform) (state : Provisioned) (action : IdentityAction) :
    identityStep p state action = state ∨
      action.Writes p state.identities ∧ ∃ table,
        identityStep p state action = ⟨table, deactivatedAfter p state.deactivated action⟩ ∧
        Wrote state.identities table (action.write p).id (action.write p).tenantId
          (action.write p).active (action.write p).now := by
  cases happly : action.attempt p state.identities with
  | none => exact .inl (by simp [identityStep, happly])
  | some table =>
      have hstep : identityStep p state action =
          ⟨table, deactivatedAfter p state.deactivated action⟩ := by
        simp [identityStep, happly]
      have hsome : (action.attempt p state.identities).isSome := by simp [happly]
      cases action with
      | upsertUser user now =>
          exact .inr ⟨⟨hsome, trivial⟩, table, hstep, upsert_user_wrote (to_option_eq_some happly)⟩
      | deleteUser id tenant now =>
          exact .inr ⟨⟨hsome, trivial⟩, table, hstep, delete_user_wrote happly⟩
      | upsertFromTailnet user now =>
          exact .inr ⟨⟨hsome, trivial⟩, table, hstep,
            upsert_identity_from_tailnet_wrote (to_option_eq_some happly)⟩
      | request signIn now =>
          rcases ensure_identity_for_principal_wrote (to_option_eq_some happly) with
            ⟨-, rfl⟩ | ⟨hchanged, hwrote⟩
          · exact .inl hstep
          · exact .inr ⟨⟨hsome, hchanged⟩, table, hstep, hwrote⟩

/-- A step that respects the deactivations keeps them in force. -/
theorem outlasting_step (hrespects : Respects p state action) (h : Outlasting state) :
    Outlasting (identityStep p state action) := by
  rcases identity_step_cases p state action with hsame | ⟨hwrites, table, hstep, hwrote⟩
  · rw [hsame]
    exact h
  obtain ⟨written, hreplaced, hid, htenant, hactive, hnow⟩ := hwrote.row
  have hrespects := hrespects hwrites
  unfold IdentityWrite.Respects at hrespects
  rw [← htenant, ← hid, ← hactive, ← hnow] at hrespects
  rw [hstep]
  intro row hrow hdeactivated
  simp only [deactivatedAfter, ← hid, ← hactive] at hdeactivated
  cases hflag : written.active with
  | true =>
      rw [hflag, if_pos rfl] at hrespects
      obtain ⟨hown, holder⟩ := hrespects
      -- The row written is no longer, or was not, among those set inactive.
      have hkept : row.id ∈ state.deactivated ∧ row.id ≠ written.id := by
        rw [hflag] at hdeactivated
        split at hdeactivated
        · simpa using hdeactivated
        · rename_i hrequest
          refine ⟨hdeactivated, fun hsame => ?_⟩
          exact (hown.resolve_left hrequest) (hsame ▸ hdeactivated)
      have hold : row ∈ state.identities := by
        rcases (hreplaced row).mp hrow with rfl | ⟨hold, -⟩
        · exact absurd rfl hkept.2
        · exact hold
      refine ⟨(h row hold hkept.1).1, fun other hother hotherActive hsame => ?_⟩
      rcases (hreplaced other).mp hother with rfl | ⟨hotherOld, -⟩
      · exact holder row hold hkept.1 hkept.2 hsame.symm
      · exact (h row hold hkept.1).2 other hotherOld hotherActive hsame
  | false =>
      rw [hflag, if_neg (by simp)] at hrespects
      have hotherOld : ∀ other ∈ table, other.active = true →
          other ∈ state.identities ∧ other.id ≠ written.id := by
        intro other hother hotherActive
        rcases (hreplaced other).mp hother with rfl | hold
        · rw [hflag] at hotherActive
          cases hotherActive
        · exact hold
      rcases (hreplaced row).mp hrow with rfl | ⟨hold, hne⟩
      · refine ⟨hflag, fun other hother hotherActive hsame => ?_⟩
        obtain ⟨hotherOld, hotherNe⟩ := hotherOld other hother hotherActive
        exact hrespects other hotherOld hotherActive hotherNe hsame
      · have hkept : row.id ∈ state.deactivated := by
          rw [hflag] at hdeactivated
          split at hdeactivated
          · simpa [hne] using hdeactivated
          · exact hdeactivated
        refine ⟨(h row hold hkept).1, fun other hother hotherActive hsame => ?_⟩
        exact (h row hold hkept).2 other (hotherOld other hother hotherActive).1 hotherActive hsame

/-- Along a run whose actions respect the deactivations, each of them sticks in every state the run
reaches. -/
theorem deactivation_sticks_along (table : Table IdentityRow) (actions : List IdentityAction)
    (h : Along (identityStep p) (Respects p) ⟨table, []⟩ actions) :
    ∀ first second, actions = first ++ second →
      DeactivationSticks p (run (identityStep p) ⟨table, []⟩ first) := by
  rintro first second rfl
  have halong := ((along_append _ first second).mp h).1
  have houtlasting : Outlasting (run (identityStep p) ⟨table, []⟩ first) :=
    run_invariant_along (fun _ _ => outlasting_step) halong
      fun row _ hdeactivated => absurd hdeactivated List.not_mem_nil
  exact sticks_of_outlasting houtlasting

end

/-- A user of a SCIM directory. -/
def provisionedAlice : ScimUser :=
  { tenantId := "asg", id := some "idn_alice", userName := some "alice@corp", active := true }

/-- The requests of that user. -/
def aliceSignIn : SignIn where
  principal :=
    { subject := "alice@corp", tenantId := "asg", identityId := some "idn_alice"
      roles := ["platform_admin"] }

/-- The requests of another user, whose identity the first of them writes. -/
def bobSignIn : SignIn where
  principal := { subject := "bob@corp", tenantId := "asg", identityId := some "idn_bob" }

/-- Alice is provisioned, used, deleted, set active again and deleted again. Bob's second request,
after the first deletion, finds his row as it is. -/
def aliceComesAndGoes : List IdentityAction :=
  [.upsertUser provisionedAlice "2026-01-01 09:00:00",
    .request aliceSignIn "2026-01-01 09:00:01",
    .request bobSignIn "2026-01-01 10:00:00",
    .deleteUser "idn_alice" "asg" "2026-01-02 09:00:00",
    .request bobSignIn "2026-01-02 10:00:00",
    .upsertUser provisionedAlice "2026-01-03 09:00:00",
    .deleteUser "idn_alice" "asg" "2026-01-04 09:00:00"]

theorem deactivation_sticks_along_alice :
    Along (identityStep .sample) (Respects .sample) ⟨.empty, []⟩ aliceComesAndGoes ∧
      DeactivationSticks .sample (run (identityStep .sample) ⟨.empty, []⟩ aliceComesAndGoes) := by
  have halong : Along (identityStep .sample) (Respects .sample) ⟨.empty, []⟩
      aliceComesAndGoes := by
    simp only [aliceComesAndGoes, Along, and_true]
    decide +kernel
  exact ⟨halong, deactivation_sticks_along .empty aliceComesAndGoes halong aliceComesAndGoes []
    (List.append_nil _).symm⟩

/-- Alice is provisioned and deleted, and then asks for something. -/
def aliceReturns : List IdentityAction :=
  [.upsertUser provisionedAlice "2026-01-01 09:00:00",
    .deleteUser "idn_alice" "asg" "2026-01-02 09:00:00",
    .request aliceSignIn "2026-01-02 09:00:01"]

/-- The request of a deactivated principal sets its identity active. -/
theorem deactivation_sticks_counterexample :
    ¬ ∀ (p : Platform) (table : Table IdentityRow) (actions : List IdentityAction),
      DeactivationSticks p (run (identityStep p) ⟨table, []⟩ actions) := by
  intro hclaim
  let state := run (identityStep .sample) ⟨.empty, []⟩ aliceReturns
  let ctx : AccessContext :=
    { bareContext with
      directory := { bareContext.directory with
        identities := state.identities.rows.map (·.identity) } }
  have hany : state.identities.any (fun row => row.id ∈ state.deactivated &&
      row.tenantId = "asg" && row.userName = "alice@corp") = true := by
    decide +kernel
  obtain ⟨row, hrow, hmatch⟩ := Table.any_iff.mp hany
  simp only [Bool.and_eq_true, decide_eq_true_eq] at hmatch
  obtain ⟨⟨hdeactivated, htenant⟩, huser⟩ := hmatch
  have hdenied := hclaim .sample .empty aliceReturns row hrow hdeactivated ctx
    ⟨aliceSignIn.principal, "load", none, some "doc:1"⟩ rfl ⟨htenant, .inl huser⟩
  exact absurd hdenied (by decide +kernel)

end Capmesh
