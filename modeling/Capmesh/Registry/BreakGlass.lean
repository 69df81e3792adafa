import Capmesh.Access.Monotone
import Capmesh.Registry.AuditMirror

/-!
# Break-glass sessions

`break_glass.py` grants temporary sessions, revokes them, and tells whether one is active. The
rights they stand for come from nowhere: `evaluate_access` reads no session, and
`_break_glass_active` of `governance.py` has no caller. `elevates_step` says which step makes a
session active, and `break_glass_effective_iff` in which runs the sessions and the decisions agree.
-/

namespace Capmesh

open Python Relational Execution

/-- A row of `break_glass_sessions`. Its times are kept as instants in microseconds: all of them
are written in UTC, where a later instant has the greater text. -/
structure BreakGlassSession where
  id : String
  tenantId : String
  principal : String
  reason : String
  grantedBy : String
  expiresAt : Nat
  revokedAt : Option Nat
  createdAt : Nat
  deriving DecidableEq, Repr

instance : Constrained BreakGlassSession where
  Conflict a b := a.id = b.id
  symm := Eq.symm
  decidable := fun a b => inferInstanceAs (Decidable (a.id = b.id))

/-- The sessions, the audit trail, and the clock. -/
structure BreakGlassHost where
  sessions : Table BreakGlassSession
  audit : List AuditEvent
  now : Nat

/-- `MAX_BREAK_GLASS_TTL_MINUTES`. -/
def maxBreakGlassTtlMinutes : Int := 120

/-- The arguments of `grant_break_glass`, and the id the session gets. -/
structure BreakGlassGrant where
  sessionId : String
  principal : String
  reason : String
  grantedBy : String
  tenantId : String := "asg"
  ttlMinutes : Int := 30

/-- What `grant_break_glass` returns. -/
structure BreakGlassReceipt where
  sessionId : String
  principal : String
  reason : String
  grantedBy : String
  expiresAt : Nat
  ttlMinutes : Int
  deriving DecidableEq, Repr

/-- The microseconds of a number of minutes. -/
def minutes (count : Int) : Nat := count.toNat * 60000000

/-- The row a grant inserts. -/
def BreakGlassGrant.session (call : BreakGlassGrant) (now : Nat) : BreakGlassSession where
  id := call.sessionId
  tenantId := call.tenantId
  principal := call.principal
  reason := call.reason
  grantedBy := call.grantedBy
  expiresAt := now + minutes call.ttlMinutes
  revokedAt := none
  createdAt := now

/-- `grant_break_glass`. -/
def grantBreakGlass (p : Platform) (host : BreakGlassHost) (call : BreakGlassGrant) :
    Except Failure (BreakGlassHost × BreakGlassReceipt) := do
  if p.stripSpace call.reason = "" then
    throw (.value "Break-glass requires a non-empty reason")
  if call.ttlMinutes < 1 ∨ maxBreakGlassTtlMinutes < call.ttlMinutes then
    throw (.value "Break-glass TTL must be between 1 and 120 minutes")
  let session := call.session host.now
  let sessions ← constrained "break_glass_sessions.id" (host.sessions.insert? session)
  let event := (DirectEvent.breakGlassGrant call.tenantId call.grantedBy call.principal).event
  return ({ host with sessions, audit := host.audit ++ [event] },
    ⟨call.sessionId, call.principal, call.reason, call.grantedBy, session.expiresAt,
      call.ttlMinutes⟩)

/-- The arguments of `revoke_break_glass`. -/
structure BreakGlassRevocation where
  sessionId : String
  revokedBy : String
  tenantId : String := "asg"

/-- What `revoke_break_glass` returns. -/
structure BreakGlassRevoked where
  sessionId : String
  principal : String
  revokedBy : String
  revokedAt : Nat
  status : String := "revoked"
  deriving DecidableEq, Repr

/-- The session of that id in that tenant. -/
def BreakGlassHost.sessionAt (host : BreakGlassHost) (sessionId tenantId : String) :
    Option BreakGlassSession :=
  host.sessions.find? fun row => row.id = sessionId && row.tenantId = tenantId

/-- `UPDATE break_glass_sessions SET revoked_at = ? WHERE id = ?`. -/
def BreakGlassSession.revoke (sessionId : String) (now : Nat) (row : BreakGlassSession) :
    BreakGlassSession :=
  if row.id = sessionId then { row with revokedAt := some now } else row

@[simp] theorem BreakGlassSession.revoke_id (sessionId : String) (now : Nat)
    (row : BreakGlassSession) : (row.revoke sessionId now).id = row.id := by
  unfold BreakGlassSession.revoke
  split <;> rfl

/-- `revoke_break_glass`. -/
def revokeBreakGlass (host : BreakGlassHost) (call : BreakGlassRevocation) :
    Except Failure (BreakGlassHost × BreakGlassRevoked) :=
  match host.sessionAt call.sessionId call.tenantId with
  | none => .error (.value ("Break-glass session not found: " ++ call.sessionId))
  | some row =>
      if row.revokedAt ≠ none then .error (.value "Break-glass session already revoked")
      else
        let sessions := host.sessions.map (·.revoke call.sessionId host.now) fun a b hconflict =>
          (BreakGlassSession.revoke_id _ _ a).symm.trans
            (hconflict.trans (BreakGlassSession.revoke_id _ _ b))
        let event :=
          (DirectEvent.breakGlassRevoke call.tenantId call.revokedBy call.sessionId).event
        .ok ({ host with sessions, audit := host.audit ++ [event] },
          { sessionId := call.sessionId, principal := row.principal, revokedBy := call.revokedBy
            revokedAt := host.now })

/-- `is_break_glass_active`. -/
def isBreakGlassActive (host : BreakGlassHost) (sessionId tenantId : String) : Bool :=
  match host.sessionAt sessionId tenantId with
  | none => false
  | some row => row.revokedAt = none && host.now < row.expiresAt

/-- A grant, a revocation, or some microseconds that pass. -/
inductive BreakGlassOp where
  | grant (call : BreakGlassGrant)
  | revoke (call : BreakGlassRevocation)
  | pass (elapsed : Nat)

/-- One step; a call that raises has written nothing. -/
def breakGlassStep (p : Platform) (host : BreakGlassHost) : BreakGlassOp → BreakGlassHost
  | .grant call =>
      match grantBreakGlass p host call with
      | .ok (after, _) => after
      | .error _ => host
  | .revoke call =>
      match revokeBreakGlass host call with
      | .ok (after, _) => after
      | .error _ => host
  | .pass elapsed => { host with now := host.now + elapsed }

/-- Some session of a tenant for a principal is active. -/
def BreakGlassHost.Elevates (host : BreakGlassHost) (tenantId principal : String) : Prop :=
  ∃ row ∈ host.sessions, row.tenantId = tenantId ∧ row.principal = principal ∧
    isBreakGlassActive host row.id tenantId = true

/-- A grant of a session to a principal that passes the checks and gets an id no session has. -/
def BreakGlassOp.Opens (p : Platform) (tenantId principal : String) (host : BreakGlassHost) :
    BreakGlassOp → Prop
  | .grant call => call.tenantId = tenantId ∧ call.principal = principal ∧
      p.stripSpace call.reason ≠ "" ∧ 1 ≤ call.ttlMinutes ∧
      call.ttlMinutes ≤ maxBreakGlassTtlMinutes ∧ ∀ row ∈ host.sessions, row.id ≠ call.sessionId
  | .revoke _ | .pass _ => False

/-- An enabled principal without a grant, and a capability of its tenant that is not blocked and
needs no step-up, at every instant. -/
structure NeedsBreakGlass (p : Platform) (access : Nat → AccessContext) (principal : Principal)
    (cap : Capability) : Prop where
  enabled : ∀ now, isDisabled p (access now).directory principal = false
  ungranted : ∀ now, ∀ right ∈ accessRights,
    ¬ Granted p (access now) ⟨principal, right, some cap, none⟩
  tenant : p.tenantOr cap.tenantId = p.tenantOr principal.tenantId
  unblocked : cap.isBlocked = false
  noStepUp : ∀ right ∈ accessRights, requiresStepUp right (some cap) = false

/-- After every part of a run, the principal is allowed every right on the capability exactly when
some session of its tenant is active for it. -/
def BreakGlassEffective (p : Platform) (access : Nat → AccessContext) (principal : Principal)
    (cap : Capability) (host : BreakGlassHost) (ops : List BreakGlassOp) : Prop :=
  ∀ first second, ops = first ++ second →
    ((∀ right ∈ accessRights, (evaluateAccess p
        (access (run (breakGlassStep p) host first).now)
        ⟨principal, right, some cap, none⟩).allowed = true) ↔
      (run (breakGlassStep p) host first).Elevates (p.tenantOr principal.tenantId)
        principal.subject)

section

variable {p : Platform} {host : BreakGlassHost} {tenant subject : String}

theorem session_at_eq {row : BreakGlassSession} (hrow : row ∈ host.sessions)
    (htenant : row.tenantId = tenant) : host.sessionAt row.id tenant = some row := by
  refine Table.find?_eq_some hrow (by simp [htenant]) fun other _ hother => ?_
  have hid : other.id = row.id ∧ other.tenantId = tenant := by simpa using hother
  exact hid.1

theorem elevates_iff : host.Elevates tenant subject ↔
    ∃ row ∈ host.sessions, row.tenantId = tenant ∧ row.principal = subject ∧
      row.revokedAt = none ∧ host.now < row.expiresAt := by
  refine exists_congr fun row => and_congr_right fun hrow => and_congr_right fun htenant =>
    and_congr_right fun _ => ?_
  simp [isBreakGlassActive, session_at_eq hrow htenant]

theorem grant_break_glass_ok {call : BreakGlassGrant} {after : BreakGlassHost}
    {receipt : BreakGlassReceipt} (h : grantBreakGlass p host call = .ok (after, receipt)) :
    p.stripSpace call.reason ≠ "" ∧ 1 ≤ call.ttlMinutes ∧
      call.ttlMinutes ≤ maxBreakGlassTtlMinutes ∧
      host.sessions.insert? (call.session host.now) = some after.sessions ∧
      after.now = host.now := by
  unfold grantBreakGlass at h
  by_cases hreason : p.stripSpace call.reason = ""
  · rw [if_pos hreason] at h
    cases h
  rw [if_neg hreason] at h
  by_cases httl : call.ttlMinutes < 1 ∨ maxBreakGlassTtlMinutes < call.ttlMinutes
  · rw [if_pos httl] at h
    cases h
  rw [if_neg httl] at h
  obtain ⟨sessions, hsessions, h⟩ := bind_eq_ok h
  cases h
  exact ⟨hreason, by omega, by omega, constrained_ok hsessions, rfl⟩

theorem revoke_break_glass_ok {call : BreakGlassRevocation} {after : BreakGlassHost}
    {receipt : BreakGlassRevoked} (h : revokeBreakGlass host call = .ok (after, receipt)) :
    after.now = host.now ∧
      ∀ row ∈ after.sessions, row ∈ host.sessions ∨ row.revokedAt ≠ none := by
  unfold revokeBreakGlass at h
  cases hfind : host.sessionAt call.sessionId call.tenantId with
  | none =>
      rw [hfind] at h
      cases h
  | some session =>
      simp only [hfind] at h
      by_cases hrevoked : session.revokedAt ≠ none
      · rw [if_pos hrevoked] at h
        cases h
      rw [if_neg hrevoked] at h
      cases h
      refine ⟨rfl, fun row hrow => ?_⟩
      obtain ⟨before, hbefore, rfl⟩ := List.mem_map.mp hrow
      unfold BreakGlassSession.revoke
      split
      · exact .inr (by simp)
      · exact .inl hbefore

/-- A principal that is elevated after a step was so before, or the step opens a session for it:
neither a revocation nor the passing of time makes a session active. -/
theorem elevates_step {op : BreakGlassOp} (h : (breakGlassStep p host op).Elevates tenant subject) :
    host.Elevates tenant subject ∨ op.Opens p tenant subject host := by
  rw [elevates_iff] at h
  obtain ⟨row, hrow, htenant, hsubject, hlive, hexpiry⟩ := h
  have hkept (hrow : row ∈ host.sessions) (hbefore : host.now < row.expiresAt) :
      host.Elevates tenant subject :=
    elevates_iff.mpr ⟨row, hrow, htenant, hsubject, hlive, hbefore⟩
  cases op with
  | grant call =>
      unfold breakGlassStep at hrow hexpiry
      cases hcall : grantBreakGlass p host call with
      | error failure =>
          simp only [hcall] at hrow hexpiry
          exact .inl (hkept hrow hexpiry)
      | ok result =>
          obtain ⟨after, receipt⟩ := result
          simp only [hcall] at hrow hexpiry
          obtain ⟨hreason, hlow, hhigh, hinsert, hnow⟩ := grant_break_glass_ok hcall
          rw [hnow] at hexpiry
          rcases (Table.mem_insert? hinsert row).mp hrow with hrow | rfl
          · exact .inl (hkept hrow hexpiry)
          · exact .inr ⟨htenant, hsubject, hreason, hlow, hhigh,
              Table.not_conflict_of_insert? hinsert⟩
  | revoke call =>
      unfold breakGlassStep at hrow hexpiry
      cases hcall : revokeBreakGlass host call with
      | error failure =>
          simp only [hcall] at hrow hexpiry
          exact .inl (hkept hrow hexpiry)
      | ok result =>
          obtain ⟨after, receipt⟩ := result
          simp only [hcall] at hrow hexpiry
          obtain ⟨hnow, hrows⟩ := revoke_break_glass_ok hcall
          rw [hnow] at hexpiry
          rcases hrows row hrow with hbefore | hrevoked
          · exact .inl (hkept hbefore hexpiry)
          · exact absurd hlive hrevoked
  | pass elapsed =>
      have hbefore : host.now < row.expiresAt := by
        have hlater : host.now + elapsed < row.expiresAt := hexpiry
        omega
      exact .inl (hkept hrow hbefore)

/-- The session a step opens is active after it. -/
theorem elevates_of_opens {op : BreakGlassOp} (h : op.Opens p tenant subject host) :
    (breakGlassStep p host op).Elevates tenant subject := by
  cases op with
  | revoke | pass => exact h.elim
  | grant call =>
      obtain ⟨htenant, hsubject, hreason, hlow, hhigh, hfresh⟩ := h
      have hinserts : (host.sessions.insert? (call.session host.now)).isSome :=
        Table.insert?_isSome_iff.mpr hfresh
      obtain ⟨sessions, hsessions⟩ := Option.isSome_iff_exists.mp hinserts
      have hexpiry : host.now < (call.session host.now).expiresAt := by
        show host.now < host.now + call.ttlMinutes.toNat * 60000000
        omega
      have httl : ¬ (call.ttlMinutes < 1 ∨ maxBreakGlassTtlMinutes < call.ttlMinutes) := by omega
      have hstep : (breakGlassStep p host (.grant call)).sessions = sessions ∧
          (breakGlassStep p host (.grant call)).now = host.now := by
        simp [breakGlassStep, grantBreakGlass, hreason, httl, hsessions, constrained]
      refine elevates_iff.mpr ⟨call.session host.now, ?_, htenant, hsubject, rfl, ?_⟩
      · rw [hstep.1]
        exact (Table.mem_insert? hsessions _).mpr (.inr rfl)
      · rw [hstep.2]
        exact hexpiry

/-- No principal without a grant is allowed a right, whatever sessions it has. -/
theorem not_allowed_of_needs {access : Nat → AccessContext} {principal : Principal}
    {cap : Capability} (h : NeedsBreakGlass p access principal cap) (now : Nat) :
    ¬ ∀ right ∈ accessRights,
      (evaluateAccess p (access now) ⟨principal, right, some cap, none⟩).allowed = true := by
  intro hallowed
  have hload : "load" ∈ accessRights := by decide
  exact h.ungranted now "load" hload (evaluate_access_allowed_iff.mp (hallowed "load" hload)).2.2

/-- **Break-glass.** The decisions follow the sessions of a principal in a run exactly when none is
active at its start and no step of it opens one. -/
theorem break_glass_effective_iff {access : Nat → AccessContext} {principal : Principal}
    {cap : Capability} (h : NeedsBreakGlass p access principal cap) (host : BreakGlassHost)
    (ops : List BreakGlassOp) : BreakGlassEffective p access principal cap host ops ↔
      ¬ host.Elevates (p.tenantOr principal.tenantId) principal.subject ∧
      Along (breakGlassStep p) (fun host op =>
        ¬ op.Opens p (p.tenantOr principal.tenantId) principal.subject host) host ops := by
  have hnever : BreakGlassEffective p access principal cap host ops ↔
      ∀ first second, ops = first ++ second →
        ¬ (run (breakGlassStep p) host first).Elevates (p.tenantOr principal.tenantId)
          principal.subject := by
    refine forall_congr' fun first => forall_congr' fun second => imp_congr_right fun _ => ?_
    rw [iff_false_left (not_allowed_of_needs h _)]
  rw [hnever]
  constructor
  · intro hquiet
    refine ⟨hquiet [] ops rfl, (along_iff host ops).mpr fun first op second hsplit hopens => ?_⟩
    have hafter := hquiet (first ++ [op]) second (by rw [hsplit]; simp)
    rw [run_append] at hafter
    exact hafter (elevates_of_opens hopens)
  · rintro ⟨hstart, halong⟩ first second rfl
    have hfirst := ((along_append host first second).mp halong).1
    refine run_invariant_along (I := fun host =>
      ¬ host.Elevates (p.tenantOr principal.tenantId) principal.subject) ?_ hfirst hstart
    intro host op hcloses hquiet hafter
    exact (elevates_step hafter).elim hquiet hcloses

end

/-- A principal of the tenant `asg` without roles or scopes. -/
def onCall : Principal :=
  { subject := "alice", tenantId := "asg", groups := [], roles := [], scopes := [] }

/-- A secret skill of somebody else. -/
def carolSecret : Capability :=
  { notesSkill "sha256:v1" with tenantId := "asg", owner := "carol", visibility := .secret }

/-- A registry without sessions. -/
def calmHost : BreakGlassHost := ⟨.empty, [], 0⟩

/-- A grant for half an hour. -/
def outageGrant : BreakGlassGrant :=
  { sessionId := "bg_1", principal := "alice", reason := "outage", grantedBy := "admin" }

theorem on_call_needs : NeedsBreakGlass .sample (fun _ => bareContext) onCall carolSecret where
  enabled _ := by decide +kernel
  ungranted _ := by
    intro right hright
    have hno : ∀ right ∈ accessRights, ∀ rule ∈
        accessGrants .sample bareContext ⟨onCall, right, some carolSecret, none⟩,
        rule.applies = false := by decide +kernel
    rintro ⟨rule, hrule, happlies⟩
    exact Bool.false_ne_true ((hno right hright rule hrule).symm.trans happlies)
  tenant := by decide
  unblocked := by decide
  noStepUp := by decide

/-- While its session is active, the principal is refused. -/
theorem break_glass_counterexample :
    ¬ ∀ (p : Platform) (access : Nat → AccessContext) (principal : Principal) (cap : Capability)
      (ops : List BreakGlassOp), NeedsBreakGlass p access principal cap →
      BreakGlassEffective p access principal cap calmHost ops := by
  intro hclaim
  have hactive : (breakGlassStep .sample calmHost (.grant outageGrant)).Elevates "asg" "alice" :=
    elevates_of_opens ⟨rfl, rfl, by decide +kernel, by decide, by decide, by simp [calmHost]⟩
  have hallowed := (hclaim .sample (fun _ => bareContext) onCall carolSecret [.grant outageGrant]
    on_call_needs [.grant outageGrant] [] rfl).mpr hactive
  exact not_allowed_of_needs on_call_needs 0 hallowed

theorem break_glass_on_call :
    BreakGlassEffective .sample (fun _ => bareContext) onCall carolSecret calmHost
        [.grant outageGrant] ↔
      ¬ calmHost.Elevates "asg" "alice" ∧
      Along (breakGlassStep .sample) (fun host op => ¬ op.Opens .sample "asg" "alice" host)
        calmHost [.grant outageGrant] :=
  break_glass_effective_iff on_call_needs calmHost [.grant outageGrant]

end Capmesh
