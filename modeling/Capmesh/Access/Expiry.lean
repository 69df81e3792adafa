import Capmesh.Access.Evaluate
import Capmesh.Chronology.Iso

/-!
# The expiry of shares and roles

`create_share`, `assign_role` and `add_org_member` store the text of `expiresAt` as it is,
and `share_grant` and `active_role_grant` compare it with the text of `utc_now`. For every
ISO 8601 spelling of an instant, `expiry_chronological_iff` says at which times of the clock
this is a comparison of instants: at those that are not between the instant the expiry denotes
and the time its text is read as.
-/

namespace Capmesh

open Python Relational Chronology

/-- `utc_now`. -/
def utcNow (clock : Clock) : String := String.ofList clock.stamp

/-- The text of an expiry. -/
def expiryText (expiry : IsoText) : String := String.ofList expiry.chars

/-- A table with one share. -/
def soleShare (share : ShareRow) : Table ShareRow := ⟨[share], List.pairwise_singleton _ _⟩

/-- A context with one role assignment. -/
def AccessContext.withRole (ctx : AccessContext) (role : RoleAssignment) : AccessContext :=
  { ctx with db := { ctx.db with roles := ⟨[role], List.pairwise_singleton _ _⟩ } }

/-- A share or a role that would grant a right without its expiry grants it exactly while the
expiry is later than the clock. -/
def ExpiryChronological (expiry : IsoText) (clock : Clock) : Prop :=
  (∀ share tenant subjects uri right, share.expiresAt = some (expiryText expiry) →
    shareGrant (soleShare { share with expiresAt := none }) (utcNow clock) tenant subjects uri
      right = true →
    (shareGrant (soleShare share) (utcNow clock) tenant subjects uri right = true ↔
      clock.instant < expiry.instant)) ∧
  ∀ (ctx : AccessContext) role tenant subjects right capability resourceUri,
    ctx.now = utcNow clock → role.expiresAt = some (expiryText expiry) →
    activeRoleGrant (ctx.withRole { role with expiresAt := none }) tenant subjects right capability
      resourceUri = true →
    (activeRoleGrant (ctx.withRole role) tenant subjects right capability resourceUri = true ↔
      clock.instant < expiry.instant)

section

variable {expiry : IsoText} {clock : Clock}

/-- An expiry is in the future exactly while the clock is before its reading. -/
theorem not_expired_iff :
    expired (some (expiryText expiry)) (utcNow clock) = false ↔ clock.instant < expiry.reading := by
  have hne : expiryText expiry ≠ "" := by
    intro h
    have hchars := congrArg String.toList h
    rw [expiryText, String.toList_ofList] at hchars
    simp [IsoText.chars, digits] at hchars
  rw [clock.instant_lt_iff, ← stamp_lt_iff]
  simp only [expired, hne, ne_eq, not_false_eq_true, decide_true, Bool.true_and,
    decide_eq_false_iff_not, String.not_le]
  rw [String.lt_iff, utcNow, expiryText, String.toList_ofList, String.toList_ofList]

theorem share_grant_until_expired {share : ShareRow} {now tenant uri right : String} {subjects : List String}
    (h : shareGrant (soleShare { share with expiresAt := none }) now tenant subjects uri right =
      true) :
    shareGrant (soleShare share) now tenant subjects uri right = true ↔
      expired share.expiresAt now = false := by
  simp only [shareGrant, soleShare, Table.any, List.any_cons, List.any_nil, Bool.or_false,
    Bool.and_eq_true, ShareRow.inForce, Bool.not_eq_true'] at h ⊢
  obtain ⟨huri, ⟨⟨htenant, ⟨hstate, -⟩⟩, hsubject⟩, hright⟩ := h
  constructor
  · intro hgrant
    exact hgrant.2.1.1.2.2
  · intro hlive
    exact ⟨huri, ⟨⟨htenant, hstate, hlive⟩, hsubject⟩, hright⟩

theorem active_role_grant_until_expired {ctx : AccessContext} {role : RoleAssignment}
    {tenant right : String} {subjects : List String} {capability : Option Capability}
    {resourceUri : Option String}
    (h : activeRoleGrant (ctx.withRole { role with expiresAt := none }) tenant subjects right
      capability resourceUri = true) :
    activeRoleGrant (ctx.withRole role) tenant subjects right capability resourceUri = true ↔
      expired role.expiresAt ctx.now = false := by
  simp only [activeRoleGrant, AccessContext.withRole, Table.any, List.any_cons, List.any_nil,
    Bool.or_false, Bool.and_eq_true, Bool.not_eq_true'] at h ⊢
  obtain ⟨⟨⟨hsubject, -⟩, hscope⟩, hright⟩ := h
  constructor
  · intro hgrant
    exact hgrant.1.1.2
  · intro hlive
    exact ⟨⟨⟨hsubject, hlive⟩, hscope⟩, hright⟩

/-- A share of a capability with one subject. -/
def sampleShare (expiresAt : Option String) : ShareRow where
  id := "shr_1"
  tenantId := "asg"
  capabilityUri := "cap://user/asg/alice/private/skill/notes@0.1.0"
  fromIdentityId := some "alice"
  subjectType := "user"
  subjectId := "bob"
  rights := ["load"]
  state := .active
  expiresAt := expiresAt
  revoked := false

/-- The comparison of texts is one of instants exactly when the clock is before both the reading and
the instant of the expiry or before neither. -/
theorem chronological_iff_reading : ExpiryChronological expiry clock ↔
    (clock.instant < expiry.reading ↔ clock.instant < expiry.instant) := by
  rw [← not_expired_iff]
  constructor
  · rintro ⟨hshare, -⟩
    have hgrant : shareGrant (soleShare (sampleShare none)) (utcNow clock) "asg" ["user:bob"]
        "cap://user/asg/alice/private/skill/notes@0.1.0" "load" = true := rfl
    have huntil : shareGrant (soleShare (sampleShare (some (expiryText expiry)))) (utcNow clock) "asg"
        ["user:bob"] "cap://user/asg/alice/private/skill/notes@0.1.0" "load" = true ↔
          expired (some (expiryText expiry)) (utcNow clock) = false :=
      share_grant_until_expired hgrant
    exact huntil.symm.trans (hshare (sampleShare (some (expiryText expiry))) _ _ _ _ rfl hgrant)
  · intro hlive
    refine ⟨fun share tenant subjects uri right hexpiry hgrant => ?_,
      fun ctx role tenant subjects right capability resourceUri hnow hexpiry hgrant => ?_⟩
    · rw [share_grant_until_expired hgrant, hexpiry]
      exact hlive
    · rw [active_role_grant_until_expired hgrant, hexpiry, hnow]
      exact hlive

/-- The comparison of texts is one of instants exactly when the clock is not between the instant
and the reading of the expiry. -/
theorem expiry_chronological_iff (expiry : IsoText) (clock : Clock) :
    ExpiryChronological expiry clock ↔
      ¬ ((expiry.reading : ℚ) ≤ clock.instant ∧ clock.instant < expiry.instant) ∧
      ¬ (expiry.instant ≤ clock.instant ∧ clock.instant < expiry.reading) := by
  rw [chronological_iff_reading, ← not_lt, ← not_lt]
  tauto

end

/-- `2026-01-01T00:00:00+05:00`. -/
def eastward : IsoText where
  extended := true
  date := .calendar ⟨2026, 1, 1, Date.january, by decide⟩
  time := some
    { precision := .second, hour := 0, minute := 0, second := 0, fraction := none
      zone := .offset ⟨true, 5, 0, .colon, by decide, by decide, by decide⟩
      hour_le := by decide, minute_lt := by decide, second_lt := by decide
      coarse_hour := by decide, coarse_minute := by decide, end_of_day := by decide }
  year_lt := by decide

/-- An hour after it. -/
def anHourAfter : Clock where
  date := ⟨2025, 12, 31, by decide, by decide⟩
  hour := 20
  minute := 0
  second := 0
  micro := 0
  year_lt := by decide
  hour_lt := by decide
  minute_lt := by decide
  second_lt := by decide
  micro_lt := by decide

/-- A share that expires at midnight of an eastern zone is still in force an hour later. -/
theorem expiry_chronological_counterexample :
    ¬ ∀ (expiry : IsoText) (clock : Clock), ExpiryChronological expiry clock := by
  intro hclaim
  have hgrant := (hclaim eastward anHourAfter).1
    (sampleShare (some (expiryText eastward))) "asg" ["user:bob"]
    "cap://user/asg/alice/private/skill/notes@0.1.0" "load" rfl rfl
  have hlive := hgrant.mp (by decide +kernel)
  exact absurd hlive (by decide +kernel)

end Capmesh
