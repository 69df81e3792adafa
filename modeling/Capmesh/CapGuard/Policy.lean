import Capmesh.Model.Capability
import Mathlib.Data.List.Dedup
import Mathlib.Data.List.Sort

/-!
# The runtime policy

`cap_guard.py`: the five controls, the policy record, and `evaluateCapGuardPolicy`,
which maps a capability and the scan results to an allow, deny, or quarantine
verdict. A policy and a control result carry the checks their constructors make, so a
policy that blocks on a disabled control or a fail-closed control that passed cannot
be built.
-/

namespace Capmesh

open Python

/-- `ISOLATION_MODES`. -/
inductive IsolationMode where
  | none | cire | camber
  deriving DecidableEq, Repr

/-- The text of an isolation mode in a verdict. -/
def IsolationMode.text : IsolationMode → String
  | .none => "none"
  | .cire => "cire"
  | .camber => "camber"

/-- `CHECK_STATES`. -/
inductive CheckState where
  | pending | passed | failed
  deriving DecidableEq, Repr

/-- `GUARD_ACTIONS`. -/
inductive GuardAction where
  | allow | deny | quarantine
  deriving DecidableEq, Repr

/-- The text of a verdict's action. -/
def GuardAction.text : GuardAction → String
  | .allow => "allow"
  | .deny => "deny"
  | .quarantine => "quarantine"

/-- `SEVERITIES`, in increasing order. -/
inductive Severity where
  | low | medium | high | critical
  deriving DecidableEq, Repr

/-- The text of a severity. -/
def Severity.text : Severity → String
  | .low => "low"
  | .medium => "medium"
  | .high => "high"
  | .critical => "critical"

/-- The position of a severity in `("low", "medium", "high", "critical")`. -/
def Severity.index : Severity → Nat
  | .low => 0
  | .medium => 1
  | .high => 2
  | .critical => 3

/-- `DEFAULT_CHECKS`. -/
inductive CheckName where
  | malwareScan | signature | provenance | promptInjectionScan | riskTierPolicy
  deriving DecidableEq, Repr

/-- The text of a control's name. -/
def CheckName.text : CheckName → String
  | .malwareScan => "malwareScan"
  | .signature => "signature"
  | .provenance => "provenance"
  | .promptInjectionScan => "promptInjectionScan"
  | .riskTierPolicy => "riskTierPolicy"

/-- `DEFAULT_CHECKS`, in canonical order. -/
def defaultChecks : List CheckName :=
  [.malwareScan, .signature, .provenance, .promptInjectionScan, .riskTierPolicy]

/-- One finding of a malware scan. -/
structure Finding where
  name : String
  severity : String
  description : String
  matchedText : Option String
  deriving DecidableEq, Repr

/-- A scan result dictionary; a key that is absent is `none`. -/
structure ScanResult where
  passed : Option Bool
  error : Option String
  findings : List Finding
  criticalCount : Option Int
  highCount : Option Int
  fileHash : Option String
  fileSize : Option Nat
  deriving DecidableEq, Repr

/-- `CapGuardCheckResult`. Only a failed control may be fail-closed. -/
structure CheckResult where
  name : CheckName
  state : CheckState
  severity : Severity := .low
  message : String := ""
  failClosed : Bool := false
  evidence : Dict := []
  failed_of_fail_closed : failClosed = true → state = .failed := by simp

/-- `CapGuardPolicy`, with the checks of its constructor. -/
structure CapGuardPolicy where
  enabledChecks : List CheckName := defaultChecks
  blockingChecks : List CheckName := defaultChecks
  failClosed : Bool := true
  camberTiers : List RiskTier := [.high, .critical]
  cireTiers : List RiskTier := [.medium]
  allowCireDowngrade : Bool := false
  denyOnHighFindings : Bool := true
  quarantineOnMediumFindings : Bool := true
  maxScanAgeSeconds : Option Int := none
  blocking_enabled : ∀ check ∈ blockingChecks, check ∈ enabledChecks := by decide
  tiers_known : .unset ∉ camberTiers ∧ .unset ∉ cireTiers := by decide
  tiers_disjoint : ∀ tier ∈ camberTiers, tier ∉ cireTiers := by decide
  age_positive : ∀ age, maxScanAgeSeconds = some age → 0 < age := by simp

theorem default_blocking_enabled : ∀ check ∈ defaultChecks, check ∈ defaultChecks := fun _ h => h

theorem default_tiers_known :
    RiskTier.unset ∉ [RiskTier.high, .critical] ∧ RiskTier.unset ∉ [RiskTier.medium] := by
  decide

theorem default_tiers_disjoint :
    ∀ tier ∈ [RiskTier.high, .critical], tier ∉ [RiskTier.medium] := by
  decide

theorem default_age_positive : ∀ age : Int, none = some age → 0 < age := by simp

/-- `CapGuardVerdict`. -/
structure CapGuardVerdict where
  action : GuardAction
  isolationMode : IsolationMode
  capabilityUri : String
  riskTier : RiskTier
  reason : String
  checks : List CheckResult
  failClosed : Bool

/-- The constructor of `CapGuardVerdict`: an allowed high or critical capability must be
isolated. -/
def CapGuardVerdict.make (p : Platform) (verdict : CapGuardVerdict) :
    Except Failure CapGuardVerdict :=
  if verdict.action = .allow ∧ (verdict.riskTier = .high ∨ verdict.riskTier = .critical) ∧
      verdict.isolationMode = .none then
    .error (.value ("CapGuard invariant violated: " ++ verdict.riskTier.text ++
      "-tier capability " ++ p.repr verdict.capabilityUri ++ " allowed with no isolation"))
  else .ok verdict

/-- `decide_isolation_mode`: an unknown tier gets the strongest isolation. -/
def decideIsolationMode (riskTier : RiskTier) (policy : CapGuardPolicy) : IsolationMode :=
  if policy.camberTiers.contains riskTier then .camber
  else if policy.cireTiers.contains riskTier then .cire
  else if riskTier = .unset then .camber
  else .none

/-- The number of findings whose severity is the given text. -/
def countSeverity (findings : List Finding) (severity : String) : Int :=
  (findings.filter fun finding => finding.severity = severity).length

/-- `_scan_check`. -/
def scanCheck (scanResult : Option ScanResult) (policy : CapGuardPolicy) : CheckResult :=
  match scanResult with
  | none =>
      { name := .malwareScan, state := .pending
        message := "malware scan has not been run", evidence := [("ran", .bool false)] }
  | some scan =>
      if present scan.error then
        { name := .malwareScan, state := .failed, severity := .critical
          message := "scan inconclusive: " ++ scan.error.getD ""
          failClosed := true
          evidence := [("ran", .bool true), ("error", .str (scan.error.getD ""))]
          failed_of_fail_closed := fun _ => rfl }
      else
        let crit := scan.criticalCount.getD (countSeverity scan.findings "critical")
        let high := scan.highCount.getD (countSeverity scan.findings "high")
        let medium := countSeverity scan.findings "medium"
        let passed := scan.passed.getD false
        let evidence : Dict := [("ran", .bool true), ("passed", .bool passed),
          ("criticalCount", .int crit), ("highCount", .int high), ("mediumCount", .int medium)]
        if !passed && (crit ≠ 0 || high ≠ 0) then
          { name := .malwareScan, state := .failed
            severity := if crit ≠ 0 then .critical else .high
            message := "scan blocked: " ++ toString crit ++ " critical, " ++ toString high ++
              " high findings"
            evidence }
        else if !passed then
          { name := .malwareScan, state := .failed, severity := .critical
            message := "scan failed without enumerated findings"
            failClosed := true, evidence
            failed_of_fail_closed := fun _ => rfl }
        else if medium ≠ 0 && policy.quarantineOnMediumFindings then
          { name := .malwareScan, state := .failed, severity := .medium
            message := "scan passed but " ++ toString medium ++ " medium findings require review"
            evidence }
        else { name := .malwareScan, state := .passed, message := "scan passed", evidence }

/-- `_status_check`, for the signature and provenance controls. -/
def statusCheck (p : Platform) (name : CheckName) (status : String) : CheckResult :=
  let norm := p.lower (p.stripSpace status)
  if norm = "verified" then
    { name, state := .passed, message := name.text ++ " verified" }
  else if ["fail", "invalid", "reject"].any fun tok => contains norm.toList tok.toList then
    { name, state := .failed, severity := .high
      message := name.text ++ " failed: " ++ p.repr status
      evidence := [("status", .str status)] }
  else
    { name, state := .pending
      message := name.text ++ " not verified (status=" ++ p.repr status ++ ")"
      evidence := [("status", .str status)] }

/-- `_injection_check`. -/
def injectionCheck : Option Bool → CheckResult
  | none =>
      { name := .promptInjectionScan, state := .pending
        message := "prompt-injection scan has not been run" }
  | some true =>
      { name := .promptInjectionScan, state := .passed
        message := "prompt-injection scan passed" }
  | some false =>
      { name := .promptInjectionScan, state := .failed, severity := .critical
        message := "prompt-injection scan blocked the capability"
        evidence := [("blocked", .bool true)] }

/-- `_risk_tier_check`. -/
def riskTierCheck (p : Platform) (riskTier : RiskTier) : CheckResult :=
  if riskTier ≠ .unset then
    { name := .riskTierPolicy, state := .passed
      message := "risk tier " ++ p.repr riskTier.text ++
        " recognized; isolation enforced separately"
      evidence := [("riskTier", .str riskTier.text)] }
  else
    { name := .riskTierPolicy, state := .failed, severity := .high
      message := "unknown risk tier " ++ p.repr riskTier.text ++
        "; cannot index unclassified capability"
      evidence := [("riskTier", .str riskTier.text)] }

/-- The result of one enabled control. -/
def checkResult (p : Platform) (capability : Capability) (scanResult : Option ScanResult)
    (policy : CapGuardPolicy) (injectionResult : Option Bool) : CheckName → CheckResult
  | .malwareScan => scanCheck scanResult policy
  | .signature => statusCheck p .signature capability.signatureStatus.text
  | .provenance => statusCheck p .provenance capability.provenanceStatus.text
  | .promptInjectionScan => injectionCheck injectionResult
  | .riskTierPolicy => riskTierCheck p capability.riskTier

/-- `max(checks, key=severity)`: the first control of the highest severity. -/
def worstCheck : CheckResult → List CheckResult → CheckResult
  | worst, [] => worst
  | worst, check :: checks =>
      worstCheck (if worst.severity.index < check.severity.index then check else worst) checks

/-- `", ".join(sorted({c.name for c in checks}))`. -/
def checkNames (checks : List CheckResult) : String :=
  join ", " ((checks.map (·.name.text)).dedup.insertionSort (· ≤ ·))

/-- `evaluate_cap_guard_policy`. -/
def evaluateCapGuardPolicy (p : Platform) (capability : Capability)
    (scanResult : Option ScanResult) (policy : CapGuardPolicy) (injectionResult : Option Bool) :
    Except Failure CapGuardVerdict :=
  let isolation := decideIsolationMode capability.riskTier policy
  let enabled := defaultChecks.filter (policy.enabledChecks.contains ·)
  let results := enabled.map (checkResult p capability scanResult policy injectionResult)
  let blocking := results.filter (policy.blockingChecks.contains ·.name)
  let failed := blocking.filter (·.state = .failed)
  let pending := blocking.filter (·.state = .pending)
  let failClosedTriggered := failed.any (·.failClosed)
  let hard := failed.filter fun check =>
    check.severity = .high || check.severity = .critical || check.failClosed
  let verdict := fun action reason failClosed => CapGuardVerdict.make p
    { action, isolationMode := isolation, capabilityUri := capability.uri
      riskTier := capability.riskTier, reason, checks := results, failClosed }
  let denied := fun worst : CheckResult =>
    verdict .deny ("CapGuard denied " ++ capability.uri ++ ": control " ++
      p.repr worst.name.text ++ " failed (" ++ worst.severity.text ++ ")") failClosedTriggered
  match hard, failed, pending with
  | check :: checks, _, _ => denied (worstCheck check checks)
  | [], check :: checks, _ =>
      if policy.denyOnHighFindings && (check :: checks).any (·.severity = .high) then
        denied (worstCheck check checks)
      else
        verdict .quarantine ("CapGuard quarantined " ++ capability.uri ++
          ": failed controls [" ++ checkNames (check :: checks) ++ "]") failClosedTriggered
  | [], [], check :: checks =>
      verdict .quarantine ("CapGuard quarantined " ++ capability.uri ++
        ": pending controls [" ++ checkNames (check :: checks) ++ "]") false
  | [], [], [] =>
      verdict .allow ("CapGuard allowed " ++ capability.uri ++
        if isolation ≠ .none then " under " ++ isolation.text ++ " isolation"
        else " (no isolation)") false

end Capmesh
