import Mathlib
import Capmesh.CapGuard.Policy

/-!
# What the policy's fields decide

`cap_guard.py`: the documented meaning of the fields of `CapGuardPolicy`, beside what
`evaluateCapGuardPolicy` does with them. The evaluation reads the controls, the tiers and the
review of medium findings. It reads neither `failClosed` nor `maxScanAgeSeconds`, its one read of
`denyOnHighFindings` decides nothing, and a policy that lists a high tier nowhere makes the
constructor of the verdict raise. The condition under which a call still honours every field is
stated on the input alone.
-/

namespace Capmesh

open Python

/-- What one call of `evaluate_cap_guard_policy` is given. The age of the scan, in seconds, is
what `maxScanAgeSeconds` speaks of; the scan dictionary has no key for it. -/
structure GuardInput where
  capability : Capability
  scan : Option ScanResult
  scanAge : Int
  injection : Option Bool
  policy : CapGuardPolicy

/-- The critical findings a scan reports, counted from its list when it has no number. -/
def ScanResult.critical (scan : ScanResult) : Int :=
  scan.criticalCount.getD (countSeverity scan.findings "critical")

/-- The high findings a scan reports, counted from its list when it has no number. -/
def ScanResult.high (scan : ScanResult) : Int :=
  scan.highCount.getD (countSeverity scan.findings "high")

/-- A scan that errored or did not pass. -/
def ScanResult.Refused (scan : ScanResult) : Prop :=
  present scan.error = true ∨ scan.passed.getD false = false

instance : DecidablePred ScanResult.Refused :=
  fun _ => inferInstanceAs (Decidable (_ ∨ _))

/-- A scan that errored, or that failed without high or critical findings. -/
def ScanResult.Inconclusive (scan : ScanResult) : Prop :=
  present scan.error = true ∨
    scan.passed.getD false = false ∧ scan.critical = 0 ∧ scan.high = 0

/-- A scan with high or critical findings, in its list or in its numbers. -/
def ScanResult.Severe (scan : ScanResult) : Prop :=
  (∃ finding ∈ scan.findings, finding.severity = "high" ∨ finding.severity = "critical") ∨
    scan.critical ≠ 0 ∨ scan.high ≠ 0

/-- A status text that names a failure. -/
def rejectedStatus (p : Platform) (status : String) : Bool :=
  ["fail", "invalid", "reject"].any fun tok =>
    contains (p.lower (p.stripSpace status)).toList tok.toList

namespace GuardInput

/-- The call itself. -/
def verdict (p : Platform) (input : GuardInput) : Except Failure CapGuardVerdict :=
  evaluateCapGuardPolicy p input.capability input.scan input.policy input.injection

/-- The capability's tier is high or critical. -/
def Risky (input : GuardInput) : Prop :=
  input.capability.riskTier = .high ∨ input.capability.riskTier = .critical

/-- The scan is older than the policy allows. -/
def Stale (input : GuardInput) : Prop :=
  input.scan.isSome = true ∧ ∃ limit, input.policy.maxScanAgeSeconds = some limit ∧
    limit < input.scanAge

/-- What makes a control fail hard. -/
def Rejects (p : Platform) (input : GuardInput) : CheckName → Prop
  | .malwareScan => ∃ scan, input.scan = some scan ∧ scan.Refused
  | .signature => rejectedStatus p input.capability.signatureStatus.text = true
  | .provenance => rejectedStatus p input.capability.provenanceStatus.text = true
  | .promptInjectionScan => input.injection = some false
  | .riskTierPolicy => input.capability.riskTier = .unset

/-- What makes a control pass. -/
def Clears (p : Platform) (input : GuardInput) : CheckName → Prop
  | .malwareScan => ∃ scan, input.scan = some scan ∧ ¬ scan.Refused ∧
      (input.policy.quarantineOnMediumFindings = true → countSeverity scan.findings "medium" = 0)
  | .signature => p.lower (p.stripSpace input.capability.signatureStatus.text) = "verified"
  | .provenance => p.lower (p.stripSpace input.capability.provenanceStatus.text) = "verified"
  | .promptInjectionScan => input.injection = some true
  | .riskTierPolicy => input.capability.riskTier ≠ .unset

/-- Some blocking control rejects. -/
def Refuses (p : Platform) (input : GuardInput) : Prop :=
  ∃ check ∈ input.policy.blockingChecks, input.Rejects p check

/-- Every blocking control passes. -/
def Admits (p : Platform) (input : GuardInput) : Prop :=
  ∀ check ∈ input.policy.blockingChecks, input.Clears p check

/-- The blocking controls give what a field that chooses between a deny and a quarantine asks
for. -/
def Answers (p : Platform) (input : GuardInput) (deny : Bool) : Prop :=
  if deny then input.Refuses p else ¬ input.Refuses p ∧ ¬ input.Admits p

end GuardInput

/-- The documented meaning of the fields, on one verdict. -/
structure HonoursFields (input : GuardInput) (verdict : CapGuardVerdict) : Prop where
  allow_iff : verdict.action = .allow ↔ ∀ check ∈ input.policy.blockingChecks,
    ∃ result ∈ verdict.checks, result.name = check ∧ result.state = .passed
  fail_closed : ∀ scan, input.scan = some scan → scan.Inconclusive →
    verdict.action = if input.policy.failClosed then .deny else .quarantine
  high_findings : ∀ scan, input.scan = some scan → scan.Severe →
    verdict.action = if input.policy.denyOnHighFindings then .deny else .quarantine
  scan_age : input.Stale → verdict.action ≠ .allow
  isolated : verdict.action = .allow → input.Risky → verdict.isolationMode ≠ .none

/-- The call returns a verdict, and the verdict honours the fields. -/
def GuardInput.Honoured (p : Platform) (input : GuardInput) : Prop :=
  ∃ verdict, input.verdict p = .ok verdict ∧ HonoursFields input verdict

/-- The condition on the input under which the call honours every field. -/
structure GuardInput.FieldsBind (p : Platform) (input : GuardInput) : Prop where
  tier_listed : input.Admits p → input.Risky →
    input.capability.riskTier ∈ input.policy.camberTiers ∨
      input.capability.riskTier ∈ input.policy.cireTiers
  /-- A blocking scan control denies whatever `failClosed` says. -/
  inconclusive : ∀ scan, input.scan = some scan → scan.Inconclusive →
    if .malwareScan ∈ input.policy.blockingChecks then input.policy.failClosed = true
    else input.Answers p input.policy.failClosed
  /-- So it does on a scan that did not pass; one that passed is not searched for such
  findings. -/
  severe : ∀ scan, input.scan = some scan → scan.Severe →
    if .malwareScan ∈ input.policy.blockingChecks ∧ scan.Refused
    then input.policy.denyOnHighFindings = true
    else input.Answers p input.policy.denyOnHighFindings
  fresh : input.Stale → ¬ input.Admits p

theorem ScanResult.Inconclusive.refused {scan : ScanResult} (h : scan.Inconclusive) :
    scan.Refused :=
  h.imp_right And.left

/-! ### What one control says -/

/-- A control that failed with a high or critical severity, or closed. -/
def CheckResult.Hard (result : CheckResult) : Prop :=
  result.state = .failed ∧
    (result.severity = .high ∨ result.severity = .critical ∨ result.failClosed = true)

/-- The four answers of the scan control to a scan. -/
theorem scan_check_cases (scan : ScanResult) (policy : CapGuardPolicy) :
    (scan.Refused ∧ (scanCheck (some scan) policy).Hard) ∨
      ¬ scan.Refused ∧
        (policy.quarantineOnMediumFindings = true ∧ countSeverity scan.findings "medium" ≠ 0 ∧
          (scanCheck (some scan) policy).state = .failed ∧
          ¬ (scanCheck (some scan) policy).Hard ∨
        (policy.quarantineOnMediumFindings = true → countSeverity scan.findings "medium" = 0) ∧
          (scanCheck (some scan) policy).state = .passed) := by
  generalize hresult : scanCheck (some scan) policy = result
  unfold scanCheck at hresult
  simp only [Bool.and_eq_true, Bool.not_eq_true', Bool.or_eq_true, decide_eq_true_eq] at hresult
  split at hresult
  · next herror =>
    subst result
    exact .inl ⟨.inl herror, rfl, .inr (.inr rfl)⟩
  · next herror =>
    split at hresult
    · next hblocked =>
      subst result
      refine .inl ⟨.inr hblocked.1, rfl, ?_⟩
      show (if _ then Severity.critical else .high) = .high ∨ _
      split <;> simp
    · split at hresult
      · next hfailed =>
        subst result
        exact .inl ⟨.inr hfailed, rfl, .inr (.inr rfl)⟩
      · next hpassed =>
        have hclean : ¬ scan.Refused := fun h => h.elim herror hpassed
        split at hresult
        · next hmedium =>
          subst result
          refine .inr ⟨hclean, .inl ⟨hmedium.2, hmedium.1, rfl, ?_⟩⟩
          intro hhard
          simp [CheckResult.Hard] at hhard
        · next hmedium =>
          subst result
          exact .inr ⟨hclean, .inr ⟨fun h => by_contra fun hne => hmedium ⟨hne, h⟩, rfl⟩⟩

/-- The scan control fails hard on exactly the scans that errored or did not pass. -/
theorem scan_check_hard_iff (scan : Option ScanResult) (policy : CapGuardPolicy) :
    (scanCheck scan policy).Hard ↔ ∃ result, scan = some result ∧ result.Refused := by
  cases scan with
  | none => simp [scanCheck, CheckResult.Hard]
  | some scan =>
    simp only [Option.some.injEq, exists_eq_left']
    obtain ⟨hrefused, hhard⟩ | ⟨hclean, hrest⟩ := scan_check_cases scan policy
    · exact iff_of_true hhard hrefused
    · refine iff_of_false ?_ hclean
      obtain ⟨_, _, _, hsoft⟩ | ⟨_, hpassed⟩ := hrest
      · exact hsoft
      · intro hhard
        cases hpassed.symm.trans hhard.1

theorem scan_check_passed_iff (scan : Option ScanResult) (policy : CapGuardPolicy) :
    (scanCheck scan policy).state = .passed ↔ ∃ result, scan = some result ∧ ¬ result.Refused ∧
      (policy.quarantineOnMediumFindings = true →
        countSeverity result.findings "medium" = 0) := by
  cases scan with
  | none => simp [scanCheck]
  | some scan =>
    simp only [Option.some.injEq, exists_eq_left']
    obtain ⟨hrefused, hhard⟩ | ⟨hclean, hrest⟩ := scan_check_cases scan policy
    · refine iff_of_false ?_ fun h => h.1 hrefused
      rw [hhard.1]
      decide
    · obtain ⟨hfield, hmedium, hfailed, _⟩ | ⟨hnone, hpassed⟩ := hrest
      · refine iff_of_false ?_ fun h => hmedium (h.2 hfield)
        rw [hfailed]
        decide
      · exact iff_of_true hpassed ⟨hclean, hnone⟩

theorem scan_check_name (scan : Option ScanResult) (policy : CapGuardPolicy) :
    (scanCheck scan policy).name = .malwareScan := by
  cases scan with
  | none => rfl
  | some scan =>
    generalize hresult : scanCheck (some scan) policy = result
    unfold scanCheck at hresult
    simp only at hresult
    repeat' split at hresult
    all_goals
      subst result
      rfl

theorem rejected_status_not_verified {p : Platform} {status : String}
    (h : p.lower (p.stripSpace status) = "verified") : rejectedStatus p status = false := by
  unfold rejectedStatus
  rw [h]
  decide

theorem status_check_name (p : Platform) (name : CheckName) (status : String) :
    (statusCheck p name status).name = name := by
  unfold statusCheck
  simp only
  repeat' split
  all_goals rfl

theorem status_check_hard_iff (p : Platform) (name : CheckName) (status : String) :
    (statusCheck p name status).Hard ↔ rejectedStatus p status = true := by
  by_cases hverified : p.lower (p.stripSpace status) = "verified"
  · rw [rejected_status_not_verified hverified]
    simp [statusCheck, CheckResult.Hard, hverified]
  · cases hrejected : rejectedStatus p status with
    | true =>
      unfold rejectedStatus at hrejected
      simp only [statusCheck, CheckResult.Hard, hverified, hrejected, if_false, if_true]
      simp
    | false =>
      unfold rejectedStatus at hrejected
      simp only [statusCheck, CheckResult.Hard, hverified, hrejected, if_false]
      simp

theorem status_check_passed_iff (p : Platform) (name : CheckName) (status : String) :
    (statusCheck p name status).state = .passed ↔
      p.lower (p.stripSpace status) = "verified" := by
  unfold statusCheck
  by_cases hverified : p.lower (p.stripSpace status) = "verified"
  · simp [hverified]
  · simp only [hverified, if_false, iff_false]
    split <;> simp

theorem injection_check_name (injection : Option Bool) :
    (injectionCheck injection).name = .promptInjectionScan := by
  unfold injectionCheck
  split <;> rfl

theorem injection_check_hard_iff (injection : Option Bool) :
    (injectionCheck injection).Hard ↔ injection = some false := by
  cases injection with
  | none => simp [injectionCheck, CheckResult.Hard]
  | some clean => cases clean <;> simp [injectionCheck, CheckResult.Hard]

theorem injection_check_passed_iff (injection : Option Bool) :
    (injectionCheck injection).state = .passed ↔ injection = some true := by
  cases injection with
  | none => simp [injectionCheck]
  | some clean => cases clean <;> simp [injectionCheck]

theorem risk_tier_check_name (p : Platform) (riskTier : RiskTier) :
    (riskTierCheck p riskTier).name = .riskTierPolicy := by
  unfold riskTierCheck
  split <;> rfl

theorem risk_tier_check_hard_iff (p : Platform) (riskTier : RiskTier) :
    (riskTierCheck p riskTier).Hard ↔ riskTier = .unset := by
  unfold riskTierCheck CheckResult.Hard
  by_cases htier : riskTier = .unset <;> simp [htier]

theorem risk_tier_check_passed_iff (p : Platform) (riskTier : RiskTier) :
    (riskTierCheck p riskTier).state = .passed ↔ riskTier ≠ .unset := by
  unfold riskTierCheck
  by_cases htier : riskTier = .unset <;> simp [htier]

namespace GuardInput

/-- The result of one control on the input. -/
def result (p : Platform) (input : GuardInput) : CheckName → CheckResult :=
  checkResult p input.capability input.scan input.policy input.injection

variable (p : Platform) (input : GuardInput)

theorem result_name (check : CheckName) : (input.result p check).name = check := by
  unfold result checkResult
  cases check with
  | malwareScan => exact scan_check_name _ _
  | signature => exact status_check_name p _ _
  | provenance => exact status_check_name p _ _
  | promptInjectionScan => exact injection_check_name _
  | riskTierPolicy => exact risk_tier_check_name p _

theorem result_hard_iff (check : CheckName) :
    (input.result p check).Hard ↔ input.Rejects p check := by
  unfold result checkResult Rejects
  cases check with
  | malwareScan => exact scan_check_hard_iff _ _
  | signature => exact status_check_hard_iff p _ _
  | provenance => exact status_check_hard_iff p _ _
  | promptInjectionScan => exact injection_check_hard_iff _
  | riskTierPolicy => exact risk_tier_check_hard_iff p _

theorem result_passed_iff (check : CheckName) :
    (input.result p check).state = .passed ↔ input.Clears p check := by
  unfold result checkResult Clears
  cases check with
  | malwareScan => exact scan_check_passed_iff _ _
  | signature => exact status_check_passed_iff p _ _
  | provenance => exact status_check_passed_iff p _ _
  | promptInjectionScan => exact injection_check_passed_iff _
  | riskTierPolicy => exact risk_tier_check_passed_iff p _

/-! ### What the rules make of the controls -/

/-- The results of the enabled controls. -/
def results : List CheckResult :=
  (defaultChecks.filter (input.policy.enabledChecks.contains ·)).map (input.result p)

/-- The results of the blocking controls. -/
def blocking : List CheckResult :=
  (input.results p).filter (input.policy.blockingChecks.contains ·.name)

/-- Every control is one of `DEFAULT_CHECKS`. -/
theorem mem_results {result : CheckResult} :
    result ∈ input.results p ↔ ∃ check ∈ input.policy.enabledChecks,
      input.result p check = result := by
  have hdefault : ∀ check : CheckName, check ∈ defaultChecks := by
    intro check
    cases check <;> decide
  unfold results
  simp only [List.mem_map, List.mem_filter, List.contains_iff_mem, hdefault, true_and]

/-- A blocking control is enabled. -/
theorem mem_blocking {result : CheckResult} :
    result ∈ input.blocking p ↔ ∃ check ∈ input.policy.blockingChecks,
      input.result p check = result := by
  unfold blocking
  simp only [List.mem_filter, mem_results, List.contains_iff_mem]
  refine ⟨?_, ?_⟩
  · intro ⟨⟨check, _, hresult⟩, hblocking⟩
    subst hresult
    rw [result_name] at hblocking
    exact ⟨check, hblocking, rfl⟩
  · intro ⟨check, hblocking, hresult⟩
    subst hresult
    refine ⟨⟨check, input.policy.blocking_enabled check hblocking, rfl⟩, ?_⟩
    rw [result_name]
    exact hblocking

/-- What a blocking control says of the result it produced. -/
theorem exists_blocking {holds : CheckResult → Prop} :
    (∃ result ∈ input.blocking p, holds result) ↔
      ∃ check ∈ input.policy.blockingChecks, holds (input.result p check) := by
  simp only [mem_blocking]
  refine ⟨?_, ?_⟩
  · intro ⟨result, ⟨check, hcheck, hresult⟩, hholds⟩
    subst hresult
    exact ⟨check, hcheck, hholds⟩
  · intro ⟨check, hcheck, hholds⟩
    exact ⟨_, ⟨check, hcheck, rfl⟩, hholds⟩

theorem refuses_iff : input.Refuses p ↔ ∃ result ∈ input.blocking p, result.Hard := by
  simp only [exists_blocking, result_hard_iff, Refuses]

theorem admits_iff :
    input.Admits p ↔ ¬ ∃ result ∈ input.blocking p, result.state ≠ .passed := by
  simp only [exists_blocking, ne_eq, result_passed_iff, Admits, not_exists, not_and, not_not]

end GuardInput

/-- Only an allow can break the invariant of the verdict. -/
theorem CapGuardVerdict.make_of_not_allow (p : Platform) {verdict : CapGuardVerdict}
    (h : verdict.action ≠ .allow) : CapGuardVerdict.make p verdict = .ok verdict :=
  if_neg fun hallow => h hallow.1

namespace GuardInput

variable (p : Platform) (input : GuardInput)

/-- The `hard` list of the rules. -/
theorem mem_hard {results : List CheckResult} {result : CheckResult} :
    result ∈ (results.filter (·.state = .failed)).filter (fun check =>
        check.severity = .high || check.severity = .critical || check.failClosed) ↔
      result ∈ results ∧ result.Hard := by
  simp only [List.mem_filter, CheckResult.Hard, Bool.or_eq_true, decide_eq_true_eq, and_assoc,
    or_assoc]

/-- The four rules, over the results of the blocking controls. -/
theorem verdict_cases :
    (input.Refuses p ∧ ∃ verdict, input.verdict p = .ok verdict ∧ verdict.action = .deny ∧
        verdict.checks = input.results p) ∨
      (¬ input.Refuses p ∧ ¬ input.Admits p ∧ ∃ verdict, input.verdict p = .ok verdict ∧
        verdict.action = .quarantine ∧ verdict.checks = input.results p) ∨
      (¬ input.Refuses p ∧ input.Admits p ∧ ∃ reason, input.verdict p = CapGuardVerdict.make p
        { action := .allow
          isolationMode := decideIsolationMode input.capability.riskTier input.policy
          capabilityUri := input.capability.uri, riskTier := input.capability.riskTier
          reason, checks := input.results p, failClosed := false }) := by
  rw [refuses_iff, admits_iff]
  generalize hcall : input.verdict p = outcome
  unfold verdict evaluateCapGuardPolicy at hcall
  dsimp only at hcall
  split at hcall
  · next check checks hhard =>
    have hmem := mem_hard.mp (hhard ▸ List.mem_cons_self)
    subst outcome
    exact .inl ⟨⟨check, hmem⟩, _, CapGuardVerdict.make_of_not_allow p (by simp), rfl, rfl⟩
  · next check checks hhard hfailed =>
    have hnone : ¬ ∃ result ∈ input.blocking p, result.Hard := by
      intro ⟨result, hresult⟩
      exact List.not_mem_nil (hhard ▸ mem_hard.mpr hresult)
    have hsoft : ∀ result ∈ check :: checks, result.severity ≠ .high := by
      intro result hresult hhigh
      obtain ⟨hblocking, hstate⟩ := List.mem_filter.mp (hfailed ▸ hresult)
      exact hnone ⟨result, hblocking, of_decide_eq_true hstate, .inl hhigh⟩
    -- the deny of the second rule is out of reach: a high failure is hard
    rw [if_neg (by simpa using fun _ => hsoft)] at hcall
    obtain ⟨hblocking, hstate⟩ := List.mem_filter.mp (hfailed ▸ List.mem_cons_self)
    have hstate : check.state = .failed := of_decide_eq_true hstate
    subst outcome
    refine .inr (.inl ⟨hnone, not_not_intro ⟨check, hblocking, ?_⟩, _,
      CapGuardVerdict.make_of_not_allow p (by simp), rfl, rfl⟩)
    rw [hstate]
    decide
  · next check checks hhard hfailed hpending =>
    have hnone : ¬ ∃ result ∈ input.blocking p, result.Hard := by
      intro ⟨result, hresult⟩
      exact List.not_mem_nil (hhard ▸ mem_hard.mpr hresult)
    obtain ⟨hblocking, hstate⟩ := List.mem_filter.mp (hpending ▸ List.mem_cons_self)
    have hstate : check.state = .pending := of_decide_eq_true hstate
    subst outcome
    refine .inr (.inl ⟨hnone, not_not_intro ⟨check, hblocking, ?_⟩, _,
      CapGuardVerdict.make_of_not_allow p (by simp), rfl, rfl⟩)
    rw [hstate]
    decide
  · next hhard hfailed hpending =>
    have hnone : ¬ ∃ result ∈ input.blocking p, result.Hard := by
      intro ⟨result, hresult⟩
      exact List.not_mem_nil (hhard ▸ mem_hard.mpr hresult)
    have hpassed : ¬ ∃ result ∈ input.blocking p, result.state ≠ .passed := by
      intro ⟨result, hblocking, hstate⟩
      cases hresult : result.state with
      | passed => exact hstate hresult
      | failed =>
        exact List.not_mem_nil (hfailed ▸ List.mem_filter.mpr
          ⟨hblocking, decide_eq_true hresult⟩)
      | pending =>
        exact List.not_mem_nil (hpending ▸ List.mem_filter.mpr
          ⟨hblocking, decide_eq_true hresult⟩)
    subst outcome
    exact .inr (.inr ⟨hnone, hpassed, _, rfl⟩)

/-- Only a known tier that no list names runs without isolation. -/
theorem decide_isolation_none_iff (riskTier : RiskTier) (policy : CapGuardPolicy) :
    decideIsolationMode riskTier policy = .none ↔
      riskTier ∉ policy.camberTiers ∧ riskTier ∉ policy.cireTiers ∧ riskTier ≠ .unset := by
  unfold decideIsolationMode
  simp only [List.contains_iff_mem]
  by_cases hcamber : riskTier ∈ policy.camberTiers
  · simp [hcamber]
  · by_cases hcire : riskTier ∈ policy.cireTiers
    · simp [hcamber, hcire]
    · simp [hcamber, hcire]

theorem not_unset_of_risky {input : GuardInput} (h : input.Risky) :
    input.capability.riskTier ≠ .unset := by
  intro hunset
  unfold Risky at h
  rw [hunset] at h
  simp at h

variable {p input}

/-- A control that rejects does not pass. -/
theorem Admits.not_refuses (h : input.Admits p) : ¬ input.Refuses p := by
  intro ⟨check, hcheck, hrejects⟩
  have hpassed := (input.result_passed_iff p check).mpr (h check hcheck)
  have hfailed := ((input.result_hard_iff p check).mpr hrejects).1
  cases hpassed.symm.trans hfailed

/-- The call returns unless it would allow a high tier that the policy lists nowhere. -/
theorem verdict_returns_iff : (∃ verdict, input.verdict p = .ok verdict) ↔
    (input.Admits p → input.Risky → input.capability.riskTier ∈ input.policy.camberTiers ∨
      input.capability.riskTier ∈ input.policy.cireTiers) := by
  obtain ⟨hrefuses, verdict, hok, _⟩ | ⟨_, hheld, verdict, hok, _⟩ | ⟨_, hadmits, _, hmake⟩ :=
    input.verdict_cases p
  · exact iff_of_true ⟨verdict, hok⟩ fun hadmits => absurd hrefuses hadmits.not_refuses
  · exact iff_of_true ⟨verdict, hok⟩ fun hadmits => absurd hadmits hheld
  · rw [hmake]
    unfold CapGuardVerdict.make
    simp only [true_and, decide_isolation_none_iff]
    refine ⟨?_, ?_⟩
    · intro ⟨verdict, hok⟩ _ hrisky
      split at hok
      · cases hok
      · next hlisted =>
        by_contra hnot
        obtain ⟨hcamber, hcire⟩ := not_or.mp hnot
        exact hlisted ⟨hrisky, hcamber, hcire, not_unset_of_risky hrisky⟩
    · intro hlisted
      rw [if_neg fun h => (hlisted hadmits h.1).elim h.2.1 h.2.2.1]
      exact ⟨_, rfl⟩

/-- What a returned verdict says. -/
theorem verdict_ok {verdict : CapGuardVerdict} (h : input.verdict p = .ok verdict) :
    (verdict.action = .deny ↔ input.Refuses p) ∧ (verdict.action = .allow ↔ input.Admits p) ∧
      verdict.checks = input.results p ∧
      (verdict.action = .allow → input.Risky → verdict.isolationMode ≠ .none) := by
  obtain ⟨hrefuses, _, hok, haction, hchecks⟩ | ⟨hnone, hheld, _, hok, haction, hchecks⟩ |
    ⟨hnone, hadmits, _, hmake⟩ := input.verdict_cases p
  · cases h.symm.trans hok
    rw [haction]
    exact ⟨iff_of_true rfl hrefuses,
      iff_of_false (by decide) fun hadmits => hadmits.not_refuses hrefuses, hchecks, by simp⟩
  · cases h.symm.trans hok
    rw [haction]
    exact ⟨iff_of_false (by decide) hnone, iff_of_false (by decide) hheld, hchecks, by simp⟩
  · rw [hmake] at h
    unfold CapGuardVerdict.make at h
    split at h
    · cases h
    · next hisolated =>
      cases h
      exact ⟨iff_of_false (by simp) hnone, iff_of_true rfl hadmits, rfl,
        fun _ hrisky hnoiso => hisolated ⟨rfl, hrisky, hnoiso⟩⟩

/-- A field's choice between a deny and a quarantine, on a returned verdict. -/
theorem action_eq_iff {verdict : CapGuardVerdict} (h : input.verdict p = .ok verdict)
    (deny : Bool) :
    verdict.action = (if deny then .deny else .quarantine) ↔ input.Answers p deny := by
  obtain ⟨hdeny, hallow, _⟩ := verdict_ok h
  unfold Answers
  cases deny with
  | true => simpa using hdeny
  | false =>
    simp only [Bool.false_eq_true, if_false]
    rw [← hdeny, ← hallow]
    cases verdict.action <;> simp

/-- Where a blocking control rejects, a field is honoured only when it asks for a deny. -/
theorem answers_of_refuses (h : input.Refuses p) (deny : Bool) :
    input.Answers p deny ↔ deny = true := by
  unfold Answers
  cases deny with
  | true => exact iff_of_true h rfl
  | false => exact iff_of_false (fun hanswers => hanswers.1 h) (by decide)

/-- A blocking scan control rejects a scan that did not pass. -/
theorem refuses_of_refused {scan : ScanResult} (hscan : input.scan = some scan)
    (h : scan.Refused) (hblocking : .malwareScan ∈ input.policy.blockingChecks) :
    input.Refuses p :=
  ⟨.malwareScan, hblocking, scan, hscan, h⟩

/-- The blocking controls passed exactly when their results in the verdict say so. -/
theorem admits_iff_checks :
    input.Admits p ↔ ∀ check ∈ input.policy.blockingChecks,
      ∃ result ∈ input.results p, result.name = check ∧ result.state = .passed := by
  refine forall₂_congr fun check hblocking => ?_
  rw [← result_passed_iff]
  refine ⟨?_, ?_⟩
  · intro hpassed
    exact ⟨_, (input.mem_results p).mpr ⟨check, input.policy.blocking_enabled check hblocking, rfl⟩,
      input.result_name p check, hpassed⟩
  · intro ⟨result, hresult, hname, hpassed⟩
    obtain ⟨other, _, hother⟩ := (input.mem_results p).mp hresult
    subst hother
    rw [result_name] at hname
    subst hname
    exact hpassed

end GuardInput

namespace GuardInput

theorem Honoured.fields_bind {p : Platform} {input : GuardInput} (h : input.Honoured p) :
    input.FieldsBind p := by
  obtain ⟨verdict, hok, hfields⟩ := h
  refine ⟨verdict_returns_iff.mp ⟨verdict, hok⟩, ?_, ?_, ?_⟩
  · intro scan hscan hinconclusive
    have hanswers := (action_eq_iff hok _).mp (hfields.fail_closed scan hscan hinconclusive)
    split
    · next hblocking =>
      have hrefuses : input.Refuses p :=
        refuses_of_refused hscan hinconclusive.refused hblocking
      exact (answers_of_refuses hrefuses _).mp hanswers
    · exact hanswers
  · intro scan hscan hsevere
    have hanswers := (action_eq_iff hok _).mp (hfields.high_findings scan hscan hsevere)
    split
    · next hblocking =>
      have hrefuses : input.Refuses p := refuses_of_refused hscan hblocking.2 hblocking.1
      exact (answers_of_refuses hrefuses _).mp hanswers
    · exact hanswers
  · intro hstale hadmits
    exact hfields.scan_age hstale ((verdict_ok hok).2.1.mpr hadmits)

/-- The condition is enough. -/
theorem FieldsBind.honoured {p : Platform} {input : GuardInput} (h : input.FieldsBind p) :
    input.Honoured p := by
  obtain ⟨verdict, hok⟩ := verdict_returns_iff.mpr h.tier_listed
  obtain ⟨_, hallow, hchecks, hisolated⟩ := verdict_ok hok
  refine ⟨verdict, hok, ?_, ?_, ?_, ?_, hisolated⟩
  · rw [hallow, hchecks]
    exact admits_iff_checks
  · intro scan hscan hinconclusive
    refine (action_eq_iff hok _).mpr ?_
    have hbinds := h.inconclusive scan hscan hinconclusive
    split at hbinds
    · next hblocking =>
      have hrefuses : input.Refuses p :=
        refuses_of_refused hscan hinconclusive.refused hblocking
      exact (answers_of_refuses hrefuses _).mpr hbinds
    · exact hbinds
  · intro scan hscan hsevere
    refine (action_eq_iff hok _).mpr ?_
    have hbinds := h.severe scan hscan hsevere
    split at hbinds
    · next hblocking =>
      have hrefuses : input.Refuses p := refuses_of_refused hscan hblocking.2 hblocking.1
      exact (answers_of_refuses hrefuses _).mpr hbinds
    · exact hbinds
  · intro hstale haction
    exact h.fresh hstale (hallow.mp haction)

end GuardInput

/-- A call of `evaluate_cap_guard_policy` returns a verdict that honours every field of its
policy exactly when the tier of what it would allow is listed for isolation, the two fields that
choose between a deny and a quarantine ask for what the blocking controls give, and no stale scan
passes them. -/
theorem policy_fields_iff (p : Platform) (input : GuardInput) :
    input.Honoured p ↔ input.FieldsBind p :=
  ⟨GuardInput.Honoured.fields_bind, GuardInput.FieldsBind.honoured⟩

/-- A skill of the given tier whose signature and provenance are verified, scanned a minute and
a second ago. -/
def GuardInput.ofVerified (riskTier : RiskTier) (scan : ScanResult) (policy : CapGuardPolicy) :
    GuardInput :=
  { capability := { notesSkill "sha256:1" with
      riskTier, signatureStatus := .verified, provenanceStatus := .verified }
    scan := some scan, scanAge := 61, injection := some true, policy }

/-- A scan that passed without findings. -/
def ScanResult.clean : ScanResult :=
  { passed := some true, error := none, findings := [], criticalCount := some 0
    highCount := some 0, fileHash := some "sha256:1", fileSize := some 5 }

/-- A scan of a file that was too large to read. -/
def ScanResult.tooLarge : ScanResult :=
  { passed := some false, error := some "File too large", findings := [], criticalCount := none
    highCount := none, fileHash := none, fileSize := none }

/-- A scan that found one critical pattern. -/
def ScanResult.reverseShell : ScanResult :=
  { passed := some false, error := none
    findings := [{ name := "reverse_shell", severity := "critical"
                   description := "Reverse shell pattern", matchedText := none }]
    criticalCount := some 1, highCount := some 0, fileHash := some "sha256:1", fileSize := some 5 }

/-- A policy that quarantines on an errored scan, one that quarantines on critical findings, one
that forgets the critical tier, and one that wants a scan of the last minute: each is ignored or
makes the call raise. -/
theorem policy_fields_counterexample :
    ¬ (GuardInput.ofVerified .low .tooLarge { failClosed := false }).Honoured .sample ∧
      ¬ (GuardInput.ofVerified .low .reverseShell
        { denyOnHighFindings := false }).Honoured .sample ∧
      ¬ (GuardInput.ofVerified .critical .clean { camberTiers := [.high] }).Honoured .sample ∧
      ¬ (GuardInput.ofVerified .low .clean
        { maxScanAgeSeconds := some 60, age_positive := by simp }).Honoured .sample := by
  have hadmits : ∀ riskTier policy, riskTier ≠ .unset →
      (GuardInput.ofVerified riskTier .clean policy).Admits .sample := by
    intro riskTier policy htier check _
    have hverified : Platform.sample.lower (Platform.sample.stripSpace "verified") =
        "verified" := by decide
    cases check with
    | malwareScan => exact ⟨.clean, rfl, by decide, fun _ => rfl⟩
    | signature => exact hverified
    | provenance => exact hverified
    | promptInjectionScan => rfl
    | riskTierPolicy => exact htier
  refine ⟨fun h => ?_, fun h => ?_, fun h => ?_, fun h => ?_⟩
  · have hbinds := h.fields_bind.inconclusive .tooLarge rfl (.inl rfl)
    rw [if_pos (by decide)] at hbinds
    cases hbinds
  · have hbinds := h.fields_bind.severe .reverseShell rfl (.inr (.inl (by decide)))
    rw [if_pos (by decide)] at hbinds
    cases hbinds
  · have hlisted := h.fields_bind.tier_listed (hadmits _ _ (by decide)) (.inr rfl)
    exact absurd hlisted (by decide)
  · exact h.fields_bind.fresh ⟨rfl, 60, rfl, by decide⟩ (hadmits _ _ (by decide))

end Capmesh
