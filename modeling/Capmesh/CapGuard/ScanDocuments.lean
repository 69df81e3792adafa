import Capmesh.CapGuard.Quarantine
import Capmesh.Python.Digits
import Capmesh.Python.Values

/-!
# Scan documents

A scan as it is submitted, a JSON object with any values in it. `_verdict_for_scan` of `capguard.py`
derives the verdict of an attestation from it, and `_scan_check` of `cap_guard.py` the control of the
runtime policy. They read absent fields, the case of severities, and counts beside findings
differently. `scan_verdicts_agree_iff` says on which documents they agree.
-/

namespace Capmesh

open Python

/-- What `int(value)` rests on: the digits of a text, and the whole part of a float. -/
structure IntReader where
  digits : DigitTable
  truncate : String → Except String Int

/-- The name of the type of a value. -/
def typeName : Json → String
  | .null => "NoneType"
  | .bool _ => "bool"
  | .int _ => "int"
  | .float _ => "float"
  | .str _ => "str"
  | .arr _ => "list"
  | .obj _ => "dict"

/-- `int(value)`; the error is the text of what it raises. -/
def intOfValue (p : Platform) (reader : IntReader) : Json → Except String Int
  | .bool value => .ok (if value then 1 else 0)
  | .int value => .ok value
  | .float literal => reader.truncate literal
  | .str text => reader.digits.intText p.chars.isSpace p.repr text.toList
  | value => .error ("int() argument must be a string, a bytes-like object or a real number, not '" ++
      typeName value ++ "'")

/-- The items of `scan_result.get("findings") or []` as a loop takes them. -/
def documentFindings (document : Dict) : Except String (List Json) :=
  match document.get? "findings" with
  | none => .ok []
  | some findings =>
      if !findings.truthy then .ok []
      else match findings with
        | .arr items => .ok items
        | .str text => .ok (text.toList.map fun c => .str (String.ofList [c]))
        | .obj fields => .ok (fields.map fun field => .str field.1)
        | value => .error ("'" ++ typeName value ++ "' object is not iterable")

/-- `BLOCKING_SEVERITIES`. -/
def blockingSeverities : List String := ["critical", "high"]

/-- Whether a finding is an object whose severity blocks, in any case. -/
def isBlockingFinding (p : Platform) (finding : Json) : Bool :=
  match finding with
  | .obj _ => blockingSeverities.contains (p.lower
      (((finding.field "severity").map (Json.strText p.repr)).getD ""))
  | _ => false

/-- `_verdict_for_scan` on a document. -/
def verdictForDocument (p : Platform) (document : Dict) : Except String String := do
  if document.truthy "error" then
    return "error"
  let findings ← documentFindings document
  if findings.any (isBlockingFinding p) then
    return "blocked"
  if document.truthy "criticalCount" || document.truthy "highCount" then
    return "blocked"
  if document.get? "passed" = some (.bool false) then
    return "blocked"
  return "clean"

/-- `finding.get("severity")`. -/
def findingSeverity : Json → Except String (Option Json)
  | .obj fields => .ok (Dict.get? fields "severity")
  | finding => .error ("'" ++ typeName finding ++ "' object has no attribute 'get'")

/-- The number of findings of a severity, which is compared as it is written. -/
def severityCount (findings : List Json) (severity : String) : Except String Int := do
  let severities ← findings.mapM findingSeverity
  return (severities.filter (· = some (.str severity))).length

/-- A count of the document, or that of its findings where it has none. -/
def documentCount (p : Platform) (reader : IntReader) (document : Dict) (findings : List Json)
    (key severity : String) : Except String Int :=
  match document.get? key with
  | none => severityCount findings severity
  | some count => intOfValue p reader count

theorem failed_closed {closed : Bool} : closed = true → CheckState.failed = CheckState.failed :=
  fun _ => rfl

theorem passed_open : false = true → CheckState.passed = CheckState.failed := by simp

/-- `_scan_check` on a submitted document. -/
def scanCheckDocument (p : Platform) (reader : IntReader) (document : Dict)
    (policy : CapGuardPolicy) : Except String CheckResult := do
  if document.truthy "error" then
    let error := Json.strText p.repr ((document.get? "error").getD .null)
    return { name := .malwareScan, state := .failed, severity := .critical
             message := "scan inconclusive: " ++ error
             failClosed := true
             evidence := [("ran", .bool true), ("error", .str error)]
             failed_of_fail_closed := failed_closed }
  let findings ← documentFindings document
  let crit ← documentCount p reader document findings "criticalCount" "critical"
  let high ← documentCount p reader document findings "highCount" "high"
  let medium ← severityCount findings "medium"
  let passed := document.truthy "passed"
  let evidence : Dict := [("ran", .bool true), ("passed", .bool passed),
    ("criticalCount", .int crit), ("highCount", .int high), ("mediumCount", .int medium)]
  if !passed && (crit ≠ 0 || high ≠ 0) then
    return { name := .malwareScan, state := .failed
             severity := if crit ≠ 0 then .critical else .high
             message := "scan blocked: " ++ toString crit ++ " critical, " ++ toString high ++
               " high findings"
             evidence
             failed_of_fail_closed := failed_closed }
  if !passed then
    return { name := .malwareScan, state := .failed, severity := .critical
             message := "scan failed without enumerated findings"
             failClosed := true, evidence
             failed_of_fail_closed := failed_closed }
  if medium ≠ 0 && policy.quarantineOnMediumFindings then
    return { name := .malwareScan, state := .failed, severity := .medium
             message := "scan passed but " ++ toString medium ++ " medium findings require review"
             evidence
             failed_of_fail_closed := failed_closed }
  return { name := .malwareScan, state := .passed, message := "scan passed", evidence
           failed_of_fail_closed := passed_open }

/-- A finding as `scan_file` reports it. -/
def Finding.document (finding : Finding) : Json :=
  .obj [("name", .str finding.name), ("severity", .str finding.severity),
    ("description", .str finding.description),
    ("matchedText", (finding.matchedText.map Json.str).getD .null)]

/-- A scan result as a document; a key that is absent stays out. -/
def ScanResult.document (scan : ScanResult) : Dict :=
  (scan.passed.map fun passed => ("passed", Json.bool passed)).toList ++
    (scan.error.map fun error => ("error", Json.str error)).toList ++
    (scan.criticalCount.map fun count => ("criticalCount", Json.int count)).toList ++
    (scan.highCount.map fun count => ("highCount", Json.int count)).toList ++
    [("findings", .arr (scan.findings.map Finding.document))]

section

variable (p : Platform) (scan : ScanResult)

theorem get?_document : scan.document.get? "error" = scan.error.map .str ∧
    scan.document.get? "findings" = some (.arr (scan.findings.map Finding.document)) ∧
    scan.document.get? "passed" = scan.passed.map .bool ∧
    scan.document.get? "criticalCount" = scan.criticalCount.map .int ∧
    scan.document.get? "highCount" = scan.highCount.map .int := by
  obtain ⟨passed, error, findings, crit, high, hash, size⟩ := scan
  cases passed <;> cases error <;> cases crit <;> cases high <;>
    simp [ScanResult.document, Dict.get?]

theorem document_error : scan.document.truthy "error" = present scan.error := by
  rw [Dict.truthy, (get?_document scan).1]
  cases scan.error <;> rfl

theorem document_findings : documentFindings scan.document =
    .ok (scan.findings.map Finding.document) := by
  rw [documentFindings, (get?_document scan).2.1]
  cases scan.findings <;> rfl

theorem severity_count_document (severity : String) :
    severityCount (scan.findings.map Finding.document) severity =
      .ok (countSeverity scan.findings severity) := by
  have hseverities : (scan.findings.map Finding.document).mapM findingSeverity =
      .ok (scan.findings.map fun finding => some (.str finding.severity)) := by
    induction scan.findings with
    | nil => rfl
    | cons finding findings ih => rw [List.map_cons, List.mapM_cons, ih]; rfl
  unfold severityCount countSeverity
  rw [hseverities]
  simp [bind, Except.bind, pure, Except.pure, List.filter_map, Function.comp_def]

/-- On the document of a scan result the control is that of the result. -/
theorem scan_check_document_eq (reader : IntReader) (policy : CapGuardPolicy) :
    scanCheckDocument p reader scan.document policy = .ok (scanCheck (some scan) policy) := by
  obtain ⟨herror, -, hpassed, hcrit, hhigh⟩ := get?_document scan
  have hcount : ∀ key severity count, scan.document.get? key = Option.map Json.int count →
      documentCount p reader scan.document (scan.findings.map Finding.document) key severity =
        .ok (count.getD (countSeverity scan.findings severity)) := by
    intro key severity count hget
    unfold documentCount
    cases count with
    | none => rw [hget]; exact severity_count_document scan severity
    | some count => rw [hget]; rfl
  have htruthy : scan.document.truthy "passed" = scan.passed.getD false := by
    rw [Dict.truthy, hpassed]
    cases scan.passed <;> rfl
  unfold scanCheckDocument scanCheck
  simp only [document_error, herror, document_findings, hcount _ _ _ hcrit, hcount _ _ _ hhigh,
    severity_count_document, htruthy, bind, Except.bind, pure, Except.pure]
  cases hpresent : present scan.error with
  | false => simp only [Bool.false_eq_true, if_false, apply_ite Except.ok]
  | true =>
      have htext : Json.strText p.repr ((scan.error.map Json.str).getD .null) =
          scan.error.getD "" := by
        cases herror : scan.error with
        | none => simp [herror, present] at hpresent
        | some error => rfl
      simp only [if_true, htext]

/-- On the document of a scan result the verdict is that of the result. -/
theorem verdict_for_document_eq :
    verdictForDocument p scan.document = .ok (verdictForScan p scan).text := by
  obtain ⟨herror, -, hpassed, hcrit, hhigh⟩ := get?_document scan
  have hcount : ∀ key count, scan.document.get? key = Option.map Json.int count →
      scan.document.truthy key = decide (count.getD 0 ≠ 0) := by
    intro key count hget
    rw [Dict.truthy, hget]
    cases count <;> simp [Json.truthy]
  have hblocking : (scan.findings.map Finding.document).any (isBlockingFinding p) =
      scan.findings.any fun finding =>
        p.lower finding.severity = "critical" || p.lower finding.severity = "high" := by
    simp [isBlockingFinding, Finding.document, blockingSeverities, Json.field, List.lookup_cons,
      Json.strText, Function.comp_def]
  have hpassed' : scan.document.get? "passed" = some (.bool false) ↔ scan.passed = some false := by
    rw [hpassed]
    cases scan.passed <;> simp
  unfold verdictForDocument verdictForScan
  simp only [document_error, document_findings, hcount _ _ hcrit, hcount _ _ hhigh, hblocking,
    hpassed', bind, Except.bind, pure, Except.pure, ← Bool.decide_or, decide_eq_true_eq,
    apply_ite ScanVerdict.text, apply_ite Except.ok]
  rfl

end

/-- The attestation of a document is clean. -/
def AttestsClean (p : Platform) (document : Dict) : Prop :=
  verdictForDocument p document = .ok "clean"

/-- The runtime policy accepts a document. -/
def PolicyAccepts (p : Platform) (reader : IntReader) (document : Dict) (policy : CapGuardPolicy) :
    Prop :=
  ∃ check, scanCheckDocument p reader document policy = .ok check ∧ check.state = .passed

/-- A document reports a finding of a blocking severity, or a count. -/
def ReportsBlocking (p : Platform) (document : Dict) (findings : List Json) : Prop :=
  (∃ finding ∈ findings, isBlockingFinding p finding = true) ∨
    document.truthy "criticalCount" = true ∨ document.truthy "highCount" = true

/-- The findings of a document are objects, and its counts are absent or integers. -/
def Countable (p : Platform) (reader : IntReader) (document : Dict) (findings : List Json) : Prop :=
  (∀ finding ∈ findings, ∃ fields, finding = .obj fields) ∧
    ∀ key ∈ ["criticalCount", "highCount"], ∀ count, document.get? key = some count →
      ∃ n, intOfValue p reader count = .ok n

/-- The verdict and the policy read a document alike: its scan raised an error, or its findings are
no sequence, or it passed, can be counted and reports nothing that blocks, or it did not pass or
cannot be counted and either reports something or says that it did not pass. -/
def ReadsAlike (p : Platform) (reader : IntReader) (document : Dict) : Prop :=
  document.truthy "error" = true ∨ ∀ findings, documentFindings document = .ok findings →
    (document.truthy "passed" = true ∧ Countable p reader document findings ∧
      ¬ ReportsBlocking p document findings) ∨
    (¬ (document.truthy "passed" = true ∧ Countable p reader document findings) ∧
      (ReportsBlocking p document findings ∨ document.get? "passed" = some (.bool false)))

section

variable {p : Platform} {reader : IntReader} {document : Dict} {policy : CapGuardPolicy}
variable {findings : List Json}

theorem attests_clean_iff : AttestsClean p document ↔ document.truthy "error" = false ∧
    ∃ findings, documentFindings document = .ok findings ∧
      ¬ ReportsBlocking p document findings ∧ document.get? "passed" ≠ some (.bool false) := by
  unfold AttestsClean verdictForDocument
  cases herror : document.truthy "error" with
  | true => simp [pure, Except.pure]
  | false =>
      cases hfindings : documentFindings document with
      | error failure => simp [bind, Except.bind]
      | ok findings =>
          have hreports : ReportsBlocking p document findings ↔
              findings.any (isBlockingFinding p) = true ∨
                document.truthy "criticalCount" = true ∨ document.truthy "highCount" = true := by
            rw [List.any_eq_true]
            rfl
          simp only [Except.ok.injEq, exists_eq_left', hreports, Bool.false_eq_true, if_false, bind,
            Except.bind]
          cases findings.any (isBlockingFinding p) <;>
            cases document.truthy "criticalCount" <;> cases document.truthy "highCount" <;>
            by_cases hpassed : document.get? "passed" = some (.bool false) <;>
            simp [pure, Except.pure, hpassed]

theorem finding_severity_ok_iff (finding : Json) :
    (∃ severity, findingSeverity finding = .ok severity) ↔ ∃ fields, finding = .obj fields := by
  cases finding <;> simp [findingSeverity]

/-- The severities of findings can be counted exactly when all are objects. -/
theorem severity_count_ok_iff (findings : List Json) (severity : String) :
    (∃ n, severityCount findings severity = .ok n) ↔
      ∀ finding ∈ findings, ∃ fields, finding = .obj fields := by
  have hmap : (∃ severities, findings.mapM findingSeverity = .ok severities) ↔
      ∀ finding ∈ findings, ∃ fields, finding = .obj fields := by
    induction findings with
    | nil => simp [pure, Except.pure]
    | cons finding findings ih =>
        rw [List.forall_mem_cons, ← ih, ← finding_severity_ok_iff, List.mapM_cons]
        cases findingSeverity finding with
        | error failure => simp [bind, Except.bind]
        | ok first =>
            cases findings.mapM findingSeverity <;> simp [bind, Except.bind, pure, Except.pure]
  rw [← hmap]
  unfold severityCount
  cases findings.mapM findingSeverity <;> simp [bind, Except.bind, pure, Except.pure]

theorem document_count_ok_iff (key severity : String) :
    (∃ n, documentCount p reader document findings key severity = .ok n) ↔
      (document.get? key = none → ∀ finding ∈ findings, ∃ fields, finding = .obj fields) ∧
      ∀ count, document.get? key = some count → ∃ n, intOfValue p reader count = .ok n := by
  unfold documentCount
  cases document.get? key with
  | none => simp [severity_count_ok_iff]
  | some count => simp

theorem policy_accepts_iff (hpolicy : policy.quarantineOnMediumFindings = false) :
    PolicyAccepts p reader document policy ↔ document.truthy "error" = false ∧
      ∃ findings, documentFindings document = .ok findings ∧
        document.truthy "passed" = true ∧ Countable p reader document findings := by
  unfold PolicyAccepts scanCheckDocument
  cases herror : document.truthy "error" with
  | true => simp [pure, Except.pure]
  | false =>
      cases hfindings : documentFindings document with
      | error failure => simp [bind, Except.bind]
      | ok findings =>
          have hcountable : Countable p reader document findings ↔
              (∃ n, documentCount p reader document findings "criticalCount" "critical" = .ok n) ∧
              (∃ n, documentCount p reader document findings "highCount" "high" = .ok n) ∧
              ∃ n, severityCount findings "medium" = .ok n := by
            rw [document_count_ok_iff, document_count_ok_iff, severity_count_ok_iff]
            unfold Countable
            rw [List.forall_mem_cons, List.forall_mem_singleton]
            constructor
            · rintro ⟨hobjects, hcritical, hhigh⟩
              exact ⟨⟨fun _ => hobjects, hcritical⟩, ⟨fun _ => hobjects, hhigh⟩, hobjects⟩
            · rintro ⟨⟨-, hcritical⟩, ⟨-, hhigh⟩, hobjects⟩
              exact ⟨hobjects, hcritical, hhigh⟩
          simp only [Except.ok.injEq, exists_eq_left', hcountable, Bool.false_eq_true, if_false, bind,
            Except.bind]
          cases documentCount p reader document findings "criticalCount" "critical" with
          | error failure => simp
          | ok crit =>
              cases documentCount p reader document findings "highCount" "high" with
              | error failure => simp
              | ok high =>
                  cases severityCount findings "medium" with
                  | error failure => simp
                  | ok medium =>
                      cases document.truthy "passed" with
                      | true => simp [hpolicy, pure, Except.pure]
                      | false =>
                          by_cases hcounted : crit ≠ 0 ∨ high ≠ 0 <;>
                            simp [hcounted, pure, Except.pure]

/-- **Scan verdicts.** Under a policy that does not review medium findings, an attestation is clean
when the policy accepts the scan, and only then, exactly on the documents that both read alike. -/
theorem scan_verdicts_agree_iff (p : Platform) (reader : IntReader) (document : Dict)
    (hpolicy : policy.quarantineOnMediumFindings = false) :
    (AttestsClean p document ↔ PolicyAccepts p reader document policy) ↔
      ReadsAlike p reader document := by
  rw [attests_clean_iff, policy_accepts_iff hpolicy]
  unfold ReadsAlike
  cases herror : document.truthy "error" with
  | true => simp
  | false =>
      cases hfindings : documentFindings document with
      | error failure => simp
      | ok findings =>
          have hsaid : document.truthy "passed" = true →
              document.get? "passed" ≠ some (.bool false) := by
            intro htrue hfalse
            rw [Dict.truthy, hfalse] at htrue
            cases htrue
          simp only [true_and, Bool.false_eq_true, false_or, Except.ok.injEq, exists_eq_left',
            forall_eq']
          tauto

end

/-- A policy that accepts a scan with medium findings. -/
def lenientPolicy : CapGuardPolicy where
  quarantineOnMediumFindings := false
  blocking_enabled := default_blocking_enabled
  tiers_known := default_tiers_known
  tiers_disjoint := default_tiers_disjoint
  age_positive := default_age_positive

/-- The reader of the closed examples, which are without floats. -/
def asciiReader : IntReader := ⟨.ascii, fun literal => .error literal⟩

/-- A document that says nothing is attested clean, and the policy refuses it. -/
theorem scan_verdicts_counterexample :
    ¬ ∀ (p : Platform) (reader : IntReader) (document : Dict) (policy : CapGuardPolicy),
      policy.quarantineOnMediumFindings = false →
      (AttestsClean p document ↔ PolicyAccepts p reader document policy) := by
  intro hclaim
  obtain ⟨check, hcheck, hpassed⟩ := (hclaim .sample asciiReader [] lenientPolicy rfl).mp rfl
  cases hcheck
  cases hpassed

theorem scan_verdicts_agree_lenient :
    (AttestsClean .sample [("passed", .bool true)] ↔
      PolicyAccepts .sample asciiReader [("passed", .bool true)] lenientPolicy) ↔
      ReadsAlike .sample asciiReader [("passed", .bool true)] :=
  scan_verdicts_agree_iff .sample asciiReader [("passed", .bool true)] rfl

end Capmesh
