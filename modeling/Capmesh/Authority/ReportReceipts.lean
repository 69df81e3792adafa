import Capmesh.Authority.ClientTrust
import Capmesh.Chronology.Timestamp
import Capmesh.Delegation.Stages
import Capmesh.Python.JsonText

/-!
# Report receipts

`issue_report_receipt` signs what was accepted as the report of a workflow stage, and
`verify_report_receipt` holds a receipt against the key of the authority. The same key signs advisory
reports, the receipts of bundles and whatever ceremony an operator gives it. `report_receipts_bound`
says that a receipt is good for its time, and that no other is: a receipt that is accepted has the
fields of one that was issued.
-/

namespace Capmesh

open Python Chronology

/-- `REPORT_RECEIPT_SCHEMA`. -/
def reportReceiptSchema : String := "capmesh.report.receipt.v1"

/-- `REPORT_RECEIPT_DOMAIN`. -/
def reportReceiptDomain : String :=
  "ASGCODE:capmesh_report_receipt.v1" ++ String.ofList [Char.ofNat 0]

/-- `REPORT_PROVENANCE`. -/
def reportProvenance : String := "https://capmesh.asg.ts.net/tools/call#cap.report"

/-- `REPORT_RECEIPT_KEYS`. -/
def reportReceiptKeys : List String :=
  ["schema", "authoritative", "event", "taskId", "agentUri", "bundleDigest",
    "capabilityBindingDigest", "outcomeDigest", "outcomeStatus", "workflowId", "repo", "worktree",
    "baseCommit", "upstreamDelegationId", "reportId", "acceptedAt", "provenance", "issued_at",
    "expires_at", "nonce", "key_id", "signature"]

/-- `_OUTCOMES`. -/
def reportOutcomes : List String :=
  ["OK", "NEED_HELP", "BLOCKED", "FAILED_VERIFY", "INFRA_DOWN", "POLICY_DENIED"]

/-- `_REPORT_RE.fullmatch`. -/
def isReportId (text : String) : Bool := isTagged "cap-report-" isHexDigit 32 32 text

/-- `_NONCE_RE.fullmatch`. -/
def isNonceText (text : String) : Bool := isTagged "" isNonceChar 8 160 text

/-- `_KEY_ID_RE.fullmatch`. -/
def isKeyId (text : String) : Bool := isTagged "ed25519:sha256:" isHexDigit 64 64 text

/-- `_SIGNATURE_RE.fullmatch`. -/
def isSignatureText (text : String) : Bool := isTagged "" isIdChar 86 86 text

/-- `_COMMIT_RE.fullmatch`. -/
def isCommit (text : String) : Bool := isTagged "" isHexDigit 40 40 text

/-- Whether a value can be looked up in a set. -/
def isHashable : Option Json → Bool
  | some (.arr _) | some (.obj _) => false
  | _ => true

/-- `isinstance(value, str)`. -/
def isText : Option Json → Bool
  | some (.str _) => true
  | _ => false

/-- `isinstance(value, str) and value`. -/
def isFilledText : Option Json → Bool
  | some (.str text) => text ≠ ""
  | _ => false

/-- `value in _OUTCOMES`. -/
def isOutcome : Option Json → Bool
  | some (.str text) => reportOutcomes.contains text
  | _ => false

/-- A receipt without its signature. -/
def unsignedFields (receipt : Dict) : Dict := receipt.filter fun field => field.1 ≠ "signature"

/-- What is signed of a receipt: `REPORT_RECEIPT_DOMAIN`, and the receipt without its signature. -/
def reportMessage (receipt : Dict) : List UInt8 :=
  (reportReceiptDomain ++ (Json.obj (unsignedFields receipt)).canonicalText).toUTF8.data.toList

section

variable (p : Platform)

/-- What `_validate_unsigned` asks of the fields that are signed, its times apart. -/
def reportBound (receipt : Dict) : Bool :=
  Dict.get? receipt "schema" = some (.str reportReceiptSchema) &&
  Dict.get? receipt "authoritative" = some (.bool true) &&
  Dict.get? receipt "event" = some (.str "asgcode.workflow.stage") &&
  Dict.get? receipt "provenance" = some (.str reportProvenance) &&
  isTaskId (fieldText p receipt "taskId") &&
  startsWith (fieldText p receipt "agentUri") "cap://" &&
  isSha256 (fieldText p receipt "bundleDigest") &&
  isSha256 (fieldText p receipt "capabilityBindingDigest") &&
  isSha256 (fieldText p receipt "outcomeDigest") &&
  isOutcome (Dict.get? receipt "outcomeStatus") &&
  isWorkflowId (fieldText p receipt "workflowId") &&
  isFilledText (Dict.get? receipt "repo") &&
  isText (Dict.get? receipt "worktree") &&
  isCommit (fieldText p receipt "baseCommit") &&
  isTaskId (fieldText p receipt "upstreamDelegationId") &&
  isReportId (fieldText p receipt "reportId") &&
  isFilledText (Dict.get? receipt "acceptedAt") &&
  isNonceText (fieldText p receipt "nonce") &&
  isKeyId (fieldText p receipt "key_id")

/-- `_validate_unsigned`. A list or a dictionary is in no set. -/
def validateUnsigned (receipt : Dict) (now : Int) (requireFresh : Bool) : Except Failure Unit := do
  require (sameKeys receipt reportReceiptKeys) "report receipt fields are not canonical"
  if !isHashable (Dict.get? receipt "outcomeStatus") then .error (.runtime "unhashable type")
  else do
    require (reportBound p receipt && isSignatureText (fieldText p receipt "signature"))
      "report receipt binding is malformed"
    match Dict.get? receipt "issued_at", Dict.get? receipt "expires_at" with
    | some (.int issued), some (.int expires) => do
        require (issued < expires && expires - issued ≤ 86400)
          "report receipt validity interval is malformed"
        require (!(requireFresh && (now + 30 < issued || expires ≤ now)))
          "report receipt is expired or from the future"
    | _, _ => .error (.value "report receipt validity interval is malformed")

/-- Whether the key has signed a receipt. What is no text has no length. -/
def reportSigned (key : AuthorityKey) (receipt : Dict) : Bool :=
  match Dict.get? receipt "signature" with
  | some (.str text) => key.verify (Base64.decode text) (reportMessage receipt)
  | _ => false

/-- `verify_report_receipt`. -/
def verifyReportReceipt (key : AuthorityKey) (receipt : Dict) (now : Int) (requireFresh : Bool) :
    Except Failure Dict := do
  validateUnsigned p receipt now requireFresh
  require (Dict.get? receipt "key_id" = some (.str key.keyId)) "report receipt key_id mismatch"
  require (reportSigned key receipt) "report receipt signature is invalid"
  .ok receipt

/-- A call of `issue_report_receipt`, with the time and the bytes that `secrets` draws. -/
structure ReportIssue where
  taskId : String
  agentUri : String
  bundleDigest : String
  capabilityBindingDigest : String
  outcomeDigest : String
  outcomeStatus : String
  workflowId : String
  repo : String
  worktree : String
  baseCommit : String
  upstreamDelegationId : String
  now : Int
  ttl : Int
  reportBytes : List UInt8
  nonceBytes : List UInt8
  report_bytes_length : reportBytes.length = 16
  nonce_bytes_length : nonceBytes.length = 24

/-- The private key of the authority: its signatures have 64 bytes, and its id is a digest. -/
structure AuthoritySigner extends AuthorityKey where
  sign : List UInt8 → List UInt8
  sign_length : ∀ message, (sign message).length = 64
  key_id_digest : isKeyId keyId = true

/-- The receipt that `issue_report_receipt` signs. -/
def reportFields (keyId : String) (call : ReportIssue) (acceptedAt : String) : Dict :=
  [("schema", .str reportReceiptSchema), ("authoritative", .bool true),
    ("event", .str "asgcode.workflow.stage"), ("taskId", .str call.taskId),
    ("agentUri", .str call.agentUri), ("bundleDigest", .str call.bundleDigest),
    ("capabilityBindingDigest", .str call.capabilityBindingDigest),
    ("outcomeDigest", .str call.outcomeDigest), ("outcomeStatus", .str call.outcomeStatus),
    ("workflowId", .str call.workflowId), ("repo", .str call.repo),
    ("worktree", .str call.worktree), ("baseCommit", .str call.baseCommit),
    ("upstreamDelegationId", .str call.upstreamDelegationId),
    ("reportId", .str ("cap-report-" ++ hexText call.reportBytes)),
    ("acceptedAt", .str acceptedAt), ("provenance", .str reportProvenance),
    ("issued_at", .int call.now), ("expires_at", .int (call.now + call.ttl)),
    ("nonce", .str (Base64.encode call.nonceBytes)), ("key_id", .str keyId)]

/-- What `issue_report_receipt` does before it signs. A time outside of the calendar is none. -/
def unsignedReport (keyId : String) (call : ReportIssue) : Except Failure Dict := do
  require (1 ≤ call.ttl && call.ttl ≤ 86400) "report receipt ttl must be 1..86400 seconds"
  match Clock.fromTimestamp call.now with
  | none => .error (.value "year is out of range")
  | some clock => .ok (reportFields keyId call (String.ofList clock.stamp))

/-- A receipt with the signature of its fields. -/
def signedReport (signer : AuthoritySigner) (unsigned : Dict) : Dict :=
  unsigned ++ [("signature", .str (Base64.encode (signer.sign (reportMessage unsigned))))]

/-- `issue_report_receipt`. -/
def issueReportReceipt (signer : AuthoritySigner) (call : ReportIssue) : Except Failure Dict := do
  let unsigned ← unsignedReport signer.keyId call
  verifyReportReceipt p signer.toAuthorityKey (signedReport signer unsigned) call.now true

end

/-- A call of `_signed_advisory_report_receipt`, with what it draws and reads of the clock. -/
structure AdvisoryIssue where
  event : String
  taskId : String
  agentUri : String
  bundleDigest : String
  bindingDigest : String
  outcomeDigest : String
  outcomeStatus : String
  reportHex : String
  acceptedAt : String
  issued : Int
  nonce : String

/-- The receipt that `_signed_advisory_report_receipt` signs. -/
def unsignedAdvisory (keyId : String) (call : AdvisoryIssue) : Dict :=
  [("schema", .str "capmesh.report.receipt.v1"),
    ("reportId", .str ("cap-report-" ++ call.reportHex)), ("authoritative", .bool true),
    ("authorization", .str "advisory-audit-only"), ("event", .str call.event),
    ("taskId", .str call.taskId), ("agentUri", .str call.agentUri),
    ("bundleDigest", .str call.bundleDigest),
    ("capabilityBindingDigest", .str call.bindingDigest),
    ("outcomeDigest", .str call.outcomeDigest), ("outcomeStatus", .str call.outcomeStatus),
    ("acceptedAt", .str call.acceptedAt), ("provenance", .str reportProvenance),
    ("issued_at", .int call.issued), ("expires_at", .int (call.issued + 1800)),
    ("nonce", .str call.nonce), ("key_id", .str keyId)]

/-- A call of `_signed_bundle_receipt`, with what it draws and reads of the clock. -/
structure BundleIssue where
  taskId : String
  workflowId : String
  bundleHash : String
  bindingHash : String
  issued : Int
  nonce : String

/-- The receipt that `_signed_bundle_receipt` signs. -/
def unsignedBundle (keyId : String) (call : BundleIssue) : Dict :=
  [("schema", .str "capmesh_bundle_receipt.v1"), ("task_id", .str call.taskId),
    ("workflow_id", .str call.workflowId), ("bundle_hash", .str call.bundleHash),
    ("binding_hash", .str call.bindingHash), ("issued_at", .int call.issued),
    ("expires_at", .int (call.issued + 1800)), ("nonce", .str call.nonce), ("key_id", .str keyId)]

/-- What is signed of the receipt of a bundle. -/
def bundleMessage (receipt : Dict) : List UInt8 :=
  (receiptDomain ++ (Json.obj (unsignedFields receipt)).canonicalText).toUTF8.data.toList

/-- What the key of the authority is used for. -/
inductive AuthorityDocument where
  | report (call : ReportIssue)
  | advisory (call : AdvisoryIssue)
  | bundle (call : BundleIssue)
  | rotation (ceremony : Dict)

/-- The message that is signed of a document. -/
def AuthorityDocument.message (keyId : String) : AuthorityDocument → Except Failure (List UInt8)
  | .report call => do
      let unsigned ← unsignedReport keyId call
      .ok (reportMessage unsigned)
  | .advisory call => .ok (reportMessage (unsignedAdvisory keyId call))
  | .bundle call => .ok (bundleMessage (unsignedBundle keyId call))
  | .rotation ceremony => .ok (rotationMessage ceremony)

/-- Nobody else signs: a signature that the key accepts is the one that was made of a document. -/
def AuthoritySigner.Unforgeable (signer : AuthoritySigner) (signed : Set AuthorityDocument) :
    Prop :=
  ∀ signature message, signer.verify signature message = true →
    ∃ document ∈ signed, document.message signer.keyId = .ok message ∧
      signature = signer.sign message

/-- A receipt as it comes in: a dictionary whose numbers are numbers. -/
structure PresentedReceipt where
  fields : Dict
  numbers : Json.spelledFields fields = true

/-- Receipts with the same fields, whose signatures are spellings of the same bytes. -/
structure SameReport (presented issued : Dict) : Prop where
  has : ∀ name, presented.has name = issued.has name
  get? : ∀ name, name ≠ "signature" → Dict.get? presented name = Dict.get? issued name
  signature : ∃ text encoded, Dict.get? presented "signature" = some (.str text) ∧
    Dict.get? issued "signature" = some (.str encoded) ∧ Base64.decode text = Base64.decode encoded

section

variable {p : Platform} {signer : AuthoritySigner} {call : ReportIssue}
variable {receipt unsigned : Dict} {requireFresh : Bool} {now : Int} {text name : String}
variable {other : Dict}

theorem require_of {condition : Bool} (text : String) (h : condition = true) :
    require condition text = .ok () := if_pos h

theorem ok_then {α β : Type} (value : α) (next : α → Except Failure β) :
    ((.ok value : Except Failure α) >>= next) = next value := rfl

/-- What a receipt that passes has. -/
structure ReportValid (p : Platform) (receipt : Dict) (now : Int) (requireFresh : Bool) : Prop where
  keys : sameKeys receipt reportReceiptKeys = true
  bound : reportBound p receipt = true
  signature : isSignatureText (fieldText p receipt "signature") = true
  times : ∃ issued expires, Dict.get? receipt "issued_at" = some (.int issued) ∧
    Dict.get? receipt "expires_at" = some (.int expires) ∧ issued < expires ∧
    expires - issued ≤ 86400 ∧ (requireFresh = true → issued ≤ now + 30 ∧ now < expires)

theorem report_bound_hashable (h : reportBound p receipt = true) :
    isHashable (Dict.get? receipt "outcomeStatus") = true := by
  have houtcome : isOutcome (Dict.get? receipt "outcomeStatus") = true := by
    simp only [reportBound, Bool.and_eq_true] at h
    exact h.1.1.1.1.1.1.1.1.1.2
  cases hvalue : Dict.get? receipt "outcomeStatus" with
  | none => rfl
  | some value =>
      rw [hvalue] at houtcome
      cases value <;> first | rfl | cases houtcome

/-- The validation up to the times of a receipt. -/
theorem validate_unsigned_eq (hkeys : sameKeys receipt reportReceiptKeys = true)
    (hbound : reportBound p receipt = true)
    (hsignature : isSignatureText (fieldText p receipt "signature") = true) {issued expires : Int}
    (hissued : Dict.get? receipt "issued_at" = some (.int issued))
    (hexpires : Dict.get? receipt "expires_at" = some (.int expires)) (hlt : issued < expires)
    (hspan : expires - issued ≤ 86400) :
    validateUnsigned p receipt now requireFresh =
      require (!(requireFresh && (now + 30 < issued || expires ≤ now)))
        "report receipt is expired or from the future" := by
  unfold validateUnsigned
  rw [require_of _ hkeys, ok_then, report_bound_hashable hbound, hbound, hsignature, hissued,
    hexpires]
  simp only [Bool.not_true, Bool.false_eq_true, if_false, Bool.and_self]
  rw [require_of _ rfl, ok_then]
  rw [require_of _ (by simp only [Bool.and_eq_true, decide_eq_true_eq]; exact ⟨hlt, hspan⟩), ok_then]

theorem validate_unsigned_ok :
    validateUnsigned p receipt now requireFresh = .ok () ↔
      ReportValid p receipt now requireFresh := by
  constructor
  · intro h
    obtain ⟨⟨⟩, hkeys, h⟩ := bind_eq_ok h
    split at h
    · cases h
    · obtain ⟨⟨⟩, hfields, h⟩ := bind_eq_ok h
      have hboth := Bool.and_eq_true _ _ ▸ require_ok hfields
      split at h
      · rename_i issued expires hissued hexpires
        obtain ⟨⟨⟩, hinterval, h⟩ := bind_eq_ok h
        have hspan := require_ok hinterval
        have hfresh := require_ok h
        simp only [Bool.and_eq_true, decide_eq_true_eq] at hspan
        refine ⟨require_ok hkeys, hboth.1, hboth.2, issued, expires, hissued, hexpires, hspan.1,
          hspan.2, ?_⟩
        rintro rfl
        simp only [Bool.true_and, Bool.not_eq_true', Bool.or_eq_false_iff,
          decide_eq_false_iff_not] at hfresh
        omega
      · cases h
  · rintro ⟨hkeys, hbound, hsignature, issued, expires, hissued, hexpires, hlt, hspan, hfresh⟩
    rw [validate_unsigned_eq hkeys hbound hsignature hissued hexpires hlt hspan]
    refine require_of _ ?_
    cases requireFresh with
    | false => rfl
    | true =>
        have hnow := hfresh rfl
        simp only [Bool.true_and, Bool.not_eq_true', Bool.or_eq_false_iff, decide_eq_false_iff_not]
        omega

theorem verify_report_receipt_ok {key : AuthorityKey} {value : Dict} :
    verifyReportReceipt p key receipt now requireFresh = .ok value ↔
      value = receipt ∧ ReportValid p receipt now requireFresh ∧
        Dict.get? receipt "key_id" = some (.str key.keyId) ∧ reportSigned key receipt = true := by
  constructor
  · intro h
    obtain ⟨⟨⟩, hvalid, h⟩ := bind_eq_ok h
    obtain ⟨⟨⟩, hkey, h⟩ := bind_eq_ok h
    obtain ⟨⟨⟩, hsigned, h⟩ := bind_eq_ok h
    cases h
    exact ⟨rfl, validate_unsigned_ok.mp hvalid, of_decide_eq_true (require_ok hkey),
      require_ok hsigned⟩
  · rintro ⟨rfl, hvalid, hkey, hsigned⟩
    unfold verifyReportReceipt
    rw [validate_unsigned_ok.mpr hvalid, ok_then, require_of _ (decide_eq_true hkey), ok_then,
      require_of _ hsigned, ok_then]

theorem text_of_bytes {other : String} (h : text.toUTF8.data.toList = other.toUTF8.data.toList) :
    text = other := by
  refine String.toByteArray_inj.mp ?_
  have hdata : text.toUTF8.data = other.toUTF8.data := Array.toList_inj.mp h
  cases hleft : text.toUTF8
  cases hright : other.toUTF8
  rw [hleft, hright] at hdata
  cases hdata
  exact hleft.trans hright.symm

/-- Whether a value has no values inside. -/
def isPlain : Json → Bool
  | .arr _ | .obj _ => false
  | _ => true

theorem eq_of_canonical {value plain : Json} (h : isPlain plain = true)
    (hsame : Json.canonical value = Json.canonical plain) : value = plain := by
  have hplain : Json.canonical plain = plain := by cases plain <;> first | rfl | cases h
  rw [hplain] at hsame
  cases value with
  | arr items =>
      rw [← hsame, Json.canonical] at h
      cases h
  | obj fields =>
      rw [← hsame, Json.canonical] at h
      cases h
  | _ => exact hsame

theorem get?_plain {data : Dict} (h : ∀ field ∈ data, isPlain field.2 = true) {value : Json}
    (hvalue : Dict.get? data name = some value) : isPlain value = true := by
  unfold Dict.get? at hvalue
  split at hvalue
  · cases hvalue
  · rename_i other hfind
    cases hvalue
    exact h _ (List.mem_of_find?_eq_some hfind)
  · cases hvalue

theorem get?_unsigned_fields (data : Dict) (h : name ≠ "signature") :
    Dict.get? (unsignedFields data) name = Dict.get? data name := by
  have hfind : (unsignedFields data).find? (fun field => field.1 = name) =
      data.find? fun field => field.1 = name := by
    unfold unsignedFields
    rw [List.find?_filter]
    congr 1
    funext field
    by_cases hname : field.1 = name
    · simp [hname, h]
    · simp [hname]
  unfold Dict.get?
  rw [hfind]

theorem has_unsigned_fields (data : Dict) (h : name ≠ "signature") :
    (unsignedFields data).has name = data.has name := by
  unfold Dict.has unsignedFields
  rw [List.any_filter]
  congr 1
  funext field
  by_cases hname : field.1 = name
  · simp [hname, h]
  · simp [hname]

theorem spelled_unsigned (h : Json.spelledFields receipt = true) :
    Json.spelledFields (unsignedFields receipt) = true := by
  rw [Json.spelled_fields_eq, List.all_eq_true] at h ⊢
  intro field hfield
  exact h field (List.mem_filter.mp hfield).1

/-- What is signed of a receipt determines its fields, up to their order. -/
theorem fields_of_message {receipt : Dict} {domain : String}
    (hreceipt : Json.spelledFields receipt = true) (hother : Json.spelledFields other = true)
    (h : (domain ++ (Json.obj (unsignedFields receipt)).canonicalText).toUTF8.data.toList =
      (domain ++ (Json.obj (unsignedFields other)).canonicalText).toUTF8.data.toList) :
    Json.canonicalFields (unsignedFields receipt) =
      Json.canonicalFields (unsignedFields other) := by
  have htexts := text_of_bytes h
  have htext : (Json.obj (unsignedFields receipt)).canonicalText =
      (Json.obj (unsignedFields other)).canonicalText := by
    simpa using htexts
  have hvalues : Json.canonical (.obj (unsignedFields receipt)) =
      Json.canonical (.obj (unsignedFields other)) :=
    Json.canonical_text_inj (spelled_unsigned hreceipt) (spelled_unsigned hother) htext
  rw [Json.canonical, Json.canonical] at hvalues
  exact Json.obj.inj hvalues

theorem same_fields (h : Json.canonicalFields (unsignedFields receipt) =
      Json.canonicalFields (unsignedFields other))
    (hplain : ∀ field ∈ other, isPlain field.2 = true) (hname : name ≠ "signature") :
    receipt.has name = other.has name ∧ Dict.get? receipt name = Dict.get? other name := by
  constructor
  · rw [← has_unsigned_fields receipt hname, ← has_unsigned_fields other hname,
      ← Dict.has_canonical_fields, h, Dict.has_canonical_fields]
  · have hvalues : (Dict.get? receipt name).map Json.canonical =
        (Dict.get? other name).map Json.canonical := by
      rw [← get?_unsigned_fields receipt hname, ← get?_unsigned_fields other hname,
        ← Dict.get?_canonical_fields, h, Dict.get?_canonical_fields]
    cases hother : Dict.get? other name with
    | none =>
        rw [hother] at hvalues
        exact Option.map_eq_none_iff.mp hvalues
    | some plain =>
        rw [hother] at hvalues
        obtain ⟨value, hvalue, hsame⟩ := Option.map_eq_some_iff.mp hvalues
        rw [hvalue, eq_of_canonical (get?_plain hplain hother) hsame]

/-- What is signed under two domains is never the same. -/
theorem domain_ne {domain other content : String} (count : Nat)
    (hlength : count ≤ domain.toList.length) (hother : count ≤ other.toList.length)
    (hne : domain.toList.take count ≠ other.toList.take count) :
    (domain ++ text).toUTF8.data.toList ≠ (other ++ content).toUTF8.data.toList := by
  intro h
  have hchars := congrArg (fun text => text.toList.take count) (text_of_bytes h)
  simp only [String.toList_append, List.take_append_of_le_length hlength,
    List.take_append_of_le_length hother] at hchars
  exact hne hchars

theorem report_ne_bundle (receipt other : Dict) : reportMessage receipt ≠ bundleMessage other :=
  domain_ne 17 (by decide) (by decide) (by decide)

theorem report_ne_rotation (receipt ceremony : Dict) :
    reportMessage receipt ≠ rotationMessage ceremony :=
  domain_ne 17 (by decide) (by decide) (by decide)

variable {keyId acceptedAt : String}

theorem unsigned_report_fields : unsignedFields (reportFields keyId call acceptedAt) =
    reportFields keyId call acceptedAt := by
  simp [unsignedFields, reportFields]

theorem unsigned_signed_report :
    unsignedFields (signedReport signer (reportFields keyId call acceptedAt)) =
      reportFields keyId call acceptedAt := by
  simp [unsignedFields, signedReport, reportFields]

theorem signed_report_message :
    reportMessage (signedReport signer (reportFields keyId call acceptedAt)) =
      reportMessage (reportFields keyId call acceptedAt) := by
  unfold reportMessage
  rw [unsigned_signed_report, unsigned_report_fields]

theorem signed_report_keys :
    sameKeys (signedReport signer (reportFields keyId call acceptedAt)) reportReceiptKeys = true := by
  simp [sameKeys, signedReport, reportFields, reportReceiptKeys, Dict.has]

theorem signed_report_plain :
    ∀ field ∈ signedReport signer (reportFields keyId call acceptedAt),
      isPlain field.2 = true := by
  simp [signedReport, reportFields, isPlain]

theorem signed_report_numbers :
    Json.spelledFields (signedReport signer (reportFields keyId call acceptedAt)) = true := by
  simp [signedReport, reportFields, Json.spelledFields, Json.spelled]

theorem get?_signature : Dict.get? (signedReport signer (reportFields keyId call acceptedAt))
    "signature" = some (.str (Base64.encode
      (signer.sign (reportMessage (reportFields keyId call acceptedAt))))) := by
  simp [signedReport, reportFields, Dict.get?]

theorem is_tagged_append {start rest : String} {allowed : Char → Bool} {low high : Nat}
    (hall : ∀ c ∈ rest.toList, allowed c = true) (hlow : low ≤ rest.toList.length)
    (hhigh : rest.toList.length ≤ high) :
    isTagged start allowed low high (start ++ rest) = true := by
  have hrest : (start ++ rest).toList.drop start.length = rest.toList := by
    rw [String.toList_append]
    exact List.drop_left' String.length_toList
  have hstart : startsWith (start ++ rest) start = true := by
    rw [startsWith, String.toList_append, List.isPrefixOf_iff_prefix]
    exact List.prefix_append _ _
  unfold isTagged
  rw [hrest, hstart]
  simp only [Bool.true_and, Bool.and_eq_true, List.all_eq_true, decide_eq_true_eq]
  exact ⟨⟨hall, hlow⟩, hhigh⟩

theorem get?_issued_at : Dict.get? (signedReport signer (reportFields keyId call acceptedAt))
    "issued_at" = some (.int call.now) := by
  simp [signedReport, reportFields, Dict.get?]

theorem get?_expires_at : Dict.get? (signedReport signer (reportFields keyId call acceptedAt))
    "expires_at" = some (.int (call.now + call.ttl)) := by
  simp [signedReport, reportFields, Dict.get?]

theorem get?_key_id : Dict.get? (signedReport signer (reportFields keyId call acceptedAt)) "key_id" =
    some (.str keyId) := by
  simp [signedReport, reportFields, Dict.get?]

theorem field_text_of {key : String} (h : Dict.get? receipt key = some (.str text)) :
    fieldText p receipt key = text := by
  unfold fieldText Json.textOrEmpty
  rw [h]
  by_cases htext : text = ""
  · simp [htext, Json.truthy]
  · simp [htext, Json.truthy, Json.strText]

/-- The spelling of a signature passes. -/
theorem signature_text (message : List UInt8) :
    isSignatureText (Base64.encode (signer.sign message)) = true := by
  have hlength := Base64.encode_length (signer.sign message)
  rw [signer.sign_length] at hlength
  have htagged : isTagged "" isIdChar 86 86 ("" ++ Base64.encode (signer.sign message)) = true :=
    is_tagged_append (Base64.encode_alphabet _) (by omega) (by omega)
  rwa [String.empty_append] at htagged

theorem report_bound_congr (h : ∀ name, name ≠ "signature" →
    Dict.get? receipt name = Dict.get? other name) :
    reportBound p receipt = reportBound p other := by
  simp (disch := decide) only [reportBound, fieldText, h]

theorem unsigned_report_ok (h : unsignedReport keyId call = .ok unsigned) :
    (∃ acceptedAt, unsigned = reportFields keyId call acceptedAt) ∧
      1 ≤ call.ttl ∧ call.ttl ≤ 86400 := by
  obtain ⟨⟨⟩, httl, hfields⟩ := bind_eq_ok h
  have hrange := require_ok httl
  simp only [Bool.and_eq_true, decide_eq_true_eq] at hrange
  split at hfields
  · cases hfields
  · cases hfields
    exact ⟨⟨_, rfl⟩, hrange⟩

/-- A receipt is issued whose fields pass, its signature being one that the key accepts. -/
theorem issue_of_bound (hunsigned : unsignedReport signer.keyId call = .ok unsigned)
    (hbound : reportBound p (signedReport signer unsigned) = true)
    (hverify : signer.verify (signer.sign (reportMessage unsigned)) (reportMessage unsigned) = true) :
    issueReportReceipt p signer call = .ok (signedReport signer unsigned) := by
  obtain ⟨⟨acceptedAt, rfl⟩, hpositive, hlimit⟩ := unsigned_report_ok hunsigned
  unfold issueReportReceipt
  rw [hunsigned, ok_then, verify_report_receipt_ok]
  refine ⟨rfl, ⟨signed_report_keys, hbound, ?_, call.now, call.now + call.ttl, get?_issued_at,
    get?_expires_at, by omega, by omega, fun _ => by omega⟩, get?_key_id, ?_⟩
  · rw [field_text_of get?_signature]
    exact signature_text _
  · unfold reportSigned
    rw [get?_signature]
    dsimp only
    rw [Base64.decode_encode, signed_report_message]
    exact hverify

theorem has_of_keys {keys : List String} (h : sameKeys receipt keys = true) (name : String) :
    receipt.has name = keys.contains name := by
  simp only [sameKeys, Bool.and_eq_true, List.all_eq_true] at h
  cases hmem : keys.contains name with
  | true => exact h.2 name (List.contains_iff_mem.mp hmem)
  | false =>
      rw [Dict.has, List.any_eq_false]
      intro field hfield hname
      rw [← of_decide_eq_true hname, h.1 field hfield] at hmem
      cases hmem

theorem advisory_ne_report {call : AdvisoryIssue}
    (hkeys : sameKeys receipt reportReceiptKeys = true)
    (hnumbers : Json.spelledFields receipt = true) :
    reportMessage (unsignedAdvisory keyId call) ≠ reportMessage receipt := by
  intro h
  have hadvisory : Json.spelledFields (unsignedAdvisory keyId call) = true := by
    simp [unsignedAdvisory, Json.spelledFields, Json.spelled]
  have hhas : (unsignedAdvisory keyId call).has "authorization" = receipt.has "authorization" := by
    rw [← has_unsigned_fields receipt (by decide), ← has_unsigned_fields _ (by decide),
      ← Dict.has_canonical_fields, fields_of_message hadvisory hnumbers h,
      Dict.has_canonical_fields]
  rw [has_of_keys hkeys] at hhas
  simp [unsignedAdvisory, Dict.has, reportReceiptKeys] at hhas

theorem accepted_was_issued {signed : Set AuthorityDocument} (hsigner : signer.Unforgeable signed)
    {presented : PresentedReceipt} {value : Dict}
    (h : verifyReportReceipt p signer.toAuthorityKey presented.fields now requireFresh = .ok value) :
    ∃ call, .report call ∈ signed ∧ ∃ receipt,
      issueReportReceipt p signer call = .ok receipt ∧ SameReport presented.fields receipt := by
  obtain ⟨-, hvalid, hkey, hsigned⟩ := verify_report_receipt_ok.mp h
  unfold reportSigned at hsigned
  split at hsigned
  · rename_i text htext
    obtain ⟨document, hmem, hmessage, hsignature⟩ := hsigner _ _ hsigned
    rw [hsignature] at hsigned
    cases document with
    | report call =>
        obtain ⟨unsigned, hunsigned, hsame⟩ := bind_eq_ok hmessage
        obtain ⟨⟨acceptedAt, rfl⟩, -⟩ := unsigned_report_ok hunsigned
        rw [← Except.ok.inj hsame] at hsigned hsignature
        have hnumbers : Json.spelledFields
            (signedReport signer (reportFields signer.keyId call acceptedAt)) = true :=
          signed_report_numbers
        have hfields := fields_of_message presented.numbers hnumbers
          ((Except.ok.inj hsame).symm.trans signed_report_message.symm)
        have hget : ∀ name, name ≠ "signature" → Dict.get? presented.fields name =
            Dict.get? (signedReport signer (reportFields signer.keyId call acceptedAt)) name :=
          fun name hname => (same_fields hfields signed_report_plain hname).2
        exact ⟨call, hmem, _, issue_of_bound hunsigned
            ((report_bound_congr hget).symm.trans hvalid.bound) hsigned,
          fun name => (has_of_keys hvalid.keys name).trans (has_of_keys signed_report_keys name).symm,
          hget, text, _, htext, get?_signature, hsignature.trans (Base64.decode_encode _).symm⟩
    | advisory call =>
        exact absurd (Except.ok.inj hmessage) (advisory_ne_report hvalid.keys presented.numbers)
    | bundle call => exact absurd (Except.ok.inj hmessage).symm (report_ne_bundle _ _)
    | rotation ceremony => exact absurd (Except.ok.inj hmessage).symm (report_ne_rotation _ _)
  · cases hsigned

theorem issued_receipt (h : issueReportReceipt p signer call = .ok receipt) :
    ∃ issued expires, Dict.get? receipt "issued_at" = some (.int issued) ∧
      Dict.get? receipt "expires_at" = some (.int expires) ∧ ∀ now,
        (issued - 30 ≤ now → now < expires →
          verifyReportReceipt p signer.toAuthorityKey receipt now true = .ok receipt) ∧
        (expires ≤ now → verifyReportReceipt p signer.toAuthorityKey receipt now true =
          .error (.value "report receipt is expired or from the future")) := by
  obtain ⟨unsigned, -, hverify⟩ := bind_eq_ok h
  obtain ⟨rfl, hvalid, hkey, hsigned⟩ := verify_report_receipt_ok.mp hverify
  obtain ⟨hkeys, hbound, hsignature, issued, expires, hissued, hexpires, hlt, hspan, -⟩ := hvalid
  refine ⟨issued, expires, hissued, hexpires, fun now => ⟨fun hfrom hbefore => ?_, fun hafter => ?_⟩⟩
  · exact verify_report_receipt_ok.mpr ⟨rfl, ⟨hkeys, hbound, hsignature, issued, expires, hissued,
      hexpires, hlt, hspan, fun _ => ⟨by omega, hbefore⟩⟩, hkey, hsigned⟩
  · unfold verifyReportReceipt
    rw [validate_unsigned_eq hkeys hbound hsignature hissued hexpires hlt hspan,
      decide_eq_true hafter]
    simp only [Bool.or_true, Bool.and_true, Bool.not_true]
    rfl

/-- A receipt that was issued is accepted as it is from half a minute before its time until it
expires, and no more from then on; a receipt that differs from all that were issued in more than the
spelling of its signature is never accepted. -/
theorem report_receipts_bound (p : Platform) (signer : AuthoritySigner)
    (signed : Set AuthorityDocument) (hsigner : signer.Unforgeable signed) :
    (∀ call receipt, issueReportReceipt p signer call = .ok receipt →
      ∃ issued expires, Dict.get? receipt "issued_at" = some (.int issued) ∧
        Dict.get? receipt "expires_at" = some (.int expires) ∧ ∀ now,
          (issued - 30 ≤ now → now < expires →
            verifyReportReceipt p signer.toAuthorityKey receipt now true = .ok receipt) ∧
          (expires ≤ now → verifyReportReceipt p signer.toAuthorityKey receipt now true =
            .error (.value "report receipt is expired or from the future"))) ∧
    ∀ presented : PresentedReceipt,
      (∀ call, .report call ∈ signed → ∀ receipt, issueReportReceipt p signer call = .ok receipt →
        ¬ SameReport presented.fields receipt) →
      ∀ now requireFresh, ∃ failure,
        verifyReportReceipt p signer.toAuthorityKey presented.fields now requireFresh =
          .error failure := by
  refine ⟨fun call receipt h => issued_receipt h, fun presented hother now requireFresh => ?_⟩
  cases hverify : verifyReportReceipt p signer.toAuthorityKey presented.fields now requireFresh with
  | error failure => exact ⟨failure, rfl⟩
  | ok value =>
      obtain ⟨call, hmem, receipt, hissued, hsame⟩ := accepted_was_issued hsigner hverify
      exact absurd hsame (hother call hmem receipt hissued)

end

/-- So many hexadecimal digits. -/
def someDigits (count : Nat) : String := String.ofList (List.replicate count 'a')

/-- A report of a stage, accepted at the epoch. -/
def stageReport : ReportIssue where
  taskId := "cap-task-" ++ someDigits 32
  agentUri := "cap://asg/agents/stage"
  bundleDigest := "sha256:" ++ someDigits 64
  capabilityBindingDigest := "sha256:" ++ someDigits 64
  outcomeDigest := "sha256:" ++ someDigits 64
  outcomeStatus := "OK"
  workflowId := "wf_" ++ someDigits 8
  repo := "capmesh"
  worktree := ""
  baseCommit := someDigits 40
  upstreamDelegationId := "cap-task-" ++ someDigits 32
  now := 0
  ttl := 1800
  reportBytes := List.replicate 16 7
  nonceBytes := List.replicate 24 7
  report_bytes_length := by decide
  nonce_bytes_length := by decide

/-- What the key has signed: the report, and a bundle. -/
def signedDocuments : List AuthorityDocument :=
  [.report stageReport,
    .bundle ⟨"cap-task-" ++ someDigits 32, "wf_" ++ someDigits 8, "sha256:" ++ someDigits 64,
      "sha256:" ++ someDigits 64, 0, someDigits 32⟩]

/-- A key that has signed those documents. -/
def stageSigner : AuthoritySigner where
  keyId := "ed25519:sha256:" ++ someDigits 64
  verify signature message := signature = List.replicate 64 0 && signedDocuments.any fun document =>
    match document.message ("ed25519:sha256:" ++ someDigits 64) with
    | .ok other => other = message
    | .error _ => false
  sign _ := List.replicate 64 0
  sign_length _ := by decide
  key_id_digest := by decide

theorem stage_signer_unforgeable : stageSigner.Unforgeable {document | document ∈ signedDocuments} := by
  intro signature message h
  simp only [stageSigner, Bool.and_eq_true, decide_eq_true_eq, List.any_eq_true] at h
  obtain ⟨hsignature, document, hmem, hmessage⟩ := h
  refine ⟨document, hmem, ?_, hsignature⟩
  show document.message ("ed25519:sha256:" ++ someDigits 64) = _
  split at hmessage
  · rename_i other hother
    rw [hother, of_decide_eq_true hmessage]
  · cases hmessage

theorem stage_unsigned : unsignedReport stageSigner.keyId stageReport =
    .ok (reportFields stageSigner.keyId stageReport "1970-01-01T00:00:00Z") := by
  have hclock : (Clock.fromTimestamp 0).map Clock.stamp = some "1970-01-01T00:00:00Z".toList := by
    decide +kernel
  obtain ⟨clock, hclock, hstamp⟩ := Option.map_eq_some_iff.mp hclock
  unfold unsignedReport
  have httl : (1 ≤ stageReport.ttl && stageReport.ttl ≤ 86400) = true := rfl
  rw [require_of _ httl, ok_then, show stageReport.now = 0 from rfl, hclock]
  dsimp only
  rw [hstamp, String.ofList_toList]

theorem stage_report_issued : ((issueReportReceipt .sample stageSigner stageReport).toOption.map
    fun receipt => (Dict.get? receipt "issued_at", Dict.get? receipt "expires_at")) =
      some (some (.int 0), some (.int 1800)) := by
  rw [issue_of_bound stage_unsigned (by decide +kernel), Except.toOption, Option.map_some,
    get?_issued_at, get?_expires_at]
  · rfl
  · simp only [stageSigner, Bool.and_eq_true, decide_eq_true_eq, List.any_eq_true, true_and]
    refine ⟨.report stageReport, List.mem_cons_self, ?_⟩
    rw [AuthorityDocument.message, show "ed25519:sha256:" ++ someDigits 64 = stageSigner.keyId from
      rfl, stage_unsigned]
    exact decide_eq_true rfl

/-- The report of the stage is accepted up to its last second, and what differs from it is not. -/
theorem report_receipts_bound_stage_report :
    stageSigner.Unforgeable {document | document ∈ signedDocuments} ∧
    (∃ receipt, issueReportReceipt .sample stageSigner stageReport = .ok receipt ∧
      verifyReportReceipt .sample stageSigner.toAuthorityKey receipt (-30) true = .ok receipt ∧
      verifyReportReceipt .sample stageSigner.toAuthorityKey receipt 1799 true = .ok receipt ∧
      verifyReportReceipt .sample stageSigner.toAuthorityKey receipt 1800 true =
        .error (.value "report receipt is expired or from the future")) ∧
    ∀ presented : PresentedReceipt,
      (∀ call, .report call ∈ signedDocuments → ∀ receipt,
        issueReportReceipt .sample stageSigner call = .ok receipt →
          ¬ SameReport presented.fields receipt) →
      ∀ now requireFresh, ∃ failure, verifyReportReceipt .sample stageSigner.toAuthorityKey
        presented.fields now requireFresh = .error failure := by
  obtain ⟨hissued, hforeign⟩ := report_receipts_bound .sample stageSigner
    {document | document ∈ signedDocuments} stage_signer_unforgeable
  refine ⟨stage_signer_unforgeable, ?_, hforeign⟩
  obtain ⟨receipt, hreceipt, htimes⟩ := Option.map_eq_some_iff.mp stage_report_issued
  have hok := to_option_eq_some hreceipt
  obtain ⟨issued, expires, hstart, hend, hnow⟩ := hissued stageReport receipt hok
  obtain ⟨hzero, hlast⟩ := Prod.mk.inj htimes
  cases hstart.symm.trans hzero
  cases hend.symm.trans hlast
  exact ⟨receipt, hok, (hnow (-30)).1 (by decide) (by decide), (hnow 1799).1 (by decide) (by decide),
    (hnow 1800).2 (by decide)⟩

end Capmesh
