import Capmesh.Router.SystemCalls

/-!
# Approved call bindings

`signed_allowlist.py` and the end of `cap.call`. An approval names a capability, the digest of its
binding, a key and a signature; `cap.call` asks only whether the binding is approved and not
revoked. No function of the module reads the signature, so what a call permits is signed only in a
run whose approvals all were.
-/

namespace Capmesh

open Python Relational Execution

/-- A row of `call_binding_allowlist`. -/
structure AllowlistRow where
  id : String
  tenantId : String
  capabilityUri : String
  bindingHash : String
  signingKeyId : String
  signature : String
  approvedBy : String
  approvedAt : String
  revokedAt : Option String
  deriving DecidableEq, Repr

/-- The columns of the uniqueness constraint. -/
def AllowlistRow.key (row : AllowlistRow) : String × String × String :=
  (row.tenantId, row.capabilityUri, row.bindingHash)

instance : Constrained AllowlistRow where
  Conflict a b := a.id = b.id ∨ a.key = b.key
  symm h := h.imp Eq.symm Eq.symm
  decidable _ _ := inferInstanceAs (Decidable (_ ∨ _))

/-- `compute_binding_hash`. -/
def computeBindingHash (p : Platform) (capabilityUri entrypoint contentHash : String) : String :=
  p.sha256Text (capabilityUri ++ "|" ++ entrypoint ++ "|" ++ contentHash)

/-- The digest of the binding a capability has now. -/
def Capability.bindingHash (p : Platform) (cap : Capability) : String :=
  computeBindingHash p cap.uri cap.entrypoint cap.contentHash

/-- The arguments of `approve_binding`, and what it draws. -/
structure BindingApproval where
  capabilityUri : String
  bindingHash : String
  signingKeyId : String
  signature : String
  approvedBy : String
  tenantId : String := "asg"
  id : String
  now : String

/-- The arguments of `revoke_binding`, and the clock. -/
structure BindingRevocation where
  capabilityUri : String
  bindingHash : String
  tenantId : String := "asg"
  now : String

/-- The row an approval inserts. -/
def BindingApproval.row (call : BindingApproval) : AllowlistRow where
  id := call.id
  tenantId := call.tenantId
  capabilityUri := call.capabilityUri
  bindingHash := call.bindingHash
  signingKeyId := call.signingKeyId
  signature := call.signature
  approvedBy := call.approvedBy
  approvedAt := call.now
  revokedAt := none

/-- `approve_binding`. An approval of a binding that has a row writes every column of it but the
identifier: the columns of the constraint are those of the conflict, and the revocation is
cleared. -/
def approveBinding (allowlist : Table AllowlistRow) (call : BindingApproval) :
    Except Failure (Table AllowlistRow) :=
  match allowlist.upsert? AllowlistRow.key call.row fun old => { call.row with id := old.id } with
  | some result => .ok result
  | none => .error (.integrity "UNIQUE constraint failed: call_binding_allowlist.id")

/-- What the update of `revoke_binding` does to a row. -/
def BindingRevocation.apply (call : BindingRevocation) (row : AllowlistRow) : AllowlistRow :=
  if row.capabilityUri = call.capabilityUri && row.bindingHash = call.bindingHash &&
      row.tenantId = call.tenantId then
    { row with revokedAt := some call.now }
  else row

/-- A revocation writes no column of a constraint. -/
theorem BindingRevocation.apply_keys (call : BindingRevocation) (row : AllowlistRow) :
    (call.apply row).id = row.id ∧ (call.apply row).key = row.key := by
  unfold BindingRevocation.apply
  split <;> exact ⟨rfl, rfl⟩

/-- `revoke_binding`. -/
def revokeBinding (allowlist : Table AllowlistRow) (call : BindingRevocation) :
    Table AllowlistRow :=
  allowlist.map call.apply fun a b h => by
    have hid : a.id = b.id ∨ a.key = b.key := by
      rw [← (call.apply_keys a).1, ← (call.apply_keys a).2, ← (call.apply_keys b).1,
        ← (call.apply_keys b).2]
      exact h
    exact hid

/-- `is_binding_approved`. -/
def isBindingApproved (allowlist : Table AllowlistRow)
    (capabilityUri bindingHash tenantId : String) : Bool :=
  match allowlist.find? fun row => row.capabilityUri = capabilityUri &&
      row.bindingHash = bindingHash && row.tenantId = tenantId with
  | some row => row.revokedAt.isNone
  | none => false

/-- The tenant `cap.call` asks the allowlist for. -/
def ToolRequest.bindingTenant (request : ToolRequest) : String :=
  orElse request.principal.tenantId "asg"

/-- A node whose answer of `is_binding_approved` is that of the table. -/
def MeshNode.withAllowlist (p : Platform) (node : MeshNode) (allowlist : Table AllowlistRow)
    (request : ToolRequest) : MeshNode :=
  { node with
    bindingApproved := fun cap =>
      isBindingApproved allowlist cap.uri (cap.bindingHash p) request.bindingTenant }

/-- A mesh with its allowlist. -/
structure BindingHost extends Host where
  allowlist : Table AllowlistRow

/-- One step: an approval, a revocation, a step of the mesh, or a `cap.call`. -/
inductive BindingStep (p : Platform) where
  | approve (call : BindingApproval)
  | revoke (call : BindingRevocation)
  | mesh (step : MeshStep p)
  | call (node : MeshNode) (request : ToolRequest)

/-- One step of the machine. A refused approval leaves the table as it is, and a call writes
neither table. -/
def bindingStep (p : Platform) (crypto : Crypto) (builtins : List Capability)
    (host : BindingHost) : BindingStep p → BindingHost
  | .approve call =>
      match approveBinding host.allowlist call with
      | .ok allowlist => { host with allowlist }
      | .error _ => host
  | .revoke call => { host with allowlist := revokeBinding host.allowlist call }
  | .mesh step => { host with toHost := meshStep p crypto builtins host.toHost step }
  | .call _ _ => host

/-- The answer of a call. -/
def BindingHost.answer (p : Platform) (host : BindingHost) (node : MeshNode)
    (request : ToolRequest) : CallOutcome :=
  capCall p (node.withAllowlist p host.allowlist request) host.db request

/-- Some trusted key accepts a signature over a digest. -/
def trustedSignature (crypto : Crypto) (trusted : List String) (bindingHash signature : String) :
    Bool :=
  trusted.any fun publicKey => crypto.verify publicKey bindingHash signature

/-- An approval that carries what the allowlist promises. -/
def BindingApproval.Signed (crypto : Crypto) (trusted : List String) (call : BindingApproval) :
    Prop :=
  trustedSignature crypto trusted call.bindingHash call.signature = true

/-- A step that approves nothing, or approves with a trusted signature. -/
def BindingStep.Signed {p : Platform} (crypto : Crypto) (trusted : List String) :
    BindingStep p → Prop
  | .approve approval => approval.Signed crypto trusted
  | _ => True

/-- A row of the allowlist for the binding a capability has now, not revoked and signed with a
trusted key. -/
structure AllowlistRow.Permits (p : Platform) (crypto : Crypto) (trusted : List String)
    (tenantId : String) (cap : Capability) (row : AllowlistRow) : Prop where
  tenantId : row.tenantId = tenantId
  capabilityUri : row.capabilityUri = cap.uri
  unrevoked : row.revokedAt = none
  bindingHash : row.bindingHash = cap.bindingHash p
  signed : trustedSignature crypto trusted row.bindingHash row.signature = true

/-- A call answers that execution is permitted only for a binding signed with a trusted key. -/
def PermitsSigned (p : Platform) (crypto : Crypto) (trusted : List String) (host : BindingHost) :
    BindingStep p → Prop
  | .call node request =>
      ∀ callable, host.answer p node request = .bindingAllowed callable →
        ∃ cap, request.resolveCapability host.db = some cap ∧
          ∃ row ∈ host.allowlist, row.Permits p crypto trusted request.bindingTenant cap
  | _ => True

/-- Every row carries a trusted signature over its digest. -/
def SignedRows (crypto : Crypto) (trusted : List String) (allowlist : Table AllowlistRow) : Prop :=
  ∀ row ∈ allowlist, trustedSignature crypto trusted row.bindingHash row.signature = true

section

variable {p : Platform} {crypto : Crypto} {trusted : List String} {builtins : List Capability}
variable {allowlist result : Table AllowlistRow} {host : BindingHost} {call : BindingApproval}

/-- What an approval writes: its own row, under the identifier of the row it takes over. -/
theorem approve_binding_written (h : approveBinding allowlist call = .ok result) :
    ∃ id, Table.Replaced AllowlistRow.key allowlist result { call.row with id } := by
  unfold approveBinding at h
  split at h
  · next written hupsert =>
    cases h
    obtain ⟨row, hreplaced, hrow⟩ :=
      Table.mem_upsert? (fun _ _ => Or.inr) hupsert fun _ => rfl
    obtain ⟨hnew, _⟩ | ⟨old, _, _, hrefreshed⟩ := hrow
    · rw [hnew] at hreplaced
      exact ⟨call.row.id, hreplaced⟩
    · rw [hrefreshed] at hreplaced
      exact ⟨old.id, hreplaced⟩
  · cases h

theorem approve_binding_signed (h : approveBinding allowlist call = .ok result)
    (hcall : call.Signed crypto trusted)
    (hrows : SignedRows crypto trusted allowlist) : SignedRows crypto trusted result := by
  obtain ⟨id, hreplaced⟩ := approve_binding_written h
  intro x hx
  obtain hwritten | ⟨hold, _⟩ := (hreplaced x).mp hx
  · rw [hwritten]
    exact hcall
  · exact hrows x hold

/-- A revocation changes no digest and no signature. -/
theorem revoke_binding_signed (call : BindingRevocation)
    (hrows : SignedRows crypto trusted allowlist) :
    SignedRows crypto trusted (revokeBinding allowlist call) := by
  intro x hx
  obtain ⟨old, hold, hx⟩ := (Table.mem_map _ x).mp hx
  have hsigned := hrows old hold
  subst hx
  unfold BindingRevocation.apply
  split <;> exact hsigned

theorem binding_step_approve (h : approveBinding host.allowlist call = .ok result) :
    bindingStep p crypto builtins host (.approve call) = { host with allowlist := result } := by
  simp only [bindingStep, h]

theorem binding_step_signed {step : BindingStep p} (hstep : step.Signed crypto trusted)
    (hrows : SignedRows crypto trusted host.allowlist) :
    SignedRows crypto trusted (bindingStep p crypto builtins host step).allowlist := by
  cases step with
  | approve call =>
    unfold bindingStep
    dsimp only
    split
    · next allowlist happrove => exact approve_binding_signed happrove hstep hrows
    · exact hrows
  | revoke call => exact revoke_binding_signed call hrows
  | mesh step => exact hrows
  | call node request => exact hrows

/-- What `is_binding_approved` found. -/
theorem binding_approved_row {capabilityUri bindingHash tenantId : String}
    (h : isBindingApproved allowlist capabilityUri bindingHash tenantId = true) :
    ∃ row ∈ allowlist, row.tenantId = tenantId ∧ row.capabilityUri = capabilityUri ∧
      row.revokedAt = none ∧ row.bindingHash = bindingHash := by
  unfold isBindingApproved at h
  split at h
  · next row hfound =>
    obtain ⟨hrow, hkey⟩ := Table.find?_some hfound
    simp only [Bool.and_eq_true, decide_eq_true_eq] at hkey
    exact ⟨row, hrow, hkey.2, hkey.1.1, Option.isNone_iff_eq_none.mp h, hkey.1.2⟩
  · cases h

theorem cap_call_allowed {node : MeshNode} {db : Database} {request : ToolRequest}
    {callable : Json} (h : capCall p node db request = .bindingAllowed callable) :
    ∃ cap, request.resolveCapability db = some cap ∧ node.bindingApproved cap = true := by
  unfold capCall at h
  split at h
  · cases h
  cases hresolved : request.resolveCapability db with
  | none => simp [hresolved] at h
  | some cap =>
    simp only [hresolved] at h
    refine ⟨cap, rfl, ?_⟩
    split at h
    · cases h
    split at h
    · cases h
    split at h
    · cases h
    unfold callCapability at h
    split at h
    · split at h <;> cases h
    · split at h
      · cases h
      · split at h
        · split at h <;> cases h
        · split at h
          · cases h
          · split at h
            · cases h
            · split at h
              · next happroved => exact happroved
              · cases h

theorem permits_signed_of_rows (hrows : SignedRows crypto trusted host.allowlist)
    (step : BindingStep p) : PermitsSigned p crypto trusted host step := by
  cases step with
  | approve | revoke | mesh => trivial
  | call node request =>
    intro callable hanswer
    obtain ⟨cap, hresolved, happroved⟩ := cap_call_allowed hanswer
    obtain ⟨row, hrow, htenant, huri, hunrevoked, hdigest⟩ := binding_approved_row happroved
    exact ⟨cap, hresolved, row, hrow, htenant, huri, hunrevoked, hdigest, hrows row hrow⟩

theorem cap_call_approved {node : MeshNode} {db : Database} {request : ToolRequest}
    {cap : Capability} {callable : Json} (hresolved : request.resolveCapability db = some cap)
    (hready : capCall p { node with bindingApproved := fun _ => true } db request =
      .bindingAllowed callable) (happroved : node.bindingApproved cap = true) :
    capCall p node db request = .bindingAllowed callable := by
  unfold capCall callCapability at hready ⊢
  simp only [hresolved, happroved] at hready ⊢
  exact hready

section

variable {call : BindingApproval} {node : MeshNode} {request : ToolRequest} {cap : Capability}
variable {callable : Json}

/-- An approval of the binding a call waits for is all the call needs, whatever the signature. -/
theorem approved_call_allowed (happrove : approveBinding host.allowlist call = .ok result)
    (hresolved : request.resolveCapability host.db = some cap)
    (hready : capCall p { node with bindingApproved := fun _ => true } host.db request =
      .bindingAllowed callable)
    (hbinding : call.row.key = (request.bindingTenant, cap.uri, cap.bindingHash p)) :
    { host with allowlist := result }.answer p node request = .bindingAllowed callable := by
  obtain ⟨id, hreplaced⟩ := approve_binding_written happrove
  have hwritten := (hreplaced _).mpr (.inl rfl)
  have htenant : call.tenantId = request.bindingTenant := congrArg (·.1) hbinding
  have huri : call.capabilityUri = cap.uri := congrArg (·.2.1) hbinding
  have hdigest : call.bindingHash = cap.bindingHash p := congrArg (·.2.2) hbinding
  refine cap_call_approved hresolved hready ?_
  show isBindingApproved result cap.uri (cap.bindingHash p) request.bindingTenant = true
  unfold isBindingApproved
  rw [Table.find?_eq_some hwritten]
  · rfl
  · simp [BindingApproval.row, htenant, huri, hdigest]
  · intro y _ hkey
    simp only [Bool.and_eq_true, decide_eq_true_eq] at hkey
    refine .inr ?_
    rw [show ({ call.row with id } : AllowlistRow).key = call.row.key from rfl, hbinding]
    simp [AllowlistRow.key, hkey]

/-- A call that only waits for its binding is answered as promised right after an approval of the
binding exactly when the approval carries a trusted signature. -/
theorem approved_call_signed_iff (happrove : approveBinding host.allowlist call = .ok result)
    (hresolved : request.resolveCapability host.db = some cap)
    (hready : capCall p { node with bindingApproved := fun _ => true } host.db request =
      .bindingAllowed callable)
    (hbinding : call.row.key = (request.bindingTenant, cap.uri, cap.bindingHash p)) :
    PermitsSigned p crypto trusted { host with allowlist := result } (.call node request) ↔
      call.Signed crypto trusted := by
  obtain ⟨id, hreplaced⟩ := approve_binding_written happrove
  refine ⟨?_, ?_⟩
  · intro hpermits
    obtain ⟨found, hfound, row, hrow, hholds⟩ :=
      hpermits callable (approved_call_allowed happrove hresolved hready hbinding)
    cases hresolved.symm.trans hfound
    have hkey : row.key = call.row.key := by
      rw [hbinding]
      exact Prod.ext hholds.tenantId (Prod.ext hholds.capabilityUri hholds.bindingHash)
    obtain hsame | ⟨_, hother⟩ := (hreplaced row).mp hrow
    · have hsigned := hholds.signed
      rw [hsame] at hsigned
      exact hsigned
    · exact absurd hkey hother
  · intro hsigned _ _
    exact ⟨cap, hresolved, _, (hreplaced _).mpr (.inl rfl), congrArg (·.1) hbinding,
      congrArg (·.2.1) hbinding, rfl, congrArg (·.2.2) hbinding, hsigned⟩

end

/-- **Signed bindings.** In every run of approvals, revocations, steps of the mesh and calls from
an empty allowlist, in which every approval carries a trusted signature over its digest, a call
permits execution only for a binding that has such a row. -/
theorem signed_bindings_permitted {start : BindingHost} {steps : List (BindingStep p)}
    (hstart : start.allowlist = .empty) (hsigned : ∀ step ∈ steps, step.Signed crypto trusted) :
    Along (bindingStep p crypto builtins) (PermitsSigned p crypto trusted) start steps := by
  rw [along_iff]
  intro first step second hsplit
  refine permits_signed_of_rows (?_ : SignedRows crypto trusted _) step
  have hfirst : Along (bindingStep p crypto builtins) (fun _ => BindingStep.Signed crypto trusted)
      start first := by
    rw [along_iff]
    intro before done after hbefore
    refine hsigned done ?_
    rw [hsplit, hbefore]
    simp
  refine run_invariant_along (I := fun host => SignedRows crypto trusted host.allowlist)
    (fun _ _ => binding_step_signed) hfirst ?_
  rw [hstart]
  exact fun row hrow => absurd hrow List.not_mem_nil

end

/-- The text of a `cap.json` with a call binding. -/
def boundText : String := "\x7b\"name\": \"tool\", \"callable\": \"run.sh\"\x7d"

/-- The digest of the file. -/
def boundDigest : String := "20bd7caab56c28d32845fb9a803294c7b2cf9abb80cdb294774b26d53b215244"

/-- The URI under which the catalog keeps the tool. -/
def boundUri : String :=
  "cap://user/asg/idn_8a771be063fbef53149d218b/private/personal/workflow/notes.tool@0.1.0"

/-- The digest of its binding. -/
def boundBinding : String := "dcd666c871220539a0ef561713e323b57607a517989e20f16ffed2b29389277b"

def boundDigests : List (String × String) :=
  [(boundText, boundDigest), (boundUri ++ "|cap.json|sha256:" ++ boundDigest, boundBinding)] ++
    sampleDigests

/-- A deployment that knows the digests of the file and of its binding. -/
def boundPlatform : Platform := .ascii fun content =>
  ((boundDigests.find? fun entry => entry.1.toUTF8.data.toList = content).map (·.2)).getD ""

/-- What discovery makes of the file. -/
def boundManifest : Capability :=
  { rolesManifest with
    uri := "cap://asg.local/workflow/notes.tool@0.1.0", name := "tool", title := "tool"
    canonicalKey := "workflow:notes:tool:0.1.0", contentHash := "sha256:" ++ boundDigest
    metadata := [("name", .str "tool"), ("callable", .str "run.sh")] }

/-- The ingest of the file. -/
def boundInput : DiscoveredInput boundPlatform where
  toIngestInput := .bare (.single boundManifest ⟨rfl, by decide, by decide⟩
    fun text => by simp [boundManifest, Dict.get?])
  asDiscovered other hother := by
    rw [List.mem_singleton.mp hother]
    exact ⟨rfl, by decide, rfl, rfl, rfl, rfl, rfl, rfl⟩

/-- An ingest of the tool, the scan of what it held, and the release. -/
def boundReleased : List (BindingStep boundPlatform) :=
  [.mesh (.call (.ingest boundInput)),
    .mesh (.call (.guard (.scan "qtn_0" "asg"
      { cleanScan with fileHash := some ("sha256:" ++ boundDigest) } "capmesh-malware" none true
      ⟨"2026-01-01T00:00:00Z", "att_1", ""⟩))),
    .mesh (.call (.guard (.release "qtn_0" { tenantId := "asg", actor := "op" }
      ⟨"2026-01-01T00:00:00Z", "att_2", ""⟩)))]

/-- An approval of the binding with the given signature. -/
def boundApproval (signature : String) : BindingApproval where
  capabilityUri := boundUri
  bindingHash := boundBinding
  signingKeyId := "key1"
  signature
  approvedBy := "admin"
  id := "alw_1"
  now := "2026-01-01T00:00:01Z"

/-- The owner calls the tool. -/
def boundRequest : ToolRequest where
  params := [("uri", .str boundUri), ("dryRun", .bool false)]
  principal := { subject := "capmesh", tenantId := "asg", scopes := ["cap:call"] }
  directory := ⟨[], [], [], [], []⟩
  orgCache _ _ := none
  now := "2026-01-01 00:00:02"

/-- A mesh without rows. -/
def emptyMesh : BindingHost := ⟨⟨.empty, ⟨true, .key "k", true⟩⟩, .empty⟩

/-- Whether a call permits the execution of a binding. -/
def CallOutcome.isAllowed : CallOutcome → Bool
  | .bindingAllowed _ => true
  | _ => false

/-- The mesh that holds the released tool. -/
def boundMesh : BindingHost :=
  run (bindingStep boundPlatform .transparent []) emptyMesh boundReleased

/-- An approval with the given signature after the release, and a call. -/
def boundSteps (signature : String) : List (BindingStep boundPlatform) :=
  boundReleased ++ [.approve (boundApproval signature), .call (bareNode true) boundRequest]

theorem bound_ready : ∃ cap callable, boundRequest.resolveCapability boundMesh.db = some cap ∧
    capCall boundPlatform { bareNode true with bindingApproved := fun _ => true } boundMesh.db
      boundRequest = .bindingAllowed callable ∧
    (boundApproval "").row.key =
      (boundRequest.bindingTenant, cap.uri, cap.bindingHash boundPlatform) := by
  have hrun : (boundRequest.resolveCapability boundMesh.db).map (fun cap =>
        (cap.uri, cap.bindingHash boundPlatform)) = some (boundUri, boundBinding) ∧
      (capCall boundPlatform { bareNode true with bindingApproved := fun _ => true }
        boundMesh.db boundRequest).isAllowed = true := by
    decide +kernel
  obtain ⟨cap, hresolved, hkeys⟩ := Option.map_eq_some_iff.mp hrun.1
  cases hanswer : capCall boundPlatform { bareNode true with bindingApproved := fun _ => true }
      boundMesh.db boundRequest with
  | bindingAllowed callable =>
    refine ⟨cap, callable, hresolved, rfl, ?_⟩
    rw [show cap.uri = boundUri from congrArg (·.1) hkeys,
      show cap.bindingHash boundPlatform = boundBinding from congrArg (·.2) hkeys]
    decide
  | _ =>
    rw [hanswer] at hrun
    cases hrun.2

theorem bound_approved (signature : String) :
    ∃ allowlist, approveBinding boundMesh.allowlist (boundApproval signature) = .ok allowlist :=
  ⟨_, rfl⟩

/-- A text that is no signature at all, and the call is permitted. -/
theorem signed_bindings_counterexample :
    ¬ ∀ (p : Platform) (crypto : Crypto) (trusted : List String) (builtins : List Capability)
      (start : BindingHost) (steps : List (BindingStep p)), start.allowlist = .empty →
      Along (bindingStep p crypto builtins) (PermitsSigned p crypto trusted) start steps := by
  intro hclaim
  have halong := hclaim boundPlatform .transparent ["public:k"] [] emptyMesh (boundSteps "sig1") rfl
  obtain ⟨_, _, hpermits, _⟩ := (along_append _ _ _).mp halong
  obtain ⟨cap, callable, hresolved, hready, hbinding⟩ := bound_ready
  obtain ⟨allowlist, happrove⟩ := bound_approved "sig1"
  change PermitsSigned _ _ _ (bindingStep boundPlatform .transparent [] boundMesh _) _ at hpermits
  rw [binding_step_approve happrove] at hpermits
  have hunsigned : ¬ trustedSignature .transparent ["public:k"] boundBinding "sig1" = true := by
    decide
  exact hunsigned ((approved_call_signed_iff happrove hresolved hready hbinding).mp hpermits)

/-- With a signature of the trusted key the call is permitted too, as it should. -/
theorem signed_bindings_bound :
    (∃ callable, (bindingStep boundPlatform .transparent [] boundMesh
      (.approve (boundApproval (Crypto.transparent.sign "k" boundBinding)))).answer boundPlatform
        (bareNode true) boundRequest = .bindingAllowed callable) ∧
    Along (bindingStep boundPlatform .transparent [])
      (PermitsSigned boundPlatform .transparent ["public:k"]) emptyMesh
      (boundSteps (Crypto.transparent.sign "k" boundBinding)) := by
  refine ⟨?_, signed_bindings_permitted rfl ?_⟩
  · obtain ⟨cap, callable, hresolved, hready, hbinding⟩ := bound_ready
    obtain ⟨allowlist, happrove⟩ := bound_approved (Crypto.transparent.sign "k" boundBinding)
    rw [binding_step_approve happrove]
    exact ⟨callable, approved_call_allowed happrove hresolved hready hbinding⟩
  · intro step hstep
    simp only [boundSteps, boundReleased, List.cons_append, List.nil_append, List.mem_cons,
      List.not_mem_nil, or_false] at hstep
    obtain h | h | h | h | h := hstep <;> subst h
    · trivial
    · trivial
    · trivial
    · show trustedSignature _ _ _ _ = true
      decide
    · trivial

end Capmesh
