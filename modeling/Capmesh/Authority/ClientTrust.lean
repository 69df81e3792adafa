import Capmesh.Authority.TrustFiles
import Capmesh.Model.Platform
import Mathlib.Data.List.Nodup

/-!
# The trust of a client

`install_client_trust` pins the public key of the authority in a protected directory of the client:
the public key first, then the pin that names it. A pin that is there changes only with a rotation
ceremony that the operator has signed. Calls come one after another, and each may be cut off between
two of its file operations; `client_trust_by_ceremony` holds over every such history.
-/

namespace Capmesh

open Python Execution

/-- The files of a client. -/
inductive ClientFile where
  | publicKey
  | pin
  deriving DecidableEq, Repr

/-- The absolute path of each file and its parent. -/
structure ClientPaths where
  path : ClientFile → String
  parent : ClientFile → String

/-- A file outside the directory of the client: its path, and what is there when the call reads. -/
structure GivenFile where
  path : String
  file : Option TrustFile

/-- One call: who makes it, the files that it is given, the time, and the random part of each
temporary name. -/
structure InstallCall where
  euid : Nat
  umask : Nat
  sourcePublic : GivenFile
  sourceRecord : GivenFile
  expectedKeyId : String
  rotationCeremony : Option GivenFile
  operatorPublicKey : Option GivenFile
  /-- `int(time.time())`. -/
  now : Int
  token : ClientFile → String

/-- The process that makes the call. -/
def InstallCall.caller (paths : ClientPaths) (call : InstallCall) : Caller ClientFile :=
  ⟨call.euid, call.umask, paths.path⟩

variable (lib : TrustLibrary)

/-- `_read_regular` on a file outside the directory. -/
def InstallCall.readSource (paths : ClientPaths) (call : InstallCall) (source : GivenFile)
    (exactMode : Nat) : Except TrustError (List UInt8) := do
  checkRegular (call.caller paths) source.path exactMode source.file
  readBytes source.file

/-- Whether a JSON value equals a record. A record holds texts alone, so no number is compared. -/
def sameRecord (value : Json) (record : TrustRecord) : Bool :=
  Json.equals (fun _ => none) value (.obj record.fields)

/-- The fields of a ceremony document. -/
def ceremonyFields : List String :=
  ["schema", "old_key_id", "new_key_id", "issued_at", "expires_at", "nonce", "approved_by",
    "signature"]

/-- Whether a value can be compared with an integer. -/
def comparable : Json → Bool
  | .int _ | .bool _ | .float _ => true
  | _ => false

/-- The value of an `int`; `True` and `False` are two of them. -/
def wholeNumber : Json → Option Int
  | .int value => some value
  | .bool value => some (if value then 1 else 0)
  | _ => none

/-- Whether the times of a ceremony are whole, begun and not over, and at most 900 seconds apart. -/
def timesCurrent (now : Int) (issued expires : Json) : Bool :=
  match wholeNumber issued, wholeNumber expires with
  | some issued, some expires => issued ≤ now + 30 && now < expires && expires - issued ≤ 900
  | _, _ => false

/-- The check of `_verify_rotation` that a ceremony is current and binds the two keys. A time that
is not a number raises in the comparison. -/
def checkBinding (now : Int) (oldKeyId newKeyId : String) (ceremony : Dict) :
    Except TrustError Unit :=
  match ceremony.get? "issued_at", ceremony.get? "expires_at" with
  | some issued, some expires =>
      if !(comparable issued && comparable expires) then .error (.type "unorderable types")
      else if ceremony.get? "schema" = some (.str "capmesh.authority-rotation.v1") &&
          ceremony.get? "old_key_id" = some (.str oldKeyId) &&
          ceremony.get? "new_key_id" = some (.str newKeyId) &&
          ceremony.get? "approved_by" = some (.str "operator") && timesCurrent now issued expires then
        .ok ()
      else .error (.trust "rotation ceremony is not current or correctly bound")
  | _, _ => .error (.type "unorderable types")

/-- `ROTATION_DOMAIN`, and the document without its signature. -/
def rotationMessage (ceremony : Dict) : List UInt8 :=
  ("ASGCODE:capmesh-authority-rotation.v1\x00" ++
    (Json.obj (ceremony.filter fun field => field.1 ≠ "signature")).canonicalText).toUTF8.data.toList

/-- Whether the operator has signed a ceremony; whatever goes wrong here is an invalid signature. -/
def operatorSigned (operator : List UInt8) (ceremony : Dict) : Bool :=
  match ceremony.get? "signature" with
  | some (.str text) => match lib.urlsafeB64decode text with
    | some signature => lib.verify operator signature (rotationMessage ceremony)
    | none => false
  | _ => false

/-- What `_verify_rotation` reads in a ceremony document. -/
def readCeremony (data : List UInt8) : Except TrustError Dict := do
  match ← lib.loads data with
  | .obj ceremony =>
      if ceremony.all (fun field => ceremonyFields.contains field.1) && ceremonyFields.all (Dict.has ceremony)
      then .ok ceremony
      else .error (.trust "rotation ceremony document is malformed")
  | _ => .error (.trust "rotation ceremony document is malformed")

/-- `_verify_rotation`. -/
def verifyRotation (paths : ClientPaths) (call : InstallCall)
    (ceremonyFile operatorFile : GivenFile) (oldKeyId newKeyId : String) :
    Except TrustError Unit := do
  let ceremony ← readCeremony lib (← call.readSource paths ceremonyFile 0o600)
  checkBinding call.now oldKeyId newKeyId ceremony
  let operator ← publicFromPem lib (← call.readSource paths operatorFile 0o644)
  if operatorSigned lib operator ceremony then .ok ()
  else .error (.trust "rotation ceremony signature is invalid")

/-- The check of a pin that is there against the record of the new key. -/
def authorizeRotation (paths : ClientPaths) (call : InstallCall) (existing : Option Json)
    (actual : TrustRecord) : Except TrustError Unit :=
  match existing with
  | none => .ok ()
  | some value =>
      if sameRecord value actual then .ok ()
      else match call.rotationCeremony, call.operatorPublicKey with
        | some ceremony, some operator =>
            match value with
            | .obj fields => verifyRotation lib paths call ceremony operator
                (Json.textOrEmpty lib.repr (Dict.get? fields "key_id")) actual.keyId
            | _ => .error (.type "object has no attribute 'get'")
        | _, _ => .error (.trust "authority key rotation requires an operator-signed ceremony")

/-- `json.loads` of the pin if it is there; a pin that holds `null` counts as none. -/
def readPin (caller : Caller ClientFile) : TrustProcess ClientFile (Option Json) := do
  if ← lexists .pin then
    let value ← .lift (lib.loads (← readRegular caller .pin 0o644))
    pure (if value = .null then none else some value)
  else
    pure none

/-- The check of a public key that is there: under an unchanged pin its bytes are the ones given. -/
def checkStored (caller : Caller ClientFile) (existing : Option Json) (actual : TrustRecord)
    (publicPem : List UInt8) : TrustProcess ClientFile Unit := do
  if ← lexists .publicKey then
    let current ← readRegular caller .publicKey 0o644
    if existing.any (sameRecord · actual) && current ≠ publicPem then
      .raise (.trust "pinned client public key bytes do not match its trust record")

/-- The bundle that a call is given: the PEM text of the key and its record, if the two belong
together and to the expected fingerprint. -/
def readBundle (paths : ClientPaths) (call : InstallCall) :
    Except TrustError (List UInt8 × TrustRecord) := do
  let publicPem ← call.readSource paths call.sourcePublic 0o644
  let source ← lib.loads (← call.readSource paths call.sourceRecord 0o644)
  let actual ← trustRecord lib publicPem
  if sameRecord source actual && call.expectedKeyId = actual.keyId then .ok (publicPem, actual)
  else .error (.trust "authority public key does not match the expected pinned fingerprint")

/-- `install_client_trust`, once its bundle has been read. -/
def installBundle (paths : ClientPaths) (call : InstallCall) (publicPem : List UInt8)
    (actual : TrustRecord) : TrustProcess ClientFile TrustRecord := do
  assertParent (call.caller paths)
  .lift (if paths.parent .pin ≠ paths.parent .publicKey then
    .error (.trust "client public key and pin must share one protected directory") else .ok ())
  let existing ← readPin lib (call.caller paths)
  .lift (authorizeRotation lib paths call existing actual)
  checkStored (call.caller paths) existing actual publicPem
  atomicWrite (call.caller paths) (call.token .publicKey) .publicKey publicPem 0o644
  atomicWrite (call.caller paths) (call.token .pin) .pin actual.encoded 0o644
  pure actual

/-- `install_client_trust`. -/
def installClientTrust (paths : ClientPaths) (call : InstallCall) :
    TrustProcess ClientFile TrustRecord := do
  let (publicPem, actual) ← .lift (readBundle lib paths call)
  installBundle lib paths call publicPem actual

/-! ### What a rotation takes -/

/-- The operator has approved, in the documents of a call, that one key replaces another: the
ceremony binds the two, its times are current, and the operator key has signed it. -/
structure RotationApproved (paths : ClientPaths) (call : InstallCall) (oldKeyId newKeyId : String)
    (ceremony : Dict) (operator : List UInt8) : Prop where
  document : ∃ file data, call.rotationCeremony = some file ∧
    call.readSource paths file 0o600 = .ok data ∧ lib.loads data = .ok (.obj ceremony)
  schema : ceremony.get? "schema" = some (.str "capmesh.authority-rotation.v1")
  oldKey : ceremony.get? "old_key_id" = some (.str oldKeyId)
  newKey : ceremony.get? "new_key_id" = some (.str newKeyId)
  approver : ceremony.get? "approved_by" = some (.str "operator")
  issued : ∃ value issued, ceremony.get? "issued_at" = some value ∧
    wholeNumber value = some issued ∧ issued ≤ call.now + 30
  expires : ∃ value expires, ceremony.get? "expires_at" = some value ∧
    wholeNumber value = some expires ∧ call.now < expires
  operatorKey : ∃ file data, call.operatorPublicKey = some file ∧
    call.readSource paths file 0o644 = .ok data ∧ lib.loadPublicPem data = some (.ed25519 operator)
  signed : ∃ text signature, ceremony.get? "signature" = some (.str text) ∧
    lib.urlsafeB64decode text = some signature ∧
    lib.verify operator signature (rotationMessage ceremony) = true

variable {lib} {paths : ClientPaths} {call : InstallCall} {state start : TrustDirectory ClientFile}
variable {actual : TrustRecord} {publicPem : List UInt8}

theorem times_current_whole {now : Int} {issued expires : Json}
    (h : timesCurrent now issued expires = true) :
    ∃ m n, wholeNumber issued = some m ∧ wholeNumber expires = some n ∧ m ≤ now + 30 ∧ now < n := by
  unfold timesCurrent at h
  split at h
  · rename_i m n hissued hexpires
    simp only [Bool.and_eq_true, decide_eq_true_eq] at h
    exact ⟨m, n, hissued, hexpires, h.1.1, h.1.2⟩
  · cases h

theorem public_from_pem_ok {data key : List UInt8} (h : publicFromPem lib data = .ok key) :
    lib.loadPublicPem data = some (.ed25519 key) := by
  unfold publicFromPem at h
  split at h
  · cases h
  · cases h
  · rename_i loaded hload
    cases h
    exact hload

theorem read_ceremony_ok {data : List UInt8} {ceremony : Dict}
    (h : readCeremony lib data = .ok ceremony) : lib.loads data = .ok (.obj ceremony) := by
  unfold readCeremony at h
  obtain ⟨value, hloads, h⟩ := bind_eq_ok h
  rw [hloads]
  split at h
  · split at h
    · cases h
      rfl
    · cases h
  · cases h

theorem operator_signed_eq {operator : List UInt8} {ceremony : Dict}
    (h : operatorSigned lib operator ceremony = true) :
    ∃ text signature, ceremony.get? "signature" = some (.str text) ∧
      lib.urlsafeB64decode text = some signature ∧
      lib.verify operator signature (rotationMessage ceremony) = true := by
  unfold operatorSigned at h
  split at h
  · rename_i text htext
    split at h
    · rename_i signature hdecode
      exact ⟨text, signature, htext, hdecode, h⟩
    · cases h
  · cases h

/-- `_verify_rotation` passes only an approved rotation. -/
theorem verify_rotation_ok {ceremonyFile operatorFile : GivenFile} {oldKeyId newKeyId : String}
    (hceremony : call.rotationCeremony = some ceremonyFile)
    (hoperator : call.operatorPublicKey = some operatorFile)
    (h : verifyRotation lib paths call ceremonyFile operatorFile oldKeyId newKeyId = .ok ()) :
    ∃ ceremony operator, RotationApproved lib paths call oldKeyId newKeyId ceremony operator := by
  unfold verifyRotation at h
  obtain ⟨data, hdata, h⟩ := bind_eq_ok h
  obtain ⟨ceremony, hread, h⟩ := bind_eq_ok h
  obtain ⟨_, hbinding, h⟩ := bind_eq_ok h
  obtain ⟨operatorPem, hpem, h⟩ := bind_eq_ok h
  obtain ⟨operator, hload, h⟩ := bind_eq_ok h
  have hsigned : operatorSigned lib operator ceremony = true := by
    by_contra hne
    simp [hne] at h
  unfold checkBinding at hbinding
  split at hbinding
  · rename_i issued expires hissued hexpires
    split at hbinding
    · cases hbinding
    · split at hbinding
      · rename_i hbound
        simp only [Bool.and_eq_true, decide_eq_true_eq] at hbound
        obtain ⟨⟨⟨⟨hschema, hold⟩, hnew⟩, happroved⟩, htimes⟩ := hbound
        obtain ⟨m, n, hm, hn, hstart, hend⟩ := times_current_whole htimes
        exact ⟨ceremony, operator, ⟨ceremonyFile, data, hceremony, hdata, read_ceremony_ok hread⟩,
          hschema, hold, hnew, happroved, ⟨issued, m, hissued, hm, hstart⟩,
          ⟨expires, n, hexpires, hn, hend⟩,
          ⟨operatorFile, operatorPem, hoperator, hpem, public_from_pem_ok hload⟩,
          operator_signed_eq hsigned⟩
      · cases hbinding
  · cases hbinding

/-- The pin of a client is for a key: it is a JSON object whose `key_id` is the one of the key. -/
def PinFor (lib : TrustLibrary) (state : TrustDirectory ClientFile) (keyId : String) : Prop :=
  ∃ file fields, state.files .pin = some file ∧ lib.loads file.data = .ok (.obj fields) ∧
    Dict.get? fields "key_id" = some (.str keyId)

theorem PinFor.unique {keyId other : String} (h : PinFor lib state keyId)
    (hother : PinFor lib state other) : other = keyId := by
  obtain ⟨file, fields, hfile, hloads, hkey⟩ := h
  obtain ⟨file', fields', hfile', hloads', hkey'⟩ := hother
  rw [hfile] at hfile'
  cases hfile'
  rw [hloads] at hloads'
  cases hloads'
  rw [hkey] at hkey'
  cases hkey'
  rfl

/-- What a call may have made of the pin: nothing, or the record of its bundle, if a rotation from
every other key that the pin was for has been approved. -/
def PinStep (lib : TrustLibrary) (paths : ClientPaths) (call : InstallCall)
    (start a b : TrustDirectory ClientFile) : Prop :=
  b.files .pin = a.files .pin ∨ ∃ publicPem actual file, readBundle lib paths call =
    .ok (publicPem, actual) ∧ b.files .pin = some file ∧ file.data = actual.encoded ∧
    ∀ keyId, PinFor lib start keyId → keyId = actual.keyId ∨ ∃ ceremony operator,
      RotationApproved lib paths call keyId actual.keyId ceremony operator

theorem PinStep.refl (start a : TrustDirectory ClientFile) : PinStep lib paths call start a a :=
  .inl rfl

theorem PinStep.trans {a b c : TrustDirectory ClientFile} (h : PinStep lib paths call start a b)
    (hnext : PinStep lib paths call start b c) : PinStep lib paths call start a c := by
  cases hnext with
  | inl hsame =>
      cases h with
      | inl hfirst => exact .inl (hsame.trans hfirst)
      | inr hfirst =>
          obtain ⟨publicPem, actual, file, hbundle, hfile, hrest⟩ := hfirst
          exact .inr ⟨publicPem, actual, file, hbundle, hsame.trans hfile, hrest⟩
  | inr hlast => exact .inr hlast

theorem pin_step_same {a b : TrustDirectory ClientFile} (h : b.files .pin = a.files .pin) :
    PinStep lib paths call start a b := .inl h

/-- One call at a time: nobody else touches the directory. -/
theorem quiet_install (start : TrustDirectory ClientFile) :
    Quiet (· = ·) (PinStep lib paths call start)
      (fun state => checkParent (call.caller paths) state.parent = .ok ()) where
  stays _ := rfl
  same h hrely := by
    cases hrely
    exact ⟨h, _, rfl⟩
  drafts _ h := ⟨pin_step_same rfl, h⟩

/-- `_assert_parent` leaves the files as they are. -/
theorem assert_parent_keeps (start state : TrustDirectory ClientFile) :
    (assertParent (call.caller paths)).Meets (· = ·) (PinStep lib paths call start)
      (fun result last => last.files = state.files ∧
        (result = .ok () → checkParent (call.caller paths) last.parent = .ok ())) state := by
  intro a ha _
  cases ha
  refine ⟨pin_step_same rfl, ?_⟩
  cases hmade : checkMade state.parent with
  | error failure =>
      simp only [hmade, Process.failed_bind]
      intro last hlast
      cases hlast
      exact ⟨rfl, fun h => nomatch h⟩
  | ok value =>
      simp only [hmade, Process.done_bind]
      intro b hb _
      cases hb
      refine ⟨pin_step_same rfl, ?_⟩
      simp only [id]
      cases hcheck : checkParent (call.caller paths) (madeParent (call.caller paths) state.parent) with
      | ok value =>
          intro last hlast
          cases hlast
          exact ⟨rfl, fun _ => hcheck⟩
      | error failure =>
          intro last hlast
          cases hlast
          exact ⟨rfl, fun h => nomatch h⟩

/-- The pin as a JSON value, if it can be read. -/
def pinValue (lib : TrustLibrary) (caller : Caller ClientFile) (state : TrustDirectory ClientFile) :
    Except TrustError (Option Json) :=
  match state.files .pin with
  | none => .ok none
  | some file => do
      checkRegular caller (caller.path .pin) 0o644 (some file)
      let value ← lib.loads file.data
      pure (if value = .null then none else some value)

theorem read_pin_meets (h : checkParent (call.caller paths) state.parent = .ok ()) :
    (readPin lib (call.caller paths)).Meets (· = ·) (PinStep lib paths call start)
      (fun result last => result = pinValue lib (call.caller paths) state ∧
        checkParent (call.caller paths) last.parent = .ok () ∧ last.files = state.files) state := by
  refine (quiet_install start).read h fun lockFile hlater => ?_
  simp only [Process.done_bind]
  cases hpin : state.files .pin with
  | none =>
      simp only [Option.isSome_none, Bool.false_eq_true, if_false, pinValue, hpin]
      intro last hlast
      cases hlast
      exact ⟨rfl, h, rfl⟩
  | some file =>
      simp only [Option.isSome_some, if_true, pinValue, hpin]
      refine ((quiet_install start).read_regular .pin 0o644 hlater).bind (fun data last hlast => ?_) ?_
      · obtain ⟨hread, hheld, other, rfl⟩ := hlast last rfl
        simp only [hpin] at hread
        obtain ⟨_, hcheck, hdata⟩ := bind_eq_ok hread.symm
        cases hdata
        rw [hcheck]
        cases hloads : lib.loads file.data with
        | ok value =>
            intro ended hended
            cases hended
            exact ⟨rfl, h, rfl⟩
        | error failure =>
            intro ended hended
            cases hended
            exact ⟨rfl, h, rfl⟩
      · intro failure last hlast
        obtain ⟨hread, hheld, other, rfl⟩ := hlast
        simp only [hpin] at hread
        cases hcheck : checkRegular (call.caller paths) ((call.caller paths).path .pin) 0o644
            (some file) with
        | ok value =>
            rw [hcheck] at hread
            cases hread
        | error other =>
            rw [hcheck] at hread
            cases hread
            exact ⟨rfl, h, rfl⟩

/-- The check of the public key that is there changes nothing. -/
theorem check_stored_meets {existing : Option Json}
    (h : checkParent (call.caller paths) state.parent = .ok ()) :
    (checkStored (call.caller paths) existing actual publicPem).Meets (· = ·)
      (PinStep lib paths call start)
      (fun _ last => checkParent (call.caller paths) last.parent = .ok () ∧
        last.files = state.files) state := by
  refine (quiet_install start).read h fun lockFile hlater => ?_
  simp only [Process.done_bind]
  split
  · refine ((quiet_install start).read_regular .publicKey 0o644 hlater).bind
      (fun data last hlast => ?_) ?_
    · obtain ⟨-, hheld, other, rfl⟩ := hlast last rfl
      split
      · intro ended hended
        cases hended
        exact ⟨h, rfl⟩
      · intro ended hended
        cases hended
        exact ⟨h, rfl⟩
    · intro failure last hlast
      obtain ⟨-, hheld, other, rfl⟩ := hlast
      exact ⟨h, rfl⟩
  · intro ended hended
    cases hended
    exact ⟨h, rfl⟩

theorem key_of_same_record {fields : Dict} {record : TrustRecord} {keyId : String}
    (h : sameRecord (.obj fields) record = true) (hkey : fields.get? "key_id" = some (.str keyId)) :
    keyId = record.keyId := by
  have hmem : ("key_id", Json.str keyId) ∈ fields := by
    unfold Dict.get? at hkey
    split at hkey
    · cases hkey
    · rename_i name value hne hfind
      cases hkey
      have hname : name = "key_id" := by simpa using List.find?_some hfind
      rw [← hname]
      exact List.mem_of_find?_eq_some hfind
    · cases hkey
  have hall : (decide (fields.length = record.fields.length) &&
      Json.equalFields (fun _ => none) fields record.fields) = true := h
  rw [Json.equal_fields_eq_all, Bool.and_eq_true, List.all_eq_true] at hall
  have hfield := hall.2 _ hmem
  have hfind : (record.fields.find? fun other => other.1 = "key_id") =
      some ("key_id", .str record.keyId) := by simp [TrustRecord.fields]
  have hequal : Json.equals (fun _ => none) (.str keyId) (.str record.keyId) = true := by
    simpa only [hfind, Option.any_some, Json.isNan, Bool.false_and, Bool.false_or] using hfield
  rw [Json.equals_str] at hequal
  exact Json.str.inj hequal

theorem authorize_rotation_ok {existing : Option Json}
    (hpin : pinValue lib (call.caller paths) state = .ok existing)
    (h : authorizeRotation lib paths call existing actual = .ok ()) {keyId : String}
    (hkey : PinFor lib state keyId) : keyId = actual.keyId ∨ ∃ ceremony operator,
      RotationApproved lib paths call keyId actual.keyId ceremony operator := by
  obtain ⟨file, fields, hfile, hloads, hname⟩ := hkey
  have hexisting : existing = some (.obj fields) := by
    simp only [pinValue, hfile] at hpin
    obtain ⟨_, -, hpin⟩ := bind_eq_ok hpin
    obtain ⟨value, hvalue, hpin⟩ := bind_eq_ok hpin
    rw [hloads] at hvalue
    cases hvalue
    cases hpin
    rfl
  subst hexisting
  have htext : Json.textOrEmpty lib.repr (Dict.get? fields "key_id") = keyId := by
    rw [hname]
    by_cases hempty : keyId = "" <;> simp [Json.textOrEmpty, Json.truthy, Json.strText, hempty]
  simp only [authorizeRotation] at h
  split at h
  · rename_i hsame
    exact .inl (key_of_same_record hsame hname)
  · split at h
    · rename_i ceremonyFile operatorFile hceremony hoperator
      simp only [htext] at h
      exact .inr (verify_rotation_ok hceremony hoperator h)
    · cases h

/-- What a call that completes leaves: the public key of its bundle and the pin of that key. -/
def Installed (call : InstallCall) (publicPem : List UInt8) (actual : TrustRecord)
    (result : Except TrustError TrustRecord) (state : TrustDirectory ClientFile) : Prop :=
  ∀ record, result = .ok record → record = actual ∧
    state.files .publicKey = some ⟨⟨.regular, call.euid, 0o644⟩, publicPem⟩ ∧
    state.files .pin = some ⟨⟨.regular, call.euid, 0o644⟩, actual.encoded⟩

theorem installed_error (failure : TrustError) (state : TrustDirectory ClientFile) :
    Installed call publicPem actual (.error failure) state := fun _ h => nomatch h

/-- The two writes, once every check has passed. -/
theorem writes_meet (hbundle : readBundle lib paths call = .ok (publicPem, actual))
    (howned : checkParent (call.caller paths) state.parent = .ok ())
    (happroved : ∀ keyId, PinFor lib start keyId → keyId = actual.keyId ∨ ∃ ceremony operator,
      RotationApproved lib paths call keyId actual.keyId ceremony operator) :
    (do
      atomicWrite (call.caller paths) (call.token .publicKey) .publicKey publicPem 0o644
      atomicWrite (call.caller paths) (call.token .pin) .pin actual.encoded 0o644
      pure actual : TrustProcess ClientFile TrustRecord).Meets (· = ·)
      (PinStep lib paths call start) (Installed call publicPem actual) state := by
  refine ((quiet_install start).atomic_write howned howned ?_).bind (fun _ a ha => ?_)
    fun failure last _ => installed_error failure last
  · exact fun b hb _ _ temps => ⟨pin_step_same rfl, hb⟩
  obtain ⟨hheld, -, hfiles⟩ := ha a rfl
  refine ((quiet_install start).atomic_write hheld hheld ?_).bind (fun _ b hb => ?_)
    fun failure last _ => installed_error failure last
  · refine fun b hb _ _ temps => ⟨.inr ⟨publicPem, actual,
      ⟨⟨.regular, call.euid, 0o644⟩, actual.encoded⟩, hbundle, rfl, rfl, happroved⟩, hb⟩
  obtain ⟨-, -, hlast⟩ := hb b rfl
  intro last hended record hrecord
  cases hended
  cases hrecord
  refine ⟨rfl, ?_, ?_⟩
  · rw [hlast, hfiles]
    rfl
  · rw [hlast]
    rfl

theorem install_bundle_meets (start : TrustDirectory ClientFile)
    (hbundle : readBundle lib paths call = .ok (publicPem, actual)) :
    (installBundle lib paths call publicPem actual).Meets (· = ·) (PinStep lib paths call start)
      (Installed call publicPem actual) start := by
  refine (assert_parent_keeps start start).bind (fun _ a ha => ?_)
    fun failure last _ => installed_error failure last
  obtain ⟨hfiles, howned⟩ := ha a rfl
  have howned := howned rfl
  split
  · exact fun last _ => installed_error _ last
  refine (read_pin_meets howned).bind (fun existing b hb => ?_)
    fun failure last _ => installed_error failure last
  obtain ⟨hexisting, hownedB, hfilesB⟩ := hb b rfl
  have hpin : pinValue lib (call.caller paths) start = .ok existing := by
    rw [hexisting]
    simp only [pinValue, hfiles]
  cases hauthorized : authorizeRotation lib paths call existing actual with
  | error failure => exact fun last _ => installed_error _ last
  | ok value =>
      refine (check_stored_meets hownedB).bind (fun _ c hc => ?_)
        fun failure last _ => installed_error failure last
      obtain ⟨hownedC, -⟩ := hc c rfl
      exact writes_meet hbundle hownedC fun keyId hkey => authorize_rotation_ok hpin hauthorized hkey

/-- The judgement of a call: the pin is left, or written for its bundle with the approval that takes;
a call that completes leaves the key and the pin of its bundle. -/
theorem install_client_trust_meets (lib : TrustLibrary) (paths : ClientPaths) (call : InstallCall)
    (start : TrustDirectory ClientFile) :
    (installClientTrust lib paths call).Meets (· = ·) (PinStep lib paths call start)
      (fun result last => ∀ record, result = .ok record → ∃ publicPem actual,
        readBundle lib paths call = .ok (publicPem, actual) ∧
          Installed call publicPem actual result last) start := by
  unfold installClientTrust
  cases hbundle : readBundle lib paths call with
  | error failure => exact fun last _ record h => nomatch h
  | ok bundle =>
      obtain ⟨publicPem, actual⟩ := bundle
      exact (install_bundle_meets start hbundle).mono fun result last h record hrecord =>
        ⟨publicPem, actual, rfl, h⟩

/-! ### Every history -/

/-- One entry of a history: a call that runs to its end, or that is cut off after some of its
operations. -/
structure Install where
  call : InstallCall
  cut : Option Nat

/-- The directory after an entry. -/
def installStep (lib : TrustLibrary) (paths : ClientPaths) (state : TrustDirectory ClientFile)
    (entry : Install) : TrustDirectory ClientFile :=
  match entry.cut with
  | none => ((installClientTrust lib paths entry.call).run state).1
  | some fuel => (installClientTrust lib paths entry.call).crash fuel state

theorem install_step_pin (state : TrustDirectory ClientFile) (entry : Install) :
    PinStep lib paths entry.call state state (installStep lib paths state entry) := by
  have hmeets := install_client_trust_meets lib paths entry.call state
  unfold installStep
  split
  · exact (hmeets.run_related (PinStep.refl state) PinStep.trans id).1
  · exact hmeets.crash_related (PinStep.refl state) PinStep.trans id _

theorem read_bundle_ok (h : readBundle lib paths call = .ok (publicPem, actual)) :
    ∃ key, lib.loadPublicPem publicPem = some (.ed25519 key) ∧
      actual = .of lib.toRuntime key publicPem := by
  unfold readBundle at h
  obtain ⟨pem, -, h⟩ := bind_eq_ok h
  obtain ⟨data, -, h⟩ := bind_eq_ok h
  obtain ⟨source, -, h⟩ := bind_eq_ok h
  obtain ⟨record, hrecord, h⟩ := bind_eq_ok h
  obtain ⟨key, hkey, hof⟩ := bind_eq_ok hrecord
  split at h
  · cases h
    cases hof
    exact ⟨key, public_from_pem_ok hkey, rfl⟩
  · cases h

theorem pin_for_record {key : List UInt8} {file : TrustFile}
    (hkey : lib.loadPublicPem publicPem = some (.ed25519 key))
    (hfile : state.files .pin = some file)
    (hdata : file.data = (TrustRecord.of lib.toRuntime key publicPem).encoded) :
    PinFor lib state (TrustRecord.of lib.toRuntime key publicPem).keyId := by
  refine ⟨file, _, hfile, by rw [hdata, lib.loads_record publicPem key hkey]; rfl, ?_⟩
  rw [Dict.get?_canonical_fields]
  rfl

theorem pin_for_bundle {file : TrustFile}
    (hbundle : readBundle lib paths call = .ok (publicPem, actual))
    (hfile : state.files .pin = some file) (hdata : file.data = actual.encoded) :
    PinFor lib state actual.keyId := by
  obtain ⟨key, hkey, rfl⟩ := read_bundle_ok hbundle
  exact pin_for_record hkey hfile hdata

/-- From any directory, after any history of calls, completed or cut off: if the pin is for a key,
the next call leaves it for a key, and for another one only if it was given a ceremony for the two,
signed by the operator key and current; and if the call completes, the public key that is stored is
the one that the pin names. -/
theorem client_trust_by_ceremony (lib : TrustLibrary) (paths : ClientPaths)
    (directory : TrustDirectory ClientFile) (history : List Install) (entry : Install) :
    (∀ keyId, PinFor lib (run (installStep lib paths) directory history) keyId →
      (∃ newKeyId, PinFor lib (run (installStep lib paths) directory (history ++ [entry])) newKeyId) ∧
      ∀ newKeyId, PinFor lib (run (installStep lib paths) directory (history ++ [entry])) newKeyId →
        newKeyId ≠ keyId → ∃ ceremony operator,
          RotationApproved lib paths entry.call keyId newKeyId ceremony operator) ∧
    ∀ record, entry.cut = none → ((installClientTrust lib paths entry.call).run
        (run (installStep lib paths) directory history)).2 = some (.ok record) →
      ∃ file key, (run (installStep lib paths) directory (history ++ [entry])).files .publicKey =
          some file ∧ lib.loadPublicPem file.data = some (.ed25519 key) ∧
        PinFor lib (run (installStep lib paths) directory (history ++ [entry]))
          (TrustRecord.of lib.toRuntime key file.data).keyId := by
  rw [run_append]
  generalize run (installStep lib paths) directory history = before
  constructor
  · intro keyId hpin
    cases install_step_pin before entry with
    | inl hsame =>
        have hkept : PinFor lib (installStep lib paths before entry) keyId := by
          obtain ⟨file, fields, hfile, hrest⟩ := hpin
          exact ⟨file, fields, hsame.trans hfile, hrest⟩
        exact ⟨⟨keyId, hkept⟩, fun newKeyId hnew hne => absurd (hkept.unique hnew) hne⟩
    | inr hwritten =>
        obtain ⟨publicPem, actual, file, hbundle, hfile, hdata, happroved⟩ := hwritten
        have hnow := pin_for_bundle hbundle hfile hdata
        refine ⟨⟨_, hnow⟩, fun newKeyId hnew hne => ?_⟩
        obtain rfl := hnow.unique hnew
        exact (happroved keyId hpin).resolve_left fun h => hne h.symm
  · intro record hcut hcompleted
    obtain ⟨-, hends⟩ := (install_client_trust_meets lib paths entry.call before).run_related
      (PinStep.refl before) PinStep.trans id
    obtain ⟨publicPem, actual, hbundle, hinstalled⟩ := hends _ hcompleted record rfl
    obtain ⟨-, hpublic, hpin⟩ := hinstalled record rfl
    have hstep : run (installStep lib paths) before [entry] =
        ((installClientTrust lib paths entry.call).run before).1 := by
      show installStep lib paths before entry = _
      unfold installStep
      rw [hcut]
    obtain ⟨key, hkey, rfl⟩ := read_bundle_ok hbundle
    rw [hstep]
    exact ⟨_, key, hpublic, hkey, pin_for_bundle hbundle hpin rfl⟩

/-! ### A rotation -/

/-- The public key of the authority before a rotation, the one after it, and the operator key. -/
def pinnedKey : List UInt8 :=
  [0xd7, 0x5a, 0x98, 0x01, 0x82, 0xb1, 0x0a, 0xb7, 0xd5, 0x4b, 0xfe, 0xd3, 0xc9, 0x64, 0x07, 0x3a,
    0x0e, 0xe1, 0x72, 0xf3, 0xda, 0xa6, 0x23, 0x25, 0xaf, 0x02, 0x1a, 0x68, 0xf7, 0x07, 0x51, 0x1a]

def rotatedKey : List UInt8 :=
  [0x3d, 0x40, 0x17, 0xc3, 0xe8, 0x43, 0x89, 0x5a, 0x92, 0xb7, 0x0a, 0xa7, 0x4d, 0x1b, 0x7e, 0xbc,
    0x9c, 0x98, 0x2c, 0xcf, 0x2e, 0xc4, 0x96, 0x8c, 0xc0, 0xcd, 0x55, 0xf1, 0x2a, 0xf4, 0x66, 0x0c]

def operatorKey : List UInt8 :=
  [0xfc, 0x51, 0xcd, 0x8e, 0x62, 0x18, 0xa1, 0xa3, 0x8d, 0xa4, 0x7e, 0xd0, 0x02, 0x30, 0xf0, 0x58,
    0x08, 0x16, 0xed, 0x13, 0xba, 0x33, 0x03, 0xac, 0x5d, 0xeb, 0x91, 0x15, 0x48, 0x90, 0x80, 0x25]

/-- Their PEM texts. -/
def pinnedPem : List UInt8 :=
  pemText "PUBLIC KEY" "MCowBQYDK2VwAyEA11qYAYKxCrfVS/7TyWQHOg7hcvPapiMlrwIaaPcHURo="

def rotatedPem : List UInt8 :=
  pemText "PUBLIC KEY" "MCowBQYDK2VwAyEAPUAXw+hDiVqStwqnTRt+vJyYLM8uxJaMwM1V8Sr0Zgw="

def operatorPem : List UInt8 :=
  pemText "PUBLIC KEY" "MCowBQYDK2VwAyEA/FHNjmIYoaONpH7QAjDwWAgW7RO6MwOsXeuRFUiQgCU="

/-- SHA-256 on the three keys and their PEM texts. -/
def clientDigest (data : List UInt8) : String :=
  if data = pinnedKey then "21fe31dfa154a261626bf854046fd2271b7bed4b6abe45aa58877ef47f9721b9"
  else if data = pinnedPem then "7f2d9ed0b71b8e5a6c5cf30e647d6e20b5bca6dac8071f11abe3fef8014db610"
  else if data = rotatedKey then "39f713d0a644253f04529421b9f51b9b08979d08295959c4f3990ee617f5139f"
  else if data = rotatedPem then "bf019c455f05e75ce74ca02a55a4b88bab561f85a76555d8281a79f7c2985233"
  else if data = operatorKey then "dac073e0123bdea59dd9b3bda9cf6037f63aca82627d7abcd5c4ac29dd74003e"
  else "31736c11c2ff361cc130723a5d11fe2ffa2f52f6ce34231923844a85cb8cb83a"

/-- The operator's signature of the ceremony. -/
def ceremonySignature : List UInt8 :=
  [0x70, 0x8a, 0xdb, 0xe2, 0x63, 0x7c, 0x39, 0xd9, 0xac, 0xc7, 0x9b, 0xb0, 0x18, 0xed, 0xc8, 0x70,
    0xd6, 0x61, 0x87, 0xbe, 0x48, 0x6b, 0xd6, 0xe3, 0x71, 0x1a, 0x23, 0x16, 0x01, 0x69, 0x9c, 0x28,
    0xfd, 0x33, 0xfc, 0x0b, 0xd6, 0x08, 0x58, 0x0b, 0x6f, 0x3b, 0xc7, 0x6d, 0xdd, 0xfe, 0xe5, 0x73,
    0xb7, 0xde, 0x66, 0xa8, 0x99, 0xdb, 0xcb, 0x29, 0xec, 0xa8, 0xdc, 0x69, 0xf8, 0x9d, 0xad, 0x0c]

/-- A ceremony that replaces the pinned key by the rotated one, for ten minutes. -/
def ceremonyDocument : Dict :=
  [("schema", .str "capmesh.authority-rotation.v1"),
    ("old_key_id",
      .str "ed25519:sha256:21fe31dfa154a261626bf854046fd2271b7bed4b6abe45aa58877ef47f9721b9"),
    ("new_key_id",
      .str "ed25519:sha256:39f713d0a644253f04529421b9f51b9b08979d08295959c4f3990ee617f5139f"),
    ("issued_at", .int 1767225600), ("expires_at", .int 1767226200), ("nonce", .str "n1"),
    ("approved_by", .str "operator"),
    ("signature", .str
      "cIrb4mN8Odmsx5uwGO3IcNZhh75Ia9bjcRojFgFpnCj9M_wL1ghYC287x23d_uVzt95mqJnbyynsqNxp-J2tDA")]

def ceremonyBytes : List UInt8 := (Json.obj ceremonyDocument).canonicalText.toUTF8.data.toList

/-- The library of the three keys, which are the only ones it is asked about. -/
def clientLibrary : TrustLibrary :=
  .ofKeys (Platform.ascii clientDigest).toRuntime ⟨[], by simp, by simp⟩
    [(pinnedKey, pinnedPem), (rotatedKey, rotatedPem), (operatorKey, operatorPem)]
    (pinnedKey, pinnedPem) [(ceremonyBytes, .obj ceremonyDocument)]
    (fun key signature _ => key = operatorKey && signature = ceremonySignature)
    (fun text => if text.length = 86 then some ceremonySignature else none)
    (by decide +kernel) (List.inj_on_of_nodup_map (by decide +kernel))

/-- A regular file of the user 1000. -/
def ownFile (mode : Nat) (data : List UInt8) : TrustFile := ⟨⟨.regular, 1000, mode⟩, data⟩

def clientPaths : ClientPaths where
  path
    | .publicKey => "/home/capmesh/.capmesh/authority.pub.pem"
    | .pin => "/home/capmesh/.capmesh/authority-pin.v1.json"
  parent _ := "/home/capmesh/.capmesh"

/-- A client that has pinned the first key. -/
def pinnedClient : TrustDirectory ClientFile where
  parent := some ⟨.directory, 1000, 0o700⟩
  files
    | .publicKey => some (ownFile 0o644 pinnedPem)
    | .pin => some (ownFile 0o644 (entryRecord clientLibrary.toRuntime (pinnedKey, pinnedPem)).encoded)
  temps _ := none
  lockFile := none
  holder := none

/-- The installation of the rotated key, with the ceremony. -/
def rotationCall : InstallCall where
  euid := 1000
  umask := 0o022
  sourcePublic := ⟨"/mnt/bundle/authority.pub.pem", some (ownFile 0o644 rotatedPem)⟩
  sourceRecord := ⟨"/mnt/bundle/authority-trust.v1.json", some
    (ownFile 0o644 (entryRecord clientLibrary.toRuntime (rotatedKey, rotatedPem)).encoded)⟩
  expectedKeyId := "ed25519:sha256:39f713d0a644253f04529421b9f51b9b08979d08295959c4f3990ee617f5139f"
  rotationCeremony := some ⟨"/mnt/bundle/rotation.json", some (ownFile 0o600 ceremonyBytes)⟩
  operatorPublicKey := some ⟨"/home/capmesh/.capmesh/operator.pub.pem",
    some (ownFile 0o644 operatorPem)⟩
  now := 1767225610
  token _ := "5f2c9a1be07d4386"

/-- A client that is given the ceremony has a pin for a key as it had one before. -/
theorem client_trust_by_ceremony_pinned :
    PinFor clientLibrary pinnedClient
        (entryRecord clientLibrary.toRuntime (pinnedKey, pinnedPem)).keyId ∧
      ∃ newKeyId, PinFor clientLibrary
        (run (installStep clientLibrary clientPaths) pinnedClient [⟨rotationCall, none⟩]) newKeyId := by
  obtain ⟨hchanges, -⟩ := client_trust_by_ceremony clientLibrary clientPaths pinnedClient []
    ⟨rotationCall, none⟩
  have hpinned : clientLibrary.loadPublicPem pinnedPem = some (.ed25519 pinnedKey) := by
    decide +kernel
  have hbefore : PinFor clientLibrary pinnedClient
      (entryRecord clientLibrary.toRuntime (pinnedKey, pinnedPem)).keyId :=
    pin_for_record hpinned rfl (by simp only [ownFile, entryRecord])
  exact ⟨hbefore, (hchanges _ hbefore).1⟩

end Capmesh
