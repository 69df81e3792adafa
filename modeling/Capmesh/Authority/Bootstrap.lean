import Capmesh.Authority.TrustFiles
import Capmesh.Model.Platform

/-!
# Bootstrap of the authority key

`ensure_authority_keypair`: under an exclusive lock a call reads the private key or generates it,
and then checks or writes the public key and the trust record. Calls overlap, and a crash may stop
one between any two of its file operations; the system then drops its lock. `AuthorityCoherent` is what the
three files are in every state, `bootstrap_discipline` the judgement of a call among others, and
`bootstrap_consistent` what follows for every schedule.
-/

namespace Capmesh

open Python Execution

/-- The files of `ensure_authority_keypair`. -/
inductive AuthorityFile where
  | privateKey
  | publicKey
  | record
  deriving DecidableEq, Repr

/-- One call: who makes it, its arguments and its environment, the key that `generate` would draw,
and the random part of each temporary name. -/
structure BootstrapCall where
  euid : Nat
  umask : Nat
  nodeRole : Option String
  hostname : Option String
  /-- `CAPMESH_NODE_ROLE`, or the empty text. -/
  roleVariable : String
  /-- `CAPMESH_AUTHORITY_HOSTNAME`. -/
  hostVariable : Option String
  /-- `PYTEST_CURRENT_TEST`. -/
  currentTest : Option String
  /-- `CAPMESH_ALLOW_TEST_AUTHORITY_KEYGEN`. -/
  allowTest : Option String
  /-- `socket.gethostname()`. -/
  socketHost : String
  generated : List UInt8
  token : AuthorityFile → String

/-- The absolute path of each file and its parent. -/
structure KeyPaths where
  path : AuthorityFile → String
  parent : AuthorityFile → String

variable (lib : TrustLibrary)

namespace BootstrapCall

variable (call : BootstrapCall)

/-- `test_override`. -/
def testOverride : Bool :=
  Python.present call.currentTest && call.allowTest = some "1" && call.hostname.isNone

/-- The role of the node, after the override. -/
def role : String :=
  let role := lib.lower (lib.stripSpace (optOr call.nodeRole call.roleVariable))
  if call.testOverride && role = "" then "authoritative" else role

/-- `actual_host`: the host name up to its first dot. -/
def actualHost : String :=
  lib.lower (String.ofList ((optOr call.hostname call.socketHost).toList.takeWhile (· ≠ '.')))

/-- `expected_host`. -/
def expectedHost : String := lib.lower (lib.stripSpace (call.hostVariable.getD "cpubox"))

/-- Whether the node may hold the private key. -/
def authoritative : Bool :=
  call.role lib = "authoritative" && (call.actualHost lib = call.expectedHost lib || call.testOverride)

/-- The process that makes the call. -/
def caller (paths : KeyPaths) : Caller AuthorityFile := ⟨call.euid, call.umask, paths.path⟩

end BootstrapCall

/-- The text of the error for a public key that is not the one of the private key. -/
def publicMismatch : String := "authority public key mismatch; rotation ceremony required"

/-- The text of the error for a trust record that is not the one of the private key. -/
def recordMismatch : String := "authority trust record mismatch; rotation ceremony required"

/-- The lock file after `os.open(lock_path, O_RDWR | O_CREAT | O_NOFOLLOW, 0o600)`. -/
def openedLock (caller : Caller AuthorityFile) : Option Entry → Option Entry
  | none => some ⟨.regular, caller.euid, maskedMode 0o600 caller.umask⟩
  | some entry => some entry

/-- `O_NOFOLLOW`: what is there must be a regular file. -/
def checkOpened : Option Entry → Except TrustError Unit
  | none => .ok ()
  | some entry =>
      if entry.kind = .regular then .ok () else .error (.os "Too many levels of symbolic links")

/-- `os.open(lock_path, O_RDWR | O_CREAT | O_NOFOLLOW, 0o600)`. -/
def openLock (caller : Caller AuthorityFile) : TrustProcess AuthorityFile Unit :=
  .attempt (fun state => { state with lockFile := openedLock caller state.lockFile })
    fun state => checkOpened state.lockFile

/-- The lock file after `os.chmod(lock_path, 0o600)`, which its owner may do. -/
def chmoddedLock (caller : Caller AuthorityFile) : Option Entry → Option Entry
  | none => none
  | some entry => some (if entry.owner = caller.euid then { entry with mode := 0o600 } else entry)

/-- What `os.chmod(lock_path, 0o600)` asks. -/
def checkChmod (caller : Caller AuthorityFile) : Option Entry → Except TrustError Unit
  | none => .error (.os "No such file or directory")
  | some entry =>
      if entry.owner = caller.euid then .ok () else .error (.os "Operation not permitted")

/-- `os.chmod(lock_path, 0o600)`. -/
def chmodLock (caller : Caller AuthorityFile) : TrustProcess AuthorityFile Unit :=
  .attempt (fun state => { state with lockFile := chmoddedLock caller state.lockFile })
    fun state => checkChmod caller state.lockFile

/-- Closing the descriptor drops the lock that a call holds; so does its crash. -/
def releaseLock (task : Nat) (state : TrustDirectory AuthorityFile) : TrustDirectory AuthorityFile :=
  if state.holder = some task then { state with holder := none } else state

/-- `fcntl.flock(lock.fileno(), LOCK_EX)`: waits while another call holds the lock. -/
def takeLock (task : Nat) : TrustProcess AuthorityFile Unit :=
  .await (fun state => state.holder.isNone) fun state => { state with holder := some task }

/-- The private key: read if it is there, else generated and written. -/
def loadOrGenerate (caller : Caller AuthorityFile) (call : BootstrapCall) :
    TrustProcess AuthorityFile (List UInt8) := do
  if ← lexists .privateKey then
    let pem ← readRegular caller .privateKey 0o600
    match lib.loadPrivatePem pem with
    | none => .raise (.trust "authority private key PEM is invalid")
    | some .other => .raise (.trust "authority private key is not Ed25519")
    | some (.ed25519 key) => pure key
  else
    atomicWrite caller (call.token .privateKey) .privateKey (lib.privatePem call.generated) 0o600
    pure call.generated

/-- A file that follows from the private key: compared if it is there, else written. -/
def checkOrWrite (caller : Caller AuthorityFile) (call : BootstrapCall) (name : AuthorityFile)
    (data : List UInt8) (mismatch : String) : TrustProcess AuthorityFile Unit := do
  if ← lexists name then
    let stored ← readRegular caller name 0o644
    if stored ≠ data then
      .raise (.trust mismatch)
  else
    atomicWrite caller (call.token name) name data 0o644

/-- The part of `ensure_authority_keypair` under the lock. -/
def settleKeypair (caller : Caller AuthorityFile) (call : BootstrapCall) :
    TrustProcess AuthorityFile TrustRecord := do
  let key ← loadOrGenerate lib caller call
  let publicPem := lib.publicPem (lib.publicOf key)
  let record ← .lift (trustRecord lib publicPem)
  checkOrWrite caller call .publicKey publicPem publicMismatch
  checkOrWrite caller call .record (record.encoded) recordMismatch
  pure record

/-- `ensure_authority_keypair`, as the call of this number. -/
def ensureAuthorityKeypair (paths : KeyPaths) (task : Nat) (call : BootstrapCall) :
    TrustProcess AuthorityFile TrustRecord :=
  if !call.authoritative lib then
    .raise (.trust "authority private keys may be generated only by authoritative cpubox")
  else if paths.parent .publicKey ≠ paths.parent .privateKey ∨
      paths.parent .record ≠ paths.parent .privateKey then
    .raise (.trust "authority keypair and trust record must share one protected directory")
  else do
    assertParent (call.caller paths)
    openLock (call.caller paths)
    chmodLock (call.caller paths)
    takeLock task
    Process.ensure (settleKeypair lib (call.caller paths) call) (.change (releaseLock task))

/-! ### What every state keeps -/

/-- The trust record of a private key. -/
def recordOf (key : List UInt8) : TrustRecord :=
  .of lib.toRuntime (lib.publicOf key) (lib.publicPem (lib.publicOf key))

theorem trust_record_public_pem (key : List UInt8) :
    trustRecord lib (lib.publicPem (lib.publicOf key)) = .ok (recordOf lib key) := by
  unfold trustRecord publicFromPem
  rw [lib.load_public_pem]
  rfl

/-- The files of a private key: it is there, and the two others are its own as far as they are. -/
structure KeyFiles (owner : Nat) (key : List UInt8) (state : TrustDirectory AuthorityFile) :
    Prop where
  parent : ∃ mode, state.parent = some ⟨.directory, owner, mode⟩
  privateKey : state.files .privateKey = some ⟨⟨.regular, owner, 0o600⟩, lib.privatePem key⟩
  publicKey : ∀ file, state.files .publicKey = some file →
    file = ⟨⟨.regular, owner, 0o644⟩, lib.publicPem (lib.publicOf key)⟩
  record : ∀ file, state.files .record = some file →
    file = ⟨⟨.regular, owner, 0o644⟩, (recordOf lib key).encoded⟩

/-- The invariant of the directory: no file at all, or the files of one private key. -/
def AuthorityCoherent (state : TrustDirectory AuthorityFile) : Prop :=
  (∀ name, state.files name = none) ∨ ∃ owner key, KeyFiles lib owner key state

/-- The private key, once it is there, stays. -/
def KeepsPrivate (a b : TrustDirectory AuthorityFile) : Prop :=
  ∀ file, a.files .privateKey = some file → b.files .privateKey = some file

/-- The directory, once it is there, stays. -/
def KeepsParent (a b : TrustDirectory AuthorityFile) : Prop :=
  ∀ entry, a.parent = some entry → b.parent = some entry

/-- What a call relies on: a lock that it holds keeps everyone else from the files. -/
structure BootstrapRely (task : Nat) (a b : TrustDirectory AuthorityFile) : Prop where
  coherent : AuthorityCoherent lib a → AuthorityCoherent lib b
  kept : KeepsPrivate a b
  parent : KeepsParent a b
  held : a.holder = some task → b.holder = some task ∧ b.files = a.files ∧ b.temps = a.temps
  free : a.holder ≠ some task → b.holder ≠ some task

/-- What a call guarantees: it touches the files only while it holds the lock, and takes the lock
only when it is free. -/
structure BootstrapGuar (task : Nat) (a b : TrustDirectory AuthorityFile) : Prop where
  coherent : AuthorityCoherent lib a → AuthorityCoherent lib b
  kept : KeepsPrivate a b
  parent : KeepsParent a b
  files : a.holder = some task ∨ b.files = a.files ∧ b.temps = a.temps
  holder : b.holder = a.holder ∨ a.holder = none ∧ b.holder = some task ∨
    a.holder = some task ∧ b.holder = none

/-- A state that differs in the lock alone is as coherent. -/
theorem coherent_congr {a b : TrustDirectory AuthorityFile} (h : AuthorityCoherent lib a)
    (hfiles : b.files = a.files) (hparent : b.parent = a.parent) : AuthorityCoherent lib b := by
  cases h with
  | inl hnone => exact .inl fun name => by rw [hfiles, hnone]
  | inr hkey =>
      obtain ⟨owner, key, hkey⟩ := hkey
      exact .inr ⟨owner, key, by rw [hparent]; exact hkey.parent,
        by rw [hfiles]; exact hkey.privateKey, by rw [hfiles]; exact hkey.publicKey,
        by rw [hfiles]; exact hkey.record⟩

variable {lib}

theorem BootstrapRely.refl (task : Nat) (a : TrustDirectory AuthorityFile) :
    BootstrapRely lib task a a :=
  ⟨id, fun _ h => h, fun _ h => h, fun h => ⟨h, rfl, rfl⟩, id⟩

theorem BootstrapRely.trans {task : Nat} {a b c : TrustDirectory AuthorityFile}
    (h : BootstrapRely lib task a b) (hnext : BootstrapRely lib task b c) :
    BootstrapRely lib task a c where
  coherent := hnext.coherent ∘ h.coherent
  kept file hfile := hnext.kept file (h.kept file hfile)
  parent entry hentry := hnext.parent entry (h.parent entry hentry)
  held hheld := by
    obtain ⟨hmiddle, hfiles, htemps⟩ := h.held hheld
    obtain ⟨hlast, hnextFiles, hnextTemps⟩ := hnext.held hmiddle
    exact ⟨hlast, hnextFiles.trans hfiles, hnextTemps.trans htemps⟩
  free hfree := hnext.free (h.free hfree)

/-- What one call guarantees is what every other one relies on. -/
theorem BootstrapGuar.rely {task other : Nat} {a b : TrustDirectory AuthorityFile}
    (h : BootstrapGuar lib task a b) (hne : task ≠ other) : BootstrapRely lib other a b where
  coherent := h.coherent
  kept := h.kept
  parent := h.parent
  held hheld := by
    have hnot : a.holder ≠ some task := fun htask =>
      hne (Option.some.inj (htask.symm.trans hheld))
    have hsame := h.files.resolve_left hnot
    cases h.holder with
    | inl hholder => exact ⟨hholder.trans hheld, hsame⟩
    | inr hholder =>
        cases hholder with
        | inl htaken => exact nomatch htaken.1.symm.trans hheld
        | inr hfreed => exact absurd hfreed.1 hnot
  free hfree := by
    cases h.holder with
    | inl hholder => rwa [hholder]
    | inr hholder =>
        cases hholder with
        | inl htaken => rw [htaken.2]; exact fun h => hne (Option.some.inj h)
        | inr hfreed => rw [hfreed.2]; exact fun h => nomatch h

/-! ### Under the lock -/

/-- The state of a call that holds the lock and has passed `_assert_parent`. -/
structure Locked (lib : TrustLibrary) (task : Nat) (caller : Caller AuthorityFile)
    (state : TrustDirectory AuthorityFile) : Prop where
  holder : state.holder = some task
  coherent : AuthorityCoherent lib state
  owned : checkParent caller state.parent = .ok ()

variable {task : Nat} {caller : Caller AuthorityFile} {call : BootstrapCall}
  {state : TrustDirectory AuthorityFile} {key : List UInt8}

/-- A step of the holder that leaves the lock and the directory itself as they are. -/
theorem guar_of_locked (h : Locked lib task caller state) {files : AuthorityFile → Option TrustFile}
    {temps : AuthorityFile × String → Option TrustFile}
    (hcoherent : AuthorityCoherent lib { state with files, temps })
    (hkept : KeepsPrivate state { state with files, temps }) :
    BootstrapGuar lib task state { state with files, temps } ∧
      Locked lib task caller { state with files, temps } :=
  ⟨⟨fun _ => hcoherent, hkept, fun _ h => h, .inl h.holder, .inl rfl⟩, h.holder, hcoherent, h.owned⟩

theorem quiet_locked : Quiet (BootstrapRely lib task) (BootstrapGuar lib task)
    (Locked lib task caller) where
  stays := BootstrapRely.refl task
  same h hrely := by
    rename_i a b
    obtain ⟨hholder, hfiles, htemps⟩ := hrely.held h.holder
    obtain ⟨entry, hentry, -⟩ := directory_of_check_parent h.owned
    have hparent : b.parent = a.parent := by rw [hentry, hrely.parent entry hentry]
    refine ⟨⟨hholder, hrely.coherent h.coherent, by rw [hparent]; exact h.owned⟩, b.lockFile, ?_⟩
    cases b
    simp only [TrustDirectory.mk.injEq, true_and]
    exact ⟨hparent, hfiles, htemps, hholder.trans h.holder.symm⟩
  drafts temps h :=
    guar_of_locked h (coherent_congr lib h.coherent rfl rfl) fun _ hfile => hfile

theorem owner_of_check_parent {owner mode : Nat}
    (h : checkParent caller (some ⟨.directory, owner, mode⟩) = .ok ()) : owner = caller.euid := by
  by_contra hne
  simp [checkParent, hne] at h

theorem Locked.owner {owner : Nat} (h : Locked lib task caller state)
    (hkey : KeyFiles lib owner key state) : owner = caller.euid := by
  obtain ⟨mode, hparent⟩ := hkey.parent
  exact owner_of_check_parent (by rw [← hparent]; exact h.owned)

theorem check_regular_own {Name : Type} {caller : Caller Name} (path : String) {mode : Nat}
    (hmode : permissions mode = mode) (data : List UInt8) :
    checkRegular caller path mode (some ⟨⟨.regular, caller.euid, mode⟩, data⟩) = .ok () := by
  simp [checkRegular, hmode]

theorem key_files_alone (howned : checkParent caller state.parent = .ok ())
    (hfiles : ∀ name, state.files name = if name = .privateKey then
      some ⟨⟨.regular, caller.euid, 0o600⟩, lib.privatePem key⟩ else none) :
    KeyFiles lib caller.euid key state := by
  obtain ⟨entry, hentry, hkind⟩ := directory_of_check_parent howned
  obtain ⟨kind, owner, mode⟩ := entry
  cases hkind
  have howner : owner = caller.euid := owner_of_check_parent (by rw [← hentry]; exact howned)
  subst howner
  exact ⟨⟨mode, hentry⟩, hfiles _, fun file hfile => by simp [hfiles] at hfile,
    fun file hfile => by simp [hfiles] at hfile⟩

theorem files_written (hnone : ∀ name, state.files name = none) (file : TrustFile)
    (name : AuthorityFile) : Function.update state.files .privateKey (some file) name =
      if name = .privateKey then some file else none := by
  rw [Function.update_apply, hnone]

theorem generate_meets (h : Locked lib task caller state) (hnone : ∀ name, state.files name = none) :
    (do
      atomicWrite caller (call.token .privateKey) .privateKey (lib.privatePem call.generated) 0o600
      pure call.generated : TrustProcess AuthorityFile (List UInt8)).Meets
      (BootstrapRely lib task) (BootstrapGuar lib task)
      (fun result last => Locked lib task caller last ∧ match result with
        | .ok key => KeyFiles lib caller.euid key last
        | .error failure => failure = .os "File exists") state := by
  refine (quiet_locked.atomic_write h h.owned ?_).bind (fun _ last hlast => ?_) ?_
  · intro a ha hparent hfiles temps
    have hempty : ∀ name, a.files name = none := fun name => by rw [hfiles, hnone]
    refine guar_of_locked ha (.inr ⟨_, _, key_files_alone ha.owned (files_written hempty _)⟩) ?_
    intro file hfile
    rw [hempty] at hfile
    cases hfile
  · obtain ⟨hlocked, hparent, hfiles⟩ := hlast last (BootstrapRely.refl task last)
    refine quiet_locked.done hlocked fun lockFile hlater => ⟨hlater, key_files_alone hlater.owned ?_⟩
    intro name
    show last.files name = _
    rw [hfiles, files_written hnone]
  · exact fun failure last hlast => ⟨hlast.1, hlast.2.2.1⟩

/-- `loadOrGenerate` under the lock: the private key is there and its files are coherent. -/
theorem load_or_generate_meets (h : Locked lib task caller state) :
    (loadOrGenerate lib caller call).Meets (BootstrapRely lib task) (BootstrapGuar lib task)
      (fun result last => Locked lib task caller last ∧ match result with
        | .ok key => KeyFiles lib caller.euid key last
        | .error failure => failure = .os "File exists") state := by
  refine quiet_locked.read h fun lockFile hlater => ?_
  simp only [Process.done_bind]
  cases h.coherent with
  | inl hnone =>
      simp only [hnone .privateKey, Option.isSome_none, Bool.false_eq_true, if_false]
      exact generate_meets hlater hnone
  | inr hkey =>
      obtain ⟨owner, key, hkey⟩ := hkey
      obtain rfl := h.owner hkey
      simp only [hkey.privateKey, Option.isSome_some, if_true]
      refine (quiet_locked.read_regular .privateKey 0o600 hlater).bind (fun pem last hlast => ?_) ?_
      · obtain ⟨hread, hlocked, other, rfl⟩ := hlast last (BootstrapRely.refl task last)
        simp only [hkey.privateKey, check_regular_own _ (show permissions 0o600 = 0o600 from rfl)]
          at hread
        cases hread
        simp only [lib.load_private_pem]
        exact quiet_locked.done hlocked fun final hfinal =>
          ⟨hfinal, hkey.parent, hkey.privateKey, hkey.publicKey, hkey.record⟩
      · intro failure last hlast
        have hread := hlast.1
        simp only [hkey.privateKey, check_regular_own _ (show permissions 0o600 = 0o600 from rfl)]
          at hread
        cases hread

/-- The state of a call under the lock once the private key is known. -/
structure Keyed (lib : TrustLibrary) (task : Nat) (caller : Caller AuthorityFile)
    (key : List UInt8) (state : TrustDirectory AuthorityFile) : Prop where
  locked : Locked lib task caller state
  files : KeyFiles lib caller.euid key state

theorem KeyFiles.congr {owner : Nat} {last : TrustDirectory AuthorityFile}
    (h : KeyFiles lib owner key state) (hfiles : last.files = state.files)
    (hparent : last.parent = state.parent) : KeyFiles lib owner key last :=
  ⟨by rw [hparent]; exact h.parent, by rw [hfiles]; exact h.privateKey,
    by rw [hfiles]; exact h.publicKey, by rw [hfiles]; exact h.record⟩

theorem Keyed.relocked {lockFile : Option Entry} (h : Keyed lib task caller key state)
    (hlater : Locked lib task caller { state with lockFile }) :
    Keyed lib task caller key { state with lockFile } := ⟨hlater, h.files.congr rfl rfl⟩

/-- A file that the private key determines: what it is, and that writing it keeps the files. -/
structure Derived (lib : TrustLibrary) (owner : Nat) (key : List UInt8) (name : AuthorityFile)
    (data : List UInt8) : Prop where
  only : ∀ {state}, KeyFiles lib owner key state → ∀ file, state.files name = some file →
    file = ⟨⟨.regular, owner, 0o644⟩, data⟩
  written : ∀ {state}, KeyFiles lib owner key state → ∀ {files}, (∀ other, files other =
    if other = name then some ⟨⟨.regular, owner, 0o644⟩, data⟩ else state.files other) →
    ∀ temps, KeyFiles lib owner key { state with files, temps }
  apart : name ≠ .privateKey

theorem derived_public (owner : Nat) (key : List UInt8) :
    Derived lib owner key .publicKey (lib.publicPem (lib.publicOf key)) where
  only h := h.publicKey
  written h _ hfiles temps := by
    refine ⟨h.parent, by simpa [hfiles] using h.privateKey, fun file hfile => ?_, ?_⟩
    · simpa [hfiles, eq_comm] using hfile
    · simpa [hfiles] using h.record
  apart := by decide

theorem derived_record (owner : Nat) (key : List UInt8) :
    Derived lib owner key .record ((recordOf lib key).encoded) where
  only h := h.record
  written h _ hfiles temps := by
    refine ⟨h.parent, by simpa [hfiles] using h.privateKey, ?_, fun file hfile => ?_⟩
    · simpa [hfiles] using h.publicKey
    · simpa [hfiles, eq_comm] using hfile
  apart := by decide

/-- `checkOrWrite` under the lock never finds a mismatch. -/
theorem check_or_write_meets {name : AuthorityFile} {data : List UInt8} (mismatch : String)
    (hderived : Derived lib caller.euid key name data) (h : Keyed lib task caller key state) :
    (checkOrWrite caller call name data mismatch).Meets (BootstrapRely lib task)
      (BootstrapGuar lib task)
      (fun result last => Keyed lib task caller key last ∧
        ∀ failure, result = .error failure → failure = .os "File exists") state := by
  refine quiet_locked.read h.locked fun lockFile hlater => ?_
  simp only [Process.done_bind]
  cases hfile : state.files name with
  | none =>
      simp only [Option.isSome_none, Bool.false_eq_true, if_false]
      refine (quiet_locked.atomic_write hlater hlater.owned ?_).mono ?_
      · intro a ha hparent hfiles temps
        have hkey := h.files.congr hfiles hparent
        refine guar_of_locked ha (.inr ⟨_, _, hderived.written hkey
          (fun other => Function.update_apply ..) temps⟩) fun file hfile => ?_
        exact (Function.update_of_ne hderived.apart.symm _ _).trans hfile
      · intro result last hlast
        obtain ⟨hlocked, hparent, hfiles⟩ := hlast
        cases result with
        | ok value =>
            refine ⟨⟨hlocked, ?_⟩, fun failure hfailure => nomatch hfailure⟩
            have hwritten := hderived.written h.files
              (fun other => Function.update_apply ..) state.temps
            exact hwritten.congr hfiles hparent
        | error failure =>
            refine ⟨⟨hlocked, h.files.congr hfiles.2 hparent⟩, fun other hother => ?_⟩
            cases hother
            exact hfiles.1
  | some file =>
      obtain rfl := hderived.only h.files file hfile
      simp only [Option.isSome_some, if_true]
      refine (quiet_locked.read_regular name 0o644 hlater).bind (fun pem last hlast => ?_) ?_
      · obtain ⟨hread, hlocked, other, rfl⟩ := hlast last (BootstrapRely.refl task last)
        simp only [hfile, check_regular_own _ (show permissions 0o644 = 0o644 from rfl)] at hread
        cases hread
        simp only [ne_eq, not_true_eq_false, if_false]
        exact quiet_locked.done hlocked fun final hfinal =>
          ⟨h.relocked hfinal, fun failure hfailure => nomatch hfailure⟩
      · intro failure last hlast
        have hread := hlast.1
        simp only [hfile, check_regular_own _ (show permissions 0o644 = 0o644 from rfl)] at hread
        cases hread

/-- The part of a call under the lock: the record of the private key that is there, or a temporary
name that was taken. -/
theorem settle_keypair_meets (h : Locked lib task caller state) :
    (settleKeypair lib caller call).Meets (BootstrapRely lib task) (BootstrapGuar lib task)
      (fun result last => Locked lib task caller last ∧ match result with
        | .ok record => ∃ key, KeyFiles lib caller.euid key last ∧ record = recordOf lib key
        | .error failure => failure = .os "File exists") state := by
  refine (load_or_generate_meets h).bind (fun key last hlast => ?_) fun _ _ hlast => hlast
  obtain ⟨hlocked, hfiles⟩ := hlast last (BootstrapRely.refl task last)
  simp only [trust_record_public_pem]
  show ((checkOrWrite caller call .publicKey _ _).bind fun _ => _).Meets _ _ _ _
  refine (check_or_write_meets publicMismatch (derived_public _ key) ⟨hlocked, hfiles⟩).bind
    (fun _ checked hchecked => ?_) fun failure _ hlast => ⟨hlast.1.locked, hlast.2 failure rfl⟩
  have hkeyed := (hchecked checked (BootstrapRely.refl task checked)).1
  refine (check_or_write_meets recordMismatch (derived_record _ key) hkeyed).bind
    (fun _ written hwritten => ?_) fun failure _ hlast => ⟨hlast.1.locked, hlast.2 failure rfl⟩
  have hdone := (hwritten written (BootstrapRely.refl task written)).1
  exact quiet_locked.done hdone.locked fun lockFile hlater =>
    ⟨hlater, key, (hdone.relocked hlater).files, rfl⟩

/-! ### A call among others -/

/-- The two errors that ask for a rotation. -/
def Mismatch (failure : TrustError) : Prop :=
  failure = .trust publicMismatch ∨ failure = .trust recordMismatch

theorem not_mismatch_os (text : String) : ¬ Mismatch (.os text) := by simp [Mismatch]

/-- What a call that has ended says: it returns the record of the private key that is there, and it
does not fail with a mismatch. -/
def CallEnds (lib : TrustLibrary) (result : Except TrustError TrustRecord)
    (state : TrustDirectory AuthorityFile) : Prop :=
  match result with
  | .ok record => ∃ owner key,
      state.files .privateKey = some ⟨⟨.regular, owner, 0o600⟩, lib.privatePem key⟩ ∧
      record = recordOf lib key
  | .error failure => ¬ Mismatch failure

theorem CallEnds.later {result : Except TrustError TrustRecord} {a b : TrustDirectory AuthorityFile}
    (h : CallEnds lib result a) (hkept : KeepsPrivate a b) : CallEnds lib result b := by
  cases result with
  | ok record =>
      obtain ⟨owner, key, hfile, hrecord⟩ := h
      exact ⟨owner, key, hkept _ hfile, hrecord⟩
  | error failure => exact h

theorem release_guar (lib : TrustLibrary) (task : Nat) (state : TrustDirectory AuthorityFile) :
    BootstrapGuar lib task state (releaseLock task state) ∧
      (releaseLock task state).holder ≠ some task := by
  unfold releaseLock
  split
  · rename_i hholder
    exact ⟨⟨fun h => coherent_congr lib h rfl rfl, fun _ h => h, fun _ h => h, .inr ⟨rfl, rfl⟩,
      .inr (.inr ⟨hholder, rfl⟩)⟩, fun h => nomatch h⟩
  · rename_i hholder
    exact ⟨⟨id, fun _ h => h, fun _ h => h, .inr ⟨rfl, rfl⟩, .inl rfl⟩, hholder⟩

theorem locked_meets (h : Locked lib task caller state) :
    ((settleKeypair lib caller call).ensure (.change (releaseLock task))).Meets
      (BootstrapRely lib task) (BootstrapGuar lib task) (CallEnds lib) state := by
  refine (settle_keypair_meets h).ensure fun outcome ended hended => ?_
  intro later hrely _
  have hsettled : CallEnds lib outcome later := by
    obtain ⟨-, hend⟩ := hended later hrely
    cases outcome with
    | ok record =>
        obtain ⟨key, hfiles, hrecord⟩ := hend
        exact ⟨caller.euid, key, hfiles.privateKey, hrecord⟩
    | error failure =>
        cases hend
        exact not_mismatch_os _
  obtain ⟨hguar, -⟩ := release_guar lib task later
  exact ⟨hguar, fun last hlast => hsettled.later fun file hfile =>
    hlast.kept file (hguar.kept file hfile)⟩

theorem check_made_error {parent : Option Entry} {failure : TrustError}
    (h : checkMade parent = .error failure) : ¬ Mismatch failure := by
  cases parent with
  | none => cases h
  | some entry =>
      simp only [checkMade] at h
      split at h
      · cases h
      · cases h
        exact not_mismatch_os _

theorem check_parent_error {parent : Option Entry} {failure : TrustError}
    (h : checkParent caller parent = .error failure) : ¬ Mismatch failure := by
  cases parent with
  | none =>
      cases h
      exact not_mismatch_os _
  | some entry =>
      simp only [checkParent] at h
      split at h
      · cases h
        simp [Mismatch, publicMismatch, recordMismatch]
      · split at h
        · cases h
          simp [Mismatch, publicMismatch, recordMismatch]
        · cases h

/-- The state of a call that has not taken the lock yet. -/
structure Waiting (lib : TrustLibrary) (task : Nat) (state : TrustDirectory AuthorityFile) :
    Prop where
  coherent : AuthorityCoherent lib state
  free : state.holder ≠ some task

theorem Waiting.later {a b : TrustDirectory AuthorityFile} (h : Waiting lib task a)
    (hrely : BootstrapRely lib task a b) : Waiting lib task b :=
  ⟨hrely.coherent h.coherent, hrely.free h.free⟩

theorem Waiting.step {a b : TrustDirectory AuthorityFile} (h : Waiting lib task a)
    (hfiles : b.files = a.files) (htemps : b.temps = a.temps) (hholder : b.holder = a.holder)
    (hcoherent : AuthorityCoherent lib b) (hparent : KeepsParent a b) :
    BootstrapGuar lib task a b ∧ Waiting lib task b :=
  ⟨⟨fun _ => hcoherent, fun file hfile => by rw [hfiles]; exact hfile, hparent,
    .inr ⟨hfiles, htemps⟩, .inl hholder⟩, hcoherent, by rw [hholder]; exact h.free⟩

/-- A directory that `mkdir` makes holds no file. -/
theorem coherent_made (h : AuthorityCoherent lib state) :
    AuthorityCoherent lib { state with parent := madeParent caller state.parent } := by
  cases hparent : state.parent with
  | some entry => exact coherent_congr lib h rfl hparent.symm
  | none =>
      refine .inl (h.resolve_right fun hkey => ?_)
      obtain ⟨owner, key, hfiles⟩ := hkey
      obtain ⟨mode, hentry⟩ := hfiles.parent
      rw [hparent] at hentry
      cases hentry

/-- `_assert_parent` before the lock. -/
theorem assert_parent_meets (h : Waiting lib task state) :
    (assertParent caller).Meets (BootstrapRely lib task) (BootstrapGuar lib task)
      (fun result last => Waiting lib task last ∧ match result with
        | .ok _ => checkParent caller last.parent = .ok ()
        | .error failure => ¬ Mismatch failure) state := by
  have hmade : (makeDirectory caller).Meets (BootstrapRely lib task) (BootstrapGuar lib task)
      (fun result last => Waiting lib task last ∧
        ∀ failure, result = .error failure → ¬ Mismatch failure) state := by
    intro later hrely _
    have hlater := h.later hrely
    obtain ⟨hguar, hnext⟩ := hlater.step (b := { later with
      parent := madeParent caller later.parent }) rfl rfl rfl (coherent_made hlater.coherent)
      fun entry hentry => by simp [hentry, madeParent]
    refine ⟨hguar, ?_⟩
    simp only
    cases hcheck : checkMade later.parent with
    | ok value => exact fun last hlast => ⟨hnext.later hlast, fun _ h => nomatch h⟩
    | error failure =>
        refine fun last hlast => ⟨hnext.later hlast, fun other hother => ?_⟩
        cases hother
        exact check_made_error hcheck
  refine hmade.bind (fun _ last hlast => ?_) fun failure last hlast => ⟨hlast.1, hlast.2 _ rfl⟩
  intro later hrely _
  obtain ⟨hwaiting, -⟩ := hlast later hrely
  refine ⟨(hwaiting.step rfl rfl rfl hwaiting.coherent fun _ h => h).1, ?_⟩
  simp only [id]
  cases hcheck : checkParent caller later.parent with
  | ok value =>
      refine fun final hfinal => ⟨hwaiting.later hfinal, ?_⟩
      obtain ⟨entry, hentry, -⟩ := directory_of_check_parent hcheck
      rw [hfinal.parent entry hentry, ← hentry, hcheck]
  | error failure => exact fun final hfinal => ⟨hwaiting.later hfinal, check_parent_error hcheck⟩

theorem Waiting.lock_file {readOff : TrustDirectory AuthorityFile → Except TrustError Unit}
    {lockFile : TrustDirectory AuthorityFile → Option Entry}
    (herror : ∀ a failure, readOff a = .error failure → ¬ Mismatch failure)
    (h : Waiting lib task state) (howned : checkParent caller state.parent = .ok ()) :
    (Process.attempt (fun a => { a with lockFile := lockFile a }) readOff :
      TrustProcess AuthorityFile Unit).Meets (BootstrapRely lib task) (BootstrapGuar lib task)
      (fun result last => Waiting lib task last ∧ match result with
        | .ok _ => checkParent caller last.parent = .ok ()
        | .error failure => ¬ Mismatch failure) state := by
  obtain ⟨entry, hentry, -⟩ := directory_of_check_parent howned
  intro later hrely _
  have hlater := h.later hrely
  have hparent := hrely.parent entry hentry
  obtain ⟨hguar, hnext⟩ := hlater.step (b := { later with lockFile := lockFile later }) rfl rfl rfl
    (coherent_congr lib hlater.coherent rfl rfl) fun _ h => h
  refine ⟨hguar, ?_⟩
  cases hread : readOff later with
  | ok value =>
      simp only [hread]
      refine fun last hlast => ⟨hnext.later hlast, ?_⟩
      rw [hlast.parent entry hparent, ← hentry, howned]
  | error failure =>
      simp only [hread]
      exact fun last hlast => ⟨hnext.later hlast, herror later failure hread⟩

theorem check_opened_error {lockFile : Option Entry} {failure : TrustError}
    (h : checkOpened lockFile = .error failure) : ¬ Mismatch failure := by
  unfold checkOpened at h
  split at h
  · cases h
  · split at h
    · cases h
    · cases h
      exact not_mismatch_os _

theorem check_chmod_error {lockFile : Option Entry} {failure : TrustError}
    (h : checkChmod caller lockFile = .error failure) : ¬ Mismatch failure := by
  unfold checkChmod at h
  split at h
  · cases h
    exact not_mismatch_os _
  · split at h
    · cases h
    · cases h
      exact not_mismatch_os _

/-- A call from `flock` on. -/
theorem take_lock_meets (h : Waiting lib task state)
    (howned : checkParent caller state.parent = .ok ()) :
    ((takeLock task).bind fun _ =>
      (settleKeypair lib caller call).ensure (.change (releaseLock task))).Meets
      (BootstrapRely lib task) (BootstrapGuar lib task) (CallEnds lib) state := by
  obtain ⟨entry, hentry, -⟩ := directory_of_check_parent howned
  intro later hrely hfree
  have hcoherent := hrely.coherent h.coherent
  have hnone : later.holder = none := Option.isNone_iff_eq_none.mp hfree
  refine ⟨⟨fun _ => coherent_congr lib hcoherent rfl rfl, fun _ h => h, fun _ h => h,
    .inr ⟨rfl, rfl⟩, .inr (.inl ⟨hnone, rfl⟩)⟩, locked_meets ⟨rfl, ?_, ?_⟩⟩
  · exact coherent_congr lib hcoherent rfl rfl
  · show checkParent caller later.parent = .ok ()
    rw [hrely.parent entry hentry, ← hentry, howned]

/-- The judgement of a call: started by a number that does not hold the lock, it keeps the files
coherent and the private key in place, and ends settled. -/
theorem ensure_authority_keypair_meets (paths : KeyPaths) (h : Waiting lib task state) :
    (ensureAuthorityKeypair lib paths task call).Meets (BootstrapRely lib task)
      (BootstrapGuar lib task) (CallEnds lib) state := by
  unfold ensureAuthorityKeypair
  split
  · intro later _
    simp [CallEnds, Mismatch, publicMismatch, recordMismatch]
  split
  · intro later _
    simp [CallEnds, Mismatch, publicMismatch, recordMismatch]
  refine (assert_parent_meets h).bind (fun _ a ha => ?_) fun failure last hlast => hlast.2
  obtain ⟨hwaiting, howned⟩ := ha a (BootstrapRely.refl task a)
  refine (hwaiting.lock_file (fun _ _ => check_opened_error) howned).bind (fun _ b hb => ?_)
    fun failure last hlast => hlast.2
  obtain ⟨hwaiting, howned⟩ := hb b (BootstrapRely.refl task b)
  refine (hwaiting.lock_file (fun _ _ => check_chmod_error) howned).bind (fun _ c hc => ?_)
    fun failure last hlast => hlast.2
  obtain ⟨hwaiting, howned⟩ := hc c (BootstrapRely.refl task c)
  exact take_lock_meets hwaiting howned

/-! ### Every schedule -/

/-- The judgements of overlapping calls hold together. -/
theorem bootstrap_discipline (lib : TrustLibrary) (paths : KeyPaths) :
    Pool.Discipline (ensureAuthorityKeypair lib paths) releaseLock (AuthorityCoherent lib) KeepsPrivate
      (BootstrapRely lib) (BootstrapGuar lib) (fun task state => state.holder ≠ some task)
      (fun _ => CallEnds lib) where
  refl _ _ h := h
  trans hfirst hsecond file hfile := hsecond file (hfirst file hfile)
  rely_refl := BootstrapRely.refl
  rely_trans h hnext := h.trans hnext
  guards hne h := h.rely hne
  keeps h hguar := ⟨hguar.coherent h, hguar.kept⟩
  released hne := (release_guar lib _ _).1.rely hne
  keeps_released task state h := by
    obtain ⟨hguar, hfree⟩ := release_guar lib task state
    exact ⟨hguar.coherent h, hguar.kept, hfree⟩
  pre_later h hfree := h.free hfree
  starts h hfree := ensure_authority_keypair_meets paths ⟨h, hfree⟩

/-- The directory and the calls after a schedule. -/
def bootstrapRun (lib : TrustLibrary) (paths : KeyPaths) (directory : TrustDirectory AuthorityFile)
    (events : List (Event BootstrapCall)) : Pool (TrustDirectory AuthorityFile) TrustError TrustRecord :=
  Execution.run (Pool.step (ensureAuthorityKeypair lib paths) releaseLock) (Pool.idle directory)
    events

/-- From a directory without the three files, whatever overlaps and wherever calls crash: the
private key that is there after some events is there after all of them, every call that has
completed returned its trust record, and none has failed with a mismatch. -/
theorem bootstrap_consistent (lib : TrustLibrary) (paths : KeyPaths)
    (directory : TrustDirectory AuthorityFile) (hempty : ∀ name, directory.files name = none)
    (hfree : directory.holder = none) (events : List (Event BootstrapCall)) :
    (∀ earlier later, events = earlier ++ later →
      ∀ file, (bootstrapRun lib paths directory earlier).state.files .privateKey = some file →
        (bootstrapRun lib paths directory events).state.files .privateKey = some file) ∧
    ∀ task p, (bootstrapRun lib paths directory events).tasks task = some p →
      ∀ result, p.outcome = some result → match result with
        | .ok record => ∃ file key,
            (bootstrapRun lib paths directory events).state.files .privateKey = some file ∧
            lib.loadPrivatePem file.data = some (.ed25519 key) ∧
            trustRecord lib (lib.publicPem (lib.publicOf key)) = .ok record
        | .error failure =>
            failure ≠ .trust publicMismatch ∧ failure ≠ .trust recordMismatch := by
  have hidle : Pool.Sound (AuthorityCoherent lib) (BootstrapRely lib) (BootstrapGuar lib)
      (fun task state => state.holder ≠ some task) (fun _ => CallEnds lib)
      (Pool.idle directory : Pool _ TrustError TrustRecord) :=
    Pool.sound_idle (.inl hempty) fun task => by rw [hfree]; exact fun h => nomatch h
  have hdiscipline := bootstrap_discipline lib paths
  refine ⟨fun earlier later hevents => ?_, fun task p htask result hresult => ?_⟩
  · obtain ⟨hsound, -⟩ := hdiscipline.pool_meets hidle earlier
    obtain ⟨-, hkept⟩ := hdiscipline.pool_meets hsound later
    rw [← run_append, ← hevents] at hkept
    exact hkept
  · obtain ⟨hsound, -⟩ := hdiscipline.pool_meets hidle events
    have hsettled := hsound.outcome BootstrapRely.refl htask hresult
    cases result with
    | ok record =>
        obtain ⟨owner, key, hfile, rfl⟩ := hsettled
        exact ⟨_, key, hfile, lib.load_private_pem key, trust_record_public_pem lib key⟩
    | error failure =>
        exact ⟨fun h => hsettled (.inl h), fun h => hsettled (.inr h)⟩

/-! ### A crash after the private key -/

/-- A private key, and the public key that belongs to it. -/
def authoritySecret : List UInt8 :=
  [0x9d, 0x61, 0xb1, 0x9d, 0xef, 0xfd, 0x5a, 0x60, 0xba, 0x84, 0x4a, 0xf4, 0x92, 0xec, 0x2c, 0xc4,
    0x44, 0x49, 0xc5, 0x69, 0x7b, 0x32, 0x69, 0x19, 0x70, 0x3b, 0xac, 0x03, 0x1c, 0xae, 0x7f, 0x60]

def authorityPublic : List UInt8 :=
  [0xd7, 0x5a, 0x98, 0x01, 0x82, 0xb1, 0x0a, 0xb7, 0xd5, 0x4b, 0xfe, 0xd3, 0xc9, 0x64, 0x07, 0x3a,
    0x0e, 0xe1, 0x72, 0xf3, 0xda, 0xa6, 0x23, 0x25, 0xaf, 0x02, 0x1a, 0x68, 0xf7, 0x07, 0x51, 0x1a]

/-- Their PEM texts. -/
def authorityPrivates : PemTable where
  entries := [(authoritySecret, pemText "PRIVATE KEY"
    "MC4CAQAwBQYDK2VwBCIEIJ1hsZ3v/VpguoRK9JLsLMREScVpezJpGXA7rAMcrn9g")]
  dashed := by decide +kernel
  apart := by decide +kernel

def authorityPublicPem : List UInt8 :=
  pemText "PUBLIC KEY" "MCowBQYDK2VwAyEA11qYAYKxCrfVS/7TyWQHOg7hcvPapiMlrwIaaPcHURo="

/-- The digests of the public key and of its PEM text. -/
def authorityDigest (data : List UInt8) : String :=
  if data = authorityPublic then
    "21fe31dfa154a261626bf854046fd2271b7bed4b6abe45aa58877ef47f9721b9"
  else "7f2d9ed0b71b8e5a6c5cf30e647d6e20b5bca6dac8071f11abe3fef8014db610"

/-- The library of the two keys, which are the only ones it is asked about. -/
def authorityLibrary : TrustLibrary :=
  .ofKeys (Platform.ascii authorityDigest).toRuntime authorityPrivates
    [(authorityPublic, authorityPublicPem)] (authorityPublic, authorityPublicPem) []
    (fun _ _ _ => false) (fun _ => none) (by simp) (by simp)

/-- The authority of the default host. -/
def authorityCall : BootstrapCall where
  euid := 1000
  umask := 0o022
  nodeRole := some "authoritative"
  hostname := some "cpubox"
  roleVariable := ""
  hostVariable := none
  currentTest := none
  allowTest := none
  socketHost := "cpubox"
  generated := authoritySecret
  token _ := "5f2c9a1be07d4386"

def authorityPaths : KeyPaths where
  path
    | .privateKey => "/var/lib/capmesh/authority.pem"
    | .publicKey => "/var/lib/capmesh/authority.pub.pem"
    | .record => "/var/lib/capmesh/authority-trust.v1.json"
  parent _ := "/var/lib/capmesh"

/-- Nothing has been set up. -/
def bareDirectory : TrustDirectory AuthorityFile := ⟨none, fun _ => none, fun _ => none, none, none⟩

/-- The first call crashes once the private key has its name; the second one starts meanwhile and
runs to its end. -/
def interruptedBootstrap : List (Event BootstrapCall) :=
  [.start 0 authorityCall] ++ List.replicate 12 (.advance 0) ++
    [.start 1 authorityCall, .advance 1, .crash 0] ++ List.replicate 24 (.advance 1)

/-- In that schedule the second call completes, with the record of the first one's key. -/
theorem bootstrap_consistent_interrupted :
    ∃ record file key, (((bootstrapRun authorityLibrary authorityPaths bareDirectory
        interruptedBootstrap).tasks 1).bind fun p => p.outcome) = some (.ok record) ∧
      (bootstrapRun authorityLibrary authorityPaths bareDirectory
        interruptedBootstrap).state.files .privateKey = some file ∧
      authorityLibrary.loadPrivatePem file.data = some (.ed25519 key) ∧
      trustRecord authorityLibrary (authorityLibrary.publicPem (authorityLibrary.publicOf key)) =
        .ok record := by
  have hcompleted : (((bootstrapRun authorityLibrary authorityPaths bareDirectory
      interruptedBootstrap).tasks 1).bind fun p => p.outcome).any Except.isOk = true := by
    decide +kernel
  cases hresult : ((bootstrapRun authorityLibrary authorityPaths bareDirectory
      interruptedBootstrap).tasks 1).bind fun p => p.outcome with
  | none =>
      rw [hresult] at hcompleted
      cases hcompleted
  | some result =>
      obtain ⟨p, htask, houtcome⟩ := Option.bind_eq_some_iff.mp hresult
      cases result with
      | error failure =>
          rw [hresult] at hcompleted
          cases hcompleted
      | ok record =>
          obtain ⟨-, hends⟩ := bootstrap_consistent authorityLibrary authorityPaths bareDirectory
            (fun _ => rfl) rfl interruptedBootstrap
          obtain ⟨file, key, hfile, hload, hrecord⟩ := hends 1 p htask (.ok record) houtcome
          exact ⟨record, file, key, rfl, hfile, hload, hrecord⟩

end Capmesh
