import Capmesh.Execution.Process
import Capmesh.Python.Runtime
import Capmesh.Python.Values

/-!
# Trust files

The directory that holds the keys and the records of the authority, and the operations of
`authority_keys.py` on it: the check of the directory, the read of a file with its exact mode, and
the write to a temporary file that is then renamed. A file operation is one step of a `Process`, so
a caller may be cut off between any two. The files of interest have names of their own; the
temporary files and the lock file are apart from them.
-/

namespace Capmesh

open Python Execution

/-- A public or a private key that a PEM text holds: the bytes of an Ed25519 key, or another one. -/
inductive LoadedKey where
  | ed25519 (key : List UInt8)
  | other
  deriving DecidableEq, Repr

/-- `AuthorityTrustError`, and the exceptions of the calls it is built on. -/
inductive TrustError where
  | trust (text : String)
  /-- `OSError` and its subclasses. -/
  | os (text : String)
  /-- `ValueError` and its subclasses. -/
  | value (text : String)
  /-- `TypeError`, `AttributeError`. -/
  | type (text : String)
  deriving DecidableEq, Repr

/-- What `_trust_record` says of a public key. -/
structure TrustRecord where
  keyId : String
  publicSha256 : String
  deriving DecidableEq, Repr

/-- The record as a dictionary. -/
def TrustRecord.fields (record : TrustRecord) : Dict :=
  [("schema", .str "capmesh.authority-trust.v1"), ("key_id", .str record.keyId),
    ("public_sha256", .str record.publicSha256)]

/-- `canonical(record) + b"\n"`. -/
def TrustRecord.encoded (record : TrustRecord) : List UInt8 :=
  ((Json.obj record.fields).canonicalText ++ "\n").toUTF8.data.toList

/-- The record of an Ed25519 key and its PEM text. -/
def TrustRecord.of (rt : Runtime) (key publicPem : List UInt8) : TrustRecord :=
  ⟨"ed25519:sha256:" ++ rt.sha256 key, "sha256:" ++ rt.sha256 publicPem⟩

/-- What the trust files take from the libraries: the PEM forms of keys, the check of a signature,
`base64.urlsafe_b64decode` and `json.loads`. The PEM forms that the library writes are forms that it
reads back, and so is the text of the trust record of a key. -/
structure TrustLibrary extends Runtime where
  loadPrivatePem : List UInt8 → Option LoadedKey
  loadPublicPem : List UInt8 → Option LoadedKey
  privatePem : List UInt8 → List UInt8
  publicPem : List UInt8 → List UInt8
  /-- `private.public_key()`. -/
  publicOf : List UInt8 → List UInt8
  /-- `public.verify(signature, message)`. -/
  verify : List UInt8 → List UInt8 → List UInt8 → Bool
  urlsafeB64decode : String → Option (List UInt8)
  /-- `json.loads(data)`, which raises a `ValueError` on what is no JSON text. -/
  loads : List UInt8 → Except TrustError Json
  load_private_pem : ∀ key, loadPrivatePem (privatePem key) = some (.ed25519 key)
  load_public_pem : ∀ key, loadPublicPem (publicPem (publicOf key)) = some (.ed25519 (publicOf key))
  loads_record : ∀ pem key, loadPublicPem pem = some (.ed25519 key) →
    loads (TrustRecord.of toRuntime key pem).encoded =
      .ok (Json.obj (TrustRecord.of toRuntime key pem).fields).canonical

/-- The kind of a directory entry. -/
inductive EntryKind where
  | regular
  | directory
  | symlink (toDirectory : Bool)
  | other
  deriving DecidableEq, Repr

/-- What `lstat` tells of an entry. -/
structure Entry where
  kind : EntryKind
  owner : Nat
  mode : Nat
  deriving DecidableEq, Repr

/-- A file: its entry and its bytes. -/
structure TrustFile extends Entry where
  data : List UInt8
  deriving DecidableEq, Repr

/-- A protected directory: its own entry, the files of interest, the temporary files by target and
random part, the lock file, and the call that holds the lock. -/
structure TrustDirectory (Name : Type) where
  parent : Option Entry
  files : Name → Option TrustFile
  temps : Name × String → Option TrustFile
  lockFile : Option Entry
  holder : Option Nat

/-- The process that works on a directory: its effective user, its umask, and the text of the
path of each file. -/
structure Caller (Name : Type) where
  euid : Nat
  umask : Nat
  path : Name → String

/-- A process on a protected directory. -/
abbrev TrustProcess (Name : Type) := Process (TrustDirectory Name) TrustError

/-- The mode of a new file: the requested bits that the umask does not take away. -/
def maskedMode (mode umask : Nat) : Nat := mode ^^^ (mode &&& umask)

/-- The permission bits of a mode. -/
def permissions (mode : Nat) : Nat := mode &&& 0o7777

/-- `{mode:04o}`. -/
def octal (mode : Nat) : String :=
  let digit (n : Nat) : Char := Char.ofNat (48 + n % 8)
  String.ofList [digit (mode / 512), digit (mode / 64), digit (mode / 8), digit mode]

section

variable {Name : Type} (caller : Caller Name)

/-- The entry of the directory after `path.mkdir(parents=True, exist_ok=True, mode=0o700)`. -/
def madeParent : Option Entry → Option Entry
  | none => some ⟨.directory, caller.euid, maskedMode 0o700 caller.umask⟩
  | some entry => some entry

/-- `exist_ok`: what is there must be a directory. -/
def checkMade : Option Entry → Except TrustError Unit
  | none => .ok ()
  | some entry =>
      if entry.kind = .directory ∨ entry.kind = .symlink true then .ok ()
      else .error (.os "File exists")

/-- `path.mkdir(parents=True, exist_ok=True, mode=0o700)`. -/
def makeDirectory : TrustProcess Name Unit :=
  .attempt (fun state => { state with parent := madeParent caller state.parent })
    fun state => checkMade state.parent

/-- What `_assert_parent` asks of the entry of the directory. -/
def checkParent : Option Entry → Except TrustError Unit
  | none => .error (.os "No such file or directory")
  | some entry =>
      if entry.kind ≠ .directory ∨ entry.owner ≠ caller.euid then
        .error (.trust "authority key directory is not owner-controlled")
      else if permissions entry.mode &&& 0o077 ≠ 0 then
        .error (.trust "authority key directory must be mode 0700")
      else .ok ()

/-- `_assert_parent`. -/
def assertParent : TrustProcess Name Unit := do
  makeDirectory caller
  .attempt id fun state => checkParent caller state.parent

/-- What `_read_regular` asks of an entry. -/
def checkRegular (path : String) (exactMode : Nat) : Option TrustFile → Except TrustError Unit
  | none => .error (.trust ("required trust file is missing: " ++ path))
  | some file =>
      if file.kind ≠ .regular ∨ file.owner ≠ caller.euid then
        .error (.trust ("trust file is not an owner-controlled regular file: " ++ path))
      else if permissions file.mode ≠ exactMode then
        .error (.trust ("trust file mode must be " ++ octal exactMode ++ ": " ++ path))
      else .ok ()

/-- `path.read_bytes()`. -/
def readBytes : Option TrustFile → Except TrustError (List UInt8)
  | none => .error (.os "No such file or directory")
  | some file => .ok file.data

/-- `_read_regular`: the entry first, then the bytes. -/
def readRegular (name : Name) (exactMode : Nat) : TrustProcess Name (List UInt8) := do
  .attempt id fun state => checkRegular caller (caller.path name) exactMode (state.files name)
  .attempt id fun state => readBytes (state.files name)

/-- `path.exists() or path.is_symlink()`. -/
def lexists (name : Name) : TrustProcess Name Bool := .look fun state => (state.files name).isSome

variable [DecidableEq Name]

namespace TrustDirectory

variable (state : TrustDirectory Name)

/-- Put a temporary file, or take it away. -/
def setTemp (temp : Name × String) (file : Option TrustFile) : TrustDirectory Name :=
  { state with temps := Function.update state.temps temp file }

/-- `os.replace(temp, path)`: the temporary file becomes the file of this name. -/
def replace (temp : Name × String) : TrustDirectory Name :=
  match state.temps temp with
  | none => state
  | some file =>
      { state with
        files := Function.update state.files temp.1 (some file)
        temps := Function.update state.temps temp none }

end TrustDirectory

/-- `os.open(temp, O_WRONLY | O_CREAT | O_EXCL | O_NOFOLLOW, mode)`. -/
def createTemp (temp : Name × String) (mode : Nat) : TrustProcess Name Unit :=
  .attempt
    (fun state =>
      if (state.temps temp).isSome then state
      else state.setTemp temp (some ⟨⟨.regular, caller.euid, maskedMode mode caller.umask⟩, []⟩))
    (fun state => if (state.temps temp).isSome then .error (.os "File exists") else .ok ())

/-- An operation on a temporary file by its path, which must be there. -/
def onTemp (temp : Name × String) (effect : TrustDirectory Name → TrustDirectory Name) :
    TrustProcess Name Unit :=
  .attempt effect fun state =>
    if (state.temps temp).isSome then .ok () else .error (.os "No such file or directory")

/-- `handle.write(data)`, through the descriptor. -/
def writeTemp (temp : Name × String) (data : List UInt8) : TrustProcess Name Unit :=
  .change fun state => state.setTemp temp ((state.temps temp).map fun file => { file with data })

/-- `os.chmod(temp, mode)`. -/
def chmodTemp (temp : Name × String) (mode : Nat) : TrustProcess Name Unit :=
  onTemp temp fun state => state.setTemp temp ((state.temps temp).map fun file => { file with mode })

/-- `if temp.exists(): temp.unlink()`. -/
def unlinkTemp (temp : Name × String) : TrustProcess Name Unit := do
  if ← .look fun state => (state.temps temp).isSome then
    onTemp temp fun state => state.setTemp temp none

/-- `_atomic_write`; `token` is the random part of the temporary name. The calls of `fsync` change
nothing that a process sees. -/
def atomicWrite (token : String) (name : Name) (data : List UInt8) (mode : Nat) :
    TrustProcess Name Unit := do
  assertParent caller
  createTemp caller (name, token) mode
  Process.ensure
    (do
      writeTemp (name, token) data
      chmodTemp (name, token) mode
      onTemp (name, token) fun state => state.replace (name, token))
    (unlinkTemp (name, token))

end

/-- A directory that passes `_assert_parent` is there. -/
theorem directory_of_check_parent {Name : Type} {caller : Caller Name} {parent : Option Entry}
    (h : checkParent caller parent = .ok ()) :
    ∃ entry, parent = some entry ∧ entry.kind = .directory := by
  cases parent with
  | none => cases h
  | some entry =>
      refine ⟨entry, rfl, ?_⟩
      by_contra hne
      simp [checkParent, hne] at h

/-! ### A directory that nobody else touches -/

/-- While `holds`, the others leave everything but the lock file as it is, and a step that touches
temporary files alone is within the guarantee. -/
structure Quiet {Name : Type} (rely guar : TrustDirectory Name → TrustDirectory Name → Prop)
    (holds : TrustDirectory Name → Prop) : Prop where
  stays : ∀ state, rely state state
  same : ∀ {a b}, holds a → rely a b → holds b ∧ ∃ lockFile, b = { a with lockFile }
  drafts : ∀ {a} temps, holds a → guar a { a with temps } ∧ holds { a with temps }

namespace Quiet

variable {Name : Type} {caller : Caller Name}
  {rely guar : TrustDirectory Name → TrustDirectory Name → Prop}
  {holds : TrustDirectory Name → Prop} {α : Type} {state : TrustDirectory Name}
  {post : Except TrustError α → TrustDirectory Name → Prop}

theorem reads (q : Quiet rely guar holds) (h : holds state) : guar state state :=
  (q.drafts state.temps h).1

theorem act (q : Quiet rely guar holds) {ready : TrustDirectory Name → Bool}
    {effect : TrustDirectory Name → TrustDirectory Name}
    {next : TrustDirectory Name → TrustProcess Name α} (h : holds state)
    (hstep : ∀ lockFile, holds { state with lockFile } →
      guar { state with lockFile } (effect { state with lockFile }) ∧
        (next { state with lockFile }).Meets rely guar post (effect { state with lockFile })) :
    (Process.act ready effect next).Meets rely guar post state := by
  intro later hrely _
  obtain ⟨hlater, lockFile, rfl⟩ := q.same h hrely
  exact hstep lockFile hlater

theorem read (q : Quiet rely guar holds) {next : TrustDirectory Name → TrustProcess Name α}
    (h : holds state)
    (hnext : ∀ lockFile, holds { state with lockFile } →
      (next { state with lockFile }).Meets rely guar post { state with lockFile }) :
    (Process.act (fun _ => true) id next).Meets rely guar post state :=
  q.act h fun lockFile hlater => ⟨q.reads hlater, hnext lockFile hlater⟩

/-- An end that holds of the directory as it is, whatever the lock file, is reached. -/
theorem done (q : Quiet rely guar holds) {value : α} (h : holds state)
    (hpost : ∀ lockFile, holds { state with lockFile } →
      post (.ok value) { state with lockFile }) :
    (Process.done value : TrustProcess Name α).Meets rely guar post state := by
  intro later hrely
  obtain ⟨hlater, lockFile, rfl⟩ := q.same h hrely
  exact hpost lockFile hlater

theorem failed (q : Quiet rely guar holds) {failure : TrustError} (h : holds state)
    (hpost : ∀ lockFile, holds { state with lockFile } →
      post (.error failure) { state with lockFile }) :
    (Process.failed failure : TrustProcess Name α).Meets rely guar post state := by
  intro later hrely
  obtain ⟨hlater, lockFile, rfl⟩ := q.same h hrely
  exact hpost lockFile hlater

/-- A read that may fail ends with what it makes of the directory. -/
theorem attempt (q : Quiet rely guar holds) {readOff : TrustDirectory Name → Except TrustError α}
    (outcome : Except TrustError α) (h : holds state)
    (houtcome : ∀ lockFile, readOff { state with lockFile } = outcome) :
    (Process.attempt id readOff : TrustProcess Name α).Meets rely guar
      (fun result last => result = outcome ∧ holds last ∧ ∃ lockFile, last = { state with lockFile })
      state := by
  refine q.read h fun lockFile hlater => ?_
  simp only [houtcome lockFile]
  cases outcome with
  | ok value => exact q.done hlater fun other hother => ⟨rfl, hother, other, rfl⟩
  | error failure => exact q.failed hlater fun other hother => ⟨rfl, hother, other, rfl⟩

/-- `_read_regular` on a directory that nobody else touches. -/
theorem read_regular (q : Quiet rely guar holds) (name : Name) (mode : Nat) (h : holds state) :
    (readRegular caller name mode).Meets rely guar
      (fun result last =>
        result = ((checkRegular caller (caller.path name) mode (state.files name)).bind fun _ =>
          readBytes (state.files name)) ∧
        holds last ∧ ∃ lockFile, last = { state with lockFile }) state := by
  refine (q.attempt (checkRegular caller (caller.path name) mode (state.files name)) h
    fun _ => rfl).bind (fun value last hlast => ?_) fun failure last hlast => ?_
  · obtain ⟨hcheck, hheld, lockFile, rfl⟩ := hlast last (q.stays last)
    refine (q.attempt (readBytes (state.files name)) hheld fun _ => rfl).mono ?_
    intro result ended hended
    obtain ⟨hresult, hholds, other, hother⟩ := hended
    exact ⟨by rw [hresult, ← hcheck]; rfl, hholds, other, hother⟩
  · obtain ⟨hcheck, hrest⟩ := hlast
    exact ⟨by rw [← hcheck]; rfl, hrest⟩

/-- A directory that is there is not made again. -/
theorem make_directory (q : Quiet rely guar holds) (h : holds state)
    (hparent : checkParent caller state.parent = .ok ()) :
    (makeDirectory caller).Meets rely guar
      (fun result last => result = .ok () ∧ holds last ∧ ∃ lockFile, last = { state with lockFile })
      state := by
  obtain ⟨entry, hentry, hkind⟩ := directory_of_check_parent hparent
  have hmade : madeParent caller state.parent = state.parent := by rw [hentry]; rfl
  have hcheck : checkMade state.parent = .ok () := by simp [hentry, checkMade, hkind]
  refine q.act h fun lockFile hlater => ?_
  simp only [hmade, hcheck]
  exact ⟨q.reads hlater, q.done hlater fun other hother => ⟨rfl, hother, other, rfl⟩⟩

/-- `_assert_parent` passes again on a directory that has passed it. -/
theorem assert_parent (q : Quiet rely guar holds) (h : holds state)
    (hparent : checkParent caller state.parent = .ok ()) :
    (assertParent caller).Meets rely guar
      (fun result last => result = .ok () ∧ holds last ∧ ∃ lockFile, last = { state with lockFile })
      state := by
  refine (q.make_directory h hparent).bind (fun value last hlast => ?_) fun failure last hlast => ?_
  · obtain ⟨-, hheld, lockFile, rfl⟩ := hlast last (q.stays last)
    refine (q.attempt (.ok ()) hheld fun _ => hparent).mono ?_
    intro result ended hended
    obtain ⟨hresult, hholds, other, hother⟩ := hended
    exact ⟨hresult, hholds, other, hother⟩
  · exact nomatch hlast.1

/-- Between the creation of a temporary file and its renaming: the directory is the one of before,
with this temporary file. -/
structure Drafted (holds : TrustDirectory Name → Prop) (state : TrustDirectory Name)
    (temp : Name × String) (file : TrustFile) (last : TrustDirectory Name) : Prop where
  held : holds last
  parent : last.parent = state.parent
  files : last.files = state.files
  draft : last.temps temp = some file

variable {temp : Name × String} {file : TrustFile} {last : TrustDirectory Name}

theorem Drafted.relocked (h : Drafted holds state temp file last) {lockFile : Option Entry}
    (hheld : holds { last with lockFile }) :
    Drafted holds state temp file { last with lockFile } := ⟨hheld, h.parent, h.files, h.draft⟩

variable [DecidableEq Name]

/-- The temporary file changes, and nothing else. -/
theorem Drafted.redrafted (q : Quiet rely guar holds) (h : Drafted holds state temp file last)
    (new : TrustFile) : guar last (last.setTemp temp (some new)) ∧
      Drafted holds state temp new (last.setTemp temp (some new)) := by
  obtain ⟨hguar, hheld⟩ := q.drafts (Function.update last.temps temp (some new)) h.held
  exact ⟨hguar, hheld, h.parent, h.files, Function.update_self ..⟩

theorem create_temp (q : Quiet rely guar holds) (mode : Nat) (h : holds state) :
    (createTemp caller temp mode).Meets rely guar
      (fun result last => match result with
        | .ok _ => Drafted holds state temp
            ⟨⟨.regular, caller.euid, maskedMode mode caller.umask⟩, []⟩ last
        | .error failure => failure = .os "File exists" ∧ holds last ∧
            last.parent = state.parent ∧ last.files = state.files) state := by
  refine q.act h fun lockFile hlater => ?_
  cases htemp : state.temps temp with
  | some file =>
      simp only [htemp, Option.isSome_some, if_true]
      exact ⟨q.reads hlater, q.failed hlater fun other hother => ⟨rfl, hother, rfl, rfl⟩⟩
  | none =>
      simp only [htemp, Option.isSome_none, Bool.false_eq_true, if_false]
      obtain ⟨hguar, hheld⟩ := q.drafts (Function.update state.temps temp
        (some ⟨⟨.regular, caller.euid, maskedMode mode caller.umask⟩, []⟩)) hlater
      exact ⟨hguar, q.done hheld fun other hother =>
        ⟨hother, rfl, rfl, Function.update_self ..⟩⟩

theorem write_temp (q : Quiet rely guar holds) (data : List UInt8)
    (h : Drafted holds state temp file last) :
    (writeTemp temp data).Meets rely guar (fun result later => result = .ok () ∧
      Drafted holds state temp { file with data } later) last := by
  refine q.act h.held fun lockFile hlater => ?_
  simp only [h.draft, Option.map_some]
  obtain ⟨hguar, hdrafted⟩ := (h.relocked hlater).redrafted q { file with data }
  exact ⟨hguar, q.done hdrafted.held fun other hother => ⟨rfl, hdrafted.relocked hother⟩⟩

theorem chmod_temp (q : Quiet rely guar holds) (mode : Nat)
    (h : Drafted holds state temp file last) :
    (chmodTemp temp mode).Meets rely guar (fun result later => result = .ok () ∧
      Drafted holds state temp { file with mode } later) last := by
  refine q.act h.held fun lockFile hlater => ?_
  simp only [h.draft, Option.map_some, Option.isSome_some, if_true]
  obtain ⟨hguar, hdrafted⟩ := (h.relocked hlater).redrafted q { file with mode }
  exact ⟨hguar, q.done hdrafted.held fun other hother => ⟨rfl, hdrafted.relocked hother⟩⟩

/-- The renaming makes the temporary file the file of the name. -/
theorem replace_temp (q : Quiet rely guar holds) (h : Drafted holds state temp file last)
    (hreplace : ∀ a, holds a → a.parent = state.parent → a.files = state.files →
      ∀ temps, guar a { a with files := Function.update a.files temp.1 (some file), temps } ∧
        holds { a with files := Function.update a.files temp.1 (some file), temps }) :
    (onTemp temp fun state => state.replace temp).Meets rely guar
      (fun result later => result = .ok () ∧ holds later ∧ later.parent = state.parent ∧
        later.files = Function.update state.files temp.1 (some file)) last := by
  refine q.act h.held fun lockFile hlater => ?_
  obtain ⟨hguar, hheld⟩ := hreplace { last with lockFile } hlater h.parent h.files
    (Function.update last.temps temp none)
  simp only [TrustDirectory.replace, h.draft, Option.isSome_some, if_true]
  refine ⟨hguar, q.done hheld fun other hother => ⟨rfl, hother, h.parent, ?_⟩⟩
  rw [← h.files]

/-- The last `unlink` leaves the files of interest as they are. -/
theorem unlink_temp (q : Quiet rely guar holds) (h : holds last) :
    (unlinkTemp temp).Meets rely guar (fun result later => result = .ok () ∧ holds later ∧
      later.parent = last.parent ∧ later.files = last.files) last := by
  refine q.read h fun lockFile hlater => ?_
  cases htemp : last.temps temp with
  | none =>
      simp only [Process.done_bind, htemp, Option.isSome_none, Bool.false_eq_true, if_false]
      exact q.done hlater fun other hother => ⟨rfl, hother, rfl, rfl⟩
  | some file =>
      simp only [Process.done_bind, htemp, Option.isSome_some, if_true]
      refine q.act hlater fun other hother => ?_
      obtain ⟨hguar, hheld⟩ := q.drafts (Function.update last.temps temp none) hother
      simp only [htemp, Option.isSome_some, if_true]
      exact ⟨hguar, q.done hheld fun final hfinal => ⟨rfl, hfinal, rfl, rfl⟩⟩

/-- The three steps on the temporary file, up to its renaming. -/
theorem filled (q : Quiet rely guar holds) {name : Name} {token : String} {data : List UInt8}
    {mode : Nat} (h : Drafted holds state (name, token) file last)
    (hreplace : ∀ a, holds a → a.parent = state.parent → a.files = state.files → ∀ temps,
      guar a { a with
        files := Function.update a.files name (some { file with data, mode }), temps } ∧
      holds { a with
        files := Function.update a.files name (some { file with data, mode }), temps }) :
    (do
      writeTemp (name, token) data
      chmodTemp (name, token) mode
      onTemp (name, token) fun state => state.replace (name, token)
      : TrustProcess Name Unit).Meets rely guar
      (fun result later => result = .ok () ∧ holds later ∧ later.parent = state.parent ∧
        later.files = Function.update state.files name (some { file with data, mode })) last := by
  refine (q.write_temp data h).bind (fun _ written hwritten => ?_) fun failure written hwritten => ?_
  swap
  · exact nomatch hwritten.1
  have hwrote := (hwritten written (q.stays written)).2
  refine (q.chmod_temp mode hwrote).bind (fun _ set hset => ?_) fun failure set hset => ?_
  swap
  · exact nomatch hset.1
  exact q.replace_temp (hset set (q.stays set)).2 hreplace

/-- `_atomic_write` on a directory that nobody else touches: the file is there with its bytes and
its mode, or the temporary name was taken and nothing has changed. -/
theorem atomic_write (q : Quiet rely guar holds) {token : String} {name : Name}
    {data : List UInt8} {mode : Nat} (h : holds state)
    (hparent : checkParent caller state.parent = .ok ())
    (hreplace : ∀ a, holds a → a.parent = state.parent → a.files = state.files → ∀ temps,
      guar a { a with
        files := Function.update a.files name (some ⟨⟨.regular, caller.euid, mode⟩, data⟩), temps } ∧
      holds { a with
        files := Function.update a.files name (some ⟨⟨.regular, caller.euid, mode⟩, data⟩), temps }) :
    (atomicWrite caller token name data mode).Meets rely guar
      (fun result last => holds last ∧ last.parent = state.parent ∧ match result with
        | .ok _ => last.files =
            Function.update state.files name (some ⟨⟨.regular, caller.euid, mode⟩, data⟩)
        | .error failure => failure = .os "File exists" ∧ last.files = state.files) state := by
  refine (q.assert_parent h hparent).bind (fun _ last hlast => ?_) fun failure last hlast => ?_
  swap
  · exact nomatch hlast.1
  obtain ⟨-, hheld, lockFile, rfl⟩ := hlast last (q.stays last)
  refine (q.create_temp mode hheld).bind (fun _ last hlast => ?_) fun failure last hlast => ?_
  swap
  · exact ⟨hlast.2.1, hlast.2.2.1, hlast.1, hlast.2.2.2⟩
  refine (q.filled (hlast last (q.stays last)) hreplace).ensure fun outcome ended hended => ?_
  obtain ⟨rfl, hheld, hparent, hfiles⟩ := hended ended (q.stays ended)
  refine (q.unlink_temp hheld).mono fun result later hlater => ?_
  obtain ⟨rfl, hlast, hsame, hkept⟩ := hlater
  exact ⟨hlast, hsame.trans hparent, hkept.trans hfiles⟩

end Quiet

section

variable (lib : TrustLibrary)

/-- `_public_from_pem`. -/
def publicFromPem (data : List UInt8) : Except TrustError (List UInt8) :=
  match lib.loadPublicPem data with
  | none => .error (.trust "authority public key PEM is invalid")
  | some .other => .error (.trust "authority public key is not Ed25519")
  | some (.ed25519 key) => .ok key

/-- `_trust_record`, with `key_id`. -/
def trustRecord (publicPem : List UInt8) : Except TrustError TrustRecord := do
  let key ← publicFromPem lib publicPem
  pure (.of lib.toRuntime key publicPem)

end

/-! ### A library of known keys -/

/-- The PEM texts of some keys; no two keys share one, and every text starts with a dash. -/
structure PemTable where
  entries : List (List UInt8 × List UInt8)
  dashed : ∀ entry ∈ entries, entry.2.head? = some 45
  apart : ∀ entry ∈ entries, ∀ other ∈ entries, entry.2 = other.2 → entry = other

namespace PemTable

variable (table : PemTable)

/-- The PEM text of a key; a key outside the table is written as a zero and its bytes. -/
def pem (key : List UInt8) : List UInt8 :=
  match table.entries.find? fun entry => entry.1 = key with
  | some entry => entry.2
  | none => 0 :: key

/-- The key of a text that `pem` writes. -/
def load (data : List UInt8) : Option LoadedKey :=
  match table.entries.find? fun entry => entry.2 = data with
  | some entry => some (.ed25519 entry.1)
  | none =>
      match data with
      | 0 :: key => some (.ed25519 key)
      | _ => none

theorem load_pem (key : List UInt8) : table.load (table.pem key) = some (.ed25519 key) := by
  unfold load pem
  cases hkey : table.entries.find? fun entry => entry.1 = key with
  | some entry =>
      have hentry : entry.1 = key := by simpa using List.find?_some hkey
      have hmem := List.mem_of_find?_eq_some hkey
      cases hdata : table.entries.find? fun other => other.2 = entry.2 with
      | some other =>
          have hother : other.2 = entry.2 := by simpa using List.find?_some hdata
          have hsame := table.apart other (List.mem_of_find?_eq_some hdata) entry hmem hother
          simp only [hsame, hentry]
      | none =>
          have hnone := List.find?_eq_none.mp hdata entry hmem
          simp at hnone
  | none =>
      have hdata : table.entries.find? (fun entry => entry.2 = 0 :: key) = none := by
        refine List.find?_eq_none.mpr fun entry hmem => ?_
        have hdash := table.dashed entry hmem
        simp only [decide_eq_true_eq]
        intro hzero
        rw [hzero] at hdash
        cases hdash
      simp only [hdata]

end PemTable

/-- The record of an entry of a table of public keys. -/
def entryRecord (rt : Runtime) (entry : List UInt8 × List UInt8) : TrustRecord :=
  .of rt entry.1 entry.2

/-- A library that knows some public keys with their PEM texts, one of them the public key of every
private key, and some JSON documents beside the records of the keys. -/
def TrustLibrary.ofKeys (rt : Runtime) (privates : PemTable)
    (publics : List (List UInt8 × List UInt8)) (own : List UInt8 × List UInt8)
    (documents : List (List UInt8 × Json)) (verify : List UInt8 → List UInt8 → List UInt8 → Bool)
    (urlsafeB64decode : String → Option (List UInt8))
    (hown : publics.find? (fun entry => entry.2 = own.2) = some own)
    (hrecords : ∀ entry ∈ publics, ∀ other ∈ publics,
      (entryRecord rt entry).encoded = (entryRecord rt other).encoded → entry = other) :
    TrustLibrary where
  toRuntime := rt
  loadPrivatePem := privates.load
  loadPublicPem data := (publics.find? fun entry => entry.2 = data).map fun entry => .ed25519 entry.1
  privatePem := privates.pem
  publicPem key := if key = own.1 then own.2 else []
  publicOf _ := own.1
  verify
  urlsafeB64decode
  loads data :=
    match publics.find? fun entry => (entryRecord rt entry).encoded = data with
    | some entry => .ok (Json.obj (entryRecord rt entry).fields).canonical
    | none =>
        match documents.find? fun document => document.1 = data with
        | some document => .ok document.2
        | none => .error (.value "Expecting value: line 1 column 1 (char 0)")
  load_private_pem := privates.load_pem
  load_public_pem _ := by simp [hown]
  loads_record pem key h := by
    obtain ⟨entry, hentry, hkey⟩ := Option.map_eq_some_iff.mp h
    have hpem : entry.2 = pem := by simpa using List.find?_some hentry
    cases hkey
    subst hpem
    have hmem := List.mem_of_find?_eq_some hentry
    cases hfind : publics.find? fun other =>
        (entryRecord rt other).encoded = (TrustRecord.of rt entry.1 entry.2).encoded with
    | none =>
        exact absurd (decide_eq_true rfl) (List.find?_eq_none.mp hfind entry hmem)
    | some other =>
        have hfound := List.find?_some hfind
        have hencoded : (entryRecord rt other).encoded = (entryRecord rt entry).encoded :=
          of_decide_eq_true hfound
        rw [hrecords other (List.mem_of_find?_eq_some hfind) entry hmem hencoded]
        rfl

/-- `-----BEGIN …-----`, the body, and `-----END …-----`. -/
def pemText (label body : String) : List UInt8 :=
  ("-----BEGIN " ++ label ++ "-----\n" ++ body ++ "\n-----END " ++ label ++ "-----\n").toUTF8.data.toList

end Capmesh
