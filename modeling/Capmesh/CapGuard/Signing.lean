import Capmesh.Model.Platform

/-!
# The signing trust anchor

`signing.py`: the Ed25519 key file, the signed attestation envelope, and its
verification. Keys, signatures and public keys are the texts the code stores.
A `Crypto` fixes the primitives of the `cryptography` package; its laws are that a
public key has a key id and that a key's own signature verifies.
-/

namespace Capmesh

open Python

/-- The Ed25519 primitives on base64 texts. A text that does not decode has no key id and
verifies nothing. -/
structure Crypto where
  /-- The public key of a private key. -/
  publicKey : String → String
  /-- `key_id(base64.b64decode(public_key, validate=True))`. -/
  keyId : String → Option String
  /-- The signature of a private key on a text. -/
  sign : String → String → String
  /-- Whether a public key accepts a text and a signature. -/
  verify : String → String → String → Bool
  keyId_publicKey : ∀ key, (keyId (publicKey key)).isSome
  verify_sign : ∀ key text, verify (publicKey key) text (sign key text) = true

/-- A scheme for closed examples: a signature names its public key and repeats the text. -/
def Crypto.transparent : Crypto where
  publicKey key := "public:" ++ key
  keyId publicKey := some ("sha256:" ++ publicKey)
  sign key text := "public:" ++ key ++ "|" ++ text
  verify publicKey text signature := signature = publicKey ++ "|" ++ text
  keyId_publicKey _ := rfl
  verify_sign _ _ := by simp

/-- What stands at the signing key's path. A file that is not regular, has another mode than
0600, or holds no Ed25519 key is `unusable`. -/
inductive KeyFile where
  | absent
  | unusable
  | key (privateKey : String)
  deriving DecidableEq, Repr

/-- The signing key store of one deployment. -/
structure KeyStore where
  /-- Whether `CAPMESH_SIGNING_KEY_FILE` is set. -/
  configured : Bool
  file : KeyFile
  /-- Whether a new key file can be written. -/
  writable : Bool
  deriving DecidableEq, Repr

/-- A signed attestation as `sign_attestation` returns it. -/
structure SignedAttestation where
  algorithm : String
  keyId : String
  publicKey : String
  signature : String
  envelope : Json
  deriving DecidableEq, Repr

/-- `verify_attestation`: a trusted key id pins the embedded key, and without one any embedded
key is accepted. -/
def verifyAttestation (crypto : Crypto) (attestation : SignedAttestation)
    (trusted : Option String) : Bool :=
  if attestation.algorithm ≠ "Ed25519" then false
  else match crypto.keyId attestation.publicKey with
    | none => false
    | some id =>
        if attestation.keyId ≠ id then false
        else if trusted.any (fun pin => attestation.keyId ≠ pin) then false
        else crypto.verify attestation.publicKey attestation.envelope.canonicalText
          attestation.signature

namespace KeyStore

variable (p : Platform) (crypto : Crypto) (keys : KeyStore)

/-- `signing_key_path`: production has no default path. -/
def signingKeyPath : Except Failure Unit :=
  if keys.configured then .ok ()
  else if p.production then
    .error (.runtime
      "Production requires CAPMESH_SIGNING_KEY_FILE to reference an existing 0600 key.")
  else .ok ()

/-- `_read_private_key`. -/
def readPrivateKey : Except Failure String :=
  match keys.file with
  | .key privateKey => .ok privateKey
  | .absent => .error (.runtime "No such file or directory")
  | .unusable =>
      .error (.permission "Capmesh signing key must be a regular file with mode 0600")

/-- `load_or_create_signing_key`, with the key that would be generated. -/
def loadOrCreateSigningKey (persist : Bool) (fresh : String) :
    Except Failure (String × KeyStore) := do
  keys.signingKeyPath p
  match keys.file with
  | .key privateKey => .ok (privateKey, keys)
  | .unusable => do
      let privateKey ← keys.readPrivateKey
      .ok (privateKey, keys)
  | .absent =>
      if p.production then .error (.runtime "Production signing key does not exist")
      else if !persist then .ok (fresh, keys)
      else if keys.writable then .ok (fresh, { keys with file := .key fresh })
      else .error (.permission "Permission denied")

/-- `trusted_signing_key_id`, with every exception as `none`: its only caller in a release
catches them all. -/
def trustedSigningKeyId : Option String :=
  match keys.signingKeyPath p, keys.readPrivateKey with
  | .ok (), .ok privateKey => crypto.keyId (crypto.publicKey privateKey)
  | _, _ => none

end KeyStore

/-- `sign_attestation`. -/
def signAttestation (p : Platform) (crypto : Crypto) (keys : KeyStore) (envelope : Json)
    (persist : Bool) (fresh : String) : Except Failure (SignedAttestation × KeyStore) := do
  let (privateKey, keys) ← keys.loadOrCreateSigningKey p persist fresh
  let publicKey := crypto.publicKey privateKey
  let result : SignedAttestation :=
    { algorithm := "Ed25519"
      keyId := (crypto.keyId publicKey).getD ""
      publicKey
      signature := crypto.sign privateKey envelope.canonicalText
      envelope }
  if verifyAttestation crypto result (some result.keyId) then .ok (result, keys)
  else .error (.runtime "Newly signed provenance attestation did not verify.")

section

variable {p : Platform} {crypto : Crypto} {keys store : KeyStore} {envelope : Json}
variable {persist : Bool} {fresh : String} {signed : SignedAttestation} {privateKey : String}

theorem verify_attestation_iff (attestation : SignedAttestation) (trusted : Option String) :
    verifyAttestation crypto attestation trusted = true ↔
      attestation.algorithm = "Ed25519" ∧
        crypto.keyId attestation.publicKey = some attestation.keyId ∧
        (∀ pin, trusted = some pin → attestation.keyId = pin) ∧
        crypto.verify attestation.publicKey attestation.envelope.canonicalText
          attestation.signature = true := by
  unfold verifyAttestation
  by_cases halg : attestation.algorithm = "Ed25519"
  · rw [if_neg (by simpa using halg)]
    cases hid : crypto.keyId attestation.publicKey with
    | none => simp
    | some id =>
        by_cases hkey : attestation.keyId = id
        · cases trusted with
          | none => simp [halg, hkey]
          | some pin => by_cases hpin : id = pin <;> simp [halg, hkey, hpin]
        · simp [hkey, Ne.symm hkey]
  · simp [halg]

/-- What a pinned key accepts is accepted without the pin. -/
theorem verify_attestation_unpinned {attestation : SignedAttestation} {trusted : Option String}
    (h : verifyAttestation crypto attestation trusted = true) :
    verifyAttestation crypto attestation none = true := by
  rw [verify_attestation_iff] at h ⊢
  exact ⟨h.1, h.2.1, by simp, h.2.2.2⟩

theorem trusted_signing_key_id_eq {id : String}
    (h : keys.trustedSigningKeyId p crypto = some id) :
    ∃ privateKey, keys.file = .key privateKey ∧
      crypto.keyId (crypto.publicKey privateKey) = some id ∧ keys.signingKeyPath p = .ok () := by
  unfold KeyStore.trustedSigningKeyId KeyStore.readPrivateKey at h
  cases hpath : keys.signingKeyPath p with
  | error failure => simp [hpath] at h
  | ok resolved =>
      cases hfile : keys.file with
      | absent => simp [hpath, hfile] at h
      | unusable => simp [hpath, hfile] at h
      | key privateKey => exact ⟨privateKey, rfl, by simpa [hpath, hfile] using h, rfl⟩

/-- With a resolved trust anchor, loading the signing key reads that anchor's key and writes
nothing. -/
theorem load_signing_key_of_trusted (persist : Bool) (fresh : String) {id : String}
    (h : keys.trustedSigningKeyId p crypto = some id) :
    ∃ privateKey, keys.loadOrCreateSigningKey p persist fresh = .ok (privateKey, keys) ∧
      crypto.keyId (crypto.publicKey privateKey) = some id := by
  obtain ⟨privateKey, hfile, hid, hpath⟩ := trusted_signing_key_id_eq h
  refine ⟨privateKey, ?_, hid⟩
  simp [KeyStore.loadOrCreateSigningKey, hpath, hfile, bind, Except.bind]

theorem sign_attestation_of_load (crypto : Crypto) (envelope : Json)
    (h : keys.loadOrCreateSigningKey p persist fresh = .ok (privateKey, store)) :
    ∃ signed, signAttestation p crypto keys envelope persist fresh = .ok (signed, store) ∧
      signed.envelope = envelope ∧ signed.keyId = (crypto.keyId
    (crypto.publicKey privateKey)).getD "" ∧
      verifyAttestation crypto signed (some signed.keyId) = true := by
  obtain ⟨id, hid⟩ := Option.isSome_iff_exists.mp (crypto.keyId_publicKey privateKey)
  have hverify : verifyAttestation crypto
      ⟨"Ed25519", id, crypto.publicKey privateKey,
        crypto.sign privateKey envelope.canonicalText, envelope⟩ (some id) = true := by
    rw [verify_attestation_iff]
    exact ⟨rfl, hid, by simp, crypto.verify_sign _ _⟩
  refine ⟨⟨"Ed25519", id, crypto.publicKey privateKey,
    crypto.sign privateKey envelope.canonicalText, envelope⟩, ?_, rfl, by simp [hid], hverify⟩
  simp [signAttestation, h, bind, Except.bind, hid, hverify]

theorem sign_attestation_ok
    (h : signAttestation p crypto keys envelope persist fresh = .ok (signed, store)) :
    ∃ privateKey, keys.loadOrCreateSigningKey p persist fresh = .ok (privateKey, store) ∧
      signed.envelope = envelope ∧ verifyAttestation crypto signed (some signed.keyId) = true := by
  cases hload : keys.loadOrCreateSigningKey p persist fresh with
  | error failure => simp [signAttestation, hload, bind, Except.bind] at h
  | ok loaded =>
      obtain ⟨privateKey, other⟩ := loaded
      obtain ⟨result, hresult, henvelope, -, hverify⟩ :=
        sign_attestation_of_load crypto envelope hload
      rw [hresult] at h
      cases h
      exact ⟨privateKey, rfl, henvelope, hverify⟩

theorem sign_attestation_isOk (crypto : Crypto) (keys : KeyStore) (envelope : Json) (persist : Bool)
    (fresh : String) : (signAttestation p crypto keys envelope persist fresh).isOk =
      (keys.loadOrCreateSigningKey p persist fresh).isOk := by
  cases hload : keys.loadOrCreateSigningKey p persist fresh with
  | error failure =>
      unfold signAttestation
      rw [hload]
      rfl
  | ok loaded =>
      obtain ⟨signed, hsigned, -⟩ := sign_attestation_of_load crypto envelope hload
      rw [hsigned]
      rfl

/-- The ways to load a signing key: it is the stored one, a new one that is not stored, or a new
one that is. -/
theorem load_signing_key_cases (h : keys.loadOrCreateSigningKey p persist fresh = .ok
    (privateKey, store)) :
    keys.signingKeyPath p = .ok () ∧
      ((keys.file = .key privateKey ∧ store = keys) ∨
        (keys.file = .absent ∧ p.production = false ∧ privateKey = fresh ∧
          ((persist = false ∧ store = keys) ∨
            (persist = true ∧ keys.writable = true ∧
              store = { keys with file := .key fresh })))) := by
  unfold KeyStore.loadOrCreateSigningKey at h
  obtain ⟨resolved, hpath, h⟩ := bind_eq_ok h
  refine ⟨hpath, ?_⟩
  cases hfile : keys.file with
  | key stored =>
      simp only [hfile, Except.ok.injEq, Prod.mk.injEq] at h
      exact .inl ⟨congrArg _ h.1, h.2.symm⟩
  | unusable => simp [hfile, KeyStore.readPrivateKey, bind, Except.bind] at h
  | absent =>
      right
      simp only [hfile] at h
      cases hproduction : p.production with
      | true => simp [hproduction] at h
      | false =>
          cases hpersist : persist with
          | false =>
              simp only [hproduction, hpersist, Bool.false_eq_true, if_false, Bool.not_false,
                if_true, Except.ok.injEq, Prod.mk.injEq] at h
              exact ⟨rfl, rfl, h.1.symm, .inl ⟨rfl, h.2.symm⟩⟩
          | true =>
              cases hwritable : keys.writable with
              | false => simp [hproduction, hpersist, hwritable] at h
              | true =>
                  simp only [hproduction, hpersist, hwritable, Bool.false_eq_true, if_false,
                    Bool.not_true, if_true, Except.ok.injEq, Prod.mk.injEq] at h
                  exact ⟨rfl, rfl, h.1.symm, .inr ⟨rfl, rfl, h.2.symm⟩⟩

theorem signing_key_path_file (file : KeyFile) :
    ({ keys with file } : KeyStore).signingKeyPath p = keys.signingKeyPath p := rfl

theorem trusted_after_load (crypto : Crypto)
    (h : keys.loadOrCreateSigningKey p persist fresh = .ok (privateKey, store)) :
    store.trustedSigningKeyId p crypto = crypto.keyId (crypto.publicKey privateKey) ∨
      store.trustedSigningKeyId p crypto = none := by
  obtain ⟨hpath, ⟨hfile, rfl⟩ | ⟨hfile, -, rfl, ⟨-, rfl⟩ | ⟨-, -, rfl⟩⟩⟩ :=
    load_signing_key_cases h
  · exact .inl (by simp [KeyStore.trustedSigningKeyId, KeyStore.readPrivateKey, hpath, hfile])
  · exact .inr (by simp [KeyStore.trustedSigningKeyId, KeyStore.readPrivateKey, hfile])
  · exact .inl (by
      simp [KeyStore.trustedSigningKeyId, KeyStore.readPrivateKey, signing_key_path_file, hpath])

/-- A new signature verifies against the trust anchor of the key store it left. -/
theorem verify_after_sign
    (h : signAttestation p crypto keys envelope persist fresh = .ok (signed, store)) :
    verifyAttestation crypto signed (store.trustedSigningKeyId p crypto) = true := by
  obtain ⟨privateKey, hload, -, -⟩ := sign_attestation_ok h
  obtain ⟨result, hresult, -, hid, hverify⟩ :=
    sign_attestation_of_load crypto envelope hload
  rw [hresult] at h
  cases h
  rcases trusted_after_load crypto hload with htrust | htrust
  · obtain ⟨id, hsome⟩ := Option.isSome_iff_exists.mp (crypto.keyId_publicKey privateKey)
    rw [htrust, hsome]
    rw [hsome, Option.getD_some] at hid
    exact hid ▸ hverify
  · rw [htrust]
    exact verify_attestation_unpinned hverify

theorem load_again (second : String)
    (h : keys.loadOrCreateSigningKey p persist fresh = .ok (privateKey, store)) :
    ∃ again, store.loadOrCreateSigningKey p persist second = .ok again := by
  obtain ⟨hpath, ⟨hfile, rfl⟩ | ⟨hfile, hproduction, rfl, ⟨hpersist, rfl⟩ | ⟨-, -, rfl⟩⟩⟩ :=
    load_signing_key_cases h
  · exact ⟨(privateKey, store), by
      simp [KeyStore.loadOrCreateSigningKey, hpath, hfile, bind, Except.bind]⟩
  · exact ⟨(second, store), by
      simp [KeyStore.loadOrCreateSigningKey, hpath, hfile, hproduction, hpersist, bind,
        Except.bind]⟩
  · exact ⟨(privateKey, { keys with file := .key privateKey }), by
      simp [KeyStore.loadOrCreateSigningKey, signing_key_path_file, hpath, bind, Except.bind]⟩

end

end Capmesh
