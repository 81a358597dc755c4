import Decillion.HostRules
import Decillion.StorageReceipts

/-!
The storage engine. An upload encrypts under a fresh data key, stores the envelope under
its digest, wraps the data key and signs a receipt; it is a program over the host. A
download checks the receipt, the caller and the envelope and decrypts; it is a function
of the files.
-/
namespace Decillion.StorageEngine

open ByteText Base64Text Primitives PyErrors Programs HostSystem HostRules StorageReceipts

/-- The cryptographic functions of the engine. -/
structure Crypto where
  sha : Sha256
  aes : AesGcm
  ed : Ed25519

def Crypto.sample : Crypto := ⟨Sha256.sample, AesGcm.sample, Ed25519.sample⟩

inductive StorageError where
  | python (error : PyError)
  | integrity (message : String)
  | authorization (message : String)
  | attestation (message : String)
deriving DecidableEq

instance : PythonErrors StorageError := ⟨.python⟩

def valueError (message : String) : StorageError := .python (.valueError message)

structure LocalKeyProvider where
  masterKey : Bytes
  requireAttestation : Bool
  sized : masterKey.length = 32

structure SovereignStorage where
  root : Path
  keys : LocalKeyProvider
  privateKey : Bytes

def SovereignStorage.sample : SovereignStorage :=
  ⟨["objects"], ⟨octets 32 5, true, octets_length 32 5⟩, octets 32 9⟩

def magic : Bytes := encode "DECILLION" ++ [1]

/-- `SovereignStorage._context` -/
def context (sha : Sha256) (owner filename : String) : Bytes :=
  encode "decillion:v1" ++ [0] ++ encode owner ++ [0] ++ sha.digest (encode filename)

def checkNames (owner filename : String) : Except StorageError Unit :=
  if owner = "" ∨ 512 < owner.length then
    .error (valueError "owner is required and must be at most 512 characters")
  else if filename = "" ∨ 1024 < filename.length then
    .error (valueError "filename is required and must be at most 1024 characters")
  else .ok ()

def objectPath (root : Path) (objectId : String) : Path :=
  root ++ [slice objectId 0 2, slice objectId 2 4, objectId]

/-- `FileObjectStore._path` -/
def checkedPath (root : Path) (objectId : String) : Except StorageError Path :=
  if objectId.length ≠ 64 ∨ (chars objectId).all "0123456789abcdef".toList.contains = false then
    .error (valueError "object_id must be a lowercase SHA-256 digest")
  else .ok (objectPath root objectId)

/-- `attestation` is true as a condition. -/
def given (attestation : Option String) : Prop := attestation.getD "" ≠ ""

instance (attestation : Option String) : Decidable (given attestation) := by
  unfold given
  infer_instance

variable {F : Type} (crypto : Crypto)

/-- `LocalKeyProvider.wrap` -/
def wrap (keys : LocalKeyProvider) (dataKey context : Bytes) : Act F StorageError Bytes := do
  let nonce ← urandom 12
  return nonce ++ crypto.aes.encrypt keys.masterKey nonce dataKey context

/-- `LocalKeyProvider.unwrap` -/
def unwrap (keys : LocalKeyProvider) (wrappedKey context : Bytes) (attestation : Option String) :
    Except StorageError Bytes :=
  if keys.requireAttestation = true ∧ ¬ given attestation then
    .error (.attestation "valid attestation is required before key release")
  else if wrappedKey.length < 29 then .error (valueError "wrapped key is truncated")
  else (aesDecrypt crypto.aes keys.masterKey (wrappedKey.take 12) (wrappedKey.drop 12)
    context).mapError .python

/-- `FileObjectStore.put` -/
def putObject (root : Path) (objectId : String) (payload : Bytes) : Act F StorageError Unit := do
  let target ← fromExcept (checkedPath root objectId)
  replaceFile ".upload-" target payload

/-- `FileObjectStore.get` -/
def getObject (root : Path) (files : Path → Option Bytes) (objectId : String) :
    Except StorageError Bytes := do
  let target ← checkedPath root objectId
  match files target with
  | none => .error (.python .fileNotFound)
  | some payload => .ok payload

def upload (engine : SovereignStorage) (owner filename : String) (plaintext : Bytes) :
    Act F StorageError Receipt := do
  fromExcept (checkNames owner filename)
  let ctx := context crypto.sha owner filename
  let dataKey ← urandom 32
  let nonce ← urandom 12
  let ciphertext := crypto.aes.encrypt dataKey nonce plaintext ctx
  let payload := magic ++ nonce ++ ciphertext
  let objectId := crypto.sha.hexdigest payload
  let wrapped ← wrap crypto engine.keys dataKey ctx
  putObject engine.root objectId payload
  let now ← utcNow
  return signReceipt crypto.sha crypto.ed engine.privateKey
    (Receipt.create crypto.sha objectId owner filename plaintext.length payload.length wrapped now)

/-- The checks of `download` that come before the object is read. -/
def checkReceipt (engine : SovereignStorage) (receipt : Receipt) (owner filename : String) :
    Except StorageError Unit :=
  if verifyReceipt crypto.sha crypto.ed (crypto.ed.publicKey engine.privateKey) receipt = false then
    .error (.integrity "receipt signature verification failed")
  else if receipt.owner ≠ owner then
    .error (.authorization "receipt owner does not match caller")
  else if receipt.originalNameHash ≠ crypto.sha.hexdigest (encode filename) then
    .error (.authorization "filename binding does not match receipt")
  else .ok ()

def checkEnvelope (receipt : Receipt) (payload : Bytes) : Except StorageError Unit :=
  if crypto.sha.hexdigest payload ≠ receipt.objectId then
    .error (.integrity "stored ciphertext digest does not match receipt")
  else if ¬ magic <+: payload ∨ payload.length < magic.length + 28 then
    .error (.integrity "invalid encrypted-object envelope")
  else .ok ()

/-- `base64.urlsafe_b64decode(receipt.wrapped_key)` -/
def wrappedBytes (receipt : Receipt) : Except StorageError Bytes :=
  match urlsafeB64decode receipt.wrappedKey with
  | none => .error (valueError "")
  | some wrapped => .ok wrapped

/-- The decryption at the end of `download`. -/
def decryptPayload (dataKey payload context : Bytes) : Except StorageError Bytes :=
  let offset := magic.length
  match aesDecrypt crypto.aes dataKey ((payload.drop offset).take 12) (payload.drop (offset + 12))
    context with
  | .error .invalidTag => .error (.integrity "ciphertext authentication failed")
  | .error e => .error (.python e)
  | .ok plaintext => .ok plaintext

def download (engine : SovereignStorage) (files : Path → Option Bytes) (receipt : Receipt)
    (owner filename : String) (attestation : Option String) : Except StorageError Bytes := do
  checkReceipt crypto engine receipt owner filename
  let payload ← getObject engine.root files receipt.objectId
  checkEnvelope crypto receipt payload
  let ctx := context crypto.sha owner filename
  let wrapped ← wrappedBytes receipt
  let dataKey ← unwrap crypto engine.keys wrapped ctx attestation
  decryptPayload crypto dataKey payload ctx

/-- The object and the receipt that an upload makes of its arguments. -/
structure Enveloped (engine : SovereignStorage) (owner filename : String) (plaintext : Bytes)
    (receipt : Receipt) (payload : Bytes) : Prop where
  objectId : receipt.objectId = crypto.sha.hexdigest payload
  ownerField : receipt.owner = owner
  nameField : receipt.originalNameHash = crypto.sha.hexdigest (encode filename)
  sealed : ∃ dataKey nonce wrapNonce : Bytes,
    dataKey.length = 32 ∧ nonce.length = 12 ∧ wrapNonce.length = 12 ∧
      payload = magic ++ nonce ++
        crypto.aes.encrypt dataKey nonce plaintext (context crypto.sha owner filename) ∧
      receipt.wrappedKey = urlsafeB64encode (wrapNonce ++ crypto.aes.encrypt engine.keys.masterKey
        wrapNonce dataKey (context crypto.sha owner filename))

/-- A receipt signed by the engine for the object and the arguments of an upload. -/
structure Uploaded (engine : SovereignStorage) (owner filename : String) (plaintext : Bytes)
    (receipt : Receipt) (payload : Bytes) : Prop
    extends Enveloped crypto engine owner filename plaintext receipt payload where
  signed : receipt.signature =
    urlsafeB64encode (crypto.ed.sign engine.privateKey (receipt.digest crypto.sha))

variable {crypto} {engine : SovereignStorage} {owner filename : String} {plaintext payload : Bytes}
  {receipt : Receipt}

theorem checkedPath_hexdigest (sha : Sha256) (root : Path) (message : Bytes) :
    checkedPath root (sha.hexdigest message) = .ok (objectPath root (sha.hexdigest message)) := by
  have hdigit : ∀ d, d < 16 → "0123456789abcdef".toList.contains (Nat.digitChar d) = true := by
    decide
  have hchars :
      (chars (sha.hexdigest message)).all "0123456789abcdef".toList.contains = true := by
    rw [List.all_eq_true]
    intro c hc
    rw [chars_eq, Sha256.hexdigest, hex, String.toList_ofList] at hc
    obtain ⟨d, hd, rfl⟩ := mem_hexChars _ c hc
    exact hdigit d hd
  rw [checkedPath, if_neg]
  rintro (hlength | hall)
  · exact hlength (sha.hexdigest_length message)
  · rw [hchars] at hall
    exact absurd hall (by decide)

theorem isTemporary_objectPath (sha : Sha256) (root : Path) (message : Bytes) :
    isTemporary (objectPath root (sha.hexdigest message)) = false := by
  have hpath : objectPath root (sha.hexdigest message) = (root ++
      [slice (sha.hexdigest message) 0 2, slice (sha.hexdigest message) 2 4]) ++
      [sha.hexdigest message] := by
    simp [objectPath]
  rw [hpath]
  apply isTemporary_append
  simpa using sha.head_hexdigest message ""

theorem objectPath_injective (root : Path) (a b : String)
    (h : objectPath root a = objectPath root b) : a = b := by
  rw [objectPath, objectPath, List.append_cancel_left_eq] at h
  simp only [List.cons.injEq, and_true] at h
  exact h.2.2

theorem Enveloped.resigned (h : Enveloped crypto engine owner filename plaintext receipt payload)
    (signature : String) : Enveloped crypto engine owner filename plaintext
      { receipt with signature := signature } payload :=
  ⟨h.objectId, h.ownerField, h.nameField, h.sealed⟩

theorem Uploaded.verified (h : Uploaded crypto engine owner filename plaintext receipt payload) :
    verifyReceipt crypto.sha crypto.ed (crypto.ed.publicKey engine.privateKey) receipt = true := by
  have hreceipt : receipt = signReceipt crypto.sha crypto.ed engine.privateKey receipt := by
    cases receipt
    exact congrArg _ h.signed
  rw [hreceipt]
  exact verifyReceipt_signReceipt _ _ _ _

theorem getObject_ok (files : Path → Option Bytes) (message : Bytes) (root : Path)
    (hfile : files (objectPath root (crypto.sha.hexdigest message)) = some payload) :
    getObject root files (crypto.sha.hexdigest message) = .ok payload := by
  simp only [getObject, checkedPath_hexdigest, bind, Except.bind, hfile]

theorem decryptPayload_sealed (dataKey nonce ctx : Bytes) (hkey : dataKey.length = 32)
    (hnonce : nonce.length = 12) :
    decryptPayload crypto dataKey (magic ++ nonce ++ crypto.aes.encrypt dataKey nonce plaintext ctx)
      ctx = .ok plaintext := by
  have hslice : ((magic ++ nonce ++ crypto.aes.encrypt dataKey nonce plaintext ctx).drop
      magic.length).take 12 = nonce := by
    rw [List.append_assoc, List.drop_left, List.take_left' hnonce]
  have hrest : (magic ++ nonce ++ crypto.aes.encrypt dataKey nonce plaintext ctx).drop
      (magic.length + 12) = crypto.aes.encrypt dataKey nonce plaintext ctx := by
    rw [← hnonce, ← List.length_append, List.drop_left]
  rw [decryptPayload]
  simp only [hslice, hrest, aesDecrypt_encrypt crypto.aes dataKey nonce plaintext ctx hkey hnonce]

theorem unwrap_wrapped (dataKey wrapNonce ctx : Bytes) (hkey : dataKey.length = 32)
    (hnonce : wrapNonce.length = 12) (keys : LocalKeyProvider) (attestation : Option String) :
    unwrap crypto keys (wrapNonce ++ crypto.aes.encrypt keys.masterKey wrapNonce dataKey ctx) ctx
      attestation =
      if keys.requireAttestation = true ∧ ¬ given attestation then
        .error (.attestation "valid attestation is required before key release")
      else .ok dataKey := by
  have hlength : ¬ (wrapNonce ++ crypto.aes.encrypt keys.masterKey wrapNonce dataKey ctx).length
      < 29 := by
    rw [List.length_append, crypto.aes.encrypt_length]
    omega
  rw [unwrap, if_neg hlength, List.take_left' hnonce, List.drop_left' hnonce,
    aesDecrypt_encrypt crypto.aes _ _ _ _ keys.sized hnonce]
  rfl

theorem checkEnvelope_sealed (dataKey nonce ctx : Bytes) (hnonce : nonce.length = 12)
    (hid : receipt.objectId = crypto.sha.hexdigest (magic ++ nonce ++
      crypto.aes.encrypt dataKey nonce plaintext ctx)) :
    checkEnvelope crypto receipt (magic ++ nonce ++
      crypto.aes.encrypt dataKey nonce plaintext ctx) = .ok () := by
  rw [checkEnvelope, if_neg (by simp [hid]), if_neg]
  rintro (hmagic | hlength)
  · exact hmagic ⟨_, (List.append_assoc _ _ _).symm⟩
  · rw [List.length_append, List.length_append, crypto.aes.encrypt_length, hnonce] at hlength
    omega

/-- The object of an upload opens to the plaintext, whoever signs its receipt. -/
theorem download_enveloped
    (h : Enveloped crypto engine owner filename plaintext receipt payload)
    (files : Path → Option Bytes)
    (hfile : files (objectPath engine.root receipt.objectId) = some payload)
    (hverify : verifyReceipt crypto.sha crypto.ed (crypto.ed.publicKey engine.privateKey) receipt =
      true) (attestation : Option String) :
    download crypto engine files receipt owner filename attestation =
      if engine.keys.requireAttestation = true ∧ ¬ given attestation then
        .error (.attestation "valid attestation is required before key release")
      else .ok plaintext := by
  obtain ⟨dataKey, nonce, wrapNonce, hkey, hnonce, hwrap, rfl, hwrapped⟩ := h.sealed
  have hchecked : checkReceipt crypto engine receipt owner filename = .ok () := by
    rw [checkReceipt, hverify, if_neg (by simp), if_neg (by simp [h.ownerField]),
      if_neg (by simp [h.nameField])]
  have hread : getObject engine.root files receipt.objectId = .ok (magic ++ nonce ++
      crypto.aes.encrypt dataKey nonce plaintext (context crypto.sha owner filename)) := by
    rw [h.objectId] at hfile ⊢
    exact getObject_ok files _ engine.root hfile
  have hbytes : wrappedBytes receipt = .ok (wrapNonce ++ crypto.aes.encrypt engine.keys.masterKey
      wrapNonce dataKey (context crypto.sha owner filename)) := by
    rw [wrappedBytes, hwrapped, urlsafeB64decode_encode]
  simp only [download, hchecked, hread, hbytes, checkEnvelope_sealed dataKey nonce _ hnonce
    h.objectId, unwrap_wrapped dataKey wrapNonce _ hkey hwrap, bind, Except.bind]
  by_cases hmissing : engine.keys.requireAttestation = true ∧ ¬ given attestation
  · rw [if_pos hmissing, if_pos hmissing]
  rw [if_neg hmissing, if_neg hmissing]
  exact decryptPayload_sealed dataKey nonce _ hkey hnonce

/-- What every download has checked before it returns. -/
theorem download_ok (files : Path → Option Bytes) (attestation : Option String)
    (h : download crypto engine files receipt owner filename attestation = .ok plaintext) :
    verifyReceipt crypto.sha crypto.ed (crypto.ed.publicKey engine.privateKey) receipt = true ∧
      receipt.owner = owner ∧ receipt.originalNameHash = crypto.sha.hexdigest (encode filename) ∧
      ∃ payload, files (objectPath engine.root receipt.objectId) = some payload ∧
        crypto.sha.hexdigest payload = receipt.objectId := by
  obtain ⟨⟨⟩, hchecked, h⟩ := bind_eq_ok h
  obtain ⟨payload, hread, h⟩ := bind_eq_ok h
  obtain ⟨⟨⟩, henvelope, -⟩ := bind_eq_ok h
  obtain ⟨target, htarget, hread⟩ := bind_eq_ok hread
  have hpath : target = objectPath engine.root receipt.objectId := by
    rw [checkedPath] at htarget
    split at htarget
    · simp at htarget
    · exact (Except.ok.inj htarget).symm
  rw [hpath] at hread
  have hfile : files (objectPath engine.root receipt.objectId) = some payload := by
    cases hfile : files (objectPath engine.root receipt.objectId) with
    | none => simp [hfile] at hread
    | some value => simpa [hfile] using hread
  have hdigest : crypto.sha.hexdigest payload = receipt.objectId := by
    by_contra hne
    rw [checkEnvelope, if_pos hne] at henvelope
    simp at henvelope
  rw [checkReceipt] at hchecked
  split at hchecked
  · simp at hchecked
  split at hchecked
  · simp at hchecked
  split at hchecked
  · simp at hchecked
  rename_i hverify howner hname
  exact ⟨by simpa using hverify, not_not.mp howner, not_not.mp hname, payload, hfile, hdigest⟩

/-- A run has stored at most one object, under its digest. -/
def Stored (sha : Sha256) (root : Path) (s s' : Host) : Prop :=
  Unchanged s s' ∨ ∃ payload, Replaced s s' (objectPath root (sha.hexdigest payload)) payload

theorem holds_putObject {env : Env F} {crash : Host → Prop}
    {post : Except StorageError Unit → Host → Prop} (sha : Sha256) (root : Path) (payload : Bytes)
    (s : Host) (hcrash : ∀ s', Stored sha root s s' → crash s')
    (herror : ∀ e s', Unchanged s s' → post (.error e) s')
    (hok : ∀ s', Replaced s s' (objectPath root (sha.hexdigest payload)) payload →
      post (.ok ()) s') :
    Holds (handle env) crash post (putObject root (sha.hexdigest payload) payload) s := by
  apply holds_then
  rw [checkedPath_hexdigest]
  apply holds_fromExcept
  apply holds_replaceFile _ _ _ _ (by decide) (isTemporary_objectPath sha root payload)
  · exact fun s' h => hcrash s' (Or.inl h)
  · exact fun s' h => hcrash s' (Or.inr ⟨payload, h⟩)
  · exact herror
  · exact hok

/-- An upload raises before its object is stored, or it returns the receipt of the object. -/
theorem holds_upload {env : Env F} {crash : Host → Prop}
    {post : Except StorageError Receipt → Host → Prop} (engine : SovereignStorage)
    (owner filename : String) (plaintext : Bytes) (s : Host)
    (hcrash : ∀ s', Stored crypto.sha engine.root s s' → crash s')
    (herror : ∀ e s', Unchanged s s' → post (.error e) s')
    (hok : ∀ receipt payload s',
      Replaced s s' (objectPath engine.root receipt.objectId) payload →
      Uploaded crypto engine owner filename plaintext receipt payload → post (.ok receipt) s') :
    Holds (handle env) crash post (upload crypto engine owner filename plaintext) s := by
  have h₁ := unchanged_next s
  have h₂ := h₁.trans (unchanged_next s.next)
  have h₃ := h₂.trans (unchanged_next s.next.next)
  apply holds_then
  apply holds_fromExcept
  cases hnames : checkNames owner filename with
  | error e => exact herror e s (.rfl s)
  | ok _ =>
    apply holds_then
    apply holds_urandom _ _ (hcrash s (Or.inl (.rfl s)))
    · exact fun e => herror e _ h₁
    intro dataKey hdata
    apply holds_then
    apply holds_urandom _ _ (hcrash _ (Or.inl h₁))
    · exact fun e => herror e _ h₂
    intro nonce hnonce
    apply holds_then
    apply holds_then
    apply holds_urandom _ _ (hcrash _ (Or.inl h₂))
    · exact fun e => herror e _ h₃
    intro wrapNonce hwrap
    apply holds_pure
    apply holds_then
    apply holds_putObject
    · rintro s' (h | ⟨payload, h⟩)
      · exact hcrash s' (Or.inl (h₃.trans h))
      · exact hcrash s' (Or.inr ⟨payload, h₃.replaced h⟩)
    · exact fun e s' h => herror e s' (h₃.trans h)
    intro s₄ h
    have h₄ := h₃.replaced h
    apply holds_then
    apply holds_utcNow _ (hcrash s₄ (Or.inr ⟨_, h₄⟩))
    apply holds_pure
    refine hok _ (magic ++ nonce ++ crypto.aes.encrypt dataKey nonce plaintext
      (context crypto.sha owner filename)) s₄.next ?_ ⟨⟨rfl, rfl, rfl, ?_⟩, rfl⟩
    · exact h₄.unchanged (isTemporary_objectPath crypto.sha engine.root _) (unchanged_next s₄)
    · exact ⟨dataKey, nonce, wrapNonce, hdata, hnonce, hwrap, rfl, rfl⟩

end Decillion.StorageEngine
