import Decillion.JsonObjects
import Decillion.RawManifests
import Decillion.VaultRuns

/-!
What the vault returns after its files have been edited by someone without the passphrase.
Every accepted ciphertext was made by a call of `add_file`, for a block of its file under
the model id and the position in the associated data. So a shard that is read is that shard
of a file given under the model id; a stream that ends has decrypted shards of one call
only, but nothing says that they are all of them.
-/
namespace Decillion.EditedVaults

open ByteText Blocks JsonValues JsonObjects JsonText JsonStrings JsonRoundTrip Primitives PyErrors
  PyValues Programs HostSystem HostRules AccessRequests ShardManifests ShardVault VaultReads
  VaultWrites VaultRuns RawManifests

/-- A call of `add_file` that got as far as drawing its data key, at some tick of the host. -/
structure Upload (F : Type) where
  tick : ℕ
  size : ℕ
  positive : 0 < size
  call : AddFile F

variable {F : Type} [FloatText F] (crypto : Crypto) (root : Path) (env : Env F)

def Upload.dataKey (env : Env F) (u : Upload F) : Bytes := env.random u.tick 32

/-- The shards of the file. -/
def Upload.pieces (u : Upload F) : List Bytes := blocks u.size u.call.content

/-- The call asks first whether there is a manifest and draws its data key next. -/
def uploadOf (c : VaultCall F × ℕ) (s : Host) : List (Upload F) :=
  match c.1 with
  | .construct _ => []
  | .add size positive call =>
      if s.tick + 2 ≤ (runCall crypto root env c s).2.tick then
        [⟨s.tick + 1, size, positive, call⟩]
      else []

def uploads (s : Host) : List (VaultCall F × ℕ) → List (Upload F)
  | [] => []
  | c :: rest => uploadOf crypto root env c s ++ uploads (runCall crypto root env c s).2 rest

/-- The ciphertexts that are presented when a manifest is read were made by the calls: the one
of the wrapped key, under the master key of the vault, and under every data key those of the
shards. -/
structure Unforged (made : List (Upload F)) (vault : Host) (files : Files)
    (manifest : RawManifest F) : Prop where
  key : ∀ keyId blob text content master dataKey, manifest.keyId = .str keyId →
    files (keyPath root keyId) = some blob →
    checkPassphrase (passphrase env) = .ok text → vault.files (configPath root) = some content →
    deriveKey F crypto.scrypt text content = .ok master →
    crypto.aes.decrypt master (blob.take 12) (blob.drop 12) (encode keyId) = some dataKey →
    ∃ u ∈ made, u.dataKey env = dataKey ∧
      blob.drop 12 = crypto.aes.encrypt master (blob.take 12) dataKey (encode keyId)
  shard : ∀ u ∈ made, ∀ shard ∈ manifest.shards, ∀ hash blob plaintext,
    shard.ciphertextHash = .str hash → files (shardPath root hash) = some blob →
    crypto.aes.decrypt (u.dataKey env) (blob.take 12) (blob.drop 12)
      (rawAad manifest.modelId shard.index shard.plaintextHash) = some plaintext →
    ∃ v ∈ made, v.dataKey env = u.dataKey env ∧ ∃ i : ℕ, v.pieces[i]? = some plaintext ∧
      rawAad manifest.modelId shard.index shard.plaintextHash =
        aad v.call.modelId i (crypto.sha.hexdigest plaintext)

variable [FloatNumber F] {crypto root env} {str : Json F → String}

/-- No data key is drawn twice up to this tick. -/
def FreshKeys (env : Env F) (limit : ℕ) : Prop :=
  ∀ i, i < limit → ∀ j, j < limit → env.random i 32 = env.random j 32 → i = j

/-- The records of a manifest in the order of their indices. -/
def recordsInOrder (manifest : RawManifest F) : List (RawShard F) :=
  manifest.shards.insertionSort (fun a b => a.intIndex ≤ b.intIndex)

/-- The indices that a manifest lists name, one after the other, shards of the one file that
are the shards of the other, from the first one to the last. -/
def Lists (manifest : RawManifest F) (u p : Upload F) : Prop :=
  ∃ indices : List ℕ,
    (recordsInOrder manifest).map RawShard.index = indices.map (fun i : ℕ => Json.int i) ∧
      indices.map (fun i => u.pieces[i]?) = p.pieces.map some

/-- The manifest names the wrapped key of a call and lists its shards completely. -/
def Complete (crypto : Crypto) (root : Path) (env : Env F) (made : List (Upload F))
    (files : Files) (manifest : RawManifest F) (p : Upload F) : Prop :=
  ∃ u ∈ made, Lists manifest u p ∧ ∃ keyId, manifest.keyId = .str keyId ∧
    KeyStored F crypto root (passphrase env) files keyId (u.dataKey env)

section Samples

def sampleAddFile : VaultCall WholeFloat × ℕ :=
  (.add 2 two_positive (sampleFile "m" [1, 2, 3]), 100)

def otherAddFile : VaultCall WholeFloat × ℕ :=
  (.add 4 four_positive (sampleFile "n" [4, 5]), 100)

def sampleHistory : List (VaultCall WholeFloat × ℕ) :=
  [(.construct 4, 100), sampleAddFile, otherAddFile]

def sampleVault : Host := runCalls Crypto.sample ["vault"] sampleEnv Host.empty sampleHistory

def sampleUpload : Upload WholeFloat := ⟨9, 2, two_positive, sampleFile "m" [1, 2, 3]⟩

def otherUpload : Upload WholeFloat := ⟨43, 4, four_positive, sampleFile "n" [4, 5]⟩

def sampleConfig : Bytes :=
  encode (dumps (indented 2) (configJson (dashed (hex (octets 16 1))) (octets 16 2) 4) ++ "\n")

def sampleMaster : Bytes := Scrypt.sample.derive (octets 16 2) (encode "correct horse")

def sampleKeyId : String := "k_" ++ hex (octets 16 27)

def sampleWrapped : Bytes :=
  octets 12 29 ++ AesGcm.sample.encrypt sampleMaster (octets 12 29) (sampleUpload.dataKey sampleEnv)
    (encode sampleKeyId)

def firstSealed : Bytes × Shard :=
  sealShard Crypto.sample (sampleUpload.dataKey sampleEnv) "m" 0 [1, 2] (octets 12 11)

def secondSealed : Bytes × Shard :=
  sealShard Crypto.sample (sampleUpload.dataKey sampleEnv) "m" 1 [3] (octets 12 19)

def otherSealed : Bytes × Shard :=
  sealShard Crypto.sample (otherUpload.dataKey sampleEnv) "n" 0 [4, 5] (octets 12 45)

/-- The vault has its configuration and the wrapped key of the model, and the files of the listed
shards hold what is listed with them. -/
structure Holding (files : Files) (items : List (Bytes × Shard)) : Prop where
  config : files (configPath ["vault"]) = some sampleConfig
  key : files (keyPath ["vault"] sampleKeyId) = some sampleWrapped
  shards : ∀ item ∈ items, files (shardPath ["vault"] item.2.ciphertextHash) = some item.1

/-- What the calls have left behind. -/
theorem sampleVault_left :
    ((runCall Crypto.sample ["vault"] sampleEnv (.construct 4, 100) Host.empty).2.tick = 8 ∧
      (runCall Crypto.sample ["vault"] sampleEnv sampleAddFile
        (runCall Crypto.sample ["vault"] sampleEnv (.construct 4, 100) Host.empty).2).2.tick = 42 ∧
      sampleVault.tick = 68) ∧
    sampleVault.files (configPath ["vault"]) = some sampleConfig ∧
      sampleVault.files (keyPath ["vault"] sampleKeyId) = some sampleWrapped ∧
      ∀ item ∈ [firstSealed, secondSealed, otherSealed],
        sampleVault.files (shardPath ["vault"] item.2.ciphertextHash) = some item.1 := by
  decide +kernel

theorem deriveKey_sample :
    deriveKey WholeFloat Crypto.sample.scrypt "correct horse" sampleConfig = .ok sampleMaster :=
  deriveKey_configJson Crypto.sample.scrypt "correct horse" _ (octets 16 2) 4

theorem uploadOf_add {size : ℕ} {positive : 0 < size} {call : AddFile WholeFloat} {limit : ℕ}
    (s : Host) (hlate : s.tick + 2 ≤
      (runCall Crypto.sample ["vault"] sampleEnv (.add size positive call, limit) s).2.tick) :
    uploadOf Crypto.sample ["vault"] sampleEnv (.add size positive call, limit) s =
      [⟨s.tick + 1, size, positive, call⟩] :=
  if_pos hlate

theorem uploads_sample : uploads Crypto.sample ["vault"] sampleEnv Host.empty sampleHistory =
    [sampleUpload, otherUpload] := by
  obtain ⟨hfirst, hsecond, hlast⟩ := sampleVault_left.1
  rw [sampleVault, sampleHistory, runCalls, List.foldl_cons, List.foldl_cons, List.foldl_cons,
    List.foldl_nil, sampleAddFile, otherAddFile] at hlast
  rw [sampleAddFile] at hsecond
  rw [sampleHistory, uploads, uploads, uploads, uploads, sampleAddFile, otherAddFile,
    uploadOf_add _ (by rw [hfirst, hsecond]; decide),
    uploadOf_add _ (by rw [hsecond, hlast]; decide), hfirst, hsecond]
  rfl

/-- A manifest that someone else has written. -/
def editedManifest (items : List (Bytes × Shard)) : ModelManifest WholeFloat where
  modelId := "m"
  source := "elsewhere"
  license := "mit"
  sizeBytes := 3
  nShards := 7
  merkleRoot := ""
  keyId := sampleKeyId
  shards := items.map Prod.snd
  createdAt := ⟨0⟩
  metadata := []
  formatVersion := 1

section Edited

variable {files : Files} {items : List (Bytes × Shard)}

/-- What the file of a listed shard is decrypted to under the key of an upload. -/
def openedWith (u : Upload WholeFloat) (item : Bytes × Shard) : Option Bytes :=
  AesGcm.sample.decrypt (u.dataKey sampleEnv) (item.1.take 12) (item.1.drop 12)
    (aad "m" item.2.index item.2.plaintextHash)

/-- The plaintext is a shard of the upload, with the associated data that its call has given. -/
def Given (u : Upload WholeFloat) (item : Bytes × Shard) (plaintext : Bytes) : Prop :=
  ∃ i < u.pieces.length, u.pieces[i]? = some plaintext ∧
    aad "m" item.2.index item.2.plaintextHash =
      aad u.call.modelId i (Sha256.sample.hexdigest plaintext)

instance (u : Upload WholeFloat) (item : Bytes × Shard) (plaintext : Bytes) :
    Decidable (Given u item plaintext) := by
  unfold Given
  infer_instance

/-- Whatever the listed files are decrypted to was given to `add_file`. -/
theorem unforged_sample (h : Holding files items)
    (hgiven : ∀ u ∈ [sampleUpload, otherUpload], ∀ item ∈ items,
      ∀ plaintext ∈ openedWith u item, Given u item plaintext) :
    Unforged Crypto.sample ["vault"] sampleEnv
      (uploads Crypto.sample ["vault"] sampleEnv Host.empty sampleHistory)
      (runCalls Crypto.sample ["vault"] sampleEnv Host.empty sampleHistory) files
      (rawManifest (editedManifest items)) := by
  rw [uploads_sample]
  have htake : sampleWrapped.take 12 = octets 12 29 := List.take_left' (octets_length 12 29)
  have hdrop : sampleWrapped.drop 12 = AesGcm.sample.encrypt sampleMaster (octets 12 29)
      (sampleUpload.dataKey sampleEnv) (encode sampleKeyId) := List.drop_left' (octets_length 12 29)
  constructor
  · intro keyId blob text content master dataKey hid hblob htext hcontent hmaster hdecrypt
    obtain rfl : sampleKeyId = keyId := Json.str.inj hid
    obtain rfl : sampleWrapped = blob := Option.some.inj (h.key.symm.trans hblob)
    obtain rfl : "correct horse" = text := Except.ok.inj htext
    have hconfig := sampleVault_left.2.1
    rw [sampleVault] at hconfig
    obtain rfl : sampleConfig = content := Option.some.inj (hconfig.symm.trans hcontent)
    obtain rfl : sampleMaster = master := Except.ok.inj (deriveKey_sample.symm.trans hmaster)
    rw [htake, hdrop] at hdecrypt ⊢
    have hplain := AesGcm.sample.decrypt_encrypt sampleMaster (octets 12 29)
      (sampleUpload.dataKey sampleEnv) (encode sampleKeyId) (Scrypt.sample.derive_length _ _)
      (octets_length 12 29)
    obtain rfl : sampleUpload.dataKey sampleEnv = dataKey :=
      Option.some.inj (hplain.symm.trans hdecrypt)
    exact ⟨sampleUpload, List.mem_cons_self, rfl, rfl⟩
  · intro u hu shard hmem hash blob plaintext hhash hblob hdecrypt
    obtain ⟨record, hrecord, rfl⟩ := List.mem_map.mp hmem
    obtain ⟨item, hitem, rfl⟩ := List.mem_map.mp hrecord
    obtain rfl : item.2.ciphertextHash = hash := Json.str.inj hhash
    obtain rfl : item.1 = blob := Option.some.inj ((h.shards item hitem).symm.trans hblob)
    have hcontext : rawAad (rawManifest (editedManifest items)).modelId
        (rawShard (F := WholeFloat) item.2).index
        (rawShard (F := WholeFloat) item.2).plaintextHash =
          aad "m" item.2.index item.2.plaintextHash := rawAad_str "m" item.2.index _
    rw [hcontext] at hdecrypt ⊢
    obtain ⟨i, -, hpiece, haad⟩ := hgiven u hu item hitem plaintext hdecrypt
    exact ⟨u, hu, rfl, i, hpiece, haad⟩

end Edited

end Samples

end Decillion.EditedVaults
