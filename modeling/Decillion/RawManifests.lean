import Decillion.PyValues
import Decillion.VaultReads

/-!
The reading methods of the vault on a manifest whose JSON anyone may have written. A data
class does not look at the types of its fields, so every field holds some JSON value, and
a value of another type than the declared one is used as it is. On a manifest of the
declared types the methods are those of the vault.
-/
namespace Decillion.RawManifests

open ByteText JsonValues JsonText JsonStrings JsonRoundTrip Primitives TextFiles PyErrors PyValues
  HostSystem AccessRequests ShardManifests ShardVault VaultReads

structure RawShard (F : Type) where
  index : Json F
  plaintextHash : Json F
  ciphertextHash : Json F
  plaintextBytes : Json F
  ciphertextBytes : Json F
  nonceHex : Json F

structure RawManifest (F : Type) where
  modelId : Json F
  source : Json F
  license : Json F
  sizeBytes : Json F
  nShards : Json F
  merkleRoot : Json F
  keyId : Json F
  shards : List (RawShard F)
  createdAt : Json F
  metadata : Json F
  formatVersion : Json F

variable {F : Type}

/-- `Shard(**shard)` -/
def RawShard.ofDict : Json F → Option (RawShard F)
  | .obj members => do
      guard (onlyFields shardFields members)
      return {
        index := ← members.lookup "index"
        plaintextHash := ← members.lookup "plaintext_hash"
        ciphertextHash := ← members.lookup "ciphertext_hash"
        plaintextBytes := ← members.lookup "plaintext_bytes"
        ciphertextBytes := ← members.lookup "ciphertext_bytes"
        nonceHex := ← members.lookup "nonce_hex" }
  | _ => none

/-- `[Shard(**shard) for shard in value]`; a text or an object without items has none either. -/
def rawShards : Json F → Option (List (RawShard F))
  | .list items => items.mapM RawShard.ofDict
  | .str "" => some []
  | .obj [] => some []
  | _ => none

/-- `cls(**data)` -/
def RawManifest.ofDict (now : F) : Json F → Option (RawManifest F)
  | .obj members => do
      guard (onlyFields manifestFields members)
      let shards ← rawShards ((members.lookup "shards").getD (.list []))
      return {
        modelId := ← members.lookup "model_id"
        source := ← members.lookup "source"
        license := ← members.lookup "license"
        sizeBytes := ← members.lookup "size_bytes"
        nShards := ← members.lookup "n_shards"
        merkleRoot := ← members.lookup "merkle_root"
        keyId := ← members.lookup "key_id"
        shards := shards
        createdAt := (members.lookup "created_at").getD (.float now)
        metadata := (members.lookup "metadata").getD (.obj [])
        formatVersion := (members.lookup "format_version").getD (.int 1) }
  | _ => none

section Methods

variable [FloatText F] [FloatNumber F] (crypto : Crypto) (root : Path) (passphrase : Option String)
  (files : Files) (str : Json F → String)

def RawManifest.load (now : F) (content : Bytes) : Option (RawManifest F) :=
  ((readText content).bind loads).bind (RawManifest.ofDict now)

def rawAad (modelId index plaintextHash : Json F) : Bytes :=
  canonical (.obj [("model_id", modelId), ("index", index), ("plaintext_hash", plaintextHash)])

/-- A key id that is no text has a path but no octets. -/
def rawUnwrapKey : Json F → Except PyError Bytes
  | .str keyId => unwrapKey F crypto root passphrase files keyId
  | keyId => do
      let blob ← readFile files (keyPath root (str keyId))
      if blob.length < 29 then throw (.runtimeError "wrapped key is truncated")
      let text ← checkPassphrase passphrase
      let content ← readFile files (configPath root)
      let _ ← deriveKey F crypto.scrypt text content
      throw .attributeError

/-- What is checked about the blob of a shard, and its plaintext. -/
def openShard (modelId : Json F) (shard : RawShard F) (ciphertextHash : String)
    (key blob : Bytes) : Except PyError Bytes := do
  if crypto.sha.hexdigest blob ≠ ciphertextHash ∨
      equalsInt shard.ciphertextBytes blob.length = false then
    throw (.runtimeError ("shard " ++ str shard.index ++ " ciphertext integrity failure"))
  if equalsStr shard.nonceHex (hex (blob.take 12)) = false then
    throw (.runtimeError ("shard " ++ str shard.index ++ " nonce mismatch"))
  let plaintext ← aesDecrypt crypto.aes key (blob.take 12) (blob.drop 12)
    (rawAad modelId shard.index shard.plaintextHash)
  if equalsStr shard.plaintextHash (crypto.sha.hexdigest plaintext) = false ∨
      equalsInt shard.plaintextBytes plaintext.length = false then
    throw (.runtimeError ("shard " ++ str shard.index ++ " plaintext integrity failure"))
  return plaintext

/-- A ciphertext hash that is no text makes no path. -/
def rawDecryptShard (modelId : Json F) (shard : RawShard F) (key : Bytes) : Except PyError Bytes :=
  match shard.ciphertextHash with
  | .str ciphertextHash => do
      let blob ← readFile files (shardPath root ciphertextHash)
      openShard crypto str modelId shard ciphertextHash key blob
  | _ => .error .typeError

variable (order : List (RawShard F) → Except PyError (List (RawShard F)))

def RawShard.hasIntIndex (shard : RawShard F) : Bool :=
  match shard.index with
  | .int _ => true
  | _ => false

def RawShard.intIndex (shard : RawShard F) : ℤ :=
  match shard.index with
  | .int n => n
  | _ => 0

/-- `sorted(shards, key=lambda item: item.index)`; where the indices are not whole numbers, the
language finds some order or raises an exception. -/
def rawSorted (shards : List (RawShard F)) : Except PyError (List (RawShard F)) :=
  if shards.all RawShard.hasIntIndex then
    .ok (shards.insertionSort (fun a b => a.intIndex ≤ b.intIndex))
  else order shards

/-- The pieces `stream_plaintext` yields. -/
def rawStreamPlaintext (manifest : RawManifest F) : Except PyError (List Bytes) := do
  let key ← rawUnwrapKey crypto root passphrase files str manifest.keyId
  let shards ← rawSorted order manifest.shards
  shards.mapM (fun shard => rawDecryptShard crypto root files str manifest.modelId shard key)

def rawReadShardPlaintext (manifest : RawManifest F) (index : ℤ) : Except PyError Bytes :=
  if index < 0 then .error (.indexError index)
  else match intLess index manifest.nShards with
    | .error e => .error e
    | .ok false => .error (.indexError index)
    | .ok true =>
        match manifest.shards.find? (fun item => equalsInt item.index index) with
        | none => .error (.indexError index)
        | some shard => do
            let key ← rawUnwrapKey crypto root passphrase files str manifest.keyId
            rawDecryptShard crypto root files str manifest.modelId shard key

end Methods

/-- A record of the declared types. -/
def rawShard (shard : Shard) : RawShard F where
  index := .int shard.index
  plaintextHash := .str shard.plaintextHash
  ciphertextHash := .str shard.ciphertextHash
  plaintextBytes := .int shard.plaintextBytes
  ciphertextBytes := .int shard.ciphertextBytes
  nonceHex := .str shard.nonceHex

/-- A manifest of the declared types. -/
def rawManifest (manifest : ModelManifest F) : RawManifest F where
  modelId := .str manifest.modelId
  source := .str manifest.source
  license := .str manifest.license
  sizeBytes := .int manifest.sizeBytes
  nShards := .int manifest.nShards
  merkleRoot := .str manifest.merkleRoot
  keyId := .str manifest.keyId
  shards := manifest.shards.map rawShard
  createdAt := .float manifest.createdAt
  metadata := .obj manifest.metadata
  formatVersion := .int manifest.formatVersion

theorem lookup_of_intField {key : String} {members : Members F} {n : ℤ}
    (h : intField key members = some n) : members.lookup key = some (.int n) := by
  unfold intField at h
  split at h
  · rename_i hlookup
    rw [hlookup, Option.some.inj h]
  · simp at h

theorem lookup_of_strField {key : String} {members : Members F} {s : String}
    (h : strField key members = some s) : members.lookup key = some (.str s) := by
  unfold strField at h
  split at h
  · rename_i hlookup
    rw [hlookup, Option.some.inj h]
  · simp at h

theorem ofDict_rawShard (value : Json F) (shard : Shard) (h : Shard.ofDict value = some shard) :
    RawShard.ofDict value = some (rawShard shard) := by
  cases value with
  | obj members =>
    simp only [Shard.ofDict, Option.bind_eq_bind, Option.bind_eq_some_iff] at h
    obtain ⟨⟨⟩, hguard, index, hindex, plaintextHash, hplaintextHash, ciphertextHash,
      hciphertextHash, plaintextBytes, hplaintextBytes, ciphertextBytes, hciphertextBytes, nonceHex,
      hnonceHex, hshard⟩ := h
    obtain rfl := Option.some.inj hshard
    simp only [RawShard.ofDict, hguard, lookup_of_intField hindex,
      lookup_of_strField hplaintextHash,
      lookup_of_strField hciphertextHash, lookup_of_intField hplaintextBytes,
      lookup_of_intField hciphertextBytes, lookup_of_strField hnonceHex, Option.bind_eq_bind,
      Option.bind_some]
    rfl
  | _ => simp [Shard.ofDict] at h

theorem mapM_rawShard (items : List (Json F)) (shards : List Shard)
    (h : items.mapM Shard.ofDict = some shards) :
    items.mapM RawShard.ofDict = some (shards.map rawShard) := by
  induction items generalizing shards with
  | nil =>
    obtain rfl : [] = shards := Option.some.inj h
    rfl
  | cons item rest ih =>
    simp only [List.mapM_cons, Option.bind_eq_bind, Option.bind_eq_some_iff] at h
    obtain ⟨shard, hshard, more, hmore, hshards⟩ := h
    obtain rfl := Option.some.inj hshards
    simp only [List.mapM_cons, ofDict_rawShard item shard hshard, ih more hmore,
      Option.bind_eq_bind, Option.bind_some]
    rfl

/-- Where the declared types are met, the same manifest is read. -/
theorem ofDict_rawManifest (now : F) (value : Json F) (manifest : ModelManifest F)
    (h : ModelManifest.ofDict now value = some manifest) :
    RawManifest.ofDict now value = some (rawManifest manifest) := by
  cases value with
  | obj members =>
    unfold ModelManifest.ofDict at h
    obtain ⟨⟨⟩, hguard, h⟩ := Option.bind_eq_some_iff.mp h
    extract_lets afterShards at h
    obtain ⟨shards, hraw, h⟩ : ∃ shards, rawShards ((members.lookup "shards").getD (.list [])) =
        some (shards.map rawShard) ∧ afterShards shards = some manifest := by
      split at h
      · rename_i hlookup
        exact ⟨[], by rw [hlookup]; rfl, h⟩
      · rename_i items hlookup
        obtain ⟨shards, hshards, h⟩ := Option.bind_eq_some_iff.mp h
        exact ⟨shards, by rw [hlookup]; exact mapM_rawShard items shards hshards, h⟩
      · simp at h
    unfold afterShards at h
    extract_lets afterTime at h
    obtain ⟨createdAt, htime, h⟩ : ∃ createdAt, (members.lookup "created_at").getD (.float now) =
        .float createdAt ∧ afterTime createdAt = some manifest := by
      split at h
      · rename_i hlookup
        exact ⟨now, by rw [hlookup]; rfl, h⟩
      · rename_i x hlookup
        exact ⟨x, by rw [hlookup]; rfl, h⟩
      · simp at h
    unfold afterTime at h
    extract_lets afterMetadata at h
    obtain ⟨metadata, hmetadata, h⟩ : ∃ metadata, (members.lookup "metadata").getD (.obj []) =
        .obj metadata ∧ afterMetadata metadata = some manifest := by
      split at h
      · rename_i hlookup
        exact ⟨[], by rw [hlookup]; rfl, h⟩
      · rename_i metadata hlookup
        exact ⟨metadata, by rw [hlookup]; rfl, h⟩
      · simp at h
    unfold afterMetadata at h
    extract_lets afterVersion at h
    obtain ⟨version, hversion, h⟩ : ∃ version, (members.lookup "format_version").getD (.int 1) =
        .int version ∧ afterVersion version = some manifest := by
      split at h
      · rename_i hlookup
        exact ⟨1, by rw [hlookup]; rfl, h⟩
      · rename_i n hlookup
        exact ⟨n, by rw [hlookup]; rfl, h⟩
      · simp at h
    unfold afterVersion at h
    obtain ⟨modelId, hmodelId, h⟩ := Option.bind_eq_some_iff.mp h
    obtain ⟨source, hsource, h⟩ := Option.bind_eq_some_iff.mp h
    obtain ⟨license, hlicense, h⟩ := Option.bind_eq_some_iff.mp h
    obtain ⟨sizeBytes, hsizeBytes, h⟩ := Option.bind_eq_some_iff.mp h
    obtain ⟨nShards, hnShards, h⟩ := Option.bind_eq_some_iff.mp h
    obtain ⟨merkleRoot, hmerkleRoot, h⟩ := Option.bind_eq_some_iff.mp h
    obtain ⟨keyId, hkeyId, h⟩ := Option.bind_eq_some_iff.mp h
    obtain rfl := Option.some.inj h
    simp only [RawManifest.ofDict, hguard, hraw, htime, hmetadata, hversion,
      lookup_of_strField hmodelId, lookup_of_strField hsource, lookup_of_strField hlicense,
      lookup_of_intField hsizeBytes, lookup_of_intField hnShards, lookup_of_strField hmerkleRoot,
      lookup_of_strField hkeyId, Option.bind_eq_bind, Option.bind_some]
    rfl
  | _ => simp [ModelManifest.ofDict] at h

section Declared

variable [FloatText F] [FloatNumber F] (crypto : Crypto) (root : Path) (passphrase : Option String)
  (files : Files) (str : Json F → String)
  (order : List (RawShard F) → Except PyError (List (RawShard F)))

omit [FloatNumber F] in
theorem rawAad_str (modelId : String) (index : ℤ) (plaintextHash : String) :
    rawAad (F := F) (.str modelId) (.int index) (.str plaintextHash) =
      aad modelId index plaintextHash := by
  simp [rawAad, aad, canonical, sortKeys, sortMembers, List.insertionSort,
    List.orderedInsert, keyLe,
    dump, dumpMembers, dumpString]

variable {str} (hstr : ∀ n, str (.int n) = toString n)
include hstr

theorem rawDecryptShard_rawShard (modelId : String) (shard : Shard) (key : Bytes) :
    rawDecryptShard crypto root files str (.str modelId) (rawShard shard) key =
      decryptShard crypto root files modelId shard key := by
  simp only [rawDecryptShard, rawShard, openShard, decryptShard, rawAad_str, equalsInt_eq_false,
    equalsStr_eq_false, hstr]

omit [FloatText F] [FloatNumber F] hstr in
theorem rawSorted_rawShard (shards : List Shard) :
    rawSorted order (shards.map rawShard) = .ok ((sortedShards shards).map rawShard) := by
  have hindex : (shards.map (rawShard (F := F))).all RawShard.hasIntIndex = true := by
    simp [RawShard.hasIntIndex, rawShard]
  rw [rawSorted, if_pos hindex, sortedShards,
    List.map_insertionSort (fun a b : Shard => a.index ≤ b.index)
      (fun a b : RawShard F => a.intIndex ≤ b.intIndex) rawShard shards (fun _ _ _ _ => Iff.rfl)]

omit [FloatNumber F] hstr in
theorem load_rawManifest (now : F) (content : Bytes) (manifest : ModelManifest F)
    (h : ModelManifest.load now content = some manifest) :
    RawManifest.load now content = some (rawManifest manifest) := by
  obtain ⟨text, htext, hvalue⟩ := Option.bind_eq_some_iff.mp h
  obtain ⟨value, hvalue, hmanifest⟩ := Option.bind_eq_some_iff.mp hvalue
  rw [RawManifest.load, htext, Option.bind_some, hvalue, Option.bind_some,
    ofDict_rawManifest now value manifest hmanifest]

theorem rawReadShardPlaintext_rawManifest (manifest : ModelManifest F) (index : ℤ) :
    rawReadShardPlaintext crypto root passphrase files str (rawManifest manifest) index =
      readShardPlaintext F crypto root passphrase files manifest index := by
  have hshard := rawDecryptShard_rawShard crypto root files hstr manifest.modelId
  have hfind : (manifest.shards.map rawShard).find? (fun item => equalsInt item.index index) =
      (manifest.shards.find? (fun item => item.index = index)).map (rawShard (F := F)) := by
    rw [List.find?_map]
    congr 2
    funext item
    exact equalsInt_int item.index index
  by_cases hlow : index < 0
  · rw [rawReadShardPlaintext, readShardPlaintext, if_pos hlow,
      if_neg (fun h => absurd h.1 (not_le.mpr hlow))]
  · rw [rawReadShardPlaintext, readShardPlaintext, if_neg hlow]
    simp only [rawManifest, intLess_int, hfind]
    by_cases hhigh : index < manifest.nShards
    · rw [if_pos ⟨not_lt.mp hlow, hhigh⟩, decide_eq_true hhigh]
      cases manifest.shards.find? (fun item => item.index = index) with
      | none => rfl
      | some shard => simp only [Option.map_some, hshard, rawUnwrapKey]
    · rw [if_neg (fun h => hhigh h.2), decide_eq_false hhigh]

end Declared

def sampleStr : Json WholeFloat → String
  | .int n => toString n
  | _ => ""

def sampleOrder (_ : List (RawShard WholeFloat)) : Except PyError (List (RawShard WholeFloat)) :=
  .error .typeError

theorem sampleStr_int (n : ℤ) : sampleStr (.int n) = toString n := rfl

end Decillion.RawManifests
