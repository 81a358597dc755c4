import Decillion.TextFiles

/-!
The manifest of a model: the records of its shards, the wrapped key they are encrypted
with and the metadata of the caller. It is stored as indented JSON with sorted keys; what
is read back differs from what was written in the order of the metadata's keys only.
-/
namespace Decillion.ShardManifests

open ByteText JsonValues JsonText JsonRoundTrip TextFiles

structure Shard where
  index : ℤ
  plaintextHash : String
  ciphertextHash : String
  plaintextBytes : ℤ
  ciphertextBytes : ℤ
  nonceHex : String
deriving DecidableEq

structure ModelManifest (F : Type) where
  modelId : String
  source : String
  license : String
  sizeBytes : ℤ
  nShards : ℤ
  merkleRoot : String
  keyId : String
  shards : List Shard
  createdAt : F
  metadata : Members F
  formatVersion : ℤ

variable {F : Type}

def Shard.toDict (shard : Shard) : Json F :=
  .obj [("index", .int shard.index), ("plaintext_hash", .str shard.plaintextHash),
    ("ciphertext_hash", .str shard.ciphertextHash), ("plaintext_bytes", .int shard.plaintextBytes),
    ("ciphertext_bytes", .int shard.ciphertextBytes), ("nonce_hex", .str shard.nonceHex)]

def ModelManifest.toDict (manifest : ModelManifest F) : Json F :=
  .obj [("model_id", .str manifest.modelId), ("source", .str manifest.source),
    ("license", .str manifest.license), ("size_bytes", .int manifest.sizeBytes),
    ("n_shards", .int manifest.nShards), ("merkle_root", .str manifest.merkleRoot),
    ("key_id", .str manifest.keyId), ("shards", .list (manifest.shards.map Shard.toDict)),
    ("created_at", .float manifest.createdAt), ("metadata", .obj manifest.metadata),
    ("format_version", .int manifest.formatVersion)]

def shardFields : List String :=
  ["index", "plaintext_hash", "ciphertext_hash", "plaintext_bytes", "ciphertext_bytes",
    "nonce_hex"]

/-- `Shard(**shard)` for members of the declared types. -/
def Shard.ofDict : Json F → Option Shard
  | .obj members => do
      guard (onlyFields shardFields members)
      return {
        index := ← intField "index" members
        plaintextHash := ← strField "plaintext_hash" members
        ciphertextHash := ← strField "ciphertext_hash" members
        plaintextBytes := ← intField "plaintext_bytes" members
        ciphertextBytes := ← intField "ciphertext_bytes" members
        nonceHex := ← strField "nonce_hex" members }
  | _ => none

def manifestFields : List String :=
  ["model_id", "source", "license", "size_bytes", "n_shards", "merkle_root", "key_id", "shards",
    "created_at", "metadata", "format_version"]

/-- `cls(**data)`; the last three fields have defaults, the time of the call among them. -/
def ModelManifest.ofDict (now : F) : Json F → Option (ModelManifest F)
  | .obj members => do
      guard (onlyFields manifestFields members)
      let shards ← match members.lookup "shards" with
        | none => some []
        | some (.list items) => items.mapM Shard.ofDict
        | some _ => none
      let createdAt ← match members.lookup "created_at" with
        | none => some now
        | some (.float x) => some x
        | some _ => none
      let metadata ← match members.lookup "metadata" with
        | none => some []
        | some (.obj metadata) => some metadata
        | some _ => none
      let formatVersion ← match members.lookup "format_version" with
        | none => some 1
        | some (.int n) => some n
        | some _ => none
      return {
        modelId := ← strField "model_id" members
        source := ← strField "source" members
        license := ← strField "license" members
        sizeBytes := ← intField "size_bytes" members
        nShards := ← intField "n_shards" members
        merkleRoot := ← strField "merkle_root" members
        keyId := ← strField "key_id" members
        shards := shards
        createdAt := createdAt
        metadata := metadata
        formatVersion := formatVersion }
  | _ => none

/-- The manifest with the keys of its metadata sorted at every level. -/
def ModelManifest.sorted (manifest : ModelManifest F) : ModelManifest F :=
  { manifest with metadata := (sortMembers manifest.metadata).insertionSort keyLe }

/-- Equality of data classes: dictionaries are compared without the order of their keys. -/
def ModelManifest.Same (a b : ModelManifest F) : Prop :=
  SameValue (.obj a.metadata) (.obj b.metadata) ∧ a = { b with metadata := a.metadata }

theorem same_sorted (manifest : ModelManifest F) : manifest.sorted.Same manifest :=
  ⟨sameValue_sortKeys (.obj manifest.metadata), rfl⟩

theorem sortKeys_shard (shard : Shard) : sortKeys (shard.toDict (F := F)) =
    .obj [("ciphertext_bytes", .int shard.ciphertextBytes),
      ("ciphertext_hash", .str shard.ciphertextHash), ("index", .int shard.index),
      ("nonce_hex", .str shard.nonceHex), ("plaintext_bytes", .int shard.plaintextBytes),
      ("plaintext_hash", .str shard.plaintextHash)] := by
  simp [Shard.toDict, sortKeys, sortMembers, List.insertionSort, List.orderedInsert, keyLe]

theorem ofDict_shard (shard : Shard) :
    Shard.ofDict (sortKeys (shard.toDict (F := F))) = some shard := by
  rw [sortKeys_shard]
  simp [Shard.ofDict, onlyFields, shardFields, intField, strField, List.lookup_cons]

theorem sortItems_shards (shards : List Shard) :
    (sortItems (shards.map (Shard.toDict (F := F)))).mapM Shard.ofDict = some shards := by
  induction shards with
  | nil => rfl
  | cons shard rest ih => simp [sortItems, ofDict_shard, ih]

theorem sortKeys_manifest (manifest : ModelManifest F) : sortKeys manifest.toDict =
    .obj [("created_at", .float manifest.createdAt),
      ("format_version", .int manifest.formatVersion), ("key_id", .str manifest.keyId),
      ("license", .str manifest.license), ("merkle_root", .str manifest.merkleRoot),
      ("metadata", .obj manifest.sorted.metadata), ("model_id", .str manifest.modelId),
      ("n_shards", .int manifest.nShards),
      ("shards", .list (sortItems (manifest.shards.map Shard.toDict))),
      ("size_bytes", .int manifest.sizeBytes), ("source", .str manifest.source)] := by
  simp [ModelManifest.toDict, sortKeys, sortMembers, List.insertionSort, List.orderedInsert, keyLe,
    ModelManifest.sorted]

theorem ofDict_manifest (now : F) (manifest : ModelManifest F) :
    ModelManifest.ofDict now (sortKeys manifest.toDict) = some manifest.sorted := by
  rw [sortKeys_manifest]
  simp [ModelManifest.ofDict, onlyFields, manifestFields, intField, strField, List.lookup_cons,
    sortItems_shards]
  rfl

theorem distinctKeys_shards (shards : List Shard) :
    DistinctKeysItems (shards.map (Shard.toDict (F := F))) := by
  induction shards with
  | nil => trivial
  | cons shard rest ih =>
    refine ⟨⟨?_, ?_⟩, ih⟩
    · simp
    · simp [DistinctKeysMembers, DistinctKeys]

theorem distinctKeys_manifest (manifest : ModelManifest F)
    (hmetadata : DistinctKeys (.obj manifest.metadata)) : DistinctKeys manifest.toDict := by
  refine ⟨by simp, ?_⟩
  simp only [DistinctKeysMembers, DistinctKeys, and_true, true_and]
  exact ⟨distinctKeys_shards _, hmetadata⟩

variable [FloatText F]

def ModelManifest.toJson (manifest : ModelManifest F) : String :=
  dumpsSorted (indented 2) manifest.toDict ++ "\n"

def ModelManifest.fromJson (now : F) (text : String) : Option (ModelManifest F) :=
  (loads text).bind (ofDict now)

/-- `ModelManifest.load` on the content of the file. -/
def ModelManifest.load (now : F) (content : Bytes) : Option (ModelManifest F) :=
  (readText content).bind (fromJson now)

/-- A manifest is read back from its file up to the order of the metadata's keys. -/
theorem load_toJson (now : F) (manifest : ModelManifest F)
    (hmetadata : DistinctKeys (.obj manifest.metadata)) :
    ModelManifest.load now (encode manifest.toJson) = some manifest.sorted := by
  have hkeys := sortKeys_distinctKeys _ (distinctKeys_manifest manifest hmetadata)
  have hread := loads_readText (indented 2) _ hkeys
  obtain ⟨text, htext, hloads⟩ := Option.bind_eq_some_iff.mp hread
  have htext' : readText (encode manifest.toJson) = some text := htext
  rw [ModelManifest.load, htext', Option.bind_some, ModelManifest.fromJson, hloads,
    Option.bind_some, ofDict_manifest]

end Decillion.ShardManifests
