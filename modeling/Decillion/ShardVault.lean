import Decillion.AccessRequests
import Decillion.Blocks
import Decillion.HostSystem
import Decillion.ShardManifests

/-!
The vault: a configuration file with the salt of the master key, content-addressed shard
files shared by all models, one wrapped key for each model and one manifest. The writing
methods are programs over the host; the reading methods are functions of the files.
-/
namespace Decillion.ShardVault

open ByteText Blocks JsonValues JsonText Primitives TextFiles PyErrors Programs HostSystem
  AccessRequests ShardManifests

/-- The cryptographic functions of the store. -/
structure Crypto where
  sha : Sha256
  aes : AesGcm
  scrypt : Scrypt

def Crypto.sample : Crypto := ⟨Sha256.sample, AesGcm.sample, Scrypt.sample⟩

/-- A store object; its constructor refuses a shard size that is not positive. -/
structure VaultStore where
  root : Path
  shardSize : ℕ
  positive : 0 < shardSize

abbrev Files := Path → Option Bytes

def configPath (root : Path) : Path := root ++ ["vault.json"]

def keyPath (root : Path) (keyId : String) : Path := root ++ ["keys", keyId ++ ".bin"]

def manifestPath (sha : Sha256) (root : Path) (modelId : String) : Path :=
  root ++ ["manifests", sha.hexdigest (encode modelId) ++ ".json"]

def shardPath (root : Path) (ciphertextHash : String) : Path :=
  root ++ ["shards", slice ciphertextHash 0 2, slice ciphertextHash 2 4, ciphertextHash ++ ".bin"]

def aad (modelId : String) (index : ℤ) (plaintextHash : String) : Bytes :=
  canonical (F := Empty)
    (.obj [("model_id", .str modelId), ("index", .int index),
      ("plaintext_hash", .str plaintextHash)])

section Configuration

variable {F : Type} [FloatText F]

/-- `value != 1` is false: an integer, a true or a floating-point one. -/
def isOne : Json F → Bool
  | .int n => n = 1
  | .bool b => b
  | .float x => FloatText.text x = "1.0".toList
  | _ => false

def dashed (hex : String) : String :=
  slice hex 0 8 ++ "-" ++ slice hex 8 12 ++ "-" ++ slice hex 12 16 ++ "-" ++ slice hex 16 20 ++
    "-" ++ slice hex 20 32

def configJson (vaultId : String) (salt : Bytes) (shardSize : ℕ) : Json Empty :=
  .obj [("format_version", .int 1), ("vault_id", .str vaultId), ("kdf", .str "scrypt-n32768-r8-p1"),
    ("kdf_salt", .str (hex salt)), ("shard_size", .int shardSize)]

/-- `json.loads(path.read_text(encoding="utf-8"))` -/
def loadConfig (content : Bytes) : Except PyError (Json F) :=
  match (readText content).bind loads with
  | none => .error (.valueError "")
  | some config => .ok config

/-- `bytes.fromhex(config["kdf_salt"])` -/
def configSalt : Json F → Except PyError Bytes
  | .obj members =>
      match members.lookup "kdf_salt" with
      | none => .error .keyError
      | some (.str text) =>
          match fromHex text with
          | none => .error (.valueError "")
          | some salt => .ok salt
      | some _ => .error .typeError
  | _ => .error .typeError

/-- The check of an existing configuration in `_ensure_config`. -/
def checkConfig (config : Json F) : Except PyError Unit :=
  match config with
  | .obj members =>
      let corrupt := .error (.runtimeError "unsupported or corrupt vault configuration")
      if (members.lookup "format_version").all isOne = false ∨
          (members.lookup "format_version").isNone then corrupt
      else match configSalt config with
        | .error e => .error e
        | .ok salt => if salt.length ≠ 16 then corrupt else .ok ()
  | _ => .error .attributeError

def checkPassphrase (passphrase : Option String) : Except PyError String :=
  match passphrase with
  | none => .error (.runtimeError "set IZETTA_VAULT_PASSPHRASE")
  | some text =>
      if text = "" then .error (.runtimeError "set IZETTA_VAULT_PASSPHRASE") else .ok text

variable (F)

/-- The part of `_master_key` after the passphrase and the configuration have been read. -/
def deriveKey (scrypt : Scrypt) (passphrase : String) (content : Bytes) : Except PyError Bytes := do
  let config ← loadConfig (F := F) content
  let salt ← configSalt config
  return scrypt.derive salt (encode passphrase)

end Configuration

variable {F : Type} [FloatText F] (crypto : Crypto)

def ensureConfig (root : Path) (shardSize : ℕ) : Act F PyError Unit := do
  if ← pathExists (configPath root) then
    let content ← readBytes (configPath root)
    fromExcept (loadConfig (F := F) content >>= checkConfig)
  else
    let vaultId ← uuid4
    let salt ← urandom 16
    replaceFile ".write-" (configPath root)
      (encode (dumps (indented 2) (configJson (dashed vaultId) salt shardSize) ++ "\n"))

/-- `VaultStore.__init__`; directories are not modelled. -/
def openStore (root : Path) (shardSize : ℤ) : Act F PyError VaultStore :=
  if h : shardSize ≤ 0 then throw (.valueError "shard_size must be positive")
  else do
    ensureConfig root shardSize.toNat
    return ⟨root, shardSize.toNat, by omega⟩

def masterKey (root : Path) : Act F PyError Bytes := do
  let passphrase ← getenv "IZETTA_VAULT_PASSPHRASE"
  let text ← fromExcept (checkPassphrase passphrase)
  let content ← readBytes (configPath root)
  fromExcept (deriveKey F crypto.scrypt text content)

/-- A file that is there under the hash of the blob has to hold the blob. -/
def writeShard (root : Path) (blob : Bytes) (ciphertextHash : String) : Act F PyError Unit := do
  let destination := shardPath root ciphertextHash
  if ← pathExists destination then
    let content ← readBytes destination
    if content ≠ blob then throw (.runtimeError "ciphertext hash collision")
  else replaceFile ".write-" destination blob

def wrapKey (root : Path) (keyId : String) (dataKey : Bytes) : Act F PyError Unit := do
  let nonce ← urandom 12
  let master ← masterKey crypto root
  let wrapped := crypto.aes.encrypt master nonce dataKey (encode keyId)
  replaceFile ".write-" (keyPath root keyId) (nonce ++ wrapped)

/-- The blob of a block and its record in the manifest. -/
def sealShard (dataKey : Bytes) (modelId : String) (index : ℕ) (chunk nonce : Bytes) :
    Bytes × Shard :=
  let plaintextHash := crypto.sha.hexdigest chunk
  let ciphertext := crypto.aes.encrypt dataKey nonce chunk (aad modelId index plaintextHash)
  let blob := nonce ++ ciphertext
  (blob,
    { index := index
      plaintextHash := plaintextHash
      ciphertextHash := crypto.sha.hexdigest blob
      plaintextBytes := chunk.length
      ciphertextBytes := blob.length
      nonceHex := hex nonce })

/-- The loop of `add_file` over the blocks that are left; the last read finds no block. -/
def encryptShards (root : Path) (dataKey : Bytes) (modelId : String) :
    ℕ → List Bytes → Act F PyError (List Shard)
  | _, [] => do
      let _ ← readBlock []
      return []
  | index, block :: rest => do
      let chunk ← readBlock block
      let nonce ← urandom 12
      let sealed := sealShard crypto dataKey modelId index chunk nonce
      writeShard root sealed.1 sealed.2.ciphertextHash
      let shards ← encryptShards root dataKey modelId (index + 1) rest
      return sealed.2 :: shards

/-- `PurePath.suffix` of a file name, in lower case. -/
def suffix (name : String) : String :=
  let behind := (chars name).reverse.takeWhile (· ≠ '.')
  let before := ((chars name).reverse.dropWhile (· ≠ '.')).drop 1
  if behind.isEmpty ∨ before.isEmpty then ""
  else String.ofList ('.' :: behind.reverse.map Char.toLower)

/-- The arguments of `add_file`; the metadata is a dictionary, so no key occurs twice. -/
structure AddFile (F : Type) where
  name : String
  isRegular : Bool
  content : Bytes
  modelId : String
  source : String
  license : String
  metadata : Option (Members F)
  wellFormed : DistinctKeys (.obj (metadata.getD []))

def shardLeaf (shard : Shard) : Bytes := (fromHex shard.ciphertextHash).getD []

def buildManifest (call : AddFile F) (shards : List Shard) (keyId : String) (createdAt : F) :
    ModelManifest F :=
  { modelId := call.modelId
    source := call.source
    license := call.license
    sizeBytes := (shards.map Shard.plaintextBytes).sum
    nShards := shards.length
    merkleRoot := hex (merkleRoot crypto.sha (shards.map shardLeaf))
    keyId := keyId
    shards := shards
    createdAt := createdAt
    metadata := setMember "file_sha256" (.str (crypto.sha.hexdigest call.content))
      (call.metadata.getD [])
    formatVersion := 1 }

def checkCall (call : AddFile F) : Except PyError Unit :=
  if suffix call.name ∉ [".bin", ".pt", ".safetensors"] then
    .error (.valueError "weight file must end in .safetensors, .pt, or .bin")
  else if call.isRegular = false then
    .error (.valueError "weight file must be a regular, non-symlink file")
  else if call.modelId = "" ∨ 512 < call.modelId.length then
    .error (.valueError "model_id is required and must be at most 512 characters")
  else .ok ()

def addFile (store : VaultStore) (call : AddFile F) : Act F PyError (ModelManifest F) := do
  fromExcept (checkCall call)
  if ← pathExists (manifestPath crypto.sha store.root call.modelId) then
    throw (.fileExists ("model already exists: " ++ call.modelId))
  let dataKey ← urandom 32
  let shards ← encryptShards crypto store.root dataKey call.modelId 0
    (blocks store.shardSize call.content)
  if shards.isEmpty then throw (.valueError "weight file is empty")
  let id ← uuid4
  let keyId := "k_" ++ id
  let createdAt ← time
  let manifest := buildManifest crypto call shards keyId createdAt
  wrapKey crypto store.root keyId dataKey
  replaceFile ".write-" (manifestPath crypto.sha store.root call.modelId) (encode manifest.toJson)
  return manifest

end Decillion.ShardVault
