import Decillion.HostRules
import Decillion.ShardVault

/-!
The reading methods of the vault, as functions of its files, and what they return on a
model that has been published: every file named by the manifest is there with the content
it was given. Published models stay published when files are only added, and on them the
methods return the manifest, the plaintext and its slices, and find no error.
-/
namespace Decillion.VaultReads

open ByteText AccessRequests Blocks JsonValues JsonText MerkleTrees Primitives TextFiles PyErrors
  HostSystem HostRules ShardManifests ShardVault

variable (F : Type) [FloatText F] (crypto : Crypto) (root : Path) (passphrase : Option String)
  (files : Files)

def readFile (path : Path) : Except PyError Bytes :=
  match files path with
  | none => .error .fileNotFound
  | some value => .ok value

def unwrapKey (keyId : String) : Except PyError Bytes := do
  let blob ← readFile files (keyPath root keyId)
  if blob.length < 29 then throw (.runtimeError "wrapped key is truncated")
  let text ← checkPassphrase passphrase
  let content ← readFile files (configPath root)
  let master ← deriveKey F crypto.scrypt text content
  aesDecrypt crypto.aes master (blob.take 12) (blob.drop 12) (encode keyId)

def decryptShard (modelId : String) (shard : Shard) (key : Bytes) : Except PyError Bytes := do
  let blob ← readFile files (shardPath root shard.ciphertextHash)
  if crypto.sha.hexdigest blob ≠ shard.ciphertextHash ∨ blob.length ≠ shard.ciphertextBytes then
    throw (.runtimeError ("shard " ++ toString shard.index ++ " ciphertext integrity failure"))
  if hex (blob.take 12) ≠ shard.nonceHex then
    throw (.runtimeError ("shard " ++ toString shard.index ++ " nonce mismatch"))
  let plaintext ← aesDecrypt crypto.aes key (blob.take 12) (blob.drop 12)
    (aad modelId shard.index shard.plaintextHash)
  if crypto.sha.hexdigest plaintext ≠ shard.plaintextHash ∨
      plaintext.length ≠ shard.plaintextBytes then
    throw (.runtimeError ("shard " ++ toString shard.index ++ " plaintext integrity failure"))
  return plaintext

/-- `sorted(manifest.shards, key=lambda item: item.index)` -/
def sortedShards (shards : List Shard) : List Shard :=
  shards.insertionSort (fun a b => a.index ≤ b.index)

/-- The pieces `stream_plaintext` yields. -/
def streamPlaintext (manifest : ModelManifest F) : Except PyError (List Bytes) := do
  let key ← unwrapKey F crypto root passphrase files manifest.keyId
  (sortedShards manifest.shards).mapM (fun shard =>
    decryptShard crypto root files manifest.modelId shard key)

def readShardPlaintext (manifest : ModelManifest F) (index : ℤ) : Except PyError Bytes :=
  if 0 ≤ index ∧ index < manifest.nShards then
    match manifest.shards.find? (fun item => item.index = index) with
    | none => .error (.indexError index)
    | some shard => do
        let key ← unwrapKey F crypto root passphrase files manifest.keyId
        decryptShard crypto root files manifest.modelId shard key
  else .error (.indexError index)

/-- A manifest that cannot be parsed raises an exception of the parser or the data class. -/
def getManifest (now : F) (modelId : String) : Except PyError (Option (ModelManifest F)) :=
  match files (manifestPath crypto.sha root modelId) with
  | none => .ok none
  | some content =>
      match ModelManifest.load now content with
      | none => .error (.valueError "")
      | some manifest => .ok (if manifest.modelId = modelId then some manifest else none)

/-- What `verify` finds about one shard, and the leaf it adds to the tree. -/
def verifyShard (shard : Shard) : List String × Option Bytes :=
  let label := "shard " ++ toString shard.index
  match files (shardPath root shard.ciphertextHash) with
  | none => ([label ++ ": missing"], none)
  | some blob =>
      let actualHash := crypto.sha.hexdigest blob
      ((if actualHash ≠ shard.ciphertextHash then [label ++ ": ciphertext hash mismatch"]
        else []) ++
        (if blob.length ≠ shard.ciphertextBytes then [label ++ ": size mismatch"] else []) ++
        (if blob.length < 12 ∨ hex (blob.take 12) ≠ shard.nonceHex then
          [label ++ ": nonce mismatch"] else []),
      if actualHash ≠ shard.ciphertextHash then none else fromHex actualHash)

def verify (manifest : ModelManifest F) : Bool × List String :=
  let shards := sortedShards manifest.shards
  let expected := (List.range manifest.nShards.toNat).map Int.ofNat
  let found := shards.map (verifyShard crypto root files)
  let computed := hex (merkleRoot crypto.sha (found.filterMap Prod.snd))
  let errors :=
    (if shards.map Shard.index ≠ expected then ["shard indexes are not contiguous"] else []) ++
      found.flatMap Prod.fst ++
      (if computed ≠ manifest.merkleRoot then
        ["merkle root mismatch: " ++ computed ++ " != " ++ manifest.merkleRoot] else [])
  (errors.isEmpty, errors)

/-- The shard files of the blocks from `index` on, under one key. -/
def Stored (dataKey : Bytes) (modelId : String) : ℕ → List Bytes → List Shard → Prop
  | _, [], shards => shards = []
  | index, block :: rest, shards =>
      ∃ nonce tail, nonce.length = 12 ∧
        shards = (sealShard crypto dataKey modelId index block nonce).2 :: tail ∧
        files
          (shardPath root (sealShard crypto dataKey modelId index block nonce).2.ciphertextHash) =
          some (sealShard crypto dataKey modelId index block nonce).1 ∧
        Stored dataKey modelId (index + 1) rest tail

/-- The wrapped key of a model, readable with the passphrase. -/
def KeyStored (keyId : String) (dataKey : Bytes) : Prop :=
  ∃ text content master nonce, checkPassphrase passphrase = .ok text ∧
    files (configPath root) = some content ∧
    deriveKey F crypto.scrypt text content = .ok master ∧ master.length = 32 ∧
    nonce.length = 12 ∧ files (keyPath root keyId) =
      some (nonce ++ crypto.aes.encrypt master nonce dataKey (encode keyId))

/-- All files of a published model are there and hold what `add_file` put into them. -/
structure Published (pieces : List Bytes) (manifest : ModelManifest F) : Prop where
  file : files (manifestPath crypto.sha root manifest.modelId) = some (encode manifest.toJson)
  metadata : DistinctKeys (.obj manifest.metadata)
  shards : ∃ dataKey, dataKey.length = 32 ∧ KeyStored F crypto root passphrase files manifest.keyId
    dataKey ∧ Stored crypto root files dataKey manifest.modelId 0 pieces manifest.shards
  nShards : manifest.nShards = manifest.shards.length
  keyId : ∃ id, manifest.keyId = "k_" ++ id
  merkle : manifest.merkleRoot = hex (merkleRoot crypto.sha (manifest.shards.map shardLeaf))

/-- No file that is not temporary is removed or changed. -/
def Extends (files files' : Files) : Prop :=
  ∀ path value, isTemporary path = false → files path = some value →
    files' path = some value

theorem isTemporary_manifestPath (modelId : String) :
    isTemporary (manifestPath crypto.sha root modelId) = false := by
  have hpath : manifestPath crypto.sha root modelId =
      (root ++ ["manifests"]) ++ [crypto.sha.hexdigest (encode modelId) ++ ".json"] := by
    simp [manifestPath]
  rw [hpath]
  exact isTemporary_append _ _ (crypto.sha.head_hexdigest _ _)

theorem isTemporary_keyPath (id : String) : isTemporary (keyPath root ("k_" ++ id)) = false := by
  have hpath : keyPath root ("k_" ++ id) = (root ++ ["keys"]) ++ ["k_" ++ id ++ ".bin"] := by
    simp [keyPath]
  rw [hpath]
  exact isTemporary_append _ _ (by simp [String.toList_append])

theorem isTemporary_configPath : isTemporary (configPath root) = false :=
  isTemporary_append root "vault.json" (by decide)

theorem isTemporary_shardPath (message : Bytes) :
    isTemporary (shardPath root (crypto.sha.hexdigest message)) = false := by
  have hpath : shardPath root (crypto.sha.hexdigest message) = (root ++ ["shards",
      slice (crypto.sha.hexdigest message) 0 2, slice (crypto.sha.hexdigest message) 2 4]) ++
      [crypto.sha.hexdigest message ++ ".bin"] := by
    simp [shardPath]
  rw [hpath]
  exact isTemporary_append _ _ (crypto.sha.head_hexdigest _ _)

/-- A shard file that holds its sealed blob decrypts to the block. -/
theorem decryptShard_sealed (dataKey : Bytes) (modelId : String) (index : ℕ) (block nonce : Bytes)
    (hkey : dataKey.length = 32) (hnonce : nonce.length = 12)
    (hfile : files (shardPath root
      (sealShard crypto dataKey modelId index block nonce).2.ciphertextHash) =
        some (sealShard crypto dataKey modelId index block nonce).1) :
    decryptShard crypto root files modelId (sealShard crypto dataKey modelId index block nonce).2
      dataKey = .ok block := by
  have htake : (sealShard crypto dataKey modelId index block nonce).1.take 12 = nonce := by
    simp [sealShard, ← hnonce]
  have hdrop : (sealShard crypto dataKey modelId index block nonce).1.drop 12 =
      crypto.aes.encrypt dataKey nonce block (aad modelId index (crypto.sha.hexdigest block)) := by
    simp [sealShard, ← hnonce]
  have hread : readFile files (shardPath root
      (sealShard crypto dataKey modelId index block nonce).2.ciphertextHash) =
        .ok (sealShard crypto dataKey modelId index block nonce).1 := by
    rw [readFile, hfile]
  have hplain := aesDecrypt_encrypt crypto.aes dataKey nonce block
    (aad modelId index (crypto.sha.hexdigest block)) hkey hnonce
  rw [decryptShard, hread]
  simp only [bind, Except.bind, htake, hdrop]
  simp [sealShard, hplain, pure, Except.pure]

theorem verifyShard_sealed (dataKey : Bytes) (modelId : String) (index : ℕ)
    (block nonce : Bytes) (hnonce : nonce.length = 12)
    (hfile : files (shardPath root
      (sealShard crypto dataKey modelId index block nonce).2.ciphertextHash) =
        some (sealShard crypto dataKey modelId index block nonce).1) :
    verifyShard crypto root files (sealShard crypto dataKey modelId index block nonce).2 =
      ([], some (shardLeaf (sealShard crypto dataKey modelId index block nonce).2)) := by
  have htake : (sealShard crypto dataKey modelId index block nonce).1.take 12 = nonce := by
    simp [sealShard, ← hnonce]
  have hhash : crypto.sha.hexdigest (sealShard crypto dataKey modelId index block nonce).1 =
      (sealShard crypto dataKey modelId index block nonce).2.ciphertextHash := rfl
  have hlength : 12 ≤ (sealShard crypto dataKey modelId index block nonce).1.length := by
    simp [sealShard, hnonce]
  have hleaf : ∀ message, fromHex (crypto.sha.hexdigest message) =
      some ((fromHex (crypto.sha.hexdigest message)).getD []) := by
    intro message
    rw [Sha256.hexdigest, fromHex_hex, Option.getD_some]
  have hbytes : (((sealShard crypto dataKey modelId index block nonce).1.length : ℕ) : ℤ) =
      (sealShard crypto dataKey modelId index block nonce).2.ciphertextBytes := rfl
  have hhex : (sealShard crypto dataKey modelId index block nonce).2.nonceHex = hex nonce := rfl
  rw [verifyShard, hfile]
  simp only [htake, hhash, hbytes, hhex, not_lt.mpr hlength, ne_eq, not_true_eq_false, or_self,
    if_false, List.append_nil, shardLeaf]
  rw [← hhash, ← hleaf]

theorem stored_length (dataKey : Bytes) (modelId : String) (index : ℕ) (pieces : List Bytes)
    (shards : List Shard) (h : Stored crypto root files dataKey modelId index pieces shards) :
    shards.length = pieces.length := by
  induction pieces generalizing index shards with
  | nil => rw [h]; rfl
  | cons block rest ih =>
    obtain ⟨nonce, tail, -, rfl, -, htail⟩ := h
    rw [List.length_cons, List.length_cons, ih (index + 1) tail htail]

theorem stored_index (dataKey : Bytes) (modelId : String) (index : ℕ) (pieces : List Bytes)
    (shards : List Shard) (h : Stored crypto root files dataKey modelId index pieces shards) :
    shards.map Shard.index = (List.range' index pieces.length).map Int.ofNat := by
  induction pieces generalizing index shards with
  | nil => rw [h]; rfl
  | cons block rest ih =>
    obtain ⟨nonce, tail, -, rfl, -, htail⟩ := h
    rw [List.map_cons, ih (index + 1) tail htail, List.length_cons, List.range'_succ,
      List.map_cons]
    rfl

theorem sortedShards_of_stored (dataKey : Bytes) (modelId : String) (index : ℕ)
    (pieces : List Bytes) (shards : List Shard)
    (h : Stored crypto root files dataKey modelId index pieces shards) :
    sortedShards shards = shards := by
  have hsorted : (shards.map Shard.index).Pairwise (· ≤ ·) := by
    rw [stored_index crypto root files dataKey modelId index pieces shards h, List.pairwise_map]
    exact (List.pairwise_le_range' 1).imp (fun hab => Int.ofNat_le.mpr hab)
  exact (List.pairwise_map.mp hsorted).insertionSort_eq

theorem mapM_decryptShard (dataKey : Bytes) (modelId : String) (index : ℕ) (pieces : List Bytes)
    (shards : List Shard) (hkey : dataKey.length = 32)
    (h : Stored crypto root files dataKey modelId index pieces shards) :
    shards.mapM (fun shard => decryptShard crypto root files modelId shard dataKey) =
      .ok pieces := by
  induction pieces generalizing index shards with
  | nil => rw [h]; rfl
  | cons block rest ih =>
    obtain ⟨nonce, tail, hnonce, rfl, hfile, htail⟩ := h
    rw [List.mapM_cons, decryptShard_sealed crypto root files dataKey modelId index block nonce
      hkey hnonce hfile, ih (index + 1) tail htail]
    rfl

theorem map_verifyShard (dataKey : Bytes) (modelId : String) (index : ℕ) (pieces : List Bytes)
    (shards : List Shard) (h : Stored crypto root files dataKey modelId index pieces shards) :
    shards.map (verifyShard crypto root files) =
      shards.map (fun shard => ([], some (shardLeaf shard))) := by
  induction pieces generalizing index shards with
  | nil => rw [h]; rfl
  | cons block rest ih =>
    obtain ⟨nonce, tail, hnonce, rfl, hfile, htail⟩ := h
    rw [List.map_cons, verifyShard_sealed crypto root files dataKey modelId index block nonce
      hnonce hfile, ih (index + 1) tail htail, List.map_cons]

/-- The record of a block is found under its index and decrypts to the block. -/
theorem find_stored (dataKey : Bytes) (modelId : String) (index : ℕ) (pieces : List Bytes)
    (shards : List Shard) (hkey : dataKey.length = 32)
    (h : Stored crypto root files dataKey modelId index pieces shards) (k : ℕ) (piece : Bytes)
    (hk : pieces[k]? = some piece) :
    ∃ shard, shards.find? (fun item => item.index = ((index + k : ℕ) : ℤ)) = some shard ∧
      decryptShard crypto root files modelId shard dataKey = .ok piece := by
  induction pieces generalizing index shards k with
  | nil => simp at hk
  | cons block rest ih =>
    obtain ⟨nonce, tail, hnonce, rfl, hfile, htail⟩ := h
    have hindex : (sealShard crypto dataKey modelId index block nonce).2.index = (index : ℤ) := rfl
    cases k with
    | zero =>
      obtain rfl : block = piece := by simpa using hk
      refine ⟨_, ?_, decryptShard_sealed crypto root files dataKey modelId index block nonce hkey
        hnonce hfile⟩
      exact List.find?_cons_of_pos (by simp [hindex])
    | succ k =>
      obtain ⟨shard, hfind, hshard⟩ := ih (index + 1) tail htail k (by simpa using hk)
      refine ⟨shard, ?_, hshard⟩
      rw [List.find?_cons_of_neg (by rw [hindex]; simp; omega), ← hfind]
      congr 2
      funext item
      rw [show index + (k + 1) = index + 1 + k by omega]

theorem unwrapKey_stored (keyId : String) (dataKey : Bytes) (hdata : dataKey.length = 32)
    (h : KeyStored F crypto root passphrase files keyId dataKey) :
    unwrapKey F crypto root passphrase files keyId = .ok dataKey := by
  obtain ⟨text, content, master, nonce, htext, hconfig, hderive, hmaster, hnonce, hfile⟩ := h
  have hlength := crypto.aes.encrypt_length master nonce dataKey (encode keyId)
  have hplain := aesDecrypt_encrypt crypto.aes master nonce dataKey (encode keyId) hmaster hnonce
  have hread : readFile files (keyPath root keyId) =
      .ok (nonce ++ crypto.aes.encrypt master nonce dataKey (encode keyId)) := by
    rw [readFile, hfile]
  have hcontent : readFile files (configPath root) = .ok content := by rw [readFile, hconfig]
  have hlong : ¬ (nonce ++ crypto.aes.encrypt master nonce dataKey (encode keyId)).length < 29 := by
    rw [List.length_append, hlength]
    omega
  rw [unwrapKey, hread, htext, hcontent]
  simp only [bind, Except.bind, hlong, if_false, hderive]
  rw [List.take_left' hnonce, List.drop_left' hnonce]
  exact hplain

variable {F} in
theorem published_read (pieces : List Bytes) (manifest : ModelManifest F)
    (h : Published F crypto root passphrase files pieces manifest) :
    ∃ dataKey, dataKey.length = 32 ∧
      unwrapKey F crypto root passphrase files manifest.keyId = .ok dataKey ∧
      Stored crypto root files dataKey manifest.modelId 0 pieces manifest.shards := by
  obtain ⟨dataKey, hlength, hkey, hstored⟩ := h.shards
  exact ⟨dataKey, hlength, unwrapKey_stored F crypto root passphrase files _ dataKey hlength hkey,
    hstored⟩

variable {F}

/-- A manifest file is read back, its metadata in the order of the file. -/
theorem getManifest_of_file (now : F) (manifest : ModelManifest F)
    (hfile : files (manifestPath crypto.sha root manifest.modelId) = some (encode manifest.toJson))
    (hmetadata : DistinctKeys (.obj manifest.metadata)) :
    getManifest F crypto root files now manifest.modelId = .ok (some manifest.sorted) := by
  have hid : manifest.sorted.modelId = manifest.modelId := rfl
  rw [getManifest, hfile]
  simp only [load_toJson now manifest hmetadata, hid, if_true]

theorem getManifest_published (now : F) (pieces : List Bytes) (manifest : ModelManifest F)
    (h : Published F crypto root passphrase files pieces manifest) :
    getManifest F crypto root files now manifest.modelId = .ok (some manifest.sorted) :=
  getManifest_of_file crypto root files now manifest h.file h.metadata

theorem streamPlaintext_published (pieces : List Bytes) (manifest : ModelManifest F)
    (h : Published F crypto root passphrase files pieces manifest) :
    streamPlaintext F crypto root passphrase files manifest = .ok pieces := by
  obtain ⟨dataKey, hlength, hkey, hstored⟩ := published_read crypto root passphrase files _ _ h
  rw [streamPlaintext, hkey,
    sortedShards_of_stored crypto root files dataKey _ 0 pieces _ hstored]
  exact mapM_decryptShard crypto root files dataKey _ 0 pieces _ hlength hstored

theorem published_nShards (pieces : List Bytes) (manifest : ModelManifest F)
    (h : Published F crypto root passphrase files pieces manifest) :
    manifest.nShards = pieces.length := by
  obtain ⟨dataKey, -, -, hstored⟩ := published_read crypto root passphrase files _ _ h
  rw [h.nShards, stored_length crypto root files dataKey _ 0 pieces _ hstored]

theorem readShardPlaintext_published (pieces : List Bytes) (manifest : ModelManifest F)
    (h : Published F crypto root passphrase files pieces manifest) (k : ℕ) (piece : Bytes)
    (hpiece : pieces[k]? = some piece) :
    readShardPlaintext F crypto root passphrase files manifest k = .ok piece := by
  have hn := published_nShards crypto root passphrase files pieces manifest h
  obtain ⟨dataKey, hlength, hkey, hstored⟩ := published_read crypto root passphrase files _ _ h
  have hlt := (List.getElem?_eq_some_iff.mp hpiece).1
  obtain ⟨shard, hfind, hdecrypt⟩ := find_stored crypto root files dataKey _ 0 pieces _ hlength
    hstored k piece hpiece
  rw [Nat.zero_add] at hfind
  rw [readShardPlaintext, if_pos (by omega), hfind]
  simp only [hkey, bind, Except.bind, hdecrypt]

theorem readShardPlaintext_out_of_range (manifest : ModelManifest F) (index : ℤ)
    (h : ¬ (0 ≤ index ∧ index < manifest.nShards)) :
    readShardPlaintext F crypto root passphrase files manifest index =
      .error (.indexError index) := if_neg h

theorem verify_published (pieces : List Bytes) (manifest : ModelManifest F)
    (h : Published F crypto root passphrase files pieces manifest) :
    verify F crypto root files manifest = (true, []) := by
  obtain ⟨dataKey, hlength, hkey, hstored⟩ := published_read crypto root passphrase files _ _ h
  have hn := published_nShards crypto root passphrase files pieces manifest h
  have hindex := stored_index crypto root files dataKey _ 0 pieces _ hstored
  rw [← List.range_eq_range'] at hindex
  have hfound := map_verifyShard crypto root files dataKey _ 0 pieces _ hstored
  have hleaves : ∀ shards : List Shard,
      (shards.map (fun shard => (([] : List String), some (shardLeaf shard)))).filterMap Prod.snd =
        shards.map shardLeaf := by
    intro shards
    induction shards with
    | nil => rfl
    | cons shard rest ih => simp
  have herrors : ∀ shards : List Shard,
      (shards.map (fun shard => (([] : List String), some (shardLeaf shard)))).flatMap Prod.fst =
        [] := by
    intro shards
    simp
  rw [verify, sortedShards_of_stored crypto root files dataKey _ 0 pieces _ hstored]
  simp only [hfound, hleaves, herrors, hindex, hn, Int.toNat_natCast, ne_eq, not_true_eq_false,
    if_false, ← h.merkle, List.append_nil]
  rfl

section Configuration

/-- The configuration that a constructor writes. -/
def configMembers (F : Type) (vaultId : String) (salt : Bytes) (shardSize : ℕ) : Members F :=
  [("format_version", .int 1), ("vault_id", .str vaultId), ("kdf", .str "scrypt-n32768-r8-p1"),
    ("kdf_salt", .str (hex salt)), ("shard_size", .int shardSize)]

theorem loadConfig_configJson (vaultId : String) (salt : Bytes) (shardSize : ℕ) :
    loadConfig (F := F) (encode (dumps (indented 2) (configJson vaultId salt shardSize) ++ "\n")) =
      .ok (.obj (configMembers F vaultId salt shardSize)) := by
  have hkeys : DistinctKeys (.obj (configMembers F vaultId salt shardSize)) :=
    ⟨by simp [configMembers], trivial, trivial, trivial, trivial, trivial, trivial⟩
  have htext : dumps (indented 2) (configJson vaultId salt shardSize) =
      dumps (indented 2) (.obj (configMembers F vaultId salt shardSize)) := rfl
  rw [loadConfig, htext, loads_readText (indented 2) _ hkeys]

omit [FloatText F] in
theorem configSalt_configMembers (vaultId : String) (salt : Bytes) (shardSize : ℕ) :
    configSalt (.obj (configMembers F vaultId salt shardSize)) = .ok salt := by
  have hlookup : (configMembers F vaultId salt shardSize).lookup "kdf_salt" =
      some (.str (hex salt)) := rfl
  simp only [configSalt, hlookup, fromHex_hex]

theorem checkConfig_configMembers (vaultId : String) (salt : Bytes) (shardSize : ℕ)
    (hsalt : salt.length = 16) :
    checkConfig (.obj (configMembers F vaultId salt shardSize)) = .ok () := by
  have hlookup : (configMembers F vaultId salt shardSize).lookup "format_version" =
      some (.int 1) := rfl
  simp [checkConfig, hlookup, configSalt_configMembers, hsalt, isOne]

theorem deriveKey_configJson (scrypt : Scrypt) (passphrase vaultId : String) (salt : Bytes)
    (shardSize : ℕ) :
    deriveKey F scrypt passphrase
        (encode (dumps (indented 2) (configJson vaultId salt shardSize) ++ "\n")) =
      .ok (scrypt.derive salt (encode passphrase)) := by
  simp only [deriveKey, loadConfig_configJson, bind, Except.bind, configSalt_configMembers]
  rfl

end Configuration

end Decillion.VaultReads
