import Decillion.StorageReceipts
import Decillion.VaultReads

/-!
What the Merkle root of a manifest says about the shards it lists. Manifests of one root
that `verify` accepts list the same ciphertext hashes in the same order, except that the
one may go on after the end of the other: an odd level of the tree repeats its last node,
and a manifest that lists that node's shards once more has the same root.
-/
namespace Decillion.ManifestRoots

open ByteText JsonStrings Primitives MerkleTrees AccessRequests HostSystem ShardManifests ShardVault
open VaultReads
open StorageReceipts (hashNode DigestPair hashNode_injOn)

variable {F : Type} (crypto : Crypto) (root : Path) (files : Files)

/-- The ciphertext hashes in the order of the indices. -/
def ciphertextHashes (manifest : ModelManifest F) : List String :=
  (sortedShards manifest.shards).map Shard.ciphertextHash

def manifestLeaves (manifest : ModelManifest F) : List Bytes :=
  (sortedShards manifest.shards).map shardLeaf

/-- The shard files that a manifest names. -/
def manifestBlobs (manifest : ModelManifest F) : Set Bytes :=
  {blob | ∃ shard ∈ manifest.shards, files (shardPath root shard.ciphertextHash) = some blob}

/-- Every message that `verify` hashes. -/
def verifyInputs (manifest : ModelManifest F) : Set Bytes :=
  manifestBlobs root files manifest ∪
    {message | ∃ p ∈ hashedPairs (hashNode crypto.sha) (manifestLeaves manifest).length
      (manifestLeaves manifest), p.1 ++ p.2 = message}

/-- One list goes on after the end of the other. -/
def GoesOn (shorter longer : List String) : Prop :=
  shorter <+: longer ∧ shorter.length < longer.length

/-- A shard record that `verify` finds no fault with. -/
structure Intact (shard : Shard) (blob : Bytes) : Prop where
  file : files (shardPath root shard.ciphertextHash) = some blob
  hash : crypto.sha.hexdigest blob = shard.ciphertextHash
  bytes : (blob.length : ℤ) = shard.ciphertextBytes
  nonce : 12 ≤ blob.length ∧ hex (blob.take 12) = shard.nonceHex

theorem mem_sortedShards (shards : List Shard) (shard : Shard) :
    shard ∈ sortedShards shards ↔ shard ∈ shards := List.mem_insertionSort _

theorem intact_of_verifyShard (shard : Shard) (h : (verifyShard crypto root files shard).1 = []) :
    ∃ blob, Intact crypto root files shard blob := by
  unfold verifyShard at h
  cases hfile : files (shardPath root shard.ciphertextHash) with
  | none => rw [hfile] at h; simp at h
  | some blob =>
    rw [hfile] at h
    simp only [List.append_eq_nil_iff, ite_eq_right_iff, List.cons_ne_nil, imp_false,
      not_or, not_lt, not_not, ne_eq] at h
    exact ⟨blob, hfile, h.1.1, h.1.2, h.2⟩

theorem leaf_of_intact (shard : Shard) (blob : Bytes) (h : Intact crypto root files shard blob) :
    shardLeaf shard = crypto.sha.digest blob ∧
      (verifyShard crypto root files shard).2 = some (shardLeaf shard) := by
  have hleaf : shardLeaf shard = crypto.sha.digest blob := by
    rw [shardLeaf, ← h.hash, Sha256.hexdigest, fromHex_hex, Option.getD_some]
  refine ⟨hleaf, ?_⟩
  have hshown : fromHex (crypto.sha.hexdigest blob) = some (crypto.sha.digest blob) := by
    rw [Sha256.hexdigest, fromHex_hex]
  rw [verifyShard, h.file, hleaf]
  simp only [h.hash, ne_eq, not_true_eq_false, if_false]
  rw [← h.hash, hshown]

/-- What it means that `verify` accepts a manifest. -/
structure Accepted (manifest : ModelManifest F) : Prop where
  indexes : (sortedShards manifest.shards).map Shard.index =
    (List.range manifest.nShards.toNat).map Int.ofNat
  shards : ∀ shard ∈ manifest.shards, ∃ blob, Intact crypto root files shard blob
  merkle : hex (merkleRoot crypto.sha (manifestLeaves manifest)) = manifest.merkleRoot

theorem accepted_of_verify (manifest : ModelManifest F)
    (h : (verify F crypto root files manifest).1 = true) :
    Accepted crypto root files manifest := by
  unfold verify at h
  simp only [List.isEmpty_iff, List.append_eq_nil_iff, ite_eq_right_iff, List.cons_ne_nil,
    imp_false, not_not, ne_eq, List.flatMap_eq_nil_iff, List.mem_map, forall_exists_index,
    and_imp, forall_apply_eq_imp_iff₂] at h
  obtain ⟨⟨hindexes, hfound⟩, hmerkle⟩ := h
  have hintact : ∀ shard ∈ sortedShards manifest.shards, ∃ blob,
      Intact crypto root files shard blob :=
    fun shard hshard => intact_of_verifyShard crypto root files shard (hfound shard hshard)
  have hleaves : ((sortedShards manifest.shards).map (verifyShard crypto root files)).filterMap
      Prod.snd = manifestLeaves manifest := by
    rw [manifestLeaves, List.filterMap_map, ← List.filterMap_eq_map]
    apply List.filterMap_congr
    intro shard hshard
    obtain ⟨blob, hblob⟩ := hintact shard hshard
    exact (leaf_of_intact crypto root files shard blob hblob).2
  rw [hleaves] at hmerkle
  exact ⟨hindexes, fun shard hshard => hintact shard ((mem_sortedShards _ _).mpr hshard), hmerkle⟩

variable {crypto root files} {manifest other : ModelManifest F}

theorem Accepted.length (h : Accepted crypto root files manifest) :
    (manifestLeaves manifest).length = manifest.nShards.toNat := by
  have hlength := congrArg List.length h.indexes
  simpa [manifestLeaves] using hlength

theorem Accepted.ciphertextHashes (h : Accepted crypto root files manifest) :
    ciphertextHashes manifest = (manifestLeaves manifest).map hex := by
  rw [ManifestRoots.ciphertextHashes, manifestLeaves, List.map_map]
  apply List.map_congr_left
  intro shard hshard
  obtain ⟨blob, hblob⟩ := h.shards shard ((mem_sortedShards _ _).mp hshard)
  rw [Function.comp_apply, (leaf_of_intact crypto root files shard blob hblob).1, ← hblob.hash]
  rfl

/-- Every leaf is the digest of a shard file. -/
theorem Accepted.leaf (h : Accepted crypto root files manifest) (leaf : Bytes)
    (hleaf : leaf ∈ manifestLeaves manifest) :
    ∃ blob ∈ manifestBlobs root files manifest, leaf = crypto.sha.digest blob := by
  obtain ⟨shard, hshard, rfl⟩ := List.mem_map.mp hleaf
  have hmem := (mem_sortedShards _ _).mp hshard
  obtain ⟨blob, hblob⟩ := h.shards shard hmem
  exact ⟨blob, ⟨shard, hmem, hblob.file⟩, (leaf_of_intact crypto root files shard blob hblob).1⟩

theorem Accepted.digestPair (h : Accepted crypto root files manifest) (messages : Set Bytes)
    (hinputs : verifyInputs crypto root files manifest ⊆ messages) :
    ∀ p ∈ hashedPairs (hashNode crypto.sha) (manifestLeaves manifest).length
      (manifestLeaves manifest), p ∈ DigestPair messages := by
  intro p hp
  have hlengths := forall_hashedPairs (hashNode crypto.sha) (fun d => d.length = 32)
    (fun x y => crypto.sha.digest_length (x ++ y)) _ (manifestLeaves manifest) (by
      intro leaf hleaf
      obtain ⟨blob, -, rfl⟩ := h.leaf leaf hleaf
      exact crypto.sha.digest_length blob) p hp
  exact ⟨hlengths.1, hlengths.2, hinputs (Or.inr ⟨p, hp, rfl⟩)⟩

theorem Accepted.climb (h : Accepted crypto root files manifest)
    (hne : manifestLeaves manifest ≠ []) :
    ∃ top, climb (hashNode crypto.sha) (manifestLeaves manifest).length (manifestLeaves manifest) =
      [top] ∧ manifest.merkleRoot = hex top := by
  obtain ⟨top, htop⟩ := List.length_eq_one_iff.mp
    (climb_length (hashNode crypto.sha) _ _ hne le_rfl)
  refine ⟨top, htop, ?_⟩
  have hleaves : (manifestLeaves manifest).isEmpty = false := by simpa using hne
  have hroot : merkleRoot crypto.sha (manifestLeaves manifest) = (MerkleTrees.climb
      (hashNode crypto.sha) (manifestLeaves manifest).length
        (manifestLeaves manifest)).headD [] := by
    rw [merkleRoot, hleaves]
    rfl
  rw [← h.merkle, hroot, htop]
  rfl

/-- Two lists of leaves with one root: one is a beginning of the other. -/
theorem comparable_of_merkleRoot (h : Accepted crypto root files manifest)
    (hother : Accepted crypto root files other)
    (hcollision : crypto.sha.NoCollision
      (verifyInputs crypto root files manifest ∪ verifyInputs crypto root files other))
    (hblobs : ∀ blob ∈ manifestBlobs root files manifest ∪ manifestBlobs root files other,
      blob.length ≠ 64)
    (hroot : manifest.merkleRoot = other.merkleRoot) :
    Comparable (manifestLeaves manifest) (manifestLeaves other) := by
  by_cases hne : manifestLeaves manifest = []
  · exact Or.inl (hne ▸ List.nil_prefix)
  by_cases hone : manifestLeaves other = []
  · exact Or.inr (hone ▸ List.nil_prefix)
  obtain ⟨top, htop, htext⟩ := h.climb hne
  obtain ⟨top', htop', htext'⟩ := hother.climb hone
  apply climb_comparable (hashNode_injOn crypto.sha _ hcollision) _ _ hne hone
    (h.digestPair _ Set.subset_union_left) (hother.digestPair _ Set.subset_union_right)
  · intro leaf hleaf p hp heq
    have hblob : ∃ blob ∈ manifestBlobs root files manifest ∪ manifestBlobs root files other,
        blob ∈ verifyInputs crypto root files manifest ∪ verifyInputs crypto root files other ∧
          leaf = crypto.sha.digest blob := by
      rcases hleaf with hleaf | hleaf
      · obtain ⟨blob, hblob, hdigest⟩ := h.leaf leaf hleaf
        exact ⟨blob, Or.inl hblob, Or.inl (Or.inl hblob), hdigest⟩
      · obtain ⟨blob, hblob, hdigest⟩ := hother.leaf leaf hleaf
        exact ⟨blob, Or.inr hblob, Or.inr (Or.inl hblob), hdigest⟩
    obtain ⟨blob, hblob, hinput, hdigest⟩ := hblob
    have hsame : blob = p.1 ++ p.2 := hcollision hinput hp.2.2 (hdigest.symm.trans heq)
    apply hblobs blob hblob
    rw [hsame, List.length_append, hp.1, hp.2.1]
  · rw [htop, htop', hex_injective (htext.symm.trans (hroot.trans htext'))]

/-- Two accepted manifests of one root agree on their shards exactly when neither list goes on
after the end of the other, and on the number of shards unless it is not positive. -/
theorem merkleRoot_commits (crypto : Crypto) (root : Path) (files : Files)
    (manifest other : ModelManifest F)
    (haccepted : (verify F crypto root files manifest).1 = true)
    (haccepted' : (verify F crypto root files other).1 = true)
    (hcollision : crypto.sha.NoCollision
      (verifyInputs crypto root files manifest ∪ verifyInputs crypto root files other))
    (hblobs : ∀ blob ∈ manifestBlobs root files manifest ∪ manifestBlobs root files other,
      blob.length ≠ 64)
    (hroot : manifest.merkleRoot = other.merkleRoot) :
    (ciphertextHashes manifest = ciphertextHashes other ∧ manifest.nShards = other.nShards) ↔
      (¬ GoesOn (ciphertextHashes manifest) (ciphertextHashes other) ∧
        ¬ GoesOn (ciphertextHashes other) (ciphertextHashes manifest)) ∧
      (0 < manifest.nShards ∨ 0 < other.nShards ∨ manifest.nShards = other.nShards) := by
  have h := accepted_of_verify crypto root files manifest haccepted
  have hother := accepted_of_verify crypto root files other haccepted'
  constructor
  · rintro ⟨hhashes, hcount⟩
    refine ⟨⟨?_, ?_⟩, Or.inr (Or.inr hcount)⟩
    · exact fun hgoes => absurd hgoes.2 (by rw [hhashes]; omega)
    · exact fun hgoes => absurd hgoes.2 (by rw [hhashes]; omega)
  · rintro ⟨⟨hforward, hbackward⟩, hcount⟩
    have hcomparable := comparable_of_merkleRoot h hother hcollision hblobs hroot
    have hleaves : manifestLeaves manifest = manifestLeaves other := by
      apply hcomparable.eq_of_length
      by_contra hlength
      rw [h.ciphertextHashes, hother.ciphertextHashes] at hforward hbackward
      rcases hcomparable with hprefix | hprefix
      · have hle := hprefix.length_le
        exact hforward ⟨ hprefix.map hex, by simp only [List.length_map]; omega⟩
      · have hle := hprefix.length_le
        exact hbackward ⟨ hprefix.map hex, by simp only [List.length_map]; omega⟩
    have hlength := congrArg List.length hleaves
    rw [h.length, hother.length] at hlength
    exact ⟨by rw [h.ciphertextHashes, hother.ciphertextHashes, hleaves], by omega⟩

def sampleBlob (n : UInt8) : Bytes := List.replicate 13 n

def sampleBlobs : List Bytes := [sampleBlob 1, sampleBlob 2, sampleBlob 3]

def sampleFiles : Files := fun path =>
  sampleBlobs.find? (fun blob => path = shardPath [] (Sha256.sample.hexdigest blob))

def sampleShard (entry : UInt8 × ℕ) : Shard where
  index := entry.2
  plaintextHash := ""
  ciphertextHash := Sha256.sample.hexdigest (sampleBlob entry.1)
  plaintextBytes := 0
  ciphertextBytes := 13
  nonceHex := hex ((sampleBlob entry.1).take 12)

/-- A manifest that lists the given shard files. -/
def sampleManifest (blobs : List UInt8) : ModelManifest WholeFloat where
  modelId := "m"
  source := ""
  license := ""
  sizeBytes := 0
  nShards := blobs.length
  merkleRoot := hex (merkleRoot Sha256.sample
    (blobs.map (fun n => Sha256.sample.digest (sampleBlob n))))
  keyId := ""
  shards := blobs.zipIdx.map sampleShard
  createdAt := ⟨0⟩
  metadata := []
  formatVersion := 1

def sampleMessages (blobs : List UInt8) : List Bytes :=
  let leaves := blobs.map (fun n => Sha256.sample.digest (sampleBlob n))
  sampleBlobs ++ (hashedPairs (hashNode Sha256.sample) leaves.length leaves).map
    (fun p => p.1 ++ p.2)

theorem manifestBlobs_sample (manifest : ModelManifest WholeFloat) (blob : Bytes)
    (h : blob ∈ manifestBlobs [] sampleFiles manifest) : blob ∈ sampleBlobs := by
  obtain ⟨shard, -, hfile⟩ := h
  exact List.mem_of_find?_eq_some hfile

theorem verifyInputs_sample (manifest : ModelManifest WholeFloat) (blobs : List UInt8)
    (hleaves : manifestLeaves manifest =
      blobs.map (fun n => Sha256.sample.digest (sampleBlob n))) (message : Bytes)
    (h : message ∈ verifyInputs Crypto.sample [] sampleFiles manifest) :
    message ∈ sampleMessages blobs := by
  rcases h with hblob | ⟨p, hp, rfl⟩
  · exact List.mem_append_left _ (manifestBlobs_sample manifest message hblob)
  · rw [hleaves] at hp
    exact List.mem_append_right _ (List.mem_map.mpr ⟨p, hp, rfl⟩)

theorem length_sampleBlobs : ∀ blob ∈ sampleBlobs, blob.length ≠ 64 := by decide

theorem noCollision_sample : Sha256.sample.NoCollision {m | m ∈ sampleMessages [1, 2, 3]} :=
  Sha256.noCollision_of_list _ _ (by decide +kernel)

/-- The same shards in another order of the list, under another model id. -/
def reorderedManifest : ModelManifest WholeFloat :=
  { sampleManifest [1, 2, 3] with
    modelId := "n"
    shards := (sampleManifest [1, 2, 3]).shards.reverse }

theorem merkleRoot_commits_sample :
    ciphertextHashes (sampleManifest [1, 2, 3]) = ciphertextHashes reorderedManifest ∧
      (sampleManifest [1, 2, 3]).nShards = reorderedManifest.nShards := by
  refine (merkleRoot_commits Crypto.sample [] sampleFiles _ _ (by decide +kernel)
    (by decide +kernel) ?_ ?_ rfl).mpr ?_
  · apply noCollision_sample.mono
    rintro message (h | h)
    · exact verifyInputs_sample _ _ (by decide +kernel) message h
    · exact verifyInputs_sample _ _ (by decide +kernel) message h
  · rintro blob (h | h)
    · exact length_sampleBlobs blob (manifestBlobs_sample _ blob h)
    · exact length_sampleBlobs blob (manifestBlobs_sample _ blob h)
  · exact ⟨⟨fun h => absurd h.2 (by decide +kernel), fun h => absurd h.2 (by decide +kernel)⟩,
      Or.inl (by decide)⟩

/-- The last of three shards listed once more leaves the root as it is. -/
theorem merkleRoot_repeated :
    ¬ ∀ (crypto : Crypto) (root : Path) (files : Files) (manifest other : ModelManifest WholeFloat),
      (verify WholeFloat crypto root files manifest).1 = true →
      (verify WholeFloat crypto root files other).1 = true →
      crypto.sha.NoCollision
        (verifyInputs crypto root files manifest ∪ verifyInputs crypto root files other) →
      (∀ blob ∈ manifestBlobs root files manifest ∪ manifestBlobs root files other,
        blob.length ≠ 64) →
      manifest.merkleRoot = other.merkleRoot →
      ciphertextHashes manifest = ciphertextHashes other ∧ manifest.nShards = other.nShards := by
  intro hclaim
  have hsame : sampleMessages [1, 2, 3, 3] = sampleMessages [1, 2, 3] := by decide +kernel
  have hequal := hclaim Crypto.sample [] sampleFiles (sampleManifest [1, 2, 3])
    (sampleManifest [1, 2, 3, 3]) (by decide +kernel) (by decide +kernel) ?_ ?_ (by decide +kernel)
  · exact absurd hequal.2 (by decide)
  · apply noCollision_sample.mono
    rintro message (h | h)
    · exact verifyInputs_sample _ _ (by decide +kernel) message h
    · exact hsame ▸ verifyInputs_sample _ _ (by decide +kernel) message h
  · rintro blob (h | h)
    · exact length_sampleBlobs blob (manifestBlobs_sample _ blob h)
    · exact length_sampleBlobs blob (manifestBlobs_sample _ blob h)

end Decillion.ManifestRoots
