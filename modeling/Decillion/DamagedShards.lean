import Decillion.ManifestRoots
import Decillion.VaultRuns

/-!
A published model whose shards directory has been changed in any way, while the manifest,
the wrapped key and the configuration are as they were. The check of the vault passes exactly
when every shard file holds the blob that was written, and then the plaintext is complete.
-/
namespace Decillion.DamagedShards

open ByteText AccessRequests Blocks JsonValues JsonText JsonStrings Primitives HostSystem
open ShardManifests ShardVault HostRules VaultReads VaultWrites VaultRuns ManifestRoots

variable {F : Type} [FloatText F] (crypto : Crypto) (root : Path) (files files' : Files)

/-- The shard file of a record is there and holds what it held before. -/
def HoldsBlob (shard : Shard) : Prop :=
  ∃ blob, files (shardPath root shard.ciphertextHash) = some blob ∧
    files' (shardPath root shard.ciphertextHash) = some blob

/-- Nothing outside the shards directory has changed. -/
def OnlyShards : Prop :=
  ∀ path, ¬ (root ++ ["shards"]) <+: path → files' path = files path

theorem stored_file (dataKey : Bytes) (modelId : String) (index : ℕ) (pieces : List Bytes)
    (shards : List Shard) (h : Stored crypto root files dataKey modelId index pieces shards)
    (shard : Shard) (hshard : shard ∈ shards) :
    ∃ blob, files (shardPath root shard.ciphertextHash) = some blob ∧
      crypto.sha.hexdigest blob = shard.ciphertextHash := by
  induction pieces generalizing index shards with
  | nil =>
    rw [h] at hshard
    exact absurd hshard List.not_mem_nil
  | cons block rest ih =>
    obtain ⟨nonce, tail, -, rfl, hfile, htail⟩ := h
    rcases List.mem_cons.mp hshard with rfl | hmem
    · exact ⟨_, hfile, rfl⟩
    · exact ih (index + 1) tail htail hmem

variable {files files'}

theorem stored_holds (dataKey : Bytes) (modelId : String) (index : ℕ) (pieces : List Bytes)
    (shards : List Shard) (h : Stored crypto root files dataKey modelId index pieces shards)
    (hholds : ∀ shard ∈ shards, HoldsBlob root files files' shard) :
    Stored crypto root files' dataKey modelId index pieces shards := by
  induction pieces generalizing index shards with
  | nil => exact h
  | cons block rest ih =>
    obtain ⟨nonce, tail, hnonce, rfl, hfile, htail⟩ := h
    obtain ⟨blob, hblob, hblob'⟩ := hholds _ List.mem_cons_self
    refine ⟨nonce, tail, hnonce, rfl, ?_, ih (index + 1) tail htail
      (fun shard hshard => hholds shard (List.mem_cons_of_mem _ hshard))⟩
    rw [hblob', ← hblob, hfile]

theorem manifestPath_not_shards (modelId : String) :
    ¬ (root ++ ["shards"]) <+: manifestPath crypto.sha root modelId := by
  rw [manifestPath, List.prefix_append_right_inj]
  simp

theorem keyPath_not_shards (keyId : String) : ¬ (root ++ ["shards"]) <+: keyPath root keyId := by
  rw [keyPath, List.prefix_append_right_inj]
  simp

theorem configPath_not_shards : ¬ (root ++ ["shards"]) <+: configPath root := by
  rw [configPath, List.prefix_append_right_inj]
  simp

/-- A model whose shard files are as they were is still published. -/
theorem published_holds (passphrase : Option String) (pieces : List Bytes)
    (manifest : ModelManifest F) (hkept : OnlyShards root files files')
    (h : Published F crypto root passphrase files pieces manifest)
    (hholds : ∀ shard ∈ manifest.shards, HoldsBlob root files files' shard) :
    Published F crypto root passphrase files' pieces manifest where
  file := by
    rw [hkept _ (manifestPath_not_shards crypto root _)]
    exact h.file
  metadata := h.metadata
  shards := by
    obtain ⟨dataKey, hlength, ⟨text, content, master, nonce, htext, hconfig, hderive, hmaster,
      hnonce, hkey⟩, hstored⟩ := h.shards
    refine ⟨dataKey, hlength, ⟨text, content, master, nonce, htext, ?_, hderive, hmaster, hnonce,
      ?_⟩, stored_holds crypto root dataKey _ 0 pieces _ hstored hholds⟩
    · rw [hkept _ (configPath_not_shards root), hconfig]
    · rw [hkept _ (keyPath_not_shards root _), hkey]
  nShards := h.nShards
  keyId := h.keyId
  merkle := h.merkle

/-- An accepted manifest finds every blob: the one found has the digest of the one written. -/
theorem holds_of_verify (passphrase : Option String) (pieces : List Bytes)
    (manifest : ModelManifest F) (h : Published F crypto root passphrase files pieces manifest)
    (hcollision : crypto.sha.NoCollision
      (manifestBlobs root files manifest ∪ manifestBlobs root files' manifest))
    (hverify : (verify F crypto root files' manifest).1 = true) (shard : Shard)
    (hshard : shard ∈ manifest.shards) : HoldsBlob root files files' shard := by
  obtain ⟨dataKey, -, -, hstored⟩ := published_read crypto root passphrase files _ _ h
  obtain ⟨blob, hblob, hhash⟩ := stored_file crypto root files dataKey _ 0 pieces _ hstored shard
    hshard
  obtain ⟨found, hfound⟩ := (accepted_of_verify crypto root files' manifest hverify).shards shard
    hshard
  have hsame : blob = found := hcollision.eq_of_hexdigest (Or.inl ⟨shard, hshard, hblob⟩)
    (Or.inr ⟨shard, hshard, hfound.file⟩) (hhash.trans hfound.hash.symm)
  exact ⟨blob, hblob, hsame ▸ hfound.file⟩

theorem verify_iff_holds (passphrase : Option String) (pieces : List Bytes)
    (manifest : ModelManifest F) (hkept : OnlyShards root files files')
    (h : Published F crypto root passphrase files pieces manifest)
    (hcollision : crypto.sha.NoCollision
      (manifestBlobs root files manifest ∪ manifestBlobs root files' manifest)) :
    (verify F crypto root files' manifest = (true, []) ↔
      ∀ shard ∈ manifest.shards, HoldsBlob root files files' shard) ∧
    (verify F crypto root files' manifest = (true, []) →
      streamPlaintext F crypto root passphrase files' manifest = .ok pieces) := by
  have hfound := holds_of_verify crypto root passphrase pieces manifest h hcollision
  refine ⟨⟨fun hverify => hfound (by rw [hverify]), fun hholds => ?_⟩, fun hverify => ?_⟩
  · exact verify_published crypto root passphrase files' pieces manifest
      (published_holds crypto root passphrase pieces manifest hkept h hholds)
  · exact streamPlaintext_published crypto root passphrase files' pieces manifest
      (published_holds crypto root passphrase pieces manifest hkept h (hfound (by rw [hverify])))

variable (files')

/-- In every run of a vault, and for every later content of the shards directory: the check of
a model that `add_file` has returned passes exactly when every shard file holds what it held
when the call returned, and the plaintext is the file that was added then. -/
theorem verify_run_iff (env : Env F) (start : Host)
    (hempty : ∀ path, root <+: path → start.files path = none)
    (before after : List (VaultCall F × ℕ)) (c : VaultCall F × ℕ)
    (huuid : Distinct env (runCalls crypto root env start (before ++ c :: after)).tick)
    (size : ℕ) (positive : 0 < size) (call : AddFile F) (manifest : ModelManifest F)
    (hcall : c.1 = .add size positive call)
    (hreturned : (runCall crypto root env c (runCalls crypto root env start before)).1 =
      some (.ok (some manifest)))
    (hkept : OnlyShards root (runCalls crypto root env start (before ++ c :: after)).files files')
    (hcollision : crypto.sha.NoCollision
      (manifestBlobs root (runCalls crypto root env start (before ++ [c])).files manifest ∪
        manifestBlobs root files' manifest))
    (manifest' : ModelManifest F) (hsame : manifest'.Same manifest) :
    (verify F crypto root files' manifest' = (true, []) ↔
      ∀ shard ∈ manifest.shards,
        HoldsBlob root (runCalls crypto root env start (before ++ [c])).files files' shard) ∧
    (verify F crypto root files' manifest' = (true, []) → ∃ pieces,
      streamPlaintext F crypto root (passphrase env) files' manifest' = .ok pieces ∧
        pieces.flatten = call.content) := by
  have hstep : runCalls crypto root env start (before ++ [c]) =
      (runCall crypto root env c (runCalls crypto root env start before)).2 := by
    simp [runCalls]
  have hall : runCalls crypto root env start (before ++ c :: after) = runCalls crypto root env
      (runCall crypto root env c (runCalls crypto root env start before)).2 after := by
    simp [runCalls]
  rw [hall] at huuid hkept
  rw [hstep] at hcollision ⊢
  have huuid₁ := huuid.mono (runCalls_tick crypto _ after)
  have huuid₀ := huuid₁.mono (runCall_tick crypto c _)
  have hbefore := (sound_runCalls crypto before start huuid₀ (sound_empty crypto start hempty)).1
  generalize runCalls crypto root env start before = s at *
  obtain ⟨hsound, -⟩ := sound_runCall crypto c s huuid₁ hbefore
  have hext := (sound_runCalls crypto after _ huuid hsound).2
  have hpublished : Published F crypto root (passphrase env)
      (runCall crypto root env c s).2.files (blocks size call.content) manifest := by
    rcases runCall_cases crypto c s huuid₁ hbefore.keys with
      ⟨-, hnone⟩ | ⟨size', positive', call', other, hcall', hcompleted, hother | hcut⟩
    · exact absurd hreturned (hnone manifest)
    · rw [hcall, VaultCall.add.injEq] at hcall'
      obtain ⟨rfl, rfl⟩ := hcall'
      rw [hother] at hreturned
      obtain rfl : other = manifest := by simpa using hreturned
      exact hcompleted.2.1
    · rw [hcut] at hreturned
      simp at hreturned
  have hlater := published_mono crypto root _ _ _ hext _ _ hpublished
  -- the later calls have left the shard files alone
  have hfiles : ∀ shard ∈ manifest.shards,
      (runCalls crypto root env (runCall crypto root env c s).2 after).files
        (shardPath root shard.ciphertextHash) =
      (runCall crypto root env c s).2.files (shardPath root shard.ciphertextHash) := by
    intro shard hshard
    obtain ⟨dataKey, -, -, hstored⟩ := published_read crypto root _ _ _ _ hpublished
    obtain ⟨blob, hblob, hhash⟩ := stored_file crypto root _ dataKey _ 0 _ _ hstored shard hshard
    have htemporary := isTemporary_shardPath crypto root blob
    rw [hhash] at htemporary
    rw [hblob, hext _ _ htemporary hblob]
  obtain ⟨-, hparts⟩ := hsame
  have hmain := verify_iff_holds crypto root (passphrase env) _ manifest hkept hlater ?_
  · rw [hparts]
    refine ⟨hmain.1.trans ⟨fun h shard hshard => ?_, fun h shard hshard => ?_⟩,
      fun hverify => ⟨_, hmain.2 hverify, flatten_blocks size call.content positive⟩⟩
    · have hholds := h shard hshard
      rwa [HoldsBlob, hfiles shard hshard] at hholds
    · have hholds := h shard hshard
      rwa [HoldsBlob, ← hfiles shard hshard] at hholds
  · apply hcollision.mono
    rintro blob (⟨shard, hshard, hblob⟩ | hblob)
    · exact Or.inl ⟨shard, hshard, by rw [← hfiles shard hshard, hblob]⟩
    · exact Or.inr hblob

def sampleVault : Host :=
  runCalls Crypto.sample ["vault"] sampleEnv Host.empty (sampleBefore ++ [sampleAdd])

/-- The vault after the last octet of its shortest blob has been lost. -/
def damaged : Files := fun path =>
  (sampleVault.files path).map fun blob =>
    if (["vault"] ++ ["shards"]) <+: path ∧ blob.length = 29 then blob.dropLast else blob

/-- The shards of the model that has been added. -/
def sampleShards : List Shard :=
  (returned (runCall Crypto.sample ["vault"] sampleEnv sampleAdd
    (runCalls Crypto.sample ["vault"] sampleEnv Host.empty sampleBefore)).1).toList.flatMap
      ModelManifest.shards

/-- What the shard files hold, before and after. -/
def sampleBlobs : List Bytes :=
  sampleShards.filterMap (fun shard => sampleVault.files
    (shardPath ["vault"] shard.ciphertextHash)) ++
    sampleShards.filterMap (fun shard => damaged (shardPath ["vault"] shard.ciphertextHash))

theorem onlyShards_damaged : OnlyShards ["vault"] sampleVault.files damaged := by
  intro path hpath
  have hsame : (fun blob : Bytes => if (["vault"] ++ ["shards"]) <+: path ∧ blob.length = 29
      then blob.dropLast else blob) = id :=
    funext fun blob => if_neg (fun h => hpath h.1)
  rw [damaged, hsame, Option.map_id, id]

/-- The digests of the blobs are different, all files are there and the second one is damaged. -/
theorem sampleShards_blobs :
    (∀ a ∈ sampleBlobs, ∀ b ∈ sampleBlobs, Sha256.sample.digest a = Sha256.sample.digest b →
      a = b) ∧
    (∀ shard ∈ sampleShards,
      (sampleVault.files (shardPath ["vault"] shard.ciphertextHash)).isSome = true) ∧
    sampleShards.map (fun shard => decide (damaged (shardPath ["vault"] shard.ciphertextHash) =
      sampleVault.files (shardPath ["vault"] shard.ciphertextHash))) = [true, false] := by
  decide +kernel

theorem noCollision_damaged {manifest : ModelManifest WholeFloat}
    (hshards : manifest.shards = sampleShards) : Sha256.sample.NoCollision
      (manifestBlobs ["vault"] sampleVault.files manifest ∪
        manifestBlobs ["vault"] damaged manifest) := by
  have hblobs : Sha256.sample.NoCollision {blob | blob ∈ sampleBlobs} :=
    Sha256.noCollision_of_list _ _ sampleShards_blobs.1
  apply hblobs.mono
  rintro blob (⟨shard, hshard, hblob⟩ | ⟨shard, hshard, hblob⟩)
  · exact List.mem_append_left _ (List.mem_filterMap.mpr ⟨shard, hshards ▸ hshard, hblob⟩)
  · exact List.mem_append_right _ (List.mem_filterMap.mpr ⟨shard, hshards ▸ hshard, hblob⟩)

/-- A model of two shards is accepted until the file of the second one is damaged. -/
theorem verify_run_iff_sample :
    ∃ manifest, (runCall Crypto.sample ["vault"] sampleEnv sampleAdd
        (runCalls Crypto.sample ["vault"] sampleEnv Host.empty sampleBefore)).1 =
          some (.ok (some manifest)) ∧ manifest.shards.length = 2 ∧
      verify WholeFloat Crypto.sample ["vault"] sampleVault.files manifest = (true, []) ∧
      verify WholeFloat Crypto.sample ["vault"] damaged manifest ≠ (true, []) := by
  obtain ⟨manifest, hmanifest⟩ := sampleAdd_returned
  have hshards : sampleShards = manifest.shards := by
    rw [sampleShards, hmanifest, returned, Option.toList_some, List.flatMap_singleton]
  have hlength : manifest.shards.length = 2 := by
    rw [← hshards, ← List.length_map, sampleShards_blobs.2.2]
    rfl
  have hiff : ∀ files, OnlyShards ["vault"] sampleVault.files files →
      Sha256.sample.NoCollision (manifestBlobs ["vault"] sampleVault.files manifest ∪
        manifestBlobs ["vault"] files manifest) →
      (verify WholeFloat Crypto.sample ["vault"] files manifest = (true, []) ↔
        ∀ shard ∈ manifest.shards, HoldsBlob ["vault"] sampleVault.files files shard) := by
    intro files hkept hcollision
    exact (verify_run_iff Crypto.sample ["vault"] files sampleEnv Host.empty (fun _ _ => rfl)
      sampleBefore [] sampleAdd
      (distinct_sample _ _ _ _ ((runCalls_tick_le Crypto.sample _ _).trans (by decide)))
      2 two_positive _ manifest rfl hmanifest hkept hcollision manifest ⟨rfl, rfl⟩).1
  refine ⟨manifest, hmanifest, hlength, ?_, fun hverify => ?_⟩
  · refine (hiff sampleVault.files (fun _ _ => rfl) ?_).mpr fun shard hshard => ?_
    · exact (noCollision_damaged hshards.symm).mono (fun blob h => Or.inl (h.elim id id))
    · obtain ⟨blob, hblob⟩ := Option.isSome_iff_exists.mp
        (sampleShards_blobs.2.1 shard (hshards ▸ hshard))
      exact ⟨blob, hblob, hblob⟩
  · have hholds := (hiff damaged onlyShards_damaged (noCollision_damaged hshards.symm)).mp hverify
    have hsame : ∀ same ∈ sampleShards.map (fun shard =>
        decide (damaged (shardPath ["vault"] shard.ciphertextHash) =
          sampleVault.files (shardPath ["vault"] shard.ciphertextHash))), same = true := by
      intro same hmem
      obtain ⟨shard, hshard, rfl⟩ := List.mem_map.mp hmem
      obtain ⟨blob, hblob, hdamaged⟩ := hholds shard (hshards ▸ hshard)
      rw [hdamaged, hblob]
      exact decide_eq_true rfl
    rw [sampleShards_blobs.2.2] at hsame
    exact absurd (hsame false (by simp)) Bool.false_ne_true

end Decillion.DamagedShards
