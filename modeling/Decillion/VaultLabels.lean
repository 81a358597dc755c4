import Decillion.JsonObjects
import Decillion.TelepathServing

/-!
What a manifest says of its file. A manifest that `add_file` has built says the hash and the
length of the file it was given, and in every run of a vault the manifest of each model says the
hash of what its shards join up to. A node that serves such a vault tells its peers the right
hash.
-/
namespace Decillion.VaultLabels

open ByteText Blocks JsonObjects JsonText JsonValues Primitives HostSystem HostRules
  ShardManifests ShardVault
open PyErrors AccessRequests MerkleTrees VaultReads VaultRuns VaultWrites TelepathNodes
  TelepathServing

variable {F : Type} [FloatText F]

/-- The manifest says what the hash of the content is. -/
def Labelled (sha : Sha256) (content : Bytes) (manifest : ModelManifest F) : Prop :=
  manifest.metadata.lookup "file_sha256" = some (.str (sha.hexdigest content))

omit [FloatText F] in
theorem labelled_built {crypto : Crypto} {call : AddFile F} {manifest : ModelManifest F}
    (h : Built crypto call manifest) : Labelled crypto.sha call.content manifest := by
  obtain ⟨-, shards, keyId, createdAt, rfl⟩ := h
  exact lookup_setMember _ _ _

omit [FloatText F] in
theorem modelId_built {crypto : Crypto} {call : AddFile F} {manifest : ModelManifest F}
    (h : Built crypto call manifest) :
    manifest.modelId = call.modelId ∧ call.modelId.length ≤ 512 := by
  obtain ⟨hcheck, shards, keyId, createdAt, rfl⟩ := h
  refine ⟨rfl, ?_⟩
  unfold checkCall at hcheck
  split at hcheck
  · cases hcheck
  · split at hcheck
    · cases hcheck
    · split at hcheck
      · cases hcheck
      · rename_i hlong
        exact not_lt.mp (not_or.mp hlong).2

section Stored

variable {crypto : Crypto} {root : Path} {files : Files} {dataKey : Bytes} {modelId : String}

theorem length_shardLeaf (crypto : Crypto) (dataKey : Bytes) (modelId : String) (index : ℕ)
    (chunk nonce : Bytes) :
    (shardLeaf (sealShard crypto dataKey modelId index chunk nonce).2).length = 32 := by
  have hleaf : shardLeaf (sealShard crypto dataKey modelId index chunk nonce).2 =
      crypto.sha.digest (sealShard crypto dataKey modelId index chunk nonce).1 :=
    congrArg (·.getD []) (fromHex_hex _)
  rw [hleaf, crypto.sha.digest_length]

theorem stored_sizes (index : ℕ) (pieces : List Bytes) (shards : List Shard)
    (h : Stored crypto root files dataKey modelId index pieces shards) :
    (shards.map Shard.plaintextBytes).sum = pieces.flatten.length ∧
      ∀ shard ∈ shards, (shardLeaf shard).length = 32 := by
  induction pieces generalizing index shards with
  | nil =>
    obtain rfl := h
    simp
  | cons piece rest ih =>
    obtain ⟨nonce, tail, -, rfl, -, htail⟩ := h
    obtain ⟨hsum, hleaves⟩ := ih (index + 1) tail htail
    refine ⟨?_, ?_⟩
    · rw [List.map_cons, List.sum_cons, hsum, List.flatten_cons, List.length_append]
      push_cast
      rfl
    · rintro shard (- | ⟨-, hmem⟩)
      · exact length_shardLeaf _ _ _ _ _ _
      · exact hleaves shard hmem

theorem length_merkleRoot (sha : Sha256) (leaves : List Bytes)
    (h : ∀ leaf ∈ leaves, leaf.length = 32) : (merkleRoot sha leaves).length = 32 := by
  unfold merkleRoot
  split
  · exact List.length_replicate
  · rename_i hne
    have hne' : leaves ≠ [] := fun hnil => hne (List.isEmpty_iff.mpr hnil)
    have hlength := climb_length (fun a b => sha.digest (a ++ b)) _ leaves hne' le_rfl
    obtain ⟨top, htop⟩ := List.length_eq_one_iff.mp hlength
    have htall := climb_forall (fun a b => sha.digest (a ++ b)) (fun a b => sha.digest_length _)
      leaves.length leaves h top (by rw [htop]; exact List.mem_singleton_self _)
    rw [htop]
    exact htall

end Stored

section Published

variable {crypto : Crypto} {root : Path} {phrase : Option String} {files : Files}
  {pieces : List Bytes} {manifest : ModelManifest F}

theorem root_published (h : Published F crypto root phrase files pieces manifest) :
    ∃ top, manifest.merkleRoot = hex top ∧ top.length = 32 := by
  obtain ⟨dataKey, -, -, hstored⟩ := h.shards
  refine ⟨_, h.merkle, length_merkleRoot crypto.sha _ (fun leaf hleaf => ?_)⟩
  obtain ⟨shard, hshard, rfl⟩ := List.mem_map.mp hleaf
  exact (stored_sizes 0 pieces manifest.shards hstored).2 shard hshard

theorem size_published (h : Published F crypto root phrase files pieces manifest)
    {call : AddFile F} (hbuilt : Built crypto call manifest) :
    manifest.sizeBytes = pieces.flatten.length := by
  obtain ⟨dataKey, -, -, hstored⟩ := h.shards
  obtain ⟨-, shards, keyId, createdAt, rfl⟩ := hbuilt
  exact (stored_sizes 0 pieces shards hstored).1

end Published

omit [FloatText F] in
theorem distinct_sorted {manifest : ModelManifest F} (h : DistinctKeys (.obj manifest.metadata)) :
    DistinctKeys (.obj manifest.sorted.metadata) :=
  sortKeys_distinctKeys (.obj manifest.metadata) h

omit [FloatText F] in
theorem labelled_sorted {sha : Sha256} {content : Bytes} {manifest : ModelManifest F}
    (hkeys : DistinctKeys (.obj manifest.metadata)) (h : Labelled sha content manifest) :
    Labelled sha content manifest.sorted :=
  text_sameValue hkeys.1 (distinct_sorted hkeys).1 (same_sorted manifest).1.symm h

section Runs

variable {crypto : Crypto} {root : Path} {env : Env F}

/-- Every manifest file is that of a published model and says the hash of its content. -/
def AllLabelled (crypto : Crypto) (root : Path) (env : Env F) (s : Host) : Prop :=
  ∀ modelId value, s.files (manifestPath crypto.sha root modelId) = some value →
    ∃ pieces manifest,
      manifestPath crypto.sha root manifest.modelId = manifestPath crypto.sha root modelId ∧
      Published F crypto root (passphrase env) s.files pieces manifest ∧
      Labelled crypto.sha pieces.flatten manifest

theorem allLabelled_empty (s : Host) (hempty : ∀ path, root <+: path → s.files path = none) :
    AllLabelled crypto root env s := by
  intro modelId value hvalue
  rw [hempty (manifestPath crypto.sha root _) (List.prefix_append root _)] at hvalue
  cases hvalue

theorem allLabelled_prepared {s s' : Host} (h : AllLabelled crypto root env s)
    (hprepared : Prepared root env s s') : AllLabelled crypto root env s' := by
  intro modelId value hvalue
  rw [hprepared.manifests _ (isTemporary_manifestPath crypto root modelId)
    ( manifestPath_prefix crypto modelId)] at hvalue
  obtain ⟨pieces, manifest, hpath, hpublished, hlabelled⟩ := h modelId value hvalue
  exact ⟨pieces, manifest, hpath,
    published_mono crypto root _ _ _ hprepared.files pieces _ hpublished, hlabelled⟩

theorem allLabelled_runCall {s : Host} (h : AllLabelled crypto root env s)
    (hkeys : KeysDrawn root env s) (c : VaultCall F × ℕ)
    (huuid : Distinct env (runCall crypto root env c s).2.tick) :
    AllLabelled crypto root env (runCall crypto root env c s).2 := by
  rcases runCall_built_cases crypto c s huuid hkeys with
    ⟨hprepared, -⟩ | ⟨size, positive, call, manifest, -, hcompleted, hbuilt, -⟩
  · exact allLabelled_prepared h hprepared
  · have hextends := extends_completed crypto size call s _ manifest hcompleted
    obtain ⟨hid, hpublished, s₁, hprepared, hfresh, hreplaced⟩ := hcompleted
    intro modelId value hvalue
    by_cases hpath : manifestPath crypto.sha root modelId =
        manifestPath crypto.sha root call.modelId
    · refine ⟨_, manifest, by rw [hid, hpath], hpublished, ?_⟩
      rw [flatten_blocks size call.content positive]
      exact labelled_built hbuilt
    · rw [hreplaced.2.1 _ (isTemporary_manifestPath crypto root modelId) hpath] at hvalue
      obtain ⟨pieces, other, hother, hpub, hlabelled⟩ :=
        allLabelled_prepared h hprepared modelId value hvalue
      exact ⟨pieces, other, hother, published_mono crypto root _ _ _
        (extends_of_replaced hreplaced hfresh) pieces _ hpub, hlabelled⟩

/-- In every run of a vault the manifests say the hashes of their files. -/
theorem allLabelled_runCalls (calls : List (VaultCall F × ℕ)) {s : Host}
    (huuid : Distinct env (runCalls crypto root env s calls).tick)
    (hs : Sound crypto root env s) (h : AllLabelled crypto root env s) :
    AllLabelled crypto root env (runCalls crypto root env s calls) := by
  induction calls generalizing s with
  | nil => exact h
  | cons c rest ih =>
    have hfirst := huuid.mono (runCalls_tick crypto (runCall crypto root env c s).2 rest)
    exact ih huuid (sound_runCall crypto c s hfirst hs).1 (allLabelled_runCall h hs.keys c hfirst)

end Runs

section Serving

/-- A model of a vault, with the shards it was given and the octets in the name of its key. -/
structure Offered (vault : Vault) (pieces : List Bytes) (manifest : ModelManifest F) (id : Bytes) :
    Prop where
  keyId : manifest.keyId = "k_" ++ hex id
  published : Published F vault.crypto vault.root vault.passphrase vault.files pieces manifest
  labelled : Labelled vault.crypto.sha pieces.flatten manifest

/-- Every manifest file is that of a model of the vault, and the models have these shards. -/
def Vouched (F : Type) [FloatText F] (vault : Vault) (pieces : String → List Bytes) : Prop :=
  ∀ modelId content,
    vault.files (manifestPath vault.crypto.sha vault.root modelId) = some content →
    ∃ (manifest : ModelManifest F) (id : Bytes),
      manifestPath vault.crypto.sha vault.root manifest.modelId =
        manifestPath vault.crypto.sha vault.root modelId ∧
      Offered vault (pieces manifest.modelId) manifest id

theorem Vouched.intact {vault : Vault} {pieces : String → List Bytes}
    (h : Vouched F vault pieces) : Intact F vault pieces := by
  intro modelId content hfile
  obtain ⟨manifest, id, hpath, hoffered⟩ := h modelId content hfile
  exact ⟨manifest, id, hpath, hoffered.keyId, hoffered.published⟩

variable {crypto : Crypto} {root : Path} {env : Env F} {s : Host}
  {refuse : Path → Option PyError} {deep : Bytes → Bool}

theorem keyId_of_published (hs : Sound crypto root env s)
    (hhex : ∀ tick, ∃ id, env.uuid tick = hex id) {pieces : List Bytes}
    {manifest : ModelManifest F}
    (h : Published F crypto root (passphrase env) s.files pieces manifest) :
    ∃ id, manifest.keyId = "k_" ++ hex id := by
  obtain ⟨id, hid⟩ := h.keyId
  obtain ⟨dataKey, -, ⟨text, config, master, nonce, -, -, -, -, -, hkey⟩, -⟩ := h.shards
  rw [hid] at hkey
  obtain ⟨tick, -, hdrawn⟩ := hs.keys id _ hkey
  obtain ⟨octets, hhexed⟩ := hhex tick
  exact ⟨octets, by rw [hid, hdrawn, hhexed]⟩

/-- A vault that its store has filled is one whose models have their shards and hashes. -/
theorem vouched_of_labelled (hs : Sound crypto root env s) (h : AllLabelled crypto root env s)
    (hhex : ∀ tick, ∃ id, env.uuid tick = hex id) :
    ∃ pieces, Vouched F ⟨crypto, root, passphrase env, s.files, refuse, deep⟩ pieces := by
  let offered := fun (modelId : String) (pieces : List Bytes) =>
    ∃ (manifest : ModelManifest F) (id : Bytes), manifest.modelId = modelId ∧
      Offered ⟨crypto, root, passphrase env, s.files, refuse, deep⟩ pieces manifest id
  refine ⟨fun modelId => Classical.epsilon (offered modelId), ?_⟩
  intro modelId content hfile
  obtain ⟨pieces, written, hpath, hpublished, hlabelled⟩ := h modelId content hfile
  obtain ⟨id, hid⟩ := keyId_of_published hs hhex hpublished
  have hspec : offered written.modelId (Classical.epsilon (offered written.modelId)) :=
    Classical.epsilon_spec ⟨pieces, written, id, rfl, hid, hpublished, hlabelled⟩
  obtain ⟨manifest, id, hmodel, hoffered⟩ := hspec
  refine ⟨manifest, id, by rw [hmodel, hpath], ?_⟩
  rw [hmodel]
  exact hoffered

/-- What a call of `add_file` has returned is offered from then on. -/
theorem offered_of_added {start : Host}
    (hempty : ∀ path, root <+: path → start.files path = none)
    (hhex : ∀ tick, ∃ id, env.uuid tick = hex id) (before after : List (VaultCall F × ℕ))
    {size : ℕ} {positive : 0 < size} {call : AddFile F} {budget : ℕ} {manifest : ModelManifest F}
    (huuid : Distinct env (runCalls crypto root env start
      (before ++ (.add size positive call, budget) :: after)).tick)
    (hreturned : (runCall crypto root env (.add size positive call, budget)
      (runCalls crypto root env start before)).1 = some (.ok (some manifest))) :
    Built crypto call manifest ∧ ∃ id, Offered ⟨crypto, root, passphrase env,
      (runCalls crypto root env start (before ++ (.add size positive call, budget) :: after)).files,
        refuse, deep⟩
      (blocks size call.content) manifest id := by
  have hsplit : runCalls crypto root env start
      (before ++ (.add size positive call, budget) :: after) = runCalls crypto root env
        (runCall crypto root env (.add size positive call, budget)
          (runCalls crypto root env start before)).2 after := by
    simp only [runCalls, List.foldl_append, List.foldl_cons]
  rw [hsplit] at huuid ⊢
  have hmade := huuid.mono (runCalls_tick crypto _ after)
  have hbefore := (sound_runCalls crypto before start (hmade.mono (runCall_tick crypto _ _))
    (sound_empty crypto start hempty)).1
  obtain ⟨hadded, -⟩ := sound_runCall crypto _ _ hmade hbefore
  obtain ⟨hsound, hextends⟩ := sound_runCalls crypto after _ huuid hadded
  rcases runCall_built_cases crypto _ _ hmade hbefore.keys with
    ⟨-, hnone⟩ | ⟨size', positive', call', built, hcall, hcompleted, hbuilt, hended⟩
  · exact absurd hreturned (hnone manifest)
  · obtain ⟨rfl, rfl⟩ := VaultCall.add.inj hcall
    obtain rfl : built = manifest := by
      rcases hended with hended | hended
      · rw [hended] at hreturned
        exact Option.some.inj (Except.ok.inj (Option.some.inj hreturned))
      · rw [hended] at hreturned
        cases hreturned
    have hpublished := published_mono crypto root _ _ _ hextends _ _ hcompleted.2.1
    obtain ⟨id, hid⟩ := keyId_of_published hsound hhex hpublished
    refine ⟨hbuilt, id, hid, hpublished, ?_⟩
    rw [flatten_blocks size call.content positive]
    exact labelled_built hbuilt

end Serving

end Decillion.VaultLabels
