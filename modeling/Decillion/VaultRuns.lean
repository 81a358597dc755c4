import Decillion.JsonStrings
import Decillion.VaultWrites

/-!
Runs of a vault: constructors and calls of `add_file` one after another, each of which may
be rejected, raise an exception or be cut off between any two of its operations. What a
call publishes stays published, and a call that raises publishes nothing.
-/
namespace Decillion.VaultRuns

open ByteText Blocks JsonValues JsonText JsonStrings Primitives PyErrors Programs
  HostSystem HostRules
  ShardManifests ShardVault VaultReads VaultWrites

variable {F : Type} [FloatText F] (crypto : Crypto) (root : Path) (env : Env F)

/-- The passphrase of the vault; the environment of the process does not change. -/
def passphrase : Option String := env.environ "IZETTA_VAULT_PASSPHRASE"

/-- A call that has replaced its manifest file after everything else was in place. -/
def Completed (size : ℕ) (call : AddFile F) (s s' : Host) (manifest : ModelManifest F) : Prop :=
  manifest.modelId = call.modelId ∧
    Published F crypto root (passphrase env) s'.files (blocks size call.content) manifest ∧
    ∃ s₁, Prepared root env s s₁ ∧ s₁.files (manifestPath crypto.sha root call.modelId) = none ∧
      Replaced s₁ s' (manifestPath crypto.sha root call.modelId) (encode manifest.toJson)

/-- A manifest as `add_file` makes it for a call that passes its checks. -/
def Built (call : AddFile F) (manifest : ModelManifest F) : Prop :=
  checkCall call = .ok () ∧
    ∃ shards keyId createdAt, manifest = buildManifest crypto call shards keyId createdAt

def KeysDrawn (s : Host) : Prop :=
  ∀ id value, s.files (keyPath root ("k_" ++ id)) = some value →
    ∃ tick, tick < s.tick ∧ id = env.uuid tick

variable {root env}

theorem extends_of_replaced {s s' : Host} {target : Path} {value : Bytes}
    (h : Replaced s s' target value) (hfresh : s.files target = none) :
    Extends s.files s'.files := by
  intro path v hpath hv
  have hne : path ≠ target := by
    rintro rfl
    rw [hfresh] at hv
    simp at hv
  exact (h.2.1 path hpath hne).trans hv

theorem keyPath_ne_manifestPath (keyId modelId : String) :
    keyPath root keyId ≠ manifestPath crypto.sha root modelId := by
  intro h
  rw [keyPath, manifestPath, List.append_cancel_left_eq] at h
  simp at h

theorem manifestPath_prefix (modelId : String) :
    (root ++ ["manifests"]) <+: manifestPath crypto.sha root modelId :=
  ⟨[crypto.sha.hexdigest (encode modelId) ++ ".json"], by simp [manifestPath]⟩

omit [FloatText F] in
theorem fresh_key (s s' : Host) (huuid : Distinct env (s'.tick + 1)) (hkeys : KeysDrawn root env s)
    (h : Prepared root env s s') :
    s'.files (keyPath root ("k_" ++ env.uuid s'.tick)) = none := by
  cases hfile : s'.files (keyPath root ("k_" ++ env.uuid s'.tick)) with
  | none => rfl
  | some value =>
    have hle := h.tick
    rcases h.keys _ value hfile with hold | ⟨tick, -, hlt, hid⟩
    · obtain ⟨tick, hlt, hid⟩ := hkeys _ value hold
      have heq := huuid _ (by omega) _ (by omega) hid
      omega
    · have heq := huuid _ (by omega) _ (by omega) hid
      omega

/-- A call of `add_file` raises before its manifest is written, or it completes with the manifest
that it has built. -/
theorem holds_addFile (store : VaultStore) (hroot : store.root = root) (call : AddFile F)
    (s : Host) (hkeys : KeysDrawn root env s) :
    Holds (handle env)
      (fun s' => Distinct env s'.tick → Prepared root env s s' ∨
        ∃ manifest, Completed crypto root env store.shardSize call s s' manifest ∧
          Built crypto call manifest)
      (fun result s' => Distinct env s'.tick → match result with
        | .ok manifest => Completed crypto root env store.shardSize call s s' manifest ∧
            Built crypto call manifest
        | .error _ => Prepared root env s s')
      (addFile crypto store call) s := by
  subst hroot
  have h₀ := prepared_of_unchanged store.root env (Unchanged.rfl s)
  have h₁ := h₀.trans (prepared_next _ _ s)
  have h₂ := h₁.trans (prepared_next _ _ s.next)
  apply holds_then
  apply holds_fromExcept
  cases hcheck : checkCall call with
  | error e => exact fun _ => h₀
  | ok _ =>
    apply holds_then
    apply holds_pathExists _ _ (fun _ => Or.inl h₀)
    · exact fun e _ => h₁
    cases hfresh : s.files (manifestPath crypto.sha store.root call.modelId) with
    | some value =>
      apply holds_then
      exact fun _ => h₁
    | none =>
      apply holds_then
      apply holds_urandom _ _ (fun _ => Or.inl h₁)
      · exact fun e _ => h₂
      intro dataKey hdata
      apply holds_then
      apply holds_encryptShards crypto dataKey call.modelId 0 _ s.next.next
      · exact fun s' h _ => Or.inl (h₂.trans h)
      · exact fun e s' h _ => h₂.trans h
      intro shards s₃ h₃ hstored
      have hs₃ := h₂.trans h₃
      dsimp only
      split
      · exact fun _ => hs₃
      apply holds_then
      apply holds_uuid4 _ (fun _ => Or.inl hs₃)
      by_cases huuid : Distinct env (s₃.tick + 1)
      · apply holds_then
        apply holds_time _ (fun _ => Or.inl (hs₃.trans (prepared_next _ _ _)))
        have hs₅ := (hs₃.trans (prepared_next _ _ s₃)).trans (prepared_next _ _ s₃.next)
        apply holds_then
        apply holds_wrapKey crypto s s₃.next.next s₃.tick dataKey hs₅ hs₃.tick
          (by simp only [Host.next]; omega) (fresh_key s s₃ huuid hkeys hs₃)
        · exact fun s' h _ => Or.inl h
        · exact fun e s' h _ => h
        intro s₆ h₆ hext hwrapped
        have hnone : s₆.files (manifestPath crypto.sha store.root call.modelId) = none := by
          rw [h₆.manifests _ (isTemporary_manifestPath crypto store.root call.modelId)
            ( manifestPath_prefix crypto call.modelId)]
          exact hfresh
        have hcompleted : ∀ s', Replaced s₆ s'
            (manifestPath crypto.sha store.root call.modelId)
            (encode (buildManifest crypto call shards ("k_" ++ env.uuid s₃.tick)
              (env.clock s₃.next.tick)).toJson) →
            Completed crypto store.root env store.shardSize call s s'
                (buildManifest crypto call shards ("k_" ++ env.uuid s₃.tick)
                  (env.clock s₃.next.tick)) ∧
              Built crypto call (buildManifest crypto call shards ("k_" ++ env.uuid s₃.tick)
                (env.clock s₃.next.tick)) := by
          intro s' h
          have hlast := extends_of_replaced h hnone
          refine ⟨⟨rfl, ⟨h.1, ?_, ⟨dataKey, hdata, ?_, ?_⟩, rfl, ⟨_, rfl⟩, rfl⟩, s₆, h₆, hnone, h⟩,
            hcheck, _, _, _, rfl⟩
          · exact distinctKeys_setMember _ _ _ trivial call.wellFormed
          · exact keyStored_mono crypto store.root _ _ _ hlast _ dataKey hwrapped
          · exact stored_mono crypto store.root _ _ (Extends.trans hext hlast) dataKey _ 0 _ _
              hstored
        apply holds_then
        apply holds_replaceFile _ _ _ _ (by decide)
          (isTemporary_manifestPath crypto store.root call.modelId)
        · exact fun s' h _ => Or.inl (h₆.trans (prepared_of_unchanged _ _ h))
        · exact fun s' h _ => Or.inr ⟨_, hcompleted s' h⟩
        · exact fun e s' h _ => h₆.trans (prepared_of_unchanged _ _ h)
        · exact fun s' h _ => hcompleted s' h
      · -- an identifier was drawn twice, which every later state remembers
        have hlater : ∀ s' : Host, s₃.next.tick ≤ s'.tick → ¬ Distinct env s'.tick :=
          fun s' hle h => huuid (h.mono hle)
        exact holds_imp _ _ (holds_tick _ _) (fun s' hle h => absurd h (hlater s' hle))
          (fun _ s' hle h => absurd h (hlater s' hle))

variable (F) in
/-- A call on the vault: a constructor, or `add_file` on a store of some shard size. -/
inductive VaultCall where
  | construct (shardSize : ℤ)
  | add (shardSize : ℕ) (positive : 0 < shardSize) (call : AddFile F)

variable (root env)

/-- One call, cut off after `budget` operations; no result then. -/
def runCall (c : VaultCall F × ℕ) (s : Host) :
    Option (Except PyError (Option (ModelManifest F))) × Host :=
  match c with
  | (.construct shardSize, budget) =>
      let ended := run (handle env) budget (openStore (F := F) root shardSize) s
      (ended.1.map (fun result => result.map (fun _ => none)), ended.2)
  | (.add shardSize positive call, budget) =>
      let ended := run (handle env) budget (addFile crypto ⟨root, shardSize, positive⟩ call) s
      (ended.1.map (fun result => result.map some), ended.2)

def runCalls (s : Host) (calls : List (VaultCall F × ℕ)) : Host :=
  calls.foldl (fun s c => (runCall crypto root env c s).2) s

/-- Key names are used up, and every manifest file belongs to a published model. -/
structure Sound (s : Host) : Prop where
  keys : KeysDrawn root env s
  manifests : ∀ modelId value, s.files (manifestPath crypto.sha root modelId) = some value →
    ∃ pieces manifest,
      manifestPath crypto.sha root manifest.modelId = manifestPath crypto.sha root modelId ∧
      Published F crypto root (passphrase env) s.files pieces manifest

variable {root env}

omit [FloatText F] in
theorem keysDrawn_prepared (s s' : Host) (hs : KeysDrawn root env s)
    (h : Prepared root env s s') : KeysDrawn root env s' := by
  intro id value hvalue
  rcases h.keys id value hvalue with hold | ⟨tick, -, hlt, hid⟩
  · obtain ⟨tick, hlt, hid⟩ := hs id value hold
    exact ⟨tick, hlt.trans_le h.tick, hid⟩
  · exact ⟨tick, hlt, hid⟩

theorem sound_prepared (s s' : Host) (hs : Sound crypto root env s)
    (h : Prepared root env s s') : Sound crypto root env s' where
  keys := keysDrawn_prepared s s' hs.keys h
  manifests := by
    intro modelId value hvalue
    rw [h.manifests _ (isTemporary_manifestPath crypto root modelId)
      ( manifestPath_prefix crypto modelId)] at hvalue
    obtain ⟨pieces, manifest, hpath, hpublished⟩ := hs.manifests modelId value hvalue
    exact ⟨pieces, manifest, hpath, published_mono crypto root _ _ _ h.files pieces _ hpublished⟩

theorem extends_completed (size : ℕ) (call : AddFile F) (s s' : Host)
    (manifest : ModelManifest F) (h : Completed crypto root env size call s s' manifest) :
    Extends s.files s'.files := by
  obtain ⟨-, -, s₁, h₁, hfresh, hreplaced⟩ := h
  exact Extends.trans h₁.files (extends_of_replaced hreplaced hfresh)

theorem sound_completed (size : ℕ) (call : AddFile F) (s s' : Host) (manifest : ModelManifest F)
    (hs : Sound crypto root env s) (h : Completed crypto root env size call s s' manifest) :
    Sound crypto root env s' := by
  obtain ⟨hid, hpublished, s₁, h₁, hfresh, hreplaced⟩ := h
  have hs₁ := sound_prepared crypto s s₁ hs h₁
  constructor
  · intro id value hvalue
    rw [hreplaced.2.1 _ (isTemporary_keyPath root id) (keyPath_ne_manifestPath crypto _ _)]
      at hvalue
    obtain ⟨tick, hlt, hdrawn⟩ := hs₁.keys id value hvalue
    exact ⟨tick, hlt.trans_le hreplaced.2.2.2, hdrawn⟩
  · intro modelId value hvalue
    by_cases hpath : manifestPath crypto.sha root modelId =
        manifestPath crypto.sha root call.modelId
    · exact ⟨_, manifest, by rw [hid, hpath], hpublished⟩
    · rw [hreplaced.2.1 _ (isTemporary_manifestPath crypto root modelId) hpath] at hvalue
      obtain ⟨pieces, other, hother, hpub⟩ := hs₁.manifests modelId value hvalue
      exact ⟨pieces, other, hother, published_mono crypto root _ _ _
        (extends_of_replaced hreplaced hfresh) pieces _ hpub⟩

/-- A call either leaves the manifests alone or publishes the manifest that it has built for the
model it was given. -/
theorem runCall_built_cases (c : VaultCall F × ℕ) (s : Host)
    (huuid : Distinct env (runCall crypto root env c s).2.tick) (hkeys : KeysDrawn root env s) :
    (Prepared root env s (runCall crypto root env c s).2 ∧
      ∀ manifest, (runCall crypto root env c s).1 ≠ some (.ok (some manifest))) ∨
    (∃ size positive call manifest, c.1 = .add size positive call ∧
      Completed crypto root env size call s (runCall crypto root env c s).2 manifest ∧
      Built crypto call manifest ∧
      ((runCall crypto root env c s).1 = some (.ok (some manifest)) ∨
        (runCall crypto root env c s).1 = none)) := by
  obtain ⟨shardSize | ⟨shardSize, positive, call⟩, budget⟩ := c
  · have hrun := run_holds (fun _ s' => Prepared root env s s') _ s budget
      (holds_openStore shardSize s (fun _ h => h) (fun _ _ h => h))
    refine Or.inl ⟨?_, ?_⟩
    · rcases hrun with ⟨-, -, h⟩ | ⟨-, h⟩ <;> exact h
    · intro manifest
      cases hended : (run (handle env) budget (openStore (F := F) root shardSize) s).1 with
      | none => simp [runCall, hended]
      | some result => cases result <;> simp [runCall, hended, Except.map]
  · have hrun := run_holds _ _ s budget
      (holds_addFile crypto ⟨root, shardSize, positive⟩ rfl call s hkeys)
    simp only [runCall] at huuid ⊢
    rcases hrun with ⟨result, hresult, hpost⟩ | ⟨hcut, hcrash⟩
    · cases result with
      | error e => exact Or.inl ⟨hpost huuid, by simp [hresult, Except.map]⟩
      | ok manifest =>
        obtain ⟨hcompleted, hbuilt⟩ := hpost huuid
        exact Or.inr ⟨shardSize, positive, call, manifest, rfl, hcompleted, hbuilt,
          Or.inl (by simp [hresult, Except.map])⟩
    · rcases hcrash huuid with hprepared | ⟨manifest, hcompleted, hbuilt⟩
      · exact Or.inl ⟨hprepared, by simp [hcut]⟩
      · exact Or.inr ⟨shardSize, positive, call, manifest, rfl, hcompleted, hbuilt,
          Or.inr (by simp [hcut])⟩

/-- A call either leaves the manifests alone or publishes the model it was given. -/
theorem runCall_cases (c : VaultCall F × ℕ) (s : Host)
    (huuid : Distinct env (runCall crypto root env c s).2.tick) (hkeys : KeysDrawn root env s) :
    (Prepared root env s (runCall crypto root env c s).2 ∧
      ∀ manifest, (runCall crypto root env c s).1 ≠ some (.ok (some manifest))) ∨
    (∃ size positive call manifest, c.1 = .add size positive call ∧
      Completed crypto root env size call s (runCall crypto root env c s).2 manifest ∧
      ((runCall crypto root env c s).1 = some (.ok (some manifest)) ∨
        (runCall crypto root env c s).1 = none)) := by
  apply (runCall_built_cases crypto c s huuid hkeys).imp_right
  rintro ⟨size, positive, call, manifest, hcall, hcompleted, -, hended⟩
  exact ⟨size, positive, call, manifest, hcall, hcompleted, hended⟩

theorem sound_runCall (c : VaultCall F × ℕ) (s : Host)
    (huuid : Distinct env (runCall crypto root env c s).2.tick) (hs : Sound crypto root env s) :
    Sound crypto root env (runCall crypto root env c s).2 ∧
      Extends s.files (runCall crypto root env c s).2.files := by
  rcases runCall_cases crypto c s huuid hs.keys with
    ⟨hprepared, -⟩ | ⟨size, -, call, manifest, -, hcompleted, -⟩
  · exact ⟨sound_prepared crypto s _ hs hprepared, hprepared.files⟩
  · exact ⟨sound_completed crypto size call s _ manifest hs hcompleted,
      extends_completed crypto size call s _ manifest hcompleted⟩

theorem runCall_tick (c : VaultCall F × ℕ) (s : Host) :
    s.tick ≤ (runCall crypto root env c s).2.tick := by
  obtain ⟨shardSize | ⟨shardSize, positive, call⟩, budget⟩ := c
  · exact run_tick _ s budget
  · exact run_tick _ s budget

theorem runCalls_tick (s : Host) (calls : List (VaultCall F × ℕ)) :
    s.tick ≤ (runCalls crypto root env s calls).tick := by
  induction calls generalizing s with
  | nil => exact le_rfl
  | cons c rest ih => exact (runCall_tick crypto c s).trans (ih _)

theorem runCalls_tick_le (s : Host) (calls : List (VaultCall F × ℕ)) :
    (runCalls crypto root env s calls).tick ≤ s.tick + (calls.map Prod.snd).sum := by
  induction calls generalizing s with
  | nil => exact le_rfl
  | cons c rest ih =>
    have hrest := ih (runCall crypto root env c s).2
    have hfirst : (runCall crypto root env c s).2.tick ≤ s.tick + c.2 := by
      obtain ⟨shardSize | ⟨shardSize, positive, call⟩, budget⟩ := c
      · exact run_tick_le _ s budget
      · exact run_tick_le _ s budget
    rw [List.map_cons, List.sum_cons]
    change (runCalls crypto root env (runCall crypto root env c s).2 rest).tick ≤ _
    omega

/-- Every run keeps the vault sound and every file that was there. -/
theorem sound_runCalls (calls : List (VaultCall F × ℕ)) (s : Host)
    (huuid : Distinct env (runCalls crypto root env s calls).tick) (hs : Sound crypto root env s) :
    Sound crypto root env (runCalls crypto root env s calls) ∧
      Extends s.files (runCalls crypto root env s calls).files := by
  induction calls generalizing s with
  | nil => exact ⟨hs, fun _ _ _ h => h⟩
  | cons c rest ih =>
    have hfirst := huuid.mono (runCalls_tick crypto (runCall crypto root env c s).2 rest)
    obtain ⟨hstep, hext⟩ := sound_runCall crypto c s hfirst hs
    obtain ⟨hrest, hext'⟩ := ih _ huuid hstep
    exact ⟨hrest, Extends.trans hext hext'⟩

theorem sound_empty (s : Host) (hempty : ∀ path, root <+: path → s.files path = none) :
    Sound crypto root env s where
  keys := by
    intro id value hvalue
    rw [hempty (keyPath root _) (List.prefix_append root _)] at hvalue
    simp at hvalue
  manifests := by
    intro modelId value hvalue
    rw [hempty (manifestPath crypto.sha root _) (List.prefix_append root _)] at hvalue
    simp at hvalue

variable (root env)

/-- What the reading methods return for a model that was added with this content. -/
structure Serves (files : Files) (size : ℕ) (content : Bytes) (manifest : ModelManifest F) :
    Prop where
  stored : ∀ now, ∃ manifest', manifest'.Same manifest ∧
    getManifest F crypto root files now manifest.modelId = .ok (some manifest')
  nShards : manifest.nShards = (content.length ⌈/⌉ size : ℕ)
  stream : ∀ manifest', manifest'.Same manifest → ∃ pieces,
    streamPlaintext F crypto root (passphrase env) files manifest' = .ok pieces ∧
      pieces.flatten = content
  slices : ∀ manifest', manifest'.Same manifest → ∀ i : ℕ, (i : ℤ) < manifest.nShards →
    readShardPlaintext F crypto root (passphrase env) files manifest' i =
      .ok ((content.drop (i * size)).take size)
  bounds : ∀ manifest', manifest'.Same manifest → ∀ index : ℤ,
    ¬ (0 ≤ index ∧ index < manifest.nShards) →
    readShardPlaintext F crypto root (passphrase env) files manifest' index =
      .error (.indexError index)
  verified : ∀ manifest', manifest'.Same manifest →
    verify F crypto root files manifest' = (true, [])

variable {root env}

theorem serves_of_published (files : Files) (size : ℕ) (hsize : 0 < size) (content : Bytes)
    (manifest : ModelManifest F)
    (h : Published F crypto root (passphrase env) files (blocks size content) manifest) :
    Serves crypto root env files size content manifest := by
  have hn := published_nShards crypto root _ files _ manifest h
  -- the reading methods do not look at the metadata
  have hsame : ∀ manifest' : ModelManifest F, manifest'.Same manifest →
      streamPlaintext F crypto root (passphrase env) files manifest' =
        streamPlaintext F crypto root (passphrase env) files manifest ∧
      (∀ index, readShardPlaintext F crypto root (passphrase env) files manifest' index =
        readShardPlaintext F crypto root (passphrase env) files manifest index) ∧
      verify F crypto root files manifest' = verify F crypto root files manifest := by
    rintro manifest' ⟨-, heq⟩
    rw [heq]
    exact ⟨rfl, fun _ => rfl, rfl⟩
  constructor
  · exact fun now => ⟨manifest.sorted, same_sorted manifest,
      getManifest_published crypto root _ files now _ manifest h⟩
  · rw [hn, length_blocks size content hsize]
  · intro manifest' hm
    rw [(hsame manifest' hm).1]
    exact ⟨_, streamPlaintext_published crypto root _ files _ manifest h,
      flatten_blocks size content hsize⟩
  · intro manifest' hm i hi
    rw [(hsame manifest' hm).2.1]
    rw [hn] at hi
    exact readShardPlaintext_published crypto root _ files _ manifest h i _
      (getElem?_blocks size content hsize i (by omega))
  · intro manifest' hm index hindex
    rw [(hsame manifest' hm).2.1]
    exact readShardPlaintext_out_of_range crypto root _ files manifest index hindex
  · intro manifest' hm
    rw [(hsame manifest' hm).2.2]
    exact verify_published crypto root _ files _ manifest h

/-- A manifest in the vault and its plaintext stay as they are when files are only added. -/
theorem getManifest_kept (s s' : Host) (hs : Sound crypto root env s)
    (hext : Extends s.files s'.files) (now : F) (modelId : String) (manifest : ModelManifest F)
    (h : getManifest F crypto root s.files now modelId = .ok (some manifest)) :
    getManifest F crypto root s'.files now modelId = .ok (some manifest) ∧
      ∃ pieces, streamPlaintext F crypto root (passphrase env) s.files manifest = .ok pieces ∧
        streamPlaintext F crypto root (passphrase env) s'.files manifest = .ok pieces := by
  cases hfile : s.files (manifestPath crypto.sha root modelId) with
  | none => simp [getManifest, hfile] at h
  | some content =>
    obtain ⟨pieces, written, hpath, hpublished⟩ := hs.manifests modelId content hfile
    have hcontent := hpublished.file
    rw [hpath, hfile, Option.some.injEq] at hcontent
    have hsame : manifest = written.sorted := by
      rw [getManifest, hfile, hcontent] at h
      simp only [load_toJson now written hpublished.metadata] at h
      split at h
      · exact (Option.some.inj (Except.ok.inj h)).symm
      · simp at h
    refine ⟨?_, pieces, ?_, ?_⟩
    · rw [← h, getManifest, getManifest, hfile,
        hext _ _ (isTemporary_manifestPath crypto root modelId) hfile]
    · rw [hsame]
      exact streamPlaintext_published crypto root _ _ _ written hpublished
    · rw [hsame]
      exact streamPlaintext_published crypto root _ _ _ written
        (published_mono crypto root _ _ _ hext _ _ hpublished)

/-- In every run of a vault: what `add_file` returned is served at every later point; a call
that raises publishes nothing; no call changes a manifest or a plaintext published before. -/
theorem addFile_run (start : Host) (hempty : ∀ path, root <+: path → start.files path = none)
    (before after : List (VaultCall F × ℕ)) (c : VaultCall F × ℕ)
    (huuid : Distinct env (runCalls crypto root env start (before ++ c :: after)).tick) :
    (∀ size positive call manifest, c.1 = .add size positive call →
      (runCall crypto root env c (runCalls crypto root env start before)).1 =
        some (.ok (some manifest)) →
      manifest.modelId = call.modelId ∧
        Serves crypto root env (runCalls crypto root env start (before ++ c :: after)).files size
          call.content manifest) ∧
    (∀ e, (runCall crypto root env c (runCalls crypto root env start before)).1 =
        some (.error e) → ∀ now modelId,
      getManifest F crypto root (runCalls crypto root env start (before ++ [c])).files now modelId =
        getManifest F crypto root (runCalls crypto root env start before).files now modelId) ∧
    (∀ now modelId manifest,
      getManifest F crypto root (runCalls crypto root env start before).files now modelId =
        .ok (some manifest) →
      getManifest F crypto root (runCalls crypto root env start (before ++ [c])).files now modelId =
        .ok (some manifest) ∧
      ∃ pieces,
        streamPlaintext F crypto root (passphrase env)
          (runCalls crypto root env start before).files manifest = .ok pieces ∧
        streamPlaintext F crypto root (passphrase env)
          (runCalls crypto root env start (before ++ [c])).files manifest = .ok pieces) := by
  have hstep : runCalls crypto root env start (before ++ [c]) =
      (runCall crypto root env c (runCalls crypto root env start before)).2 := by
    simp [runCalls]
  have hall : runCalls crypto root env start (before ++ c :: after) = runCalls crypto root env
      (runCall crypto root env c (runCalls crypto root env start before)).2 after := by
    simp [runCalls]
  rw [hall] at huuid
  have huuid₁ := huuid.mono (runCalls_tick crypto _ after)
  have huuid₀ := huuid₁.mono (runCall_tick crypto c _)
  have hbefore := (sound_runCalls crypto before start huuid₀ (sound_empty crypto start hempty)).1
  rw [hstep, hall]
  generalize runCalls crypto root env start before = s at hbefore huuid huuid₁ ⊢
  obtain ⟨hsound, hext⟩ := sound_runCall crypto c s huuid₁ hbefore
  refine ⟨?_, ?_, ?_⟩
  · intro size positive call manifest hcall hreturned
    rcases runCall_cases crypto c s huuid₁ hbefore.keys with
      ⟨-, hnone⟩ | ⟨size', positive', call', manifest', hcall', hcompleted, houtcome⟩
    · exact absurd hreturned (hnone manifest)
    · rw [hcall, VaultCall.add.injEq] at hcall'
      obtain ⟨rfl, rfl⟩ := hcall'
      have hsame : manifest' = manifest := by
        rcases houtcome with hreturned' | hcut
        · rw [hreturned'] at hreturned
          simpa using hreturned
        · rw [hcut] at hreturned
          simp at hreturned
      subst hsame
      refine ⟨hcompleted.1, serves_of_published crypto _ size positive _ _ ?_⟩
      exact published_mono crypto root _ _ _ (sound_runCalls crypto after _ huuid hsound).2 _ _
        hcompleted.2.1
  · intro e hraised now modelId
    rcases runCall_cases crypto c s huuid₁ hbefore.keys with
      ⟨hprepared, -⟩ | ⟨size, positive, call, manifest, -, -, hreturned | hcut⟩
    · rw [getManifest, getManifest, hprepared.manifests _
        (isTemporary_manifestPath crypto root modelId) ( manifestPath_prefix crypto modelId)]
    · rw [hreturned] at hraised
      simp at hraised
    · rw [hcut] at hraised
      simp at hraised
  · exact fun now modelId manifest h =>
      getManifest_kept crypto s _ hbefore hext now modelId manifest h

def sampleEnv : Env WholeFloat :=
  Env.sample (fun _ => false) (fun tick => ⟨tick⟩) (fun _ => some "correct horse")

def sampleFile (modelId : String) (content : Bytes) : AddFile WholeFloat where
  name := "weights.bin"
  isRegular := true
  content := content
  modelId := modelId
  source := "lab"
  license := "mit"
  metadata := none
  wellFormed := ⟨List.nodup_nil, trivial⟩

theorem two_positive : (0 : ℕ) < 2 := by decide

theorem four_positive : (0 : ℕ) < 4 := by decide

/-- The manifest that a call has returned. -/
def returned : Option (Except PyError (Option (ModelManifest F))) → Option (ModelManifest F)
  | some (.ok manifest) => manifest
  | _ => none

omit [FloatText F] in
theorem eq_of_returned {result : Option (Except PyError (Option (ModelManifest F)))}
    {manifest : ModelManifest F} (h : returned result = some manifest) :
    result = some (.ok (some manifest)) := by
  rcases result with _ | _ | value
  · simp [returned] at h
  · simp [returned] at h
  · rw [← h, returned]

def sampleBefore : List (VaultCall WholeFloat × ℕ) := [(.construct 4, 100)]

def sampleAdd : VaultCall WholeFloat × ℕ :=
  (.add 2 two_positive (sampleFile "m" [1, 2, 3]), 100)

theorem sampleAdd_returned : ∃ manifest, (runCall Crypto.sample ["vault"] sampleEnv sampleAdd
    (runCalls Crypto.sample ["vault"] sampleEnv Host.empty sampleBefore)).1 =
      some (.ok (some manifest)) := by
  have hreturned : (returned (runCall Crypto.sample ["vault"] sampleEnv sampleAdd
      (runCalls Crypto.sample ["vault"] sampleEnv Host.empty sampleBefore)).1).isSome = true := by
    decide +kernel
  obtain ⟨manifest, hsome⟩ := Option.isSome_iff_exists.mp hreturned
  exact ⟨manifest, eq_of_returned hsome⟩

/-- `addFile_run` for a file of two shards, with a later call that is cut off. -/
theorem addFile_run_sample :
    ∃ manifest, (runCall Crypto.sample ["vault"] sampleEnv sampleAdd
        (runCalls Crypto.sample ["vault"] sampleEnv Host.empty sampleBefore)).1 =
          some (.ok (some manifest)) ∧
      Serves Crypto.sample ["vault"] sampleEnv
        (runCalls Crypto.sample ["vault"] sampleEnv Host.empty
        (sampleBefore ++ sampleAdd :: [(.add 2 (by decide) (sampleFile "n" [4]), 7)])).files 2
        [1, 2, 3] manifest := by
  obtain ⟨manifest, hmanifest⟩ := sampleAdd_returned
  refine ⟨manifest, hmanifest, ?_⟩
  exact ((addFile_run Crypto.sample Host.empty (fun _ _ => rfl) sampleBefore _ sampleAdd
    (distinct_sample _ _ _ _ ((runCalls_tick_le Crypto.sample _ _).trans (by decide)))).1
      2 _ _ manifest rfl hmanifest).2

end Decillion.VaultRuns
