import Decillion.VaultReads

/-!
Rules for the writing methods of the vault. Whatever happens to a call, it leaves every
file alone that was there, writes no manifest before its last step, and every wrapped key
it writes has a name drawn during the call. A call that completes has published its model.
-/
namespace Decillion.VaultWrites

open ByteText Blocks JsonValues JsonText JsonRoundTrip Primitives PyErrors Programs HostSystem
  HostRules ShardManifests ShardVault VaultReads

section Monotone

variable {F : Type} [FloatText F] (crypto : Crypto) (root : Path) (passphrase : Option String)

theorem Extends.trans {a b c : Files} (h : Extends a b) (h' : Extends b c) : Extends a c :=
  fun path value hpath hvalue => h' path value hpath (h path value hpath hvalue)

theorem stored_mono (files files' : Files) (hext : Extends files files') (dataKey : Bytes)
    (modelId : String) (index : ℕ) (pieces : List Bytes) (shards : List Shard)
    (h : Stored crypto root files dataKey modelId index pieces shards) :
    Stored crypto root files' dataKey modelId index pieces shards := by
  induction pieces generalizing index shards with
  | nil => exact h
  | cons block rest ih =>
    obtain ⟨nonce, tail, hnonce, hshards, hfile, htail⟩ := h
    exact ⟨nonce, tail, hnonce, hshards,
      hext _ _ (isTemporary_shardPath crypto root _) hfile, ih (index + 1) tail htail⟩

theorem keyStored_mono (files files' : Files) (hext : Extends files files') (id : String)
    (dataKey : Bytes) (h : KeyStored F crypto root passphrase files ("k_" ++ id) dataKey) :
    KeyStored F crypto root passphrase files' ("k_" ++ id) dataKey := by
  obtain ⟨text, content, master, nonce, htext, hconfig, hderive, hmaster, hnonce, hfile⟩ := h
  exact ⟨text, content, master, nonce, htext, hext _ _ (isTemporary_configPath root) hconfig,
    hderive, hmaster, hnonce, hext _ _ (isTemporary_keyPath root id) hfile⟩

/-- A published model stays published when no file is removed or changed. -/
theorem published_mono (files files' : Files) (hext : Extends files files')
    (pieces : List Bytes) (manifest : ModelManifest F)
    (h : Published F crypto root passphrase files pieces manifest) :
    Published F crypto root passphrase files' pieces manifest where
  file := hext _ _ (isTemporary_manifestPath crypto root _) h.file
  metadata := h.metadata
  shards := by
    obtain ⟨dataKey, hlength, hkey, hstored⟩ := h.shards
    obtain ⟨id, hid⟩ := h.keyId
    rw [hid] at hkey ⊢
    exact ⟨dataKey, hlength, keyStored_mono crypto root passphrase files files' hext id
      dataKey hkey,
      stored_mono crypto root files files' hext dataKey _ 0 pieces _ hstored⟩
  nShards := h.nShards
  keyId := h.keyId
  merkle := h.merkle

end Monotone

variable {F : Type} (crypto : Crypto) (root : Path)

/-- What every part of a call keeps before its manifest is written. -/
structure Prepared (env : Env F) (s s' : Host) : Prop where
  files : Extends s.files s'.files
  manifests : ∀ path, isTemporary path = false → (root ++ ["manifests"]) <+: path →
    s'.files path = s.files path
  keys : ∀ id value, s'.files (keyPath root ("k_" ++ id)) = some value →
    s.files (keyPath root ("k_" ++ id)) = some value ∨
      ∃ tick, s.tick ≤ tick ∧ tick < s'.tick ∧ id = env.uuid tick
  tick : s.tick ≤ s'.tick

variable {root} {env : Env F}

theorem Prepared.trans {s s' s'' : Host} (h : Prepared root env s s')
    (h' : Prepared root env s' s'') : Prepared root env s s'' where
  files := Extends.trans h.files h'.files
  manifests := fun path hpath hprefix =>
    (h'.manifests path hpath hprefix).trans (h.manifests path hpath hprefix)
  keys := by
    intro id value hvalue
    rcases h'.keys id value hvalue with hold | ⟨tick, hle, hlt, hid⟩
    · rcases h.keys id value hold with hold | ⟨tick, hle, hlt, hid⟩
      · exact Or.inl hold
      · exact Or.inr ⟨tick, hle, hlt.trans_le h'.tick, hid⟩
    · exact Or.inr ⟨tick, h.tick.trans hle, hlt, hid⟩
  tick := h.tick.trans h'.tick

variable (root env) in
theorem prepared_of_unchanged {s s' : Host} (h : Unchanged s s') : Prepared root env s s' where
  files := fun path _ hpath hvalue => (h.1 path hpath).trans hvalue
  manifests := fun path hpath _ => h.1 path hpath
  keys := fun id _ hvalue =>
    Or.inl ((h.1 _ (isTemporary_keyPath root id)).symm.trans hvalue)
  tick := h.2.2

variable (root env) in
theorem prepared_next (s : Host) : Prepared root env s s.next :=
  prepared_of_unchanged root env (unchanged_next s)

/-- A new file outside the manifests; a new key has to have a name that was just drawn. -/
theorem prepared_of_replaced {s s' s'' : Host} {target : Path} {value : Bytes}
    (h : Prepared root env s s') (h' : Replaced s' s'' target value)
    (hfresh : s'.files target = none) (houtside : ¬ (root ++ ["manifests"]) <+: target)
    (hkey : ∀ id, keyPath root ("k_" ++ id) = target →
      ∃ tick, s.tick ≤ tick ∧ tick < s''.tick ∧ id = env.uuid tick) :
    Prepared root env s s'' where
  files := by
    intro path v hpath hv
    have hv' := h.files path v hpath hv
    have hne : path ≠ target := by
      rintro rfl
      rw [hfresh] at hv'
      simp at hv'
    exact (h'.2.1 path hpath hne).trans hv'
  manifests := fun path hpath hprefix =>
    (h'.2.1 path hpath (fun heq => houtside (heq ▸ hprefix))).trans (h.manifests path hpath hprefix)
  keys := by
    intro id v hv
    by_cases htarget : keyPath root ("k_" ++ id) = target
    · exact Or.inr (hkey id htarget)
    · rw [h'.2.1 _ (isTemporary_keyPath root id) htarget] at hv
      rcases h.keys id v hv with hold | ⟨tick, hle, hlt, hid⟩
      · exact Or.inl hold
      · exact Or.inr ⟨tick, hle, hlt.trans_le h'.2.2.2, hid⟩
  tick := h.tick.trans h'.2.2.2

theorem shardPath_not_manifest (hash : String) :
    ¬ (root ++ ["manifests"]) <+: shardPath root hash := by
  rintro ⟨rest, hrest⟩
  rw [shardPath, List.append_assoc, List.append_cancel_left_eq] at hrest
  simp at hrest

theorem keyPath_not_manifest (keyId : String) :
    ¬ (root ++ ["manifests"]) <+: keyPath root keyId := by
  rintro ⟨rest, hrest⟩
  rw [keyPath, List.append_assoc, List.append_cancel_left_eq] at hrest
  simp at hrest

theorem configPath_not_manifest : ¬ (root ++ ["manifests"]) <+: configPath root := by
  rintro ⟨rest, hrest⟩
  rw [configPath, List.append_assoc, List.append_cancel_left_eq] at hrest
  simp at hrest

theorem keyPath_ne_shardPath (keyId hash : String) : keyPath root keyId ≠ shardPath root hash := by
  intro h
  rw [keyPath, shardPath, List.append_cancel_left_eq] at h
  simp at h

theorem keyPath_ne_configPath (keyId : String) : keyPath root keyId ≠ configPath root := by
  intro h
  rw [keyPath, configPath, List.append_cancel_left_eq] at h
  simp at h

theorem configPath_ne_shardPath (hash : String) : configPath root ≠ shardPath root hash := by
  intro h
  rw [configPath, shardPath, List.append_cancel_left_eq] at h
  simp at h

theorem keyPath_injective (id id' : String)
    (h : keyPath root ("k_" ++ id) = keyPath root ("k_" ++ id')) : id = id' := by
  rw [keyPath, keyPath, List.append_cancel_left_eq] at h
  simp only [List.cons.injEq, true_and, and_true] at h
  have hchars := congrArg String.toList h
  simp only [String.toList_append, List.append_assoc, List.append_cancel_left_eq,
    List.append_cancel_right_eq] at hchars
  exact String.toList_inj.mp hchars

variable {crash : Host → Prop}

/-- A shard is there afterwards, whether it was written or found. -/
theorem holds_writeShard {post : Except PyError Unit → Host → Prop} (blob message : Bytes)
    (s : Host) (hcrash : ∀ s', Prepared root env s s' → crash s')
    (herror : ∀ e s', Prepared root env s s' → post (.error e) s')
    (hok : ∀ s', Prepared root env s s' →
      s'.files (shardPath root (crypto.sha.hexdigest message)) = some blob → post (.ok ()) s') :
    Holds (handle env) crash post
      (writeShard (F := F) root blob (crypto.sha.hexdigest message)) s := by
  have h₁ := prepared_next root env s
  have h₂ := h₁.trans (prepared_next _ _ s.next)
  apply holds_then
  apply holds_pathExists _ _ (hcrash s (prepared_of_unchanged _ _ (.rfl s)))
  · exact fun e => herror _ _ h₁
  cases hfile : s.files (shardPath root (crypto.sha.hexdigest message)) with
  | some content =>
    apply holds_then
    apply holds_readBytes _ _ (hcrash _ h₁)
    · exact fun e => herror _ _ h₂
    intro value hvalue
    dsimp only
    split
    · exact herror _ _ h₂
    · rename_i hsame
      rw [not_not.mp hsame] at hvalue
      exact hok _ h₂ hvalue
  | none =>
    have hwritten : ∀ s', Replaced s.next s' (shardPath root (crypto.sha.hexdigest message)) blob →
        Prepared root env s s' := fun s' h => prepared_of_replaced h₁ h hfile
      (shardPath_not_manifest _) (fun id heq => absurd heq (keyPath_ne_shardPath _ _))
    apply holds_replaceFile _ _ _ _ (by decide) (isTemporary_shardPath crypto root message)
    · exact fun s' h => hcrash _ (h₁.trans (prepared_of_unchanged _ _ h))
    · exact fun s' h => hcrash _ (hwritten s' h)
    · exact fun e s' h => herror _ _ (h₁.trans (prepared_of_unchanged _ _ h))
    · exact fun s' h => hok _ (hwritten s' h) h.1

/-- All blocks are stored afterwards. -/
theorem holds_encryptShards {post : Except PyError (List Shard) → Host → Prop} (dataKey : Bytes)
    (modelId : String) (index : ℕ) (pieces : List Bytes) (s : Host)
    (hcrash : ∀ s', Prepared root env s s' → crash s')
    (herror : ∀ e s', Prepared root env s s' → post (.error e) s')
    (hok : ∀ shards s', Prepared root env s s' →
      Stored crypto root s'.files dataKey modelId index pieces shards → post (.ok shards) s') :
    Holds (handle env) crash post
      (encryptShards (F := F) crypto root dataKey modelId index pieces) s := by
  induction pieces generalizing index s post with
  | nil =>
    have h₁ := prepared_next root env s
    apply holds_then
    apply holds_readBlock _ _ (hcrash s (prepared_of_unchanged _ _ (.rfl s)))
    · exact fun e => herror _ _ h₁
    · exact hok [] _ h₁ rfl
  | cons block rest ih =>
    have h₁ := prepared_next root env s
    have h₂ := h₁.trans (prepared_next _ _ s.next)
    apply holds_then
    apply holds_readBlock _ _ (hcrash s (prepared_of_unchanged _ _ (.rfl s)))
    · exact fun e => herror _ _ h₁
    apply holds_then
    apply holds_urandom _ _ (hcrash _ h₁)
    · exact fun e => herror _ _ h₂
    intro nonce hnonce
    apply holds_then
    apply holds_writeShard crypto
    · exact fun s' h => hcrash _ (h₂.trans h)
    · exact fun e s' h => herror _ _ (h₂.trans h)
    intro s₃ h₃ hfile
    have hs₃ := h₂.trans h₃
    apply holds_then
    apply ih (index + 1) s₃
    · exact fun s' h => hcrash _ (hs₃.trans h)
    · exact fun e s' h => herror _ _ (hs₃.trans h)
    intro shards s₄ h₄ hstored
    refine hok _ s₄ (hs₃.trans h₄) ⟨nonce, shards, hnonce, rfl, ?_, hstored⟩
    exact h₄.files _ _ (isTemporary_shardPath crypto root _) hfile

variable [FloatText F]

/-- The constructor writes the configuration when there is none. -/
theorem holds_ensureConfig {post : Except PyError Unit → Host → Prop} (shardSize : ℕ) (s : Host)
    (hcrash : ∀ s', Prepared root env s s' → crash s')
    (hpost : ∀ result s', Prepared root env s s' → post result s') :
    Holds (handle env) crash post (ensureConfig (F := F) root shardSize) s := by
  have h₁ := prepared_next root env s
  have h₂ := h₁.trans (prepared_next _ _ s.next)
  have h₃ := h₂.trans (prepared_next _ _ s.next.next)
  apply holds_then
  apply holds_pathExists _ _ (hcrash s (prepared_of_unchanged _ _ (.rfl s)))
  · exact fun e => hpost _ _ h₁
  cases hconfig : s.files (configPath root) with
  | some content =>
    apply holds_then
    apply holds_readBytes _ _ (hcrash _ h₁)
    · exact fun e => hpost _ _ h₂
    · exact fun _ _ => hpost _ _ h₂
  | none =>
    apply holds_then
    apply holds_uuid4 _ (hcrash _ h₁)
    apply holds_then
    apply holds_urandom _ _ (hcrash _ h₂)
    · exact fun e => hpost _ _ h₃
    intro salt _
    have hwritten : ∀ value s', Replaced s.next.next.next s' (configPath root) value →
        Prepared root env s s' := fun value s' h => prepared_of_replaced h₃ h hconfig
      configPath_not_manifest (fun id heq => absurd heq (keyPath_ne_configPath _))
    apply holds_replaceFile _ _ _ _ (by decide) (isTemporary_configPath root)
    · exact fun s' h => hcrash _ (h₃.trans (prepared_of_unchanged _ _ h))
    · exact fun s' h => hcrash _ (hwritten _ s' h)
    · exact fun e s' h => hpost _ _ (h₃.trans (prepared_of_unchanged _ _ h))
    · exact fun s' h => hpost _ _ (hwritten _ s' h)

theorem holds_openStore {post : Except PyError VaultStore → Host → Prop} (shardSize : ℤ)
    (s : Host) (hcrash : ∀ s', Prepared root env s s' → crash s')
    (hpost : ∀ result s', Prepared root env s s' → post result s') :
    Holds (handle env) crash post (openStore (F := F) root shardSize) s := by
  unfold openStore
  split
  · exact hpost _ _ (prepared_of_unchanged _ _ (.rfl s))
  · apply holds_then
    apply holds_ensureConfig _ _ hcrash
    intro result s' h
    cases result with
    | ok _ => exact hpost _ _ h
    | error e => exact hpost _ _ h

theorem deriveKey_length (scrypt : Scrypt) (passphrase : String) (content master : Bytes)
    (h : deriveKey F scrypt passphrase content = .ok master) : master.length = 32 := by
  unfold deriveKey at h
  cases hconfig : loadConfig (F := F) content with
  | error e => simp [hconfig, bind, Except.bind] at h
  | ok config =>
    cases hsalt : configSalt config with
    | error e => simp [hconfig, hsalt, bind, Except.bind] at h
    | ok salt =>
      simp only [hconfig, hsalt, bind, Except.bind, pure, Except.pure, Except.ok.injEq] at h
      rw [← h, scrypt.derive_length]

theorem holds_masterKey {post : Except PyError Bytes → Host → Prop} (s : Host)
    (hcrash : ∀ s', Unchanged s s' → crash s')
    (herror : ∀ e s', Unchanged s s' → post (.error e) s')
    (hok : ∀ text content master, checkPassphrase (env.environ "IZETTA_VAULT_PASSPHRASE") =
      .ok text →
      s.files (configPath root) = some content →
      deriveKey F crypto.scrypt text content = .ok master → post (.ok master) s.next.next) :
    Holds (handle env) crash post (masterKey (F := F) crypto root) s := by
  have h₁ := unchanged_next s
  have h₂ := h₁.trans (unchanged_next s.next)
  apply holds_then
  apply holds_getenv _ _ (hcrash s (.rfl s))
  apply holds_then
  apply holds_fromExcept
  cases htext : checkPassphrase (env.environ "IZETTA_VAULT_PASSPHRASE") with
  | error e => exact herror _ _ h₁
  | ok text =>
    apply holds_then
    apply holds_readBytes _ _ (hcrash _ h₁)
    · exact fun e => herror _ _ h₂
    intro content hcontent
    apply holds_fromExcept
    cases hderive : deriveKey F crypto.scrypt text content with
    | error e => exact herror _ _ h₂
    | ok master => exact hok text content master htext hcontent hderive

/-- A key under a name drawn during the call is stored as a whole. -/
theorem holds_wrapKey {post : Except PyError Unit → Host → Prop} (s₀ s : Host) (tick : ℕ)
    (dataKey : Bytes) (h₀ : Prepared root env s₀ s) (hlow : s₀.tick ≤ tick) (hhigh : tick < s.tick)
    (hfresh : s.files (keyPath root ("k_" ++ env.uuid tick)) = none)
    (hcrash : ∀ s', Prepared root env s₀ s' → crash s')
    (herror : ∀ e s', Prepared root env s₀ s' → post (.error e) s')
    (hok : ∀ s', Prepared root env s₀ s' → Extends s.files s'.files →
      KeyStored F crypto root (env.environ "IZETTA_VAULT_PASSPHRASE") s'.files
        ("k_" ++ env.uuid tick) dataKey → post (.ok ()) s') :
    Holds (handle env) crash post
      (wrapKey (F := F) crypto root ("k_" ++ env.uuid tick) dataKey) s := by
  have h₁ := h₀.trans (prepared_next _ _ s)
  apply holds_then
  apply holds_urandom _ _ (hcrash _ h₀)
  · exact fun e => herror _ _ h₁
  intro nonce hnonce
  apply holds_then
  apply holds_masterKey crypto
  · exact fun s' h => hcrash _ (h₁.trans (prepared_of_unchanged _ _ h))
  · exact fun e s' h => herror _ _ (h₁.trans (prepared_of_unchanged _ _ h))
  intro text content master htext hcontent hderive
  have hmore : Unchanged s s.next.next.next :=
    ((unchanged_next s).trans (unchanged_next _)).trans (unchanged_next _)
  have h₃ := h₀.trans (prepared_of_unchanged _ _ hmore)
  have hwritten : ∀ value s', Replaced s.next.next.next s' (keyPath root ("k_" ++ env.uuid tick))
      value → Prepared root env s₀ s' := fun value s' h =>
    prepared_of_replaced h₃ h hfresh (keyPath_not_manifest _)
      (fun id heq => ⟨tick, hlow, hhigh.trans_le (hmore.2.2.trans h.2.2.2),
        keyPath_injective _ _ heq⟩)
  apply holds_replaceFile _ _ _ _ (by decide) (isTemporary_keyPath root _)
  · exact fun s' h => hcrash _ (h₃.trans (prepared_of_unchanged _ _ h))
  · exact fun s' h => hcrash _ (hwritten _ s' h)
  · exact fun e s' h => herror _ _ (h₃.trans (prepared_of_unchanged _ _ h))
  · intro s' h
    have hext : Extends s.files s'.files := by
      intro path value hpath hvalue
      have hne : path ≠ keyPath root ("k_" ++ env.uuid tick) := by
        rintro rfl
        rw [hfresh] at hvalue
        simp at hvalue
      exact (h.2.1 path hpath hne).trans hvalue
    exact hok s' (hwritten _ s' h) hext ⟨text, content, master, nonce, htext,
      hext _ _ (isTemporary_configPath root) hcontent, hderive,
      deriveKey_length crypto.scrypt text content master hderive, hnonce, h.1⟩

end Decillion.VaultWrites
