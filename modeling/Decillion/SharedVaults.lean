import Decillion.SharedHosts
import Decillion.VaultRuns

/-!
The calls of a vault among other calls on the same directory. What the others keep of the
host is left open; a constructor that returns has left a valid configuration, and a call of
`add_file` that returns has, one after the other, found no manifest, wrapped its data key
under a configuration it has read and published its manifest.
-/
namespace Decillion.SharedVaults

open ByteText Blocks JsonValues JsonText JsonRoundTrip Primitives PyErrors Programs HostSystem
  HostRules Interleavings SharedHosts ShardManifests ShardVault VaultReads VaultWrites VaultRuns

variable {F : Type} [FloatText F] (crypto : Crypto) (root : Path)

def configText (vaultId : String) (salt : Bytes) (shardSize : ℕ) : Bytes :=
  encode (dumps (indented 2) (configJson vaultId salt shardSize) ++ "\n")

/-- A configuration that the checks of the constructor accept. -/
def ValidConfig (F : Type) [FloatText F] (root : Path) (files : Files) (salt : Bytes) : Prop :=
  ∃ content config, files (configPath root) = some content ∧
    loadConfig (F := F) content = .ok config ∧ configSalt config = .ok salt ∧ salt.length = 16

/-- What the calls of a vault put under which name. -/
inductive Publishes (env : Env F) (limit : ℕ) (s : Host) : Path → Bytes → Prop where
  | config (vaultId : String) (salt : Bytes) (shardSize : ℕ) (hsalt : salt.length = 16) :
      Publishes env limit s (configPath root) (configText vaultId salt shardSize)
  | shard (hash : String) (value : Bytes) : Publishes env limit s (shardPath root hash) value
  | key (tick : ℕ) (value : Bytes) (htick : tick < s.tick) (hlimit : tick < limit)
      (hfresh : s.files (keyPath root ("k_" ++ env.uuid tick)) = none) :
      Publishes env limit s (keyPath root ("k_" ++ env.uuid tick)) value
  | manifest (modelId : String) (value : Bytes) :
      Publishes env limit s (manifestPath crypto.sha root modelId) value

/-- What a call relies on between two of its operations. -/
structure Later (root : Path) (env : Env F) (limit : ℕ) (shared : Host → Host → Prop)
    (s s' : Host) : Prop where
  tick : s.tick ≤ s'.tick
  keys : ∀ tick, tick < limit → s'.files (keyPath root ("k_" ++ env.uuid tick)) =
    s.files (keyPath root ("k_" ++ env.uuid tick))
  shared : shared s s'

instance (root : Path) (env : Env F) (limit : ℕ) (shared : Host → Host → Prop)
    [IsPreorder Host shared] : IsPreorder Host (Later root env limit shared) where
  refl _ := ⟨le_rfl, fun _ _ => rfl, refl_of shared _⟩
  trans _ _ _ h h' := ⟨h.tick.trans h'.tick,
    fun tick htick => (h'.keys tick htick).trans (h.keys tick htick),
    trans_of shared h.shared h'.shared⟩

/-- What the operations of a call are assumed to keep. -/
def Keeps (limit : ℕ) (shared : Host → Host → Prop) (s s' : Host) : Prop :=
  shared s s' ∧ s'.tick ≤ limit

abbrev SafeVault {α : Type} (env : Env F) (limit : ℕ) (shared : Host → Host → Prop)
    (post : α → Host → Prop) (p : Prog SysOp (Resp F) α) (s : Host) : Prop :=
  SafeCall env limit (Later root env limit shared) (Keeps limit shared)
    (Publishes crypto root env limit) post p s

variable {root} {env : Env F} {limit : ℕ} {shared : Host → Host → Prop}

omit [FloatText F] in
theorem later_of_unchanged (s s' : Host) (h : Unchanged s s') (hkeeps : Keeps limit shared s s') :
    Later root env limit shared s s' :=
  ⟨h.2.2, fun _ _ => h.1 _ (isTemporary_keyPath root _), hkeeps.1⟩

theorem keeps_tick (s s' : Host) (h : Keeps limit shared s s') : s'.tick ≤ limit := h.2

omit [FloatText F] in
/-- The replacement of a file that is no wrapped key. -/
theorem later_of_replaced {s s' : Host} {target : Path} {value : Bytes}
    (h : Replaced s s' target value) (hkeeps : Keeps limit shared s s')
    (hkey : ∀ keyId, keyPath root keyId ≠ target) : Later root env limit shared s s' :=
  ⟨h.2.2.2, fun _ _ => h.2.1 _ (isTemporary_keyPath root _) (hkey _), hkeeps.1⟩

variable [IsPreorder Host shared]

omit [FloatText F] in
theorem safe_writeShard {post : Except PyError Unit → Host → Prop} (blob message : Bytes)
    (s : Host) (hany : ∀ result s', Later root env limit shared s s' → post result s') :
    SafeVault crypto root env limit shared post
      (writeShard root blob (crypto.sha.hexdigest message)) s := by
  apply safe_then
  apply safe_pathExists later_of_unchanged
  · exact fun e s' h s'' h' => hany _ s'' (trans_of _ h h'.later)
  intro s₁ s₂ h₁ h₂
  have hs₂ := trans_of _ h₁ h₂
  dsimp only
  split
  · apply safe_then
    apply safe_readBytes later_of_unchanged
    · exact fun e s' h s'' h' => hany _ s'' (trans_of _ hs₂ (trans_of _ h h'.later))
    intro s₃ content s₄ h₃ _ h₄
    have hs₄ := trans_of _ hs₂ (trans_of _ h₃ h₄)
    dsimp only
    split
    · exact fun s' h => hany _ s' (trans_of _ hs₄ h.later)
    · exact fun s' h => hany _ s' (trans_of _ hs₄ h.later)
  · apply safe_replaceFile later_of_unchanged keeps_tick _ _ _ (isTemporary_shardPath crypto root _)
    · exact fun s' _ => .shard _ _
    · exact fun e s' h => hany _ s' (trans_of _ hs₂ h)
    · exact fun s₃ s₄ s' h hreplaced hkeeps h' => hany _ s' (trans_of _ hs₂ (trans_of _ h
        (trans_of _ (later_of_replaced hreplaced hkeeps fun _ => keyPath_ne_shardPath _ _) h')))

omit [FloatText F] in
theorem safe_encryptShards {post : Except PyError (List Shard) → Host → Prop} (dataKey : Bytes)
    (modelId : String) (index : ℕ) (pieces : List Bytes) (s : Host)
    (hany : ∀ result s', Later root env limit shared s s' → post result s') :
    SafeVault crypto root env limit shared post
      (encryptShards crypto root dataKey modelId index pieces) s := by
  induction pieces generalizing index s post with
  | nil =>
    apply safe_then
    apply safe_readBlock later_of_unchanged
    · exact fun e s' h s'' h' => hany _ s'' (trans_of _ h h'.later)
    · exact fun s' h s'' h' => hany _ s'' (trans_of _ h h'.later)
  | cons block rest ih =>
    apply safe_then
    apply safe_readBlock later_of_unchanged
    · exact fun e s' h s'' h' => hany _ s'' (trans_of _ h h'.later)
    intro s₁ h₁
    apply safe_then
    apply safe_urandom later_of_unchanged
    · exact fun e s' h s'' h' => hany _ s'' (trans_of _ h₁ (trans_of _ h h'.later))
    intro nonce s₂ _ h₂
    have hs₂ := trans_of _ h₁ h₂
    apply safe_then
    apply safe_writeShard crypto
    intro result s₃ h₃
    have hs₃ := trans_of _ hs₂ h₃
    cases result with
    | error e => exact fun s' h => hany _ s' (trans_of _ hs₃ h.later)
    | ok _ =>
      apply safe_then
      apply ih
      intro result s₄ h₄
      have hs₄ := trans_of _ hs₃ h₄
      cases result with
      | error e => exact fun s' h => hany _ s' (trans_of _ hs₄ h.later)
      | ok shards => exact fun s' h => hany _ s' (trans_of _ hs₄ h.later)

omit [IsPreorder Host shared] in
theorem validConfig_of_written (files : Files) (vaultId : String) (salt : Bytes) (shardSize : ℕ)
    (hsalt : salt.length = 16)
    (hfile : files (configPath root) = some (configText vaultId salt shardSize)) :
    ValidConfig F root files salt :=
  ⟨_, _, hfile, loadConfig_configJson vaultId salt shardSize,
    configSalt_configMembers vaultId salt shardSize, hsalt⟩

omit [IsPreorder Host shared] in
/-- The check of the constructor finds a salt of the right length. -/
theorem validConfig_of_checked (files : Files) (content : Bytes)
    (hfile : files (configPath root) = some content)
    (h : (loadConfig (F := F) content >>= checkConfig) = .ok ()) :
    ∃ salt, ValidConfig F root files salt := by
  obtain ⟨config, hload, hcheck⟩ := bind_eq_ok h
  cases config with
  | obj members =>
    unfold checkConfig at hcheck
    dsimp only at hcheck
    split at hcheck
    · simp at hcheck
    · cases hsalt : configSalt (.obj members) with
      | error e => simp [hsalt] at hcheck
      | ok salt =>
        simp only [hsalt] at hcheck
        split at hcheck
        · simp at hcheck
        · rename_i hlength
          exact ⟨salt, content, _, hfile, hload, hsalt, not_not.mp hlength⟩
  | _ => simp [checkConfig] at hcheck

/-- A constructor that returns has found or written a valid configuration. -/
theorem safe_openStore {post : Except PyError VaultStore → Host → Prop} (shardSize : ℤ) (s : Host)
    (herror : ∀ e s', post (.error e) s')
    (hok : ∀ store s₁ s' salt, ValidConfig F root s₁.files salt → shared s₁ s' →
      post (.ok store) s') :
    SafeVault crypto root env limit shared post (openStore root shardSize) s := by
  unfold openStore
  split
  · exact fun s' _ => herror _ s'
  apply safe_then
  apply safe_then
  apply safe_pathExists later_of_unchanged
  · exact fun e s' _ s'' _ s₃ _ => herror _ s₃
  intro s₁ s₂ _ _
  dsimp only
  split
  · apply safe_then
    apply safe_readBytes later_of_unchanged
    · exact fun e s' _ s'' _ s₃ _ => herror _ s₃
    intro s₃ content s₄ _ hfile h₄ s₅ h₅
    cases hcheck : loadConfig (F := F) content >>= checkConfig with
    | error e => exact fun s' _ => herror _ s'
    | ok _ =>
      obtain ⟨salt, hvalid⟩ := validConfig_of_checked _ _ hfile hcheck
      exact fun s' h => hok _ s₃ s' salt hvalid
        (trans_of shared h₄.shared (trans_of shared h₅.later.shared h.later.shared))
  · apply safe_then
    apply safe_uuid4 later_of_unchanged keeps_tick
    intro s₃ s₄ _ _ _ _
    apply safe_then
    apply safe_urandom later_of_unchanged
    · exact fun e s' _ s'' _ s₅ _ => herror _ s₅
    intro salt s₅ hsalt _
    apply safe_replaceFile later_of_unchanged keeps_tick _ _ _ (isTemporary_configPath root)
    · exact fun s' _ => .config _ salt _ hsalt
    · exact fun e s' _ s'' _ => herror _ s''
    · intro s₆ s₇ s₈ _ hreplaced _ h₈ s' h
      exact hok _ s₇ s' salt (validConfig_of_written _ _ salt _ hsalt hreplaced.1)
        (trans_of shared h₈.shared h.later.shared)

theorem safe_masterKey {post : Except PyError Bytes → Host → Prop} (s : Host)
    (herror : ∀ e s', post (.error e) s')
    (hok : ∀ text s₁ content master s', checkPassphrase (passphrase env) = .ok text →
      s₁.files (configPath root) = some content →
      deriveKey F crypto.scrypt text content = .ok master →
      Later root env limit shared s s₁ → Later root env limit shared s₁ s' →
      post (.ok master) s') :
    SafeVault crypto root env limit shared post (masterKey crypto root) s := by
  apply safe_then
  apply safe_getenv later_of_unchanged
  intro s₁ h₁
  apply safe_then
  change ∀ s', Undisturbed env limit _ s₁ s' → _
  intro s₂ h₂
  cases htext : checkPassphrase (env.environ "IZETTA_VAULT_PASSPHRASE") with
  | error e => exact fun s' _ => herror _ s'
  | ok text =>
    apply safe_then
    apply safe_readBytes later_of_unchanged
    · exact fun e s' _ s'' _ => herror _ s''
    intro s₃ content s₄ h₃ hfile h₄
    change ∀ s', Undisturbed env limit _ s₄ s' → _
    intro s' h
    cases hmaster : deriveKey F crypto.scrypt text content with
    | error e => exact herror _ s'
    | ok master =>
      exact hok text s₃ content master s' htext hfile hmaster
        (trans_of _ h₁ (trans_of _ h₂.later h₃)) (trans_of _ h₄ h.later)

/-- A data key has been wrapped, at some moment, under a configuration that was read before. -/
def Wrapped (root : Path) (env : Env F) (shared : Host → Host → Prop) (keyId : String)
    (s : Host) : Prop :=
  ∃ text s₁ content master nonce dataKey s₂, checkPassphrase (passphrase env) = .ok text ∧
    s₁.files (configPath root) = some content ∧
    deriveKey F crypto.scrypt text content = .ok master ∧ nonce.length = 12 ∧
    dataKey.length = 32 ∧ shared s₁ s₂ ∧ s₂.files (keyPath root keyId) =
      some (nonce ++ crypto.aes.encrypt master nonce dataKey (encode keyId)) ∧ shared s₂ s

theorem Wrapped.later {keyId : String} {s s' : Host} (h : Wrapped crypto root env shared keyId s)
    (hshared : shared s s') : Wrapped crypto root env shared keyId s' := by
  obtain ⟨text, s₁, content, master, nonce, dataKey, s₂, htext, hcontent, hmaster, hnonce, hdata,
    h₁₂, hkey, hkept⟩ := h
  exact ⟨text, s₁, content, master, nonce, dataKey, s₂, htext, hcontent, hmaster, hnonce, hdata,
    h₁₂, hkey, trans_of shared hkept hshared⟩

theorem safe_wrapKey {post : Except PyError Unit → Host → Prop} (tick : ℕ) (dataKey : Bytes)
    (s : Host) (htick : tick < s.tick) (hlimit : tick < limit)
    (hfresh : s.files (keyPath root ("k_" ++ env.uuid tick)) = none) (hdata : dataKey.length = 32)
    (herror : ∀ e s', post (.error e) s')
    (hok : ∀ s', shared s s' → Wrapped crypto root env shared ("k_" ++ env.uuid tick) s' →
      post (.ok ()) s') :
    SafeVault crypto root env limit shared post
      (wrapKey crypto root ("k_" ++ env.uuid tick) dataKey) s := by
  apply safe_then
  apply safe_urandom later_of_unchanged
  · exact fun e s' _ s'' _ => herror _ s''
  intro nonce s₁ hnonce h₁
  apply safe_then
  apply safe_masterKey crypto
  · exact fun e s' s'' _ => herror _ s''
  intro text s₂ content master s₃ htext hfile hmaster h₂ h₃
  have hs₃ := trans_of _ h₁ (trans_of _ h₂ h₃)
  apply safe_replaceFile later_of_unchanged keeps_tick _ _ _ (isTemporary_keyPath root _)
  · intro s' h
    have hs' := trans_of (Later root env limit shared) hs₃ h
    refine .key tick _ (htick.trans_le hs'.tick) hlimit ?_
    rw [hs'.keys tick hlimit, hfresh]
  · exact fun e s' _ => herror _ s'
  · intro s₄ s₅ s' h₄ hreplaced hkeeps h
    refine hok s' ?_ ⟨text, s₂, content, master, nonce, dataKey, s₅, htext, hfile, hmaster, hnonce,
      hdata, ?_, hreplaced.1, h.shared⟩
    · exact trans_of shared (trans_of _ hs₃ h₄).shared (trans_of shared hkeeps.1 h.shared)
    · exact trans_of shared (trans_of _ h₃ h₄).shared hkeeps.1

/-- What a call of `add_file` has done that returns a manifest. -/
structure Returned (root : Path) (env : Env F) (limit : ℕ) (shared : Host → Host → Prop)
    (call : AddFile F) (began s : Host) (manifest : ModelManifest F) : Prop where
  modelId : manifest.modelId = call.modelId
  metadata : DistinctKeys (.obj manifest.metadata)
  absent : ∃ s₁, shared began s₁ ∧
    s₁.files (manifestPath crypto.sha root call.modelId) = none
  key : ∃ tick, tick < limit ∧ manifest.keyId = "k_" ++ env.uuid tick
  wrapped : Wrapped crypto root env shared manifest.keyId s
  published : ∃ s₁, s₁.files (manifestPath crypto.sha root call.modelId) =
    some (encode manifest.toJson) ∧ shared s₁ s

theorem Returned.later {call : AddFile F} {began s s' : Host} {manifest : ModelManifest F}
    (h : Returned crypto root env limit shared call began s manifest)
    (hshared : shared s s') :
    Returned crypto root env limit shared call began s' manifest where
  modelId := h.modelId
  metadata := h.metadata
  absent := h.absent
  key := h.key
  wrapped := h.wrapped.later crypto hshared
  published := by
    obtain ⟨s₁, hfile, hkept⟩ := h.published
    exact ⟨s₁, hfile, trans_of shared hkept hshared⟩

theorem safe_addFile {post : Except PyError (ModelManifest F) → Host → Prop} (size : ℕ)
    (positive : 0 < size) (call : AddFile F) (s : Host)
    (hfresh : ∀ tick, s.tick ≤ tick → tick < limit →
      s.files (keyPath root ("k_" ++ env.uuid tick)) = none)
    (herror : ∀ e s', post (.error e) s')
    (hok : ∀ manifest s', Returned crypto root env limit shared call s s' manifest →
      post (.ok manifest) s') :
    SafeVault crypto root env limit shared post
      (addFile crypto ⟨root, size, positive⟩ call) s := by
  apply safe_then
  change ∀ s', Undisturbed env limit _ s s' → _
  intro s₁ h₁
  cases hcheck : checkCall call with
  | error e => exact fun s' _ => herror _ s'
  | ok _ =>
    apply safe_then
    apply safe_pathExists later_of_unchanged
    · exact fun e s' _ s'' _ => herror _ s''
    intro s₂ s₃ h₂ h₃
    cases hfile : s₂.files (manifestPath crypto.sha root call.modelId) with
    | some value =>
      apply safe_then
      exact fun s' _ s'' _ => herror _ s''
    | none =>
      have habsent : ∃ s₁, shared s s₁ ∧
          s₁.files (manifestPath crypto.sha root call.modelId) = none :=
        ⟨s₂, trans_of shared h₁.later.shared h₂.shared, hfile⟩
      have hs₃ := trans_of _ h₁.later (trans_of _ h₂ h₃)
      apply safe_then
      apply safe_urandom later_of_unchanged
      · exact fun e s' _ s'' _ => herror _ s''
      intro dataKey s₄ hdata h₄
      apply safe_then
      apply safe_encryptShards crypto
      intro result s₅ h₅
      cases result with
      | error e => exact fun s' _ => herror _ s'
      | ok shards =>
        dsimp only
        split
        · exact fun s' _ => herror _ s'
        apply safe_then
        apply safe_uuid4 later_of_unchanged keeps_tick
        intro s₆ s₇ htick h₆ hnext h₇
        have hs₅ := trans_of _ hs₃ (trans_of _ h₄ h₅)
        have hs₆ := trans_of _ hs₅ h₆
        have hs₇ := trans_of _ hs₅ h₇
        apply safe_then
        apply safe_time later_of_unchanged
        intro now s₈ h₈
        have hs₈ := trans_of _ hs₇ h₈
        have hdrawn : s₆.tick < s₈.tick := (Nat.lt_succ_self _).trans_le
          (hnext.tick.trans h₈.tick)
        have hunused : s₈.files (keyPath root ("k_" ++ env.uuid s₆.tick)) = none := by
          rw [hs₈.keys _ htick]
          exact hfresh _ hs₆.tick htick
        apply safe_then
        apply safe_wrapKey crypto s₆.tick dataKey s₈ hdrawn htick hunused hdata
        · exact fun e s' s'' _ => herror _ s''
        intro s₉ _ hwrapped
        apply safe_then
        apply safe_replaceFile later_of_unchanged keeps_tick _ _ _
          (isTemporary_manifestPath crypto root call.modelId)
        · exact fun s' _ => .manifest _ _
        · exact fun e s' _ s'' _ => herror _ s''
        · intro s₁₀ s₁₁ s₁₂ h₁₀ hreplaced hkeeps h₁₂ s' h
          have hlast := trans_of shared h₁₂.shared h.later.shared
          refine hok _ s' ⟨rfl, ?_, habsent, ⟨s₆.tick, htick, rfl⟩, ?_, ⟨s₁₁, hreplaced.1, hlast⟩⟩
          · exact distinctKeys_setMember _ _ _ trivial call.wellFormed
          · exact hwrapped.later crypto
              (trans_of shared h₁₀.shared (trans_of shared hkeeps.1 hlast))

end Decillion.SharedVaults
