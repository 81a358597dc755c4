import Decillion.HostExecutions
import Decillion.VaultProcesses

/-!
Executions of the calls of a vault on a host on which nothing fails: a constructor that
finds no configuration and a call of `add_file` for a file of one block. Both are cut after
the operation that looks for the file they are going to write.
-/
namespace Decillion.VaultExecutions

open ByteText Blocks JsonText JsonStrings Primitives PyErrors Programs HostSystem HostRules
  Interleavings Executions HostExecutions SharedVaults ShardManifests ShardVault VaultReads
  VaultWrites VaultRuns VaultProcesses

variable {F : Type} [FloatText F] (crypto : Crypto) {root : Path} {env : Env F}

def NoTemporary (s : Host) : Prop := ∀ path, isTemporary path = true → s.files path = none

theorem noTemporary_stored {s : Host} (h : NoTemporary s) (n : ℕ) (path : Path) (value : Bytes)
    (hpath : isTemporary path = false) : NoTemporary (stored s n path value) := by
  intro other hother
  have hne : other ≠ path := by
    rintro rfl
    rw [hpath] at hother
    simp at hother
  exact (Function.update_of_ne hne _ _).trans (h other hother)

theorem absent_of_noTemporary {s : Host} (h : NoTemporary s) (dir : Path) (name : String) :
    s.files (dir ++ [".write-" ++ name]) = none :=
  h _ (isTemporary_mkstemp dir ".write-" name (by decide))

theorem configPath_ne_manifestPath (modelId : String) :
    configPath root ≠ manifestPath crypto.sha root modelId := by
  intro h
  rw [configPath, manifestPath, List.append_cancel_left_eq] at h
  simp at h

theorem manifestPath_ne_shardPath (modelId hash : String) :
    manifestPath crypto.sha root modelId ≠ shardPath root hash := by
  intro h
  rw [manifestPath, shardPath, List.append_cancel_left_eq] at h
  simp at h

section Faultless

variable (hfault : ∀ tick, env.fault tick = false)
include hfault

variable (env) in
/-- A store is opened where no configuration is found, and one is written. -/
theorem reaches_openStore (shardSize : ℕ) (hsize : 0 < shardSize) (s : Host)
    (habsent : s.files (configPath root) = none) :
    ∃ rest, Reaches (handle env) 1 (openStore (F := F) root shardSize) s rest (after s 1) ∧
      ∀ s₁, NoTemporary s₁ →
        Reaches (handle env) 7 rest s₁ (.done (.ok ⟨root, shardSize, hsize⟩))
          (stored s₁ 7 (configPath root) (configText (dashed (env.uuid s₁.tick))
            (env.random (s₁.tick + 1) 16) shardSize)) := by
  have hopen : openStore (F := F) root shardSize = (do
      ensureConfig root shardSize
      return ⟨root, shardSize, hsize⟩) := dif_neg (by omega)
  have hcheck := reaches_pathExists hfault (configPath root) s
  rw [habsent] at hcheck
  refine ⟨?rest, ?first, ?second⟩
  case first =>
    rw [hopen]
    exact (hcheck.bind _).bind _
  intro s₁ hclean
  have hwrite : Reaches (handle env) 7 (do
      let vaultId ← uuid4
      let salt ← urandom 16
      replaceFile ".write-" (configPath root) (configText (dashed vaultId) salt shardSize) :
        Act F PyError Unit) s₁ (.done (.ok ())) (stored s₁ 7 (configPath root)
          (configText (dashed (env.uuid s₁.tick)) (env.random (s₁.tick + 1) 16) shardSize)) := by
    apply reaches_then _ _ _ (reaches_perform _ _)
    apply reaches_then _ _ _ (reaches_urandom hfault 16 _)
    exact reaches_replaceFile hfault ".write-" (configPath root) _ (after s₁ 2) (by decide)
      (isTemporary_configPath root) (absent_of_noTemporary hclean _ _)
  exact Reaches.trans (m := 0) (hwrite.bind _) ⟨rfl, rfl⟩

variable (env) in
/-- A constructor that finds no configuration writes one. -/
theorem reaches_construct (shardSize : ℕ) (hsize : 0 < shardSize) (s : Host)
    (habsent : s.files (configPath root) = none) :
    ∃ rest, Reaches (handle env) 1 (program crypto root (.construct shardSize)) s rest
        (after s 1) ∧
      ∀ s₁, NoTemporary s₁ →
        Reaches (handle env) 7 rest s₁
          (.done (.ok (.store ⟨root, shardSize, hsize⟩)))
          (stored s₁ 7 (configPath root) (configText (dashed (env.uuid s₁.tick))
            (env.random (s₁.tick + 1) 16) shardSize)) := by
  obtain ⟨rest, hfirst, hrest⟩ := reaches_openStore env hfault shardSize hsize s habsent
  exact ⟨_, hfirst.bind _, fun s₁ hclean =>
    Reaches.trans (m := 0) ((hrest s₁ hclean).bind _) ⟨rfl, rfl⟩⟩

/-- The record and the blob of the only block of a file, sealed from some tick on. -/
def sealedAt (env : Env F) (tick : ℕ) (call : AddFile F) : Bytes × Shard :=
  sealShard crypto (env.random tick 32) call.modelId 0 call.content (env.random (tick + 2) 12)

/-- The manifest of a call of `add_file` for a file of one block, from some tick on. -/
def manifestAt (env : Env F) (tick : ℕ) (call : AddFile F) : ModelManifest F :=
  buildManifest crypto call [(sealedAt crypto env tick call).2] ("k_" ++ env.uuid (tick + 10))
    (env.clock (tick + 11))

omit [FloatText F] in
theorem reaches_writeShard (blob message : Bytes) (s : Host) (hclean : NoTemporary s)
    (habsent : s.files (shardPath root (crypto.sha.hexdigest message)) = none) :
    Reaches (handle env) 6 (writeShard root blob (crypto.sha.hexdigest message) :
      Act F PyError Unit) s (.done (.ok ()))
      (stored (after s 1) 5 (shardPath root (crypto.sha.hexdigest message)) blob) := by
  have hcheck := reaches_pathExists hfault (shardPath root (crypto.sha.hexdigest message)) s
  rw [habsent] at hcheck
  apply reaches_then _ _ _ hcheck
  exact reaches_replaceFile hfault ".write-" _ blob (after s 1) (by decide)
    (isTemporary_shardPath crypto root message) (absent_of_noTemporary hclean _ _)

theorem reaches_masterKey (text : String) (hpass : passphrase env = some text) (htext : text ≠ "")
    (vaultId : String) (salt : Bytes) (shardSize : ℕ) (s : Host)
    (hconfig : s.files (configPath root) = some (configText vaultId salt shardSize)) :
    Reaches (handle env) 2 (masterKey crypto root : Act F PyError Bytes) s
      (.done (.ok (crypto.scrypt.derive salt (encode text)))) (after s 2) := by
  have hcheck : checkPassphrase (passphrase env) = .ok text := by
    rw [hpass, checkPassphrase, if_neg htext]
  have hderive : deriveKey F crypto.scrypt text (configText vaultId salt shardSize) =
      .ok (crypto.scrypt.derive salt (encode text)) :=
    deriveKey_configJson crypto.scrypt text vaultId salt shardSize
  apply reaches_then _ _ _ (reaches_perform _ _)
  apply reaches_then (n := 0) _ _ text
  · exact ⟨congrArg Prog.done hcheck.symm, rfl⟩
  apply reaches_then _ _ _ (reaches_readBytes hfault (configPath root) _ (after s 1)
    hconfig)
  exact ⟨congrArg Prog.done hderive.symm, rfl⟩

theorem reaches_wrapKey (text : String) (hpass : passphrase env = some text) (htext : text ≠ "")
    (vaultId : String) (salt : Bytes) (shardSize : ℕ) (id : String) (dataKey : Bytes) (s : Host)
    (hconfig : s.files (configPath root) = some (configText vaultId salt shardSize))
    (hclean : NoTemporary s) :
    Reaches (handle env) 8 (wrapKey crypto root ("k_" ++ id) dataKey : Act F PyError Unit) s
      (.done (.ok ())) (stored (after s 3) 5 (keyPath root ("k_" ++ id))
        (env.random s.tick 12 ++ crypto.aes.encrypt (crypto.scrypt.derive salt (encode text))
          (env.random s.tick 12) dataKey (encode ("k_" ++ id)))) := by
  apply reaches_then _ _ _ (reaches_urandom hfault 12 s)
  apply reaches_then _ _ _ (reaches_masterKey crypto hfault text hpass htext vaultId salt
    shardSize (after s 1) hconfig)
  exact reaches_replaceFile hfault ".write-" (keyPath root ("k_" ++ id)) _ (after s 3)
    (by decide) (isTemporary_keyPath root id) (absent_of_noTemporary hclean _ _)

variable (env) in
/-- A call of `add_file` that finds no manifest returns one, whatever happens in between. -/
theorem reaches_addFile (size : ℕ) (positive : 0 < size) (call : AddFile F)
    (hcheck : checkCall call = .ok ()) (hblocks : blocks size call.content = [call.content])
    (text : String) (hpass : passphrase env = some text) (htext : text ≠ "") (s : Host)
    (habsent : s.files (manifestPath crypto.sha root call.modelId) = none) :
    ∃ rest, Reaches (handle env) 1 (addFile crypto ⟨root, size, positive⟩ call) s rest
        (after s 1) ∧
      ∀ s₁ vaultId salt shardSize, NoTemporary s₁ →
        s₁.files (configPath root) = some (configText vaultId salt shardSize) →
        s₁.files (shardPath root (sealedAt crypto env s₁.tick call).2.ciphertextHash) = none →
        ∃ wrapped s₂, Reaches (handle env) 25 rest s₁
            (.done (.ok (manifestAt crypto env s₁.tick call))) s₂ ∧
          s₂.tick = s₁.tick + 25 ∧ s₂.files = Function.update (Function.update (Function.update
            s₁.files (shardPath root (sealedAt crypto env s₁.tick call).2.ciphertextHash)
              (some (sealedAt crypto env s₁.tick call).1))
            (keyPath root (manifestAt crypto env s₁.tick call).keyId) (some wrapped))
            (manifestPath crypto.sha root call.modelId)
              (some (encode (manifestAt crypto env s₁.tick call).toJson)) := by
  have hfirst := reaches_pathExists hfault (manifestPath crypto.sha root call.modelId) s
  rw [habsent] at hfirst
  refine ⟨?rest, ?first, ?second⟩
  case first =>
    rw [addFile, hcheck]
    exact hfirst.bind _
  intro s₁ vaultId salt shardSize hclean hconfig hshard
  have hseal : Reaches (handle env) 9 (encryptShards crypto root (env.random s₁.tick 32)
      call.modelId 0 (blocks size call.content) : Act F PyError (List Shard)) (after s₁ 1)
        (.done (.ok [(sealedAt crypto env s₁.tick call).2]))
        (after (stored (after s₁ 4) 5 (shardPath root (sealedAt crypto env s₁.tick
          call).2.ciphertextHash) (sealedAt crypto env s₁.tick call).1) 1) := by
    rw [hblocks]
    apply reaches_then _ _ _ (reaches_readBlock hfault _ _)
    apply reaches_then _ _ _ (reaches_urandom hfault 12 _)
    apply reaches_then _ _ _ (reaches_writeShard crypto hfault _ _ (after s₁ 3) hclean hshard)
    apply reaches_then (m := 0) _ _ _ (reaches_then (m := 0) _ _ _
      (reaches_readBlock hfault [] _) ⟨rfl, rfl⟩)
    exact ⟨rfl, rfl⟩
  let s₂ := after (stored (after s₁ 4) 5 (shardPath root (sealedAt crypto env s₁.tick
    call).2.ciphertextHash) (sealedAt crypto env s₁.tick call).1) 3
  let wrapped := env.random s₂.tick 12 ++ crypto.aes.encrypt (crypto.scrypt.derive salt
    (encode text)) (env.random s₂.tick 12) (env.random s₁.tick 32)
      (encode ("k_" ++ env.uuid (s₁.tick + 10)))
  let s₃ := stored (after s₂ 3) 5 (keyPath root ("k_" ++ env.uuid (s₁.tick + 10))) wrapped
  have hclean₂ : NoTemporary s₂ :=
    noTemporary_stored hclean 9 _ _ (isTemporary_shardPath crypto root _)
  have hclean₃ : NoTemporary s₃ := noTemporary_stored hclean₂ 8 _ _ (isTemporary_keyPath root _)
  have hkept : ∀ path, path ≠ shardPath root (sealedAt crypto env s₁.tick call).2.ciphertextHash →
      s₂.files path = s₁.files path := fun path hpath => Function.update_of_ne hpath _ _
  have hwrap : Reaches (handle env) 8 (wrapKey crypto root ("k_" ++ env.uuid (s₁.tick + 10))
      (env.random s₁.tick 32) : Act F PyError Unit) s₂ (.done (.ok ())) s₃ := by
    apply reaches_wrapKey crypto hfault text hpass htext vaultId salt shardSize
    · exact (hkept _ (configPath_ne_shardPath _)).trans hconfig
    · exact hclean₂
  refine ⟨wrapped, stored s₃ 5 (manifestPath crypto.sha root call.modelId)
    (encode (manifestAt crypto env s₁.tick call).toJson), ?_, rfl, rfl⟩
  have hpublish : Reaches (handle env) 5 (replaceFile ".write-"
      (manifestPath crypto.sha root call.modelId)
      (encode (manifestAt crypto env s₁.tick call).toJson) : Act F PyError Unit) s₃ (.done (.ok ()))
      (stored s₃ 5 (manifestPath crypto.sha root call.modelId)
        (encode (manifestAt crypto env s₁.tick call).toJson)) :=
    reaches_replaceFile hfault ".write-" _ _ _ (by decide)
      (isTemporary_manifestPath crypto root call.modelId) (absent_of_noTemporary hclean₃ _ _)
  apply reaches_then _ _ _ (reaches_urandom hfault 32 s₁)
  apply reaches_then _ _ _ hseal
  apply reaches_then _ _ _ (reaches_perform _ _)
  apply reaches_then _ _ _ (reaches_perform _ _)
  apply reaches_then _ _ _ hwrap
  apply reaches_then (m := 0) _ _ _ hpublish
  exact ⟨rfl, rfl⟩

variable (env) in
/-- The same for the program of a process. -/
theorem reaches_add (size : ℕ) (positive : 0 < size) (call : AddFile F)
    (hcheck : checkCall call = .ok ()) (hblocks : blocks size call.content = [call.content])
    (text : String) (hpass : passphrase env = some text) (htext : text ≠ "") (s : Host)
    (habsent : s.files (manifestPath crypto.sha root call.modelId) = none) :
    ∃ rest, Reaches (handle env) 1 (program crypto root (.add size positive call)) s rest
        (after s 1) ∧
      ∀ s₁ vaultId salt shardSize, NoTemporary s₁ →
        s₁.files (configPath root) = some (configText vaultId salt shardSize) →
        s₁.files (shardPath root (sealedAt crypto env s₁.tick call).2.ciphertextHash) = none →
        ∃ wrapped s₂, Reaches (handle env) 25 rest s₁
            (.done (.ok (.manifest (manifestAt crypto env s₁.tick call)))) s₂ ∧
          s₂.tick = s₁.tick + 25 ∧ s₂.files = Function.update (Function.update (Function.update
            s₁.files (shardPath root (sealedAt crypto env s₁.tick call).2.ciphertextHash)
              (some (sealedAt crypto env s₁.tick call).1))
            (keyPath root (manifestAt crypto env s₁.tick call).keyId) (some wrapped))
            (manifestPath crypto.sha root call.modelId)
              (some (encode (manifestAt crypto env s₁.tick call).toJson)) := by
  obtain ⟨rest, hfirst, hrest⟩ := reaches_addFile crypto env hfault size positive call hcheck
    hblocks text hpass htext s habsent
  refine ⟨_, hfirst.bind _, fun s₁ vaultId salt shardSize hclean hconfig hshard => ?_⟩
  obtain ⟨wrapped, s₂, hadded, hended⟩ := hrest s₁ vaultId salt shardSize hclean hconfig hshard
  exact ⟨wrapped, s₂, Reaches.trans (m := 0) (hadded.bind _) ⟨rfl, rfl⟩, hended⟩

variable (env) in
/-- A constructor that finds a configuration. -/
theorem reaches_construct_found (shardSize : ℕ) (hsize : 0 < shardSize) (s : Host)
    (vaultId : String) (salt : Bytes) (size : ℕ) (hsalt : salt.length = 16)
    (hconfig : s.files (configPath root) = some (configText vaultId salt size)) :
    Reaches (handle env) 2 (program crypto root (.construct shardSize)) s
      (.done (.ok (.store ⟨root, shardSize, hsize⟩))) (after s 2) := by
  have hopen : openStore (F := F) root shardSize = (do
      ensureConfig root shardSize
      return ⟨root, shardSize, hsize⟩) := dif_neg (by omega)
  have hcheck := reaches_pathExists hfault (configPath root) s
  rw [hconfig] at hcheck
  have hvalid : (loadConfig (F := F) (configText vaultId salt size) >>= checkConfig) = .ok () := by
    rw [configText, loadConfig_configJson, ok_bind,
      checkConfig_configMembers vaultId salt size hsalt]
  have hread : Reaches (handle env) 1 (do
      let content ← readBytes (configPath root)
      fromExcept (loadConfig (F := F) content >>= checkConfig) : Act F PyError Unit) (after s 1)
        (.done (.ok ())) (after s 2) := by
    apply reaches_then _ _ _ (reaches_readBytes hfault (configPath root) _ (after s 1) hconfig)
    exact ⟨congrArg Prog.done hvalid.symm, rfl⟩
  rw [program, hopen]
  have hensure : Reaches (handle env) 2 (ensureConfig root shardSize : Act F PyError Unit) s
      (.done (.ok ())) (after s 2) := reaches_then _ _ _ hcheck hread
  exact Reaches.trans (m := 0) ((hensure.bind _).bind _) ⟨rfl, rfl⟩

end Faultless

/-- A process that constructs a store and adds one file to it. -/
def constructThenAdd (root : Path) (shardSize : ℤ) (call : AddFile F) : Caller F root where
  choose earlier :=
    match earlier with
    | [] => some (.construct shardSize)
    | [f] =>
        match f.result with
        | .ok (.store store) =>
            if store.root = root then some (.add store.shardSize store.positive call) else none
        | _ => none
    | _ => none
  constructed := by
    intro earlier size positive call' h
    split at h
    · simp at h
    · rename_i f
      split at h
      · rename_i store hstore
        split at h
        · rename_i hroot
          obtain ⟨rfl, -⟩ : store.shardSize = size ∧ call = call' := by simpa using h
          exact ⟨f, List.mem_singleton_self f, by rw [hstore, ← hroot]⟩
        · simp at h
      · simp at h
    · simp at h

/-- Two processes with names of their own and one passphrase. -/
def sampleEnvs (second : Bool) : Env WholeFloat where
  fault := fun _ => false
  written := fun _ => 0
  random := fun tick count => octets count (tick + if second then 100 else 0)
  random_length := fun _ count => octets_length count _
  uuid := fun tick => hex (octets 16 (tick + if second then 100 else 0))
  clock := fun tick => ⟨tick⟩
  isoClock := fun _ => "2025-01-01T00:00:00+00:00"
  tempName := fun tick => hex (octets 8 (tick + if second then 100 else 0))
  environ := fun _ => some "correct horse"

def sampleCallers (second : Bool) : Caller WholeFloat ["vault"] :=
  constructThenAdd ["vault"] 4 (sampleFile "m" (if second then [4] else [1, 2, 3]))

theorem distinctNames_sample : DistinctNames sampleEnvs 100 := by
  have hindex : ∀ i j : Bool, ∀ k, k < 100 → ∀ l, l < 100 →
      (k + if i then 100 else 0) = (l + if j then 100 else 0) → i = j ∧ k = l := by
    intro i j k hk l hl h
    cases i <;> cases j <;> simp only [Bool.false_eq_true, if_true, if_false, true_and,
      reduceCtorEq, false_and] at h ⊢ <;> omega
  have hbound : ∀ i : Bool, ∀ k, k < 100 → (k + if i then 100 else 0) < 256 := by
    intro i k hk
    split <;> omega
  constructor
  · intro i j k hk l hl h
    exact (hindex i j k hk l hl
      (octets_inj (by decide) (hbound i k hk) (hbound j l hl) (hex_injective h))).1
  · intro i j k hk l hl h
    exact hindex i j k hk l hl
      (octets_inj (by decide) (hbound i k hk) (hbound j l hl) (hex_injective h))

abbrev SamplePhase (y : Processes Bool WholeFloat) (schedule : List Bool)
    (y' : Processes Bool WholeFloat) : Prop :=
  Phase (fun i => handle (sampleEnvs i)) (program Crypto.sample ["vault"])
    (fun i => (sampleCallers i).choose) y schedule y'

/-- The configuration that a process writes at some tick. -/
def sampleConfig (i : Bool) (tick : ℕ) : Bytes :=
  configText (dashed ((sampleEnvs i).uuid tick)) ((sampleEnvs i).random (tick + 1) 16) 4

def sampleStore : Outcome WholeFloat := .store ⟨["vault"], 4, four_positive⟩

def sampleCall (i : Bool) : AddFile WholeFloat := sampleFile "m" (if i then [4] else [1, 2, 3])

/-- The manifest that a process publishes from some tick on. -/
def sampleManifest (i : Bool) (tick : ℕ) : ModelManifest WholeFloat :=
  manifestAt Crypto.sample (sampleEnvs i) tick (sampleCall i)

def sampleShard (i : Bool) (tick : ℕ) : Path :=
  shardPath ["vault"] (sealedAt Crypto.sample (sampleEnvs i) tick (sampleCall i)).2.ciphertextHash

theorem sampleShard_ne_configPath (i : Bool) (tick : ℕ) :
    sampleShard i tick ≠ configPath ["vault"] := (configPath_ne_shardPath _).symm

/-- The files that a process publishes from some tick on. -/
def sampleTargets (i : Bool) (tick : ℕ) : List Path :=
  [sampleShard i tick, keyPath ["vault"] (sampleManifest i tick).keyId,
    manifestPath Sha256.sample ["vault"] "m"]

theorem configPath_notMem_targets (i : Bool) (tick : ℕ) :
    configPath ["vault"] ∉ sampleTargets i tick := by
  simp only [sampleTargets, List.mem_cons, List.not_mem_nil, or_false, not_or]
  exact ⟨configPath_ne_shardPath _, (keyPath_ne_configPath _).symm,
    configPath_ne_manifestPath Crypto.sample _⟩

theorem isTemporary_targets (i : Bool) (tick : ℕ) (target : Path)
    (h : target ∈ sampleTargets i tick) : isTemporary target = false := by
  simp only [sampleTargets, List.mem_cons, List.not_mem_nil, or_false] at h
  rcases h with rfl | rfl | rfl
  · exact isTemporary_shardPath Crypto.sample _ _
  · exact isTemporary_keyPath _ _
  · exact isTemporary_manifestPath Crypto.sample _ _

/-- The process has constructed its store. -/
def opened (began : Host) : List (Done WholeFloat) := [⟨.construct 4, began, .ok sampleStore⟩]

/-- The process is about to return from the construction of its store. -/
def constructing (began : Host) : Process SysOp (Resp WholeFloat) (VaultCall WholeFloat)
    (Except PyError (Outcome WholeFloat)) Host :=
  ⟨[], some ⟨.construct 4, began, .done (.ok sampleStore)⟩⟩

/-- The process is about to return from `add_file`. -/
def adding (i : Bool) (opening began : Host) (tick : ℕ) : Process SysOp (Resp WholeFloat)
    (VaultCall WholeFloat) (Except PyError (Outcome WholeFloat)) Host :=
  ⟨opened opening, some ⟨.add 4 four_positive (sampleCall i), began,
    .done (.ok (.manifest (sampleManifest i tick)))⟩⟩

/-- What the process has returned. -/
def added (i : Bool) (opening began : Host) (tick : ℕ) : List (Done WholeFloat) :=
  opened opening ++ [⟨.add 4 four_positive (sampleCall i), began,
    .ok (.manifest (sampleManifest i tick))⟩]

theorem phase_construct (i : Bool) (y : Processes Bool WholeFloat)
    (hidle : y.process i = ⟨[], none⟩)
    (habsent : y.shared.files (configPath ["vault"]) = none) :
    ∃ rest, SamplePhase y ([i] ++ List.replicate 1 i)
        (y.become i (after y.shared 1) ⟨[], some ⟨.construct 4, y.shared, rest⟩⟩) ∧
      ∀ y' : Processes Bool WholeFloat,
        y'.process i = ⟨[], some ⟨.construct 4, y.shared, rest⟩⟩ → NoTemporary y'.shared →
        SamplePhase y' (List.replicate 7 i)
          (y'.become i (stored y'.shared 7 (configPath ["vault"])
            (sampleConfig i y'.shared.tick)) (constructing y.shared)) := by
  obtain ⟨rest, hfirst, hrest⟩ := reaches_construct Crypto.sample (sampleEnvs i)
    (fun _ => rfl) 4 (by decide) y.shared habsent
  refine ⟨rest, phase_started y [] _ hidle rfl hfirst, ?_⟩
  intro y' hrunning hclean
  exact phase_reaches y' [] _ _ hrunning (hrest y'.shared hclean)

theorem phase_constructed (i : Bool) (y : Processes Bool WholeFloat) (began : Host)
    (hrunning : y.process i = constructing began) :
    SamplePhase y [i] (y.become i y.shared ⟨opened began, none⟩) :=
  phase_return y [] _ began _ hrunning

theorem phase_found (i j : Bool) (tick : ℕ) (y : Processes Bool WholeFloat)
    (hidle : y.process i = ⟨[], none⟩)
    (hconfig : y.shared.files (configPath ["vault"]) = some (sampleConfig j tick)) :
    SamplePhase y (([i] ++ List.replicate 2 i) ++ (List.replicate 0 i ++ [i]))
      (y.become i (after y.shared 2) ⟨opened y.shared, none⟩) := by
  have hfound := reaches_construct_found Crypto.sample (sampleEnvs i) (fun _ => rfl)
    4 (by decide) y.shared _ _ _ ((sampleEnvs j).random_length _ _) hconfig
  exact phase_call _ y [] (.construct 4) hidle rfl hfound ⟨rfl, rfl⟩

/-- A process looks for the manifest and, whatever happens in between, publishes its own. -/
theorem phase_add (i : Bool) (y : Processes Bool WholeFloat) (began : Host)
    (hidle : y.process i = ⟨opened began, none⟩)
    (habsent : y.shared.files (manifestPath Sha256.sample ["vault"] "m") = none) :
    ∃ rest, SamplePhase y ([i] ++ List.replicate 1 i)
        (y.become i (after y.shared 1)
          ⟨opened began, some ⟨.add 4 (by decide) (sampleCall i), y.shared, rest⟩⟩) ∧
      ∀ (y' : Processes Bool WholeFloat) (j : Bool) (tick tick' : ℕ), y'.shared.tick = tick' →
        y'.process i =
          ⟨opened began, some ⟨.add 4 (by decide) (sampleCall i), y.shared, rest⟩⟩ →
        NoTemporary y'.shared →
        y'.shared.files (configPath ["vault"]) = some (sampleConfig j tick) →
        y'.shared.files (sampleShard i tick') = none →
        ∃ s', SamplePhase y' (List.replicate 25 i)
            (y'.become i s' (adding i began y.shared tick')) ∧
          s'.tick = tick' + 25 ∧
          s'.files (manifestPath Sha256.sample ["vault"] "m") =
            some (encode (sampleManifest i tick').toJson) ∧
          ∀ path, path ∉ sampleTargets i tick' → s'.files path = y'.shared.files path := by
  have hmodel : (sampleCall i).modelId = "m" := rfl
  have hadd := reaches_add Crypto.sample (sampleEnvs i) (fun _ => rfl) 4 (by decide)
    (sampleCall i) (by cases i <;> decide) (by cases i <;> decide) "correct horse" rfl (by decide)
    y.shared (by rw [hmodel]; exact habsent)
  obtain ⟨rest, hfirst, hrest⟩ := hadd
  refine ⟨rest, phase_started y _ _ hidle (by cases i <;> rfl) hfirst, ?_⟩
  rintro y' j tick tick' rfl hrunning hclean hconfig hshard
  obtain ⟨wrapped, s', hreach, htick, hfiles⟩ := hrest y'.shared _ _ 4 hclean hconfig hshard
  refine ⟨s', phase_reaches y' _ _ _ hrunning hreach, htick, ?_, ?_⟩
  · rw [hfiles]
    exact Function.update_self _ _ _
  intro path hpath
  simp only [sampleTargets, List.mem_cons, List.not_mem_nil, or_false, not_or] at hpath
  rw [hfiles]
  exact (Function.update_of_ne hpath.2.2 _ _).trans
    ((Function.update_of_ne hpath.2.1 _ _).trans (Function.update_of_ne hpath.1 _ _))

theorem phase_added (i : Bool) (y : Processes Bool WholeFloat) (opening began : Host) (tick : ℕ)
    (hrunning : y.process i = adding i opening began tick) :
    SamplePhase y [i] (y.become i y.shared ⟨added i opening began tick, none⟩) :=
  phase_return y _ _ _ _ hrunning

/-- A process that has published its manifest returns. -/
theorem phase_add_ended (i : Bool) {y : Processes Bool WholeFloat} {opening began s : Host}
    {tick : ℕ}
    (h : SamplePhase y (List.replicate 25 i) (y.become i s (adding i opening began tick))) :
    SamplePhase y (List.replicate 25 i ++ [i])
      (y.become i s ⟨added i opening began tick, none⟩) := by
  have hreturn := phase_added i (y.become i s (adding i opening began tick)) opening began tick
    (become_process_self _ _ _ _)
  rw [become_become] at hreturn
  exact h.append hreturn

/-- A process looks for the manifest and finds one. -/
theorem phase_add_found (i : Bool) (y : Processes Bool WholeFloat) (opening began : Host)
    (hrunning : y.process i = ⟨opened opening, some ⟨.add 4 four_positive (sampleCall i), began,
      program Crypto.sample ["vault"] (.add 4 four_positive (sampleCall i))⟩⟩)
    (hthere : (y.shared.files (manifestPath Sha256.sample ["vault"] "m")).isSome = true) :
    SamplePhase y [i] (y.become i (after y.shared 1) ⟨opened opening,
      some ⟨.add 4 four_positive (sampleCall i), began,
        .done (.error (.fileExists "model already exists: m"))⟩⟩) := by
  have hfault : ∀ tick, (sampleEnvs i).fault tick = false := fun _ => rfl
  have hlook := reaches_pathExists hfault (manifestPath Sha256.sample ["vault"] "m") y.shared
  rw [hthere] at hlook
  have hcheck : checkCall (sampleCall i) = .ok () := by cases i <;> decide
  have hfound : Reaches (handle (sampleEnvs i)) 1 (program Crypto.sample ["vault"]
      (.add 4 four_positive (sampleCall i))) y.shared
        (.done (.error (.fileExists "model already exists: m"))) (after y.shared 1) := by
    rw [program, addFile, hcheck]
    exact (hlook.bind _).bind _
  change SamplePhase y (List.replicate 1 i) _
  exact phase_reaches y _ _ _ hrunning hfound

/-- The vault after the first process has written its configuration. -/
def sampleHost : Host :=
  stored (after Host.empty 1) 7 (configPath ["vault"]) (sampleConfig false 1)

theorem sampleHost_config :
    sampleHost.files (configPath ["vault"]) = some (sampleConfig false 1) :=
  stored_self _ 7 _ _

theorem noTemporary_sample : NoTemporary sampleHost :=
  noTemporary_stored (fun _ _ => rfl) 7 _ _ (isTemporary_configPath _)

theorem sampleHost_of_ne (path : Path) (h : path ≠ configPath ["vault"]) :
    sampleHost.files path = none := by
  rw [sampleHost, stored_files, Function.update_of_ne h]
  rfl

/-- The first process has written the configuration, but its constructor has not returned. -/
def oneWritten : Processes Bool WholeFloat :=
  (System.start Host.empty).become false sampleHost (constructing Host.empty)

/-- The second process has constructed its store while the first one has not returned. -/
def oneOpened : Processes Bool WholeFloat :=
  oneWritten.become true (after sampleHost 2) ⟨opened sampleHost, none⟩

/-- Both processes have constructed their stores. -/
def bothOpened : Processes Bool WholeFloat :=
  oneOpened.become false (after sampleHost 2) ⟨opened Host.empty, none⟩

theorem phase_written :
    SamplePhase (System.start Host.empty) (List.replicate 9 false) oneWritten := by
  obtain ⟨rest, hcheck, hwrite⟩ := phase_construct false (System.start Host.empty) rfl rfl
  have hwritten := hwrite ((System.start Host.empty).become false (after Host.empty 1)
    ⟨[], some ⟨.construct 4, Host.empty, rest⟩⟩) (become_process_self _ _ _ _) (fun _ _ => rfl)
  rw [become_become] at hwritten
  exact hcheck.append hwritten

theorem phase_opened : SamplePhase oneWritten (List.replicate 4 true) oneOpened :=
  phase_found true false 1 oneWritten (become_process_of_ne _ (by decide) _ _) sampleHost_config

/-- Two constructors at the same time, of which the second one returns first. -/
def openingSchedule : List Bool := List.replicate 9 false ++ List.replicate 4 true

theorem phase_openings : SamplePhase (System.start Host.empty) openingSchedule oneOpened :=
  phase_written.append phase_opened

theorem phase_both : SamplePhase oneOpened [false] bothOpened :=
  phase_constructed false oneOpened Host.empty
    ((become_process_of_ne _ (by decide) _ _).trans (become_process_self _ _ _ _))

end Decillion.VaultExecutions
