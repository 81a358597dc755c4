import Decillion.DamagedShards
import Decillion.EditedVaults
import Decillion.TelepathExchanges

/-!
How a node with a published model answers the two requests of a pull. The manifest file and
the shard files are read back as they were written, the session is opened for the peer that
asks, and a shard is charged to it.
-/
namespace Decillion.TelepathServing

open ByteText Base64Text JsonValues JsonText Primitives PyErrors PyValues HostSystem AccessRequests
open ShardManifests ShardVault VaultReads RawManifests ManifestPaths DamagedShards RaisingPrograms
open TelepathMessages TelepathSessions TelepathNodes TelepathAnswers TelepathExchanges

variable {F : Type} [FloatText F] [FloatNumber F]

section Published

variable {vault : Vault} {pieces : List Bytes} {manifest : ModelManifest F}

omit [FloatNumber F] in
/-- A manifest that is found has been read from the file of its id. -/
theorem manifestOf_some {now : F} {modelId : String} {found : RawManifest F}
    (h : vault.manifestOf now modelId = .ok (some found)) : ∃ content,
      vault.files (manifestPath vault.crypto.sha vault.root modelId) = some content ∧
      loadManifest now content = .ok found ∧ equalsStr found.modelId modelId = true := by
  rw [Vault.manifestOf] at h
  obtain ⟨file, hlook, h⟩ := bind_eq_ok h
  have hfile : vault.files (manifestPath vault.crypto.sha vault.root modelId) = file := by
    rw [look] at hlook
    split at hlook
    · exact Except.ok.inj hlook
    · cases hlook
  cases file with
  | none => cases h
  | some content =>
    dsimp only at h
    split at h
    · cases h
    · obtain ⟨manifest, hload, h⟩ := bind_eq_ok h
      split at h
      · rename_i hsame
        obtain rfl := Option.some.inj (Except.ok.inj h)
        exact ⟨content, hfile, hload, hsame⟩
      · cases h

omit [FloatNumber F] in
theorem loadManifest_of_load {now : F} {content : Bytes} {read : RawManifest F}
    (h : RawManifest.load now content = some read) : loadManifest now content = .ok read := by
  obtain ⟨value, hvalue, hread⟩ := Option.bind_eq_some_iff.mp h
  rw [loadManifest, hvalue]
  cases value with
  | obj members => simp only [hread]
  | _ => simp [RawManifest.ofDict] at hread

omit [FloatNumber F] in
/-- The manifest of a published model is found under its id. -/
theorem manifestOf_published (now : F) (hreadable : vault.Readable)
    (h : Published F vault.crypto vault.root vault.passphrase vault.files pieces manifest) :
    vault.manifestOf now manifest.modelId = .ok (some (rawManifest manifest.sorted)) := by
  have hload :=
    loadManifest_of_load (load_rawManifest now _ _ (load_toJson now manifest h.metadata))
  have hid : equalsStr (rawManifest manifest.sorted : RawManifest F).modelId manifest.modelId =
      true := decide_eq_true rfl
  rw [Vault.manifestOf, look, hreadable.look]
  simp only [ok_bind, h.file, hreadable.flat _ _ h.file, Bool.false_eq_true, if_false, hload, hid,
    if_true]
  rfl

theorem plain_hexdigest (sha : Sha256) (message : Bytes) : Plain (sha.hexdigest message) := by
  have hdigit : ∀ d, d < 16 → Nat.digitChar d ≠ '/' ∧ Nat.digitChar d ≠ '.' ∧
      Nat.digitChar d ≠ '\x00' := by decide
  have hlength := sha.hexdigest_length message
  rw [← String.length_toList] at hlength
  refine ⟨by omega, ?_⟩
  intro c hc
  rw [Sha256.hexdigest, hex, String.toList_ofList] at hc
  obtain ⟨d, hd, rfl⟩ := mem_hexChars _ c hc
  exact hdigit d hd

omit [FloatNumber F] in
/-- The texts of a published manifest are the names of its files. -/
theorem oneName_published (str : Json F → String) (id : Bytes)
    (hid : manifest.keyId = "k_" ++ hex id)
    (h : Published F vault.crypto vault.root vault.passphrase vault.files pieces manifest) :
    OneName vault.root str (rawManifest manifest.sorted) where
  key := by
    have hplain : ∀ c ∈ manifest.keyId.toList, c ≠ '/' ∧ c ≠ '\x00' := by
      have hdigit : ∀ d, d < 16 → Nat.digitChar d ≠ '/' ∧ Nat.digitChar d ≠ '\x00' := by decide
      intro c hc
      rw [hid, String.toList_append, List.mem_append] at hc
      rcases hc with hc | hc
      · have hstart : "k_".toList.all (fun c => c ≠ '/' ∧ c ≠ '\x00') = true := by decide
        exact of_decide_eq_true (List.all_eq_true.mp hstart c hc)
      · rw [hex, String.toList_ofList] at hc
        obtain ⟨d, hd, rfl⟩ := mem_hexChars _ c hc
        exact hdigit d hd
    exact keyFile_plain manifest.keyId (fun hc => (hplain _ hc).1 rfl)
      (fun hc => (hplain _ hc).2 rfl)
  shards := by
    intro shard hshard ciphertextHash hhash
    obtain ⟨record, hrecord, rfl⟩ := List.mem_map.mp hshard
    obtain rfl := Json.str.inj hhash
    obtain ⟨dataKey, -, -, hstored⟩ := h.shards
    obtain ⟨blob, -, hblob⟩ := stored_file vault.crypto vault.root vault.files dataKey _ 0
      pieces _ hstored record hrecord
    rw [← hblob]
    exact shardFile_plain _ (plain_hexdigest vault.crypto.sha blob)

/-- The shards of a published model are read as they were added. -/
theorem readShard_published {str : Json F → String} (hstr : ∀ n, str (.int n) = toString n)
    (hreadable : vault.Readable) (id : Bytes) (hid : manifest.keyId = "k_" ++ hex id)
    (h : Published F vault.crypto vault.root vault.passphrase vault.files pieces manifest)
    (k : ℕ) (piece : Bytes) (hpiece : pieces[k]? = some piece) :
    vault.readShard str (some (rawManifest manifest.sorted)) k = .ok piece := by
  have hreturns := returns_readShardPlaintext vault.crypto vault.passphrase vault.files
    hreadable.look (oneName_published str id hid h) k []
  rw [rawReadShardPlaintext_rawManifest vault.crypto vault.root vault.passphrase vault.files hstr]
    at hreturns
  exact hreturns.trans (readShardPlaintext_published vault.crypto vault.root vault.passphrase
    vault.files pieces manifest h k piece hpiece)

/-- A shard of a published model that has been read is the one that was added. -/
theorem piece_of_readShard {str : Json F → String} (hstr : ∀ n, str (.int n) = toString n)
    (id : Bytes) (hid : manifest.keyId = "k_" ++ hex id)
    (h : Published F vault.crypto vault.root vault.passphrase vault.files pieces manifest)
    {index : ℤ} {data : Bytes}
    (hread : vault.readShard str (some (rawManifest manifest.sorted)) index = .ok data) :
    ∃ k : ℕ, index = k ∧ pieces[k]? = some data := by
  have hloosened := loosens_readShardPlaintext vault.crypto vault.root vault.passphrase vault.files
    vault.refuse str (rawManifest manifest.sorted) index [] data _ (Prod.ext hread rfl)
  have hreturns := returns_readShardPlaintext vault.crypto vault.passphrase vault.files
    (fun _ => rfl) (oneName_published str id hid h) index []
  rw [hloosened, rawReadShardPlaintext_rawManifest vault.crypto vault.root vault.passphrase
    vault.files hstr] at hreturns
  have hn :=
    published_nShards vault.crypto vault.root vault.passphrase vault.files pieces manifest h
  by_cases hrange : 0 ≤ index ∧ index < manifest.nShards
  · obtain ⟨k, rfl⟩ := Int.eq_ofNat_of_zero_le hrange.1
    have hk : k < pieces.length := by omega
    refine ⟨k, rfl, ?_⟩
    have hpiece := hreturns.trans (readShardPlaintext_published vault.crypto vault.root
      vault.passphrase vault.files pieces manifest h k pieces[k] (List.getElem?_eq_getElem hk))
    rw [Except.ok.inj hpiece, List.getElem?_eq_getElem hk]
  · have hnone := readShardPlaintext_out_of_range vault.crypto vault.root vault.passphrase
      vault.files manifest.sorted index hrange
    rw [hnone] at hreturns
    cases hreturns

end Published

section Intact

/-- Every manifest file is that of a published model, and the models have these shards. -/
def Intact (F : Type) [FloatText F] (vault : Vault) (pieces : String → List Bytes) : Prop :=
  ∀ modelId content,
    vault.files (manifestPath vault.crypto.sha vault.root modelId) = some content →
    ∃ (manifest : ModelManifest F) (id : Bytes),
      manifestPath vault.crypto.sha vault.root manifest.modelId =
        manifestPath vault.crypto.sha vault.root modelId ∧
      manifest.keyId = "k_" ++ hex id ∧
      Published F vault.crypto vault.root vault.passphrase vault.files (pieces manifest.modelId)
        manifest

variable {vault : Vault} {pieces : String → List Bytes}

omit [FloatNumber F] in
/-- What is found at the path of a published model is that model, or nothing. -/
theorem manifestOf_path {now : F} {modelId : String} {found : RawManifest F}
    {shards : List Bytes} {manifest : ModelManifest F}
    (hpublished : Published F vault.crypto vault.root vault.passphrase vault.files shards manifest)
    (hpath : manifestPath vault.crypto.sha vault.root manifest.modelId =
      manifestPath vault.crypto.sha vault.root modelId)
    (hfound : vault.manifestOf now modelId = .ok (some found)) :
    manifest.modelId = modelId ∧ found = rawManifest manifest.sorted := by
  have hload := loadManifest_of_load
    (load_rawManifest now _ _ (load_toJson now manifest hpublished.metadata))
  have hfile := hpublished.file
  obtain ⟨content, hcontent, hread, hsame⟩ := manifestOf_some hfound
  rw [hpath, hcontent, Option.some.injEq] at hfile
  rw [hfile, hload, Except.ok.injEq] at hread
  rw [← hread] at hsame
  exact ⟨of_decide_eq_true hsame, hread.symm⟩

omit [FloatNumber F] in
theorem manifestOf_intact (h : Intact F vault pieces) {now : F} {modelId : String}
    {found : RawManifest F} (hfound : vault.manifestOf now modelId = .ok (some found)) :
    ∃ (manifest : ModelManifest F) (id : Bytes), manifest.modelId = modelId ∧
      found = rawManifest manifest.sorted ∧ manifest.keyId = "k_" ++ hex id ∧
      Published F vault.crypto vault.root vault.passphrase vault.files (pieces modelId)
        manifest := by
  obtain ⟨content, hfile, -⟩ := manifestOf_some hfound
  obtain ⟨manifest, id, hpath, hid, hpublished⟩ := h modelId content hfile
  obtain ⟨hmodel, hraw⟩ := manifestOf_path hpublished hpath hfound
  rw [hmodel] at hpublished
  exact ⟨manifest, id, hmodel, hraw, hid, hpublished⟩

/-- What is read from an intact vault as a shard of a model is that shard. -/
theorem readShard_intact {str : Json F → String} (hstr : ∀ n, str (.int n) = toString n)
    (h : Intact F vault pieces) {now : F} {modelId : String} {found : Option (RawManifest F)}
    {index : ℤ} {data : Bytes} (hfound : vault.manifestOf now modelId = .ok found)
    (hread : vault.readShard str found index = .ok data) :
    ∃ k : ℕ, index = k ∧ (pieces modelId)[k]? = some data := by
  cases found with
  | none =>
    rw [Vault.readShard] at hread
    split at hread <;> cases hread
  | some found =>
    obtain ⟨manifest, id, -, rfl, hid, hpublished⟩ := manifestOf_intact h hfound
    exact piece_of_readShard hstr id hid hpublished hread

omit [FloatNumber F] in
/-- A vault that its store has filled is intact. -/
theorem intact_runCalls {crypto : Crypto} {root : Path} {env : Env F} {start : Host}
    (refuse : Path → Option PyError) (deep : Bytes → Bool)
    (hempty : ∀ path, root <+: path → start.files path = none)
    (calls : List (VaultRuns.VaultCall F × ℕ))
    (huuid : HostRules.Distinct env (VaultRuns.runCalls crypto root env start calls).tick)
    (hhex : ∀ tick, ∃ id, env.uuid tick = hex id) :
    ∃ pieces, Intact F ⟨crypto, root, VaultRuns.passphrase env,
      (VaultRuns.runCalls crypto root env start calls).files, refuse, deep⟩ pieces := by
  obtain ⟨hsound, -⟩ := VaultRuns.sound_runCalls crypto calls start huuid
    (VaultRuns.sound_empty crypto start hempty)
  let published := fun (modelId : String) (pieces : List Bytes) => ∃ manifest : ModelManifest F,
    manifest.modelId = modelId ∧ Published F crypto root (VaultRuns.passphrase env)
      (VaultRuns.runCalls crypto root env start calls).files pieces manifest
  refine ⟨fun modelId => Classical.epsilon (published modelId), ?_⟩
  intro modelId content hfile
  obtain ⟨pieces, written, hpath, hwritten⟩ := hsound.manifests modelId content hfile
  have hspec : published written.modelId (Classical.epsilon (published written.modelId)) :=
    Classical.epsilon_spec ⟨pieces, written, rfl, hwritten⟩
  obtain ⟨manifest, hmodel, hpublished⟩ := hspec
  obtain ⟨id, hid⟩ := hpublished.keyId
  obtain ⟨dataKey, -, ⟨text, config, master, nonce, -, -, -, -, -, hkey⟩, -⟩ := hpublished.shards
  rw [hid] at hkey
  obtain ⟨tick, -, hdrawn⟩ := hsound.keys id _ hkey
  obtain ⟨octets, hhexed⟩ := hhex tick
  refine ⟨manifest, octets, by rw [hmodel, hpath], by rw [hid, hdrawn, hhexed], ?_⟩
  rw [hmodel]
  exact hpublished

end Intact

section Answers

variable [FloatTime F] [FloatConversion F] {node : Node F} {message : Message F}
  {members : Members F} {s : NodeState F} {vault : Vault} {modelId : String}

omit [FloatText F] [FloatNumber F] [FloatConversion F] in
theorem receipt_run {kind actor : String} {payload : Members F}
    (h : ReceiptWritten node s.tick kind modelId actor payload) :
    node.receipt kind modelId actor payload s = (.ok (), s) := by
  rw [Node.receipt]
  cases hreceipts : node.receipts with
  | none => rfl
  | some emit => exact congrArg (fun result => (result, s)) (h emit hreceipts)

/-- The payload with a shard. -/
def shardMembers (node : Node F) (modelId : String) (index : ℤ) (data : Bytes) : Members F :=
  [("model_id", .str modelId), ("shard_idx", .int index),
    ("plaintext_hash", .str (node.sha.hexdigest data)), ("payload_b64", .str (b64encode data))]

/-- The answer to a peer that is given a session. -/
def acceptMembers (sessionId modelId : String) (manifest : RawManifest F) (fileSha256 : Json F) :
    Members F :=
  [("session_id", .str sessionId), ("model_id", .str modelId), ("n_shards", manifest.nShards),
    ("size_bytes", manifest.sizeBytes), ("merkle_root", manifest.merkleRoot),
    ("file_sha256", fileSha256)]

/-- A peer that the list allows is given a session for a model of the vault. -/
theorem openSession_run {manifest : RawManifest F} {metadata : Members F} {budget : ℤ} {ttl : F}
    {seconds : ℚ} {registry : SessionRegistry} (hvault : node.vault = some vault)
    (hpayload : message.payload = .obj members)
    (hasked : textOf node.str (field members "model_id" (.str "")) = modelId)
    (hfound : vault.manifestOf (node.stamp s.tick) modelId = .ok (some manifest))
    (hallowed : s.allows modelId message.sender = true)
    (hbudget : toInt node.repr (field members "budget_shards" manifest.nShards) = .ok budget)
    (httl : toFloat node.repr (field members "ttl_s" (.int 600)) = .ok ttl)
    (hbounds : SessionRegistry.inBounds budget (FloatNumber.number ttl) = some seconds)
    (hroom : (s.sessions.gc F (node.clock s.tick)).makeRoom = .ok registry)
    (hmetadata : manifest.metadata = .obj metadata)
    (hreceipt : ReceiptWritten node (s.tick + 2) "telepath.session_open" modelId message.sender
      [("session_id", .str (hex (node.uuid (s.tick + 1)))), ("budget", .int budget)]) :
    node.openSession message s =
      (.ok
        (made node "SESSION_ACCEPT" (acceptMembers (hex (node.uuid (s.tick + 1))) modelId manifest
        (field metadata "file_sha256" .null)) (s.tick + 2)),
      { s with
        tick := s.tick + 3
        sessions := registry.put (node.opened s message.sender modelId
          (textOf node.str (field members "purpose" (.str "read"))) budget seconds) }) := by
  have hrequest : node.requestSession message modelId manifest.nShards s = _ :=
    Node.requestSession_open hpayload hbudget httl
  rw [Node.openRegistry_ok hbounds hroom] at hrequest
  rw [Node.openSession, member_obj hpayload, bind_lift_ok, hvault]
  simp only [hasked]
  rw [bind_get, hfound, bind_lift_ok]
  dsimp only
  rw [if_neg (by rw [hallowed]; exact Bool.noConfusion), Node.grantSession,
    RaisingPrograms.bind_ok (catchValueError_ok hrequest)]
  dsimp only
  rw [RaisingPrograms.bind_ok (receipt_run hreceipt), member_obj hmetadata, bind_lift_ok]
  rfl

omit [FloatText F] [FloatNumber F] [FloatConversion F] in
/-- A session of the sender's own that is neither expired nor used up is charged. -/
theorem charged_of_found {sender sessionId : String} {current used : Session}
    (hfound : s.sessions.sessions.get? sessionId = some current)
    (hopen : current.expired F (node.clock s.tick) = false) (hown : current.peerPub = sender)
    (hconsume : current.consume F (node.clock (s.tick + 1)) = some used) :
    (node.charged s sender sessionId).1 = some used := by
  have hkept := SessionRegistry.get?_gc_eq_some.mpr ⟨hfound, hopen⟩
  unfold Node.charged
  rw [hkept]
  dsimp only
  rw [if_neg (not_not.mpr hown)]
  exact hconsume

omit [FloatConversion F] in
/-- A request that is charged to a session is answered with the shard. -/
theorem serveShard_run {index : ℤ} {used : Session} {manifest : Option (RawManifest F)}
    {data : Bytes} (hvault : node.vault = some vault) (hpayload : message.payload = .obj members)
    (hindex : toInt node.repr (field members "shard_idx" (.int (-1))) = .ok index)
    (hcharged : (node.charged s message.sender
      (textOf node.str (field members "session_id" (.str "")))).1 = some used)
    (hfound : vault.manifestOf (node.stamp (s.tick + 2)) used.modelId = .ok manifest)
    (hread : vault.readShard node.str manifest index = .ok data)
    (hreceipt : ReceiptWritten node (s.tick + 2) "telepath.shard_served" used.modelId message.sender
      [("shard_idx", .int index), ("bytes", .int data.length),
        ("session_id", .str used.sessionId)]) :
    node.serveShard message s =
      (.ok (made node "SHARD_DATA" (shardMembers node used.modelId index data) (s.tick + 2)),
      (node.chargedState s message.sender
        (textOf node.str (field members "session_id" (.str "")))).next) := by
  obtain ⟨current, -, -, -, hconsume, hticks⟩ := Node.charged_eq_some hcharged
  have htick : (node.chargedState s message.sender
      (textOf node.str (field members "session_id" (.str "")))).tick = s.tick + 2 := hticks
  rw [← htick] at hfound hreceipt ⊢
  rw [Node.serveShard, member_obj hpayload, bind_lift_ok,
    RaisingPrograms.bind_ok (Node.findSession_run _), member_obj hpayload, bind_lift_ok, hindex,
    bind_lift_ok, RaisingPrograms.bind_ok (Node.useSession_run _ _), hcharged]
  dsimp only
  rw [Node.sendShard, hvault]
  dsimp only
  rw [bind_get, hfound, bind_lift_ok, hread, catchRead, bind_lift_ok]
  dsimp only
  rw [RaisingPrograms.bind_ok (receipt_run hreceipt)]
  rfl

end Answers

section Samples

open JsonStrings (WholeFloat)
open EditedVaults (sampleConfig sampleMaster)

def servedKey : Bytes := octets 32 9

def servedKeyId : String := "k_" ++ hex (octets 16 19)

def servedWrapped : Bytes :=
  octets 12 21 ++ AesGcm.sample.encrypt sampleMaster (octets 12 21) servedKey (encode servedKeyId)

def servedSealed : Bytes × Shard :=
  sealShard Crypto.sample servedKey "m" 0 [1, 2, 3] (octets 12 11)

def servedManifest : ModelManifest WholeFloat where
  modelId := "m"
  source := "local"
  license := "mit"
  sizeBytes := 3
  nShards := 1
  merkleRoot := hex (merkleRoot Sha256.sample [shardLeaf servedSealed.2])
  keyId := servedKeyId
  shards := [servedSealed.2]
  createdAt := ⟨0⟩
  metadata := [("file_sha256", .str (Sha256.sample.hexdigest [1, 2, 3]))]
  formatVersion := 1

/-- A vault with one model of one shard. -/
def servedFiles : Files
  | ["vault", "vault.json"] => some sampleConfig
  | ["vault", "keys", _] => some servedWrapped
  | ["vault", "shards", _, _, _] => some servedSealed.1
  | ["vault", "manifests", name] =>
      if name = Sha256.sample.hexdigest (encode "m") ++ ".json" then
        some (encode servedManifest.toJson) else none
  | _ => none

def servedVault : Vault :=
  ⟨Crypto.sample, ["vault"], some "correct horse", servedFiles, fun _ => none,
    fun _ => false⟩

theorem servedVault_readable : servedVault.Readable := ⟨fun _ => rfl, fun _ _ _ => rfl⟩

theorem servedFiles_manifest (modelId : String) :
    servedFiles (manifestPath Sha256.sample ["vault"] modelId) =
      if Sha256.sample.hexdigest (encode modelId) ++ ".json" =
        Sha256.sample.hexdigest (encode "m") ++ ".json" then some (encode servedManifest.toJson)
      else none := rfl

theorem servedVault_published : Published WholeFloat servedVault.crypto servedVault.root
    servedVault.passphrase servedVault.files [[1, 2, 3]] servedManifest where
  file := (servedFiles_manifest "m").trans (if_pos rfl)
  metadata := ⟨List.nodup_singleton _, trivial, trivial⟩
  shards := by
    refine ⟨servedKey, octets_length 32 9, ?_, ?_⟩
    · exact ⟨"correct horse", sampleConfig, sampleMaster, octets 12 21, rfl, rfl,
        EditedVaults.deriveKey_sample, Scrypt.sample.derive_length _ _, octets_length _ _, rfl⟩
    · exact ⟨octets 12 11, [], octets_length _ _, rfl, rfl, rfl⟩
  nShards := rfl
  keyId := ⟨hex (octets 16 19), rfl⟩
  merkle := rfl

theorem servedVault_path {modelId : String} {content : Bytes} (hfile : servedVault.files
      (manifestPath servedVault.crypto.sha servedVault.root modelId) = some content) :
    manifestPath servedVault.crypto.sha servedVault.root servedManifest.modelId =
      manifestPath servedVault.crypto.sha servedVault.root modelId := by
  by_contra hother
  have hname : Sha256.sample.hexdigest (encode modelId) ++ ".json" ≠
      Sha256.sample.hexdigest (encode "m") ++ ".json" := by
    intro hname
    exact hother (congrArg (fun name => ["vault", "manifests", name]) hname.symm)
  have hnone : servedVault.files (manifestPath servedVault.crypto.sha servedVault.root modelId) =
      none := (servedFiles_manifest modelId).trans (if_neg hname)
  rw [hnone] at hfile
  cases hfile

theorem servedVault_intact : Intact WholeFloat servedVault (fun _ => [[1, 2, 3]]) := by
  intro modelId content hfile
  exact ⟨servedManifest, octets 16 19, servedVault_path hfile, rfl, servedVault_published⟩

end Samples

end Decillion.TelepathServing
