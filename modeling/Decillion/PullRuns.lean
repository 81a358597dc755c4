import Decillion.PulledFiles
import Decillion.ScriptedPeers
import Decillion.ShardCoherence

/-!
How a pull ends. Fetching does not look at the files, so on a disk that does not fail the shards
that are fetched on their own are those that the loop writes, and the pull returns when their
hash is the announced one. Whatever the disk does, a pull that raises leaves the target alone.
-/
namespace Decillion.PullRuns

open ByteText Base64Text JsonValues JsonText JsonStrings JsonRoundTrip Primitives Dictionaries
open PyErrors PyValues HostSystem AccessRequests ShardVault ManifestPaths RaisingPrograms
open ShardCaches ShardCoherence TelepathMessages TelepathFrames TelepathNodes TelepathAnswers
open TelepathPulls TelepathExchanges PulledFiles ScriptedPeers

variable {σ F α : Type} {w v w₁ : World σ F}

theorem eq_withFiles (h : SameFetching w v) : v = withFiles w v.files v.writes := by
  obtain ⟨hclient, hcache, hnetwork⟩ := h
  rw [withFiles, ← hclient, ← hcache, ← hnetwork]

theorem SameFetching.symm (h : SameFetching w v) : SameFetching v w :=
  ⟨h.1.symm, h.2.1.symm, h.2.2.symm⟩

/-- A computation that does not look at the files runs alike on other files. -/
theorem run_of_same {x : Pulling σ F α} {result : Except PyError α} (hx : Oblivious x)
    (hsame : SameFetching w v) (h : x w = (result, w₁)) :
    x v = (result, withFiles w₁ v.files v.writes) := by
  have hother := hx w v.files v.writes
  rw [h, ← eq_withFiles hsame] at hother
  exact hother

section Disk

variable {machine : Machine} (hcalm : ∀ tick, machine.spoiled tick = none) {path : Path}
include hcalm

theorem attempt_run (whole : Option Bytes) (part : ℕ → Option Bytes) (w : World σ F) :
    attempt machine path whole part w = (.ok (), touched w path whole) := by
  rcases attempt_cases machine whole part w with h | ⟨count, h⟩
  · exact h
  · rw [attempt, bind_get, bind_change]
    simp only [hcalm]
    rfl

theorem openFile_run (w : World σ F) :
    openFile machine path w = (.ok (), touched w path (some [])) := by
  rw [openFile, bind_get]
  exact attempt_run hcalm _ _ w

theorem writeFile_run (content : Bytes) (w : World σ F) :
    writeFile machine path content w = (.ok (), touched w path (some content)) :=
  attempt_run hcalm _ _ w

theorem withFile_run {body : Pulling σ F α} {result : Except PyError α}
    (h : body (touched w path (some [])) = (result, w₁)) :
    withFile machine path body w = (result, touched w₁ path (w₁.files path)) := by
  have hclose : closeFile machine path w₁ = (.ok (), touched w₁ path (w₁.files path)) := by
    rw [closeFile, bind_get]
    exact attempt_run hcalm _ _ w₁
  rw [withFile, bind_ok (openFile_run hcalm w), closing, h, hclose]

end Disk

variable [FloatText F] [FloatTime F] [FloatNumber F] [FloatConversion F] {node : Node F}
  {network : Network σ} {machine : Machine} {peer modelId : String} {initial : Json F}

section Calm

variable (hcalm : ∀ tick, machine.spoiled tick = none)
include hcalm

theorem fetchShards_run {temporary : Path} {indices : List ℕ} {chunks : List Bytes}
    (written : Bytes) (h : Fetches node network peer modelId initial indices chunks w w₁)
    (hsame : SameFetching w v) (hwritten : v.files temporary = some written) :
    ∃ v₁, fetchShards node network machine peer modelId initial temporary indices written v =
        (.ok (written ++ chunks.flatten), v₁) ∧ SameFetching w₁ v₁ ∧
      v₁.files = Function.update v.files temporary (some (written ++ chunks.flatten)) := by
  induction indices generalizing chunks written w v with
  | nil =>
    cases chunks with
    | nil =>
      rw [List.flatten_nil, List.append_nil]
      refine ⟨v, rfl, (SameFetching.symm h).trans hsame, ?_⟩
      rw [← hwritten, Function.update_eq_self]
    | cons chunk chunks => exact h.elim
  | cons index rest ih =>
    cases chunks with
    | nil => exact h.elim
    | cons chunk chunks =>
      obtain ⟨sessionId, w₂, w₃, hbefore, hsession, hfetch, hrest⟩ := h
      have hfetch' := run_of_same (oblivious_fetchShard node network peer modelId sessionId index)
        ((SameFetching.symm hbefore).trans hsame) hfetch
      let v₂ := touched (withFiles w₃ v.files v.writes) temporary (some (written ++ chunk))
      have hsame₂ : SameFetching w₃ v₂ := ⟨rfl, rfl, rfl⟩
      obtain ⟨v₁, hrun, hsame₁, hfiles⟩ := ih (written ++ chunk) hrest hsame₂
        (Function.update_self _ _ _)
      rw [List.flatten_cons, ← List.append_assoc]
      refine ⟨v₁, ?_, hsame₁, ?_⟩
      · rw [fetchShards, hsession, bind_lift_ok, bind_ok hfetch',
          bind_ok (writeFile_run hcalm _ _)]
        exact hrun
      · rw [hfiles]
        exact Function.update_idem _ _ _

omit hcalm in
theorem fetchShards_append (temporary : Path) (indices rest : List ℕ) (written : Bytes) :
    (fetchShards node network machine peer modelId initial temporary (indices ++ rest) written :
        Pulling σ F Bytes) =
      fetchShards node network machine peer modelId initial temporary indices written >>=
        fetchShards node network machine peer modelId initial temporary rest := by
  induction indices generalizing written with
  | nil => exact (pure_bind _ _).symm
  | cons index indices ih => simp only [List.cons_append, fetchShards, bind_assoc, ih]

/-- A shard that cannot be fetched ends the loop. -/
theorem fetchShards_broken {temporary : Path} {indices : List ℕ} (rest : List ℕ) {index : ℕ}
    {chunks : List Bytes} {sessionId : Json F} {e : PyError} {w₂ : World σ F} (written : Bytes)
    (h : Fetches node network peer modelId initial indices chunks w w₁)
    (hsession : item initial "session_id" = .ok sessionId)
    (hfetch : fetchShard node network peer modelId sessionId index w₁ = (.error e, w₂))
    (hsame : SameFetching w v) (hwritten : v.files temporary = some written) :
    ∃ v₂, fetchShards node network machine peer modelId initial temporary
      (indices ++ index :: rest) written v = (.error e, v₂) ∧ SameFetching w₂ v₂ := by
  obtain ⟨v₁, hrun, hsame₁, -⟩ := fetchShards_run hcalm written h hsame hwritten
  have hbroken := run_of_same (oblivious_fetchShard node network peer modelId sessionId index)
    hsame₁ hfetch
  refine ⟨withFiles w₂ v₁.files v₁.writes, ?_, ⟨rfl, rfl, rfl⟩⟩
  rw [fetchShards_append, bind_ok hrun, fetchShards, hsession, bind_lift_ok, bind_error hbroken]

/-- The shards that are fetched fill the temporary file. -/
theorem receiveShards_run (temporary : Path) {count : Json F} {nShards : ℤ}
    {chunks : List Bytes} (hcount : item initial "n_shards" = .ok count)
    (hshards : toInt node.repr count = .ok nShards)
    (hfetches : Fetches node network peer modelId initial (List.range nShards.toNat) chunks w w₁) :
    ∃ w', receiveShards node network machine peer modelId initial temporary w =
        (.ok chunks.flatten, w') ∧ SameFetching w₁ w' ∧
      w'.files = Function.update w.files temporary (some chunks.flatten) := by
  obtain ⟨v₁, hrun, hsame, hfiles⟩ := fetchShards_run hcalm [] hfetches
    (sameFetching_touched w temporary (some [])) (Function.update_self _ _ _)
  rw [List.nil_append] at hrun hfiles
  refine ⟨touched v₁ temporary (v₁.files temporary), ?_, hsame, ?_⟩
  · apply withFile_run hcalm
    rw [hcount, bind_lift_ok, hshards, bind_lift_ok]
    exact hrun
  · change Function.update v₁.files temporary (v₁.files temporary) = _
    rw [Function.update_eq_self, hfiles]
    exact Function.update_idem _ _ _

/-- The hash of a file is the announced one, if one has been announced. -/
def Confirmed (node : Node F) (initial : Json F) (content : Bytes) : Prop :=
  ∃ expected, member initial "file_sha256" .null = .ok expected ∧
    (truthy expected = true → equalsStr expected (node.sha.hexdigest content) = true)

theorem receiveModel_run (temporary target : Path) {count : Json F} {nShards : ℤ}
    {chunks : List Bytes} (hcount : item initial "n_shards" = .ok count)
    (hshards : toInt node.repr count = .ok nShards)
    (hfetches : Fetches node network peer modelId initial (List.range nShards.toNat) chunks w w₁)
    (hconfirmed : Confirmed node initial chunks.flatten) :
    ∃ w', receiveModel node network machine peer modelId initial temporary target w =
        (.ok chunks.flatten.length, w') ∧ SameFetching w₁ w' ∧
      w'.files = Function.update (Function.update w.files temporary none) target
        (some chunks.flatten) := by
  obtain ⟨v₂, hreceive, hsame, hcontent⟩ :=
    receiveShards_run hcalm temporary hcount hshards hfetches
  obtain ⟨expected, hexpected, hright⟩ := hconfirmed
  let v₃ := withFiles v₂ (Function.update (Function.update v₂.files temporary none) target
    (some chunks.flatten)) v₂.writes
  have hmove : moveFile temporary target v₂ = (.ok (), v₃) :=
    moveFile_ok target (by rw [hcontent, Function.update_self])
  refine ⟨v₃, ?_, hsame, ?_⟩
  · have hnot : ¬ (truthy expected = true ∧
        equalsStr expected (node.sha.hexdigest chunks.flatten) = false) := by
      rintro ⟨htrue, hwrong⟩
      rw [hright htrue] at hwrong
      cases hwrong
    rw [receiveModel, bind_ok hreceive, hexpected, bind_lift_ok, if_neg hnot, bind_ok hmove]
    rfl
  · change Function.update (Function.update v₂.files temporary none) target _ = _
    rw [hcontent, Function.update_idem]

/-- Shards whose hash is not the announced one are fetched in vain. -/
theorem pullSession_denied (destination : Path) {count expected : Json F} {nShards : ℤ}
    {chunks : List Bytes} {u : Unit}
    (hmkdir : machine.mkdir (targetDirectory destination modelId) = .ok u)
    (hcount : item initial "n_shards" = .ok count)
    (hshards : toInt node.repr count = .ok nShards)
    (hfetches : Fetches node network peer modelId initial (List.range nShards.toNat) chunks w w₁)
    (hexpected : member initial "file_sha256" .null = .ok expected)
    (hwrong : truthy expected = true ∧
      equalsStr expected (node.sha.hexdigest chunks.flatten) = false) :
    ∃ w', pullSession node network machine peer modelId destination initial w =
        (.error (.runtimeError "reassembled model hash mismatch"), w') ∧ SameFetching w₁ w' := by
  obtain ⟨w₂, hreceive, hsame, -⟩ := receiveShards_run hcalm
    (temporaryFile destination modelId) hcount hshards hfetches
  have hmodel : receiveModel node network machine peer modelId initial
      (temporaryFile destination modelId) (targetFile destination modelId) w =
        (.error (.runtimeError "reassembled model hash mismatch"), w₂) := by
    rw [receiveModel, bind_ok hreceive, hexpected, bind_lift_ok, if_pos hwrong]
    rfl
  refine ⟨withFiles w₂ (Function.update w₂.files (temporaryFile destination modelId) none)
    w₂.writes, ?_, hsame⟩
  rw [pullSession, hmkdir, bind_lift_ok, bind_error (finallyRemove_run hmodel)]
  rfl

/-- A pull ends with what the fetch of one of its shards raises. -/
theorem pullSession_broken (destination : Path) {count : Json F} {nShards : ℤ}
    {indices : List ℕ} (rest : List ℕ) {index : ℕ} {chunks : List Bytes} {sessionId : Json F}
    {e : PyError} {w₂ : World σ F} {u : Unit}
    (hmkdir : machine.mkdir (targetDirectory destination modelId) = .ok u)
    (hcount : item initial "n_shards" = .ok count)
    (hshards : toInt node.repr count = .ok nShards)
    (hindices : List.range nShards.toNat = indices ++ index :: rest)
    (h : Fetches node network peer modelId initial indices chunks w w₁)
    (hsession : item initial "session_id" = .ok sessionId)
    (hfetch : fetchShard node network peer modelId sessionId index w₁ = (.error e, w₂)) :
    ∃ w', pullSession node network machine peer modelId destination initial w =
      (.error e, w') ∧ SameFetching w₂ w' := by
  let temporary := temporaryFile destination modelId
  obtain ⟨v₂, hloop, hsame⟩ := fetchShards_broken hcalm rest [] h hsession hfetch
    (sameFetching_touched w temporary (some [])) (Function.update_self _ _ _)
  let v₃ := touched v₂ temporary (v₂.files temporary)
  have hreceive : receiveShards node network machine peer modelId initial temporary w =
      (.error e, v₃) := by
    apply withFile_run hcalm
    rw [hcount, bind_lift_ok, hshards, bind_lift_ok, hindices]
    exact hloop
  have hmodel : receiveModel node network machine peer modelId initial temporary
      (targetFile destination modelId) w = (.error e, v₃) := bind_error hreceive
  refine ⟨withFiles v₃ (Function.update v₃.files temporary none) v₃.writes, ?_, hsame⟩
  rw [pullSession, hmkdir, bind_lift_ok, bind_error (finallyRemove_run hmodel)]
  rfl

omit hcalm in
/-- No receipt of the node fails. -/
def LogWorks (node : Node F) : Prop :=
  ∀ emit, node.receipts = some emit →
    ∀ tick kind modelId actor payload, emit tick kind modelId actor payload = .ok ()

omit hcalm [FloatText F] [FloatNumber F] [FloatConversion F] in
theorem receipt_works (hreceipts : LogWorks node) (kind modelId actor : String)
    (payload : Members F) (w : World σ F) :
    onClient (node.receipt kind modelId actor payload) w = (.ok (), w) := by
  rw [onClient, Node.receipt]
  cases hlog : node.receipts with
  | none => rfl
  | some emit => simp only [hreceipts emit hlog]

/-- The pull of a session whose shards are all fetched and have the announced hash returns. -/
theorem pullSession_run (destination : Path) {members : Members F} {count : Json F} {nShards : ℤ}
    {chunks : List Bytes} {u : Unit}
    (hmkdir : machine.mkdir (targetDirectory destination modelId) = .ok u)
    (hreceipts : LogWorks node)
    (hcount : item (.obj members) "n_shards" = .ok count)
    (hshards : toInt node.repr count = .ok nShards)
    (hfetches : Fetches node network peer modelId (.obj members) (List.range nShards.toNat) chunks
      w w₁)
    (hconfirmed : Confirmed node (.obj members) chunks.flatten) :
    ∃ result w', pullSession node network machine peer modelId destination (.obj members) w =
        (.ok result, w') ∧
      pullResult modelId (machine.spell (targetFile destination modelId)) chunks.flatten.length
        (.obj members) = .ok result ∧ SameFetching w₁ w' ∧
      w'.files = Function.update (Function.update w.files (temporaryFile destination modelId) none)
        (targetFile destination modelId) (some chunks.flatten) := by
  obtain ⟨w₂, hreceive, hsame, hfiles⟩ := receiveModel_run hcalm
    (temporaryFile destination modelId) (targetFile destination modelId)
    hcount hshards hfetches hconfirmed
  let w₃ := withFiles w₂ (Function.update w₂.files (temporaryFile destination modelId) none)
    w₂.writes
  have hreceipt : onClient (node.receipt "telepath.model_pulled" modelId peer
      [("bytes", .int chunks.flatten.length), ("path", .str (machine.spell
        (targetFile destination modelId)))]) w₃ = (.ok (), w₃) := receipt_works hreceipts _ _ _ _ _
  refine ⟨_, w₃, ?_, rfl, hsame, ?_⟩
  · rw [pullSession, hmkdir, bind_lift_ok, bind_ok (finallyRemove_run hreceive)]
    exact bind_ok hreceipt
  · change Function.update w₂.files (temporaryFile destination modelId) none = _
    rw [hfiles, Function.update_comm (target_ne_temporary modelId destination),
      Function.update_idem]

end Calm

section Shards

variable {index : ℤ} {sessionId : Json F} {response : RawMessage F} {shard : Bytes}

/-- A shard in an answer, with its hash. -/
def Holds (node : Node F) (response : RawMessage F) (shard : Bytes) : Prop :=
  equalsStr response.type "SHARD_DATA" = true ∧
    item response.payload "payload_b64" = .ok (.str (b64encode shard)) ∧
    item response.payload "plaintext_hash" = .ok (.str (node.sha.hexdigest shard))

theorem fetchShard_hit (hfound : (w.cache.get (peer, modelId, index)).1 = some shard) :
    fetchShard node network peer modelId sessionId index w =
      (.ok shard, { w with cache := (w.cache.get (peer, modelId, index)).2 }) := by
  rw [fetchShard, cacheGet, bind_change, hfound]
  rfl

/-- A shard that is not in the cache is asked for and stored. -/
theorem fetchShard_miss (hreceipts : LogWorks node)
    {cache : ShardCache (String × String × ℤ)}
    (hnone : (w.cache.get (peer, modelId, index)).1 = none)
    (hask : ask node network peer "REQUEST_SHARD" [("session_id", sessionId),
      ("shard_idx", .int index)] { w with cache := (w.cache.get (peer, modelId, index)).2 } =
        (.ok response, w₁))
    (hholds : Holds node response shard)
    (hput : w₁.cache.put (peer, modelId, index) shard = .ok cache) :
    fetchShard node network peer modelId sessionId index w =
      (.ok shard, { w₁ with cache := cache }) := by
  obtain ⟨htype, hpayload, hhash⟩ := hholds
  have hstore :
      cachePut (peer, modelId, index) shard w₁ = (.ok (), { w₁ with cache := cache }) := by
    rw [cachePut, bind_get, hput, bind_lift_ok]
    rfl
  have hdecoded : decodePayload (.str (b64encode shard) : Json F) = .ok shard := by
    rw [decodePayload, b64decode_b64encode]
    rfl
  have hequal : ¬ equalsStr (.str (node.sha.hexdigest shard) : Json F) (node.sha.hexdigest shard) =
      false := by simp [equalsStr]
  rw [fetchShard, cacheGet, bind_change]
  simp only [hnone]
  rw [fetchRemote, bind_ok hask, if_neg (by simp [htype]), hpayload, bind_lift_ok, hdecoded,
    bind_lift_ok, hhash, bind_lift_ok, if_neg hequal, bind_ok hstore,
    bind_ok (receipt_works hreceipts _ _ _ _ _)]
  rfl

/-- A request that is refused. -/
theorem fetchShard_denied (reason : Json F)
    (hnone : (w.cache.get (peer, modelId, index)).1 = none)
    (hask : ask node network peer "REQUEST_SHARD" [("session_id", sessionId),
      ("shard_idx", .int index)] { w with cache := (w.cache.get (peer, modelId, index)).2 } =
        (.ok response, w₁))
    (htype : equalsStr response.type "SHARD_DATA" = false)
    (hreason : member response.payload "reason" (.str "shard denied") = .ok reason) :
    fetchShard node network peer modelId sessionId index w =
      (.error (.runtimeError (textOf node.str reason)), w₁) := by
  rw [fetchShard, cacheGet, bind_change]
  simp only [hnone]
  rw [fetchRemote, bind_ok hask, if_pos htype, hreason, bind_lift_ok]
  rfl

end Shards

section Samples

theorem sample_logWorks : LogWorks sampleClient := fun _ hlog => by cases hlog

theorem sample_calm : ∀ tick, sampleMachine.spoiled tick = none := fun _ => rfl

theorem sample_items (modelId : String) :
    item (.obj (sessionMembers modelId)) "session_id" = .ok (.str modelId) ∧
      item (.obj (sessionMembers modelId)) "n_shards" = .ok (.int 2) ∧
      member (.obj (sessionMembers modelId)) "file_sha256" .null =
        .ok (.str (Sha256.sample.hexdigest (sampleShards modelId).flatten)) := ⟨rfl, rfl, rfl⟩

/-- The client has the first shards of a model, each of which is one octet. -/
structure Holding (modelId : String) (held : ℕ) (w : World (Script WholeFloat) WholeFloat) :
    Prop where
  knows : Knows w.client
  limits : w.cache.maxEntries = 512 ∧ w.cache.maxBytes = 64 * 1024 ^ 2
  count : w.cache.entries.size ≤ held
  used : w.cache.bytesUsed = held
  missing : ∀ index : ℤ, held ≤ index →
    w.cache.entries.get? (samplePeer.pub, modelId, index) = none

theorem sample_holding (modelId : String) (script : Script WholeFloat) :
    Holding modelId 0 (sampleWorld samplePeer.pub script) :=
  ⟨sample_knows script, ⟨rfl, rfl⟩, le_rfl, rfl, fun _ _ => rfl⟩

variable {w : World (Script WholeFloat) WholeFloat} (rest : Script WholeFloat) {modelId : String}
  {held : ℕ} {shard : Bytes}

/-- The world once a shard has been looked for in vain. -/
def missed (modelId : String) (index : ℕ) (w : World (Script WholeFloat) WholeFloat) :
    World (Script WholeFloat) WholeFloat :=
  { w with cache := (w.cache.get (samplePeer.pub, modelId, (index : ℤ))).2 }

theorem Holding.next (h : Holding modelId held w) (hheld : held < 512) (hone : shard.length = 1) :
    ∃ cache, (missed modelId held w).cache.put (samplePeer.pub, modelId, (held : ℤ)) shard =
        .ok cache ∧
      Holding modelId (held + 1) { asked (missed modelId held w) rest with cache := cache } ∧
      ∀ index : ℤ, cache.entries.get? (samplePeer.pub, modelId, index) =
        if index = held then some shard
        else w.cache.entries.get? (samplePeer.pub, modelId, index) := by
  obtain ⟨hknows, ⟨hentries, hbytes⟩, hcount, hused, hmissing⟩ := h
  let key : String × String × ℤ := (samplePeer.pub, modelId, held)
  let cache := (w.cache.get key).2
  have hlimits : cache.maxEntries = 512 ∧ cache.maxBytes = 64 * 1024 ^ 2 :=
    ⟨get_maxEntries.trans hentries, get_maxBytes.trans hbytes⟩
  obtain ⟨hsize, hbytesUsed⟩ : cache.entries.size ≤ w.cache.entries.size ∧
      cache.bytesUsed = w.cache.bytesUsed := get_size
  have hsame : ∀ other, cache.entries.get? other = w.cache.entries.get? other :=
    fun other => get?_of_get
  have hput : cache.put key shard = _ := put_of_room ((hsame key).trans (hmissing held le_rfl))
    (by omega) (by omega) (by rw [hbytesUsed, hused, hone, hlimits.2]; omega)
  have hfound : ∀ index : ℤ, ((cache.entries.erase key).set key shard).get?
      (samplePeer.pub, modelId, index) = if index = held then some shard
        else w.cache.entries.get? (samplePeer.pub, modelId, index) := by
    intro index
    rw [Dict.get?_set, Dict.get?_erase, hsame]
    by_cases hindex : index = held
    · rw [hindex, if_pos rfl, if_pos rfl]
    · have hother : (samplePeer.pub, modelId, index) ≠ key := by simpa [key] using hindex
      rw [if_neg hother, if_neg hother, if_neg hindex]
  refine ⟨_, hput, ⟨hknows, hlimits, ?_, ?_, ?_⟩, hfound⟩
  · have herase : (cache.entries.erase key).size ≤ cache.entries.size := Dict.size_filter_le _ _
    have hset := Dict.size_set_le (cache.entries.erase key) key shard
    change ((cache.entries.erase key).set key shard).size ≤ _
    omega
  · change cache.bytesUsed + (shard.length : ℤ) = _
    rw [hbytesUsed, hused, hone]
    push_cast
    rfl
  · intro index hindex
    refine (hfound index).trans ?_
    rw [if_neg (by omega), hmissing index (by omega)]

theorem octet_length : ∀ shard ∈ sampleOctets, shard.length = 1 := by decide

/-- A shard that the peer sends is taken and kept. -/
theorem sample_fetched (hmodel : modelId ∈ sampleIds) (h : Holding modelId held w)
    (hheld : held ∈ [0, 1]) (hshard : shard ∈ sampleOctets)
    (hscript : nextAnswer honestRule (made sampleClient "REQUEST_SHARD"
      (shardRequest modelId held) w.client.tick) w.network =
        (("SHARD_DATA", shardPayload shard), rest)) :
    ∃ w', fetchShard sampleClient sampleNetwork samplePeer.pub modelId (.str modelId) held w =
        (.ok shard, w') ∧ Holding modelId (held + 1) w' ∧ w'.network = rest ∧
      w'.files = w.files ∧
      ∀ index : ℤ, w'.cache.entries.get? (samplePeer.pub, modelId, index) =
        if index = held then some shard
        else w.cache.entries.get? (samplePeer.pub, modelId, index) := by
  have hsmall : held < 512 := by
    simp only [List.mem_cons, List.not_mem_nil, or_false] at hheld
    omega
  obtain ⟨cache, hput, hnext, hfound⟩ := h.next rest hsmall (octet_length shard hshard)
  have hnone : (w.cache.get (samplePeer.pub, modelId, (held : ℤ))).1 = none := by
    rw [get_eq]
    exact h.missing held le_rfl
  have hsent := sample_sent (w := missed modelId held w) rest hmodel h.knows hheld
    (distinctKeys_shardPayload shard) (shard_fits shard hshard) hscript
  exact ⟨_, fetchShard_miss sample_logWorks hnone hsent ⟨rfl, rfl, rfl⟩ hput, hnext, rfl, rfl,
    hfound⟩

theorem honest_next (modelId : String) (index tick : ℕ) :
    nextAnswer honestRule (made sampleClient "REQUEST_SHARD" (shardRequest modelId index) tick) [] =
      (("SHARD_DATA", shardPayload ((sampleShards modelId).getD index [])), []) := rfl

theorem sampleShards_eq : ∀ modelId ∈ sampleIds, sampleShards modelId =
    [(sampleShards modelId).getD 0 [], (sampleShards modelId).getD 1 []] ∧
      ∀ index ∈ [0, 1], (sampleShards modelId).getD index [] ∈ sampleOctets := by decide

/-- Both shards of a model are fetched. -/
theorem sample_fetches (hmodel : modelId ∈ sampleIds) (h : Holding modelId 0 w)
    (hscript : w.network = []) :
    ∃ w', Fetches sampleClient sampleNetwork samplePeer.pub modelId
      (.obj (sessionMembers modelId)) (List.range (2 : ℤ).toNat) (sampleShards modelId) w w' := by
  obtain ⟨hshards, hoctets⟩ := sampleShards_eq modelId hmodel
  have hzero : 0 ∈ [0, 1] := by decide
  have hone : 0 + 1 ∈ [0, 1] := by decide
  obtain ⟨w₁, hfirst, hholding, hnetwork, -⟩ := sample_fetched [] hmodel h hzero
    (hoctets 0 hzero) (by rw [hscript]; exact honest_next _ _ _)
  obtain ⟨w₂, hsecond, -⟩ := sample_fetched [] hmodel hholding hone (hoctets 1 hone)
    (by rw [hnetwork]; exact honest_next _ _ _)
  rw [hshards]
  exact ⟨w₂, .str modelId, w, w₁, SameFetching.refl w, (sample_items modelId).1, hfirst,
    .str modelId, w₁, w₂, SameFetching.refl w₁, (sample_items modelId).1, hsecond,
    SameFetching.refl w₂⟩

theorem sample_confirmed (modelId : String) :
    Confirmed sampleClient (.obj (sessionMembers modelId)) (sampleShards modelId).flatten :=
  ⟨_, (sample_items modelId).2.2, fun _ => by
    rw [equalsStr]
    exact decide_eq_true rfl⟩

/-- A pull from the peer returns. -/
theorem sample_returned (hmodel : modelId ∈ sampleIds) (h : Holding modelId 0 w)
    (hscript : w.network = []) :
    openSession sampleClient sampleNetwork samplePeer.pub modelId 1000000 3600 w =
      (.ok (.obj (sessionMembers modelId)), asked w []) ∧
    ∃ result w', pullModel sampleClient sampleNetwork sampleMachine samplePeer.pub modelId ["d"] w =
        (.ok result, w') ∧
      w'.files = Function.update (Function.update w.files (temporaryFile ["d"] modelId) none)
        (targetFile ["d"] modelId) (some (sampleShards modelId).flatten) := by
  have hopen := sample_accepted [] hmodel h.knows (by rw [hscript]; rfl)
  have hholding : Holding modelId 0 (asked w []) := ⟨h.knows, h.limits, h.count, h.used, h.missing⟩
  obtain ⟨w₂, hfetches⟩ := sample_fetches hmodel hholding rfl
  obtain ⟨result, w', hrun, -, -, hfiles⟩ := pullSession_run sample_calm ["d"] rfl sample_logWorks
    (sample_items modelId).2.1 rfl hfetches (sample_confirmed modelId)
  exact ⟨hopen, result, w', (bind_ok hopen).trans hrun, hfiles⟩

def busy : Members WholeFloat := [("reason", .str "busy")]

/-- The peer sends the first shard of the model and refuses the second one. -/
def brokenScript : Script WholeFloat :=
  [("SESSION_ACCEPT", sessionPayload "m"), ("SHARD_DATA", shardPayload [1]),
    ("SHARD_DENY", busy)]

theorem busy_fits : Fits samplePeer (hex (octets 16 0)) "SHARD_DENY" busy 0 := by
  rw [fits_shallow rfl, signedLength]
  decide +kernel

/-- A pull that fails after its first shard, which stays in the cache. -/
theorem sample_broken (h : Holding "m" 0 w) (hscript : w.network = brokenScript) :
    ∃ e w', pullModel sampleClient sampleNetwork sampleMachine samplePeer.pub "m" ["d"] w =
        (.error e, w') ∧ Knows w'.client ∧ w'.network = [] ∧
      w'.cache.entries.get? (samplePeer.pub, "m", 0) = some [1] ∧
      ∀ index : ℤ, 1 ≤ index → w'.cache.entries.get? (samplePeer.pub, "m", index) = none := by
  have hmodel : "m" ∈ sampleIds := by decide
  obtain ⟨hsession, hcount, -⟩ := sample_items "m"
  have hopen := sample_accepted (brokenScript.drop 1) hmodel h.knows (by rw [hscript]; rfl)
  have hholding : Holding "m" 0 (asked w (brokenScript.drop 1)) :=
    ⟨h.knows, h.limits, h.count, h.used, h.missing⟩
  obtain ⟨w₁, hfirst, hnext, hnetwork, -, hfound⟩ := sample_fetched (brokenScript.drop 2)
    hmodel hholding (by decide) (by decide : [1] ∈ sampleOctets) rfl
  have hnone : (w₁.cache.get (samplePeer.pub, "m", ((1 : ℕ) : ℤ))).1 = none := by
    rw [get_eq]
    exact hnext.missing 1 le_rfl
  have hdistinct : DistinctKeys (.obj busy) := ⟨by decide, trivial, trivial⟩
  have hsent := sample_sent (w := missed "m" 1 w₁) [] hmodel hnext.knows
    (by decide : 1 ∈ [0, 1]) hdistinct busy_fits (by rw [missed, hnetwork]; rfl)
  have hdenied := fetchShard_denied (.str "busy") hnone hsent rfl rfl
  have hone : Fetches sampleClient sampleNetwork samplePeer.pub "m" (.obj (sessionMembers "m")) [0]
      [[1]] (asked w (brokenScript.drop 1)) w₁ :=
    ⟨_, _, w₁, SameFetching.refl _, hsession, hfirst, SameFetching.refl _⟩
  obtain ⟨w', hbroken, hclient, hcache, hlast⟩ := pullSession_broken sample_calm ["d"] []
    rfl hcount rfl rfl hone hsession hdenied
  have hkept : ∀ index : ℤ, w'.cache.entries.get? (samplePeer.pub, "m", index) =
      if index = (0 : ℕ) then some [1]
      else (asked w (brokenScript.drop 1)).cache.entries.get? (samplePeer.pub, "m", index) := by
    intro index
    rw [hcache]
    exact get?_of_get.trans (hfound index)
  refine ⟨_, w', (bind_ok hopen).trans hbroken, ?_, hlast, hkept 0, fun index hindex => ?_⟩
  · rw [hclient]
    exact hnext.knows
  · rw [hkept, if_neg (by omega)]
    exact h.missing index (by omega)

end Samples

section Outcomes

variable (node network machine peer modelId) (destination : Path)

/-- A pull of a node without receipts is atomic: when it raises the target is as it was and no
temporary file is left that it has made, and when it returns the target holds the shards in
their order, whose hash is the announced one. -/
theorem pull_atomic (hreceipts : node.receipts = none) (w : World σ F) :
    (∀ e w', pullModel node network machine peer modelId destination w = (.error e, w') →
      w'.files (targetFile destination modelId) = w.files (targetFile destination modelId) ∧
        (w'.files (temporaryFile destination modelId) = none ∨
          w'.files (temporaryFile destination modelId) =
            w.files (temporaryFile destination modelId))) ∧
    ∀ result w', pullModel node network machine peer modelId destination w = (.ok result, w') →
      ∃ initial w₀ count nShards chunks w₁,
        openSession node network peer modelId 1000000 3600 w = (.ok initial, w₀) ∧
        item initial "n_shards" = .ok count ∧ toInt node.repr count = .ok nShards ∧
        Fetches node network peer modelId initial (List.range nShards.toNat) chunks w₀ w₁ ∧
        chunks.length = nShards.toNat ∧
        w'.files (targetFile destination modelId) = some chunks.flatten ∧
        Announced node initial chunks.flatten := by
  constructor
  · intro e w' h
    rcases pull_error node network machine peer modelId destination hreceipts h with
      hsame | ⟨hnone, hother⟩
    · rw [hsame]
      exact ⟨rfl, Or.inr rfl⟩
    · exact ⟨hother _ (target_ne_temporary modelId destination), Or.inl hnone⟩
  · intro result w' h
    obtain ⟨initial, w₀, count, nShards, chunks, w₁, hopen, hcount, hshards, hfetches,
      hannounced, -, -, hfiles⟩ := pull_ok node network machine peer modelId destination h
    have hlength := hfetches.length_eq
    rw [List.length_range] at hlength
    refine ⟨initial, w₀, count, nShards, chunks, w₁, hopen, hcount, hshards, hfetches, hlength,
      ?_, hannounced⟩
    rw [hfiles, Function.update_self]

end Outcomes

/-- A world in which the target of a pull has a content. -/
def earlierWorld : World (Script WholeFloat) WholeFloat :=
  { sampleWorld samplePeer.pub brokenScript with
    files := Function.update (fun _ => none) (targetFile ["d"] "m") (some [7]) }

/-- One pull stores the two shards of the model. Another one fails after the first shard, and what
was there before is still there. -/
theorem pull_atomic_sample :
    (∃ result w', ∃ chunks : List Bytes, pullModel sampleClient sampleNetwork sampleMachine
        samplePeer.pub "m" ["d"] (sampleWorld samplePeer.pub []) = (.ok result, w') ∧
      chunks.length = 2 ∧ w'.files (targetFile ["d"] "m") = some chunks.flatten ∧
      Announced sampleClient (.obj (sessionMembers "m")) chunks.flatten) ∧
    ∃ e w', pullModel sampleClient sampleNetwork sampleMachine samplePeer.pub "m" ["d"]
        earlierWorld = (.error e, w') ∧
      w'.cache.entries.get? (samplePeer.pub, "m", 0) = some [1] ∧
      w'.files (targetFile ["d"] "m") = some [7] ∧
      (w'.files (temporaryFile ["d"] "m") = none ∨
        w'.files (temporaryFile ["d"] "m") = earlierWorld.files (temporaryFile ["d"] "m")) := by
  have hatomic := pull_atomic sampleClient sampleNetwork sampleMachine samplePeer.pub "m" ["d"] rfl
  constructor
  · obtain ⟨hopen, result, w', hpull, -⟩ := sample_returned (by decide : "m" ∈ sampleIds)
      (sample_holding "m" []) rfl
    obtain ⟨initial, w₀, count, nShards, chunks, w₁, hopened, hcount, hshards, -, hlength, hfile,
      hannounced⟩ := (hatomic (sampleWorld samplePeer.pub [])).2 result w' hpull
    rw [hopen] at hopened
    obtain rfl := Except.ok.inj (Prod.mk.inj hopened).1
    obtain rfl := Except.ok.inj ((sample_items "m").2.1.symm.trans hcount)
    obtain rfl : (2 : ℤ) = nShards := Except.ok.inj hshards
    exact ⟨result, w', chunks, hpull, hlength, hfile, hannounced⟩
  · have hstart := sample_holding "m" brokenScript
    have hholding : Holding "m" 0 earlierWorld :=
      ⟨hstart.knows, hstart.limits, hstart.count, hstart.used, hstart.missing⟩
    obtain ⟨e, w', hpull, -, -, hcached, -⟩ := sample_broken hholding rfl
    obtain ⟨htarget, htemporary⟩ := (hatomic earlierWorld).1 e w' hpull
    have hearlier : earlierWorld.files (targetFile ["d"] "m") = some [7] := by
      simp [earlierWorld]
    exact ⟨e, w', hpull, hcached, htarget.trans hearlier, htemporary⟩

end Decillion.PullRuns
