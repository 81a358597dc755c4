import Decillion.MessageSizes
import Decillion.RelayedPulls

/-!
A pull with nobody between the two nodes. What `add_file` has stored is transferred exactly when
the table of nonces takes every request, there are no more shards than a session may have, and
the text of each shard is short enough for a frame. Shards of up to 3,140,000 octets always are.
-/
namespace Decillion.DirectPulls

open ByteText Blocks JsonValues JsonText JsonStrings Primitives Dictionaries PyErrors PyValues
open HostSystem HostRules AccessRequests ShardManifests ShardVault VaultRuns VaultReads
open TelepathMessages TelepathFrames TelepathNodes TelepathAnswers TelepathPulls
open TelepathExchanges TelepathServing PulledFiles PullRuns ScriptedPeers VaultLabels
open SessionAnswers CarriedPulls MessageSizes

variable {F : Type} [FloatText F] [FloatTime F] [FloatNumber F] [FloatConversion F]

/-- What the requests and the answers of a pull need to come through. -/
structure Carried (course : Course F) (modelId : String) (pieces : List Bytes) : Prop where
  taken : ∀ i ≤ pieces.length, course.Takes i
  count : pieces.length ≤ 1000000
  sent : ∀ (i : ℕ) piece, pieces[i]? = some piece →
    478 + (FloatText.text (course.server.stamp (course.serving (i + 1) + 4))).length +
      (dumpString compact modelId).length + (dumpInt i).length + 4 * ((piece.length + 2) / 3) ≤
      MAX_FRAME

/-- The text of every time is short. -/
def Brief (node : Node F) : Prop := ∀ tick, (FloatText.text (node.stamp tick)).length ≤ 32

section Sizes

variable {course : Course F} {vault : Vault} {pieces : List Bytes} {manifest : ModelManifest F}
  {id : Bytes}

theorem length_flatten_le {bound : ℕ} (h : ∀ piece ∈ pieces, piece.length ≤ bound) :
    pieces.flatten.length ≤ pieces.length * bound := by
  induction pieces with
  | nil => simp
  | cons piece rest ih =>
    have hpiece := h piece List.mem_cons_self
    have hrest := ih (fun other hmem => h other (List.mem_cons_of_mem piece hmem))
    rw [List.flatten_cons, List.length_append, List.length_cons, Nat.succ_mul]
    omega

omit [FloatNumber F] [FloatConversion F] in
/-- Every message comes through exactly if the nonces are taken, there are not too many shards and
none of them is too long. -/
theorem completes_iff (hoffered : Offered vault pieces manifest id)
    (hclient : Brief course.client) (hserver : Brief course.server)
    (hid : manifest.modelId.length ≤ 512) (hsize : manifest.sizeBytes = pieces.flatten.length)
    (asked : String) (hasked : asked.length ≤ 512) :
    course.Completes asked vault.crypto.sha pieces manifest ↔
      Carried course manifest.modelId pieces := by
  obtain ⟨top, hroot, htop⟩ := root_published hoffered.published
  have hcount : manifest.nShards = pieces.length := published_nShards vault.crypto vault.root
    vault.passphrase vault.files pieces manifest hoffered.published
  have hname := length_dumpString_le manifest.modelId
  have hopening := length_dumpString_le asked
  constructor
  · intro h
    refine ⟨fun i hi => ?_, ?_, fun i piece hpiece => ?_⟩
    · cases i with
      | zero => exact h.opens.takes
      | succ i =>
        obtain ⟨piece, hpiece⟩ : ∃ piece, pieces[i]? = some piece :=
          ⟨_, List.getElem?_eq_getElem hi⟩
        exact (h.serves i piece hpiece).passes.takes
    · by_contra hmany
      obtain ⟨piece, hpiece⟩ : ∃ piece, pieces[1000000]? = some piece :=
        ⟨_, List.getElem?_eq_getElem (not_le.mp hmany)⟩
      exact absurd (h.serves 1000000 piece hpiece).budget (lt_irrefl _)
    · have hfits := (h.serves i piece hpiece).passes.fits
      rw [fits_shallow rfl, Course.nonce, length_shard _ _ _ (course.client.uuid_length _)] at hfits
      exact hfits
  · intro h
    have hlong : ∀ piece ∈ pieces, piece.length ≤ 4194304 := by
      intro piece hmem
      obtain ⟨i, hpiece⟩ := List.getElem?_of_mem hmem
      have hsent := h.sent i piece hpiece
      rw [MAX_FRAME] at hsent
      omega
    have htotal := length_flatten_le hlong
    have hshards := h.count
    refine ⟨⟨h.taken 0 (Nat.zero_le _), ?_, ?_⟩, fun i piece hpiece => ?_⟩
    · have htext := hclient (course.asking 0)
      rw [Short, length_opening, MAX_FRAME]
      omega
    · have htext := hserver (course.serving 0 + 4)
      have hn : (dumpInt manifest.nShards).length ≤ 7 := by
        rw [hcount]
        exact length_dumpInt_le (by decide) (by omega)
      have hs : (dumpInt manifest.sizeBytes).length ≤ 13 := by
        rw [hsize]
        exact length_dumpInt_le (by decide) (by omega)
      rw [fits_shallow rfl, Course.nonce, Course.sessionId, length_accepted _ _
        (course.client.uuid_length _) _ _ _ (course.server.uuid_length _) hroot htop, MAX_FRAME]
      omega
    · obtain ⟨hlt, -⟩ := List.getElem?_eq_some_iff.mp hpiece
      refine ⟨by omega, h.taken (i + 1) hlt, ?_, ?_⟩
      · have htext := hclient (course.asking (i + 1))
        have hi : (dumpInt (i : ℤ)).length ≤ 7 := length_dumpInt_le (by decide) (by omega)
        rw [Short, Course.sessionId, length_asked _ _ (course.server.uuid_length _), MAX_FRAME]
        omega
      · have hsent := h.sent i piece hpiece
        rw [fits_shallow rfl, Course.nonce, length_shard _ _ _ (course.client.uuid_length _)]
        exact hsent

end Sizes

section Nonces

/-- The table has room for the nonces of a pull, and none of them is in it. -/
structure Fresh (course : Course F) (count : ℕ) : Prop where
  room : course.nonces.seen.size + count < course.nonces.maxEntries
  unknown : ∀ i ≤ count, course.nonces.seen.get? (course.sender, course.nonce i) = none
  distinct : ∀ i ≤ count, ∀ j ≤ count, course.nonce i = course.nonce j → i = j
  modern : ∀ i ≤ count, 0 ≤ course.server.clock (course.serving i + 1)

variable {course : Course F} {count : ℕ}

omit [FloatText F] [FloatNumber F] [FloatConversion F] in
/-- The table while a pull is under way. -/
theorem table_fresh (h : Fresh course count) (i : ℕ) (hi : i ≤ count) :
    (course.table i).seen.size ≤ course.nonces.seen.size + i ∧
      (course.table i).maxEntries = course.nonces.maxEntries ∧
      ∀ j ≤ count, i ≤ j → (course.table i).seen.get? (course.sender, course.nonce j) = none := by
  induction i with
  | zero => exact ⟨le_rfl, rfl, fun j hj _ => h.unknown j hj⟩
  | succ i ih =>
    obtain ⟨hsize, hmax, hnone⟩ := ih (by omega)
    have hroom := h.room
    have haccept := NonceCache.accept_fresh F (by omega) (hnone i (by omega) le_rfl)
      (h.modern i (by omega))
    have htable : course.table (i + 1) = (course.table i).remember F (course.sender, course.nonce i)
        (course.server.clock (course.serving i + 1)) := congrArg Prod.snd haccept
    rw [htable]
    have hgrown := Dict.size_set_le (course.table i).seen (course.sender, course.nonce i)
      (FloatTime.sum F (course.server.clock (course.serving i + 1)) (course.table i).ttl)
    refine ⟨hgrown.trans (by omega), hmax, fun j hj hij => ?_⟩
    have hother : (course.sender, course.nonce j) ≠ (course.sender, course.nonce i) := by
      intro heq
      have hsame := h.distinct j hj i (by omega) (congrArg Prod.snd heq)
      omega
    rw [NonceCache.remember, Dict.get?_set, if_neg hother]
    exact hnone j hj (by omega)

omit [FloatText F] [FloatNumber F] [FloatConversion F] in
theorem takes_of_fresh (h : Fresh course count) (i : ℕ) (hi : i ≤ count) : course.Takes i := by
  obtain ⟨hsize, hmax, hnone⟩ := table_fresh h i hi
  have hroom := h.room
  exact congrArg Prod.fst (NonceCache.accept_fresh F (by omega) (hnone i hi le_rfl) (h.modern i hi))

end Nonces

section Pulls

variable {course : Course F} {vault : Vault} {pieces : List Bytes} {manifest : ModelManifest F}
  {id : Bytes} {peerIp : String} {w : World (NodeState F) F}

/-- Two nodes that fit together, of which the server has a vault and the client asks. -/
structure Paired (course : Course F) (vault : Vault) : Prop where
  holds : course.server.vault = some vault
  readable : vault.Readable
  sender : course.sender = course.client.pub
  ed : course.client.ed = course.server.ed
  sha : course.client.sha = vault.crypto.sha
  serverSha : course.server.sha = vault.crypto.sha
  str : ∀ n, course.server.str (.int n) = toString n
  hour : ∃ ttl, FloatConversion.ofInt (F := F) 3600 = some ttl ∧
    FloatNumber.number ttl = .finite 3600
  logs : LogWorks course.client
  serverLogs : LogWorks course.server
  brief : Brief course.client
  serverBrief : Brief course.server

omit [FloatNumber F] [FloatConversion F] in
theorem courier_direct {client server : Node F} (modelId : String)
    (hed : client.ed = server.ed) :
    Courier client server (fun message => message) client.pub modelId modelId := by
  refine ⟨fun _ _ _ => rfl, fun _ _ _ => rfl, fun _ _ _ => rfl, fun _ => rfl,
    fun _ _ _ => rfl, fun kind payload tick now hwindow => ?_⟩
  rw [← hed]
  exact (verify_made "" hwindow).1

theorem Paired.stocked {holder : Course F} (h : Paired course vault)
    (hserver : holder.server = course.server) (hoffered : Offered vault pieces manifest id) :
    Stocked holder vault pieces manifest id := by
  refine ⟨?_, ?_, hoffered, h.readable, ?_, ?_, h.hour⟩
  all_goals rw [hserver]
  · exact h.holds
  · exact h.serverSha
  · exact h.str
  · exact h.serverLogs

/-- A network that brings the messages of the client as they are connects the two nodes. -/
theorem Paired.connected {σ : Type} {state : σ → NodeState F} {network : Network σ}
    (h : Paired course vault) (hoffered : Offered vault pieces manifest id)
    (hbrings : Brings course.client course.server peerIp (fun message => message) state network) :
    Connected course network state (fun message => message) peerIp manifest.modelId vault pieces
      manifest id where
  brings := hbrings
  courier := by
    rw [h.sender]
    exact courier_direct manifest.modelId h.ed
  stocked := h.stocked rfl hoffered
  ed := h.ed
  sha := h.sha
  logs := h.logs

/-- A pull of a model that the vault offers. -/
theorem pull_offered (h : Paired course vault) (hoffered : Offered vault pieces manifest id)
    {call : AddFile F} (hbuilt : Built vault.crypto call manifest)
    (hbegins : Begins course (fun s => s) call.modelId call.modelId w)
    (htime : course.InTime pieces.length) {machine : Machine}
    (hcalm : ∀ tick, machine.spoiled tick = none) {destination : Path} {u : Unit}
    (hmkdir : machine.mkdir (targetDirectory destination call.modelId) = .ok u) (peerIp : String) :
    ((∃ result w', pullModel course.client (direct course.server peerIp) machine course.server.pub
        call.modelId destination w = (.ok result, w')) ↔ Carried course call.modelId pieces) ∧
      ∀ result w', pullModel course.client (direct course.server peerIp) machine course.server.pub
          call.modelId destination w = (.ok result, w') →
        w'.files (targetFile destination call.modelId) = some pieces.flatten := by
  obtain ⟨hid, hlength⟩ := modelId_built hbuilt
  have hsize := size_published hoffered.published hbuilt
  rw [← hid] at hlength hbegins hmkdir ⊢
  have hcompletes := completes_iff hoffered h.brief h.serverBrief hlength hsize manifest.modelId
    hlength
  rw [← hcompletes]
  have hconnected : Connected course (direct course.server peerIp) (fun s => s)
      (fun message => message) peerIp manifest.modelId vault pieces manifest id :=
    h.connected hoffered brings_direct
  exact pull_carried hconnected hbegins htime hcalm destination hmkdir

section Runs

variable {crypto : Crypto} {root : Path} {env : Env F} {start : Host} {size : ℕ}
  {positive : 0 < size} {call : AddFile F} {budget : ℕ} {machine : Machine}
  {before after : List (VaultCall F × ℕ)} {refuse : Path → Option PyError} {deep : Bytes → Bool}
  (hempty : ∀ path, root <+: path → start.files path = none)
  (hhex : ∀ tick, ∃ id, env.uuid tick = hex id)
  (huuid : Distinct env (runCalls crypto root env start
    (before ++ (.add size positive call, budget) :: after)).tick)
  (hreturned : (runCall crypto root env (.add size positive call, budget)
    (runCalls crypto root env start before)).1 = some (.ok (some manifest)))
  (hpaired : Paired course ⟨crypto, root, passphrase env, (runCalls crypto root env start
    (before ++ (.add size positive call, budget) :: after)).files, refuse, deep⟩)
  (hbegins : Begins course (fun s => s) call.modelId call.modelId w)
  (htime : course.InTime (blocks size call.content).length)
  (hcalm : ∀ tick, machine.spoiled tick = none) (destination : Path) {u : Unit}
  (hmkdir : machine.mkdir (targetDirectory destination call.modelId) = .ok u) (peerIp : String)
include hempty hhex huuid hreturned hpaired hbegins htime hcalm hmkdir

/-- What a call of `add_file` has stored in any run of a vault is pulled exactly if the nonces are
taken, there are not too many shards and none of them is too long; the file is the one that the
call was given. -/
theorem pull_added :
    ((∃ result w', pullModel course.client (direct course.server peerIp) machine course.server.pub
        call.modelId destination w = (.ok result, w')) ↔
      Carried course call.modelId (blocks size call.content)) ∧
      ∀ result w', pullModel course.client (direct course.server peerIp) machine course.server.pub
          call.modelId destination w = (.ok result, w') →
        w'.files (targetFile destination call.modelId) = some call.content := by
  obtain ⟨hbuilt, id, hoffered⟩ := offered_of_added hempty hhex before after huuid hreturned
  have hpull := pull_offered hpaired hoffered hbuilt hbegins htime hcalm hmkdir peerIp
  rwa [flatten_blocks size call.content positive] at hpull

/-- Shards of up to 3,140,000 octets are transferred by a server that has room for the nonces, as
many as a session may have. -/
theorem pull_shipped (hsize : size ≤ 3140000)
    (hcount : (blocks size call.content).length ≤ 1000000)
    (hfresh : Fresh course (blocks size call.content).length) :
    ∃ result w', pullModel course.client (direct course.server peerIp) machine course.server.pub
        call.modelId destination w = (.ok result, w') ∧
      w'.files (targetFile destination call.modelId) = some call.content := by
  obtain ⟨hbuilt, id, hoffered⟩ := offered_of_added hempty hhex before after huuid hreturned
  have hpull := pull_offered hpaired hoffered hbuilt hbegins htime hcalm hmkdir peerIp
  rw [flatten_blocks size call.content positive] at hpull
  have hcarried : Carried course call.modelId (blocks size call.content) := by
    refine ⟨takes_of_fresh hfresh, hcount, fun i piece hpiece => ?_⟩
    obtain ⟨hi, -⟩ := List.getElem?_eq_some_iff.mp hpiece
    have hblock := getElem?_blocks size call.content positive i hi
    rw [hpiece] at hblock
    have hpiece' : piece.length ≤ size := by
      rw [Option.some.inj hblock]
      exact List.length_take_le _ _
    have htext := hpaired.serverBrief (course.serving (i + 1) + 4)
    have hname := length_dumpString_le call.modelId
    have hid := (modelId_built hbuilt).2
    have hindex : (dumpInt (i : ℤ)).length ≤ 7 := length_dumpInt_le (by decide) (by omega)
    rw [MAX_FRAME]
    omega
  obtain ⟨result, w', hrun⟩ := hpull.1.mpr hcarried
  exact ⟨result, w', hrun, hpull.2 result w' hrun⟩

end Runs

end Pulls

section Samples

open JsonStrings (WholeFloat)
open ServedSessions (isAllowed_single)
open TelepathSessions (SessionRegistry)
open RelayedPulls (sampleServer sampleWorld_known)

/-- The vault that the server has, after two calls. -/
def sampleVault : Vault := ⟨Crypto.sample, ["vault"], passphrase sampleEnv,
  (runCalls Crypto.sample ["vault"] sampleEnv Host.empty (sampleBefore ++ [sampleAdd])).files,
  fun _ => none, fun _ => false⟩

/-- The server with a vault. -/
def stockedServer (vault : Vault) : Node WholeFloat := { sampleServer with vault := some vault }

def stockedCourse (vault : Vault) : Course WholeFloat :=
  ⟨sampleNode, stockedServer vault, sampleNode.pub, 0, 0, NonceCache.new⟩

theorem stocked_paired {vault : Vault} (hreadable : vault.Readable)
    (hsha : vault.crypto.sha = Sha256.sample) : Paired (stockedCourse vault) vault where
  holds := rfl
  readable := hreadable
  sender := rfl
  ed := rfl
  sha := hsha.symm
  serverSha := hsha.symm
  str := RawManifests.sampleStr_int
  hour := ⟨⟨3600⟩, rfl, rfl⟩
  logs := fun _ hlog => by cases hlog
  serverLogs := fun _ hlog => by cases hlog
  brief := fun _ => by
    change (FloatText.text (⟨0⟩ : WholeFloat)).length ≤ 32
    decide
  serverBrief := fun _ => by
    change (FloatText.text (⟨0⟩ : WholeFloat)).length ≤ 32
    decide

/-- The client may read the model, and has nothing of it. -/
def filledWorld : World (NodeState WholeFloat) WholeFloat :=
  sampleWorld sampleServer.pub
    ⟨some ⟨Dict.empty.set "m" [sampleNode.pub]⟩, SessionRegistry.new, NonceCache.new, Dict.empty,
      Dict.empty, 0⟩

theorem stocked_begins (vault : Vault) :
    Begins (stockedCourse vault) (fun s => s) "m" "m" filledWorld where
  made := rfl
  known := sampleWorld_known _ _
  cache := PoisonedPulls.undamaged_of_reachable sampleNode (PoisonedPulls.Reachable.start rfl)
  absent := fun _ => rfl
  began := rfl
  nonces := rfl
  allowed := isAllowed_single "m" sampleNode.pub
  sessions := by decide

section Courses

variable {vault : Vault} {sender : String} {made began : ℕ} {nonces : NonceCache}

theorem inTime_sample (count : ℕ) : (⟨sampleNode, stockedServer vault, sender, made, began,
    nonces⟩ : Course WholeFloat).InTime count where
  timely := fun _ _ => ⟨RelayedPulls.sample_inWindow, RelayedPulls.sample_inWindow⟩
  opened := fun _ _ => ⟨show (0 : ℚ) ≤ 0 + 3600 by norm_num, show (0 : ℚ) ≤ 0 + 3600 by norm_num⟩

theorem fresh_sample (hroom : nonces.seen.size + 2 < nonces.maxEntries)
    (hunknown : ∀ nonce, nonces.seen.get? (sender, nonce) = none) :
    Fresh (⟨sampleNode, stockedServer vault, sender, 0, began, nonces⟩ : Course WholeFloat) 2 where
  room := hroom
  unknown := fun _ _ => hunknown _
  distinct := by
    intro i hi j hj h
    have hticks : 0 + 2 * i = 0 + 2 * j :=
      octets_inj (by decide) (by omega) (by omega) (hex_injective h)
    omega
  modern := fun _ _ => le_rfl

end Courses

theorem stocked_inTime (vault : Vault) (count : ℕ) : (stockedCourse vault).InTime count :=
  inTime_sample count

theorem stocked_fresh (vault : Vault) : Fresh (stockedCourse vault) 2 :=
  fresh_sample (by decide) (fun _ => rfl)

/-- The server with the vault that has been filled. -/
def filledServer : Node WholeFloat := stockedServer sampleVault

theorem filled_paired : Paired (stockedCourse sampleVault) sampleVault :=
  stocked_paired ⟨fun _ => rfl, fun _ _ _ => rfl⟩ rfl

theorem filled_carried : Carried (stockedCourse sampleVault) "m" [[1, 2], [3]] where
  taken := takes_of_fresh (stocked_fresh sampleVault)
  count := by decide
  sent := by
    intro i piece hpiece
    rcases i with _ | _ | i
    · obtain rfl := Option.some.inj hpiece
      decide +kernel
    · obtain rfl := Option.some.inj hpiece
      decide +kernel
    · cases hpiece

theorem filled_distinct : Distinct sampleEnv (runCalls Crypto.sample ["vault"] sampleEnv Host.empty
    (sampleBefore ++ [sampleAdd])).tick :=
  distinct_sample _ _ _ _ ((runCalls_tick_le Crypto.sample _ _).trans (by decide))

/-- `pull_added` for the file of a vault with one model. -/
theorem pull_added_sample : ∃ result w', pullModel sampleNode (direct filledServer "ip")
      sampleMachine filledServer.pub "m" ["d"] filledWorld = (.ok result, w') ∧
    w'.files (targetFile ["d"] "m") = some [1, 2, 3] := by
  obtain ⟨manifest, hreturned⟩ := sampleAdd_returned
  have hmkdir : sampleMachine.mkdir (targetDirectory ["d"] "m") = .ok () := rfl
  obtain ⟨hreturns, hfile⟩ := pull_added (fun _ _ => rfl) (fun tick => ⟨octets 16 tick, rfl⟩)
    filled_distinct hreturned filled_paired (stocked_begins _) (stocked_inTime _ _) (fun _ => rfl)
    ["d"] hmkdir "ip"
  obtain ⟨result, w', hpull⟩ := hreturns.mpr filled_carried
  exact ⟨result, w', hpull, hfile result w' hpull⟩

/-- `pull_shipped` for the file of a vault with one model. -/
theorem pull_shipped_sample : ∃ result w', pullModel sampleNode (direct filledServer "ip")
      sampleMachine filledServer.pub "m" ["d"] filledWorld = (.ok result, w') ∧
    w'.files (targetFile ["d"] "m") = some [1, 2, 3] := by
  obtain ⟨manifest, hreturned⟩ := sampleAdd_returned
  have hmkdir : sampleMachine.mkdir (targetDirectory ["d"] "m") = .ok () := rfl
  exact pull_shipped (fun _ _ => rfl) (fun tick => ⟨octets 16 tick, rfl⟩) filled_distinct hreturned
    filled_paired (stocked_begins _) (stocked_inTime _ _) (fun _ => rfl) ["d"] hmkdir "ip"
    (by decide) (by decide) (stocked_fresh _)

end Samples

end Decillion.DirectPulls
