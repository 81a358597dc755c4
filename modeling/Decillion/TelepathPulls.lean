import Decillion.ShardCaches
import Decillion.TelepathNodes

/-!
How a node asks another one. Every request goes out on a connection of its own, and its
answer is checked for its signature, its sender and the nonce of the request. A model is
pulled shard by shard into a temporary file that takes its place when its hash is right.
The network is arbitrary, and so is what the client's disk does: a write that fails may leave
a part of the file.
-/
namespace Decillion.TelepathPulls

open ByteText Base64Text JsonValues JsonText Primitives Dictionaries PyErrors PyValues
open HostSystem AccessRequests ShardVault ManifestPaths PathJoins ShardCaches RaisingPrograms
open TelepathMessages TelepathFrames TelepathNodes

/-- Octets go out on a new connection; others come back until its end, or an exception is raised. -/
abbrev Network (σ : Type) := Bytes → σ → Except PyError Bytes × σ

/-- A client with its cache of shards and its files, and the state of the network. -/
structure World (σ F : Type) where
  client : NodeState F
  cache : ShardCache (String × String × ℤ)
  files : Files
  network : σ
  writes : ℕ

/-- What the system of the client answers: to a new directory, to every write (how much is left
of the file if it fails), and for the text of a path. -/
structure Machine where
  mkdir : Path → Except PyError Unit
  spoiled : ℕ → Option ℕ
  spell : Path → String

abbrev Pulling (σ F : Type) := Raising PyError (World σ F)

variable {σ F α : Type}

def onClient (x : Serving F α) : Pulling σ F α := fun w =>
  ((x w.client).1, { w with client := (x w.client).2 })

theorem onClient_ok {x : Serving F α} {a : α} {w w' : World σ F} (h : onClient x w = (.ok a, w')) :
    x w.client = (.ok a, w'.client) := by
  obtain ⟨hresult, hstate⟩ := Prod.mk.inj h
  rw [← hstate]
  exact Prod.ext hresult rfl

def exchange (network : Network σ) (frame : Bytes) : Pulling σ F Bytes := fun w =>
  ((network frame w.network).1, { w with network := (network frame w.network).2 })

def cacheGet (key : String × String × ℤ) : Pulling σ F (Option Bytes) :=
  change (fun w => ((w.cache.get key).1, { w with cache := (w.cache.get key).2 }))

def cachePut (key : String × String × ℤ) (data : Bytes) : Pulling σ F Unit := do
  let w ← get
  let cache ← w.cache.put key data
  change (fun w => ((), { w with cache := cache }))

def setFile (path : Path) (content : Option Bytes) : Pulling σ F Unit :=
  change (fun w => ((), { w with files := Function.update w.files path content }))

section Files

variable (machine : Machine)

/-- An operation on a file that ends with the first content, or fails with the second one. -/
def attempt (path : Path) (whole : Option Bytes) (part : ℕ → Option Bytes) : Pulling σ F Unit := do
  let w ← get
  change (fun w => ((), { w with writes := w.writes + 1 }))
  match machine.spoiled w.writes with
  | none => setFile path whole
  | some count => do
      setFile path (part count)
      throw .osError

/-- `open("wb")`; what it fails to open stays as it is. -/
def openFile (path : Path) : Pulling σ F Unit := do
  let w ← get
  attempt machine path (some []) (fun _ => w.files path)

def writeFile (path : Path) (content : Bytes) : Pulling σ F Unit :=
  attempt machine path (some content) (fun count => some (content.take count))

/-- The end of a `with`: the last octets reach the disk. -/
def closeFile (path : Path) : Pulling σ F Unit := do
  let w ← get
  attempt machine path (w.files path) (fun count => (w.files path).map (List.take count))

/-- A body and the end of its `with`, whose exception replaces the one of the body. -/
def closing (path : Path) (body : Pulling σ F α) : Pulling σ F α := fun w =>
  match closeFile machine path (body w).2 with
  | (.ok (), w') => ((body w).1, w')
  | (.error e, w') => (.error e, w')

/-- `with path.open("wb"): body` -/
def withFile (path : Path) (body : Pulling σ F α) : Pulling σ F α := do
  openFile machine path
  closing machine path body

end Files

/-- `source.replace(target)` -/
def moveFile (source target : Path) : Pulling σ F Unit := do
  let w ← get
  match w.files source with
  | none => throw .fileNotFound
  | some content => do
      setFile source none
      setFile target (some content)

/-- `try: body finally: path.unlink(missing_ok=True)` -/
def finallyRemove (path : Path) (body : Pulling σ F α) : Pulling σ F α := fun w =>
  ((body w).1, { (body w).2 with files := Function.update (body w).2.files path none })

/-- `payload[key]` -/
def item (payload : Json F) (key : String) : Except PyError (Json F) :=
  match payload with
  | .obj members => (members.lookup key).elim (.error .keyError) .ok
  | _ => .error .typeError

/-- `base64.b64decode(value, validate=True)` -/
def decodePayload : Json F → Except PyError Bytes
  | .str text => (b64decode text).elim (.error (.valueError "")) .ok
  | _ => .error .typeError

/-- `model_id.replace("/", "__")` -/
def flatName (modelId : String) : String :=
  String.ofList ((chars modelId).flatMap (fun c => if c = '/' then ['_', '_'] else [c]))

section Requests

variable [FloatText F] [FloatTime F] [FloatNumber F] [FloatConversion F] (node : Node F)
  (network : Network σ)

/-- `_request` once the octets of the response have come. -/
def checkResponse (message : Message F) (expectedSender : Option String) (stream : Bytes) :
    Serving F (RawMessage F) := do
  let value ← recvFrame stream
  let response ← fromDict node.repr value
  let now ← node.readClock
  match ← verifyRaw node.ed now response with
  | (false, reason) => throw (.runtimeError ("invalid peer response: " ++ reason))
  | (true, _) =>
      if expectedSender.any (fun sender => !equalsStr response.sender sender) then
        throw (.runtimeError "response was signed by an unexpected peer")
      else do
        let nonce ← member response.payload "request_nonce" .null
        if equalsStr nonce message.nonce = false then
          throw (.runtimeError "response is not bound to this request")
        else return response

variable {node} in
/-- A response that is taken is signed by the sender that is expected, and names the request. -/
theorem checkResponse_ok {message : Message F} {expectedSender : Option String} {stream : Bytes}
    {response : RawMessage F} {s s' : NodeState F}
    (h : checkResponse node message expectedSender stream s = (.ok response, s')) :
    ∃ value nonce reason, recvFrame stream = .ok value ∧ fromDict node.repr value = .ok response ∧
      verifyRaw node.ed (node.clock s.tick) response = .ok (true, reason) ∧
      (∀ sender ∈ expectedSender, equalsStr response.sender sender = true) ∧
      member response.payload "request_nonce" .null = .ok nonce ∧
      equalsStr nonce message.nonce = true ∧ s' = s.next := by
  unfold checkResponse at h
  obtain ⟨value, hvalue, h⟩ := returned_bind_lift h
  obtain ⟨answer, hanswer, h⟩ := returned_bind_lift h
  rw [Node.readClock, bind_change] at h
  obtain ⟨⟨ok, reason⟩, hverify, h⟩ := returned_bind_lift h
  cases ok with
  | false => cases h
  | true =>
    dsimp only at h
    split at h
    · cases h
    · rename_i hsender
      obtain ⟨nonce, hnonce, h⟩ := returned_bind_lift h
      split at h
      · cases h
      · rename_i hbound
        obtain ⟨hresponse, hstate⟩ := Prod.mk.inj h
        obtain rfl := Except.ok.inj hresponse
        refine ⟨value, nonce, reason, hvalue, hanswer, hverify, ?_, hnonce,
          Bool.eq_true_of_not_eq_false hbound, hstate.symm⟩
        rintro sender hexpected
        rw [Option.mem_def.mp hexpected] at hsender
        simpa using hsender

/-- `_request` from the connection on -/
def request (message : Message F) (expectedSender : Option String) :
    Pulling σ F (RawMessage F) := do
  let frame ← sendFrame (toDict message)
  let stream ← exchange network frame
  onClient (checkResponse node message expectedSender stream)

/-- `self.peers[peer]` -/
def knownPeer (peer : String) : Pulling σ F Unit := do
  let w ← get
  if (w.client.peers.get? peer).isNone then throw .keyError

/-- A message to a known peer and its answer. -/
def ask (peer kind : String) (payload : Members F) : Pulling σ F (RawMessage F) := do
  knownPeer peer
  let message ← onClient (node.reply kind payload)
  request node network message (some peer)

def openSession (peer modelId : String) (budgetShards ttl : ℤ) : Pulling σ F (Json F) := do
  let response ← ask node network peer "SESSION_OPEN" [("model_id", .str modelId),
    ("purpose", .str "pull"), ("budget_shards", .int budgetShards), ("ttl_s", .int ttl)]
  if equalsStr response.type "SESSION_ACCEPT" = false then do
    let reason ← member response.payload "reason" (.str "session denied")
    throw (.permissionError (textOf node.str reason))
  else return response.payload

/-- What is fetched when the cache does not have it. -/
def fetchRemote (peer modelId : String) (sessionId : Json F) (index : ℤ) :
    Pulling σ F Bytes := do
  let response ← ask node network peer "REQUEST_SHARD" [("session_id", sessionId),
    ("shard_idx", .int index)]
  if equalsStr response.type "SHARD_DATA" = false then do
    let reason ← member response.payload "reason" (.str "shard denied")
    throw (.runtimeError (textOf node.str reason))
  else do
    let payload ← item response.payload "payload_b64"
    let data ← decodePayload payload
    let plaintextHash ← item response.payload "plaintext_hash"
    if equalsStr plaintextHash (node.sha.hexdigest data) = false then
      throw (.runtimeError "transferred shard hash mismatch")
    else do
      cachePut (peer, modelId, index) data
      onClient (node.receipt "telepath.shard_received" modelId peer
        [("shard_idx", .int index), ("bytes", .int data.length)])
      return data

/-- A session that the client has has been accepted. -/
theorem openSession_ok {peer modelId : String} {budgetShards ttl : ℤ} {w w' : World σ F}
    {initial : Json F}
    (h : openSession node network peer modelId budgetShards ttl w = (.ok initial, w')) :
    ∃ response, ask node network peer "SESSION_OPEN" [("model_id", .str modelId),
        ("purpose", .str "pull"), ("budget_shards", .int budgetShards), ("ttl_s", .int ttl)] w =
          (.ok response, w') ∧
      response.type = .str "SESSION_ACCEPT" ∧ response.payload = initial := by
  obtain ⟨response, w₁, hask, h⟩ := returned_bind h
  split at h
  · obtain ⟨reason, -, hthrown⟩ := returned_bind_lift h
    cases (Prod.mk.inj hthrown).1
  · rename_i htype
    obtain ⟨hinitial, rfl⟩ := Prod.mk.inj h
    exact ⟨response, hask, eq_of_equalsStr (Bool.eq_true_of_not_eq_false htype),
      Except.ok.inj hinitial⟩

/-- What is fetched has been sent as a shard. -/
theorem fetchRemote_ok {peer modelId : String} {sessionId : Json F} {index : ℤ} {w w' : World σ F}
    {data : Bytes}
    (h : fetchRemote node network peer modelId sessionId index w = (.ok data, w')) :
    ∃ response w₁, ask node network peer "REQUEST_SHARD" [("session_id", sessionId),
        ("shard_idx", .int index)] w = (.ok response, w₁) ∧
      response.type = .str "SHARD_DATA" := by
  obtain ⟨response, w₁, hask, h⟩ := returned_bind h
  split at h
  · obtain ⟨reason, -, hthrown⟩ := returned_bind_lift h
    cases (Prod.mk.inj hthrown).1
  · rename_i htype
    exact ⟨response, w₁, hask, eq_of_equalsStr (Bool.eq_true_of_not_eq_false htype)⟩

def fetchShard (peer modelId : String) (sessionId : Json F) (index : ℤ) : Pulling σ F Bytes := do
  match ← cacheGet (peer, modelId, index) with
  | some data => return data
  | none => fetchRemote node network peer modelId sessionId index

variable (machine : Machine)

/-- The loop of `pull_model`; what has been written so far stands in the temporary file. -/
def fetchShards (peer modelId : String) (initial : Json F) (temporary : Path) :
    List ℕ → Bytes → Pulling σ F Bytes
  | [], written => return written
  | index :: rest, written => do
      let sessionId ← item initial "session_id"
      let chunk ← fetchShard node network peer modelId sessionId index
      writeFile machine temporary (written ++ chunk)
      fetchShards peer modelId initial temporary rest (written ++ chunk)

/-- The `with` of `pull_model`. -/
def receiveShards (peer modelId : String) (initial : Json F) (temporary : Path) :
    Pulling σ F Bytes :=
  withFile machine temporary (do
    let count ← item initial "n_shards"
    let nShards ← toInt node.repr count
    fetchShards node network machine peer modelId initial temporary
      (List.range nShards.toNat) [])

/-- The body of the `try` in `pull_model`, with the number of octets. -/
def receiveModel (peer modelId : String) (initial : Json F) (temporary target : Path) :
    Pulling σ F ℕ := do
  let content ← receiveShards node network machine peer modelId initial temporary
  let expected ← member initial "file_sha256" .null
  if truthy expected = true ∧ equalsStr expected (node.sha.hexdigest content) = false then
    throw (.runtimeError "reassembled model hash mismatch")
  else do
    moveFile temporary target
    return content.length

def targetDirectory (destination : Path) (modelId : String) : Path :=
  locate destination (flatName modelId)

def targetFile (destination : Path) (modelId : String) : Path :=
  targetDirectory destination modelId ++ ["model.bin"]

def temporaryFile (destination : Path) (modelId : String) : Path :=
  targetDirectory destination modelId ++ ["model.part"]

/-- `{"model_id": model_id, "path": str(target), "bytes": total, **initial}` -/
def pullResult (modelId path : String) (total : ℕ) : Json F → Except PyError (Members F)
  | .obj members =>
      .ok (ofPairs ([("model_id", .str modelId), ("path", .str path), ("bytes", .int total)] ++
        members))
  | _ => .error .typeError

/-- `pull_model` once the session is open. -/
def pullSession (peer modelId : String) (destination : Path) (initial : Json F) :
    Pulling σ F (Members F) := do
  machine.mkdir (targetDirectory destination modelId)
  let total ← finallyRemove (temporaryFile destination modelId)
    (receiveModel node network machine peer modelId initial
      (temporaryFile destination modelId) (targetFile destination modelId))
  onClient (node.receipt "telepath.model_pulled" modelId peer
    [("bytes", .int total), ("path", .str (machine.spell (targetFile destination modelId)))])
  pullResult modelId (machine.spell (targetFile destination modelId)) total initial

def pullModel (peer modelId : String) (destination : Path) : Pulling σ F (Members F) := do
  let initial ← openSession node network peer modelId 1000000 3600
  pullSession node network machine peer modelId destination initial

end Requests

end Decillion.TelepathPulls
