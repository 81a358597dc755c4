import Decillion.TelepathExchanges

/-!
A peer that signs its answers and binds them to the requests. It answers with the messages of a
script, and when the script has come to its end by a rule. What a client gets is what the
script or the rule says, as long as every message fits into a frame and the clocks agree.
-/
namespace Decillion.ScriptedPeers

open ByteText Base64Text JsonValues JsonText JsonRoundTrip Primitives PyErrors PyValues
open Dictionaries AccessRequests RaisingPrograms ShardCaches TelepathMessages TelepathFrames
open TelepathSessions TelepathNodes TelepathAnswers TelepathPulls TelepathExchanges JsonStrings

variable {F : Type} [FloatText F] [FloatTime F] [FloatNumber F] [FloatConversion F]

abbrev Script (F : Type) := List (String × Members F)

/-- A message from its frame. -/
def readMessage (node : Node F) (frame : Bytes) : Except PyError (RawMessage F) := do
  let value ← recvFrame frame
  fromDict node.repr value

/-- A message whose header is made of texts, from its frame. -/
def readRequest (node : Node F) (frame : Bytes) : Except PyError (Message F) := do
  let message ← readMessage node frame
  message.text?.elim (.error .typeError) .ok

theorem readMessage_frame {node : Node F} {message : Message F} {frame : Bytes}
    (hkeys : DistinctKeys message.payload) (hsent : sendFrame (toDict message) = .ok frame) :
    readMessage node frame = .ok message.raw := by
  rw [readMessage, recvFrame_sendFrame _ _ (distinctKeys_toDict message hkeys) hsent]
  exact fromDict_toDict node.repr message

theorem readRequest_frame {node : Node F} {message : Message F} {frame : Bytes}
    (hkeys : DistinctKeys message.payload) (hsent : sendFrame (toDict message) = .ok frame) :
    readRequest node frame = .ok message := by
  rw [readRequest, readMessage_frame hkeys hsent]
  rfl

/-- The next message of the script, or the one of the rule. -/
def nextAnswer (rule : Message F → String × Members F) (message : Message F) :
    Script F → (String × Members F) × Script F
  | [] => (rule message, [])
  | line :: rest => (line, rest)

def scripted (peer : Node F) (rule : Message F → String × Members F) : Network (Script F) :=
  fun frame script =>
    match readRequest peer frame with
    | .error e => (.error e, script)
    | .ok message =>
        (.ok (frameOf (answerTo peer message.nonce (nextAnswer rule message script).1.1
          (nextAnswer rule message script).1.2 0)), (nextAnswer rule message script).2)

/-- A client and a peer whose messages the other one accepts at every moment. -/
structure Agreed (client peer : Node F) : Prop where
  ed : client.ed = peer.ed
  sha : client.sha = peer.sha
  time : ∀ tick, outOfWindow F (client.clock tick) maxSkew (.at (peer.clock 0)) = false

def Short (client : Node F) (kind : String) (payload : Members F) (tick : ℕ) : Prop :=
  signedLength kind (client.stamp tick) (.obj payload) ≤ MAX_FRAME

variable {client peer : Node F} {rule : Message F → String × Members F} {kind : String}
  {payload : Members F} {rest : Script F} {w : World (Script F) F}

omit [FloatNumber F] [FloatConversion F] in
theorem sendFrame_made (asked : String) (members : Members F) (tick : ℕ)
    (hshort : Short client asked members tick) :
    sendFrame (toDict (made client asked members tick)) =
      .ok (frameOf (made client asked members tick)) := by
  apply sendFrame_frameOf
  have hsigned := dump_signed asked (client.ed.publicKey client.key) (client.uuid tick)
    (client.ed.sign client.key (canonical (Message.unsigned ⟨asked,
      hex (client.ed.publicKey client.key), hex (client.uuid tick), client.stamp tick,
      .obj members, ""⟩))) (client.stamp tick) (.obj members) client.key_length
    (client.uuid_length tick) (client.signature_length _)
  rw [Short, ← hsigned] at hshort
  exact hshort

/-- A request of the client is answered by the next message. -/
theorem request_scripted (h : Agreed client peer) {asked : String} {members : Members F}
    {tick : ℕ} (hkeys : DistinctKeys (.obj members)) (hshort : Short client asked members tick)
    (hpayload : DistinctKeys (.obj payload))
    (hfits : Fits peer (hex (client.uuid tick)) kind payload 0)
    (hscript : nextAnswer rule (made client asked members tick) w.network =
      ((kind, payload), rest)) :
    request client (scripted peer rule) (made client asked members tick) (some peer.pub) w =
      (.ok (answerTo peer (hex (client.uuid tick)) kind payload 0).raw,
        { w with client := w.client.next, network := rest }) := by
  have hsent := sendFrame_made asked members tick hshort
  have hnetwork : scripted peer rule (frameOf (made client asked members tick)) w.network =
      (.ok (frameOf (answerTo peer (hex (client.uuid tick)) kind payload 0)), rest) := by
    have hrequest : readRequest peer (frameOf (made client asked members tick)) =
        .ok (made client asked members tick) := readRequest_frame hkeys hsent
    simp only [scripted, hrequest, hscript]
    rfl
  have hverify : (verify client.ed (client.clock w.client.tick)
      (answerTo peer (hex (client.uuid tick)) kind payload 0)).1 = true := by
    rw [h.ed]
    exact (verify_made _ (h.time _)).2
  exact (request_answered hsent hnetwork hfits hpayload).trans (if_pos hverify)

/-- A message of the client to the peer is answered by the next message. -/
theorem ask_scripted (h : Agreed client peer) {asked : String} {members : Members F}
    (hknown : (w.client.peers.get? peer.pub).isSome = true)
    (hkeys : DistinctKeys (.obj members)) (hshort : Short client asked members w.client.tick)
    (hpayload : DistinctKeys (.obj payload))
    (hfits : Fits peer (hex (client.uuid w.client.tick)) kind payload 0)
    (hscript : nextAnswer rule (made client asked members w.client.tick) w.network =
      ((kind, payload), rest)) :
    ask client (scripted peer rule) peer.pub asked members w =
      (.ok (answerTo peer (hex (client.uuid w.client.tick)) kind payload 0).raw,
        { w with client := w.client.next.next, network := rest }) := by
  have hknows : knownPeer peer.pub w = (.ok (), w) := by
    rw [knownPeer, bind_get, Option.isNone_eq_false_iff.mpr hknown]
    rfl
  have hreply : onClient (client.reply asked members) w =
      (.ok (made client asked members w.client.tick), { w with client := w.client.next }) := rfl
  rw [ask, bind_ok hknows, bind_ok hreply]
  exact request_scripted (w := { w with client := w.client.next }) h hkeys hshort hpayload hfits
    hscript

def openPayload (modelId : String) (budget ttl : ℤ) : Members F :=
  [("model_id", .str modelId), ("purpose", .str "pull"), ("budget_shards", .int budget),
    ("ttl_s", .int ttl)]

/-- The client opens a session by the next message. -/
theorem openSession_scripted (h : Agreed client peer) (modelId : String) (budget ttl : ℤ)
    (hknown : (w.client.peers.get? peer.pub).isSome = true)
    (hshort : Short client "SESSION_OPEN" (openPayload modelId budget ttl) w.client.tick)
    (hpayload : DistinctKeys (.obj payload))
    (hfits : Fits peer (hex (client.uuid w.client.tick)) "SESSION_ACCEPT" payload 0)
    (hscript : nextAnswer rule (made client "SESSION_OPEN" (openPayload modelId budget ttl)
      w.client.tick) w.network = (("SESSION_ACCEPT", payload), rest)) :
    openSession client (scripted peer rule) peer.pub modelId budget ttl w =
      (.ok (.obj (setMember "request_nonce" (.str (hex (client.uuid w.client.tick))) payload)),
        { w with client := w.client.next.next, network := rest }) := by
  have hkeys : DistinctKeys (.obj (openPayload modelId budget ttl) : Json F) :=
    ⟨by simp [openPayload], trivial, trivial, trivial, trivial, trivial⟩
  exact (bind_ok (ask_scripted h hknown hkeys hshort hpayload hfits hscript)).trans rfl

section Samples

theorem samplePeer_key_length : (Ed25519.sample.publicKey (octets 32 6)).length = 32 :=
  octets_length 32 6

theorem samplePeer_signature_length (message : Bytes) :
    (Ed25519.sample.sign (octets 32 6) message).length = 64 := octets_length 64 _

def samplePeer : Node WholeFloat where
  ed := Ed25519.sample
  sha := Sha256.sample
  key := octets 32 6
  key_length := samplePeer_key_length
  signature_length := samplePeer_signature_length
  name := "peer"
  port := 7789
  vault := none
  receipts := none
  clock := fun _ => 0
  stamp := fun _ => ⟨0⟩
  stamp_clock := sample_stamp_clock
  uuid := fun tick => octets 16 tick
  uuid_length := sample_uuid_length
  str := fun _ => ""
  repr := fun text => text
  deep := fun value => !shallow value
  deep_shallow := sample_deep_shallow

/-- A client all of whose messages are of one length. -/
def sampleClient : Node WholeFloat :=
  { sampleNode with uuid := fun _ => octets 16 0, uuid_length := fun _ => octets_length 16 0 }

theorem sampleClient_agreed : Agreed sampleClient samplePeer :=
  ⟨rfl, rfl, fun _ => decide_eq_false (by norm_num [samplePeer, sampleClient, sampleNode, maxSkew])⟩

def sampleMachine : Machine := ⟨fun _ => .ok (), fun _ => none, fun path => "/".intercalate path⟩

def sampleWorld {σ : Type} (peer : String) (network : σ) : World σ WholeFloat :=
  ⟨⟨none, SessionRegistry.new, NonceCache.new, Dict.empty.set peer ("127.0.0.1", 7788),
    Dict.empty, 0⟩, ShardCache.new _ 512 (64 * 1024 ^ 2), fun _ => none, network, 0⟩

/-- The shards of the models of the peer. -/
def sampleShards (modelId : String) : List Bytes :=
  if modelId = "n" then [[3], [4]] else [[1], [2]]

def shardPayload (shard : Bytes) : Members WholeFloat :=
  [("payload_b64", .str (b64encode shard)),
    ("plaintext_hash", .str (Sha256.sample.hexdigest shard))]

/-- The session of a model is called as the model. -/
def sessionPayload (modelId : String) : Members WholeFloat :=
  [("session_id", .str modelId), ("n_shards", .int 2),
    ("file_sha256", .str (Sha256.sample.hexdigest (sampleShards modelId).flatten))]

def shardRequest (modelId : String) (index : ℕ) : Members WholeFloat :=
  [("session_id", .str modelId), ("shard_idx", .int index)]

def textAt (message : Message WholeFloat) (key : String) : String :=
  match message.payload.get? key with
  | some (.str text) => text
  | _ => ""

def indexOf (message : Message WholeFloat) : ℕ :=
  match message.payload.get? "shard_idx" with
  | some (.int index) => index.toNat
  | _ => 0

/-- The peer opens every session and sends the right shards. -/
def honestRule (message : Message WholeFloat) : String × Members WholeFloat :=
  if message.type = "SESSION_OPEN" then
    ("SESSION_ACCEPT", sessionPayload (textAt message "model_id"))
  else ("SHARD_DATA", shardPayload
    ((sampleShards (textAt message "session_id")).getD (indexOf message) []))

def sampleNetwork : Network (Script WholeFloat) := scripted samplePeer honestRule

def sampleIds : List String := ["m", "n"]

/-- The octets of the shards, and one that is in none of them. -/
def sampleOctets : List Bytes := [[1], [2], [3], [4], [9]]

theorem sampleClient_short : ∀ modelId ∈ sampleIds,
    Short sampleClient "SESSION_OPEN" (openPayload modelId 1000000 3600) 0 ∧
      ∀ index ∈ [0, 1], Short sampleClient "REQUEST_SHARD" (shardRequest modelId index) 0 := by
  simp only [Short, signedLength]
  decide +kernel

theorem session_fits : ∀ modelId ∈ sampleIds,
    Fits samplePeer (hex (octets 16 0)) "SESSION_ACCEPT" (sessionPayload modelId) 0 := by
  intro modelId hmodel
  rw [fits_shallow rfl, signedLength]
  revert modelId
  decide +kernel

theorem shard_fits : ∀ shard ∈ sampleOctets,
    Fits samplePeer (hex (octets 16 0)) "SHARD_DATA" (shardPayload shard) 0 := by
  intro shard hshard
  rw [fits_shallow rfl, signedLength]
  revert shard
  decide +kernel

def Knows (s : NodeState WholeFloat) : Prop := (s.peers.get? samplePeer.pub).isSome = true

theorem sample_knows (script : Script WholeFloat) :
    Knows (sampleWorld samplePeer.pub script).client := by
  rw [Knows, sampleWorld, Dict.get?_set, if_pos rfl]
  rfl

def sessionMembers (modelId : String) : Members WholeFloat :=
  setMember "request_nonce" (.str (hex (octets 16 0))) (sessionPayload modelId)

/-- The world after a request and its answer. -/
def asked (w : World (Script WholeFloat) WholeFloat) (rest : Script WholeFloat) :
    World (Script WholeFloat) WholeFloat :=
  { w with client := w.client.next.next, network := rest }

variable {w : World (Script WholeFloat) WholeFloat} (rest : Script WholeFloat) {modelId : String}

/-- A session that the peer opens. -/
theorem sample_accepted (hmodel : modelId ∈ sampleIds) (hknows : Knows w.client)
    (hscript : nextAnswer honestRule (made sampleClient "SESSION_OPEN"
      (openPayload modelId 1000000 3600) w.client.tick) w.network =
        (("SESSION_ACCEPT", sessionPayload modelId), rest)) :
    openSession sampleClient sampleNetwork samplePeer.pub modelId 1000000 3600 w =
      (.ok (.obj (sessionMembers modelId)), asked w rest) := by
  have hkeys : ["session_id", "n_shards", "file_sha256"].Nodup := by decide
  have hdistinct : DistinctKeys (.obj (sessionPayload modelId)) :=
    ⟨hkeys, trivial, trivial, trivial, trivial⟩
  exact openSession_scripted sampleClient_agreed modelId 1000000 3600 hknows
    (sampleClient_short modelId hmodel).1 hdistinct (session_fits modelId hmodel) hscript

/-- An answer to a request for a shard. -/
theorem sample_sent (hmodel : modelId ∈ sampleIds) (hknows : Knows w.client) {index : ℕ}
    (hindex : index ∈ [0, 1]) {kind : String} {payload : Members WholeFloat}
    (hdistinct : DistinctKeys (.obj payload))
    (hfits : Fits samplePeer (hex (octets 16 0)) kind payload 0)
    (hscript : nextAnswer honestRule (made sampleClient "REQUEST_SHARD"
      (shardRequest modelId index) w.client.tick) w.network = ((kind, payload), rest)) :
    ask sampleClient sampleNetwork samplePeer.pub "REQUEST_SHARD" (shardRequest modelId index) w =
      (.ok (answerTo samplePeer (hex (octets 16 0)) kind payload 0).raw, asked w rest) := by
  have hkeys : ["session_id", "shard_idx"].Nodup := by decide
  have hrequest : DistinctKeys (.obj (shardRequest modelId index)) :=
    ⟨hkeys, trivial, trivial, trivial⟩
  exact ask_scripted sampleClient_agreed hknows hrequest
    ((sampleClient_short modelId hmodel).2 index hindex) hdistinct hfits hscript

theorem distinctKeys_shardPayload (shard : Bytes) : DistinctKeys (.obj (shardPayload shard)) := by
  have hkeys : ["payload_b64", "plaintext_hash"].Nodup := by decide
  exact ⟨hkeys, trivial, trivial, trivial⟩

end Samples

end Decillion.ScriptedPeers
