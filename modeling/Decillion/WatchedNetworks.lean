import Decillion.CarriedPulls

/-!
A network that somebody else watches. Between a message of the client and what comes back, anyone
may send octets to the server and the client may send other messages; what comes back is whatever
they like, except that nobody makes signatures of the two nodes.
-/
namespace Decillion.WatchedNetworks

open ByteText JsonObjects JsonRoundTrip JsonText JsonValues Primitives PyErrors PyValues HostSystem
open AccessRequests ShardManifests ShardVault RaisingPrograms TelepathMessages TelepathFrames
open TelepathNodes TelepathPulls TelepathExchanges TelepathServing PulledFiles ScriptedPeers
open SessionSteps VaultLabels SessionAnswers CarriedPulls
open ManifestPaths (textOf)
open PullResults (distinctKeys_recvFrame distinctKeys_fromDict)

variable {F : Type} [FloatText F] [FloatTime F] [FloatNumber F] [FloatConversion F]

/-- What happens on the network: the client sends a frame, the server is sent octets, or its list
of keys is changed. -/
inductive Move where
  | sent (frame : Bytes)
  | handled (peerIp : String) (stream : Bytes)
  | ruled (acl : Option ACL)

/-- The server after a move. -/
def move (server : Node F) (s : NodeState F) : Move → NodeState F
  | .sent _ => s
  | .handled peerIp stream => (server.handleConnection peerIp stream s).state
  | .ruled acl => { s with acl := acl }

def serverAfter (server : Node F) (start : NodeState F) (moves : List Move) : NodeState F :=
  moves.foldl (move server) start

/-- What the others do when the client has sent a frame, and what comes back. -/
abbrev Attack := List Move → Bytes → List Move × Except PyError Bytes

/-- The network under an attack; its state is all that has happened. -/
def watched (attack : Attack) : Network (List Move) := fun frame moves =>
  ((attack moves frame).2, moves ++ .sent frame :: (attack moves frame).1)

variable (client server : Node F) (start : NodeState F) (moves : List Move)

/-- The server has read a request from some octets, in the state in which it then was. -/
def Handles (peerIp : String) (request : RawMessage F) (before : NodeState F) : Prop :=
  ∃ earlier stream, earlier ++ [.handled peerIp stream] <+: moves ∧
    before = serverAfter server start earlier ∧ readMessage server stream = .ok request

/-- A message that the client has sent. -/
def Sends (own : RawMessage F) : Prop :=
  ∃ frame, Move.sent frame ∈ moves ∧ readMessage server frame = .ok own

/-- The signatures of the two nodes are on nothing but what they have signed. -/
structure Authentic (answer : Except PyError Bytes) : Prop where
  answered : ∀ stream response, answer = .ok stream → readMessage client stream = .ok response →
    response.sender = .str server.pub → signedRight client.ed response = true →
    ∃ peerIp request before reply, Handles server start moves peerIp request before ∧
      (server.respondRaw peerIp request before).1 = .ok reply ∧
      canonical reply.raw.unsigned = canonical response.unsigned
  asked : ∀ peerIp request before, Handles server start moves peerIp request before →
    request.sender = .str client.pub → signedRight server.ed request = true →
    ∃ own, Sends server moves own ∧ canonical own.unsigned = canonical request.unsigned

section Messages

variable {client server : Node F} {σ : Type} {network : Network σ} {w w' : World σ F}
  {message : Message F} {response : RawMessage F} {sender : String}

/-- What is signed of a message. -/
def signedFields (message : RawMessage F) : Members F :=
  [("type", message.type), ("sender", message.sender), ("nonce", message.nonce),
    ("ts", .float message.ts), ("payload", message.payload)]

theorem distinct_readMessage {stream : Bytes} {message : RawMessage F}
    (h : readMessage client stream = .ok message) : DistinctKeys message.unsigned := by
  obtain ⟨value, hvalue, hmessage⟩ := bind_eq_ok h
  exact distinctKeys_fromDict (distinctKeys_recvFrame hvalue) hmessage

omit [FloatText F] [FloatTime F] [FloatNumber F] [FloatConversion F] in
theorem distinct_nonce {message : RawMessage F} (h : DistinctKeys message.unsigned) :
    DistinctKeys message.nonce := h.2.2.2.1

omit [FloatText F] [FloatTime F] [FloatNumber F] [FloatConversion F] in
theorem distinct_raw (h : DistinctKeys message.payload) : DistinctKeys message.raw.unsigned :=
  ⟨by simp, trivial, trivial, trivial, trivial, h, trivial⟩

omit [FloatTime F] [FloatNumber F] [FloatConversion F] in
/-- Two messages with the same octets to sign have the same texts in their headers, and their
payloads are the same but for the order of the keys. -/
theorem same_of_canonical {own message : RawMessage F} (hkeys : DistinctKeys message.unsigned)
    (hkeys' : DistinctKeys own.unsigned) (h : canonical own.unsigned = canonical message.unsigned) :
    (∀ text, own.type = .str text → message.type = .str text) ∧
      (∀ text, own.nonce = .str text → message.nonce = .str text) ∧
      SameValue own.payload message.payload := by
  have hsame := canonical_injective hkeys' hkeys h
  have htext : ∀ key text, (signedFields own).lookup key = some (.str text) →
      (signedFields message).lookup key = some (.str text) :=
    fun key text => text_sameValue hkeys'.1 hkeys.1 hsame
  have hown : (signedFields own).lookup "payload" = some own.payload := rfl
  have hmessage : (signedFields message).lookup "payload" = some message.payload := rfl
  obtain ⟨payload, hpayload, hsamePayload⟩ := lookup_sameValue hkeys'.1 hkeys.1 hsame hown
  obtain rfl := Option.some.inj (hmessage.symm.trans hpayload)
  exact ⟨fun text htype => Option.some.inj (htext "type" text (congrArg some htype)),
    fun text hnonce => Option.some.inj (htext "nonce" text (congrArg some hnonce)), hsamePayload⟩

/-- What a request needs to end with a response. -/
theorem request_ok (h : request client network message (some sender) w = (.ok response, w')) :
    ∃ frame stream reason, sendFrame (toDict message) = .ok frame ∧
      (network frame w.network).1 = .ok stream ∧ readMessage client stream = .ok response ∧
      verifyRaw client.ed (client.clock w.client.tick) response = .ok (true, reason) ∧
      response.sender = .str sender ∧
      member response.payload "request_nonce" .null = .ok (.str message.nonce) ∧
      w' = { w with client := w.client.next, network := (network frame w.network).2 } := by
  rw [request] at h
  obtain ⟨frame, hsent, h⟩ := returned_bind_lift h
  obtain ⟨stream, w₁, hexchange, h⟩ := returned_bind h
  obtain ⟨hanswer, rfl⟩ := Prod.mk.inj hexchange
  have hcheck := onClient_ok h
  obtain ⟨value, nonce, reason, hvalue, hread, hverify, hsender, hnonce, hbound, hstate⟩ :=
    checkResponse_ok hcheck
  have hread' : readMessage client stream = .ok response := by
    rw [readMessage, hvalue]
    exact hread
  rw [eq_of_equalsStr hbound] at hnonce
  refine ⟨frame, stream, reason, hsent, hanswer, hread', hverify,
    eq_of_equalsStr (hsender sender rfl), hnonce, ?_⟩
  rw [← (Prod.mk.inj h).2, congrArg Prod.snd hcheck, hstate]

end Messages

end Decillion.WatchedNetworks
