import Decillion.RelayedPulls

/-!
What a pull can write when the network is watched. Whatever is done there without the keys of the
two nodes, the file is that of a model for which the server has granted a session under the nonce
of the client.
-/
namespace Decillion.WatchedPulls

open ByteText JsonObjects JsonRoundTrip JsonText JsonValues Primitives PyErrors PyValues HostSystem
open AccessRequests ShardManifests ShardVault RaisingPrograms TelepathMessages TelepathFrames
open TelepathNodes TelepathPulls TelepathExchanges TelepathServing PulledFiles ScriptedPeers
open SessionSteps VaultLabels SessionAnswers CarriedPulls WatchedNetworks RelayedPulls
open ManifestPaths (textOf)
open PullResults (distinctKeys_payload)

variable {F : Type} [FloatText F] [FloatTime F] [FloatNumber F] [FloatConversion F]

section Pulls

variable {client server : Node F} {start : NodeState F} {vault : Vault}
  {pieces : String → List Bytes}

/-- When the client has sent a request, the signatures of both nodes are genuine, and no other
message of the client has its nonce. -/
structure Genuine (client server : Node F) (start : NodeState F) (attack : Attack)
    (moves : List Move) (request : Message F) : Prop where
  authentic : ∀ frame, sendFrame (toDict request) = .ok frame →
    Authentic client server start (watched attack frame moves).2 (watched attack frame moves).1
  nonce : ∀ frame own, sendFrame (toDict request) = .ok frame →
    Sends server (watched attack frame moves).2 own → own.nonce = .str request.nonce →
      own = request.raw

/-- The server has accepted a session of a model for somebody who has used a nonce of the client and
may read the model; if it was the client, then it has asked for that model. -/
def GrantedFor (client server : Node F) (start : NodeState F) (moves : List Move)
    (modelId granted nonce : String) : Prop :=
  ∃ peerIp request before reply, Handles server start moves peerIp request.raw before ∧
    request.nonce = nonce ∧ Arrives server request before "SESSION_OPEN" ∧
    Grants server request before granted ∧
    (server.respondRaw peerIp request.raw before).1 = .ok reply ∧ reply.type = "SESSION_ACCEPT" ∧
    reply.payload.get? "model_id" = some (.str granted) ∧
    (request.sender = client.pub → granted = modelId)

omit [FloatNumber F] [FloatConversion F] in
theorem signedRight_of_verifyRaw {ed : Ed25519} {now : ℚ} {message : RawMessage F} {reason : String}
    (h : verifyRaw ed now message = .ok (true, reason)) : signedRight ed message = true := by
  obtain ⟨sender, signature, hsender, hsignature, hvalid⟩ := signed_of_verifyRaw h
  rw [signedRight, hsender, hsignature]
  exact hvalid

omit [FloatNumber F] [FloatConversion F] in
theorem signedRight_of_verify {ed : Ed25519} {now : ℚ} {message : Message F}
    (h : (verify ed now message).1 = true) : signedRight ed message.raw = true := by
  rcases hresult : verify ed now message with ⟨ok, reason⟩
  rw [hresult] at h
  obtain rfl : ok = true := h
  exact signedRight_of_verifyRaw (by rw [verifyRaw_raw, hresult])

theorem known_of_ask {peer kind : String} {payload : Members F} {σ : Type} {network : Network σ}
    {w w' : World σ F} {response : RawMessage F}
    (h : ask client network peer kind payload w = (.ok response, w')) :
    (w.client.peers.get? peer).isSome = true := by
  obtain ⟨u, w₁, hknown, -⟩ := returned_bind h
  rw [knownPeer, bind_get] at hknown
  cases hpeer : w.client.peers.get? peer with
  | none =>
    rw [hpeer] at hknown
    cases (Prod.mk.inj hknown).1
  | some address => rfl

omit [FloatText F] [FloatTime F] [FloatNumber F] [FloatConversion F] in
/-- The model that a message asks for whose payload is the one of a pull. -/
theorem asked_same {str : Json F → String} {payload : Json F} {granted modelId : String}
    {budget ttl : ℤ} (hkeys : DistinctKeys payload)
    (hsame : SameValue (.obj (openPayload modelId budget ttl)) payload)
    (hasked : ∃ members, payload = .obj members ∧
      textOf str (field members "model_id" (.str "")) = granted) : granted = modelId := by
  obtain ⟨members, rfl, hasked⟩ := hasked
  have hlookup := text_sameValue (distinct_openPayload modelId budget ttl).1 hkeys.1 hsame
    (rfl : (openPayload modelId budget ttl : Members F).lookup "model_id" = some (.str modelId))
  rw [field, hlookup] at hasked
  exact hasked.symm

/-- What the client has sent is what a request in its name asks. -/
theorem granted_own {moves : List Move} {answer : Except PyError Bytes} {own : Message F}
    (hauthentic : Authentic client server start moves answer) {peerIp granted modelId : String}
    {request : Message F} {before : NodeState F} {budget ttl : ℤ}
    (hhandles : Handles server start moves peerIp request.raw before)
    (harrives : Arrives server request before "SESSION_OPEN")
    (hgrants : Grants server request before granted)
    (hnonce : ∀ message, Sends server moves message → message.nonce = .str request.nonce →
      message = own.raw) (hown : own.payload = .obj (openPayload modelId budget ttl))
    (hsender : request.sender = client.pub) : granted = modelId := by
  obtain ⟨message, hsends, hsame⟩ := hauthentic.asked peerIp request.raw before hhandles
    (congrArg Json.str hsender) (signedRight_of_verify harrives.verified)
  obtain ⟨frame, hsent, hread⟩ := hsends
  obtain ⟨earlier, stream, -, -, hrequest⟩ := hhandles
  have hkeys := distinct_readMessage hrequest
  have hkeys' := distinct_readMessage hread
  obtain ⟨-, hsameNonce, -⟩ := same_of_canonical hkeys' hkeys hsame.symm
  obtain ⟨-, -, hpayload⟩ := same_of_canonical hkeys hkeys' hsame
  obtain rfl := hnonce message ⟨frame, hsent, hread⟩ (hsameNonce request.nonce rfl)
  have hpayload' : SameValue own.payload request.payload := hpayload
  rw [hown] at hpayload'
  exact asked_same (distinctKeys_payload hkeys) hpayload' hgrants.asked

/-- A session that the client is told of is one that the server has granted to somebody who has
used the nonce of the client. -/
theorem granted_of_opened (hvault : server.vault = some vault) (hvouched : Vouched F vault pieces)
    {attack : Attack} {modelId : String} {w w' : World (List Move) F} {initial : Json F}
    (hgenuine : Genuine client server start attack w.network (made client "SESSION_OPEN"
      (openPayload modelId 1000000 3600) w.client.tick))
    (h : openSession client (watched attack) server.pub modelId 1000000 3600 w =
      (.ok initial, w')) :
    ∃ frame granted members, sendFrame (toDict (made client "SESSION_OPEN"
        (openPayload modelId 1000000 3600) w.client.tick)) = .ok frame ∧
      GrantedFor client server start (watched attack frame w.network).2 modelId granted
        (hex (client.uuid w.client.tick)) ∧
      initial = .obj members ∧
      members.lookup "file_sha256" = some (.str (vault.crypto.sha.hexdigest
        (pieces granted).flatten)) := by
  obtain ⟨response, hask, htype, rfl⟩ := openSession_ok client _ h
  rw [ask_eq (known_of_ask hask)] at hask
  obtain ⟨frame, stream, reason, hsent, hanswer, hread, hverified, hsender, hbound, -⟩ :=
    request_ok hask
  have hauthentic := hgenuine.authentic frame hsent
  obtain ⟨peerIp, request, before, reply, hhandles, hreply, hsame⟩ := hauthentic.answered stream
    response hanswer hread hsender (signedRight_of_verifyRaw hverified)
  have hkeys := distinct_readMessage hread
  have hrequest : DistinctKeys request.nonce := by
    obtain ⟨earlier, octets, -, -, hoctets⟩ := hhandles
    exact distinct_nonce (distinct_readMessage hoctets)
  rcases told_respondRaw hvault hvouched hrequest hreply with hother |
    ⟨request, rfl, harrives, sent, ⟨manifest, id, session, tick, hgrants, -, -, hoffered, rfl⟩, rfl⟩
  · obtain ⟨hkind, -⟩ := same_of_canonical (distinct_raw hother.2) hkeys hsame.symm
    exact absurd (Json.str.inj (hkind _ htype)) hother.1
  · have hkeys' : DistinctKeys (.obj (setMember "request_nonce" (.str request.nonce) (accepted
        vault.crypto.sha (pieces manifest.modelId).flatten manifest session.sessionId))) :=
      distinct_respondRaw hvault hvouched hrequest hreply
    obtain ⟨-, -, hpayload⟩ := same_of_canonical hkeys (distinct_raw hkeys') hsame
    obtain ⟨members, hmembers⟩ := obj_of_sameValue hpayload
    have hdistinct : DistinctKeys response.payload := distinctKeys_payload hkeys
    have hlookups : ∀ {key text : String}, (setMember "request_nonce" (.str request.nonce) (accepted
        vault.crypto.sha (pieces manifest.modelId).flatten manifest session.sessionId)).lookup key =
          some (.str text) → members.lookup key = some (.str text) := by
      rw [hmembers] at hdistinct hpayload
      exact text_sameValue hkeys'.1 hdistinct.1 hpayload
    have hnonce : request.nonce = hex (client.uuid w.client.tick) := by
      rw [member_obj hmembers, field, hlookups (lookup_setMember _ _ _)] at hbound
      exact Json.str.inj (Except.ok.inj hbound)
    have hbefore : Grants server request before manifest.modelId :=
      ⟨hgrants.asked, hgrants.allowed⟩
    have hmodel : (Json.obj (setMember "request_nonce" (.str request.nonce)
        (accepted vault.crypto.sha (pieces manifest.modelId).flatten manifest
          session.sessionId))).get? "model_id" = some (.str manifest.modelId) := by
      rw [Json.get?, PullResults.lookup_setMember_of_ne (by decide)]
      rfl
    refine ⟨frame, manifest.modelId, members, hsent, ⟨peerIp, request, before, _, hhandles, hnonce,
      harrives, hbefore, hreply, rfl, hmodel, ?_⟩, hmembers, hlookups ?_⟩
    · have hpayload : (made client "SESSION_OPEN" (openPayload modelId 1000000 3600)
          w.client.tick).payload = .obj (openPayload modelId 1000000 3600) := rfl
      exact granted_own hauthentic hhandles harrives hbefore (fun message hsends hsameNonce =>
        hgenuine.nonce frame message hsent hsends (hsameNonce.trans (congrArg Json.str hnonce)))
          hpayload
    · rw [PullResults.lookup_setMember_of_ne (by decide)]
      rfl

/-- Whatever is done on the network, a pull that returns has written the file of a model for which
the server granted a session under the nonce of the client. It is the file of the model that was
asked for, unless the server lets another key read another model. -/
theorem pull_watched (machine : Machine) (hvault : server.vault = some vault)
    (hvouched : Vouched F vault pieces) (hsha : client.sha = vault.crypto.sha) {attack : Attack}
    {modelId : String} {destination : Path} {w w' : World (List Move) F} {result : Members F}
    (hgenuine : Genuine client server start attack w.network (made client "SESSION_OPEN"
      (openPayload modelId 1000000 3600) w.client.tick))
    (hcollision : vault.crypto.sha.NoCollision {content |
      w'.files (targetFile destination modelId) = some content ∨
        ∃ other, content = (pieces other).flatten})
    (hpull : pullModel client (watched attack) machine server.pub modelId destination w =
      (.ok result, w')) :
    ∃ frame granted, sendFrame (toDict (made client "SESSION_OPEN"
        (openPayload modelId 1000000 3600) w.client.tick)) = .ok frame ∧
      GrantedFor client server start (watched attack frame w.network).2 modelId granted
        (hex (client.uuid w.client.tick)) ∧
      w'.files (targetFile destination modelId) = some (pieces granted).flatten ∧
      ((∀ peerIp request before,
        Handles server start (watched attack frame w.network).2 peerIp request before →
        ∀ sender, request.sender = .str sender → sender ≠ client.pub → ∀ other, other ≠ modelId →
          before.allows other sender = false) →
        w'.files (targetFile destination modelId) = some (pieces modelId).flatten) := by
  obtain ⟨initial, w₀, count, nShards, chunks, w₁, hopen, -, -, -, hannounced, -, -, hfiles⟩ :=
    pull_ok client (watched attack) machine server.pub modelId destination hpull
  obtain ⟨frame, granted, members, hsent, hgranted, rfl, hlabel⟩ :=
    granted_of_opened hvault hvouched hgenuine hopen
  have hfile : w'.files (targetFile destination modelId) = some chunks.flatten := by
    rw [hfiles, Function.update_self]
  have hdigest := hannounced _ hlabel (by
    intro hempty
    have hlength := vault.crypto.sha.hexdigest_length (pieces granted).flatten
    rw [hempty] at hlength
    cases hlength)
  rw [hsha] at hdigest
  have hcontent := hcollision.eq_of_hexdigest (Or.inl hfile) (Or.inr ⟨granted, rfl⟩) hdigest
  rw [hcontent] at hfile
  refine ⟨frame, granted, hsent, hgranted, hfile, fun honly => ?_⟩
  obtain ⟨peerIp, request, before, reply, hhandles, -, -, hgrants, -, -, -, hown⟩ := hgranted
  by_cases hsender : request.sender = client.pub
  · rw [hfile, hown hsender]
  · by_cases hother : granted = modelId
    · rw [hfile, hother]
    · have hnot :=
        honly peerIp request.raw before hhandles request.sender rfl hsender granted hother
      rw [hgrants.allowed] at hnot
      cases hnot

end Pulls

section Samples

open JsonStrings (WholeFloat)
open ServedSessions (servingState)
open TelepathAnswers (sampleNode)

/-- Signing anew what the client has sent first makes no signature of the two nodes. -/
theorem genuine_relaying {client server attacker : Node F} {start : NodeState F} {vault : Vault}
    {pieces : String → List Bytes} (granted peerIp : String) (hvault : server.vault = some vault)
    (hvouched : Vouched F vault pieces) (hother : attacker.pub ≠ client.pub) {request : Message F}
    (hkeys : DistinctKeys request.payload) :
    Genuine client server start (relaying server attacker start granted peerIp) [] request where
  authentic := by
    intro frame _
    have hanew : AllAnew attacker granted [] := fun _ _ hmem => by cases hmem
    exact authentic_relaying hvault hvouched hother hanew frame
  nonce := by
    intro frame own hsent hsends _
    obtain ⟨sent, hmem, hread⟩ := hsends
    have hframe : sent = frame := by
      rcases watched_relaying server attacker start granted peerIp frame [] with
        ⟨stream, -, heq⟩ | ⟨e, heq⟩
      · rw [heq] at hmem
        simpa using hmem
      · rw [heq] at hmem
        simpa using hmem
    rw [hframe, readMessage_frame hkeys hsent] at hread
    exact (Except.ok.inj hread).symm

/-- A pull that returns the file of a model that was not asked for. -/
theorem pull_watched_sample : ∃ result w', pullModel sampleNode
      (watched (relaying sampleServer samplePeer servingState "m" "ip")) sampleMachine
      sampleServer.pub "x" ["d"] sampleWatched = (.ok result, w') ∧
    ∃ frame granted, sendFrame (toDict (made sampleNode "SESSION_OPEN"
        (openPayload "x" 1000000 3600) 0)) = .ok frame ∧
      GrantedFor sampleNode sampleServer servingState
        (watched (relaying sampleServer samplePeer servingState "m" "ip") frame []).2 "x" granted
        (hex (octets 16 0)) ∧
      w'.files (targetFile ["d"] "x") = some [1, 2, 3] := by
  have hcalm : ∀ tick, sampleMachine.spoiled tick = none := fun _ => rfl
  have hmkdir : sampleMachine.mkdir (targetDirectory ["d"] "x") = .ok () := rfl
  obtain ⟨hreturns, hfile⟩ := pull_carried (sample_posed.connected servingState "ip" "x")
    sample_begins sample_inTime hcalm ["d"] hmkdir
  obtain ⟨result, w', hpull⟩ := hreturns.mpr sample_completes
  have hwritten := hfile result w' hpull
  have hcollision : servedVault.crypto.sha.NoCollision {content |
      w'.files (targetFile ["d"] "x") = some content ∨ ∃ other : String,
        content = ((fun _ => [[1, 2, 3]] : String → List Bytes) other).flatten} := by
    refine Set.Subsingleton.injOn (fun content hcontent content' hcontent' => ?_) _
    have honly : ∀ {content : Bytes}, (w'.files (targetFile ["d"] "x") = some content ∨
        ∃ other : String, content = ((fun _ => [[1, 2, 3]] : String → List Bytes) other).flatten) →
        content = [1, 2, 3] := by
      rintro content (hsome | ⟨-, rfl⟩)
      · exact (Option.some.inj (hwritten.symm.trans hsome)).symm
      · rfl
    rw [honly hcontent, honly hcontent']
  obtain ⟨frame, granted, hsent, hgranted, hnamed, -⟩ := pull_watched sampleMachine rfl
    sample_vouched rfl (genuine_relaying "m" "ip" rfl sample_vouched sample_posed.other
      (distinct_openPayload "x" 1000000 3600)) hcollision hpull
  exact ⟨result, w', hpull, frame, granted, hsent, hgranted, hnamed⟩

end Samples

end Decillion.WatchedPulls
