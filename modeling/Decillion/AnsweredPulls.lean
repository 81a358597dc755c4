import Decillion.DirectPulls
import Decillion.GrantedSessions
import Decillion.SentRequests

/-!
What the server has to do with the answers that a client takes on a network that is watched. An
answer names its request by the nonce only. As long as nobody else signs a message with a nonce of
the client, each answer is the one of the server to the request of the client, and a pull writes the
file of the model that was asked for; without that the file can be the one of another model.
-/
namespace Decillion.AnsweredPulls

open ByteText Base64Text JsonObjects JsonRoundTrip JsonText JsonValues Primitives Dictionaries
open PyErrors PyValues HostSystem AccessRequests ShardManifests ShardVault RaisingPrograms
open ShardCaches ShardCoherence TelepathMessages TelepathSessions TelepathFrames TelepathNodes
open TelepathPulls TelepathExchanges TelepathServing PulledFiles PullRuns ScriptedPeers
open SessionSteps VaultLabels SessionAnswers CarriedPulls WatchedNetworks RelayedPulls WatchedPulls
open GrantedSessions SentRequests VaultReads
open ServedSessions (Opens accepts_unique)
open ManifestPaths (textOf)
open PullResults (distinctKeys_payload)

variable {F : Type} [FloatText F] [FloatTime F] [FloatNumber F] [FloatConversion F]

variable (client server : Node F) (start : NodeState F)

/-- In a run the signatures of both nodes are genuine, and no nonce of the client and no session
id of the server are used twice. -/
structure Trusted (attack : Attack) (began final : List Move) : Prop where
  authentic : ∀ moves frame, Reached attack began moves →
    (watched attack frame moves).2 <+: final →
    Authentic client server start (watched attack frame moves).2 (watched attack frame moves).1
  nonces : ∀ own other, Sends server final own → Sends server final other →
    own.nonce = other.nonce → own = other
  sessions : ∀ first other, OpenedBy server start final first → OpenedBy server start final other →
    first.sessionId = other.sessionId → first = other

/-- The server is asked for no session and no shard by somebody else who has signed the request
under a nonce of the client. -/
def Unshared (final : List Move) : Prop :=
  ∀ peerIp request before own, Handles server start final peerIp request before →
    request.type = .str "SESSION_OPEN" ∨ request.type = .str "REQUEST_SHARD" →
    Sends server final own → request.nonce = own.nonce → signedRight server.ed request = true →
    request.sender = .str client.pub

/-- A response is what the server has answered to a message of the client itself. -/
def AnswersOwn (final : List Move) (own : Message F) (response : RawMessage F) : Prop :=
  ∃ peerIp request before reply, Handles server start final peerIp request before ∧
    canonical request.unsigned = canonical own.raw.unsigned ∧
    (server.respondRaw peerIp request before).1 = .ok reply ∧
    canonical reply.raw.unsigned = canonical response.unsigned

section Answers

omit [FloatText F] [FloatTime F] [FloatNumber F] [FloatConversion F] in
theorem member_of_get? {payload value default : Json F} {key : String}
    (h : payload.get? key = some value) : member payload key default = .ok value := by
  cases payload with
  | obj members =>
    have hlookup : members.lookup key = some value := h
    rw [member_obj rfl, field, hlookup]
    rfl
  | _ => cases h

omit [FloatText F] [FloatTime F] [FloatNumber F] [FloatConversion F] in
theorem item_of_get? {payload value : Json F} {key : String} (h : payload.get? key = some value) :
    item payload key = .ok value := by
  cases payload with
  | obj members =>
    have hlookup : members.lookup key = some value := h
    rw [item, hlookup]
    rfl
  | _ => cases h

variable {client server start} {vault : Vault} {pieces : String → List Bytes} {attack : Attack}
  {began final : List Move}

/-- An answer that is taken is the one to the client's own message. -/
theorem answers_own (hvault : server.vault = some vault) (hvouched : Vouched F vault pieces)
    (hstr : ∀ n, server.str (.int n) = toString n)
    (htrusted : Trusted client server start attack began final)
    (hunshared : Unshared client server start final) {kind : String} {payload : Members F}
    (hkeys : DistinctKeys (.obj payload)) {w w' : World (List Move) F} {response : RawMessage F}
    (hreached : Reached attack began w.network) (hlater : w'.network <+: final)
    (h : ask client (watched attack) server.pub kind payload w = (.ok response, w'))
    (htype : response.type = .str "SESSION_ACCEPT" ∨ response.type = .str "SHARD_DATA") :
    AnswersOwn server start final (made client kind payload w.client.tick) response ∧
      DistinctKeys response.unsigned := by
  have hpull := request_of_ask h
  generalize hown : made client kind payload w.client.tick = own at hpull ⊢
  have hmine : DistinctKeys own.payload := hown ▸ hkeys
  obtain ⟨frame, stream, reason, hsent, hanswer, hread, hverified, hsender, hbound, hended⟩ :=
    request_ok hpull
  have hmoves : w'.network = (watched attack frame w.network).2 := by rw [hended]
  rw [hmoves] at hlater
  have hauthentic := htrusted.authentic w.network frame hreached hlater
  obtain ⟨peerIp, request, before, reply, hhandles, hreply, hsame⟩ := hauthentic.answered stream
    response hanswer hread hsender (signedRight_of_verifyRaw hverified)
  have hresponse := distinct_readMessage hread
  have hrequest : DistinctKeys request.unsigned := by
    obtain ⟨earlier, octets, -, -, hoctets⟩ := hhandles
    exact distinct_readMessage hoctets
  have hpayload := distinct_respondRaw hvault hvouched (distinct_nonce hrequest) hreply
  obtain ⟨hkind, -, hsamePayload⟩ := same_of_canonical hresponse (distinct_raw hpayload) hsame
  have hreplyType : reply.type = "SESSION_ACCEPT" ∨ reply.type = "SHARD_DATA" := by
    rw [hkind reply.type rfl] at htype
    exact htype.imp Json.str.inj Json.str.inj
  obtain ⟨text, type, rfl, harrives, hserved, hnamed⟩ :=
    bound_told hvault hvouched hstr (distinct_nonce hrequest) hreply hreplyType
  have hvalid : signedRight server.ed text.raw = true := signedRight_of_verify harrives.verified
  -- the answer names the nonce of the client, so the request has it too
  have hnonce : text.nonce = own.nonce := by
    obtain ⟨found, hfound, hsameNonce⟩ := get?_sameValue hpayload
      (distinctKeys_payload hresponse) hsamePayload hnamed
    rw [member_of_get? hfound, eq_of_sameValue_str hsameNonce] at hbound
    exact Json.str.inj (Except.ok.inj hbound)
  have hsends : Sends server final own.raw :=
    ⟨frame, hlater.subset (by simp [watched]), readMessage_frame hmine hsent⟩
  have hasks : text.raw.type = .str "SESSION_OPEN" ∨ text.raw.type = .str "REQUEST_SHARD" := by
    rw [← harrives.type] at hserved
    exact hserved.imp (congrArg Json.str) (congrArg Json.str)
  have hfrom := hunshared peerIp text.raw before own.raw (Handles.later hhandles hlater) hasks
    hsends (congrArg Json.str hnonce) hvalid
  obtain ⟨other, ⟨octets, hoctets, hother⟩, hcanonical⟩ :=
    hauthentic.asked peerIp text.raw before hhandles hfrom hvalid
  obtain ⟨-, hotherNonce, -⟩ := same_of_canonical (distinct_readMessage hother) hrequest
    hcanonical.symm
  have hsame' := htrusted.nonces other own.raw ⟨octets, hlater.subset hoctets, hother⟩ hsends
    ((hotherNonce text.nonce rfl).trans (congrArg Json.str hnonce))
  refine ⟨⟨peerIp, text.raw, before, reply, Handles.later hhandles hlater, ?_, hreply, hsame⟩,
    hresponse⟩
  rw [← hsame', hcanonical]

variable {modelId sessionId : String} {response : RawMessage F}

omit [FloatText F] [FloatTime F] [FloatNumber F] [FloatConversion F] in
/-- What is said beside the nonce of a request can be looked up in the response as it is read. -/
theorem told_lookup (nonce : Json F) (members : Members F)
    (hpayload : DistinctKeys (.obj (setMember "request_nonce" nonce members)))
    (hkeys : DistinctKeys response.unsigned)
    (hsame : SameValue (.obj (setMember "request_nonce" nonce members)) response.payload)
    (key : String) (value : Json F) (hkey : key ≠ "request_nonce")
    (hvalue : members.lookup key = some value) :
    ∃ found, response.payload.get? key = some found ∧ SameValue value found :=
  get?_sameValue hpayload (distinctKeys_payload hkeys) hsame
    ((PullResults.lookup_setMember_of_ne hkey _ _).trans hvalue)

/-- A session that the client is told of as an answer to its own message is one of the model that it
has asked for. -/
theorem session_own (hvault : server.vault = some vault) (hvouched : Vouched F vault pieces)
    {budget ttl : ℤ} {tick : ℕ} (hkeys : DistinctKeys response.unsigned)
    (htype : response.type = .str "SESSION_ACCEPT")
    (h : AnswersOwn server start final
      (made client "SESSION_OPEN" (openPayload modelId budget ttl) tick) response) :
    ∃ (session : Session) (manifest : ModelManifest F) (id : Bytes),
      OpenedBy server start final session ∧ session.modelId = modelId ∧
      Offered vault (pieces modelId) manifest id ∧
      response.payload.get? "session_id" = some (.str session.sessionId) ∧
      response.payload.get? "n_shards" = some (.int manifest.nShards) := by
  obtain ⟨peerIp, request, before, reply, hhandles, hown, hreply, hsame⟩ := h
  have hrequest : DistinctKeys request.unsigned := by
    obtain ⟨earlier, octets, -, -, hoctets⟩ := hhandles
    exact distinct_readMessage hoctets
  have hpayload := distinct_respondRaw hvault hvouched (distinct_nonce hrequest) hreply
  obtain ⟨hkind, -, hsamePayload⟩ := same_of_canonical hkeys (distinct_raw hpayload) hsame
  rcases told_respondRaw hvault hvouched (distinct_nonce hrequest) hreply with hother |
    ⟨text, rfl, harrives, sent, ⟨manifest, id, session, tick', hgrants, haccepts, hmodel, hoffered,
      rfl⟩, rfl⟩
  · rw [hkind reply.type rfl] at htype
    exact absurd (Json.str.inj htype) hother.1
  · have hmine : DistinctKeys (made client "SESSION_OPEN" (openPayload modelId budget ttl)
        tick).raw.unsigned := distinct_raw (distinct_openPayload modelId budget ttl)
    obtain ⟨-, -, hasked⟩ := same_of_canonical hrequest hmine hown.symm
    obtain rfl := asked_same (distinctKeys_payload hrequest) hasked hgrants.asked
    have hlookup := told_lookup (.str text.nonce) (accepted vault.crypto.sha
      (pieces manifest.modelId).flatten manifest session.sessionId) hpayload hkeys hsamePayload
    obtain ⟨found, hid, hsameId⟩ :=
      hlookup "session_id" (.str session.sessionId) (by decide) rfl
    obtain ⟨count, hcount, hsameCount⟩ :=
      hlookup "n_shards" (.int manifest.nShards) (by decide) rfl
    exact ⟨session, manifest, id, ⟨peerIp, text, before, hhandles, harrives, haccepts⟩, hmodel,
      hoffered, eq_of_sameValue_str hsameId ▸ hid, eq_of_sameValue_int hsameCount ▸ hcount⟩

/-- A response with a shard of a model. -/
structure HasShard (modelId : String) (i : ℕ) (piece : Bytes) (response : RawMessage F) : Prop where
  type : response.type = .str "SHARD_DATA"
  model : response.payload.get? "model_id" = some (.str modelId)
  index : response.payload.get? "shard_idx" = some (.int i)
  data : response.payload.get? "payload_b64" = some (.str (b64encode piece))

/-- A shard that is the answer to the client's own message is the one that it has asked for, of the
model of the session that it has named. -/
theorem shard_own (hvault : server.vault = some vault) (hvouched : Vouched F vault pieces)
    (hstr : ∀ n, server.str (.int n) = toString n)
    (hempty : start.sessions.sessions = Dict.empty) {i tick : ℕ}
    (hkeys : DistinctKeys response.unsigned) (htype : response.type = .str "SHARD_DATA")
    (h : AnswersOwn server start final
      (made client "REQUEST_SHARD" (shardAsked sessionId i) tick) response) :
    ∃ first piece, OpenedBy server start final first ∧ first.sessionId = sessionId ∧
      (pieces first.modelId)[i]? = some piece ∧ HasShard first.modelId i piece response := by
  obtain ⟨peerIp, request, before, reply, hhandles, hown, hreply, hsame⟩ := h
  obtain ⟨earlier, octets, hearlier, rfl, hoctets⟩ := hhandles
  have hrequest := distinct_readMessage hoctets
  have hpayload := distinct_respondRaw hvault hvouched (distinct_nonce hrequest) hreply
  obtain ⟨hkind, -, hsamePayload⟩ := same_of_canonical hkeys (distinct_raw hpayload) hsame
  have hreplyType : reply.type = "SHARD_DATA" := by
    rw [hkind reply.type rfl] at htype
    exact Json.str.inj htype
  obtain ⟨text, current, used, k, piece, tick', rfl, harrives, hcharges, hpiece, rfl⟩ :=
    shard_told hvault hvouched hstr hreply hreplyType
  have hmine : DistinctKeys (made client "REQUEST_SHARD" (shardAsked sessionId i)
      tick).raw.unsigned := distinct_raw (distinct_shardAsked sessionId i)
  obtain ⟨-, -, hasked⟩ := same_of_canonical hrequest hmine hown.symm
  obtain ⟨members, hmembers, hid, hindex⟩ := hcharges.asked
  have hlookup : ∀ key value, (shardAsked sessionId i : Members F).lookup key = some value →
      ∃ found, members.lookup key = some found ∧ SameValue value found := by
    intro key value hvalue
    have hasked' : SameValue (.obj (shardAsked sessionId i)) text.payload := hasked
    have hdistinct : DistinctKeys text.payload := distinctKeys_payload hrequest
    rw [hmembers] at hasked' hdistinct
    exact lookup_sameValue (distinct_shardAsked sessionId i).1 hdistinct.1 hasked' hvalue
  obtain ⟨found, hfound, hsameId⟩ := hlookup "session_id" (.str sessionId) rfl
  obtain ⟨number, hnumber, hsameIndex⟩ := hlookup "shard_idx" (.int i) rfl
  rw [field, hfound, eq_of_sameValue_str hsameId] at hid
  rw [field, hnumber, eq_of_sameValue_int hsameIndex] at hindex
  obtain rfl : i = k := Int.ofNat.inj (Except.ok.inj hindex)
  obtain ⟨first, hopened, hcurrent⟩ :=
    registered_after hempty earlier current.sessionId current hcharges.found
  have hfirst : first.sessionId = current.sessionId := by rw [hcurrent]
  have hmodel : first.modelId = current.modelId := by rw [hcurrent]
  have hkept := told_lookup (.str text.nonce) (shardMembers server current.modelId i piece)
    hpayload hkeys hsamePayload
  obtain ⟨model, hgot, hsameModel⟩ := hkept "model_id" (.str current.modelId) (by decide) rfl
  obtain ⟨index, hgot', hsameNumber⟩ := hkept "shard_idx" (.int i) (by decide) rfl
  obtain ⟨data, hgot'', hsameData⟩ := hkept "payload_b64" (.str (b64encode piece)) (by decide) rfl
  refine ⟨first, piece, hopened.later ((List.prefix_append _ _).trans hearlier), hfirst.trans hid,
    hmodel ▸ hpiece, htype, ?_, ?_, ?_⟩
  · rw [hgot, eq_of_sameValue_str hsameModel, hmodel]
  · rw [hgot', eq_of_sameValue_int hsameNumber]
  · rw [hgot'', eq_of_sameValue_str hsameData]

end Answers

section Fetches

variable {client server : Node F} {start : NodeState F} {vault : Vault}
  {pieces : String → List Bytes} {attack : Attack} {began final : List Move}
  {modelId sessionId : String} {w w₁ w' : World (List Move) F}

/-- The shards from some number on are asked for one after another, and each time the client takes
what the server has answered to its own message: the shard of the model. -/
def Asked (client server : Node F) (start : NodeState F) (attack : Attack) (final : List Move)
    (modelId sessionId : String) :
    ℕ → List Bytes → World (List Move) F → World (List Move) F → Prop
  | _, [], w, w' => Beside w w'
  | i, piece :: rest, w, w' => ∃ w₁ w₂ response, Beside w w₁ ∧
      ask client (watched attack) server.pub "REQUEST_SHARD" (shardAsked sessionId i) w₁ =
        (.ok response, w₂) ∧
      AnswersOwn server start final
        (made client "REQUEST_SHARD" (shardAsked sessionId i) w₁.client.tick) response ∧
      HasShard modelId i piece response ∧
      Asked client server start attack final modelId sessionId (i + 1) rest w₂ w'

theorem Asked.after {i : ℕ} {chunks : List Bytes} (hbeside : Beside w w₁)
    (h : Asked client server start attack final modelId sessionId i chunks w₁ w') :
    Asked client server start attack final modelId sessionId i chunks w w' := by
  cases chunks with
  | nil => exact ⟨h.1.trans hbeside.1, h.2.trans hbeside.2⟩
  | cons chunk chunks =>
    obtain ⟨w₂, w₃, response, hbeside', hrest⟩ := h
    exact ⟨w₂, w₃, response,
      ⟨hbeside'.1.trans hbeside.1, hbeside'.2.trans hbeside.2⟩, hrest⟩

variable (hvault : server.vault = some vault) (hvouched : Vouched F vault pieces)
  (hstr : ∀ n, server.str (.int n) = toString n) (hempty : start.sessions.sessions = Dict.empty)
  (htrusted : Trusted client server start attack began final)
  (hunshared : Unshared client server start final)
  (hmodel : ∀ first, OpenedBy server start final first → first.sessionId = sessionId →
    first.modelId = modelId)
include hvault hvouched hstr hempty htrusted hunshared hmodel

/-- What the client takes for a shard is that shard of the model. -/
theorem chunk_own {i : ℕ} {response : RawMessage F} {payload : Json F} {chunk : Bytes}
    (hreached : Reached attack began w.network) (hlater : w'.network <+: final)
    (hask : ask client (watched attack) server.pub "REQUEST_SHARD" (shardAsked sessionId i) w =
      (.ok response, w'))
    (htype : response.type = .str "SHARD_DATA")
    (hitem : item response.payload "payload_b64" = .ok payload)
    (hdecoded : decodePayload payload = .ok chunk) :
    (pieces modelId)[i]? = some chunk ∧
      AnswersOwn server start final
        (made client "REQUEST_SHARD" (shardAsked sessionId i) w.client.tick) response ∧
      HasShard modelId i chunk response := by
  obtain ⟨hanswers, hkeys⟩ := answers_own hvault hvouched hstr htrusted hunshared
    (distinct_shardAsked sessionId i) hreached hlater hask (Or.inr htype)
  obtain ⟨first, piece, hopened, hid, hpiece, hshard⟩ :=
    shard_own hvault hvouched hstr hempty hkeys htype hanswers
  rw [hmodel first hopened hid] at hpiece hshard
  obtain rfl : piece = chunk := by
    rw [item_of_get? hshard.data] at hitem
    rw [← Except.ok.inj hitem, decodePayload, b64decode_b64encode] at hdecoded
    exact Except.ok.inj hdecoded
  exact ⟨hpiece, hanswers, hshard⟩

/-- All that the loop of a pull fetches. -/
theorem asked_of_fetches {initial : Json F}
    (hsession : item initial "session_id" = .ok (.str sessionId)) (chunks : List Bytes) (i : ℕ)
    (habsent : ∀ j : ℕ, i ≤ j → w.cache.entries.get? (server.pub, modelId, (j : ℤ)) = none)
    (hreached : Reached attack began w.network) (hlater : w'.network <+: final)
    (h : Fetches client (watched attack) server.pub modelId initial
      (List.range' i chunks.length) chunks w w') :
    (∀ k chunk, chunks[k]? = some chunk → (pieces modelId)[i + k]? = some chunk) ∧
      Asked client server start attack final modelId sessionId i chunks w w' := by
  induction chunks generalizing i w with
  | nil => exact ⟨fun k chunk hchunk => (by cases hchunk), h.1, h.2.2⟩
  | cons chunk chunks ih =>
    obtain ⟨found, w₁, w₂, hsame, hfound, hfetch, hrest⟩ := h
    obtain rfl := Except.ok.inj (hsession.symm.trans hfound)
    obtain ⟨w₃, w₄, response, payload, hbeside, hask, htype, hitem, hdecoded, hbeside', hnext⟩ :=
      fetchShard_asks (hsame.2.1 ▸ habsent) hfetch
    have hreached' : Reached attack began w₃.network := by
      rw [hbeside.2, hsame.2.2]
      exact hreached
    obtain ⟨frame, -, hnetwork, -, -⟩ := sent_ask hask
    obtain ⟨frames, -, hfinal, -⟩ := fetches_asks chunks (i + 1) hnext hrest
    have hbefore : w₄.network <+: final := by
      rw [← hbeside'.2]
      exact (hfinal ▸ prefix_after attack w₂.network frames).trans hlater
    obtain ⟨hpiece, hanswers, hshard⟩ := chunk_own hvault hvouched hstr hempty htrusted hunshared
      hmodel hreached' hbefore hask htype hitem hdecoded
    have hreached'' : Reached attack began w₂.network := by
      rw [hbeside'.2, hnetwork]
      exact hreached'.next frame
    obtain ⟨hpieces, hasked⟩ := ih (i + 1) hnext hreached'' hrest
    refine ⟨fun k other hother => ?_, w₃, w₄, response, ⟨hbeside.1.trans hsame.1,
      hbeside.2.trans hsame.2.2⟩, hask, hanswers, hshard, hasked.after hbeside'⟩
    cases k with
    | zero =>
      rw [← Option.some.inj hother]
      exact hpiece
    | succ k =>
      have hshift : i + (k + 1) = i + 1 + k := by omega
      rw [hshift]
      exact hpieces k other hother

end Fetches

section Pulls

variable {client server : Node F} {start : NodeState F} {vault : Vault}
  {pieces : String → List Bytes} {attack : Attack} {modelId : String} {w w' : World (List Move) F}

theorem opened_own (hvault : server.vault = some vault) (hvouched : Vouched F vault pieces)
    (hstr : ∀ n, server.str (.int n) = toString n) {began final : List Move}
    (htrusted : Trusted client server start attack began final)
    (hunshared : Unshared client server start final) {initial : Json F}
    (hreached : Reached attack began w.network) (hlater : w'.network <+: final)
    (h : openSession client (watched attack) server.pub modelId 1000000 3600 w =
      (.ok initial, w')) :
    ∃ (response : RawMessage F) (sessionId : String) (manifest : ModelManifest F) (id : Bytes),
      ask client (watched attack) server.pub "SESSION_OPEN" (openPayload modelId 1000000 3600) w =
        (.ok response, w') ∧
      AnswersOwn server start final
        (made client "SESSION_OPEN" (openPayload modelId 1000000 3600) w.client.tick) response ∧
      response.type = .str "SESSION_ACCEPT" ∧ response.payload = initial ∧
      initial.get? "session_id" = some (.str sessionId) ∧
      initial.get? "n_shards" = some (.int manifest.nShards) ∧
      Offered vault (pieces modelId) manifest id ∧
      ∀ first, OpenedBy server start final first → first.sessionId = sessionId →
        first.modelId = modelId := by
  obtain ⟨response, hask, htype, hpayload⟩ := openSession_ok client _ h
  obtain ⟨hanswers, hkeys⟩ := answers_own hvault hvouched hstr htrusted hunshared
    (distinct_openPayload modelId 1000000 3600) hreached hlater hask (Or.inl htype)
  obtain ⟨session, manifest, id, hopened, hmodel, hoffered, hid, hcount⟩ :=
    session_own hvault hvouched hkeys htype hanswers
  rw [hpayload] at hid hcount
  refine ⟨response, session.sessionId, manifest, id, hask, hanswers, htype, hpayload, hid, hcount,
    hoffered, fun first hfirst hsame => ?_⟩
  rw [htrusted.sessions first session hfirst hopened hsame, hmodel]

/-- Whatever is done on the network, a pull that returns has written the file of the model that was
asked for, if nobody else asks the server under a nonce of the client: then the session and every
shard are what the server has answered to the client's own requests. -/
theorem pull_answered (machine : Machine) (hvault : server.vault = some vault)
    (hvouched : Vouched F vault pieces) (hstr : ∀ n, server.str (.int n) = toString n)
    (hempty : start.sessions.sessions = Dict.empty) {destination : Path} {result : Members F}
    (habsent : ∀ j : ℕ, w.cache.entries.get? (server.pub, modelId, (j : ℤ)) = none)
    (htrusted : Trusted client server start attack w.network w'.network)
    (hunshared : Unshared client server start w'.network)
    (hpull : pullModel client (watched attack) machine server.pub modelId destination w =
      (.ok result, w')) :
    w'.files (targetFile destination modelId) = some (pieces modelId).flatten ∧
    ∃ opening w₀ w₁ sessionId,
      ask client (watched attack) server.pub "SESSION_OPEN" (openPayload modelId 1000000 3600) w =
        (.ok opening, w₀) ∧
      AnswersOwn server start w'.network
        (made client "SESSION_OPEN" (openPayload modelId 1000000 3600) w.client.tick) opening ∧
      opening.type = .str "SESSION_ACCEPT" ∧
      opening.payload.get? "session_id" = some (.str sessionId) ∧
      Asked client server start attack w'.network modelId sessionId 0 (pieces modelId) w₀ w₁ ∧
      Beside w₁ w' := by
  obtain ⟨initial, w₀, count, nShards, chunks, w₁, hopen, hitem, hshards, hfetches, -, -, hsame,
    hfiles⟩ := pull_ok client (watched attack) machine server.pub modelId destination hpull
  have hlater : w₁.network <+: w'.network := hsame.2.2 ▸ List.prefix_rfl
  obtain ⟨response, hask', -, -⟩ := openSession_ok client _ hopen
  obtain ⟨frame, -, hnetwork, -, hcache⟩ := sent_ask hask'
  have habsent' : ∀ j : ℕ, 0 ≤ j → w₀.cache.entries.get? (server.pub, modelId, (j : ℤ)) = none :=
    fun j _ => hcache ▸ habsent j
  have hcounted := hfetches.length_eq
  rw [List.length_range] at hcounted
  rw [← hcounted, List.range_eq_range'] at hfetches
  obtain ⟨frames, -, hfinal, -⟩ := fetches_asks chunks 0 habsent' hfetches
  have hstart : Reached attack w.network w.network := ⟨[], rfl⟩
  obtain ⟨opening, sessionId, manifest, id, hask, hanswers, htype, rfl, hid, hcount, hoffered,
    hmodel⟩ := opened_own hvault hvouched hstr htrusted hunshared hstart
      ((hfinal ▸ prefix_after attack w₀.network frames).trans hlater) hopen
  -- the client asks for as many shards as the model has
  obtain rfl := Except.ok.inj (hitem.symm.trans (item_of_get? hcount))
  obtain rfl : manifest.nShards = nShards := Except.ok.inj hshards
  have hlength : manifest.nShards = (pieces modelId).length := published_nShards vault.crypto
    vault.root vault.passphrase vault.files (pieces modelId) manifest hoffered.published
  have hchunks : chunks.length = (pieces modelId).length := by
    rw [hcounted, hlength, Int.toNat_natCast]
  obtain ⟨hpieces, hasked⟩ := asked_of_fetches hvault hvouched hstr hempty htrusted hunshared hmodel
    (item_of_get? hid) chunks 0 habsent' (hnetwork ▸ hstart.next frame) hlater hfetches
  obtain rfl : chunks = pieces modelId := by
    refine List.ext_getElem? fun k => ?_
    rcases lt_or_ge k chunks.length with hk | hk
    · have hchunk := hpieces k _ (List.getElem?_eq_getElem hk)
      rw [Nat.zero_add] at hchunk
      rw [hchunk, List.getElem?_eq_getElem hk]
    · rw [List.getElem?_eq_none hk, List.getElem?_eq_none (hchunks ▸ hk)]
  refine ⟨?_, opening, w₀, w₁, sessionId, hask, hanswers, htype, hid, hasked, hsame.1, hsame.2.2⟩
  rw [hfiles, Function.update_self]

end Pulls

section Histories

variable {course : Course F} {start : NodeState F} {attack : Attack} {began : List Move}
  {carry : Message F → Message F} {peerIp modelId : String} {frames : List Bytes}

/-- Under the attack each message of the client comes to the server as it is carried. -/
def Carries (course : Course F) (attack : Attack) (peerIp : String)
    (carry : Message F → Message F) : Prop :=
  ∀ kind members tick frame moves, DistinctKeys (.obj members : Json F) →
    sendFrame (toDict (made course.client kind members tick)) = .ok frame →
    ∃ stream, DistinctKeys (carry (made course.client kind members tick)).payload ∧
      sendFrame (toDict (carry (made course.client kind members tick))) = .ok stream ∧
      (attack moves frame).1 = [.handled peerIp stream]

/-- The frames are those of the requests of a pull. -/
def AreAsks (course : Course F) (modelId : String) (frames : List Bytes) : Prop :=
  ∀ i frame, frames[i]? = some frame → sendFrame (toDict (asks course modelId i)) = .ok frame

omit [FloatNumber F] [FloatConversion F] in
theorem distinct_asks (course : Course F) (modelId : String) (i : ℕ) :
    DistinctKeys (asks course modelId i).payload := by
  cases i with
  | zero => exact distinct_openPayload modelId 1000000 3600
  | succ i => exact distinct_shardAsked course.sessionId i

omit [FloatNumber F] [FloatConversion F] in
theorem nonce_asks (course : Course F) (modelId : String) (i : ℕ) :
    (asks course modelId i).nonce = course.nonce i := by
  cases i <;> rfl

theorem carried_asks (hcarries : Carries course attack peerIp carry) {i : ℕ} {frame : Bytes}
    (hsent : sendFrame (toDict (asks course modelId i)) = .ok frame) (moves : List Move) :
    ∃ stream, readMessage course.server stream = .ok (carry (asks course modelId i)).raw ∧
      (attack moves frame).1 = [.handled peerIp stream] := by
  have hkeys := distinct_asks course modelId i
  cases i with
  | zero =>
    obtain ⟨stream, hcarried, hstream, hmoves⟩ := hcarries _ _ _ frame moves hkeys hsent
    exact ⟨stream, readMessage_frame hcarried hstream, hmoves⟩
  | succ i =>
    obtain ⟨stream, hcarried, hstream, hmoves⟩ := hcarries _ _ _ frame moves hkeys hsent
    exact ⟨stream, readMessage_frame hcarried hstream, hmoves⟩

omit [FloatNumber F] [FloatConversion F] in
theorem areAsks_concat {frame : Bytes} (h : AreAsks course modelId (frames ++ [frame])) :
    AreAsks course modelId frames ∧
      sendFrame (toDict (asks course modelId frames.length)) = .ok frame := by
  refine ⟨fun i found hfound => ?_, h _ _ List.getElem?_concat_length⟩
  obtain ⟨hi, -⟩ := List.getElem?_eq_some_iff.mp hfound
  exact h i found ((List.getElem?_append_left hi).trans hfound)

/-- The messages that the client has sent when its requests have been carried. -/
theorem sends_after (hcarries : Carries course attack peerIp carry)
    (hframes : AreAsks course modelId frames) {own : RawMessage F}
    (h : Sends course.server (after attack began frames) own) :
    Sends course.server began own ∨
      ∃ i < frames.length, own = (asks course modelId i).raw := by
  induction frames using List.reverseRecOn with
  | nil => exact Or.inl h
  | append_singleton frames frame ih =>
    obtain ⟨hbefore, hsent⟩ := areAsks_concat hframes
    obtain ⟨stream, -, hmoves⟩ := carried_asks hcarries hsent (after attack began frames)
    obtain ⟨octets, hmem, hread⟩ := h
    rw [after_concat, hmoves, List.mem_append] at hmem
    rcases hmem with hmem | hmem
    · rcases ih hbefore ⟨octets, hmem, hread⟩ with hbegan | ⟨i, hi, hown⟩
      · exact Or.inl hbegan
      · exact Or.inr ⟨i, by rw [List.length_append]; omega, hown⟩
    · obtain rfl : octets = frame := by simpa using hmem
      rw [readMessage_frame (distinct_asks course modelId _) hsent] at hread
      exact Or.inr ⟨frames.length, by simp, (Except.ok.inj hread).symm⟩

/-- The messages that the server has read when the requests have been carried to it. -/
theorem handles_after (hcarries : Carries course attack peerIp carry)
    (hframes : AreAsks course modelId frames) {ip : String} {request : RawMessage F}
    {before : NodeState F}
    (h : Handles course.server start (after attack began frames) ip request before) :
    Handles course.server start began ip request before ∨
      ∃ i < frames.length, request = (carry (asks course modelId i)).raw ∧
        (i = 0 → before = serverAfter course.server start began) := by
  induction frames using List.reverseRecOn with
  | nil => exact Or.inl h
  | append_singleton frames frame ih =>
    obtain ⟨hbefore, hsent⟩ := areAsks_concat hframes
    obtain ⟨stream, hstream, hmoves⟩ := carried_asks hcarries hsent (after attack began frames)
    obtain ⟨earlier, octets, hearlier, hstate, hread⟩ := h
    have hsplit : after attack began (frames ++ [frame]) =
        after attack began frames ++ [.sent frame] ++ [.handled peerIp stream] := by
      rw [after_concat, hmoves, List.append_assoc]
      rfl
    rw [hsplit, List.prefix_concat_iff, List.prefix_concat_iff] at hearlier
    rcases hearlier with hlast | hlast | hearlier
    · obtain ⟨rfl, hhandled⟩ := List.append_inj' hlast rfl
      obtain ⟨rfl, rfl⟩ := Move.handled.inj (List.cons.inj hhandled).1
      refine Or.inr ⟨frames.length, by simp, Except.ok.inj (hread.symm.trans hstream),
        fun hzero => ?_⟩
      obtain rfl := List.length_eq_zero_iff.mp hzero
      rw [hstate, serverAfter_sent]
      rfl
    · obtain ⟨-, hother⟩ := List.append_inj' hlast rfl
      cases (List.cons.inj hother).1
    · rcases ih hbefore ⟨earlier, octets, hearlier, hstate, hread⟩ with hbegan | ⟨i, hi, hrest⟩
      · exact Or.inl hbegan
      · exact Or.inr ⟨i, by rw [List.length_append]; omega, hrest⟩

/-- The session of the pull is the only one that its requests open. -/
theorem opened_after (hcarries : Carries course attack peerIp carry)
    (hframes : AreAsks course modelId frames)
    (htypes : ∀ message, (carry message).type = message.type) {session : Session}
    (h : OpenedBy course.server start (after attack began frames) session) :
    OpenedBy course.server start began session ∨ Opens course.server
      (carry (asks course modelId 0)) (serverAfter course.server start began) session := by
  obtain ⟨ip, message, before, hhandles, hopens⟩ := h
  rcases handles_after hcarries hframes hhandles with hbegan | ⟨i, -, hsame, hfirst⟩
  · exact Or.inl ⟨ip, message, before, hbegan, hopens⟩
  · obtain rfl := raw_injective hsame
    cases i with
    | zero => exact Or.inr (hfirst rfl ▸ hopens)
    | succ i =>
      have htype := hopens.1.type
      rw [htypes] at htype
      exact absurd (show "REQUEST_SHARD" = "SESSION_OPEN" from htype) (by decide)

/-- When the requests of a pull have been carried, its nonces and its session are its own. -/
theorem trusted_of_carries (hcarries : Carries course attack peerIp carry)
    (hframes : AreAsks course modelId frames)
    (htypes : ∀ message, (carry message).type = message.type)
    (hauthentic : ∀ moves frame, Reached attack began moves →
      Authentic course.client course.server start (watched attack frame moves).2
        (watched attack frame moves).1)
    (hsilent : ∀ own, ¬ Sends course.server began own)
    (hdistinct : ∀ i < frames.length, ∀ j < frames.length, course.nonce i = course.nonce j → i = j)
    (hbegan : ∀ first other, OpenedBy course.server start began first →
      OpenedBy course.server start began other → first = other)
    (hnew : ∀ first other, OpenedBy course.server start began first → Opens course.server
      (carry (asks course modelId 0)) (serverAfter course.server start began) other →
        first.sessionId ≠ other.sessionId) :
    Trusted course.client course.server start attack began (after attack began frames) where
  authentic moves frame hreached _ := hauthentic moves frame hreached
  nonces := by
    intro own other hown hother hnonce
    obtain ⟨i, hi, rfl⟩ := (sends_after hcarries hframes hown).resolve_left (hsilent own)
    obtain ⟨j, hj, rfl⟩ := (sends_after hcarries hframes hother).resolve_left (hsilent other)
    have hsame : (asks course modelId i).nonce = (asks course modelId j).nonce :=
      Json.str.inj hnonce
    rw [nonce_asks, nonce_asks] at hsame
    rw [hdistinct i hi j hj hsame]
  sessions := by
    intro first other hfirst hother hid
    rcases opened_after hcarries hframes htypes hfirst with hfirst | hfirst
    · rcases opened_after hcarries hframes htypes hother with hother | hother
      · exact hbegan first other hfirst hother
      · exact absurd hid (hnew first other hfirst hother)
    · rcases opened_after hcarries hframes htypes hother with hother | hother
      · exact absurd hid.symm (hnew other first hother hfirst)
      · exact accepts_unique hfirst.2 hother.2

end Histories

section Relaying

variable {course : Course F} {attacker : Node F} {start : NodeState F} {granted peerIp : String}

theorem carries_relaying
    (hgranted : ∀ tick,
      Short course.client "SESSION_OPEN" (openPayload granted 1000000 3600) tick) :
    Carries course (relaying course.server attacker start granted peerIp) peerIp
      (relay attacker granted) := by
  intro kind members tick frame moves hkeys hsent
  obtain ⟨stream, hrelayed, hstream⟩ := relayed_made course.server attacker hgranted hkeys hsent
  have hpayload : DistinctKeys (made course.client kind members tick).payload := hkeys
  refine ⟨stream, distinct_exchanged hpayload, hstream, ?_⟩
  rw [relaying, hrelayed]

end Relaying

section Forwarding

variable {client server : Node F} {start : NodeState F} {peerIp : String} {vault : Vault}
  {pieces : String → List Bytes} {began moves : List Move}

/-- What the client sends is passed on, and so is what the server sends. -/
def forwarding (server : Node F) (start : NodeState F) (peerIp : String) : Attack :=
  fun moves frame => ([.handled peerIp frame], .ok (server.handleConnection peerIp frame
    (serverAfter server start (moves ++ [.sent frame]))).sent.flatten)

theorem brings_forwarding : Brings client server peerIp (fun message => message)
    (serverAfter server start) (watched (forwarding server start peerIp)) := by
  intro kind members tick frame moves hkeys hsent
  have hpayload : DistinctKeys (made client kind members tick).payload := hkeys
  have hhandled : ∀ s, server.handleConnection peerIp frame s =
      server.handleMessage peerIp (made client kind members tick) s :=
    fun s => handleConnection_frame hpayload hsent
  rw [watched, forwarding, serverAfter_sent, hhandled]
  refine ⟨rfl, ?_⟩
  rw [serverAfter_handled, hhandled]

theorem carries_forwarding {course : Course F} : Carries course
    (forwarding course.server start peerIp) peerIp (fun message => message) :=
  fun _ _ _ frame _ hkeys hsent => ⟨frame, hkeys, hsent, rfl⟩

/-- All that the server is sent has been sent by the client, but for what came before. -/
theorem sent_of_handled (hreached : Reached (forwarding server start peerIp) began moves)
    {ip : String} {stream : Bytes} (h : .handled ip stream ∈ moves) :
    .handled ip stream ∈ began ∨ .sent stream ∈ moves := by
  obtain ⟨frames, rfl⟩ := hreached
  induction frames using List.reverseRecOn with
  | nil => exact Or.inl h
  | append_singleton frames frame ih =>
    rw [after_concat, List.mem_append] at h
    rcases h with h | h
    · refine (ih h).imp_right fun hsent => ?_
      rw [after_concat]
      exact List.mem_append_left _ hsent
    · obtain ⟨rfl, rfl⟩ : ip = peerIp ∧ stream = frame := by simpa [forwarding] using h
      rw [after_concat]
      exact Or.inr (List.mem_append_right _ List.mem_cons_self)

/-- Nobody makes a signature when messages are passed on. -/
theorem authentic_forwarding (hvault : server.vault = some vault)
    (hvouched : Vouched F vault pieces)
    (hbegan : ∀ ip stream request, .handled ip stream ∈ began →
      readMessage server stream = .ok request → request.sender ≠ .str client.pub)
    (hreached : Reached (forwarding server start peerIp) began moves) (frame : Bytes) :
    Authentic client server start (watched (forwarding server start peerIp) frame moves).2
      (watched (forwarding server start peerIp) frame moves).1 where
  answered := by
    intro stream response hanswer hread _ _
    obtain rfl := Except.ok.inj hanswer
    cases hrequest : readMessage server frame with
    | error e =>
      rw [handleConnection_unread hrequest] at hread
      exact absurd hread (readMessage_nil response)
    | ok request =>
      rw [handleConnection_read hrequest] at hread
      obtain ⟨reply, hreply, rfl⟩ :=
        read_answer hvault hvouched (distinct_nonce (distinct_readMessage hrequest)) hread
      have hearlier : moves ++ [.sent frame] ++ [.handled peerIp frame] <+:
          moves ++ [.sent frame, .handled peerIp frame] := by
        rw [List.append_assoc]
        exact List.prefix_rfl
      have hhandles : Handles server start (moves ++ [.sent frame, .handled peerIp frame]) peerIp
          request (serverAfter server start (moves ++ [.sent frame])) :=
        ⟨moves ++ [.sent frame], frame, hearlier, rfl, hrequest⟩
      exact ⟨peerIp, request, _, reply, hhandles, hreply, rfl⟩
  asked := by
    intro ip request before hhandles hsender _
    obtain ⟨earlier, stream, hearlier, -, hread⟩ := hhandles
    have hlast : .handled ip stream ∈ earlier ++ [.handled ip stream] := by simp
    rcases sent_of_handled (hreached.next frame) (hearlier.subset hlast) with hmem | hmem
    · exact absurd hsender (hbegan ip stream request hmem hread)
    · exact ⟨request, ⟨stream, hmem, hread⟩, rfl⟩

end Forwarding

section Samples

open Blocks
open JsonStrings (WholeFloat)
open VaultRuns HostRules MessageSizes DirectPulls
open TelepathAnswers (sampleNode)
open ServedSessions (accept_new)
open EditedVaults (otherAddFile sampleVault_left)

def twinCalls : List (VaultCall WholeFloat × ℕ) := sampleBefore ++ [sampleAdd, otherAddFile]

/-- A vault with two models. -/
def twinVault : Vault := ⟨Crypto.sample, ["vault"], passphrase sampleEnv,
  (runCalls Crypto.sample ["vault"] sampleEnv Host.empty twinCalls).files, fun _ => none,
    fun _ => false⟩

theorem twin_distinct : Distinct sampleEnv
    (runCalls Crypto.sample ["vault"] sampleEnv Host.empty twinCalls).tick := by
  have htick : (runCalls Crypto.sample ["vault"] sampleEnv Host.empty twinCalls).tick = 68 :=
    sampleVault_left.1.2.2
  exact distinct_sample _ _ _ _ (htick.le.trans (by decide))

theorem otherAdd_returned : ∃ manifest, (runCall Crypto.sample ["vault"] sampleEnv
    otherAddFile (runCalls Crypto.sample ["vault"] sampleEnv Host.empty
      (sampleBefore ++ [sampleAdd]))).1 = some (.ok (some manifest)) := by
  have hreturned : (returned (runCall Crypto.sample ["vault"] sampleEnv otherAddFile
      (runCalls Crypto.sample ["vault"] sampleEnv Host.empty
        (sampleBefore ++ [sampleAdd]))).1).isSome = true := by
    decide +kernel
  obtain ⟨manifest, hsome⟩ := Option.isSome_iff_exists.mp hreturned
  exact ⟨manifest, eq_of_returned hsome⟩

/-- The vault has a model with some shards. -/
def Keeps (modelId : String) (shards : List Bytes) : Prop :=
  ∃ (manifest : ModelManifest WholeFloat) (id : Bytes), manifest.modelId = modelId ∧
    manifest.sizeBytes = shards.flatten.length ∧ Offered twinVault shards manifest id

theorem keeps_added (before after : List (VaultCall WholeFloat × ℕ)) {size : ℕ}
    {positive : 0 < size} {call : AddFile WholeFloat} {budget : ℕ}
    (hcalls : before ++ (.add size positive call, budget) :: after = twinCalls)
    (hreturned : ∃ manifest, (runCall Crypto.sample ["vault"] sampleEnv
      (.add size positive call, budget) (runCalls Crypto.sample ["vault"] sampleEnv Host.empty
        before)).1 = some (.ok (some manifest))) :
    Keeps call.modelId (blocks size call.content) := by
  obtain ⟨manifest, hreturned⟩ := hreturned
  have hdistinct := twin_distinct
  rw [← hcalls] at hdistinct
  obtain ⟨hbuilt, id, hoffered⟩ := offered_of_added (fun _ _ => rfl)
    (fun tick => ⟨octets 16 tick, rfl⟩) before after hdistinct hreturned
  rw [hcalls] at hoffered
  exact ⟨manifest, id, (modelId_built hbuilt).1, size_published hoffered.published hbuilt, hoffered⟩

theorem keeps_first : Keeps "m" [[1, 2], [3]] :=
  keeps_added sampleBefore [otherAddFile] rfl sampleAdd_returned

theorem keeps_second : Keeps "n" [[4, 5]] :=
  keeps_added (sampleBefore ++ [sampleAdd]) [] rfl otherAdd_returned

theorem twin_readable : twinVault.Readable := ⟨fun _ => rfl, fun _ _ _ => rfl⟩

theorem twin_vouched : ∃ pieces, Vouched WholeFloat twinVault pieces ∧
    pieces "m" = [[1, 2], [3]] ∧ pieces "n" = [[4, 5]] := by
  have hempty : ∀ path, ["vault"] <+: path → Host.empty.files path = none := fun _ _ => rfl
  have hsound : Sound Crypto.sample ["vault"] sampleEnv Host.empty :=
    sound_empty Crypto.sample Host.empty hempty
  obtain ⟨pieces, hvouched⟩ := vouched_of_labelled
    (sound_runCalls Crypto.sample twinCalls Host.empty twin_distinct hsound).1
    (allLabelled_runCalls twinCalls twin_distinct hsound (allLabelled_empty _ hempty))
    (fun tick => ⟨octets 16 tick, rfl⟩)
  have hpieces : ∀ {modelId shards}, Keeps modelId shards → pieces modelId = shards := by
    rintro modelId shards ⟨manifest, id, rfl, -, hoffered⟩
    exact pieces_vouched hvouched RawManifests.sampleStr_int ⟨0⟩ twin_readable hoffered
  exact ⟨pieces, hvouched, hpieces keeps_first, hpieces keeps_second⟩

def twinServer : Node WholeFloat := stockedServer twinVault

/-- Each of two keys may read one of the models. -/
def sharedState : NodeState WholeFloat :=
  ⟨some ⟨(Dict.empty.set "m" [sampleNode.pub]).set "n" [samplePeer.pub]⟩, SessionRegistry.new,
    NonceCache.new, Dict.empty, Dict.empty, 0⟩

theorem allowed_of_listed {acl : ACL} {modelId key : String} (h : acl.listed modelId = [key]) :
    acl.isAllowed modelId key = true := by
  rw [ACL.isAllowed, h, Bool.or_eq_true]
  exact Or.inr (by simp)

theorem shared_allows : sharedState.allows "m" sampleNode.pub = true ∧
    sharedState.allows "n" samplePeer.pub = true := by
  have hfirst : (⟨(Dict.empty.set "m" [sampleNode.pub]).set "n" [samplePeer.pub]⟩ : ACL).listed
      "m" = [sampleNode.pub] := by
    rw [ACL.listed, Dict.get?_set, if_neg (by decide), Dict.get?_set, if_pos rfl]
    rfl
  have hsecond : (⟨(Dict.empty.set "m" [sampleNode.pub]).set "n" [samplePeer.pub]⟩ : ACL).listed
      "n" = [samplePeer.pub] := by
    rw [ACL.listed, Dict.get?_set, if_pos rfl]
    rfl
  exact ⟨allowed_of_listed hfirst, allowed_of_listed hsecond⟩

theorem twin_paired : Paired (stockedCourse twinVault) twinVault :=
  stocked_paired twin_readable rfl

theorem peer_ne_client : samplePeer.pub ≠ sampleNode.pub := by
  intro h
  have hkeys := octets_inj (by decide) (by decide) (by decide) (hex_injective h)
  exact absurd hkeys (by decide)

theorem short_opening (modelId : String) (hmodel : modelId.length ≤ 512) (tick : ℕ) :
    Short sampleNode "SESSION_OPEN" (openPayload modelId 1000000 3600) tick ∧
      Short samplePeer "SESSION_OPEN" (openPayload modelId 1000000 3600) tick := by
  have hname := length_dumpString_le modelId
  have htext : (FloatText.text (⟨0⟩ : WholeFloat)).length ≤ 32 := by decide
  have hclient : (FloatText.text (sampleNode.stamp tick)).length ≤ 32 := htext
  have hpeer : (FloatText.text (samplePeer.stamp tick)).length ≤ 32 := htext
  rw [Short, Short, length_opening, length_opening, MAX_FRAME]
  omega

/-- The server has been sent nothing when nothing has happened. -/
theorem not_handles_nil {server : Node WholeFloat} {start before : NodeState WholeFloat}
    {ip : String} {request : RawMessage WholeFloat} :
    ¬ Handles server start [] ip request before := by
  rintro ⟨earlier, stream, hearlier, -⟩
  simp at hearlier

section Mixed

/-- The client asks for one model, and the server is asked for the other one. -/
def mixedCourse : Course WholeFloat :=
  ⟨sampleNode, twinServer, samplePeer.pub, 0, 0, NonceCache.new⟩

def mixing : Attack := relaying twinServer samplePeer sharedState "n" "ip"

def mixedWorld : World (List Move) WholeFloat := sampleWorld twinServer.pub []

theorem mixed_begins : Begins mixedCourse (serverAfter twinServer sharedState) "m" "n"
    mixedWorld where
  made := rfl
  known := sampleWorld_known _ _
  cache := PoisonedPulls.undamaged_of_reachable sampleNode (PoisonedPulls.Reachable.start rfl)
  absent := fun _ => rfl
  began := rfl
  nonces := rfl
  allowed := shared_allows.2
  sessions := by decide

theorem mixed_fresh : Fresh mixedCourse 2 := fresh_sample (by decide) (fun _ => rfl)

theorem mixed_carried : Carried mixedCourse "n" [[4, 5]] where
  taken i hi := takes_of_fresh mixed_fresh i (hi.trans (by decide))
  count := by decide
  sent := by
    intro i piece hpiece
    cases i with
    | zero =>
      obtain rfl := Option.some.inj hpiece
      decide +kernel
    | succ i => cases hpiece

theorem mixed_trusted {pieces : String → List Bytes} {frames : List Bytes}
    (hvouched : Vouched WholeFloat twinVault pieces) (hframes : AreAsks mixedCourse "m" frames)
    (hlength : frames.length = 2) :
    Trusted sampleNode twinServer sharedState mixing [] (after mixing [] frames) := by
  have hopened : ∀ session, ¬ OpenedBy twinServer sharedState [] session :=
    fun _ ⟨_, _, _, hhandles, _⟩ => not_handles_nil hhandles
  refine trusted_of_carries (carries_relaying (fun tick => (short_opening "n" (by decide) tick).1))
    hframes (fun _ => rfl) ?_ (fun _ ⟨_, hmem, _⟩ => by cases hmem) ?_
    (fun first _ hfirst => absurd hfirst (hopened first))
    (fun first _ hfirst => absurd hfirst (hopened first))
  · rintro moves frame ⟨before, rfl⟩
    exact authentic_relaying rfl hvouched peer_ne_client (allAnew_history before) frame
  · intro i hi j hj
    exact mixed_fresh.distinct i (by omega) j (by omega)

/-- The client is given the file of the other model, although nobody has made a signature of the two
nodes. -/
theorem pull_mixed : ∃ pieces result w', Vouched WholeFloat twinVault pieces ∧
    pieces "m" = [[1, 2], [3]] ∧
    pullModel sampleNode (watched mixing) sampleMachine twinServer.pub "m" ["d"] mixedWorld =
      (.ok result, w') ∧
    Trusted sampleNode twinServer sharedState mixing [] w'.network ∧
    w'.files (targetFile ["d"] "m") = some [4, 5] := by
  obtain ⟨pieces, hvouched, hfirst, hsecond⟩ := twin_vouched
  obtain ⟨manifest, id, hmodel, hsize, hoffered⟩ := keeps_second
  have hpieces : pieces manifest.modelId = [[4, 5]] := by rw [hmodel, hsecond]
  have hposed : Posed mixedCourse samplePeer twinVault pieces manifest id := {
    vouched := hvouched
    stocked := hpieces.symm ▸ twin_paired.stocked rfl hoffered
    sender := rfl
    other := peer_ne_client
    ed := rfl
    attackerEd := rfl
    sha := rfl
    logs := fun _ hlog => by cases hlog
    short := fun tick => hmodel ▸ (short_opening "n" (by decide) tick).1 }
  have hconnected := hposed.connected sharedState "ip" "m"
  rw [hpieces, hmodel] at hconnected
  have hbegins : Begins mixedCourse (serverAfter twinServer sharedState) "m" manifest.modelId
    mixedWorld := hmodel ▸ mixed_begins
  have hmkdir : sampleMachine.mkdir (targetDirectory ["d"] "m") = .ok () := rfl
  obtain ⟨hreturns, hfile⟩ := pull_carried hconnected hbegins (inTime_sample 1) (fun _ => rfl)
    ["d"] hmkdir
  have hcarried : Carried mixedCourse manifest.modelId [[4, 5]] := hmodel ▸ mixed_carried
  have hid : manifest.modelId.length ≤ 512 := by
    rw [hmodel]
    decide
  have hclient : Brief mixedCourse.client := twin_paired.brief
  have hserver : Brief mixedCourse.server := twin_paired.serverBrief
  have hcompletes : mixedCourse.Completes "m" twinVault.crypto.sha [[4, 5]] manifest :=
    (completes_iff hoffered hclient hserver hid hsize "m" (by decide)).mpr hcarried
  obtain ⟨result, w', hpull⟩ := hreturns.mpr hcompletes
  obtain ⟨frames, hlength, hnetwork, hframes⟩ :=
    pull_asks hconnected hbegins (inTime_sample 1) hpull
  refine ⟨pieces, result, w', hvouched, hfirst, hpull, ?_, hfile result w' hpull⟩
  rw [hnetwork]
  exact mixed_trusted hvouched hframes hlength

end Mixed

section Honest

/-- Somebody whose key may read the other model asks for it. -/
def peerCourse : Course WholeFloat :=
  ⟨samplePeer, twinServer, samplePeer.pub, 7, 0, NonceCache.new⟩

def peerRequest : Message WholeFloat :=
  made samplePeer "SESSION_OPEN" (openPayload "n" 1000000 3600) 7

def peerBegan : List Move := [.handled "peer" (frameOf peerRequest)]

theorem peer_sent : sendFrame (toDict peerRequest) = .ok (frameOf peerRequest) :=
  sendFrame_made _ _ _ (short_opening "n" (by decide) 7).2

theorem peer_read : readMessage twinServer (frameOf peerRequest) = .ok peerRequest.raw :=
  readMessage_frame (distinct_openPayload "n" 1000000 3600) peer_sent

/-- It has a session then. -/
theorem peer_stands :
    Stands peerCourse "n" 0 (serverAfter twinServer sharedState peerBegan) := by
  obtain ⟨manifest, id, hmodel, -, hoffered⟩ := keeps_second
  have htimely : peerCourse.Timely 0 := ⟨RelayedPulls.sample_inWindow, RelayedPulls.sample_inWindow⟩
  have hstocked : Stocked peerCourse twinVault [[4, 5]] manifest id :=
    twin_paired.stocked rfl hoffered
  have hcomes : Comes peerCourse peerRequest 0 "SESSION_OPEN"
      (openPayload manifest.modelId 1000000 3600) := by
    have hcourier : Courier peerCourse.client peerCourse.server (fun message => message)
        peerCourse.sender "n" "n" := courier_direct "n" rfl
    rw [hmodel]
    exact ⟨rfl, rfl, rfl, rfl, hcourier.verified _ _ _ _ htimely.asked⟩
  have htick : sharedState.tick = peerCourse.serving 0 := rfl
  have hnonces : sharedState.nonces = peerCourse.nonces := rfl
  have hallowed : sharedState.allows manifest.modelId peerCourse.sender = true := by
    rw [hmodel]
    exact shared_allows.2
  have hmax : 1 ≤ sharedState.sessions.maxSessions := by decide
  have htakes : peerCourse.Takes 0 := congrArg Prod.fst (accept_new _)
  obtain ⟨s', hrespond, hstands⟩ := respond_opening "peer" hstocked hcomes htick hnonces hallowed
    hmax htakes
  have hstate : (twinServer.handleMessage "peer" peerRequest sharedState).state = s' :=
    (handled_answer hrespond).2
  rw [peerBegan, serverAfter_single, handleConnection_frame
    (distinct_openPayload "n" 1000000 3600) peer_sent, hstate, ← hmodel]
  exact hstands

/-- The client asks for its model afterwards. -/
def honestCourse : Course WholeFloat :=
  ⟨sampleNode, twinServer, sampleNode.pub, 0, 5, peerCourse.table 1⟩

def honestWorld : World (List Move) WholeFloat := sampleWorld twinServer.pub peerBegan

theorem honest_table : peerCourse.table 1 =
    NonceCache.new.remember WholeFloat (samplePeer.pub, peerCourse.nonce 0) 0 :=
  congrArg Prod.snd (accept_new _)

theorem honest_fresh : Fresh honestCourse 2 := by
  refine fresh_sample ?_ fun nonce => ?_
  · have hsize := Dict.size_set_le NonceCache.new.seen (samplePeer.pub, peerCourse.nonce 0)
      (FloatTime.sum WholeFloat 0 NonceCache.new.ttl)
    have hroom : NonceCache.new.seen.size + 1 + 2 < NonceCache.new.maxEntries := by decide
    rw [honest_table, NonceCache.remember]
    exact lt_of_le_of_lt (Nat.add_le_add_right hsize 2) hroom
  · have hother : (sampleNode.pub, nonce) ≠ (samplePeer.pub, peerCourse.nonce 0) :=
      fun h => peer_ne_client (congrArg Prod.fst h).symm
    rw [honest_table, NonceCache.remember, Dict.get?_set, if_neg hother]
    rfl

theorem honest_begins : Begins honestCourse (serverAfter twinServer sharedState) "m" "m"
    honestWorld := by
  have hkept : (serverAfter twinServer sharedState peerBegan).acl = sharedState.acl ∧
      (serverAfter twinServer sharedState peerBegan).sessions.maxSessions =
        sharedState.sessions.maxSessions := by
    rw [peerBegan, serverAfter_single, handleConnection_read peer_read, Node.handleRaw_state]
    exact kept_respondRaw _ _ _ _
  have hnetwork : honestWorld.network = peerBegan := rfl
  refine ⟨rfl, sampleWorld_known _ _, PoisonedPulls.undamaged_of_reachable sampleNode
    (PoisonedPulls.Reachable.start rfl), fun _ => rfl, ?_, ?_, ?_, ?_⟩
  · rw [hnetwork]
    exact peer_stands.tick
  · rw [hnetwork]
    exact peer_stands.nonces
  · rw [hnetwork, NodeState.allows, hkept.1]
    exact shared_allows.1
  · rw [hnetwork, hkept.2]
    decide

theorem honest_carried : Carried honestCourse "m" [[1, 2], [3]] where
  taken := takes_of_fresh honest_fresh
  count := by decide
  sent := by
    intro i piece hpiece
    rcases i with _ | _ | i
    · obtain rfl := Option.some.inj hpiece
      decide +kernel
    · obtain rfl := Option.some.inj hpiece
      decide +kernel
    · cases hpiece

def passing : Attack := forwarding twinServer sharedState "ip"

theorem peer_handles {ip : String} {request : RawMessage WholeFloat}
    {before : NodeState WholeFloat}
    (h : Handles twinServer sharedState peerBegan ip request before) :
    request = peerRequest.raw ∧ before = sharedState := by
  obtain ⟨earlier, stream, hearlier, hstate, hread⟩ := h
  have hsplit : peerBegan = [] ++ [.handled "peer" (frameOf peerRequest)] := rfl
  rw [hsplit, List.prefix_concat_iff] at hearlier
  rcases hearlier with hlast | hnil
  · obtain ⟨rfl, hhandled⟩ := List.append_inj' hlast rfl
    obtain ⟨-, rfl⟩ := Move.handled.inj (List.cons.inj hhandled).1
    exact ⟨Except.ok.inj (hread.symm.trans peer_read), hstate⟩
  · simp at hnil

theorem peer_silent (own : RawMessage WholeFloat) : ¬ Sends twinServer peerBegan own := by
  rintro ⟨frame, hmem, -⟩
  simp [peerBegan] at hmem

theorem peer_opened {session : Session} (h : OpenedBy twinServer sharedState peerBegan session) :
    Opens twinServer peerRequest sharedState session := by
  obtain ⟨ip, message, before, hhandles, hopens⟩ := h
  obtain ⟨hsame, rfl⟩ := peer_handles hhandles
  exact raw_injective hsame ▸ hopens

variable {pieces : String → List Bytes} {frames : List Bytes}

theorem honest_trusted (hvouched : Vouched WholeFloat twinVault pieces)
    (hframes : AreAsks honestCourse "m" frames) (hlength : frames.length = 3) :
    Trusted sampleNode twinServer sharedState passing peerBegan
      (after passing peerBegan frames) := by
  refine trusted_of_carries carries_forwarding hframes (fun _ => rfl) ?_ peer_silent ?_ ?_ ?_
  · intro moves frame hreached
    refine authentic_forwarding rfl hvouched (fun ip stream request hmem hread => ?_) hreached frame
    obtain ⟨rfl, rfl⟩ : ip = "peer" ∧ stream = frameOf peerRequest := by
      simpa [peerBegan] using hmem
    rw [← Except.ok.inj (peer_read.symm.trans hread)]
    exact fun hsender => peer_ne_client (Json.str.inj hsender)
  · intro i hi j hj
    exact honest_fresh.distinct i (by omega) j (by omega)
  · intro first other hfirst hother
    exact accepts_unique (peer_opened hfirst).2 (peer_opened hother).2
  · intro first other hfirst hother hid
    have htick : (serverAfter honestCourse.server sharedState peerBegan).tick = 5 :=
      peer_stands.tick
    rw [sessionId_of_opens (peer_opened hfirst), sessionId_of_opens hother, htick] at hid
    have hticks := octets_inj (by decide) (by decide) (by decide) (hex_injective hid)
    exact absurd hticks (by decide)

theorem honest_unshared (hframes : AreAsks honestCourse "m" frames) (hlength : frames.length = 3) :
    Unshared sampleNode twinServer sharedState (after passing peerBegan frames) := by
  intro ip request before own hhandles _ hsends hnonce _
  have hcarries : Carries honestCourse passing "ip" (fun message => message) := carries_forwarding
  rcases handles_after hcarries hframes hhandles with hbegan | ⟨i, -, rfl, -⟩
  · obtain ⟨rfl, -⟩ := peer_handles hbegan
    obtain ⟨i, hi, rfl⟩ := (sends_after hcarries hframes hsends).resolve_left (peer_silent own)
    have hsame : peerRequest.nonce = (asks honestCourse "m" i).nonce := Json.str.inj hnonce
    rw [nonce_asks] at hsame
    have hticks : 7 = 0 + 2 * i :=
      octets_inj (by decide) (by decide) (by omega) (hex_injective hsame)
    omega
  · cases i <;> rfl

/-- The client is given the file of its model, while somebody else has a session for the other
one. -/
theorem pull_answered_sample : ∃ pieces result w', Vouched WholeFloat twinVault pieces ∧
    pieces "m" = [[1, 2], [3]] ∧
    (serverAfter twinServer sharedState peerBegan).sessions.sessions.get? peerCourse.sessionId =
      some (peerCourse.session "n" 0) ∧
    pullModel sampleNode (watched passing) sampleMachine twinServer.pub "m" ["d"] honestWorld =
      (.ok result, w') ∧
    w'.files (targetFile ["d"] "m") = some [1, 2, 3] ∧
    ∃ opening w₀ w₁ sessionId,
      ask sampleNode (watched passing) twinServer.pub "SESSION_OPEN"
        (openPayload "m" 1000000 3600) honestWorld = (.ok opening, w₀) ∧
      AnswersOwn twinServer sharedState w'.network
        (made sampleNode "SESSION_OPEN" (openPayload "m" 1000000 3600) 0) opening ∧
      Asked sampleNode twinServer sharedState passing w'.network "m" sessionId 0 [[1, 2], [3]]
        w₀ w₁ := by
  obtain ⟨pieces, hvouched, hpieces, -⟩ := twin_vouched
  obtain ⟨manifest, id, hmodel, hsize, hoffered⟩ := keeps_first
  have hpaired : Paired honestCourse twinVault := { twin_paired with }
  have hconnected : Connected honestCourse (watched passing) (serverAfter twinServer sharedState)
      (fun message => message) "ip" "m" twinVault [[1, 2], [3]] manifest id :=
    hmodel ▸ hpaired.connected hoffered brings_forwarding
  have hbegins : Begins honestCourse (serverAfter twinServer sharedState) "m" manifest.modelId
    honestWorld := hmodel ▸ honest_begins
  have hmkdir : sampleMachine.mkdir (targetDirectory ["d"] "m") = .ok () := rfl
  obtain ⟨hreturns, -⟩ := pull_carried hconnected hbegins (inTime_sample 2) (fun _ => rfl) ["d"]
    hmkdir
  have hcarried : Carried honestCourse manifest.modelId [[1, 2], [3]] := hmodel ▸ honest_carried
  have hid : manifest.modelId.length ≤ 512 := by
    rw [hmodel]
    decide
  have hcompletes : honestCourse.Completes "m" twinVault.crypto.sha [[1, 2], [3]] manifest :=
    (completes_iff hoffered hpaired.brief hpaired.serverBrief hid hsize "m" (by decide)).mpr
      hcarried
  obtain ⟨result, w', hpull⟩ := hreturns.mpr hcompletes
  obtain ⟨frames, hlength, hnetwork, hframes⟩ :=
    pull_asks hconnected hbegins (inTime_sample 2) hpull
  have htrusted := hnetwork.symm ▸ honest_trusted hvouched hframes hlength
  have hunshared := hnetwork.symm ▸ honest_unshared hframes hlength
  obtain ⟨hfile, opening, w₀, w₁, sessionId, hask, hanswers, -, -, hasked, -⟩ :=
    pull_answered (w := honestWorld) sampleMachine rfl hvouched RawManifests.sampleStr_int rfl
      (fun _ => rfl) htrusted hunshared hpull
  rw [hpieces] at hfile hasked
  exact ⟨pieces, result, w', hvouched, hpieces, peer_stands.session, hpull, hfile, opening, w₀, w₁,
    sessionId, hask, hanswers, hasked⟩

end Honest

end Samples

end Decillion.AnsweredPulls
