import Decillion.PoisonedPulls
import Decillion.SessionAnswers

/-!
A pull whose requests are carried to one node. Whoever carries a request may change it, but not
its type or its nonce, so the answer of the node is bound to what the client has sent. The pull
returns exactly when the table of nonces takes every request, no more shards are asked for than
a session may have, and every message is short enough for a frame.
-/
namespace Decillion.CarriedPulls

open ByteText Base64Text JsonValues JsonText JsonRoundTrip Primitives Dictionaries PyErrors
open PyValues HostSystem AccessRequests ShardManifests ShardVault RawManifests ShardCaches
open RaisingPrograms TelepathMessages TelepathSessions TelepathFrames TelepathNodes
open TelepathAnswers TelepathPulls TelepathExchanges TelepathServing PulledFiles PullRuns
open ScriptedPeers ShardCoherence PoisonedPulls VaultReads VaultLabels SessionAnswers
open ManifestPaths (textOf)

variable {σ F : Type} [FloatText F] [FloatTime F] [FloatNumber F] [FloatConversion F]
  {client server : Node F} {network : Network σ} {state : σ → NodeState F}
  {carry : Message F → Message F} {peerIp : String}

/-- What the client sends comes to the server as it is carried, and what the server sends comes
back. -/
def Brings (client server : Node F) (peerIp : String) (carry : Message F → Message F)
    (state : σ → NodeState F) (network : Network σ) : Prop :=
  ∀ kind members tick frame t, DistinctKeys (.obj members : Json F) →
    sendFrame (toDict (made client kind members tick)) = .ok frame →
    (network frame t).1 = .ok (server.handleMessage peerIp (carry (made client kind members tick))
      (state t)).sent.flatten ∧
    state (network frame t).2 = (server.handleMessage peerIp
      (carry (made client kind members tick)) (state t)).state

theorem brings_direct : Brings client server peerIp id id (direct server peerIp) := by
  intro kind members tick frame t hkeys hsent
  have hhandled : server.handleConnection peerIp frame t =
      server.handleMessage peerIp (made client kind members tick) t :=
    handleConnection_frame hkeys hsent
  rw [direct, hhandled]
  exact ⟨rfl, rfl⟩

section Asking

variable {kind nonce : String} {payload : Members F} {tick : ℕ} {s' : NodeState F}
  {w w' : World σ F} {asked : String} {members : Members F} {response : RawMessage F}

/-- The server sends its answer, or nothing. -/
theorem handled_answer {message : Message F} {s : NodeState F}
    (hrespond : server.respond peerIp message s =
      (.ok (answerTo server nonce kind payload tick), s')) :
    (server.handleMessage peerIp message s).sent.flatten =
        (if Fits server nonce kind payload tick then
          frameOf (answerTo server nonce kind payload tick) else []) ∧
      (server.handleMessage peerIp message s).state = s' := by
  rw [Node.handleMessage_ok hrespond]
  by_cases hfits : Fits server nonce kind payload tick
  · rw [sendReply_answerTo hfits, if_pos hfits]
    simp [Node.finish]
  · obtain ⟨e, hunsent⟩ := sendReply_of_not_fits hfits
    rw [hunsent, if_neg hfits]
    simp [Node.finish]

theorem ask_eq {peer : String} (hknown : (w.client.peers.get? peer).isSome = true) :
    ask client network peer asked members w =
      request client network (made client asked members w.client.tick) (some peer)
        { w with client := w.client.next } := by
  have hknows : knownPeer peer w = (.ok (), w) := by
    rw [knownPeer, bind_get, Option.isNone_eq_false_iff.mpr hknown]
    rfl
  have hreply : onClient (client.reply asked members) w =
      (.ok (made client asked members w.client.tick), { w with client := w.client.next }) := rfl
  rw [ask, bind_ok hknows, bind_ok hreply]

omit [FloatNumber F] [FloatConversion F] in
theorem sendFrame_long (hlong : ¬ Short client asked members tick) :
    ∃ e, sendFrame (toDict (made client asked members tick)) = .error e := by
  have hsigned := dump_signed asked (client.ed.publicKey client.key) (client.uuid tick)
    (client.ed.sign client.key (canonical (Message.unsigned ⟨asked,
      hex (client.ed.publicKey client.key), hex (client.uuid tick), client.stamp tick,
      .obj members, ""⟩))) (client.stamp tick) (.obj members) client.key_length
    (client.uuid_length tick) (client.signature_length _)
  rw [Short, ← hsigned] at hlong
  exact ⟨_, (sendFrame_eq _).trans (if_neg hlong)⟩

/-- A request is answered when it and its answer are short enough. -/
theorem ask_carried {s : NodeState F}
    (hbrings : Brings client server peerIp carry state network)
    (hknown : (w.client.peers.get? server.pub).isSome = true)
    (hkeys : DistinctKeys (.obj members)) (hpayload : DistinctKeys (.obj payload))
    (hrespond : server.respond peerIp (carry (made client asked members w.client.tick))
      (state w.network) =
        (.ok (answerTo server (hex (client.uuid w.client.tick)) kind payload tick), s))
    (hverify : (verify client.ed (client.clock (w.client.tick + 1))
      (answerTo server (hex (client.uuid w.client.tick)) kind payload tick)).1 = true)
    (hshort : Short client asked members w.client.tick)
    (hfits : Fits server (hex (client.uuid w.client.tick)) kind payload tick) :
    ∃ t, state t = s ∧ ask client network server.pub asked members w =
      (.ok (answerTo server (hex (client.uuid w.client.tick)) kind payload tick).raw,
        { w with client := w.client.next.next, network := t }) := by
  have hsent := sendFrame_made asked members w.client.tick hshort
  obtain ⟨hanswer, hstate⟩ := hbrings _ _ _ _ w.network hkeys hsent
  obtain ⟨hframe, hafter⟩ := handled_answer hrespond
  rw [hframe, if_pos hfits] at hanswer
  rw [hafter] at hstate
  refine ⟨_, hstate, ?_⟩
  rw [ask_eq hknown]
  have hrequest : request client network (made client asked members w.client.tick)
      (some server.pub) { w with client := w.client.next } = _ :=
    request_answered hsent (Prod.ext hanswer rfl) hfits hpayload
  exact hrequest.trans (if_pos hverify)

/-- Only the answer of the server answers a request. -/
theorem answer_carried (hbrings : Brings client server peerIp carry state network)
    (hknown : (w.client.peers.get? server.pub).isSome = true)
    (hkeys : DistinctKeys (.obj members)) (hpayload : DistinctKeys (.obj payload))
    (hrespond : server.respond peerIp (carry (made client asked members w.client.tick))
      (state w.network) =
        (.ok (answerTo server (hex (client.uuid w.client.tick)) kind payload tick), s'))
    (h : ask client network server.pub asked members w = (.ok response, w')) :
    Short client asked members w.client.tick ∧
      Fits server (hex (client.uuid w.client.tick)) kind payload tick ∧
      response = (answerTo server (hex (client.uuid w.client.tick)) kind payload tick).raw := by
  rw [ask_eq hknown] at h
  by_cases hshort : Short client asked members w.client.tick
  · have hsent := sendFrame_made asked members w.client.tick hshort
    obtain ⟨hanswer, -⟩ := hbrings _ _ _ _ w.network hkeys hsent
    obtain ⟨hframe, -⟩ := handled_answer hrespond
    rw [hframe] at hanswer
    by_cases hfits : Fits server (hex (client.uuid w.client.tick)) kind payload tick
    · rw [if_pos hfits] at hanswer
      have hrequest : request client network (made client asked members w.client.tick)
          (some server.pub) { w with client := w.client.next } = _ :=
        request_answered hsent (Prod.ext hanswer rfl) hfits hpayload
      replace h := hrequest.symm.trans h
      split at h
      · exact ⟨hshort, hfits, (Except.ok.inj (Prod.mk.inj h).1).symm⟩
      · cases (Prod.mk.inj h).1
    · rw [if_neg hfits] at hanswer
      have hexchange : exchange network (frameOf (made client asked members w.client.tick))
          { w with client := w.client.next } = (.ok [], { w with
            client := w.client.next
            network :=
              (network (frameOf (made client asked members w.client.tick)) w.network).2 }) :=
        Prod.ext hanswer rfl
      rw [request, hsent, bind_lift_ok, bind_ok hexchange] at h
      cases (Prod.mk.inj h).1
  · obtain ⟨e, hsent⟩ := sendFrame_long hshort
    rw [request, hsent, bind_lift_error] at h
    cases (Prod.mk.inj h).1

end Asking

/-- The payload of a request for a shard. -/
def shardAsked (sessionId : String) (index : ℤ) : Members F :=
  [("session_id", .str sessionId), ("shard_idx", .int index)]

/-- The requests of the client come to the server in the name of a sender, who asks for a model
where the client has asked for one. -/
structure Courier (client server : Node F) (carry : Message F → Message F)
    (sender modelId granted : String) : Prop where
  type : ∀ kind payload tick, (carry (made client kind payload tick)).type = kind
  sender : ∀ kind payload tick, (carry (made client kind payload tick)).sender = sender
  nonce : ∀ kind payload tick,
    (carry (made client kind payload tick)).nonce = hex (client.uuid tick)
  opening : ∀ tick, (carry (made client "SESSION_OPEN" (openPayload modelId 1000000 3600)
    tick)).payload = .obj (openPayload granted 1000000 3600)
  shard : ∀ sessionId index tick, (carry (made client "REQUEST_SHARD"
    (shardAsked sessionId index) tick)).payload = .obj (shardAsked sessionId index)
  verified : ∀ kind payload tick now, outOfWindow F now maxSkew (.at (client.clock tick)) = false →
    (verify server.ed now (carry (made client kind payload tick))).1 = true

/-- The course of a pull: two nodes, the key in whose name the server is asked, and at the start
the readings of both nodes and the table of nonces. -/
structure Course (F : Type) [FloatTime F] where
  client : Node F
  server : Node F
  sender : String
  made : ℕ
  began : ℕ
  nonces : NonceCache

namespace Course

variable (course : Course F)

/-- The readings of the client before its request number `i`. -/
def asking (i : ℕ) : ℕ := course.made + 2 * i

/-- The readings of the server before the request number `i`. -/
def serving (i : ℕ) : ℕ := course.began + 5 * i

def nonce (i : ℕ) : String := hex (course.client.uuid (course.asking i))

/-- The table of nonces before the request number `i`. -/
def table : ℕ → NonceCache
  | 0 => course.nonces
  | i + 1 => ((table i).accept F (course.sender, course.nonce i)
      (course.server.clock (course.serving i + 1))).2

def Takes (i : ℕ) : Prop :=
  ((course.table i).accept F (course.sender, course.nonce i)
    (course.server.clock (course.serving i + 1))).1 = true

/-- Each node takes the time of the other one for its own. -/
structure Timely (i : ℕ) : Prop where
  asked : outOfWindow F (course.server.clock (course.serving i)) maxSkew
    (.at (course.client.clock (course.asking i))) = false
  answered : outOfWindow F (course.client.clock (course.asking i + 1)) maxSkew
    (.at (course.server.clock (course.serving i + 4))) = false

/-- The nonce of a request is taken, and its message and the answer are short enough. -/
structure Passes (i : ℕ) (asked : String) (members : Members F) (kind : String)
    (payload : Members F) : Prop where
  takes : course.Takes i
  short : Short course.client asked members (course.asking i)
  fits : Fits course.server (course.nonce i) kind payload (course.serving i + 4)

def sessionId : String := hex (course.server.uuid (course.began + 3))

/-- The session when a number of shards has been charged to it. -/
def session (granted : String) (used : ℕ) : Session :=
  ⟨course.sessionId, course.sender, granted, "pull", 1000000, used,
    course.server.clock (course.began + 3), 3600⟩

/-- The session is open at the moments at which the shard number `i` is asked for. -/
structure Open (i : ℕ) : Prop where
  found : course.server.clock (course.serving (i + 1) + 2) ≤
    FloatTime.sum F (course.server.clock (course.began + 3)) 3600
  consumed : course.server.clock (course.serving (i + 1) + 3) ≤
    FloatTime.sum F (course.server.clock (course.began + 3)) 3600

end Course

section Serving

variable {course : Course F} {vault : Vault} {pieces : List Bytes} {manifest : ModelManifest F}
  {id : Bytes} {s s' : NodeState F} {message : Message F} {i : ℕ} {modelId : String}

/-- The server has a model, and nothing fails there. -/
structure Stocked (course : Course F) (vault : Vault) (pieces : List Bytes)
    (manifest : ModelManifest F) (id : Bytes) : Prop where
  holds : course.server.vault = some vault
  sha : course.server.sha = vault.crypto.sha
  offered : Offered vault pieces manifest id
  readable : vault.Readable
  str : ∀ n, course.server.str (.int n) = toString n
  logs : LogWorks course.server
  hour : ∃ ttl, FloatConversion.ofInt (F := F) 3600 = some ttl ∧
    FloatNumber.number ttl = .finite 3600

/-- The server before the shard number `i` is asked for. -/
structure Stands (course : Course F) (granted : String) (i : ℕ) (s : NodeState F) : Prop where
  tick : s.tick = course.serving (i + 1)
  nonces : s.nonces = course.table (i + 1)
  session : s.sessions.sessions.get? course.sessionId = some (course.session granted i)

/-- A request as the server sees it. -/
structure Comes (course : Course F) (message : Message F) (i : ℕ) (kind : String)
    (members : Members F) : Prop where
  type : message.type = kind
  sender : message.sender = course.sender
  nonce : message.nonce = course.nonce i
  payload : message.payload = .obj members
  verified : (verify course.server.ed (course.server.clock (course.serving i)) message).1 = true

omit [FloatNumber F] [FloatConversion F] in
theorem comes_opening {carry : Message F → Message F} {granted : String}
    (h : Courier course.client course.server carry course.sender modelId granted)
    (htimely : course.Timely 0) :
    Comes course (carry (made course.client "SESSION_OPEN" (openPayload modelId 1000000 3600)
      (course.asking 0))) 0 "SESSION_OPEN" (openPayload granted 1000000 3600) :=
  ⟨h.type _ _ _, h.sender _ _ _, h.nonce _ _ _, h.opening _, h.verified _ _ _ _ htimely.asked⟩

omit [FloatNumber F] [FloatConversion F] in
theorem comes_shard {carry : Message F → Message F} {granted : String}
    (h : Courier course.client course.server carry course.sender modelId granted)
    (htimely : course.Timely (i + 1)) (index : ℤ) :
    Comes course (carry (made course.client "REQUEST_SHARD" (shardAsked course.sessionId index)
      (course.asking (i + 1)))) (i + 1) "REQUEST_SHARD" (shardAsked course.sessionId index) :=
  ⟨h.type _ _ _, h.sender _ _ _, h.nonce _ _ _, h.shard _ _ _, h.verified _ _ _ _ htimely.asked⟩

variable (peerIp) in
/-- A nonce that is not taken is answered by an error. -/
theorem respond_refused {kind : String} {members : Members F}
    (hcomes : Comes course message i kind members) (htick : s.tick = course.serving i)
    (hnonces : s.nonces = course.table i) (htakes : ¬ course.Takes i) :
    ∃ s', course.server.respond peerIp message s =
      (.ok (answerTo course.server (course.nonce i) "ERROR" [("reason", .str "replayed nonce")]
        (course.serving i + 2)), s') := by
  have hverified := hcomes.verified
  rw [← htick] at hverified
  have hrefused : (s.nonces.accept F (message.sender, message.nonce)
      (course.server.clock (s.tick + 1))).1 = false := by
    rw [hnonces, hcomes.sender, hcomes.nonce, htick]
    exact Bool.not_eq_true _ |>.mp htakes
  have hrespond : course.server.respond peerIp message s = _ := respond_replayed hverified hrefused
  rw [hcomes.nonce, htick] at hrespond
  exact ⟨_, hrespond⟩

/-- What is taken is dispatched. -/
theorem respond_taken {kind : String} {members payload : Members F} {type : String}
    (hcomes : Comes course message i kind members) (htick : s.tick = course.serving i)
    (hnonces : s.nonces = course.table i) (htakes : course.Takes i)
    (hdispatch : course.server.dispatch peerIp message (course.server.received s message) =
      (.ok (made course.server type payload (course.serving i + 4)), s')) :
    course.server.respond peerIp message s =
      (.ok (answerTo course.server (course.nonce i) type payload (course.serving i + 4)), s') := by
  have hverified := hcomes.verified
  rw [← htick] at hverified
  have hfresh : (s.nonces.accept F (message.sender, message.nonce)
      (course.server.clock (s.tick + 1))).1 = true := by
    rw [hnonces, hcomes.sender, hcomes.nonce, htick]
    exact htakes
  have hrespond : course.server.respond peerIp message s = _ :=
    respond_dispatch hverified hfresh hdispatch
  rwa [hcomes.nonce] at hrespond

omit [FloatNumber F] [FloatConversion F] in
theorem received_nonces {kind : String} {members : Members F}
    (hcomes : Comes course message i kind members) (htick : s.tick = course.serving i)
    (hnonces : s.nonces = course.table i) :
    (course.server.received s message).nonces = course.table (i + 1) := by
  rw [Node.received, hnonces, hcomes.sender, hcomes.nonce, htick]
  rfl

variable (message) in
omit [FloatText F] [FloatNumber F] [FloatConversion F] in
theorem received_tick (htick : s.tick = course.serving i) :
    (course.server.received s message).tick = course.serving i + 2 := by
  rw [Node.received, htick]

variable (peerIp) in
/-- A session is opened for a sender that may have one. -/
theorem respond_opening (hstocked : Stocked course vault pieces manifest id)
    (hcomes : Comes course message 0 "SESSION_OPEN" (openPayload manifest.modelId 1000000 3600))
    (htick : s.tick = course.serving 0) (hnonces : s.nonces = course.nonces)
    (hallowed : s.allows manifest.modelId course.sender = true)
    (hmax : 1 ≤ s.sessions.maxSessions) (htakes : course.Takes 0) :
    ∃ s', course.server.respond peerIp message s =
        (.ok (answerTo course.server (course.nonce 0) "SESSION_ACCEPT"
          (accepted vault.crypto.sha pieces.flatten manifest course.sessionId)
          (course.serving 0 + 4)), s') ∧ Stands course manifest.modelId 0 s' := by
  have hticked := received_tick message htick
  have hreceived := received_nonces hcomes htick hnonces
  have hallows : (course.server.received s message).allows manifest.modelId message.sender =
      true := by
    rw [hcomes.sender]
    exact hallowed
  obtain ⟨ttl, hfloat, hseconds⟩ := hstocked.hour
  have httl : toFloat course.server.repr (.int 3600 : Json F) = .ok ttl := by
    rw [toFloat, hfloat]
    rfl
  have hbounds : SessionRegistry.inBounds 1000000 (FloatNumber.number ttl) = some 3600 := by
    rw [hseconds]
    norm_num [SessionRegistry.inBounds]
  obtain ⟨registry, hroom, -⟩ := SessionRegistry.makeRoom_ok ((course.server.received s
    message).sessions.gc F (course.server.clock (course.server.received s message).tick)) hmax
  have hasked : textOf course.server.str (field (openPayload manifest.modelId 1000000 3600)
      "model_id" (.str "") : Json F) = manifest.modelId := rfl
  have hfile : field manifest.sorted.metadata "file_sha256" .null =
      .str (vault.crypto.sha.hexdigest pieces.flatten) := by
    rw [field, labelled_sorted hstocked.offered.published.metadata hstocked.offered.labelled]
    rfl
  have hopen := openSession_run hstocked.holds hcomes.payload hasked
    (manifestOf_published _ hstocked.readable hstocked.offered.published) hallows rfl httl
      hbounds hroom rfl
    (fun emit hemit => hstocked.logs emit hemit _ _ _ _ _)
  rw [hfile, Node.opened, hticked, hcomes.sender] at hopen
  have hdispatch : course.server.dispatch peerIp message (course.server.received s message) =
      course.server.openSession message (course.server.received s message) := by
    rw [Node.dispatch, hcomes.type]
    rfl
  refine ⟨_, respond_taken hcomes htick hnonces htakes (hdispatch.trans hopen), ?_⟩
  exact ⟨rfl, hreceived, (SessionRegistry.get?_put _ _ _).trans (if_pos rfl)⟩

omit [FloatText F] [FloatNumber F] [FloatConversion F] in
theorem not_expired {granted : String} {used : ℕ} {now : ℚ}
    (h : now ≤ FloatTime.sum F (course.server.clock (course.began + 3)) 3600) :
    (course.session granted used).expired F now = false :=
  decide_eq_false (not_lt.mpr h)

omit [FloatNumber F] [FloatConversion F] in
/-- The session of the pull is found when a shard is asked for, and it may be used up. -/
theorem charged_session {granted : String} (hstands : Stands course granted i s)
    (hcomes : Comes course message (i + 1) "REQUEST_SHARD" (shardAsked course.sessionId i))
    (hopen : course.Open i) :
    course.server.charged (course.server.received s message) message.sender course.sessionId =
      (if i < 1000000 then some (course.session granted (i + 1)) else none,
        course.serving (i + 1) + 4) := by
  have hticked := received_tick message hstands.tick
  have hkept : ((course.server.received s message).sessions.gc F (course.server.clock
      (course.serving (i + 1) + 2))).sessions.get? course.sessionId =
        some (course.session granted i) :=
    SessionRegistry.get?_gc_eq_some.mpr ⟨hstands.session, not_expired hopen.found⟩
  have hconsume : (course.session granted i).consume F
      (course.server.clock (course.serving (i + 1) + 3)) =
        if i < 1000000 then some (course.session granted (i + 1)) else none := by
    have hspent : (course.session granted i).budgetShards ≤ (course.session granted i).usedShards ↔
        ¬ i < 1000000 := by
      change (1000000 : ℤ) ≤ (i : ℤ) ↔ _
      omega
    rw [Session.consume, not_expired hopen.consumed]
    by_cases hbudget : i < 1000000
    · rw [if_pos hbudget,
        if_neg (fun h => (h.resolve_left Bool.false_ne_true |> hspent.mp) hbudget)]
      rfl
    · rw [if_neg hbudget, if_pos (Or.inr (hspent.mpr hbudget))]
  rw [Node.charged, hticked, hkept, hcomes.sender]
  have hown : (course.session granted i).peerPub = course.sender := rfl
  dsimp only
  rw [if_neg (not_not.mpr hown)]
  exact Prod.ext hconsume rfl

variable (peerIp) in
/-- A shard is sent when the session is not used up. -/
theorem respond_shard (hstocked : Stocked course vault pieces manifest id)
    (hcomes : Comes course message (i + 1) "REQUEST_SHARD" (shardAsked course.sessionId i))
    (hstands : Stands course manifest.modelId i s) (hopen : course.Open i)
    (htakes : course.Takes (i + 1)) (hbudget : i < 1000000) {piece : Bytes}
    (hpiece : pieces[i]? = some piece) :
    ∃ s', course.server.respond peerIp message s =
        (.ok (answerTo course.server (course.nonce (i + 1)) "SHARD_DATA"
          (shardMembers course.server manifest.modelId i piece) (course.serving (i + 1) + 4)), s') ∧
      Stands course manifest.modelId (i + 1) s' := by
  have hticked := received_tick message hstands.tick
  have hcharged := charged_session hstands hcomes hopen
  rw [if_pos hbudget] at hcharged
  have hasked : textOf course.server.str (field (shardAsked course.sessionId i) "session_id"
      (.str "") : Json F) = course.sessionId := rfl
  have hread := readShard_published hstocked.str hstocked.readable id hstocked.offered.keyId
    hstocked.offered.published i piece hpiece
  have hserve :=
    serveShard_run (s := course.server.received s message) hstocked.holds hcomes.payload
    rfl (congrArg Prod.fst hcharged)
    (manifestOf_published _ hstocked.readable hstocked.offered.published) hread
    (fun emit hemit => hstocked.logs emit hemit _ _ _ _ _)
  rw [hticked, hasked] at hserve
  have hdispatch : course.server.dispatch peerIp message (course.server.received s message) =
      course.server.serveShard message (course.server.received s message) := by
    rw [Node.dispatch, hcomes.type]
    rfl
  refine ⟨_, respond_taken hcomes hstands.tick hstands.nonces htakes (hdispatch.trans hserve), ?_⟩
  have hnonces := received_nonces hcomes hstands.tick hstands.nonces
  rw [Node.chargedState, hcharged]
  exact ⟨rfl, hnonces, (SessionRegistry.get?_put _ _ _).trans (if_pos rfl)⟩

variable (peerIp) in
/-- No shard is sent when the session is used up. -/
theorem respond_spent {granted : String}
    (hcomes : Comes course message (i + 1) "REQUEST_SHARD" (shardAsked course.sessionId i))
    (hstands : Stands course granted i s) (hopen : course.Open i)
    (htakes : course.Takes (i + 1)) (hbudget : ¬ i < 1000000) :
    ∃ s', course.server.respond peerIp message s =
      (.ok (answerTo course.server (course.nonce (i + 1)) "SHARD_DENY" [("shard_idx", .int i),
        ("reason", .str "invalid, expired, or exhausted session")]
        (course.serving (i + 1) + 4)), s') := by
  have hcharged := charged_session hstands hcomes hopen
  rw [if_neg hbudget] at hcharged
  have hdispatch : course.server.dispatch peerIp message (course.server.received s message) =
      course.server.serveShard message (course.server.received s message) := by
    rw [Node.dispatch, hcomes.type]
    rfl
  have hserve : course.server.serveShard message (course.server.received s message) =
      (.ok (made course.server "SHARD_DENY" [("shard_idx", .int i),
        ("reason", .str "invalid, expired, or exhausted session")] (course.serving (i + 1) + 4)),
      (course.server.chargedState (course.server.received s message) message.sender
        course.sessionId).next) := by
    have hindex : toInt course.server.repr (field (shardAsked course.sessionId i) "shard_idx"
        (.int (-1)) : Json F) = .ok (i : ℤ) := rfl
    have hasked : textOf course.server.str (field (shardAsked course.sessionId i) "session_id"
        (.str "") : Json F) = course.sessionId := rfl
    have htick : (course.server.chargedState (course.server.received s message) message.sender
        course.sessionId).tick = course.serving (i + 1) + 4 := congrArg Prod.snd hcharged
    rw [Node.serveShard, member_obj hcomes.payload, bind_lift_ok,
      bind_ok (Node.findSession_run _), member_obj hcomes.payload, bind_lift_ok, hindex,
      bind_lift_ok, bind_ok (Node.useSession_run _ _), hasked, hcharged, ← htick]
    rfl
  exact ⟨_, respond_taken hcomes hstands.tick hstands.nonces htakes (hdispatch.trans hserve)⟩

end Serving

section Pulls

variable {course : Course F} {vault : Vault} {pieces : List Bytes} {manifest : ModelManifest F}
  {id : Bytes} {i : ℕ} {modelId : String} {w w' : World σ F} {machine : Machine}

/-- The client before it asks for the shard number `i`. -/
structure Ready (course : Course F) (state : σ → NodeState F) (modelId granted : String) (i : ℕ)
    (w : World σ F) : Prop where
  tick : w.client.tick = course.asking (i + 1)
  known : (w.client.peers.get? course.server.pub).isSome = true
  cache : Undamaged w.cache
  absent : ∀ j : ℕ, i ≤ j → w.cache.entries.get? (course.server.pub, modelId, (j : ℤ)) = none
  server : Stands course granted i (state w.network)

omit [FloatText F] [FloatNumber F] [FloatConversion F] in
theorem Ready.same {granted : String} (h : Ready course state modelId granted i w)
    (hsame : SameFetching w w') : Ready course state modelId granted i w' := by
  obtain ⟨hclient, hcache, hnetwork⟩ := hsame
  exact ⟨hclient ▸ h.tick, hclient ▸ h.known, hcache ▸ h.cache, hcache ▸ h.absent,
    hnetwork ▸ h.server⟩

/-- Two nodes of one kind whose requests are carried, and a server that has the model. -/
structure Connected (course : Course F) (network : Network σ) (state : σ → NodeState F)
    (carry : Message F → Message F) (peerIp modelId : String) (vault : Vault)
    (pieces : List Bytes) (manifest : ModelManifest F) (id : Bytes) : Prop where
  brings : Brings course.client course.server peerIp carry state network
  courier : Courier course.client course.server carry course.sender modelId manifest.modelId
  stocked : Stocked course vault pieces manifest id
  ed : course.client.ed = course.server.ed
  sha : course.client.sha = vault.crypto.sha
  logs : LogWorks course.client

/-- The shard number `i` comes through. -/
structure Course.Serves (course : Course F) (modelId : String) (i : ℕ) (piece : Bytes) : Prop where
  budget : i < 1000000
  passes : course.Passes (i + 1) "REQUEST_SHARD" (shardAsked course.sessionId i) "SHARD_DATA"
    (shardMembers course.server modelId i piece)

omit [FloatNumber F] [FloatConversion F] [FloatText F] [FloatTime F] in
theorem distinct_shardAsked (sessionId : String) (index : ℤ) :
    DistinctKeys (.obj (shardAsked sessionId index) : Json F) :=
  ⟨by simp [shardAsked], trivial, trivial, trivial⟩

omit [FloatNumber F] [FloatConversion F] [FloatText F] in
theorem distinct_shardMembers (node : Node F) (modelId : String) (index : ℤ) (data : Bytes) :
    DistinctKeys (.obj (shardMembers node modelId index data)) :=
  ⟨by simp [shardMembers], trivial, trivial, trivial, trivial, trivial⟩

omit [FloatNumber F] [FloatConversion F] in
/-- The answers of the server are verified by the client. -/
theorem verify_answer (hed : course.client.ed = course.server.ed) (htimely : course.Timely i)
    (nonce kind : String) (payload : Members F) :
    (verify course.client.ed (course.client.clock (course.asking i + 1))
      (answerTo course.server nonce kind payload (course.serving i + 4))).1 = true := by
  rw [hed]
  exact (verify_made nonce htimely.answered).2

/-- A shard that comes through is fetched. -/
theorem fetchShard_ready
    (hconnected : Connected course network state carry peerIp modelId vault pieces manifest id)
    (hready : Ready course state modelId manifest.modelId i w)
    (htimely : course.Timely (i + 1)) (hopen : course.Open i) {piece : Bytes}
    (hpiece : pieces[i]? = some piece) (hserves : course.Serves manifest.modelId i piece) :
    ∃ w', fetchShard course.client network course.server.pub modelId (.str course.sessionId) i w =
        (.ok piece, w') ∧ Ready course state modelId manifest.modelId (i + 1) w' := by
  obtain ⟨s', hrespond, hstands⟩ := respond_shard peerIp hconnected.stocked
    (comes_shard hconnected.courier htimely i) hready.server hopen hserves.passes.takes
    hserves.budget hpiece
  let w₀ : World σ F :=
    { w with cache := (w.cache.get (course.server.pub, modelId, (i : ℤ))).2 }
  have htick : w₀.client.tick = course.asking (i + 1) := hready.tick
  obtain ⟨t, hstate, hask⟩ := ask_carried (w := w₀) (s := s') hconnected.brings hready.known
    (distinct_shardAsked course.sessionId i)
    (distinct_shardMembers course.server manifest.modelId i piece)
    (by rw [htick]; exact hrespond)
    (by rw [htick]; exact verify_answer hconnected.ed htimely _ _ _)
    (by rw [htick]; exact hserves.passes.short) (by rw [htick]; exact hserves.passes.fits)
  have hnone : (w.cache.get (course.server.pub, modelId, (i : ℤ))).1 = none := by
    rw [get_eq]
    exact hready.absent i le_rfl
  have hhash : item (answerTo course.server (hex (course.client.uuid w₀.client.tick)) "SHARD_DATA"
      (shardMembers course.server manifest.modelId i piece) (course.serving (i + 1) + 4)).payload
      "plaintext_hash" = .ok (.str (course.client.sha.hexdigest piece)) := by
    rw [hconnected.sha, ← hconnected.stocked.sha]
    rfl
  obtain ⟨hput, hstored⟩ := put_stored_of_undamaged (undamaged_get hready.cache
    (course.server.pub, modelId, (i : ℤ))) (course.server.pub, modelId, (i : ℤ)) piece
  have hfetch := fetchShard_miss (w := w) hconnected.logs hnone hask ⟨rfl, rfl, hhash⟩ hput
  refine ⟨_, hfetch, ?_, hready.known, hstored, ?_, hstate ▸ hstands⟩
  · exact congrArg (· + 2) hready.tick
  · intro j hj
    have hother : (course.server.pub, modelId, (j : ℤ)) ≠
        (course.server.pub, modelId, (i : ℤ)) := by
      simp only [ne_eq, Prod.mk.injEq, true_and]
      omega
    refine Option.eq_none_iff_forall_ne_some.mpr (fun found hfound => ?_)
    have hkept := get?_of_put_ne hput hother hfound
    rw [get?_of_get, hready.absent j (by omega)] at hkept
    cases hkept

/-- Only a shard that comes through is fetched. -/
theorem serves_of_fetched
    (hconnected : Connected course network state carry peerIp modelId vault pieces manifest id)
    (hready : Ready course state modelId manifest.modelId i w)
    (htimely : course.Timely (i + 1)) (hopen : course.Open i) {piece chunk : Bytes}
    (hpiece : pieces[i]? = some piece)
    (h : fetchShard course.client network course.server.pub modelId (.str course.sessionId) i w =
      (.ok chunk, w')) : course.Serves manifest.modelId i piece := by
  have hcomes := comes_shard hconnected.courier htimely i
  let w₀ : World σ F :=
    { w with cache := (w.cache.get (course.server.pub, modelId, (i : ℤ))).2 }
  have htick : w₀.client.tick = course.asking (i + 1) := hready.tick
  have hnone : (w.cache.get (course.server.pub, modelId, (i : ℤ))).1 = none := by
    rw [get_eq]
    exact hready.absent i le_rfl
  rw [fetchShard, cacheGet, bind_change, hnone] at h
  obtain ⟨response, w₁, hask, htype⟩ := fetchRemote_ok course.client network h
  have honly : ∀ {kind : String} {payload : Members F} {tick : ℕ} {s' : NodeState F},
      DistinctKeys (.obj payload) →
      course.server.respond peerIp (carry (made course.client "REQUEST_SHARD"
        (shardAsked course.sessionId i) (course.asking (i + 1)))) (state w.network) =
          (.ok (answerTo course.server (course.nonce (i + 1)) kind payload tick), s') →
      kind = "SHARD_DATA" ∧ Short course.client "REQUEST_SHARD" (shardAsked course.sessionId i)
        (course.asking (i + 1)) ∧ Fits course.server (course.nonce (i + 1)) kind payload tick := by
    intro kind payload tick s' hkeys hrespond
    obtain ⟨hshort, hfits, rfl⟩ := answer_carried (w := w₀) hconnected.brings hready.known
      (distinct_shardAsked course.sessionId i) hkeys (by rw [htick]; exact hrespond) hask
    rw [htick] at hshort hfits
    exact ⟨Json.str.inj htype, hshort, hfits⟩
  by_cases htakes : course.Takes (i + 1)
  · by_cases hbudget : i < 1000000
    · obtain ⟨s', hrespond, -⟩ := respond_shard peerIp hconnected.stocked hcomes
        hready.server hopen htakes hbudget hpiece
      obtain ⟨-, hshort, hfits⟩ := honly (distinct_shardMembers _ _ _ _) hrespond
      exact ⟨hbudget, htakes, hshort, hfits⟩
    · obtain ⟨s', hrespond⟩ := respond_spent peerIp hcomes hready.server hopen htakes
        hbudget
      obtain ⟨hkind, -⟩ := honly (distinct_denial _ _) hrespond
      exact absurd hkind (by decide)
  · obtain ⟨s', hrespond⟩ := respond_refused peerIp hcomes hready.server.tick
      hready.server.nonces htakes
    obtain ⟨hkind, -⟩ := honly (distinct_reason _) hrespond
    exact absurd hkind (by decide)

/-- The clocks agree and the session stays open while the shards are asked for. -/
structure Course.InTime (course : Course F) (count : ℕ) : Prop where
  timely : ∀ i ≤ count, course.Timely i
  opened : ∀ i < count, course.Open i

variable {initial : Json F}
  (hconnected : Connected course network state carry peerIp modelId vault pieces manifest id)
  (htime : course.InTime pieces.length)
  (hsession : item initial "session_id" = .ok (.str course.sessionId))
include hconnected htime hsession

/-- All shards are fetched if all of them come through. -/
theorem fetches_ready (hserves : ∀ i piece, pieces[i]? = some piece →
      course.Serves manifest.modelId i piece) (rest : List Bytes) (start : ℕ)
    (hrest : pieces.drop start = rest)
    (hready : Ready course state modelId manifest.modelId start w) :
    ∃ w', Fetches course.client network course.server.pub modelId initial
      (List.range' start rest.length) rest w w' := by
  induction rest generalizing start w with
  | nil => exact ⟨w, SameFetching.refl w⟩
  | cons piece rest ih =>
    have hpiece : pieces[start]? = some piece := by
      rw [← List.head?_drop, hrest, List.head?_cons]
    have hnext : pieces.drop (start + 1) = rest := by
      rw [← List.tail_drop, hrest, List.tail_cons]
    obtain ⟨hlt, -⟩ := List.getElem?_eq_some_iff.mp hpiece
    obtain ⟨w₁, hfetch, hready₁⟩ := fetchShard_ready hconnected hready (htime.timely _ hlt)
      (htime.opened _ hlt) hpiece (hserves start piece hpiece)
    obtain ⟨w', hfetches⟩ := ih (start + 1) hnext hready₁
    exact ⟨w', _, w, w₁, SameFetching.refl w, hsession, hfetch, hfetches⟩

/-- All shards come through if all of them are fetched. -/
theorem serves_of_fetches (rest : List Bytes) (start : ℕ) (hrest : pieces.drop start = rest)
    (hready : Ready course state modelId manifest.modelId start w) {chunks : List Bytes}
    (h : Fetches course.client network course.server.pub modelId initial
      (List.range' start rest.length) chunks w w') (i : ℕ) (hi : start ≤ i) (piece : Bytes)
    (hpiece : pieces[i]? = some piece) : course.Serves manifest.modelId i piece := by
  induction rest generalizing start w chunks with
  | nil =>
    obtain ⟨hlt, -⟩ := List.getElem?_eq_some_iff.mp hpiece
    have hlength := List.drop_eq_nil_iff.mp hrest
    omega
  | cons first rest ih =>
    have hfirst : pieces[start]? = some first := by
      rw [← List.head?_drop, hrest, List.head?_cons]
    have hnext : pieces.drop (start + 1) = rest := by
      rw [← List.tail_drop, hrest, List.tail_cons]
    obtain ⟨hlt, -⟩ := List.getElem?_eq_some_iff.mp hfirst
    cases chunks with
    | nil => exact h.elim
    | cons chunk chunks =>
      obtain ⟨session, w₁, w₂, hsame, hitem, hfetch, hfetches⟩ := h
      obtain rfl := Except.ok.inj (hitem.symm.trans hsession)
      have hready₁ := hready.same hsame
      have hserves := serves_of_fetched hconnected hready₁ (htime.timely _ hlt)
        (htime.opened _ hlt) hfirst hfetch
      obtain ⟨w₃, hfetch', hready₂⟩ := fetchShard_ready hconnected hready₁ (htime.timely _ hlt)
        (htime.opened _ hlt) hfirst hserves
      obtain ⟨-, rfl⟩ := Prod.mk.inj (hfetch.symm.trans hfetch')
      rcases Nat.eq_or_lt_of_le hi with rfl | hlater
      · obtain rfl := Option.some.inj (hfirst.symm.trans hpiece)
        exact hserves
      · exact ih (start + 1) hnext hready₂ hfetches hlater

end Pulls

section Whole

variable {course : Course F} {vault : Vault} {pieces : List Bytes} {manifest : ModelManifest F}
  {id : Bytes} {modelId : String} {w w' : World σ F} {machine : Machine} {initial : Json F}

/-- A client that has nothing of the model yet, and a server that lets the sender read it. -/
structure Begins (course : Course F) (state : σ → NodeState F) (modelId granted : String)
    (w : World σ F) : Prop where
  made : w.client.tick = course.made
  known : (w.client.peers.get? course.server.pub).isSome = true
  cache : Undamaged w.cache
  absent : ∀ j : ℕ, w.cache.entries.get? (course.server.pub, modelId, (j : ℤ)) = none
  began : (state w.network).tick = course.began
  nonces : (state w.network).nonces = course.nonces
  allowed : (state w.network).allows granted course.sender = true
  sessions : 1 ≤ (state w.network).sessions.maxSessions

/-- Every message of the pull comes through. -/
structure Course.Completes (course : Course F) (modelId : String) (sha : Sha256)
    (pieces : List Bytes) (manifest : ModelManifest F) : Prop where
  opens : course.Passes 0 "SESSION_OPEN" (openPayload modelId 1000000 3600) "SESSION_ACCEPT"
    (accepted sha pieces.flatten manifest course.sessionId)
  serves : ∀ i piece, pieces[i]? = some piece → course.Serves manifest.modelId i piece

/-- What the client is told of its session. -/
def Course.told (course : Course F) (sha : Sha256) (content : Bytes)
    (manifest : ModelManifest F) : Members F :=
  setMember "request_nonce" (.str (course.nonce 0))
    (accepted sha content manifest course.sessionId)

omit [FloatText F] [FloatNumber F] [FloatConversion F] in
theorem lookup_told (course : Course F) (sha : Sha256) (content : Bytes)
    (manifest : ModelManifest F) :
    (course.told sha content manifest).lookup "session_id" = some (.str course.sessionId) ∧
      (course.told sha content manifest).lookup "n_shards" = some (.int manifest.nShards) ∧
      (course.told sha content manifest).lookup "file_sha256" =
        some (.str (sha.hexdigest content)) := by
  refine ⟨?_, ?_, ?_⟩
  all_goals
    rw [Course.told, PullResults.lookup_setMember_of_ne (by decide)]
    rfl

omit [FloatText F] [FloatTime F] [FloatNumber F] [FloatConversion F] in
theorem item_of_lookup {members : Members F} {key : String} {value : Json F}
    (h : members.lookup key = some value) : item (.obj members) key = .ok value := by
  rw [item, h]
  rfl

omit [FloatText F] [FloatTime F] [FloatNumber F] [FloatConversion F] in
theorem distinct_openPayload (modelId : String) (budget ttl : ℤ) :
    DistinctKeys (.obj (openPayload modelId budget ttl) : Json F) :=
  ⟨by simp [openPayload], trivial, trivial, trivial, trivial, trivial⟩

variable
  (hconnected : Connected course network state carry peerIp modelId vault pieces manifest id)
  (hbegins : Begins course state modelId manifest.modelId w)
  (htime : course.InTime pieces.length)
include hconnected hbegins htime

theorem openSession_ready
    (hopens : course.Passes 0 "SESSION_OPEN" (openPayload modelId 1000000 3600) "SESSION_ACCEPT"
      (accepted vault.crypto.sha pieces.flatten manifest course.sessionId)) :
    ∃ w', openSession course.client network course.server.pub modelId 1000000 3600 w =
        (.ok (.obj (course.told vault.crypto.sha pieces.flatten manifest)), w') ∧
      Ready course state modelId manifest.modelId 0 w' := by
  have htimely := htime.timely 0 (Nat.zero_le _)
  obtain ⟨s', hrespond, hstands⟩ := respond_opening peerIp hconnected.stocked
    (comes_opening hconnected.courier htimely) hbegins.began hbegins.nonces hbegins.allowed
    hbegins.sessions hopens.takes
  have htick : w.client.tick = course.asking 0 := hbegins.made
  obtain ⟨t, hstate, hask⟩ := ask_carried (w := w) (s := s') hconnected.brings hbegins.known
    (distinct_openPayload modelId 1000000 3600) (distinct_accepted _ _ _ _)
    (by rw [htick]; exact hrespond)
    (by rw [htick]; exact verify_answer hconnected.ed htimely _ _ _)
    (by rw [htick]; exact hopens.short) (by rw [htick]; exact hopens.fits)
  rw [htick] at hask
  refine ⟨_, (bind_ok hask).trans rfl, ?_, hbegins.known, hbegins.cache,
    fun j _ => hbegins.absent j, hstate ▸ hstands⟩
  exact congrArg (· + 2) htick

theorem opens_of_opened
    (h : openSession course.client network course.server.pub modelId 1000000 3600 w =
      (.ok initial, w')) :
    course.Passes 0 "SESSION_OPEN" (openPayload modelId 1000000 3600) "SESSION_ACCEPT"
      (accepted vault.crypto.sha pieces.flatten manifest course.sessionId) := by
  have hcomes := comes_opening hconnected.courier (htime.timely 0 (Nat.zero_le _))
  have htick : w.client.tick = course.asking 0 := hbegins.made
  obtain ⟨response, hask, htype, -⟩ := openSession_ok course.client network h
  by_cases htakes : course.Takes 0
  · obtain ⟨s', hrespond, -⟩ := respond_opening peerIp hconnected.stocked hcomes
      hbegins.began hbegins.nonces hbegins.allowed hbegins.sessions htakes
    obtain ⟨hshort, hfits, -⟩ := answer_carried hconnected.brings hbegins.known
      (distinct_openPayload modelId 1000000 3600) (distinct_accepted _ _ _ _)
      (by rw [htick]; exact hrespond) hask
    rw [htick] at hshort hfits
    exact ⟨htakes, hshort, hfits⟩
  · obtain ⟨s', hrespond⟩ := respond_refused peerIp hcomes hbegins.began
      hbegins.nonces htakes
    obtain ⟨-, -, rfl⟩ := answer_carried hconnected.brings hbegins.known
      (distinct_openPayload modelId 1000000 3600) (distinct_reason _)
      (by rw [htick]; exact hrespond) hask
    exact absurd (Json.str.inj htype) (show ¬ "ERROR" = "SESSION_ACCEPT" by decide)

/-- The pull returns exactly if every message comes through, and then the file is the one whose
shards the server has. -/
theorem pull_carried (hcalm : ∀ tick, machine.spoiled tick = none) (destination : Path) {u : Unit}
    (hmkdir : machine.mkdir (targetDirectory destination modelId) = .ok u) :
    ((∃ result w', pullModel course.client network machine course.server.pub modelId destination w =
        (.ok result, w')) ↔ course.Completes modelId vault.crypto.sha pieces manifest) ∧
      ∀ result w', pullModel course.client network machine course.server.pub modelId destination w =
        (.ok result, w') → w'.files (targetFile destination modelId) = some pieces.flatten := by
  obtain ⟨hid, hcount, hfile⟩ := lookup_told course vault.crypto.sha pieces.flatten manifest
  have hlength : manifest.nShards = pieces.length := published_nShards vault.crypto vault.root
    vault.passphrase vault.files pieces manifest hconnected.stocked.offered.published
  rw [hlength] at hcount
  have hsession : item (.obj (course.told vault.crypto.sha pieces.flatten manifest)) "session_id" =
      .ok (.str course.sessionId) := item_of_lookup hid
  have hreturned : ∀ result w', pullModel course.client network machine course.server.pub modelId
      destination w = (.ok result, w') →
      course.Completes modelId vault.crypto.sha pieces manifest ∧
        w'.files (targetFile destination modelId) = some pieces.flatten := by
    intro result w' hpull
    obtain ⟨initial, w₀, count, nShards, chunks, w₁, hopen, hitem, hshards, hfetches, -, -, -,
      hfiles⟩ := pull_ok course.client network machine course.server.pub modelId destination hpull
    have hopens := opens_of_opened hconnected hbegins htime hopen
    obtain ⟨w₂, hopen', hready⟩ := openSession_ready hconnected hbegins htime hopens
    obtain ⟨hinitial, rfl⟩ := Prod.mk.inj (hopen.symm.trans hopen')
    obtain rfl := Except.ok.inj hinitial
    obtain rfl := Except.ok.inj (hitem.symm.trans (item_of_lookup hcount))
    obtain rfl := Except.ok.inj hshards
    rw [Int.toNat_natCast, List.range_eq_range'] at hfetches
    have hserves := serves_of_fetches hconnected htime hsession pieces 0 rfl hready hfetches
    obtain ⟨w₃, hfetches'⟩ := fetches_ready hconnected htime hsession
      (fun i piece => hserves i (Nat.zero_le i) piece) pieces 0 rfl hready
    have hchunks := Fetches.unique (SameFetching.refl _) hfetches' hfetches
    refine ⟨⟨hopens, fun i piece => hserves i (Nat.zero_le i) piece⟩, ?_⟩
    rw [hfiles, Function.update_self, hchunks]
  refine ⟨⟨fun ⟨result, w', hpull⟩ => (hreturned result w' hpull).1, fun hcompletes => ?_⟩,
    fun result w' hpull => (hreturned result w' hpull).2⟩
  obtain ⟨w₀, hopen, hready⟩ := openSession_ready hconnected hbegins htime hcompletes.opens
  obtain ⟨w₁, hfetches⟩ := fetches_ready hconnected htime hsession hcompletes.serves pieces 0 rfl
    hready
  rw [← List.range_eq_range'] at hfetches
  have hconfirmed : Confirmed course.client
      (.obj (course.told vault.crypto.sha pieces.flatten manifest)) pieces.flatten := by
    refine ⟨_, by rw [member_obj rfl, field, hfile], fun _ => ?_⟩
    rw [hconnected.sha]
    exact decide_eq_true rfl
  obtain ⟨result, w', hrun, -⟩ := pullSession_run hcalm destination hmkdir hconnected.logs
    (item_of_lookup hcount) rfl hfetches hconfirmed
  exact ⟨result, w', (bind_ok hopen).trans hrun⟩

end Whole

end Decillion.CarriedPulls
