import Decillion.ServedSessions
import Decillion.WatchedNetworks

/-!
A key that may read one model, in the hands of somebody who carries the messages of a client. It
signs what the client asks anew, with the nonce of the client and for the model that it may read.
No signature of the two nodes is made, and the client takes the file of that model for the one
that it has asked for.
-/
namespace Decillion.RelayedPulls

open ByteText JsonObjects JsonRoundTrip JsonText JsonValues Primitives PyErrors HostSystem
open Dictionaries PyValues AccessRequests ShardManifests ShardVault RaisingPrograms ShardCaches
open TelepathMessages TelepathSessions TelepathFrames TelepathNodes TelepathPulls
open TelepathAnswers TelepathExchanges TelepathServing PulledFiles ScriptedPeers ShardCoherence
open PullRuns SessionSteps VaultLabels SessionAnswers CarriedPulls WatchedNetworks

variable {F : Type} [FloatText F] [FloatTime F] [FloatNumber F] [FloatConversion F]

/-- Instead of whatever session one for a certain model is asked for. -/
def exchanged (granted kind : String) (payload : Json F) : Json F :=
  if kind = "SESSION_OPEN" then .obj (openPayload granted 1000000 3600) else payload

/-- A message as it is signed anew. -/
def relay (attacker : Node F) (granted : String) (message : Message F) : Message F :=
  make attacker.ed attacker.key message.type (exchanged granted message.type message.payload)
    message.nonce message.ts

/-- What comes of a frame on its way to the server. -/
def relayed (server attacker : Node F) (granted : String) (frame : Bytes) :
    Except PyError Bytes := do
  let message ← readRequest server frame
  sendFrame (toDict (relay attacker granted message))

/-- Each frame of the client is signed anew, and what the server sends is passed on. -/
def relaying (server attacker : Node F) (start : NodeState F) (granted peerIp : String) :
    Attack := fun moves frame =>
  match relayed server attacker granted frame with
  | .ok stream => ([.handled peerIp stream], .ok (server.handleConnection peerIp stream
      (serverAfter server start (moves ++ [.sent frame]))).sent.flatten)
  | .error e => ([], .error e)

/-- What has happened when some frames have been sent under an attack. -/
def history (attack : Attack) (frames : List Bytes) : List Move :=
  frames.foldl (fun moves frame => (watched attack frame moves).2) []

section Frames

variable {client server attacker node : Node F} {message response : Message F} {frame : Bytes}
  {granted kind : String} {members : Members F} {tick : ℕ}

theorem distinct_readRequest (h : readRequest node frame = .ok message) :
    DistinctKeys message.payload := by
  obtain ⟨raw, hraw, h⟩ := bind_eq_ok h
  have hkeys := PullResults.distinctKeys_payload (distinct_readMessage hraw)
  cases htext : raw.text? with
  | none =>
    rw [htext] at h
    cases h
  | some text =>
    rw [htext] at h
    obtain rfl := Except.ok.inj h
    rwa [raw_of_text? htext] at hkeys

omit [FloatNumber F] [FloatConversion F] in
theorem short_of_sent (hsent : sendFrame (toDict (made client kind members tick)) = .ok frame) :
    Short client kind members tick := by
  by_contra hlong
  obtain ⟨e, hfailed⟩ := sendFrame_long hlong
  rw [hfailed] at hsent
  cases hsent

omit [FloatText F] [FloatTime F] [FloatNumber F] [FloatConversion F] in
theorem distinct_exchanged {payload : Json F} (hkeys : DistinctKeys payload) :
    DistinctKeys (exchanged granted kind payload) := by
  unfold exchanged
  split
  · exact distinct_openPayload granted 1000000 3600
  · exact hkeys

omit [FloatNumber F] [FloatConversion F] in
/-- What the client can send can be sent when it is signed anew. -/
theorem sendFrame_relay
    (hgranted : ∀ tick, Short client "SESSION_OPEN" (openPayload granted 1000000 3600) tick)
    (hshort : Short client kind members tick) :
    ∃ stream, sendFrame (toDict (relay attacker granted (made client kind members tick))) =
      .ok stream := by
  have hsigned := dump_signed kind (attacker.ed.publicKey attacker.key) (client.uuid tick)
    (attacker.ed.sign attacker.key (canonical (Message.unsigned ⟨kind,
      hex (attacker.ed.publicKey attacker.key), hex (client.uuid tick), client.stamp tick,
      exchanged granted kind (.obj members), ""⟩))) (client.stamp tick)
    (exchanged granted kind (.obj members)) attacker.key_length (client.uuid_length tick)
    (attacker.signature_length _)
  have hlength : signedLength kind (client.stamp tick)
      (exchanged granted kind (.obj members)) ≤ MAX_FRAME := by
    by_cases hkind : kind = "SESSION_OPEN"
    · rw [exchanged, if_pos hkind, hkind]
      exact hgranted tick
    · rw [exchanged, if_neg hkind]
      exact hshort
  rw [← hsigned] at hlength
  exact ⟨_, sendFrame_frameOf hlength⟩

variable (server attacker) in
/-- What is signed anew is what the client has sent. -/
theorem relayed_made
    (hgranted : ∀ tick, Short client "SESSION_OPEN" (openPayload granted 1000000 3600) tick)
    (hkeys : DistinctKeys (.obj members : Json F))
    (hsent : sendFrame (toDict (made client kind members tick)) = .ok frame) :
    ∃ stream, relayed server attacker granted frame = .ok stream ∧
      sendFrame (toDict (relay attacker granted (made client kind members tick))) =
        .ok stream := by
  obtain ⟨stream, hstream⟩ : ∃ stream, sendFrame (toDict (relay attacker granted
      (made client kind members tick))) = .ok stream :=
    sendFrame_relay hgranted (short_of_sent hsent)
  have hread : readRequest server frame = .ok (made client kind members tick) :=
    readRequest_frame hkeys hsent
  refine ⟨stream, ?_, hstream⟩
  rw [relayed, hread]
  exact hstream

end Frames

section Carrying

variable {client server attacker : Node F} {start : NodeState F} {granted peerIp modelId : String}

omit [FloatNumber F] [FloatConversion F] in
theorem courier_relay (hed : attacker.ed = server.ed) :
    Courier client server (relay attacker granted) attacker.pub modelId granted := by
  refine ⟨fun _ _ _ => rfl, fun _ _ _ => rfl, fun _ _ _ => rfl, fun _ => rfl,
    fun sessionId index _ => ?_, fun kind payload tick now hwindow => ?_⟩
  · change exchanged granted "REQUEST_SHARD" (.obj (shardAsked sessionId index)) = _
    exact if_neg (by decide)
  · have hlong : 16 ≤ (hex (client.uuid tick)).length := by
      rw [hex_length, client.uuid_length]
      omega
    rw [← client.stamp_clock tick] at hwindow
    rw [← hed]
    exact congrArg Prod.fst (verify_sign attacker.ed attacker.key ⟨kind, attacker.pub,
      hex (client.uuid tick), client.stamp tick, exchanged granted kind (.obj payload), ""⟩
      attacker.key_length rfl hlong now hwindow)

theorem serverAfter_sent (moves : List Move) (frame : Bytes) :
    serverAfter server start (moves ++ [.sent frame]) = serverAfter server start moves := by
  rw [serverAfter, List.foldl_concat]
  rfl

theorem serverAfter_handled (moves : List Move) (frame stream : Bytes) :
    serverAfter server start (moves ++ [.sent frame, .handled peerIp stream]) =
      (server.handleConnection peerIp stream (serverAfter server start moves)).state := by
  rw [serverAfter, List.foldl_append]
  rfl

theorem serverAfter_single (ip : String) (stream : Bytes) :
    serverAfter server start [.handled ip stream] =
      (server.handleConnection ip stream start).state := rfl

/-- Under the attack the server sees what the client sends as it is signed anew. -/
theorem brings_relaying
    (hgranted : ∀ tick, Short client "SESSION_OPEN" (openPayload granted 1000000 3600) tick) :
    Brings client server peerIp (relay attacker granted) (serverAfter server start)
      (watched (relaying server attacker start granted peerIp)) := by
  intro kind members tick frame moves hkeys hsent
  obtain ⟨stream, hrelayed, hstream⟩ := relayed_made server attacker hgranted hkeys hsent
  have hpayload : DistinctKeys (made client kind members tick).payload := hkeys
  have hhandled : ∀ s, server.handleConnection peerIp stream s =
      server.handleMessage peerIp (relay attacker granted (made client kind members tick)) s :=
    fun s => handleConnection_frame (distinct_exchanged hpayload) hstream
  have hattack : relaying server attacker start granted peerIp moves frame =
      ([.handled peerIp stream], .ok (server.handleMessage peerIp
        (relay attacker granted (made client kind members tick))
        (serverAfter server start moves)).sent.flatten) := by
    rw [relaying, hrelayed, ← hhandled, serverAfter_sent]
  rw [watched, hattack]
  refine ⟨rfl, ?_⟩
  rw [serverAfter_handled, hhandled]

end Carrying

section Signing

variable {client server attacker : Node F} {start : NodeState F} {granted peerIp : String}
  {vault : Vault} {pieces : String → List Bytes} {moves : List Move}

theorem readMessage_nil (message : RawMessage F) : readMessage client [] ≠ .ok message := by
  intro h
  cases h

/-- What the client reads of what the server sends is what the server answers. -/
theorem read_answer (hvault : server.vault = some vault) (hvouched : Vouched F vault pieces)
    {request response : RawMessage F} {s : NodeState F} (hnonce : DistinctKeys request.nonce)
    (hread : readMessage client (server.handleRaw peerIp request s).sent.flatten = .ok response) :
    ∃ reply, (server.respondRaw peerIp request s).1 = .ok reply ∧ response = reply.raw := by
  rw [Node.handleRaw, Node.answer] at hread
  rcases hrespond : server.respondRaw peerIp request s with ⟨e | reply, s'⟩
  · rw [bind_error hrespond] at hread
    exact absurd hread (readMessage_nil response)
  · rw [bind_ok hrespond, Node.sendReply] at hread
    have hreply : (server.respondRaw peerIp request s).1 = .ok reply := congrArg Prod.fst hrespond
    rw [← hrespond]
    split at hread
    · exact absurd hread (readMessage_nil response)
    · cases hsent : sendFrame (toDict reply) with
      | error e =>
        rw [hsent] at hread
        exact absurd hread (readMessage_nil response)
      | ok stream =>
        rw [hsent] at hread
        have hstream : readMessage client stream = .ok response := by
          rw [← List.append_nil stream]
          exact hread
        have hkeys := distinct_respondRaw hvault hvouched hnonce hreply
        rw [readMessage_frame hkeys hsent] at hstream
        exact ⟨reply, hreply, (Except.ok.inj hstream).symm⟩

/-- The octets are those of a message that has been signed anew. -/
def Anew (attacker : Node F) (granted : String) (stream : Bytes) : Prop :=
  ∃ message : Message F, DistinctKeys message.payload ∧
    sendFrame (toDict (relay attacker granted message)) = .ok stream

theorem anew_of_relayed {frame stream : Bytes}
    (h : relayed server attacker granted frame = .ok stream) : Anew attacker granted stream := by
  obtain ⟨message, hread, hsent⟩ := bind_eq_ok h
  exact ⟨message, distinct_readRequest hread, hsent⟩

variable (server attacker start granted peerIp) in
theorem watched_relaying (frame : Bytes) (moves : List Move) :
    (∃ stream, Anew attacker granted stream ∧
      watched (relaying server attacker start granted peerIp) frame moves =
        (.ok (server.handleConnection peerIp stream
          (serverAfter server start (moves ++ [.sent frame]))).sent.flatten,
          moves ++ [.sent frame, .handled peerIp stream])) ∨
    ∃ e, watched (relaying server attacker start granted peerIp) frame moves =
      (.error e, moves ++ [.sent frame]) := by
  cases hrelayed : relayed server attacker granted frame with
  | ok stream =>
    refine Or.inl ⟨stream, anew_of_relayed hrelayed, ?_⟩
    rw [watched, relaying, hrelayed]
  | error e =>
    refine Or.inr ⟨e, ?_⟩
    rw [watched, relaying, hrelayed]

/-- All that the server is sent has been signed anew. -/
def AllAnew (attacker : Node F) (granted : String) (moves : List Move) : Prop :=
  ∀ peerIp stream, .handled peerIp stream ∈ moves → Anew attacker granted stream

theorem allAnew_watched (h : AllAnew attacker granted moves) (frame : Bytes) :
    AllAnew attacker granted
      (watched (relaying server attacker start granted peerIp) frame moves).2 := by
  intro ip stream hmem
  rcases watched_relaying server attacker start granted peerIp frame moves with
    ⟨relayed, hanew, heq⟩ | ⟨e, heq⟩
  · rw [heq, List.mem_append] at hmem
    rcases hmem with hmem | hmem
    · exact h ip stream hmem
    · simp only [List.mem_cons, List.not_mem_nil, or_false, reduceCtorEq, false_or,
        Move.handled.injEq] at hmem
      rw [hmem.2]
      exact hanew
  · rw [heq, List.mem_append] at hmem
    rcases hmem with hmem | hmem
    · exact h ip stream hmem
    · simp at hmem

theorem allAnew_history (frames : List Bytes) : AllAnew attacker granted
    (history (relaying server attacker start granted peerIp) frames) := by
  induction frames using List.reverseRecOn with
  | nil =>
    intro ip stream hmem
    cases hmem
  | append_singleton frames frame ih =>
    rw [history, List.foldl_concat]
    exact allAnew_watched ih frame

/-- No signature of the two nodes is made when messages are signed anew with another key. -/
theorem authentic_relaying (hvault : server.vault = some vault) (hvouched : Vouched F vault pieces)
    (hother : attacker.pub ≠ client.pub) (hanew : AllAnew attacker granted moves) (frame : Bytes) :
    Authentic client server start
      (watched (relaying server attacker start granted peerIp) frame moves).2
      (watched (relaying server attacker start granted peerIp) frame moves).1 where
  answered := by
    intro stream response hanswer hread hsender hvalid
    rcases watched_relaying server attacker start granted peerIp frame moves with
      ⟨relayed, hrelayed, heq⟩ | ⟨e, heq⟩
    · rw [heq] at hanswer ⊢
      obtain ⟨message, hkeys, hsent⟩ := hrelayed
      obtain rfl := Except.ok.inj hanswer
      rw [handleConnection_frame (distinct_exchanged hkeys) hsent] at hread
      have hrequest : readMessage server relayed = .ok (relay attacker granted message).raw :=
        readMessage_frame (distinct_exchanged hkeys) hsent
      have hearlier : moves ++ [.sent frame] ++ [.handled peerIp relayed] <+:
          moves ++ [.sent frame, .handled peerIp relayed] := by
        rw [List.append_assoc]
        exact List.prefix_rfl
      have hhandles : Handles server start (moves ++ [.sent frame, .handled peerIp relayed]) peerIp
          (relay attacker granted message).raw
          (serverAfter server start (moves ++ [.sent frame])) :=
        ⟨moves ++ [.sent frame], relayed, hearlier, rfl, hrequest⟩
      have hnonce : DistinctKeys (relay attacker granted message).raw.nonce := trivial
      obtain ⟨reply, hreply, rfl⟩ := read_answer hvault hvouched hnonce hread
      exact ⟨peerIp, _, _, reply, hhandles, hreply, rfl⟩
    · rw [heq] at hanswer
      cases hanswer
  asked := by
    intro ip request before hhandles hsender hvalid
    obtain ⟨earlier, stream, hearlier, -, hread⟩ := hhandles
    obtain ⟨message, hkeys, hsent⟩ := allAnew_watched hanew frame ip stream
      (hearlier.subset (by simp))
    rw [readMessage_frame (distinct_exchanged hkeys) hsent] at hread
    rw [← Except.ok.inj hread] at hsender
    exact absurd (Json.str.inj hsender) hother

end Signing

section Pulls

variable {course : Course F} {attacker : Node F} {start : NodeState F} {peerIp modelId : String}
  {vault : Vault} {pieces : String → List Bytes} {manifest : ModelManifest F} {id : Bytes}

/-- Two honest nodes and the key of somebody else, in whose name the server is asked. -/
structure Posed (course : Course F) (attacker : Node F) (vault : Vault)
    (pieces : String → List Bytes) (manifest : ModelManifest F) (id : Bytes) : Prop where
  vouched : Vouched F vault pieces
  stocked : Stocked course vault (pieces manifest.modelId) manifest id
  sender : course.sender = attacker.pub
  other : attacker.pub ≠ course.client.pub
  ed : course.client.ed = course.server.ed
  attackerEd : attacker.ed = course.server.ed
  sha : course.client.sha = vault.crypto.sha
  logs : LogWorks course.client
  short : ∀ tick, Short course.client "SESSION_OPEN" (openPayload manifest.modelId 1000000 3600)
    tick

theorem Posed.connected (h : Posed course attacker vault pieces manifest id)
    (start : NodeState F) (peerIp modelId : String) :
    Connected course (watched (relaying course.server attacker start manifest.modelId peerIp))
      (serverAfter course.server start) (relay attacker manifest.modelId) peerIp modelId vault
      (pieces manifest.modelId) manifest id where
  brings := brings_relaying h.short
  courier := by
    rw [h.sender]
    exact courier_relay h.attackerEd
  stocked := h.stocked
  ed := h.ed
  sha := h.sha
  logs := h.logs

/-- Somebody whose key may read a model has a pull of whatever model return the file of that one,
whenever the messages come through, and no signature of the two nodes is made. -/
theorem pull_relayed (machine : Machine) (hcalm : ∀ tick, machine.spoiled tick = none)
    (destination : Path) {u : Unit}
    (hmkdir : machine.mkdir (targetDirectory destination modelId) = .ok u)
    (hposed : Posed course attacker vault pieces manifest id) {w : World (List Move) F}
    (hbegins : Begins course (serverAfter course.server start) modelId manifest.modelId w)
    (htime : course.InTime (pieces manifest.modelId).length) :
    (∀ frames frame, Authentic course.client course.server start
      (watched (relaying course.server attacker start manifest.modelId peerIp) frame
        (history (relaying course.server attacker start manifest.modelId peerIp) frames)).2
      (watched (relaying course.server attacker start manifest.modelId peerIp) frame
        (history (relaying course.server attacker start manifest.modelId peerIp) frames)).1) ∧
    ((∃ result w', pullModel course.client
        (watched (relaying course.server attacker start manifest.modelId peerIp)) machine
        course.server.pub modelId destination w = (.ok result, w')) ↔
      course.Completes modelId vault.crypto.sha (pieces manifest.modelId) manifest) ∧
    ∀ result w', pullModel course.client
        (watched (relaying course.server attacker start manifest.modelId peerIp)) machine
        course.server.pub modelId destination w = (.ok result, w') →
      w'.files (targetFile destination modelId) = some (pieces manifest.modelId).flatten := by
  have hpull := pull_carried (hposed.connected start peerIp modelId) hbegins htime hcalm
    destination hmkdir
  refine ⟨fun frames frame => ?_, hpull⟩
  exact authentic_relaying hposed.stocked.holds hposed.vouched hposed.other
    (allAnew_history frames) frame

end Pulls

section Samples

open JsonStrings (WholeFloat)
open ServedSessions (servingNode servingState isAllowed_single accept_new accept_second)

theorem server_key_length : (Ed25519.sample.publicKey (octets 32 7)).length = 32 :=
  octets_length 32 7

theorem server_signature_length (message : Bytes) :
    (Ed25519.sample.sign (octets 32 7) message).length = 64 := octets_length 64 _

/-- A server with a key of its own. -/
def sampleServer : Node WholeFloat :=
  { servingNode with
    key := octets 32 7
    key_length := server_key_length
    signature_length := server_signature_length }

theorem sample_offered :
    Offered servedVault [[1, 2, 3]] servedManifest (octets 16 19) :=
  ⟨rfl, servedVault_published, rfl⟩

theorem sample_vouched : Vouched WholeFloat servedVault (fun _ => [[1, 2, 3]]) := by
  intro modelId content hfile
  exact ⟨servedManifest, octets 16 19, servedVault_path hfile, sample_offered⟩

/-- The client asks for a model, and the server is asked in the name of a key that may read
another one. -/
def sampleCourse : Course WholeFloat :=
  ⟨sampleNode, sampleServer, samplePeer.pub, 0, 0, NonceCache.new⟩

theorem sample_stocked :
    Stocked sampleCourse servedVault [[1, 2, 3]] servedManifest (octets 16 19) where
  holds := rfl
  sha := rfl
  offered := sample_offered
  readable := servedVault_readable
  str := RawManifests.sampleStr_int
  logs := fun _ hlog => by cases hlog
  hour := ⟨⟨3600⟩, rfl, rfl⟩

theorem sample_posed : Posed sampleCourse samplePeer servedVault (fun _ => [[1, 2, 3]])
    servedManifest (octets 16 19) where
  vouched := sample_vouched
  stocked := sample_stocked
  sender := rfl
  other := by
    intro h
    have hkeys := octets_inj (by decide) (by decide) (by decide) (hex_injective h)
    exact absurd hkeys (by decide)
  ed := rfl
  attackerEd := rfl
  sha := rfl
  logs := fun _ hlog => by cases hlog
  short := by
    intro tick
    change Short sampleNode "SESSION_OPEN" (openPayload "m" 1000000 3600) 0
    rw [Short, signedLength]
    decide +kernel

theorem sampleWorld_known {σ : Type} (peer : String) (network : σ) :
    ((sampleWorld peer network).client.peers.get? peer).isSome = true := by
  have hknown : (sampleWorld peer network).client.peers.get? peer = some ("127.0.0.1", 7788) :=
    (Dict.get?_set _ _ _ _).trans (if_pos rfl)
  rw [hknown]
  rfl

def sampleWatched : World (List Move) WholeFloat := sampleWorld sampleServer.pub []

theorem sample_begins :
    Begins sampleCourse (serverAfter sampleServer servingState) "x" "m" sampleWatched where
  made := rfl
  known := sampleWorld_known _ _
  cache := PoisonedPulls.undamaged_of_reachable sampleNode
    (PoisonedPulls.Reachable.start rfl)
  absent := fun _ => rfl
  began := rfl
  nonces := rfl
  allowed := isAllowed_single "m" samplePeer.pub
  sessions := by decide

theorem sample_inWindow : outOfWindow WholeFloat 0 maxSkew (.at 0) = false :=
  decide_eq_false (by norm_num [maxSkew])

theorem sample_inTime : sampleCourse.InTime 1 where
  timely := fun _ _ => ⟨sample_inWindow, sample_inWindow⟩
  opened := fun _ _ => ⟨show (0 : ℚ) ≤ 0 + 3600 by norm_num, show (0 : ℚ) ≤ 0 + 3600 by norm_num⟩

theorem sample_takes : sampleCourse.Takes 0 ∧ sampleCourse.Takes 1 := by
  have hother : (samplePeer.pub, hex (octets 16 2)) ≠ (samplePeer.pub, hex (octets 16 0)) := by
    intro h
    have hticks := octets_inj (by decide) (by decide) (by decide)
      (hex_injective (congrArg Prod.snd h))
    exact absurd hticks (by decide)
  refine ⟨congrArg Prod.fst (accept_new _), ?_⟩
  have htable : sampleCourse.table 1 =
      NonceCache.new.remember WholeFloat (samplePeer.pub, hex (octets 16 0)) 0 :=
    congrArg Prod.snd (accept_new _)
  rw [Course.Takes, htable]
  exact congrArg Prod.fst (accept_second hother)

theorem sample_completes :
    sampleCourse.Completes "x" Sha256.sample [[1, 2, 3]] servedManifest where
  opens := by
    refine ⟨sample_takes.1, ?_, ?_⟩
    · rw [Short, signedLength]
      decide +kernel
    · rw [fits_shallow rfl, signedLength]
      decide +kernel
  serves := by
    intro i piece hpiece
    cases i with
    | zero =>
      obtain rfl := Option.some.inj hpiece
      refine ⟨by decide, sample_takes.2, ?_, ?_⟩
      · rw [Short, signedLength]
        decide +kernel
      · rw [fits_shallow rfl, signedLength]
        decide +kernel
    | succ i => cases hpiece

/-- The client asks for one model and is given the file of another one. -/
theorem pull_relayed_sample : ∃ result w', pullModel sampleNode
      (watched (relaying sampleServer samplePeer servingState "m" "ip")) sampleMachine
      sampleServer.pub "x" ["d"] sampleWatched = (.ok result, w') ∧
    w'.files (targetFile ["d"] "x") = some [1, 2, 3] := by
  obtain ⟨-, hreturns, hfile⟩ := pull_relayed sampleMachine (fun _ => rfl) ["d"] rfl sample_posed
    sample_begins sample_inTime
  obtain ⟨result, w', hpull⟩ := hreturns.mpr sample_completes
  exact ⟨result, w', hpull, hfile result w' hpull⟩

end Samples

end Decillion.RelayedPulls
