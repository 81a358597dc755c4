import Decillion.ServedSessions
import Decillion.WatchedNetworks

/-!
The sessions of a server whose network is watched. Each one that it has was opened by a message
that it has handled, an accepted session is one of these, and every shard that it sends is a shard
of the model of the session that its request names.
-/
namespace Decillion.GrantedSessions

open ByteText Base64Text JsonObjects JsonText JsonValues Primitives Dictionaries PyErrors PyValues
open AccessRequests ShardManifests ShardVault RawManifests RaisingPrograms TelepathMessages
open TelepathSessions TelepathFrames TelepathNodes TelepathExchanges TelepathServing ScriptedPeers
open SessionSteps VaultLabels SessionAnswers CarriedPulls WatchedNetworks
open ManifestPaths (textOf)
open ServedSessions (Opens)

variable {F : Type} [FloatText F] [FloatTime F] [FloatNumber F] [FloatConversion F]

section Connections

variable {server : Node F} {peerIp : String} {stream : Bytes} {s : NodeState F}

theorem handleConnection_read {message : RawMessage F}
    (h : readMessage server stream = .ok message) :
    server.handleConnection peerIp stream s = server.handleRaw peerIp message s := by
  obtain ⟨value, hvalue, hmessage⟩ := bind_eq_ok h
  rw [Node.handleConnection, hvalue, bind_lift_ok, hmessage, bind_lift_ok]
  rfl

theorem handleConnection_unread {e : PyError} (h : readMessage server stream = .error e) :
    server.handleConnection peerIp stream s = Node.finish (.error e, s) := by
  rw [readMessage] at h
  rw [Node.handleConnection]
  cases hvalue : recvFrame (F := F) stream with
  | error e' =>
    rw [hvalue] at h
    rw [bind_lift_error, Except.error.inj h]
  | ok value =>
    rw [hvalue, ok_bind] at h
    rw [bind_lift_ok, h, bind_lift_error]

end Connections

section Sessions

variable {server : Node F} {start : NodeState F} {moves final : List Move}

theorem Handles.later {peerIp : String} {request : RawMessage F} {before : NodeState F}
    (h : Handles server start moves peerIp request before) (hlater : moves <+: final) :
    Handles server start final peerIp request before := by
  obtain ⟨earlier, stream, hearlier, hstate, hread⟩ := h
  exact ⟨earlier, stream, hearlier.trans hlater, hstate, hread⟩

/-- A session that was opened by one of the messages that the server has handled. -/
def OpenedBy (server : Node F) (start : NodeState F) (moves : List Move) (session : Session) :
    Prop :=
  ∃ peerIp message before, Handles server start moves peerIp message.raw before ∧
    Opens server message before session

theorem OpenedBy.later {session : Session} (h : OpenedBy server start moves session)
    (hlater : moves <+: final) : OpenedBy server start final session := by
  obtain ⟨peerIp, message, before, hhandles, hopens⟩ := h
  exact ⟨peerIp, message, before, Handles.later hhandles hlater, hopens⟩

/-- Every session that is there has been opened, and some shards have been charged to it. -/
def Registered (server : Node F) (start : NodeState F) (moves : List Move) (s : NodeState F) :
    Prop :=
  ∀ key session, s.sessions.sessions.get? key = some session → ∃ first,
    OpenedBy server start moves first ∧ session = { first with usedShards := session.usedShards }

variable {s s' : NodeState F}

theorem Registered.shrunk (h : Registered server start moves s)
    (hshrunk : Shrunk s.sessions s'.sessions) (hlater : moves <+: final) :
    Registered server start final s' := by
  intro key session hfound
  obtain ⟨first, hopened, hsession⟩ := h key session (hshrunk.kept key session hfound)
  exact ⟨first, hopened.later hlater, hsession⟩

theorem Registered.put (h : Registered server start moves s) {session first : Session}
    (hput : Put session s s') (hlater : moves <+: final)
    (hopened : OpenedBy server start final first)
    (hsession : session = { first with usedShards := session.usedShards }) :
    Registered server start final s' := by
  intro key other hfound
  obtain ⟨registry, hshrunk, hregistry⟩ := hput.sessions
  rw [hregistry, SessionRegistry.get?_put] at hfound
  split at hfound
  · obtain rfl := Option.some.inj hfound
    exact ⟨first, hopened, hsession⟩
  · obtain ⟨first, hopened, hother⟩ := h key other (hshrunk.kept key other hfound)
    exact ⟨first, hopened.later hlater, hother⟩

/-- A message that is handled opens a session, charges one that has been opened, or leaves them. -/
theorem registered_handled (h : Registered server start moves (serverAfter server start moves))
    {peerIp : String} {stream : Bytes} {message : RawMessage F}
    (hread : readMessage server stream = .ok message) :
    Registered server start (moves ++ [.handled peerIp stream])
      (server.respondRaw peerIp message (serverAfter server start moves)).2 := by
  have hlater : moves <+: moves ++ [.handled peerIp stream] := List.prefix_append _ _
  have hhandles : Handles server start (moves ++ [.handled peerIp stream]) peerIp message
      (serverAfter server start moves) := ⟨moves, stream, List.prefix_rfl, rfl, hread⟩
  rcases effect_respondRaw server message (serverAfter server start moves) peerIp with
    ⟨text, htext, heffect⟩ | ⟨hquiet, -⟩
  · obtain rfl := raw_of_text? htext
    cases heffect with
    | quiet hquiet hbare => exact h.shrunk hquiet.sessions hlater
    | opens session harrives haccepts hput hbare =>
      exact h.put hput hlater ⟨peerIp, text, _, hhandles, harrives, haccepts⟩ rfl
    | charges current used index harrives hcharges hput hcarries =>
      obtain ⟨first, hopened, hcurrent⟩ := h current.sessionId current hcharges.found
      refine h.put hput hlater (hopened.later hlater) ?_
      rw [(Session.consume_eq_some hcharges.consumed).2.2, hcurrent]
  · exact h.shrunk hquiet.sessions hlater

/-- In every run all sessions that are there have been opened in it. -/
theorem registered_after (hempty : start.sessions.sessions = Dict.empty) (moves : List Move) :
    Registered server start moves (serverAfter server start moves) := by
  induction moves using List.reverseRecOn with
  | nil =>
    intro key session hfound
    change start.sessions.sessions.get? key = some session at hfound
    rw [hempty, Dict.get?_empty] at hfound
    cases hfound
  | append_singleton moves last ih =>
    have hlater : moves <+: moves ++ [last] := List.prefix_append _ _
    have hafter : serverAfter server start (moves ++ [last]) =
        move server (serverAfter server start moves) last := List.foldl_concat ..
    rw [hafter]
    cases last with
    | sent frame => exact ih.shrunk (Shrunk.refl _) hlater
    | ruled acl => exact ih.shrunk (Shrunk.refl _) hlater
    | handled peerIp stream =>
      rw [move]
      cases hread : readMessage server stream with
      | error e =>
        rw [handleConnection_unread hread, Node.finish]
        exact ih.shrunk (Shrunk.refl _) hlater
      | ok message =>
        rw [handleConnection_read hread, Node.handleRaw_state]
        exact registered_handled ih hread

section Opened

omit [FloatText F] in
theorem sessionId_of_requested {message : Message F} {modelId : String} {nShards : Json F}
    {session : Session} (h : (server.requestSession message modelId nShards s).1 = .ok session) :
    session.sessionId = hex (server.uuid (s.tick + 1)) := by
  rcases hrun : server.requestSession message modelId nShards s with ⟨result, s₁⟩
  rw [hrun] at h
  obtain rfl : result = .ok session := h
  obtain ⟨purpose, -, hrun⟩ := returned_bind_lift hrun
  obtain ⟨asked, -, hrun⟩ := returned_bind_lift hrun
  obtain ⟨budget, -, hrun⟩ := returned_bind_lift hrun
  obtain ⟨lifetime, -, hrun⟩ := returned_bind_lift hrun
  obtain ⟨ttl, -, hrun⟩ := returned_bind_lift hrun
  cases hbounds : SessionRegistry.inBounds budget (FloatNumber.number ttl) with
  | none =>
    rw [Node.openRegistry_outOfBounds hbounds] at hrun
    cases (Prod.mk.inj hrun).1
  | some seconds =>
    cases hroom : (s.sessions.gc F (server.clock s.tick)).makeRoom with
    | error e =>
      rw [Node.openRegistry_full hbounds hroom] at hrun
      cases (Prod.mk.inj hrun).1
    | ok registry =>
      rw [Node.openRegistry_ok hbounds hroom] at hrun
      rw [← Except.ok.inj (Prod.mk.inj hrun).1]
      rfl

variable {message : Message F} {first : Session}

/-- The id of a session is drawn when its request has been received. -/
theorem sessionId_of_opens (h : Opens server message s first) :
    first.sessionId = hex (server.uuid (s.tick + 3)) := by
  obtain ⟨vault, manifest, -, -, hrequested⟩ := h.2.opened
  exact sessionId_of_requested hrequested

/-- What a message does leaves the list of keys and the room for sessions as they are. -/
theorem kept_respondRaw (server : Node F) (message : RawMessage F) (s : NodeState F)
    (peerIp : String) : (server.respondRaw peerIp message s).2.acl = s.acl ∧
      (server.respondRaw peerIp message s).2.sessions.maxSessions = s.sessions.maxSessions := by
  have hput : ∀ {session s'}, Put session s s' →
      s'.acl = s.acl ∧ s'.sessions.maxSessions = s.sessions.maxSessions := by
    intro session s' hput
    obtain ⟨registry, hshrunk, hregistry⟩ := hput.sessions
    refine ⟨hput.acl, ?_⟩
    rw [hregistry]
    exact hshrunk.limit
  rcases effect_respondRaw server message s peerIp with ⟨text, -, heffect⟩ | ⟨hquiet, -⟩
  · cases heffect with
    | quiet hquiet hbare => exact ⟨hquiet.acl, hquiet.sessions.limit⟩
    | opens session harrives haccepts hopened hbare => exact hput hopened
    | charges current used index harrives hcharges hcharged hcarries => exact hput hcharged
  · exact ⟨hquiet.acl, hquiet.sessions.limit⟩

end Opened

end Sessions

section Answers

variable {server : Node F} {vault : Vault} {pieces : String → List Bytes} {peerIp : String}
  {s : NodeState F} {request : RawMessage F} {reply : Message F}

/-- A shard that is sent is one of the model of the session that the request is charged to. -/
theorem shard_told (hvault : server.vault = some vault) (hvouched : Vouched F vault pieces)
    (hstr : ∀ n, server.str (.int n) = toString n)
    (hreply : (server.respondRaw peerIp request s).1 = .ok reply)
    (htype : reply.type = "SHARD_DATA") :
    ∃ (text : Message F) (current used : Session) (i : ℕ) (piece : Bytes) (tick : ℕ),
      request = text.raw ∧ Arrives server text s "REQUEST_SHARD" ∧
      Charges server text (server.received s text) current used i ∧
      (pieces current.modelId)[i]? = some piece ∧
      reply = answerTo server text.nonce "SHARD_DATA"
        (shardMembers server current.modelId i piece) tick := by
  rcases effect_respondRaw server request s peerIp with ⟨text, htext, heffect⟩ | ⟨-, hbare⟩
  · obtain rfl := raw_of_text? htext
    cases heffect with
    | quiet hquiet hbare => exact absurd htype (hbare reply hreply)
    | opens session harrives haccepts hput hbare => exact absurd htype (hbare reply hreply)
    | charges current used index harrives hcharges hput hcarries =>
      obtain ⟨sent, rfl, opened, now, manifest, data, tick, hopened, hfound, hread, rfl⟩ :=
        hcarries reply hreply htype
      obtain rfl := Option.some.inj (hvault.symm.trans hopened)
      obtain ⟨i, rfl, hpiece⟩ := readShard_intact hstr hvouched.intact hfound hread
      exact ⟨text, current, used, i, data, tick, rfl, harrives, hcharges, hpiece, rfl⟩
  · exact absurd htype (hbare reply hreply)

/-- An answer that accepts a session or carries a shard names a request that is verified. -/
theorem bound_told (hvault : server.vault = some vault) (hvouched : Vouched F vault pieces)
    (hstr : ∀ n, server.str (.int n) = toString n) (hnonce : DistinctKeys request.nonce)
    (hreply : (server.respondRaw peerIp request s).1 = .ok reply)
    (htype : reply.type = "SESSION_ACCEPT" ∨ reply.type = "SHARD_DATA") :
    ∃ (text : Message F) (kind : String), request = text.raw ∧ Arrives server text s kind ∧
      (kind = "SESSION_OPEN" ∨ kind = "REQUEST_SHARD") ∧
      reply.payload.get? "request_nonce" = some (.str text.nonce) := by
  rcases htype with haccept | hshard
  · rcases told_respondRaw hvault hvouched hnonce hreply with hother |
      ⟨text, rfl, harrives, sent, ⟨manifest, id, session, tick, -, -, -, -, rfl⟩, rfl⟩
    · exact absurd haccept hother.1
    · exact ⟨text, _, rfl, harrives, Or.inl rfl, lookup_setMember _ _ _⟩
  · obtain ⟨text, current, used, i, piece, tick, rfl, harrives, -, -, rfl⟩ :=
      shard_told hvault hvouched hstr hreply hshard
    exact ⟨text, _, rfl, harrives, Or.inr rfl, lookup_setMember _ _ _⟩

end Answers

end Decillion.GrantedSessions
