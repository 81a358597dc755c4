import Decillion.TelepathServing

/-!
What one message does to the sessions of a node. It forgets some of them, opens one for the
sender of the message, or charges a shard to one of the sender's own; only then a shard is
sent. The list of keys is left alone, and the count of the readings of the clock grows.
-/
namespace Decillion.SessionSteps

open ByteText Base64Text JsonValues JsonText Primitives Dictionaries PyErrors PyValues
open AccessRequests ShardVault RawManifests RaisingPrograms TelepathMessages TelepathSessions
open TelepathFrames TelepathNodes TelepathExchanges TelepathServing
open ManifestPaths (textOf)

variable {F α : Type}

section Registries

variable {r r' r'' : SessionRegistry}

/-- A registry with some of the sessions of another one. -/
structure Shrunk (r r' : SessionRegistry) : Prop where
  limit : r'.maxSessions = r.maxSessions
  size : r'.sessions.size ≤ r.sessions.size
  kept : ∀ key session, r'.sessions.get? key = some session → r.sessions.get? key = some session

theorem Shrunk.refl (r : SessionRegistry) : Shrunk r r := ⟨rfl, le_rfl, fun _ _ h => h⟩

theorem Shrunk.trans (h : Shrunk r r') (h' : Shrunk r' r'') : Shrunk r r'' :=
  ⟨h'.limit.trans h.limit, h'.size.trans h.size, fun key session hget =>
    h.kept key session (h'.kept key session hget)⟩

theorem shrunk_filter (r : SessionRegistry) (p : String → Session → Bool) :
    Shrunk r (r.filter p) := by
  refine ⟨rfl, Dict.size_filter_le _ _, fun key session h => ?_⟩
  rw [SessionRegistry.filter, Dict.get?_filter, Option.filter_eq_some_iff] at h
  exact h.1

theorem shrunk_gc [FloatTime F] (r : SessionRegistry) (now : ℚ) : Shrunk r (r.gc F now) :=
  shrunk_filter r _

theorem shrunk_makeRoom (h : r.makeRoom = .ok r') : Shrunk r r' := by
  unfold SessionRegistry.makeRoom at h
  split at h
  · cases holdest : r.oldest with
    | none =>
      rw [holdest] at h
      cases h
    | some oldest =>
      rw [holdest] at h
      rw [← Except.ok.inj h]
      exact shrunk_filter r _
  · rw [← Except.ok.inj h]
    exact Shrunk.refl r

/-- Room is made for one more session. -/
theorem size_makeRoom (h : r.makeRoom = .ok r') (hmax : 1 ≤ r.maxSessions)
    (hsize : r.sessions.size ≤ r.maxSessions) : r'.sessions.size < r'.maxSessions := by
  obtain ⟨made, hmade, -, hroom, -⟩ := r.makeRoom_ok hmax
  rw [h, Except.ok.injEq] at hmade
  rw [hmade]
  exact hroom hsize

end Registries

/-- The sessions and the list of keys stay, and time goes on. -/
structure Same (s s' : NodeState F) : Prop where
  sessions : s'.sessions = s.sessions
  acl : s'.acl = s.acl
  tick : s.tick ≤ s'.tick

/-- Some sessions are forgotten. -/
structure Quiet (s s' : NodeState F) : Prop where
  sessions : Shrunk s.sessions s'.sessions
  acl : s'.acl = s.acl
  tick : s.tick ≤ s'.tick

/-- A session is put into what is left of the registry. -/
structure Put (session : Session) (s s' : NodeState F) : Prop where
  sessions : ∃ registry, Shrunk s.sessions registry ∧ s'.sessions = registry.put session
  size : 1 ≤ s.sessions.maxSessions → s.sessions.sessions.size ≤ s.sessions.maxSessions →
    s'.sessions.sessions.size ≤ s.sessions.maxSessions
  acl : s'.acl = s.acl
  tick : s.tick ≤ s'.tick

theorem Same.refl (s : NodeState F) : Same s s := ⟨rfl, rfl, le_rfl⟩

theorem Same.quiet {s s' : NodeState F} (h : Same s s') : Quiet s s' :=
  ⟨h.sessions ▸ Shrunk.refl _, h.acl, h.tick⟩

theorem Quiet.same {s s' s'' : NodeState F} (h : Quiet s s') (h' : Same s' s'') : Quiet s s'' :=
  ⟨h'.sessions ▸ h.sessions, h'.acl.trans h.acl, h.tick.trans h'.tick⟩

theorem Put.same {session : Session} {s s' s'' : NodeState F} (h : Put session s s')
    (h' : Same s' s'') : Put session s s'' := by
  obtain ⟨registry, hshrunk, hregistry⟩ := h.sessions
  refine ⟨⟨registry, hshrunk, h'.sessions.trans hregistry⟩, ?_, h'.acl.trans h.acl,
    h.tick.trans h'.tick⟩
  rw [h'.sessions]
  exact h.size

theorem Same.put {session : Session} {s s' s'' : NodeState F} (h : Same s s')
    (h' : Put session s' s'') : Put session s s'' :=
  ⟨h.sessions ▸ h'.sessions, h.sessions ▸ h'.size, h'.acl.trans h.acl, h.tick.trans h'.tick⟩

theorem Same.then {s s' s'' : NodeState F} (h : Same s s') (h' : Quiet s' s'') : Quiet s s'' :=
  ⟨h.sessions ▸ h'.sessions, h'.acl.trans h.acl, h.tick.trans h'.tick⟩

section Parts

variable [FloatText F] [FloatTime F] {node : Node F} {s₀ : NodeState F}

theorem same_reply (kind : String) (payload : Members F) :
    Maintains (Same s₀) (node.reply kind payload) :=
  fun s h => ⟨h.sessions, h.acl, h.tick.trans (Nat.le_succ s.tick)⟩

omit [FloatText F] in
theorem same_receipt (kind modelId actor : String) (payload : Members F) :
    Maintains (Same s₀) (node.receipt kind modelId actor payload) := by
  intro s hs
  unfold Node.receipt
  cases node.receipts <;> exact hs

variable [FloatNumber F] [FloatConversion F] (message : Message F)

omit [FloatConversion F] in
theorem same_sendShard (session : Session) (index : ℤ) :
    Maintains (Same s₀) (node.sendShard message session index) := by
  unfold Node.sendShard
  split
  · exact maintains_throw _
  · apply maintains_get
    intro s hs
    refine maintains_bind (maintains_lift _) ?_ s hs
    intro manifest
    refine maintains_bind (maintains_lift _) ?_
    intro found
    split
    · exact same_reply _ _
    · exact maintains_bind (same_receipt _ _ _ _) (fun _ => same_reply _ _)

omit [FloatConversion F] in
theorem same_hello (peerIp : String) : Maintains (Same s₀) (node.hello peerIp message) := by
  refine maintains_bind (maintains_lift _) ?_
  intro asked
  refine maintains_bind (maintains_lift _) ?_
  intro port
  dsimp only
  split
  · exact maintains_bind (maintains_change (fun s hs => ⟨hs.sessions, hs.acl, hs.tick⟩))
      (fun _ => same_reply _ _)
  · exact same_reply _ _

omit [FloatConversion F] in
theorem same_receiveRam : Maintains (Same s₀) (node.receiveRam message) := by
  refine maintains_bind (maintains_lift _) ?_
  intro asked
  refine maintains_bind (maintains_lift _) ?_
  intro asked
  refine maintains_bind (maintains_lift _) ?_
  intro size
  exact maintains_bind (same_receipt _ _ _ _) (fun _ => same_reply _ _)

end Parts

section Requests

variable [FloatText F] [FloatTime F] [FloatNumber F] [FloatConversion F] (node : Node F)
  (message : Message F) (s : NodeState F)

/-- A session as it is opened for the sender of a message. -/
structure Granted (modelId : String) (session : Session) : Prop where
  peerPub : session.peerPub = message.sender
  modelId : session.modelId = modelId
  usedShards : session.usedShards = 0
  budget : 1 ≤ session.budgetShards ∧ session.budgetShards ≤ 1000000
  ttl : 1 ≤ session.ttl ∧ session.ttl ≤ 86400

variable {node} {message} {s}

variable (node message s) in
omit [FloatText F] in
theorem requestSession_cases (modelId : String) (nShards : Json F) :
    (∃ e s', node.requestSession message modelId nShards s = (.error e, s') ∧ Quiet s s') ∨
    ∃ session s', node.requestSession message modelId nShards s = (.ok session, s') ∧
      Granted message modelId session ∧ Put session s s' := by
  cases hpayload : message.payload with
  | obj members =>
    cases hbudget : toInt node.repr (field members "budget_shards" nShards) with
    | error e =>
      exact Or.inl ⟨e, s, Node.requestSession_budget hpayload hbudget, (Same.refl s).quiet⟩
    | ok budget =>
      cases httl : toFloat node.repr (field members "ttl_s" (.int 600)) with
      | error e =>
        exact Or.inl ⟨e, s, Node.requestSession_ttl hpayload hbudget httl, (Same.refl s).quiet⟩
      | ok ttl =>
        rw [Node.requestSession_open hpayload hbudget httl]
        have hgc : Quiet s { s.next with sessions := s.sessions.gc F (node.clock s.tick) } :=
          ⟨shrunk_gc _ _, rfl, Nat.le_succ _⟩
        cases hbounds : SessionRegistry.inBounds budget (FloatNumber.number ttl) with
        | none => exact Or.inl ⟨_, _, Node.openRegistry_outOfBounds hbounds, hgc⟩
        | some seconds =>
          cases hroom : (s.sessions.gc F (node.clock s.tick)).makeRoom with
          | error e => exact Or.inl ⟨_, _, Node.openRegistry_full hbounds hroom, hgc⟩
          | ok registry =>
            obtain ⟨-, hlow, hhigh, hshort, hlong⟩ := SessionRegistry.inBounds_eq_some hbounds
            refine Or.inr ⟨_, _, Node.openRegistry_ok hbounds hroom,
              ⟨rfl, rfl, rfl, ⟨hlow, hhigh⟩, ⟨hshort, hlong⟩⟩,
              ⟨⟨registry, (shrunk_gc _ _).trans (shrunk_makeRoom hroom), rfl⟩, ?_, rfl,
                Nat.le_add_right _ 2⟩⟩
            intro hmax hsize
            have hlimit := (shrunk_makeRoom hroom).limit
            have hless := size_makeRoom hroom hmax ((SessionRegistry.size_gc_le F _ _).trans hsize)
            have hput := Dict.size_set_le registry.sessions
              (node.opened s message.sender modelId
                (textOf node.str (field members "purpose" (.str "read"))) budget seconds).sessionId
              (node.opened s message.sender modelId
                (textOf node.str (field members "purpose" (.str "read"))) budget seconds)
            rw [hlimit] at hless
            exact hput.trans hless
  | _ =>
    refine Or.inl ⟨.attributeError, s, ?_, (Same.refl s).quiet⟩
    rw [Node.requestSession, hpayload]
    rfl

variable (node message s) in
theorem grantSession_cases (modelId : String) (manifest : RawManifest F) :
    Quiet s (node.grantSession message modelId manifest s).2 ∨
    ∃ session, (node.requestSession message modelId manifest.nShards s).1 = .ok session ∧
      Granted message modelId session ∧
      Put session s (node.grantSession message modelId manifest s).2 := by
  rcases requestSession_cases node message s modelId manifest.nShards with
    ⟨e, s', hrun, hquiet⟩ | ⟨session, s', hrun, hgranted, hput⟩
  · refine Or.inl ?_
    by_cases hvalue : ∃ reason, e = .valueError reason
    · obtain ⟨reason, rfl⟩ := hvalue
      rw [Node.grantSession, bind_ok (catchValueError_value hrun)]
      exact hquiet.same (same_reply _ _ s' (Same.refl s'))
    · have hother : ∀ reason, e ≠ .valueError reason := fun reason he => hvalue ⟨reason, he⟩
      rw [Node.grantSession, bind_error (catchValueError_other hrun hother)]
      exact hquiet
  · refine Or.inr ⟨session, by rw [hrun], hgranted, ?_⟩
    rw [Node.grantSession, bind_ok (catchValueError_ok hrun)]
    have hrest : Maintains (Same s') (do
        node.receipt "telepath.session_open" modelId message.sender
          [("session_id", .str session.sessionId), ("budget", .int session.budgetShards)]
        let fileSha256 ← member manifest.metadata "file_sha256" .null
        node.reply "SESSION_ACCEPT" [("session_id", .str session.sessionId),
          ("model_id", .str modelId), ("n_shards", manifest.nShards),
          ("size_bytes", manifest.sizeBytes), ("merkle_root", manifest.merkleRoot),
          ("file_sha256", fileSha256)]) :=
      maintains_bind (same_receipt _ _ _ _)
        (fun _ => maintains_bind (maintains_lift _) (fun _ => same_reply _ _))
    exact hput.same (hrest s' (Same.refl s'))

/-- A request for a session that has been accepted, with the session. -/
structure Accepts (node : Node F) (message : Message F) (s : NodeState F) (session : Session) :
    Prop where
  granted : Granted message session.modelId session
  asked : ∃ members, message.payload = .obj members ∧
    session.modelId = textOf node.str (field members "model_id" (.str ""))
  allowed : s.allows session.modelId message.sender = true
  opened : ∃ vault manifest, node.vault = some vault ∧
    vault.manifestOf (node.stamp s.tick) session.modelId = .ok (some manifest) ∧
    (node.requestSession message session.modelId manifest.nShards s).1 = .ok session

variable (node message s) in
theorem openSession_cases :
    Quiet s (node.openSession message s).2 ∨
    ∃ session, Accepts node message s session ∧ Put session s (node.openSession message s).2 := by
  cases hpayload : message.payload with
  | obj members =>
    have hasked := member_obj hpayload "model_id" (.str "")
    rw [Node.openSession, hasked, bind_lift_ok]
    cases hvault : node.vault with
    | none => exact Or.inl (same_reply _ _ s (Same.refl s)).quiet
    | some vault =>
      dsimp only
      rw [bind_get]
      cases hfound : vault.manifestOf (node.stamp s.tick)
          (textOf node.str (field members "model_id" (.str ""))) with
      | error e =>
        rw [bind_lift_error]
        exact Or.inl (Same.refl s).quiet
      | ok found =>
        rw [bind_lift_ok]
        cases found with
        | none => exact Or.inl (same_reply _ _ s (Same.refl s)).quiet
        | some manifest =>
          dsimp only
          by_cases hallowed : s.allows (textOf node.str (field members "model_id" (.str "")))
              message.sender = false
          · rw [if_pos hallowed]
            exact Or.inl (same_reply _ _ s (Same.refl s)).quiet
          · rw [if_neg hallowed]
            rcases grantSession_cases node message s
                (textOf node.str (field members "model_id" (.str ""))) manifest with
              hquiet | ⟨session, hopened, hgranted, hput⟩
            · exact Or.inl hquiet
            · have hmodel := hgranted.modelId
              refine Or.inr ⟨session, ⟨?_, ⟨members, hpayload, hmodel⟩, ?_,
                ⟨vault, manifest, hvault, ?_, ?_⟩⟩, hput⟩
              · rwa [hmodel]
              · rw [hmodel]
                exact Bool.not_eq_false _ |>.mp hallowed
              · rw [hmodel, hfound]
              · rw [hmodel, hopened]
  | _ =>
    refine Or.inl ?_
    rw [Node.openSession, hpayload]
    exact (Same.refl s).quiet

/-- A request for a shard that is charged to a session of its sender. -/
structure Charges (node : Node F) (message : Message F) (s : NodeState F) (current used : Session)
    (index : ℤ) : Prop where
  asked : ∃ members, message.payload = .obj members ∧
    current.sessionId = textOf node.str (field members "session_id" (.str "")) ∧
    toInt node.repr (field members "shard_idx" (.int (-1))) = .ok index
  found : s.sessions.sessions.get? current.sessionId = some current
  own : current.peerPub = message.sender
  consumed : current.consume F (node.clock (s.tick + 1)) = some used

/-- A response with a shard that has been read from the vault. -/
def Carries (node : Node F) (modelId : String) (index : ℤ) (response : Message F) : Prop :=
  ∃ vault now manifest data tick, node.vault = some vault ∧
    vault.manifestOf now modelId = .ok manifest ∧
    vault.readShard node.str manifest index = .ok data ∧
    response = made node "SHARD_DATA" (shardMembers node modelId index data) tick

omit [FloatConversion F] in
theorem sendShard_carries {session : Session} {index : ℤ} {response : Message F}
    (h : (node.sendShard message session index s).1 = .ok response)
    (htype : response.type = "SHARD_DATA") : Carries node session.modelId index response := by
  unfold Node.sendShard at h
  cases hvault : node.vault with
  | none =>
    rw [hvault] at h
    cases h
  | some vault =>
    rw [hvault] at h
    dsimp only at h
    rw [bind_get] at h
    cases hmanifest : vault.manifestOf (node.stamp s.tick) session.modelId with
    | error e =>
      rw [hmanifest, bind_lift_error] at h
      cases h
    | ok manifest =>
      rw [hmanifest, bind_lift_ok] at h
      cases hread : vault.readShard node.str manifest index with
      | error e =>
        rw [hread, catchRead] at h
        by_cases hdenies : deniesShard e = true
        · rw [if_pos hdenies, bind_lift_ok] at h
          rw [← Except.ok.inj h] at htype
          exact absurd htype (show ¬ "SHARD_DENY" = "SHARD_DATA" by decide)
        · rw [if_neg hdenies, bind_lift_error] at h
          cases h
      | ok data =>
        rw [hread, catchRead, bind_lift_ok] at h
        rcases hreceipt : node.receipt "telepath.shard_served" session.modelId message.sender
            [("shard_idx", .int index), ("bytes", .int data.length),
              ("session_id", .str session.sessionId)] s with ⟨e | u, s'⟩
        · dsimp only at h
          rw [bind_error hreceipt] at h
          cases h
        · dsimp only at h
          rw [bind_ok hreceipt] at h
          exact ⟨vault, _, manifest, data, s'.tick, hvault, hmanifest, hread,
            (Except.ok.inj h).symm⟩

variable (node message s) in
omit [FloatConversion F] in
theorem serveShard_cases :
    (Quiet s (node.serveShard message s).2 ∧ ∀ response,
      (node.serveShard message s).1 = .ok response → response.type ≠ "SHARD_DATA") ∨
    ∃ current used index, Charges node message s current used index ∧
      Put used s (node.serveShard message s).2 ∧ ∀ response,
      (node.serveShard message s).1 = .ok response → response.type = "SHARD_DATA" →
        Carries node current.modelId index response := by
  cases hpayload : message.payload with
  | obj members =>
    have hid := member_obj hpayload "session_id" (.str "")
    have hindexed := member_obj hpayload "shard_idx" (.int (-1))
    rw [Node.serveShard, hid, bind_lift_ok, bind_ok (Node.findSession_run _), hindexed,
      bind_lift_ok]
    have hgc : Quiet s { s.next with sessions := s.sessions.gc F (node.clock s.tick) } :=
      ⟨shrunk_gc _ _, rfl, Nat.le_succ _⟩
    cases hindex : toInt node.repr (field members "shard_idx" (.int (-1))) with
    | error e =>
      rw [bind_lift_error]
      refine Or.inl ⟨hgc, fun response h => ?_⟩
      cases h
    | ok index =>
      rw [bind_lift_ok, bind_ok (Node.useSession_run _ _)]
      generalize hsession : textOf node.str (field members "session_id" (.str "")) = sessionId
      cases hcharged : (node.charged s message.sender sessionId).1 with
      | none =>
        have hsessions : (node.chargedState s message.sender sessionId).sessions =
            s.sessions.gc F (node.clock s.tick) := by
          rw [Node.chargedState, hcharged]
        have htick : s.tick ≤ (node.charged s message.sender sessionId).2 := by
          unfold Node.charged
          split
          · exact Nat.le_succ _
          · split
            · exact Nat.le_succ _
            · exact Nat.le_add_right _ 2
        refine Or.inl ⟨⟨hsessions ▸ shrunk_gc _ _, rfl, htick.trans (Nat.le_succ _)⟩, ?_⟩
        intro response h
        rw [← Except.ok.inj h]
        exact show ¬ "SHARD_DENY" = "SHARD_DATA" by decide
      | some used =>
        obtain ⟨current, hfound, hkept, hown, hconsume, hticks⟩ := Node.charged_eq_some hcharged
        have hkey := s.sessions.keyed _ _ hfound
        obtain ⟨-, -, hused⟩ := Session.consume_eq_some hconsume
        have hsessions : (node.chargedState s message.sender sessionId).sessions =
            (s.sessions.gc F (node.clock s.tick)).put used := by
          rw [Node.chargedState, hcharged]
        have htick : s.tick ≤ (node.charged s message.sender sessionId).2 := by
          rw [hticks]
          exact Nat.le_add_right _ 2
        have hput : Put used s (node.chargedState s message.sender sessionId) := by
          refine ⟨⟨_, shrunk_gc _ _, hsessions⟩, fun _ hsize => ?_, rfl, htick⟩
          have hkeyed : used.sessionId = sessionId := by
            rw [hused]
            exact hkey
          have hsame := Dict.size_set_of_isSome
            (s.sessions.gc F (node.clock s.tick)).sessions used.sessionId used
            (by rw [hkeyed, hkept, Option.isSome_some])
          rw [hsessions]
          exact hsame.le.trans ((SessionRegistry.size_gc_le F _ _).trans hsize)
        have hsame := @same_sendShard _ _ _ node _ _ message used index _
          (Same.refl (node.chargedState s message.sender sessionId))
        refine Or.inr ⟨current, used, index, ⟨⟨members, hpayload, by rw [hkey, hsession], hindex⟩,
          by rwa [hkey], hown, hconsume⟩, hput.same hsame, fun response h htype => ?_⟩
        have hcarries := sendShard_carries h htype
        rwa [hused] at hcarries
  | _ =>
    refine Or.inl ⟨?_, fun response h => ?_⟩
    · rw [Node.serveShard, hpayload]
      exact (Same.refl s).quiet
    · rw [Node.serveShard, hpayload] at h
      cases h

/-- A response without a shard. -/
def Bare (response : Message F) : Prop := response.type ≠ "SHARD_DATA"

omit [FloatNumber F] [FloatConversion F] in
theorem bare_reply {kind : String} (payload : Members F) (hkind : kind ≠ "SHARD_DATA") :
    Yields Bare (node.reply kind payload) := by
  intro s response h
  rw [← Except.ok.inj h]
  exact hkind

omit [FloatConversion F] in
theorem bare_hello (peerIp : String) : Yields Bare (node.hello peerIp message) := by
  refine yields_bind (fun asked => yields_bind (fun port => ?_))
  dsimp only
  split
  · exact yields_bind (fun _ => bare_reply _ (by decide))
  · exact bare_reply _ (by decide)

variable (node message) in
theorem bare_openSession : Yields Bare (node.openSession message) := by
  refine yields_bind (fun asked => ?_)
  dsimp only
  split
  · exact bare_reply _ (by decide)
  · refine yields_bind (fun s => yields_bind (fun found => ?_))
    split
    · exact bare_reply _ (by decide)
    · split
      · exact bare_reply _ (by decide)
      · refine yields_bind (fun granted => ?_)
        split
        · exact bare_reply _ (by decide)
        · exact yields_bind (fun _ => yields_bind (fun _ => bare_reply _ (by decide)))

omit [FloatConversion F] in
theorem bare_receiveRam : Yields Bare (node.receiveRam message) :=
  yields_bind (fun _ => yields_bind (fun _ => yields_bind (fun _ => yields_bind (fun _ =>
    bare_reply _ (by decide)))))

/-- A verified message with a new nonce, which the dispatcher takes by its type. -/
structure Arrives (node : Node F) (message : Message F) (s : NodeState F) (kind : String) :
    Prop where
  verified : (verify node.ed (node.clock s.tick) message).1 = true
  fresh : (s.nonces.accept F (message.sender, message.nonce) (node.clock (s.tick + 1))).1 = true
  type : message.type = kind

/-- What a message does to the node that handles it, and the response to it. -/
inductive Effect (node : Node F) (message : Message F) (s : NodeState F)
    (result : Except PyError (Message F)) (s' : NodeState F) : Prop where
  | quiet (hquiet : Quiet s s') (hbare : ∀ response, result = .ok response → Bare response)
  | opens (session : Session) (harrives : Arrives node message s "SESSION_OPEN")
      (haccepts : Accepts node message (node.received s message) session)
      (hput : Put session s s') (hbare : ∀ response, result = .ok response → Bare response)
  | charges (current used : Session) (index : ℤ) (harrives : Arrives node message s "REQUEST_SHARD")
      (hcharges : Charges node message (node.received s message) current used index)
      (hput : Put used s s')
      (hcarries : ∀ response, result = .ok response → response.type = "SHARD_DATA" →
        ∃ sent, response = node.bindReply sent (.str message.nonce) ∧
          Carries node current.modelId index sent)

omit [FloatText F] [FloatNumber F] [FloatConversion F] in
theorem same_received : Same s (node.received s message) := ⟨rfl, rfl, Nat.le_add_right _ 2⟩

/-- What has been received is dispatched, and the response names the request. -/
theorem respond_received (peerIp : String)
    (hverify : (verify node.ed (node.clock s.tick) message).1 = true)
    (hfresh : (s.nonces.accept F (message.sender, message.nonce)
      (node.clock (s.tick + 1))).1 = true) :
    node.respond peerIp message s =
      ((node.dispatch peerIp message (node.received s message)).1.map
        (fun response => node.bindReply response (.str message.nonce)),
      (node.dispatch peerIp message (node.received s message)).2) := by
  rw [Node.respond_run peerIp hverify hfresh]
  rcases hdispatch : node.dispatch peerIp message (node.received s message) with ⟨e | response, s'⟩
  · rw [bind_error hdispatch]
    rfl
  · rw [bind_ok hdispatch]
    rfl

omit [FloatNumber F] [FloatConversion F] in
theorem bare_bound {result : Except PyError (Message F)}
    (hbare : ∀ response, result = .ok response → Bare response) (response : Message F)
    (h : result.map (fun response => node.bindReply response (.str message.nonce)) = .ok response) :
    Bare response := by
  obtain ⟨sent, hsent, rfl⟩ := map_eq_ok h
  exact hbare sent hsent

/-- What the dispatcher does with a message that has been received. -/
theorem effect_dispatch (peerIp : String) (harrives : Arrives node message s message.type) :
    Effect node message s
      ((node.dispatch peerIp message (node.received s message)).1.map
        (fun response => node.bindReply response (.str message.nonce)))
      (node.dispatch peerIp message (node.received s message)).2 := by
  have hreceived : Same s (node.received s message) := same_received
  have hsame : ∀ {x : Serving F (Message F)}, Maintains (Same (node.received s message)) x →
      Yields Bare x → Effect node message s
        ((x (node.received s message)).1.map (fun response =>
          node.bindReply response (.str message.nonce))) (x (node.received s message)).2 :=
    fun hx hbare => .quiet (hreceived.then (hx _ (Same.refl _)).quiet)
      (bare_bound (hbare (node.received s message)))
  unfold Node.dispatch
  split
  · exact hsame (same_hello message peerIp) (bare_hello peerIp)
  · split
    · rename_i htype
      have hbare := @bare_bound _ _ _ node message _
        (bare_openSession node message (node.received s message))
      rcases openSession_cases node message
          (node.received s message) with hquiet | ⟨session, haccepts, hput⟩
      · exact .quiet (hreceived.then hquiet) hbare
      · exact .opens session (htype ▸ harrives) haccepts (hreceived.put hput) hbare
    · split
      · rename_i htype
        rcases serveShard_cases node message
            (node.received s message) with
          ⟨hquiet, hbare⟩ | ⟨current, used, index, hcharges, hput, hcarries⟩
        · exact .quiet (hreceived.then hquiet) (bare_bound hbare)
        · refine .charges current used index (htype ▸ harrives) hcharges (hreceived.put hput)
            fun response h hdata => ?_
          obtain ⟨sent, hsent, rfl⟩ := map_eq_ok h
          exact ⟨sent, rfl, hcarries sent hsent hdata⟩
      · split
        · exact hsame (same_receiveRam message) bare_receiveRam
        · exact hsame (same_reply _ _) (bare_reply _ (by decide))

variable (node message s) in
/-- What a message does to the node and what the response to it is. -/
theorem effect_respond (peerIp : String) :
    Effect node message s (node.respond peerIp message s).1 (node.respond peerIp message s).2 := by
  by_cases hverify : (verify node.ed (node.clock s.tick) message).1 = true
  · by_cases hfresh : (s.nonces.accept F (message.sender, message.nonce)
        (node.clock (s.tick + 1))).1 = true
    · rw [respond_received peerIp hverify hfresh]
      exact effect_dispatch peerIp ⟨hverify, hfresh, rfl⟩
    · rw [respond_replayed hverify (Bool.not_eq_true _ |>.mp hfresh)]
      refine .quiet ⟨Shrunk.refl _, rfl, Nat.le_add_right _ 3⟩ fun response h => ?_
      rw [← Except.ok.inj h]
      exact show ¬ "ERROR" = "SHARD_DATA" by decide
  · rcases hresult : verify node.ed (node.clock s.tick) message with ⟨_ | _, reason⟩
    · rw [Node.respond_rejected peerIp hresult]
      refine .quiet ⟨Shrunk.refl _, rfl, Nat.le_add_right _ 2⟩ fun response h => ?_
      rw [← Except.ok.inj h]
      exact show ¬ "ERROR" = "SHARD_DATA" by decide
    · rw [hresult] at hverify
      exact absurd rfl hverify

/-- A message as it is read: its texts do what the message does, and without them it opens and
charges no session. -/
theorem effect_respondRaw (node : Node F) (message : RawMessage F) (s : NodeState F)
    (peerIp : String) :
    (∃ text, message.text? = some text ∧ Effect node text s
      (node.respondRaw peerIp message s).1 (node.respondRaw peerIp message s).2) ∨
    Quiet s (node.respondRaw peerIp message s).2 ∧
      ∀ response, (node.respondRaw peerIp message s).1 = .ok response → Bare response := by
  cases htext : message.text? with
  | some text =>
    refine Or.inl ⟨text, rfl, ?_⟩
    rw [raw_of_text? htext]
    exact effect_respond node text s peerIp
  | none =>
    obtain ⟨nonces, tick, hstate, htick, hreply⟩ :=
      @Node.respondRaw_odd _ _ _ _ _ node s peerIp _ htext
    refine Or.inr ⟨?_, fun response hresponse => ?_⟩
    · rw [hstate]
      exact ⟨Shrunk.refl _, rfl, htick⟩
    · obtain ⟨reason, tick', rfl⟩ := hreply response hresponse
      exact show ¬ "ERROR" = "SHARD_DATA" by decide

end Requests

end Decillion.SessionSteps
