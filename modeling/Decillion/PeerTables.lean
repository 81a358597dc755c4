import Decillion.TelepathNodes

/-!
The table of the peers of a node. Of all messages only a greeting changes it: a verified one
whose nonce is new and which names a port. Its sender keeps its place in the table or comes
last.
-/
namespace Decillion.PeerTables

open ByteText JsonValues JsonText Primitives Dictionaries PyErrors PyValues AccessRequests
open ShardVault RawManifests RaisingPrograms TelepathMessages TelepathSessions TelepathFrames
open TelepathNodes

abbrev Peers := Dict String (String × ℤ)

variable {F α : Type} {p : Peers → Prop}

/-- What holds of the table of a node. -/
def AtPeers (p : Peers → Prop) (s : NodeState F) : Prop := p s.peers

theorem maintains_catchValueError {x : Serving F α} (hx : Maintains (AtPeers p) x) :
    Maintains (AtPeers p) (catchValueError x) := by
  intro s hs
  have hkept := hx s hs
  rcases hrun : x s with ⟨e | a, s'⟩
  · rw [hrun] at hkept
    cases e with
    | valueError message => rwa [catchValueError_value hrun]
    | _ => rwa [catchValueError_other hrun (fun _ heq => by cases heq)]
  · rw [hrun] at hkept
    rwa [catchValueError_ok hrun]

section Parts

variable [FloatText F] [FloatTime F] (node : Node F)

omit [FloatText F] in
theorem maintains_readClock : Maintains (AtPeers p) node.readClock := fun _ hs => hs

theorem maintains_reply (kind : String) (payload : Members F) :
    Maintains (AtPeers p) (node.reply kind payload) := fun _ hs => hs

omit [FloatText F] in
theorem maintains_receipt (kind modelId actor : String) (payload : Members F) :
    Maintains (AtPeers p) (node.receipt kind modelId actor payload) := by
  intro s hs
  unfold Node.receipt
  cases node.receipts <;> exact hs

omit [FloatText F] in
theorem maintains_findSession (sessionId : String) :
    Maintains (AtPeers p) (node.findSession sessionId) := fun _ hs => hs

omit [FloatText F] in
theorem maintains_useSession (session : Option Session) (sender : String) :
    Maintains (AtPeers p) (node.useSession session sender) := by
  cases session with
  | none => exact maintains_pure _
  | some session =>
    unfold Node.useSession
    dsimp only
    split
    · exact maintains_pure _
    · refine maintains_bind (maintains_readClock node) ?_
      intro now
      split
      · exact maintains_pure _
      · exact fun _ hs => hs

end Parts

section Requests

variable [FloatText F] [FloatTime F] [FloatNumber F] [FloatConversion F] (node : Node F)

omit [FloatText F] [FloatConversion F] in
theorem maintains_openRegistry (peerPub modelId purpose : String) (budget : ℤ) (ttl : F) :
    Maintains (AtPeers p) (node.openRegistry peerPub modelId purpose budget ttl) := by
  refine maintains_bind (maintains_readClock node) ?_
  intro now
  refine maintains_bind (maintains_change (fun _ hs => hs)) ?_
  intro _
  split
  · exact maintains_throw _
  · apply maintains_get
    intro s hs
    refine maintains_bind (maintains_lift _) ?_ s hs
    intro registry
    exact maintains_change (fun _ hs => hs)

omit [FloatText F] in
theorem maintains_requestSession (message : Message F) (modelId : String) (nShards : Json F) :
    Maintains (AtPeers p) (node.requestSession message modelId nShards) := by
  refine maintains_bind (maintains_lift _) ?_
  intro purpose
  refine maintains_bind (maintains_lift _) ?_
  intro asked
  refine maintains_bind (maintains_lift _) ?_
  intro budget
  refine maintains_bind (maintains_lift _) ?_
  intro lifetime
  refine maintains_bind (maintains_lift _) ?_
  intro ttl
  exact maintains_openRegistry node _ _ _ _ _

theorem maintains_grantSession (message : Message F) (modelId : String)
    (manifest : RawManifest F) :
    Maintains (AtPeers p) (node.grantSession message modelId manifest) := by
  refine maintains_bind
    (maintains_catchValueError (maintains_requestSession node message modelId _)) ?_
  intro outcome
  split
  · exact maintains_reply node _ _
  · refine maintains_bind (maintains_receipt node _ _ _ _) ?_
    intro _
    exact maintains_bind (maintains_lift _) (fun _ => maintains_reply node _ _)

theorem maintains_openSession (message : Message F) :
    Maintains (AtPeers p) (node.openSession message) := by
  refine maintains_bind (maintains_lift _) ?_
  intro asked
  dsimp only
  split
  · exact maintains_reply node _ _
  · apply maintains_get
    intro s hs
    refine maintains_bind (maintains_lift _) ?_ s hs
    intro found
    split
    · exact maintains_reply node _ _
    · split
      · exact maintains_reply node _ _
      · exact maintains_grantSession node _ _ _

omit [FloatConversion F] in
theorem maintains_sendShard (message : Message F) (session : Session) (index : ℤ) :
    Maintains (AtPeers p) (node.sendShard message session index) := by
  unfold Node.sendShard
  split
  · exact maintains_throw _
  · apply maintains_get
    intro s hs
    refine maintains_bind (maintains_lift _) ?_ s hs
    intro manifest
    refine maintains_bind (maintains_lift _) ?_
    intro found
    split
    · exact maintains_reply node _ _
    · exact maintains_bind (maintains_receipt node _ _ _ _) (fun _ => maintains_reply node _ _)

omit [FloatConversion F] in
theorem maintains_serveShard (message : Message F) :
    Maintains (AtPeers p) (node.serveShard message) := by
  refine maintains_bind (maintains_lift _) ?_
  intro asked
  refine maintains_bind (maintains_findSession node _) ?_
  intro session
  refine maintains_bind (maintains_lift _) ?_
  intro asked
  refine maintains_bind (maintains_lift _) ?_
  intro index
  refine maintains_bind (maintains_useSession node _ _) ?_
  intro session
  split
  · exact maintains_reply node _ _
  · exact maintains_sendShard node _ _ _

omit [FloatConversion F] in
theorem maintains_receiveRam (message : Message F) :
    Maintains (AtPeers p) (node.receiveRam message) := by
  refine maintains_bind (maintains_lift _) ?_
  intro asked
  refine maintains_bind (maintains_lift _) ?_
  intro asked
  refine maintains_bind (maintains_lift _) ?_
  intro size
  exact maintains_bind (maintains_receipt node _ _ _ _) (fun _ => maintains_reply node _ _)

/-- The port that a greeting names. -/
def portOf (message : Message F) : Except PyError ℤ := do
  let asked ← member message.payload "port" (.int 0)
  toInt node.repr asked

/-- A verified greeting with a new nonce and a port. -/
def Registers (message : Message F) (s : NodeState F) : Prop :=
  (verify node.ed (node.clock s.tick) message).1 = true ∧
    (s.nonces.accept F (message.sender, message.nonce) (node.clock (s.tick + 1))).1 = true ∧
    message.type = "HELLO" ∧ ∃ port, portOf node message = .ok port ∧ 0 < port ∧ port < 65536

/-- A greeting that enters its sender, who is not in the table, into it. -/
def Introduces (message : Message F) (s : NodeState F) : Prop :=
  Registers node message s ∧ s.peers.get? message.sender = none

omit [FloatConversion F] in
theorem peers_hello (peerIp : String) (message : Message F) (s : NodeState F) :
    (∃ port, portOf node message = .ok port ∧ 0 < port ∧ port < 65536 ∧
      (node.hello peerIp message s).2.peers = s.peers.set message.sender (peerIp, port)) ∨
    (∀ port, portOf node message = .ok port → ¬ (0 < port ∧ port < 65536)) ∧
      (node.hello peerIp message s).2.peers = s.peers := by
  rw [Node.hello, portOf]
  cases hasked : member message.payload "port" (.int 0) with
  | error e =>
    refine Or.inr ⟨?_, by rw [bind_lift_error]⟩
    intro port hport
    cases hport
  | ok asked =>
    rw [bind_lift_ok, ok_bind]
    cases hport : toInt node.repr asked with
    | error e =>
      refine Or.inr ⟨?_, by rw [bind_lift_error]⟩
      intro port hport
      cases hport
    | ok port =>
      rw [bind_lift_ok]
      by_cases hrange : 0 < port ∧ port < 65536
      · refine Or.inl ⟨port, rfl, hrange.1, hrange.2, ?_⟩
        simp only [hrange, and_self, if_true]
        rfl
      · refine Or.inr ⟨fun other hother => ?_, ?_⟩
        · obtain rfl := Except.ok.inj hother
          exact hrange
        · simp only [hrange, if_false]
          rfl

theorem maintains_dispatch (peerIp : String) (message : Message F)
    (htype : message.type ≠ "HELLO") :
    Maintains (AtPeers p) (node.dispatch peerIp message) := by
  rw [Node.dispatch, if_neg htype]
  split
  · exact maintains_openSession node message
  · split
    · exact maintains_serveShard node message
    · split
      · exact maintains_receiveRam node message
      · exact maintains_reply node _ _

/-- A message that is not verified or whose nonce is known leaves the table. -/
theorem peers_refused (peerIp : String) (message : Message F) (s : NodeState F)
    (h : ¬ ((verify node.ed (node.clock s.tick) message).1 = true ∧
      (s.nonces.accept F (message.sender, message.nonce) (node.clock (s.tick + 1))).1 = true)) :
    (node.respond peerIp message s).2.peers = s.peers := by
  rcases hverify : verify node.ed (node.clock s.tick) message with ⟨_ | _, reason⟩
  · rw [Node.respond_rejected peerIp hverify]
    rfl
  · rw [hverify] at h
    have hstale : (s.nonces.accept F (message.sender, message.nonce)
        (node.clock (s.tick + 1))).1 = false := by
      rw [← Bool.not_eq_true]
      exact fun haccept => h ⟨rfl, haccept⟩
    rw [Node.respond_replayed peerIp (by rw [hverify]) hstale]
    rfl

/-- What a message does to the table of the node that handles it. -/
theorem peers_handleMessage (peerIp : String) (message : Message F) (s : NodeState F) :
    (Registers node message s ∧ ∃ port, (node.handleMessage peerIp message s).state.peers =
      s.peers.set message.sender (peerIp, port)) ∨
    ¬ Registers node message s ∧ (node.handleMessage peerIp message s).state.peers = s.peers := by
  rw [Node.handleMessage_state]
  by_cases haccepted : (verify node.ed (node.clock s.tick) message).1 = true ∧
      (s.nonces.accept F (message.sender, message.nonce) (node.clock (s.tick + 1))).1 = true
  · obtain ⟨hverify, hfresh⟩ := haccepted
    have hrespond : (node.respond peerIp message s).2 =
        (node.dispatch peerIp message (node.received s message)).2 := by
      rw [Node.respond_run peerIp hverify hfresh]
      rcases hdispatch : node.dispatch peerIp message (node.received s message) with
        ⟨e | response, s'⟩
      · rw [bind_error hdispatch]
      · rw [bind_ok hdispatch]
        rfl
    rw [hrespond]
    by_cases htype : message.type = "HELLO"
    · rw [Node.dispatch, if_pos htype]
      rcases peers_hello node peerIp message (node.received s message) with
        ⟨port, hport, hlow, hhigh, hpeers⟩ | ⟨hnone, hpeers⟩
      · exact Or.inl ⟨⟨hverify, hfresh, htype, port, hport, hlow, hhigh⟩, port, hpeers⟩
      · refine Or.inr ⟨?_, hpeers⟩
        rintro ⟨-, -, -, port, hport, hrange⟩
        exact hnone port hport hrange
    · refine Or.inr ⟨fun hregisters => htype hregisters.2.2.1, ?_⟩
      exact maintains_dispatch (p := fun peers => peers = s.peers) node peerIp message htype _ rfl
  · refine Or.inr ⟨fun hregisters => haccepted ⟨hregisters.1, hregisters.2.1⟩, ?_⟩
    exact peers_refused node peerIp message s haccepted

theorem keys_handleMessage (peerIp : String) (message : Message F) (s : NodeState F) :
    (Introduces node message s ∧ (node.handleMessage peerIp message s).state.peers.entries.map
      Prod.fst = s.peers.entries.map Prod.fst ++ [message.sender]) ∨
    ¬ Introduces node message s ∧ (node.handleMessage peerIp message s).state.peers.entries.map
      Prod.fst = s.peers.entries.map Prod.fst := by
  rcases peers_handleMessage node peerIp message s with ⟨hregisters, port, hpeers⟩ | ⟨hnot, hpeers⟩
  · rw [hpeers, Dict.keys_set]
    by_cases hknown : (s.peers.get? message.sender).isSome = true
    · rw [if_pos hknown, List.append_nil]
      refine Or.inr ⟨fun hnew => ?_, rfl⟩
      rw [hnew.2] at hknown
      cases hknown
    · rw [if_neg hknown]
      exact Or.inl ⟨⟨hregisters, Option.not_isSome_iff_eq_none.mp hknown⟩, rfl⟩
  · rw [hpeers]
    exact Or.inr ⟨fun hnew => hnot hnew.1, rfl⟩

/-- A message as it is read that is such a greeting. -/
def IntroducesRaw (message : RawMessage F) (s : NodeState F) : Prop :=
  ∃ greeting, message.text? = some greeting ∧ Introduces node greeting s

/-- The keys of the table: a newcomer comes last. -/
theorem keys_handleRaw (peerIp : String) (message : RawMessage F) (s : NodeState F) :
    (IntroducesRaw node message s ∧ ∃ newcomer,
      (node.handleRaw peerIp message s).state.peers.entries.map Prod.fst =
        s.peers.entries.map Prod.fst ++ [newcomer]) ∨
    ¬ IntroducesRaw node message s ∧
      (node.handleRaw peerIp message s).state.peers.entries.map Prod.fst =
        s.peers.entries.map Prod.fst := by
  cases htext : message.text? with
  | none =>
    obtain ⟨nonces, tick, hstate, -⟩ := @Node.respondRaw_odd _ _ _ _ _ node s peerIp _ htext
    refine Or.inr ⟨?_, ?_⟩
    · rintro ⟨greeting, hgreeting, -⟩
      rw [htext] at hgreeting
      cases hgreeting
    · rw [Node.handleRaw_state, hstate]
  | some text =>
    have hraw := raw_of_text? htext
    rw [hraw]
    rcases keys_handleMessage node peerIp text s with ⟨hnew, hkeys⟩ | ⟨hnot, hkeys⟩
    · exact Or.inl ⟨⟨text, rfl, hnew⟩, text.sender, hkeys⟩
    · refine Or.inr ⟨?_, hkeys⟩
      rintro ⟨greeting, hgreeting, hnew⟩
      obtain rfl := Option.some.inj hgreeting
      exact hnot hnew

end Requests

end Decillion.PeerTables
