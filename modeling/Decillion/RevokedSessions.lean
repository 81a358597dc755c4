import Decillion.ServedSessions

/-!
A node checks its list of keys when it opens a session, not when it sends a shard. As long as no
key is revoked while its peer has a session that is still good for the model, every shard is sent
to a peer that the list allows at that moment.
-/
namespace Decillion.RevokedSessions

open ByteText Primitives JsonValues JsonText Dictionaries PyErrors PyValues AccessRequests
open RaisingPrograms TelepathMessages TelepathSessions TelepathNodes TelepathExchanges SessionSteps
  ServedSessions

section Lists

variable {acl : ACL} {modelId key other otherKey : String}

/-- A key that is allowed stays allowed when another one is. -/
theorem isAllowed_allow (h : acl.isAllowed modelId key = true) :
    (acl.allow other otherKey).isAllowed modelId key = true := by
  cases hkey : ACL.validKey otherKey with
  | false => rwa [ACL.allow_of_invalid acl other otherKey hkey]
  | true =>
    rw [ACL.isAllowed_iff] at h
    rw [ACL.isAllowed_iff, ACL.mem_listed_allow acl other otherKey hkey,
      ACL.mem_listed_allow acl other otherKey hkey]
    exact h.imp Or.inr Or.inr

/-- A key that was allowed for one model only is not allowed once it is revoked. -/
theorem isAllowed_revoke (hall : key ∉ acl.listed "*") :
    (acl.revoke modelId key).isAllowed modelId key = false := by
  rw [Bool.eq_false_iff, ne_eq, ACL.isAllowed_iff, ACL.mem_listed_revoke, ACL.mem_listed_revoke]
  simp [hall]

/-- Another key stays allowed. -/
theorem isAllowed_revoke_ne (h : acl.isAllowed modelId key = true) (hne : key ≠ otherKey) :
    (acl.revoke other otherKey).isAllowed modelId key = true := by
  rw [ACL.isAllowed_iff] at h
  rw [ACL.isAllowed_iff, ACL.mem_listed_revoke, ACL.mem_listed_revoke]
  have hkept : ∀ name, ¬ (name = other ∧ key = otherKey) := fun _ hsame => hne hsame.2
  exact h.imp (fun hall => ⟨hkept _, hall⟩) (fun hmodel => ⟨hkept _, hmodel⟩)

end Lists

variable {F : Type} [FloatText F] [FloatTime F] [FloatNumber F] [FloatConversion F]

/-- A session that is still good for a shard. -/
def Live (node : Node F) (s : NodeState F) (session : Session) : Prop :=
  s.sessions.sessions.get? session.sessionId = some session ∧
    session.expired F (node.clock s.tick) = false ∧
    (session.usedShards : ℤ) < session.budgetShards

/-- No revocation takes the access to a model away from a peer with a live session for it. -/
def Steadfast (node : Node F) (s : NodeState F) (events : List (Event F)) : Prop :=
  ∀ before modelId key, before ++ [.revoke modelId key] <+: events → ∀ session,
    Live node (run node s before) session →
    (run node s before).allows session.modelId session.peerPub = true →
    (step node (run node s before) (.revoke modelId key)).allows session.modelId
      session.peerPub = true

/-- Every live session is one of a peer that the list allows. -/
def Covered (node : Node F) (s : NodeState F) : Prop :=
  ∀ session, Live node s session → s.allows session.modelId session.peerPub = true

variable {node : Node F} {s s' : NodeState F} {events : List (Event F)} {event : Event F}

omit [FloatText F] [FloatTime F] [FloatNumber F] [FloatConversion F] in
theorem allows_eq (h : s'.acl = s.acl) (modelId key : String) :
    s'.allows modelId key = s.allows modelId key := by
  rw [NodeState.allows, NodeState.allows, h]

omit [FloatText F] [FloatNumber F] [FloatConversion F] in
theorem expired_of_later {session : Session} {now later : ℚ} (hle : now ≤ later)
    (h : session.expired F later = false) : session.expired F now = false := by
  rw [Session.expired, decide_eq_false_iff_not, not_lt] at h ⊢
  exact hle.trans h

omit [FloatText F] [FloatNumber F] [FloatConversion F] in
/-- A session that is live after some time was live before. -/
theorem live_of_later (hclock : Monotone node.clock) {session : Session} (htick : s.tick ≤ s'.tick)
    (hkept : s.sessions.sessions.get? session.sessionId = some session)
    (h : Live node s' session) : Live node s session :=
  ⟨hkept, expired_of_later (hclock htick) h.2.1, h.2.2⟩

theorem covered_effect (hclock : Monotone node.clock) (h : Covered node s) {message : Message F}
    {result : Except PyError (Message F)} (hquiet : Quiet s s' → Covered node s')
    (heffect : Effect node message s result s') : Covered node s' := by
  cases heffect with
  | quiet hforgets hbare => exact hquiet hforgets
  | opens opened harrives haccepts hput hbare =>
    intro session hlive
    rw [allows_eq hput.acl]
    obtain ⟨registry, hshrunk, hregistry⟩ := hput.sessions
    have hget := hlive.1
    rw [hregistry, SessionRegistry.get?_put] at hget
    split at hget
    · obtain rfl := Option.some.inj hget
      have hallowed := haccepts.allowed
      rw [← haccepts.granted.peerPub] at hallowed
      exact hallowed
    · exact h session (live_of_later hclock hput.tick (hshrunk.kept _ _ hget) hlive)
  | charges current used index harrives hcharges hput hcarries =>
    intro session hlive
    rw [allows_eq hput.acl]
    obtain ⟨registry, hshrunk, hregistry⟩ := hput.sessions
    obtain ⟨hopen, hless, hused⟩ := Session.consume_eq_some hcharges.consumed
    have hget := hlive.1
    rw [hregistry, SessionRegistry.get?_put] at hget
    split at hget
    · obtain rfl := Option.some.inj hget
      have hcurrent : Live node s current := by
        refine ⟨hcharges.found, expired_of_later (hclock ?_) hopen, hless⟩
        change s.tick ≤ s.tick + 2 + 1
        omega
      have hallowed := h current hcurrent
      rw [hused]
      exact hallowed
    · exact h session (live_of_later hclock hput.tick (hshrunk.kept _ _ hget) hlive)

theorem covered_request (hclock : Monotone node.clock) (h : Covered node s) (peerIp : String)
    (message : RawMessage F) : Covered node (step node s (.request peerIp message)) := by
  rw [step_request]
  have hquiet : Quiet s (node.respondRaw peerIp message s).2 →
      Covered node (node.respondRaw peerIp message s).2 := by
    intro hquiet session hlive
    rw [allows_eq hquiet.acl]
    exact h session
      (live_of_later hclock hquiet.tick (hquiet.sessions.kept _ _ hlive.1) hlive)
  rcases effect_respondRaw node message s peerIp with ⟨text, -, heffect⟩ | ⟨hforgets, -⟩
  · exact covered_effect hclock h hquiet heffect
  · exact hquiet hforgets

theorem covered_allow (h : Covered node s) (modelId key : String) :
    Covered node (step node s (.allow modelId key)) := by
  intro session hlive
  have hallowed := h session hlive
  rw [NodeState.allows] at hallowed
  rw [step, NodeState.allows]
  cases hacl : s.acl with
  | none => rfl
  | some acl =>
    rw [hacl] at hallowed
    exact isAllowed_allow hallowed

theorem allows_revoke_ne {modelId key other otherKey : String}
    (h : s.allows modelId key = true) (hne : key ≠ otherKey) :
    (step node s (.revoke other otherKey)).allows modelId key = true := by
  rw [NodeState.allows] at h
  rw [step, NodeState.allows]
  cases hacl : s.acl with
  | none => rfl
  | some acl =>
    rw [hacl] at h
    exact isAllowed_revoke_ne h hne

/-- What every event keeps, if a revocation takes no access away from a peer with a live session. -/
theorem covered_step (hclock : Monotone node.clock) (h : Covered node s)
    (hsteadfast : ∀ modelId key, event = .revoke modelId key → ∀ session, Live node s session →
      s.allows session.modelId session.peerPub = true →
      (step node s (.revoke modelId key)).allows session.modelId session.peerPub = true) :
    Covered node (step node s event) := by
  cases event with
  | request peerIp message => exact covered_request hclock h peerIp message
  | allow modelId key => exact covered_allow h modelId key
  | revoke modelId key =>
    intro session hlive
    exact hsteadfast modelId key rfl session hlive (h session hlive)

theorem covered_run (hclock : Monotone node.clock) (hempty : s.sessions.sessions = Dict.empty)
    (events : List (Event F)) (hsteadfast : Steadfast node s events) :
    Covered node (run node s events) := by
  induction events using List.reverseRecOn with
  | nil =>
    intro session hlive
    have hget := hlive.1
    change s.sessions.sessions.get? session.sessionId = some session at hget
    rw [hempty, Dict.get?_empty] at hget
    cases hget
  | append_singleton events event ih =>
    have hearlier : Steadfast node s events := fun before modelId key hbefore =>
      hsteadfast before modelId key (hbefore.trans (List.prefix_append _ _))
    rw [run_concat]
    refine covered_step hclock (ih hearlier) fun modelId key hevent => ?_
    refine hsteadfast events modelId key ?_
    rw [hevent]

omit [FloatNumber F] [FloatConversion F] in
theorem modelId_answerTo (nonce modelId : String) (index : ℤ) (data : Bytes) (tick : ℕ) :
    (answerTo node nonce "SHARD_DATA" (TelepathServing.shardMembers node modelId index data)
      tick).payload.get? "model_id" = some (.str modelId) := rfl

/-- Every shard is sent to a peer that the list allows for its model at that moment. -/
theorem served_allowed (hclock : Monotone node.clock)
    (hempty : s.sessions.sessions = Dict.empty) (events : List (Event F))
    (hsteadfast : Steadfast node s events) (before : List (Event F)) (peerIp : String)
    (message : RawMessage F) (response : Message F)
    (hbefore : before ++ [.request peerIp message] <+: events)
    (hresponse : (node.respondRaw peerIp message (run node s before)).1 = .ok response)
    (hdata : response.type = "SHARD_DATA") :
    ∃ sender modelId, message.sender = .str sender ∧
      response.payload.get? "model_id" = some (.str modelId) ∧
      (run node s before).allows modelId sender = true := by
  have hearlier : Steadfast node s before := fun before' modelId key h =>
    hsteadfast before' modelId key (h.trans ((List.prefix_append _ _).trans hbefore))
  have hcovered := covered_run hclock hempty before hearlier
  rcases effect_respondRaw node message (run node s before) peerIp with
    ⟨text, htext, heffect⟩ | ⟨-, hbare⟩
  · obtain rfl := raw_of_text? htext
    cases heffect with
    | quiet hquiet hbare => exact absurd hdata (hbare response hresponse)
    | opens session harrives haccepts hput hbare => exact absurd hdata (hbare response hresponse)
    | charges current used index harrives hcharges hput hcarries =>
      obtain ⟨sent, rfl, vault, now, manifest, data, tick, -, -, -, rfl⟩ :=
        hcarries response hresponse hdata
      obtain ⟨hopen, hless, -⟩ := Session.consume_eq_some hcharges.consumed
      have hlive : Live node (run node s before) current := by
        refine ⟨hcharges.found, expired_of_later (hclock ?_) hopen, hless⟩
        change (run node s before).tick ≤ (run node s before).tick + 2 + 1
        omega
      refine ⟨text.sender, current.modelId, rfl, modelId_answerTo _ _ _ _ _, ?_⟩
      rw [← hcharges.own]
      exact hcovered current hlive
  · exact absurd hdata (hbare response hresponse)

section Samples

open JsonStrings ScriptedPeers

/-- A key that the list does not know. -/
def strangerKey : String := hex (octets 32 7)

theorem strangerKey_ne : strangerKey ≠ samplePeer.pub := by
  intro h
  have hticks := @octets_inj 32 7 6 (by decide) (by decide) (by decide) (hex_injective h)
  exact absurd hticks (by decide)

theorem stranger_denied (modelId : String) :
    ACL.isAllowed ⟨Dict.empty.set "m" [samplePeer.pub]⟩ modelId strangerKey = false := by
  have hlisted : ∀ name, strangerKey ∉
      (⟨Dict.empty.set "m" [samplePeer.pub]⟩ : ACL).listed name := by
    intro name
    rw [ACL.listed_set]
    split
    · exact fun hmem => strangerKey_ne (List.mem_singleton.mp hmem)
    · exact List.not_mem_nil
  rw [Bool.eq_false_iff, ne_eq, ACL.isAllowed_iff]
  exact fun h => h.elim (hlisted _) (hlisted _)

/-- A session is opened, another key is revoked, and a shard is asked for. -/
def harmlessEvents : List (Event WholeFloat) :=
  [.request "ip" openMessage.raw, .revoke "m" strangerKey, .request "ip" shardMessage.raw]

theorem run_opened :
    run servingNode servingState [.request "ip" openMessage.raw] = openedState := by
  rw [run, List.foldl_cons, List.foldl_nil, step_opened]

theorem steadfast_sample : Steadfast servingNode servingState harmlessEvents := by
  rintro before modelId key ⟨rest, hbefore⟩ session -
  cases before with
  | nil => cases hbefore
  | cons first before =>
    obtain ⟨rfl, hrest⟩ := List.cons.inj hbefore
    cases before with
    | nil =>
      obtain ⟨rfl, rfl⟩ := Event.revoke.inj (List.cons.inj hrest).1
      rw [run_opened]
      intro hallowed
      refine allows_revoke_ne hallowed ?_
      rintro hkey
      have hdenied := stranger_denied session.modelId
      rw [← hkey] at hdenied
      exact Bool.false_ne_true (hdenied.symm.trans hallowed)
    | cons second before =>
      have hlast := (List.cons.inj hrest).2
      cases before with
      | nil => cases hlast
      | cons third before => simp at hlast

/-- The shard is sent after the harmless revocation. -/
theorem served_allowed_sample : ∃ response sender modelId,
    (servingNode.respondRaw "ip" shardMessage.raw (run servingNode servingState
      [.request "ip" openMessage.raw, .revoke "m" strangerKey])).1 = .ok response ∧
    response.type = "SHARD_DATA" ∧ shardMessage.raw.sender = .str sender ∧
    response.payload.get? "model_id" = some (.str modelId) ∧
    (run servingNode servingState [.request "ip" openMessage.raw,
      .revoke "m" strangerKey]).allows modelId sender = true := by
  have hrun : run servingNode servingState
      [.request "ip" openMessage.raw, .revoke "m" strangerKey] =
        heldState (some (ACL.revoke ⟨Dict.empty.set "m" [samplePeer.pub]⟩ "m" strangerKey)) := by
    rw [run, List.foldl_cons, List.foldl_cons, List.foldl_nil, step_opened]
    rfl
  have hresponds : ∃ response, (servingNode.respondRaw "ip" shardMessage.raw (run servingNode
      servingState [.request "ip" openMessage.raw, .revoke "m" strangerKey])).1 = .ok response ∧
        response.type = "SHARD_DATA" := by
    rw [hrun]
    exact respond_sample _
  obtain ⟨response, hresponse, hdata⟩ := hresponds
  obtain ⟨sender, modelId, hsender, hmodel, hallowed⟩ := served_allowed (fun _ _ _ => le_rfl) rfl
    harmlessEvents steadfast_sample [.request "ip" openMessage.raw, .revoke "m" strangerKey] "ip"
    shardMessage.raw response (List.prefix_refl _) hresponse hdata
  exact ⟨response, sender, modelId, hresponse, hdata, hsender, hmodel, hallowed⟩

/-- Between the opening of the session and the request for the shard the key is revoked. -/
theorem revoked_served : ∃ response,
    (servingNode.respond "ip" shardMessage (run servingNode servingState
      [.request "ip" openMessage.raw, .revoke "m" samplePeer.pub])).1 = .ok response ∧
    response.type = "SHARD_DATA" ∧
    (run servingNode servingState
      [.request "ip" openMessage.raw, .revoke "m" samplePeer.pub]).allows "m" shardMessage.sender =
        false := by
  have hrun :
      run servingNode servingState [.request "ip" openMessage.raw, .revoke "m" samplePeer.pub] =
      heldState (some (ACL.revoke ⟨Dict.empty.set "m" [samplePeer.pub]⟩ "m" samplePeer.pub)) := by
    rw [run, List.foldl_cons, List.foldl_cons, List.foldl_nil, step_opened]
    rfl
  rw [hrun]
  obtain ⟨response, hresponse, hdata⟩ :=
    respond_sample (some (ACL.revoke ⟨Dict.empty.set "m" [samplePeer.pub]⟩ "m" samplePeer.pub))
  refine ⟨response, hresponse, hdata, ?_⟩
  have hnone : samplePeer.pub ∉ (⟨Dict.empty.set "m" [samplePeer.pub]⟩ : ACL).listed "*" := by
    rw [ACL.listed, Dict.get?_set, if_neg (by decide)]
    exact List.not_mem_nil
  have hdenied : (ACL.revoke ⟨Dict.empty.set "m" [samplePeer.pub]⟩ "m" samplePeer.pub).isAllowed
      "m" samplePeer.pub = false :=
    isAllowed_revoke hnone
  exact hdenied

end Samples

end Decillion.RevokedSessions
