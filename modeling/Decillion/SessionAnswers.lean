import Decillion.SessionSteps
import Decillion.VaultLabels

/-!
What a node tells the sender of a message. It accepts a session only for a model that the sender
has asked for and may read, and then it says the hash of the file; every other answer is of
another type. No answer has a key twice, so the octets that are signed say what the answer is.
-/
namespace Decillion.SessionAnswers

open ByteText Base64Text JsonValues JsonText Primitives PyErrors PyValues AccessRequests
open ShardManifests ShardVault RawManifests RaisingPrograms TelepathMessages TelepathSessions
open TelepathNodes TelepathExchanges TelepathServing SessionSteps VaultLabels
open ManifestPaths (textOf)

variable {F : Type} [FloatText F] [FloatTime F] {node : Node F} {message response : Message F}
  {s : NodeState F} {pieces : String → List Bytes} {vault : Vault} {peerIp : String}

/-- An answer that accepts no session. -/
def Other (response : Message F) : Prop :=
  response.type ≠ "SESSION_ACCEPT" ∧ DistinctKeys response.payload

theorem other_made {kind : String} {payload : Members F} {tick : ℕ}
    (hkind : kind ≠ "SESSION_ACCEPT") (hkeys : DistinctKeys (.obj payload)) :
    Other (made node kind payload tick) := ⟨hkind, hkeys⟩

theorem other_reply {kind : String} {payload : Members F} (hkind : kind ≠ "SESSION_ACCEPT")
    (hkeys : DistinctKeys (.obj payload)) : Yields Other (node.reply kind payload) := by
  intro s response h
  rw [← Except.ok.inj h]
  exact other_made hkind hkeys

omit [FloatText F] [FloatTime F] in
theorem distinct_texts (texts : List String) :
    DistinctKeysItems (texts.map (Json.str (F := F))) := by
  induction texts with
  | nil => trivial
  | cons text rest ih => exact ⟨trivial, ih⟩

theorem other_denial (modelId reason : String) :
    Yields Other (node.denySession modelId reason) :=
  other_reply (by decide) ⟨by simp, trivial, trivial, trivial⟩

omit [FloatText F] [FloatTime F] in
theorem distinct_reason (reason : String) :
    DistinctKeys (.obj [("reason", Json.str (F := F) reason)]) :=
  ⟨by simp, trivial, trivial⟩

theorem other_bound {nonce : Json F} (hnonce : DistinctKeys nonce) (h : Other response) :
    Other (node.bindReply response nonce) := by
  refine ⟨h.1, ?_⟩
  have hkeys := h.2
  cases hpayload : response.payload with
  | obj members =>
    rw [hpayload] at hkeys
    simp only [Node.bindReply, Message.sign, hpayload]
    exact distinctKeys_setMember _ _ _ hnonce hkeys
  | _ => simpa only [Node.bindReply, Message.sign, hpayload] using hkeys

section Requests

variable [FloatNumber F] [FloatConversion F]

omit [FloatConversion F] in
theorem other_hello : Yields Other (node.hello peerIp message) := by
  have hgreeting : DistinctKeys (.obj node.greeting) :=
    ⟨by simp [Node.greeting], trivial, trivial, distinct_texts _, trivial⟩
  refine yields_bind (fun asked => yields_bind (fun port => ?_))
  dsimp only
  split
  · exact yields_bind (fun _ => other_reply (by decide) hgreeting)
  · exact other_reply (by decide) hgreeting

omit [FloatConversion F] in
theorem other_receiveRam : Yields Other (node.receiveRam message) :=
  yields_bind (fun _ => yields_bind (fun _ => yields_bind (fun _ => yields_bind (fun _ =>
    other_reply (by decide) ⟨by simp, trivial, trivial⟩))))

omit [FloatText F] [FloatTime F] [FloatNumber F] [FloatConversion F] in
theorem distinct_denial (index : ℤ) (reason : String) :
    DistinctKeys (.obj [("shard_idx", .int index), ("reason", Json.str (F := F) reason)]) :=
  ⟨by simp, trivial, trivial, trivial⟩

omit [FloatNumber F] [FloatConversion F] in
theorem other_denyShard (index : ℤ) (reason : String) :
    Yields Other (node.denyShard index reason) := other_reply (by decide) (distinct_denial _ _)

omit [FloatConversion F] in
theorem other_sendShard (session : Session) (index : ℤ) :
    Yields Other (node.sendShard message session index) := by
  unfold Node.sendShard
  split
  · exact yields_throw _
  · refine yields_bind (fun s => yields_bind (fun manifest => yields_bind (fun found => ?_)))
    split
    · exact other_denyShard _ _
    · exact yields_bind (fun _ => other_reply (by decide)
        ⟨by simp, trivial, trivial, trivial, trivial, trivial⟩)

omit [FloatConversion F] in
theorem other_serveShard : Yields Other (node.serveShard message) := by
  refine yields_bind (fun _ => yields_bind (fun _ => yields_bind (fun _ => yields_bind
    (fun index => yields_bind (fun charged => ?_)))))
  split
  · exact other_denyShard _ _
  · exact other_sendShard _ _

/-- The sender of a message asks for a session of a model that it may read. -/
structure Grants (node : Node F) (message : Message F) (s : NodeState F) (modelId : String) :
    Prop where
  asked : ∃ members, message.payload = .obj members ∧
    textOf node.str (field members "model_id" (.str "")) = modelId
  allowed : s.allows modelId message.sender = true

/-- The session that is accepted for a model, with the hash of its file. -/
def accepted (sha : Sha256) (content : Bytes) (manifest : ModelManifest F) (sessionId : String) :
    Members F :=
  acceptMembers sessionId manifest.modelId (rawManifest manifest.sorted)
    (.str (sha.hexdigest content))

/-- A session is accepted for the sender of a message, for a model of the vault. -/
def AcceptsFor (node : Node F) (message : Message F) (s : NodeState F) (vault : Vault)
    (pieces : String → List Bytes) (response : Message F) : Prop :=
  ∃ (manifest : ModelManifest F) (id : Bytes) (session : Session) (tick : ℕ),
    Grants node message s manifest.modelId ∧ Accepts node message s session ∧
    session.modelId = manifest.modelId ∧
    Offered vault (pieces manifest.modelId) manifest id ∧
    response = made node "SESSION_ACCEPT" (accepted vault.crypto.sha
      (pieces manifest.modelId).flatten manifest session.sessionId) tick

omit [FloatText F] [FloatTime F] [FloatNumber F] [FloatConversion F] in
theorem distinct_accepted (sha : Sha256) (content : Bytes) (manifest : ModelManifest F)
    (sessionId : String) : DistinctKeys (.obj (accepted sha content manifest sessionId)) :=
  ⟨by simp [accepted, acceptMembers], trivial, trivial, trivial, trivial, trivial, trivial, trivial⟩

omit [FloatTime F] [FloatNumber F] [FloatConversion F] in
theorem manifestOf_vouched (h : Vouched F vault pieces) {now : F} {modelId : String}
    {found : RawManifest F} (hfound : vault.manifestOf now modelId = .ok (some found)) :
    ∃ (manifest : ModelManifest F) (id : Bytes), manifest.modelId = modelId ∧
      found = rawManifest manifest.sorted ∧ Offered vault (pieces modelId) manifest id := by
  obtain ⟨content, hfile, -⟩ := manifestOf_some hfound
  obtain ⟨manifest, id, hpath, hoffered⟩ := h modelId content hfile
  obtain ⟨hmodel, hraw⟩ := manifestOf_path hoffered.published hpath hfound
  rw [hmodel] at hoffered
  exact ⟨manifest, id, hmodel, hraw, hoffered⟩

omit [FloatTime F] [FloatConversion F] in
/-- The shards of a model are those that its vault offers. -/
theorem pieces_vouched (h : Vouched F vault pieces) {str : Json F → String}
    (hstr : ∀ n, str (.int n) = toString n) (now : F) (hreadable : vault.Readable)
    {shards : List Bytes} {manifest : ModelManifest F} {id : Bytes}
    (hoffered : Offered vault shards manifest id) : pieces manifest.modelId = shards := by
  obtain ⟨other, id', -, hraw, hoffered'⟩ :=
    manifestOf_vouched h (manifestOf_published now hreadable hoffered.published)
  have hcount := VaultReads.published_nShards vault.crypto vault.root vault.passphrase vault.files
    _ _ hoffered.published
  have hcount' := VaultReads.published_nShards vault.crypto vault.root vault.passphrase vault.files
    _ _ hoffered'.published
  have hsame : manifest.nShards = other.nShards := Json.int.inj (congrArg RawManifest.nShards hraw)
  have hlength : (pieces manifest.modelId).length = shards.length := by
    rw [hcount, hcount'] at hsame
    exact (Int.ofNat_inj.mp hsame).symm
  refine List.ext_getElem hlength fun k hk hk' => ?_
  have hread := readShard_published hstr hreadable id hoffered.keyId hoffered.published k _
    (List.getElem?_eq_getElem hk')
  have hread' := readShard_published hstr hreadable id' hoffered'.keyId hoffered'.published k _
    (List.getElem?_eq_getElem hk)
  rw [← hraw, hread] at hread'
  exact (Except.ok.inj hread').symm

omit [FloatTime F] [FloatNumber F] [FloatConversion F] in
/-- The metadata of a model says the hash of its file. -/
theorem fileSha256_offered {shards : List Bytes} {manifest : ModelManifest F} {id : Bytes}
    (h : Offered vault shards manifest id) :
    member (rawManifest manifest.sorted : RawManifest F).metadata "file_sha256" .null =
      .ok (.str (vault.crypto.sha.hexdigest shards.flatten)) := by
  have hlabelled := labelled_sorted h.published.metadata h.labelled
  rw [Labelled] at hlabelled
  rw [rawManifest, member_obj rfl, field, hlabelled]
  rfl

omit [FloatText F] [FloatTime F] [FloatNumber F] [FloatConversion F] in
theorem ok_of_catchValueError {α : Type} {x : Serving F α} {a : α} {s' : NodeState F}
    (h : catchValueError x s = (.ok (.ok a), s')) : x s = (.ok a, s') := by
  rcases hrun : x s with ⟨e | b, s''⟩
  · by_cases hvalue : ∃ reason, e = .valueError reason
    · obtain ⟨reason, rfl⟩ := hvalue
      rw [catchValueError_value hrun] at h
      cases h
    · rw [catchValueError_other hrun (fun reason he => hvalue ⟨reason, he⟩)] at h
      cases h
  · rw [catchValueError_ok hrun] at h
    cases h
    rfl

/-- A session is accepted with the hash of the file, or it is denied. -/
theorem told_grantSession {manifest : ModelManifest F} {id : Bytes}
    (hvault : node.vault = some vault) (hfound : vault.manifestOf (node.stamp s.tick)
      manifest.modelId = .ok (some (rawManifest manifest.sorted)))
    (hgrants : Grants node message s manifest.modelId)
    (hoffered : Offered vault (pieces manifest.modelId) manifest id)
    (h : (node.grantSession message manifest.modelId (rawManifest manifest.sorted) s).1 =
      .ok response) :
    Other response ∨ AcceptsFor node message s vault pieces response := by
  rw [Node.grantSession] at h
  rcases hrequest : catchValueError (node.requestSession message manifest.modelId
    (rawManifest manifest.sorted).nShards) s with ⟨e | reason | session, s'⟩
  · rw [bind_error hrequest] at h
    cases h
  · rw [bind_ok hrequest] at h
    exact Or.inl (other_denial _ _ _ _ h)
  · rw [bind_ok hrequest] at h
    dsimp only at h
    rcases hreceipt : node.receipt "telepath.session_open" manifest.modelId message.sender
        [("session_id", .str session.sessionId), ("budget", .int session.budgetShards)] s' with
      ⟨e | u, s''⟩
    · rw [bind_error hreceipt] at h
      cases h
    · rw [bind_ok hreceipt, fileSha256_offered hoffered, bind_lift_ok] at h
      have hrun := ok_of_catchValueError hrequest
      have hgranted : Granted message manifest.modelId session := by
        rcases requestSession_cases node message s manifest.modelId
            (rawManifest manifest.sorted).nShards with
          ⟨e, s₁, herror, -⟩ | ⟨_, s₁, hok, hgranted, -⟩
        · rw [hrun] at herror
          cases herror
        · rw [hrun] at hok
          cases hok
          exact hgranted
      have hmodel := hgranted.modelId
      obtain ⟨members, hpayload, hasked⟩ := hgrants.asked
      have haccepts : Accepts node message s session := by
        refine ⟨hmodel ▸ hgranted, ⟨members, hpayload, hmodel.trans hasked.symm⟩, ?_,
          ⟨vault, _, hvault, hmodel ▸ hfound, ?_⟩⟩
        · rw [hmodel]
          exact hgrants.allowed
        · rw [hmodel, hrun]
      exact Or.inr ⟨manifest, id, session, s''.tick, hgrants, haccepts, hmodel, hoffered,
        (Except.ok.inj h).symm⟩

/-- What a request for a session is told. -/
theorem told_openSession (hvault : node.vault = some vault) (hvouched : Vouched F vault pieces)
    (h : (node.openSession message s).1 = .ok response) :
    Other response ∨ AcceptsFor node message s vault pieces response := by
  cases hpayload : message.payload with
  | obj members =>
    rw [Node.openSession, member_obj hpayload, bind_lift_ok, hvault] at h
    dsimp only at h
    rw [bind_get] at h
    generalize hasked : textOf node.str (field members "model_id" (.str "")) = modelId at h
    cases hfound : vault.manifestOf (node.stamp s.tick) modelId with
    | error e =>
      rw [hfound, bind_lift_error] at h
      cases h
    | ok found =>
      rw [hfound, bind_lift_ok] at h
      cases found with
      | none => exact Or.inl (other_denial _ _ _ _ h)
      | some found =>
        dsimp only at h
        by_cases hallowed : s.allows modelId message.sender = false
        · rw [if_pos hallowed] at h
          exact Or.inl (other_denial _ _ _ _ h)
        · rw [if_neg hallowed] at h
          obtain ⟨manifest, id, rfl, rfl, hoffered⟩ := manifestOf_vouched hvouched hfound
          exact told_grantSession hvault hfound
            ⟨⟨members, hpayload, hasked⟩, by simpa using hallowed⟩ hoffered h
  | _ =>
    rw [Node.openSession, hpayload] at h
    cases h

theorem told_respond (hvault : node.vault = some vault) (hvouched : Vouched F vault pieces)
    (h : (node.respond peerIp message s).1 = .ok response) :
    Other response ∨ Arrives node message s "SESSION_OPEN" ∧ ∃ sent,
      AcceptsFor node message (node.received s message) vault pieces sent ∧
      response = node.bindReply sent (.str message.nonce) := by
  by_cases hverify : (verify node.ed (node.clock s.tick) message).1 = true
  · by_cases hfresh : (s.nonces.accept F (message.sender, message.nonce)
        (node.clock (s.tick + 1))).1 = true
    · rw [respond_received peerIp hverify hfresh] at h
      obtain ⟨sent, hsent, rfl⟩ := map_eq_ok h
      have hother : ∀ {x : Serving F (Message F)}, Yields Other x →
          (x (node.received s message)).1 = .ok sent →
            Other (node.bindReply sent (.str message.nonce)) :=
        fun hx hsent => other_bound trivial (hx _ _ hsent)
      unfold Node.dispatch at hsent
      split at hsent
      · exact Or.inl (hother other_hello hsent)
      · split at hsent
        · rename_i htype
          rcases told_openSession hvault hvouched hsent with hdenied | haccepts
          · exact Or.inl (other_bound trivial hdenied)
          · exact Or.inr ⟨⟨hverify, hfresh, htype⟩, sent, haccepts, rfl⟩
        · split at hsent
          · exact Or.inl (hother other_serveShard hsent)
          · split at hsent
            · exact Or.inl (hother other_receiveRam hsent)
            · exact Or.inl (hother (other_reply (by decide) (distinct_reason _)) hsent)
    · rw [respond_replayed hverify (Bool.not_eq_true _ |>.mp hfresh)] at h
      rw [← Except.ok.inj h]
      exact Or.inl (other_bound trivial (other_made (by decide) (distinct_reason _)))
  · rcases hresult : verify node.ed (node.clock s.tick) message with ⟨_ | _, reason⟩
    · rw [Node.respond_rejected peerIp hresult] at h
      rw [← Except.ok.inj h]
      exact Or.inl (other_bound trivial (other_made (by decide) (distinct_reason reason)))
    · rw [hresult] at hverify
      exact absurd rfl hverify

/-- What a node answers: no session is accepted, or one for a model that the sender has asked
for and may read. -/
theorem told_respondRaw (hvault : node.vault = some vault) (hvouched : Vouched F vault pieces)
    {message : RawMessage F} (hnonce : DistinctKeys message.nonce)
    (h : (node.respondRaw peerIp message s).1 = .ok response) :
    Other response ∨ ∃ text, message = text.raw ∧ Arrives node text s "SESSION_OPEN" ∧ ∃ sent,
      AcceptsFor node text (node.received s text) vault pieces sent ∧
      response = node.bindReply sent (.str text.nonce) := by
  cases htext : message.text? with
  | some text =>
    obtain rfl := raw_of_text? htext
    rcases told_respond hvault hvouched h with hother | ⟨harrives, hsent⟩
    · exact Or.inl hother
    · exact Or.inr ⟨text, rfl, harrives, hsent⟩
  | none =>
    obtain ⟨nonces, tick, -, -, hreply⟩ := @Node.respondRaw_odd _ _ _ _ _ node s peerIp _ htext
    obtain ⟨reason, tick', rfl⟩ := hreply response h
    exact Or.inl (other_bound hnonce (other_made (by decide) (distinct_reason reason)))

theorem distinct_respondRaw (hvault : node.vault = some vault) (hvouched : Vouched F vault pieces)
    {message : RawMessage F} (hnonce : DistinctKeys message.nonce)
    (h : (node.respondRaw peerIp message s).1 = .ok response) : DistinctKeys response.payload := by
  rcases told_respondRaw hvault hvouched hnonce h with
    hother | ⟨text, -, -, sent, ⟨manifest, id, session, tick, -, -, -, -, rfl⟩, rfl⟩
  · exact hother.2
  · exact distinctKeys_setMember _ _ _ trivial (distinct_accepted _ _ _ _)

end Requests

end Decillion.SessionAnswers
