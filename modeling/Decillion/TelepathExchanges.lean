import Decillion.TelepathAnswers
import Decillion.TelepathPulls

/-!
One request and its answer on a network that brings the request to the server and the
answer back. The client ends up with the answer of the server or raises an exception, and
it has the answer exactly when the answer fits into a frame and comes in time.
-/
namespace Decillion.TelepathExchanges

open ByteText JsonValues JsonText JsonRoundTrip Primitives PyErrors PyValues AccessRequests
open RaisingPrograms TelepathMessages TelepathSessions TelepathFrames TelepathNodes
open TelepathAnswers TelepathPulls

variable {F : Type} [FloatText F] [FloatTime F] [FloatNumber F] [FloatConversion F]

/-- Every request reaches one node at once, and so does its answer the client. -/
def direct (server : Node F) (peerIp : String) : Network (NodeState F) := fun frame s =>
  (.ok (server.handleConnection peerIp frame s).sent.flatten,
    (server.handleConnection peerIp frame s).state)

/-- The message that a node makes at some tick. -/
def made (node : Node F) (kind : String) (payload : Members F) (tick : ℕ) : Message F :=
  make node.ed node.key kind (.obj payload) (hex (node.uuid tick)) (node.stamp tick)

/-- The answer to a nonce, made at some tick. -/
def answerTo (node : Node F) (nonce kind : String) (payload : Members F) (tick : ℕ) : Message F :=
  node.bindReply (made node kind payload tick) (.str nonce)

/-- The octets of a message that is short enough. -/
def frameOf (message : Message F) : Bytes :=
  packLength (dump compact 0 (toDict message)).length ++ encode (dumps compact (toDict message))

omit [FloatNumber F] [FloatConversion F] in
instance (node : Node F) (nonce kind : String) (payload : Members F) (tick : ℕ) :
    Decidable (Fits node nonce kind payload tick) := by unfold Fits FitsRaw; infer_instance

section Answers

variable {node : Node F} {nonce kind peerIp : String} {payload : Members F} {tick : ℕ}
  {s s' : NodeState F} {message : Message F}

omit [FloatNumber F] [FloatConversion F] in
theorem fits_iff : Fits node nonce kind payload tick ↔
    node.deep (answerTo node nonce kind payload tick).payload = false ∧
      (dump compact 0 (toDict (answerTo node nonce kind payload tick))).length ≤ MAX_FRAME := by
  have hsigned := dump_signed kind (node.ed.publicKey node.key) (node.uuid tick)
    (node.ed.sign node.key (canonical (Message.unsigned ⟨kind, hex (node.ed.publicKey node.key),
      hex (node.uuid tick), node.stamp tick,
      .obj (setMember "request_nonce" (.str nonce) payload), ""⟩))) (node.stamp tick)
    (.obj (setMember "request_nonce" (.str nonce) payload)) node.key_length
    (node.uuid_length tick) (node.signature_length _)
  rw [Fits, FitsRaw, ← hsigned]
  rfl

omit [FloatNumber F] [FloatConversion F] in
/-- Where nothing is nested too deep the length decides. -/
theorem fits_shallow (h : shallow (.obj payload) = true) : Fits node nonce kind payload tick ↔
    signedLength kind (node.stamp tick) (.obj (setMember "request_nonce" (.str nonce) payload)) ≤
      MAX_FRAME :=
  and_iff_right (node.deep_shallow _ (shallow_setMember rfl h))

omit [FloatTime F] [FloatNumber F] [FloatConversion F] in
theorem sendFrame_frameOf (h : (dump compact 0 (toDict message)).length ≤ MAX_FRAME) :
    sendFrame (toDict message) = .ok (frameOf message) := by
  rw [sendFrame_eq, if_pos h]
  rfl

omit [FloatNumber F] [FloatConversion F] in
theorem sendReply_answerTo (h : Fits node nonce kind payload tick) :
    node.sendReply (answerTo node nonce kind payload tick) =
      .ok (frameOf (answerTo node nonce kind payload tick)) := by
  obtain ⟨hdeep, hlength⟩ := fits_iff.mp h
  rw [Node.sendReply, hdeep, if_neg Bool.false_ne_true, sendFrame_frameOf hlength]

omit [FloatNumber F] [FloatConversion F] in
theorem sendReply_of_not_fits (h : ¬ Fits node nonce kind payload tick) :
    ∃ e, node.sendReply (answerTo node nonce kind payload tick) = .error e := by
  cases hsent : node.sendReply (answerTo node nonce kind payload tick) with
  | error e => exact ⟨e, rfl⟩
  | ok frame => exact absurd (fits_iff.mpr ((sendReply_iff _).mp ⟨frame, hsent⟩)) h

omit [FloatNumber F] [FloatConversion F] in
theorem distinctKeys_answerTo (h : DistinctKeys (.obj payload)) :
    DistinctKeys (toDict (answerTo node nonce kind payload tick)) :=
  distinctKeys_toDict _ (distinctKeys_setMember _ _ _ trivial h)

/-- The octets of a message are read as the message. -/
theorem handleConnection_frame {frame : Bytes} (hkeys : DistinctKeys message.payload)
    (hsent : sendFrame (toDict message) = .ok frame) :
    node.handleConnection peerIp frame s = node.handleMessage peerIp message s := by
  have hvalue :=
    recvFrame_sendFrame (toDict message) frame (distinctKeys_toDict message hkeys) hsent
  rw [Node.handleConnection, hvalue, bind_lift_ok, fromDict_toDict, bind_lift_ok]
  rfl

/-- What comes back is the frame of the answer, or nothing. -/
theorem direct_answered {frame : Bytes} (hkeys : DistinctKeys message.payload)
    (hsent : sendFrame (toDict message) = .ok frame)
    (hrespond : node.respond peerIp message s = (.ok (answerTo node nonce kind payload tick), s')) :
    direct node peerIp frame s =
      (.ok (if Fits node nonce kind payload tick then
        frameOf (answerTo node nonce kind payload tick) else []), s') := by
  rw [direct, handleConnection_frame hkeys hsent, Node.handleMessage_ok hrespond]
  by_cases hfits : Fits node nonce kind payload tick
  · rw [sendReply_answerTo hfits, if_pos hfits]
    simp [Node.finish]
  · obtain ⟨e, hunsent⟩ := sendReply_of_not_fits hfits
    rw [hunsent, if_neg hfits]
    simp [Node.finish]

end Answers

section Responses

variable {node : Node F} {kind peerIp : String} {payload : Members F} {tick : ℕ} {now : ℚ}
  {s s' : NodeState F} {message : Message F}

omit [FloatNumber F] [FloatConversion F] in
theorem verify_made (nonce : String)
    (hwindow : outOfWindow F now maxSkew (.at (node.clock tick)) = false) :
    (verify node.ed now (made node kind payload tick)).1 = true ∧
      (verify node.ed now (answerTo node nonce kind payload tick)).1 = true := by
  have hlong : 16 ≤ (hex (node.uuid tick)).length := by
    rw [hex_length, node.uuid_length]
    omega
  rw [← node.stamp_clock tick] at hwindow
  constructor
  · exact congrArg Prod.fst (verify_sign node.ed node.key ⟨kind, node.pub, hex (node.uuid tick),
      node.stamp tick, .obj payload, ""⟩ node.key_length rfl hlong now hwindow)
  · exact congrArg Prod.fst (verify_sign node.ed node.key
      { made node kind payload tick with
        payload := .obj (setMember "request_nonce" (.str nonce) payload) }
      node.key_length rfl hlong now hwindow)

/-- What is dispatched is answered under the nonce of the request. -/
theorem respond_dispatch (hverify : (verify node.ed (node.clock s.tick) message).1 = true)
    (hfresh : (s.nonces.accept F (message.sender, message.nonce)
      (node.clock (s.tick + 1))).1 = true)
    (hdispatch : node.dispatch peerIp message (node.received s message) =
      (.ok (made node kind payload tick), s')) :
    node.respond peerIp message s =
      (.ok (answerTo node message.nonce kind payload tick), s') := by
  rw [Node.respond_run peerIp hverify hfresh, bind_ok hdispatch]
  rfl

/-- A nonce that is not accepted is answered, too. -/
theorem respond_replayed (hverify : (verify node.ed (node.clock s.tick) message).1 = true)
    (hreplayed : (s.nonces.accept F (message.sender, message.nonce)
      (node.clock (s.tick + 1))).1 = false) :
    node.respond peerIp message s =
      (.ok (answerTo node message.nonce "ERROR" [("reason", .str "replayed nonce")] (s.tick + 2)),
        (node.received s message).next) := by
  rw [Node.respond_replayed peerIp hverify hreplayed]
  rfl

end Responses

section Requests

variable {client server : Node F} {nonce kind peerIp : String} {payload : Members F} {tick : ℕ}
  {s' : NodeState F} {message response : Message F} {w : World (NodeState F) F}

omit [FloatNumber F] [FloatConversion F] in
theorem nonce_answer :
    member (answerTo server nonce kind payload tick).payload "request_nonce" .null =
      .ok (.str nonce) := by
  rw [member_eq_ok]
  refine ⟨setMember "request_nonce" (.str nonce) payload, rfl, ?_⟩
  rw [field, lookup_setMember]
  rfl

/-- What the client has when the answer of the server has come. -/
def answered (w : World (NodeState F) F) (s' : NodeState F) : World (NodeState F) F :=
  { w with client := w.client.next, network := s' }

/-- A response that has been read is checked. -/
theorem checkResponse_read {expectedSender : Option String} {stream : Bytes} {s : NodeState F}
    (h : recvFrame stream = .ok (toDict response)) :
    checkResponse client message expectedSender stream s =
      (match verify client.ed (client.clock s.tick) response with
      | (false, reason) => throw (.runtimeError ("invalid peer response: " ++ reason))
      | (true, _) =>
          if expectedSender.any (fun sender => !equalsStr (.str response.sender : Json F)
            sender) then
            throw (.runtimeError "response was signed by an unexpected peer")
          else do
            let nonce ← member response.payload "request_nonce" .null
            if equalsStr nonce message.nonce = false then
              throw (.runtimeError "response is not bound to this request")
            else return response.raw : Serving F (RawMessage F)) s.next := by
  rw [checkResponse, h, bind_lift_ok, fromDict_toDict, bind_lift_ok, Node.readClock, bind_change,
    verifyRaw_raw, bind_lift_ok]
  rcases verify client.ed (client.clock s.tick) response with ⟨_ | _, reason⟩ <;> rfl

/-- A request whose answer has come in a frame ends with it, or with what is wrong with it. -/
theorem request_answered {σ : Type} {network : Network σ} {w : World σ F} {t : σ} {frame : Bytes}
    (hsent : sendFrame (toDict message) = .ok frame)
    (hnetwork : network frame w.network =
      (.ok (frameOf (answerTo server message.nonce kind payload tick)), t))
    (hfits : Fits server message.nonce kind payload tick)
    (hpayload : DistinctKeys (.obj payload)) :
    request client network message (some server.pub) w =
      if (verify client.ed (client.clock w.client.tick)
          (answerTo server message.nonce kind payload tick)).1 = true then
        (.ok (answerTo server message.nonce kind payload tick).raw,
          { w with client := w.client.next, network := t })
      else (.error (.runtimeError ("invalid peer response: " ++ (verify client.ed
        (client.clock w.client.tick) (answerTo server message.nonce kind payload tick)).2)),
        { w with client := w.client.next, network := t }) := by
  have hexchange : exchange network frame w =
      (.ok (frameOf (answerTo server message.nonce kind payload tick)),
        { w with network := t }) := by
    rw [exchange, hnetwork]
  have hread : recvFrame (frameOf (answerTo server message.nonce kind payload tick)) =
      .ok (toDict (answerTo server message.nonce kind payload tick)) :=
    recvFrame_sendFrame _ _ (distinctKeys_answerTo hpayload)
      (sendFrame_frameOf (fits_iff.mp hfits).2)
  have hcheck : checkResponse client message (some server.pub)
      (frameOf (answerTo server message.nonce kind payload tick)) w.client = _ :=
    checkResponse_read hread
  rw [request, hsent, bind_lift_ok, bind_ok hexchange, onClient, hcheck]
  rcases verify client.ed (client.clock w.client.tick)
    (answerTo server message.nonce kind payload tick) with ⟨_ | _, reason⟩
  · rfl
  · have hsender : (answerTo server message.nonce kind payload tick).sender = server.pub := rfl
    have hother : (some server.pub).any (fun sender => !equalsStr (F := F)
        (.str (answerTo server message.nonce kind payload tick).sender) sender) = false := by
      simp [hsender]
    dsimp only
    rw [hother, if_neg Bool.false_ne_true, nonce_answer, bind_lift_ok, equalsStr_str,
      if_neg (by simp), if_pos rfl]
    rfl

/-- A request comes to an end with the answer of the server in its frame, or without any. -/
theorem request_run {frame : Bytes} (hkeys : DistinctKeys message.payload)
    (hsent : sendFrame (toDict message) = .ok frame)
    (hrespond : server.respond peerIp message w.network =
      (.ok (answerTo server message.nonce kind payload tick), s'))
    (hpayload : DistinctKeys (.obj payload)) :
    (request client (direct server peerIp) message (some server.pub) w =
      if Fits server message.nonce kind payload tick then
        if (verify client.ed (client.clock w.client.tick)
            (answerTo server message.nonce kind payload tick)).1 = true then
          (.ok (answerTo server message.nonce kind payload tick).raw, answered w s')
        else (.error (.runtimeError ("invalid peer response: " ++ (verify client.ed
          (client.clock w.client.tick) (answerTo server message.nonce kind payload tick)).2)),
          answered w s')
      else (.error .incompleteRead, { w with network := s' })) := by
  have hdirect := direct_answered hkeys hsent hrespond
  by_cases hfits : Fits server message.nonce kind payload tick
  · rw [if_pos hfits] at hdirect ⊢
    exact request_answered hsent hdirect hfits hpayload
  · rw [if_neg hfits] at hdirect ⊢
    have hexchange :
        exchange (direct server peerIp) frame w = (.ok [], { w with network := s' }) := by
      rw [exchange, hdirect]
    rw [request, hsent, bind_lift_ok, bind_ok hexchange]
    rfl

/-- The client takes no other answer than that of the server. -/
theorem eq_of_request {answer : RawMessage F} (hkeys : DistinctKeys message.payload)
    (hrespond : server.respond peerIp message w.network =
      (.ok (answerTo server message.nonce kind payload tick), s'))
    (hpayload : DistinctKeys (.obj payload))
    (hrequest : (request client (direct server peerIp) message (some server.pub) w).1 =
      .ok answer) :
    answer = (answerTo server message.nonce kind payload tick).raw ∧
      Fits server message.nonce kind payload tick := by
  cases hsent : sendFrame (toDict message) with
  | error e => simp [request, hsent, bind_lift_error] at hrequest
  | ok frame =>
    rw [request_run hkeys hsent hrespond hpayload] at hrequest
    split at hrequest
    · rename_i hfits
      split at hrequest
      · exact ⟨(Except.ok.inj hrequest).symm, hfits⟩
      · simp at hrequest
    · simp at hrequest

end Requests

end Decillion.TelepathExchanges
