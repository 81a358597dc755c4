import Decillion.TelepathNodes

/-!
Which requests a node answers. A request that has been verified and is no replay is
answered with one signed frame exactly when its fields convert, the files of the vault can
be read, the receipt is written and the answer is not too long for a frame. Else the
connection is closed without a word, or the handler ends with an exception.
-/
namespace Decillion.TelepathAnswers

open ByteText Base64Text JsonValues JsonText JsonStrings Primitives Dictionaries PyErrors
open PyValues AccessRequests ManifestPaths RaisingPrograms TelepathMessages TelepathSessions
  TelepathFrames TelepathNodes

variable {F : Type} [FloatText F] [FloatTime F] (node : Node F)

/-- A frame with a message of the node that names the request is all that is sent. -/
def Answered (nonce : Json F) (handled : Node.Handled F) : Prop :=
  handled.raised = none ∧ ∃ (reply : Message F) (frame : Bytes),
    sendFrame (toDict reply) = .ok frame ∧ handled.sent = [frame] ∧ reply.sender = node.pub ∧
    signatureValid node.ed reply.sender reply.signature (canonical reply.unsigned) = true ∧
    reply.payload.get? "request_nonce" = some nonce

/-- An answer to a nonce of any kind is neither nested too deep nor too long for a frame. -/
def FitsRaw (nonce : Json F) (kind : String) (payload : Members F) (tick : ℕ) : Prop :=
  node.deep (.obj (setMember "request_nonce" nonce payload)) = false ∧
    signedLength kind (node.stamp tick) (.obj (setMember "request_nonce" nonce payload)) ≤ MAX_FRAME

/-- An answer to the nonce is neither nested too deep nor too long for a frame. -/
def Fits (nonce kind : String) (payload : Members F) (tick : ℕ) : Prop :=
  FitsRaw node (.str nonce) kind payload tick

def ReceiptWritten (tick : ℕ) (kind modelId actor : String) (payload : Members F) : Prop :=
  ∀ emit, node.receipts = some emit → emit tick kind modelId actor payload = .ok ()

section Fitting

variable {node} {nonce : Json F} {s : NodeState F} {α : Type}

theorem sendReply_iff (response : Message F) : (∃ frame, node.sendReply response = .ok frame) ↔
    node.deep response.payload = false ∧
      (dump compact 0 (toDict response)).length ≤ MAX_FRAME := by
  rw [Node.sendReply]
  cases node.deep response.payload with
  | true => simp
  | false =>
    rw [if_neg Bool.false_ne_true, sendFrame_eq]
    split <;> simp_all

end Fitting

section Conditions

variable [FloatNumber F] [FloatConversion F] (s : NodeState F) (message : Message F)
  (members : Members F)

end Conditions

section Handlers

variable {node} [FloatNumber F] [FloatConversion F] {s : NodeState F} {message : Message F}
  {members : Members F}

end Handlers

section Own

/-- A message of the node, signed or still to be signed. -/
def Own (response : Message F) : Prop :=
  response.sender = node.pub ∧ ∃ members, response.payload = .obj members

variable {node} {α : Type}

variable [FloatNumber F] [FloatConversion F] (message : Message F)

end Own

section Received

variable [FloatNumber F] [FloatConversion F] (s : NodeState F) (message : RawMessage F)

end Received

theorem sample_key_length : (Ed25519.sample.publicKey (octets 32 5)).length = 32 :=
  octets_length 32 5

theorem sample_signature_length (message : Bytes) :
    (Ed25519.sample.sign (octets 32 5) message).length = 64 := octets_length 64 _

theorem sample_stamp_clock (tick : ℕ) :
    FloatTime.instant ((fun _ => ⟨0⟩ : ℕ → WholeFloat) tick) = .at ((fun _ => 0 : ℕ → ℚ) tick) :=
      rfl

theorem sample_uuid_length (tick : ℕ) : ((fun tick => octets 16 tick) tick).length = 16 :=
  octets_length 16 tick

theorem sample_deep_shallow (value : Json WholeFloat) (h : shallow value = true) :
    (fun value => !shallow value) value = false :=
  congrArg not h

def sampleNode : Node WholeFloat where
  ed := Ed25519.sample
  sha := Sha256.sample
  key := octets 32 5
  key_length := sample_key_length
  signature_length := sample_signature_length
  name := "node"
  port := 7788
  vault := none
  receipts := none
  clock := fun _ => 0
  stamp := fun _ => ⟨0⟩
  stamp_clock := sample_stamp_clock
  uuid := fun tick => octets 16 tick
  uuid_length := sample_uuid_length
  str := fun _ => ""
  repr := fun text => text
  deep := fun value => !shallow value
  deep_shallow := sample_deep_shallow

def sampleState : NodeState WholeFloat :=
  ⟨none, SessionRegistry.new, NonceCache.new, Dict.empty, Dict.empty, 0⟩

end Decillion.TelepathAnswers
