import Decillion.AccessRequests
import Decillion.PyErrors

/-!
Messages between peers: who sent them, when, a nonce and a payload, under one signature.
The header of a message that comes in may hold any values; those of a message that is made
are texts. A node takes a message in when its time, its nonce and its signature are in order
and the nonce has not been seen from this sender.
-/
namespace Decillion.TelepathMessages

open ByteText JsonValues JsonText Primitives PyErrors AccessRequests

/-- A message as it is read from a frame. -/
structure RawMessage (F : Type) where
  type : Json F
  sender : Json F
  nonce : Json F
  ts : F
  payload : Json F
  signature : Json F

/-- A message whose header is made of texts. -/
structure Message (F : Type) where
  type : String
  sender : String
  nonce : String
  ts : F
  payload : Json F
  signature : String

variable {F : Type} [FloatText F] [FloatTime F]

namespace Message

def unsigned (message : Message F) : Json F :=
  .obj [("type", .str message.type), ("sender", .str message.sender),
    ("nonce", .str message.nonce), ("ts", .float message.ts), ("payload", message.payload)]

def sign (ed : Ed25519) (secret : Bytes) (message : Message F) : Message F :=
  { message with signature := hex (ed.sign secret (canonical message.unsigned)) }

def raw (message : Message F) : RawMessage F :=
  ⟨.str message.type, .str message.sender, .str message.nonce, message.ts, message.payload,
    .str message.signature⟩

end Message

namespace RawMessage

def unsigned (message : RawMessage F) : Json F :=
  .obj [("type", message.type), ("sender", message.sender), ("nonce", message.nonce),
    ("ts", .float message.ts), ("payload", message.payload)]

/-- The message, if its header is made of texts. -/
def text? (message : RawMessage F) : Option (Message F) :=
  match message.type, message.sender, message.nonce, message.signature with
  | .str type, .str sender, .str nonce, .str signature =>
      some ⟨type, sender, nonce, message.ts, message.payload, signature⟩
  | _, _, _, _ => none

end RawMessage

/-- `protocol.make` with the nonce it draws and the time it reads. -/
def make (ed : Ed25519) (secret : Bytes) (kind : String) (payload : Json F) (nonce : String)
    (now : F) : Message F :=
  Message.sign ed secret ⟨kind, hex (ed.publicKey secret), nonce, now, payload, ""⟩

/-- `len(value)` -/
def len : Json F → Except PyError ℕ
  | .str text => .ok text.length
  | .list items => .ok items.length
  | .obj members => .ok members.length
  | _ => .error .typeError

/-- The signature of a message; a sender or a signature that is no text is a bad one. -/
def signedRight (ed : Ed25519) (message : RawMessage F) : Bool :=
  match message.sender, message.signature with
  | .str sender, .str signature =>
      signatureValid ed sender signature (canonical message.unsigned)
  | _, _ => false

/-- `protocol.verify` -/
def verifyRaw (ed : Ed25519) (now : ℚ) (message : RawMessage F) : Except PyError (Bool × String) :=
  if outOfWindow F now maxSkew (FloatTime.instant message.ts) then
    .ok (false, "timestamp out of window")
  else
    match len message.nonce with
    | .error e => .error e
    | .ok length =>
        if length < 16 then .ok (false, "invalid nonce")
        else if signedRight ed message then .ok (true, "ok")
        else .ok (false, "bad signature")

/-- `protocol.verify` on a message whose header is made of texts. -/
def verify (ed : Ed25519) (now : ℚ) (message : Message F) : Bool × String :=
  if outOfWindow F now maxSkew (FloatTime.instant message.ts) then
    (false, "timestamp out of window")
  else if message.nonce.length < 16 then (false, "invalid nonce")
  else if signatureValid ed message.sender message.signature (canonical message.unsigned) then
    (true, "ok")
  else (false, "bad signature")

/-- `self.nonces.accept(message.sender, message.nonce)` on a message that has been verified; a
list or a dictionary in the place of the nonce cannot be looked up. -/
def acceptRaw (nonces : NonceCache) (message : RawMessage F) (current : ℚ) :
    Except PyError Bool × NonceCache :=
  match message.sender, message.nonce with
  | .str sender, .str nonce =>
      let answer := nonces.accept F (sender, nonce) current
      (.ok answer.1, answer.2)
  | _, _ =>
      let purged := if nonces.isFull then nonces.purge current else nonces
      (if purged.isFull then .ok false else .error .typeError, purged)

section Raw

variable {ed : Ed25519} {now : ℚ}

omit [FloatText F] [FloatTime F] in
@[simp]
theorem text?_raw (message : Message F) : message.raw.text? = some message := rfl

omit [FloatText F] [FloatTime F] in
theorem raw_injective {message other : Message F} (h : message.raw = other.raw) :
    message = other :=
  Option.some.inj (congrArg RawMessage.text? h)

omit [FloatText F] [FloatTime F] in
theorem raw_of_text? {message : RawMessage F} {text : Message F} (h : message.text? = some text) :
    message = text.raw := by
  unfold RawMessage.text? at h
  split at h
  · rename_i htype hsender hnonce hsignature
    obtain rfl := Option.some.inj h
    rw [Message.raw, ← htype, ← hsender, ← hnonce, ← hsignature]
  · cases h

theorem verifyRaw_raw (message : Message F) :
    verifyRaw ed now message.raw = .ok (verify ed now message) := by
  have hlen : len message.raw.nonce = .ok message.nonce.length := rfl
  have hright : signedRight ed message.raw = signatureValid ed message.sender message.signature
      (canonical message.unsigned) := rfl
  have hts : message.raw.ts = message.ts := rfl
  simp only [verifyRaw, verify, hlen, hright, hts]
  split
  · rfl
  · split
    · rfl
    · split
      · rfl
      · rfl

/-- What is verified has been sent and signed by someone who is named by a text. -/
theorem signed_of_verifyRaw {message : RawMessage F} {reason : String}
    (h : verifyRaw ed now message = .ok (true, reason)) :
    ∃ sender signature, message.sender = .str sender ∧ message.signature = .str signature ∧
      signatureValid ed sender signature (canonical message.unsigned) = true := by
  unfold verifyRaw at h
  split at h
  · cases h
  · split at h
    · cases h
    · split at h
      · cases h
      · split at h
        · rename_i hright
          unfold signedRight at hright
          split at hright
          · rename_i sender signature hsender hsignature
            exact ⟨sender, signature, hsender, hsignature, hright⟩
          · cases hright
        · cases h

omit [FloatText F] in
theorem acceptRaw_raw (nonces : NonceCache) (message : Message F) (current : ℚ) :
    acceptRaw nonces message.raw current =
      (.ok (nonces.accept F (message.sender, message.nonce) current).1,
        (nonces.accept F (message.sender, message.nonce) current).2) := rfl

end Raw

section Signed

variable (ed : Ed25519) (secret : Bytes) (message : Message F)

omit [FloatTime F] in
theorem unsigned_sign : (Message.sign ed secret message).unsigned = message.unsigned := rfl

omit [FloatTime F] in
/-- The signer's own signature is valid. -/
theorem signatureValid_signed (hlength : (ed.publicKey secret).length = 32)
    (hsender : message.sender = hex (ed.publicKey secret)) :
    signatureValid ed (Message.sign ed secret message).sender
      (Message.sign ed secret message).signature
      (canonical (Message.sign ed secret message).unsigned) = true := by
  rw [unsigned_sign]
  have hvalid := signatureValid_sign ed secret (canonical message.unsigned) hlength
  rwa [← hsender] at hvalid

/-- A message passes the check of its signer's own signature inside the window. -/
theorem verify_sign (hlength : (ed.publicKey secret).length = 32)
    (hsender : message.sender = hex (ed.publicKey secret)) (hnonce : 16 ≤ message.nonce.length)
    (now : ℚ) (hwindow : outOfWindow F now maxSkew (FloatTime.instant message.ts) = false) :
    verify ed now (Message.sign ed secret message) = (true, "ok") := by
  have hvalid := signatureValid_signed ed secret message hlength hsender
  have hts : (Message.sign ed secret message).ts = message.ts := rfl
  have hlong : ¬ (Message.sign ed secret message).nonce.length < 16 := not_lt.mpr hnonce
  rw [verify, hts, hwindow, if_neg Bool.false_ne_true, if_neg hlong, hvalid, if_pos rfl]

end Signed

end Decillion.TelepathMessages
