import Decillion.JsonCharacters
import Decillion.PyCollections
import Decillion.PyValues
import Decillion.TelepathMessages

/-!
Frames on a connection: four octets with the length of the body and the body, the text of
one JSON value, whose integers have no more digits than the language writes out. Both ends
refuse a body of more than four MiB. A message comes back from its frame as it was sent.
-/
namespace Decillion.TelepathFrames

open ByteText JsonValues JsonText JsonStrings JsonCharacters JsonRoundTrip Primitives PyErrors
  PyValues AccessRequests TelepathMessages
open PyCollections (item)

def MAX_FRAME : ℕ := 4 * 1024 * 1024

/-- `struct.pack(">I", n)` -/
def packLength (n : ℕ) : Bytes := octets 4 n

/-- `struct.unpack(">I", header)` -/
def unpackLength (header : Bytes) : ℕ := header.foldl (fun n b => 256 * n + b.toNat) 0

theorem unpackLength_packLength (n : ℕ) (hn : n < 2 ^ 32) : unpackLength (packLength n) = n := by
  have hoctets : packLength n = [UInt8.ofNat (n / 256 ^ 3), UInt8.ofNat (n / 256 ^ 2),
      UInt8.ofNat (n / 256 ^ 1), UInt8.ofNat (n / 256 ^ 0)] := rfl
  rw [hoctets, unpackLength]
  simp only [List.foldl_cons, List.foldl_nil, UInt8.toNat_ofNat']
  omega

variable {F : Type} [FloatText F]

def sendFrame (value : Json F) : Except PyError Bytes :=
  let body := encode (dumps compact value)
  if body = [] ∨ MAX_FRAME < body.length then
    .error (.valueError ("invalid frame size: " ++ toString body.length))
  else .ok (packLength body.length ++ body)

/-- What is read from the octets that come in before the end of the stream. -/
def recvFrame (stream : Bytes) : Except PyError (Json F) :=
  if stream.length < 4 then .error .incompleteRead
  else
    let size := unpackLength (stream.take 4)
    if size ≤ 0 ∨ MAX_FRAME < size then
      .error (.valueError ("invalid frame size: " ++ toString size))
    else
      let body := (stream.drop 4).take size
      if body.length < size then .error .incompleteRead
      else match (decode body).bind loads with
        | none => .error (.valueError "")
        | some value => .ok value

/-- `Message.to_dict` -/
def toDict (message : Message F) : Json F :=
  .obj [("type", .str message.type), ("sender", .str message.sender),
    ("nonce", .str message.nonce), ("ts", .float message.ts), ("payload", message.payload),
    ("signature", .str message.signature)]

/-- `Message.from_dict`; only the time is converted. -/
def fromDict [FloatNumber F] [FloatConversion F] (repr : String → String) :
    Json F → Except PyError (RawMessage F)
  | .obj members => do
      let type ← item members "type"
      let sender ← item members "sender"
      let nonce ← item members "nonce"
      let ts ← item members "ts"
      let ts ← toFloat repr ts
      let payload ← item members "payload"
      return ⟨type, sender, nonce, ts, payload, (members.lookup "signature").getD (.str "")⟩
  | _ => .error .typeError

theorem dump_ne_nil (st : Style) (level : ℕ) (v : Json F) : dump st level v ≠ [] := by
  obtain ⟨c, more, hdump, -⟩ := dump_cons st level v
  rw [hdump]
  exact List.cons_ne_nil c more

/-- A value is sent exactly when its text has at most as many characters as a frame octets. -/
theorem sendFrame_eq (value : Json F) : sendFrame value =
    if (dump compact 0 value).length ≤ MAX_FRAME then
      .ok (packLength (dump compact 0 value).length ++ encode (dumps compact value))
    else .error (.valueError ("invalid frame size: " ++
      toString (dump compact 0 value).length)) := by
  have hlength := encode_dumps_length value
  have hbody : encode (dumps compact value) ≠ [] := by
    intro hnil
    rw [hnil, List.length_nil] at hlength
    exact dump_ne_nil compact 0 value (List.length_eq_zero_iff.mp hlength.symm)
  simp only [sendFrame, hbody, false_or, hlength]
  by_cases hfits : (dump compact 0 value).length ≤ MAX_FRAME
  · rw [if_neg (not_lt.mpr hfits), if_pos hfits]
  · rw [if_pos (not_le.mp hfits), if_neg hfits]

/-- What one end sends the other end reads. -/
theorem recvFrame_sendFrame (value : Json F) (frame : Bytes) (hkeys : DistinctKeys value)
    (hsent : sendFrame value = .ok frame) : recvFrame frame = .ok value := by
  rw [sendFrame_eq] at hsent
  split at hsent
  · rename_i hfits
    obtain rfl := Except.ok.inj hsent
    have hlength := encode_dumps_length value
    have hpack : (packLength (dump compact 0 value).length).length = 4 := octets_length 4 _
    have hpositive : (dump compact 0 value).length ≠ 0 := by
      rw [Ne, List.length_eq_zero_iff]
      exact dump_ne_nil compact 0 value
    have hsize : unpackLength (packLength (dump compact 0 value).length) =
        (dump compact 0 value).length :=
      unpackLength_packLength _ (hfits.trans_lt (by decide))
    have hloads : loads (dumps compact value) = some value := by
      have h := loads_dumps compact value hkeys [] rfl
      rwa [List.append_nil] at h
    rw [recvFrame, if_neg (by rw [List.length_append, hpack]; omega),
      List.take_left' hpack, List.drop_left' hpack, hsize, if_neg (by omega), ← hlength,
      List.take_length, if_neg (by omega), decode_encode, Option.bind_some, hloads]
  · simp at hsent

omit [FloatText F] in
theorem fromDict_toDict [FloatNumber F] [FloatConversion F] (repr : String → String)
    (message : Message F) : fromDict repr (toDict message) = .ok message.raw := by
  simp [fromDict, toDict, item, List.lookup_cons, toFloat, bind, Except.bind, pure, Except.pure,
    Message.raw]

omit [FloatText F] in
theorem distinctKeys_toDict (message : Message F) (h : DistinctKeys message.payload) :
    DistinctKeys (toDict message) := by
  refine ⟨by simp, ?_⟩
  simp [DistinctKeysMembers, DistinctKeys, h]

section Lengths

theorem escapeChar_hexDigit (ascii : Bool) :
    ∀ d, d < 16 → escapeChar ascii (Nat.digitChar d) = [Nat.digitChar d] := by
  cases ascii <;> decide

theorem dumpString_hex (bytes : Bytes) :
    (dumpString compact (hex bytes)).length = 2 * bytes.length + 2 := by
  have hflat : (hexChars bytes).flatMap (escapeChar compact.ensureAscii) = hexChars bytes := by
    induction bytes with
    | nil => rfl
    | cons b rest ih =>
      have hlt := b.toNat_lt
      rw [hexChars, List.flatMap_cons, List.flatMap_append, hexByte, List.flatMap_cons,
        List.flatMap_cons, List.flatMap_nil, List.append_nil,
        escapeChar_hexDigit _ _ (by omega), escapeChar_hexDigit _ _ (by omega)]
      exact congrArg (_ ++ ·) ih
  rw [dumpString, chars_eq, hex, String.toList_ofList, hflat, List.length_cons, List.length_append,
    hexChars_length]
  rfl

/-- The length of the text of a signed message, by the parts that are not fixed. -/
def signedLength (type : String) (ts : F) (payload : Json F) : ℕ :=
  (dumpString compact type).length + (FloatText.text ts).length +
    (dump compact 1 payload).length + 288

theorem dump_signed (type : String) (key nonce signature : Bytes) (ts : F) (payload : Json F)
    (hkey : key.length = 32) (hnonce : nonce.length = 16) (hsignature : signature.length = 64) :
    (dump compact 0 (toDict ⟨type, hex key, hex nonce, ts, payload, hex signature⟩)).length =
      signedLength type ts payload := by
  have hname : (dumpString compact "type").length = 6 ∧
      (dumpString compact "sender").length = 8 ∧ (dumpString compact "nonce").length = 7 ∧
      (dumpString compact "ts").length = 4 ∧
      (dumpString compact "payload").length = 9 ∧
      (dumpString compact "signature").length = 11 := by decide +kernel
  have hbreak : ∀ level, newline compact level = [] := fun _ => rfl
  have hcolon : colon compact = [':'] := rfl
  simp only [toDict, dump, dumpMembers, hbreak, hcolon, List.nil_append, List.length_cons,
    List.length_append, List.length_nil, Nat.zero_add, hname, dumpString_hex, hkey, hnonce,
    hsignature, signedLength]
  omega

end Lengths

end Decillion.TelepathFrames
