import Decillion.AccessRequests
import Decillion.PyCollections

/-!
Receipts of a communications provider: a dictionary that is signed with an Ed25519 key and
checked again. The check rebuilds the signed octets from the members of the receipt; the key
is the one that the caller expects, or the one that the receipt itself names.
-/
namespace Decillion.VonageReceipts

open AccessRequests ByteText JsonRoundTrip JsonStrings JsonText JsonValues Primitives
  PyCollections PyErrors PyValues

variable {F : Type} [FloatText F]

/-- `sha256_hex` -/
def sha256Hex (sha : Sha256) (data : Bytes) : String := "sha256:" ++ sha.hexdigest data

/-- A call of `mint_signed_receipt`; a dictionary has every key once. -/
structure MintCall (F : Type) where
  channel : String
  vonageResponse : Members F
  signerId : String
  signerTier : String
  createdAt : String
  distinct : DistinctKeys (.obj vonageResponse)

def proves (call : MintCall F) : List (Json F) :=
  [.str ("the Vonage " ++ call.channel ++
      " API response fields recorded here were returned to this client"),
    .str "the recorded receipt body is unchanged since signing when verification succeeds",
    .str ("the receipt signature is valid for the pinned Ed25519 key (" ++ call.signerTier ++ ")")]

def doesNotProve (call : MintCall F) : List (Json F) :=
  [.str ("the signer key is hardware-backed (" ++ call.signerTier ++ "=software)"),
    .str "carrier delivery beyond the provider response status",
    .str "recipient reading or acknowledgement",
    .str "that the signer key was not exposed from process memory",
    .str "that any external blockchain anchor exists"]

def disclosures : List (Json F) :=
  [.str ("this receipt binds the recorded Vonage response fields, " ++
      "not an unrecorded HTTP byte stream"),
    .str ("delivery status must arrive through a verified Vonage webhook " ++
      "before it is treated as provider evidence"),
    .str ("the receipt signature uses a deterministic JSON serialization profile; " ++
      "RFC 8785 JCS is not claimed")]

variable (sha : Sha256) (ed : Ed25519)

/-- The body before its id is taken. -/
def mintBody (secret : Bytes) (call : MintCall F) : Members F :=
  [("spec", .str "innovulis-vonage-receipt/1.1"), ("created_at", .str call.createdAt),
    ("channel", .str call.channel), ("vonage_response", .obj call.vonageResponse),
    ("signer", .obj [("id", .str call.signerId), ("tier", .str call.signerTier),
      ("public_key_hex", .str (hex (ed.publicKey secret)))]),
    ("anchor", .null), ("proves", .list (proves call)),
    ("does_not_prove", .list (doesNotProve call)), ("disclosures", .list disclosures),
    ("genesis_authority", .null)]

def mintUnsigned (secret : Bytes) (call : MintCall F) : Members F :=
  mintBody ed secret call ++
    [("receipt_id", .str (sha256Hex sha (canonical (.obj (mintBody ed secret call)))))]

def mintSignedReceipt (secret : Bytes) (call : MintCall F) : Except PyError (Members F) :=
  if call.signerTier = "T0" ∨ call.signerTier = "T0.5" ∨ call.signerTier = "T2" then
    .ok (mintUnsigned sha ed secret call ++ [("signature",
      .str (hex (ed.sign secret (canonical (.obj (mintUnsigned sha ed secret call))))))])
  else .error (.valueError ("unsupported signer tier: " ++ call.signerTier))

def required : List String :=
  ["spec", "receipt_id", "signature", "channel", "vonage_response", "signer", "proves",
    "does_not_prove", "disclosures"]

/-- The members with other keys. -/
def without (keys : List String) (receipt : Members F) : Members F :=
  receipt.filter (fun member => !keys.contains member.1)

/-- `receipt["signer"].get(key, default)` -/
def signerField (receipt : Members F) (key : String) (default : Json F) :
    Except PyError (Json F) :=
  match receipt.lookup "signer" with
  | none => .error .keyError
  | some (.obj signer) => .ok ((signer.lookup key).getD default)
  | some _ => .error .attributeError

/-- `expected_pubkey_hex or receipt["signer"].get("public_key_hex", "")` -/
def keyText (receipt : Members F) (expected : Option String) : Except PyError (Json F) :=
  if expected.getD "" ≠ "" then .ok (.str (expected.getD ""))
  else signerField receipt "public_key_hex" (.str "")

inductive SignatureError where
  | python (e : PyError)
  | invalidSignature

/-- `bytes.fromhex(value)` -/
def bytesFromHex : Json F → Except SignatureError Bytes
  | .str text =>
      match fromHex text with
      | none => .error (.python (.valueError "non-hexadecimal number found in fromhex() arg"))
      | some bytes => .ok bytes
  | _ => .error (.python .typeError)

/-- `Ed25519PublicKey.from_public_bytes` -/
def publicKeyOf (bytes : Bytes) : Except SignatureError Bytes :=
  if bytes.length = 32 then .ok bytes
  else .error (.python (.valueError "An Ed25519 public key is 32 bytes long"))

def checkSignature (receipt : Members F) (key : Json F) : Except SignatureError Unit := do
  let bytes ← bytesFromHex key
  let publicKey ← publicKeyOf bytes
  let signature ← bytesFromHex ((receipt.lookup "signature").getD .null)
  if ed.verify publicKey signature (canonical (.obj (without ["signature"] receipt))) then
    return ()
  else .error .invalidSignature

variable (lowering : Lowering)

def mentionsSoftware (item : String) : Bool :=
  decide ((chars "software") <:+: chars (lowering.lower item)) ||
    decide ((chars "process memory") <:+: chars (lowering.lower item))

/-- `any(... for item in items)`; an item that is no text has no `lower`. -/
def anySoftware : List (Json F) → Except PyError Bool
  | [] => .ok false
  | .str item :: rest => if mentionsSoftware lowering item then .ok true else anySoftware rest
  | _ :: _ => .error .attributeError

def tierErrors [FloatNumber F] (receipt : Members F) : Except PyError (List String) := do
  let tier ← signerField receipt "tier" .null
  if equalsStr tier "T0" then
    let items ← iterate ((receipt.lookup "does_not_prove").getD .null)
    if ← anySoftware lowering items then return []
    else return ["T0 signer missing software-key limitation"]
  else return []

def isNull : Json F → Bool
  | .null => true
  | _ => false

def anchorErrors (receipt : Members F) : Except PyError (List String) :=
  match receipt.lookup "anchor" with
  | none | some .null => .ok []
  | some (.obj anchor) =>
      if ["chain", "block_height", "txid", "ots_file"].any
          (fun key => isNull ((anchor.lookup key).getD .null)) then .ok ["anchor is partial"]
      else .ok []
  | some _ => .error .attributeError

def idErrors (receipt : Members F) : List String :=
  if equalsStr ((receipt.lookup "receipt_id").getD .null)
      (sha256Hex sha (canonical (.obj (without ["receipt_id", "signature"] receipt)))) then []
  else ["receipt_id mismatch"]

variable (text : SignatureError → String)

def signatureErrors (receipt : Members F) (key : Json F) : List String :=
  match checkSignature ed receipt key with
  | .ok () => []
  | .error e => ["signature invalid: " ++ text e]

structure Verdict where
  ok : Bool
  errors : List String

def verdict (errors : List String) : Verdict := ⟨errors.isEmpty, errors⟩

def verifyVonageReceipt [FloatNumber F] (receipt : Members F) (expected : Option String) :
    Except PyError Verdict :=
  let missing := required.filter (fun key => (receipt.lookup key).isNone)
  if missing ≠ [] then .ok (verdict (missing.map (fun key => "missing key: " ++ key)))
  else do
    let key ← keyText receipt expected
    let tier ← tierErrors lowering receipt
    let anchor ← anchorErrors receipt
    return verdict (idErrors sha receipt ++ signatureErrors ed text receipt key ++ tier ++ anchor)

end Decillion.VonageReceipts
