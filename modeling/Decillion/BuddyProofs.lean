import Decillion.AccessRequests
import Decillion.PyCollections

/-!
The proof service: a contract and an attempt pass a number of gates, are certified with the
key of the service and entered in its database. Both are dictionaries of JSON values that the
client has chosen; what a gate cannot read raises the exception of the language.
-/
namespace Decillion.BuddyProofs

open AccessRequests ByteText JsonRoundTrip JsonStrings JsonText JsonValues Primitives
  PyCollections PyErrors PyValues

variable {F : Type} [FloatText F] [FloatNumber F]

inductive BuddyError where
  | http (status : ℕ) (detail : String)
  | python (e : PyError)
deriving DecidableEq

mutual

/-- No number in the value is infinite or not a number. -/
def isFinite : Json F → Bool
  | .float x =>
      match FloatNumber.number x with
      | .finite _ => true
      | _ => false
  | .list items => allFinite items
  | .obj members => allFiniteMembers members
  | _ => true

def allFinite : List (Json F) → Bool
  | [] => true
  | item :: rest => isFinite item && allFinite rest

def allFiniteMembers : Members F → Bool
  | [] => true
  | (_, value) :: rest => isFinite value && allFiniteMembers rest

end

/-- `canon`, where no integer has more digits than the language writes out. -/
def canon (value : Json F) : Except PyError Bytes :=
  if isFinite value then .ok (encode (dumpsSorted compact value))
  else .error (.valueError "Out of range float values are not JSON compliant")

/-- `digest` -/
def digest (sha : Sha256) (value : Json F) : Except PyError String :=
  (canon value).map (fun bytes => "sha256:" ++ sha.hexdigest bytes)

structure Submission (F : Type) where
  contract : Members F
  attempt : Members F
  reviewerPublicKey : String
  reviewerSignature : String
  contract_distinct : DistinctKeys (.obj contract)
  attempt_distinct : DistinctKeys (.obj attempt)

/-- What a reviewer signs. -/
def pair (contract attempt : Members F) : Json F :=
  .obj [("contract", .obj contract), ("attempt", .obj attempt)]

def python {α : Type} (result : Except PyError α) : Except BuddyError α :=
  result.mapError BuddyError.python

/-- `if not condition: raise HTTPException(status, detail)` -/
def require (condition : Bool) (status : ℕ) (detail : String) : Except BuddyError Unit :=
  if condition then .ok () else .error (.http status detail)

/-- `json.loads(os.getenv("BUDDY_REVIEWER_KEYS_JSON", "[]"))` -/
def registeredKeys (keysJson : Option String) : Except BuddyError (Json F) :=
  match loads (keysJson.getD "[]") with
  | none => .error (.python (.valueError "invalid JSON"))
  | some keys => .ok keys

def checkRegistered (keysJson : Option String) (data : Submission F) : Except BuddyError Unit := do
  let keys ← registeredKeys (F := F) keysJson
  let found ← python (containsText keys data.reviewerPublicKey)
  require found 403 "reviewer key not registered"

def sameClaim (c a : Members F) : Bool :=
  sameItem (get c "claim_id") (get a "claim_id") &&
    sameItem (get c "claim_version") (get a "claim_version")

def checkClaim (c a : Members F) : Except BuddyError Unit :=
  require (sameClaim c a && truthy (get c "claim_id") && truthy (get c "claim_version"))
    422 "claim/version mismatch"

def checkCriteria (c a : Members F) : Except BuddyError Unit :=
  require (pyEq (get c "criteria_version") (get a "criteria_version")) 422 "criteria changed"

/-- The keys are compared as texts. -/
def checkGenerator (data : Submission F) : Except BuddyError Unit :=
  require (!equalsStr (get data.attempt "generator_public_key") data.reviewerPublicKey)
    422 "generator cannot review"

/-- Every exception of the verification is reported alike. -/
def checkSignature (ed : Ed25519) (data : Submission F) : Except BuddyError Unit :=
  match canon (pair data.contract data.attempt) with
  | .error _ => .error (.http 422 "invalid reviewer signature")
  | .ok message =>
      require (signatureValid ed data.reviewerPublicKey data.reviewerSignature message)
        422 "invalid reviewer signature"

def checkAttempt (a : Members F) : Except BuddyError Unit :=
  require (truthy (get a "executed") && equalsStr (get a "decision") "REQUIREMENTS_SATISFIED")
    422 "attempt not satisfied"

def checkBlocking (a : Members F) : Except BuddyError Unit :=
  require (!truthy (get a "checks_failed") && !truthy (get a "blocking_issues"))
    422 "blocking checks"

def checkRequired (c a : Members F) : Except BuddyError Unit := do
  let required ← python (toSet ((c.lookup "required_checks").getD (.list [])))
  let passed ← python (toSet ((a.lookup "checks_passed").getD (.list [])))
  require (isSubset required passed) 422 "required check missing"

/-- `evidence.get(name, default)` -/
def evidenceGet (evidence name default : Json F) : Except PyError (Json F) :=
  match evidence with
  | .obj members =>
      match name with
      | .str text => .ok ((members.lookup text).getD default)
      | .list _ | .obj _ => .error .typeError
      | _ => .ok default
  | _ => .error .attributeError

def isDigest : Json F → Bool
  | .str text => decide (chars "sha256:" <+: chars text)
  | _ => false

def checkItems (evidence : Json F) : List (Json F) → Except BuddyError Unit
  | [] => .ok ()
  | name :: rest => do
      let value ← python (evidenceGet evidence name (.str ""))
      require (isDigest value) 422 "evidence missing"
      checkItems evidence rest

def evidenceOf (a : Members F) : Json F := (a.lookup "evidence").getD (.obj [])

def checkEvidence (c a : Members F) : Except BuddyError Unit := do
  let names ← python (iterate ((c.lookup "evidence_requirements").getD (.list [])))
  checkItems (evidenceOf a) names

/-- `a <= b` -/
def lessEq (a b : Number) : Bool := a.less b || a.eq b

def withinBudget (spent budget : Json F) : Bool :=
  match number? spent, number? budget with
  | some x, some y => lessEq (.finite 0) x && lessEq x y
  | _, _ => false

def checkBudget (c a : Members F) : Except BuddyError Unit :=
  require (withinBudget (get a "spent_usd") (get c "budget_usd")) 422 "budget exceeded"

/-- What `submit` checks before it opens the database. -/
def gates (ed : Ed25519) (keysJson : Option String) (data : Submission F) :
    Except BuddyError Unit := do
  checkRegistered keysJson data
  checkClaim data.contract data.attempt
  checkCriteria data.contract data.attempt
  checkGenerator data
  checkSignature ed data
  checkAttempt data.attempt
  checkBlocking data.attempt
  checkRequired data.contract data.attempt
  checkEvidence data.contract data.attempt
  checkBudget data.contract data.attempt

/-- A row of the table `issued`. -/
structure IssuedRow where
  claimId : String
  version : String
  cert : String
  revoked : Bool
deriving DecidableEq

/-- A row of the table `events`; the rows are in the order of `seq`. -/
structure EventRow where
  body : String
  digest : String
deriving DecidableEq

structure Database where
  issued : List IssuedRow
  events : List EventRow
deriving DecidableEq

/-- The settings of the service: the registered keys, the secret of the signer, which is missing
when there is no durable signer or database, and what the database makes of a value that is
bound to a column of text. -/
structure Service (F : Type) where
  sha : Sha256
  ed : Ed25519
  keysJson : Option String
  signer : Option Bytes
  column : Json F → Except PyError String

/-- The certificate before it is signed. -/
def certificateBody (service : Service F) (secret : Bytes) (data : Submission F)
    (contractHash attemptHash : String) : Members F :=
  [("certificate_type", .str "Buddy_Certified_UR1"),
    ("claim_id", get data.contract "claim_id"),
    ("claim_version", get data.contract "claim_version"),
    ("contract_hash", .str contractHash), ("attempt_hash", .str attemptHash),
    ("reviewer_public_key", .str data.reviewerPublicKey),
    ("reviewer_signature", .str data.reviewerSignature),
    ("issuer_public_key", .str (hex (service.ed.publicKey secret))),
    ("scope", (data.contract.lookup "scope").getD (.str "declared checks only")),
    ("limits", .str "No universal factual truth, PUF or external anchor proven")]

def receiptOf (service : Service F) (body : Members F) : Except PyError String :=
  (digest service.sha (.obj body)).map (fun hash => "urn:ur1:" ++ hash)

def certificate (service : Service F) (secret : Bytes) (data : Submission F) :
    Except PyError (Members F) := do
  let contractHash ← digest service.sha (.obj data.contract)
  let attemptHash ← digest service.sha (.obj data.attempt)
  let body := certificateBody service secret data contractHash attemptHash
  let message ← canon (.obj body)
  let receipt ← receiptOf service body
  return body ++ [("signature", .str (hex (service.ed.sign secret message))),
    ("ur1_receipt", .str receipt)]

/-- The row that `submit` inserts for a certificate. -/
def issuedRow (service : Service F) (data : Submission F) (cert : Members F) :
    Except PyError IssuedRow := do
  let claimId ← service.column (get data.contract "claim_id")
  let version ← service.column (get data.contract "claim_version")
  let text ← canon (.obj cert)
  return ⟨claimId, version, (decode text).getD "", false⟩

/-- The insertion fails when the primary key is taken. -/
def insertIssued (db : Database) (row : IssuedRow) : Option Database :=
  if db.issued.any (fun other => other.claimId = row.claimId && other.version = row.version) then
    none
  else some { db with issued := db.issued ++ [row] }

def lastDigest (db : Database) : String := (db.events.getLast?.map EventRow.digest).getD "genesis"

def eventBody (kind : String) (payload : Json F) (prev : String) : Json F :=
  .obj [("kind", .str kind), ("payload", payload), ("prev", .str prev)]

def eventRow (sha : Sha256) (kind : String) (payload : Json F) (prev : String) :
    Except PyError EventRow := do
  let hash ← digest sha (eventBody kind payload prev)
  let text ← canon (eventBody kind payload prev)
  return ⟨(decode text).getD "", hash⟩

/-- `{"receipt": cert["ur1_receipt"]}` -/
def issuedPayload (cert : Members F) : Json F := .obj [("receipt", get cert "ur1_receipt")]

/-- The transaction of `submit`; an exception rolls it back. -/
def transaction (service : Service F) (data : Submission F) (cert : Members F) (db : Database) :
    Except BuddyError Database := do
  let row ← python (issuedRow service data cert)
  match insertIssued db row with
  | none => .error (.http 409 "certificate already issued")
  | some inserted =>
      let event ← python (eventRow service.sha "issued" (issuedPayload cert) (lastDigest inserted))
      return { inserted with events := inserted.events ++ [event] }

structure Bundle (F : Type) where
  contract : Members F
  attempt : Members F
  certification : Members F

/-- The part of `submit` after its gates. -/
def issue (service : Service F) (data : Submission F) (db : Database) :
    Except BuddyError (Bundle F × Database) :=
  match service.signer with
  | none => .error (.http 503 "durable signer and database required")
  | some secret => do
      let cert ← python (certificate service secret data)
      let after ← transaction service data cert db
      return (⟨data.contract, data.attempt, cert⟩, after)

def submit (service : Service F) (data : Submission F) (db : Database) :
    Except BuddyError (Bundle F × Database) := do
  gates service.ed service.keysJson data
  issue service data db

end Decillion.BuddyProofs
