import Decillion.Interleavings
import Decillion.NonceTables
import Decillion.PyValues
import Decillion.ReceiptChains
import Decillion.VaultRuns

/-!
The read service of the vault. A request has to name the operation it was signed for, its
signature is checked, its nonce is remembered and its key looked up in the lists of the
application; an answer is written to the audit log before it is sent. The threads of the
service share the table of nonces, the files of the vault and one connection to the log, and
an operation of a program is one access to them. A statement of one thread is in the
transaction of whichever thread has begun it, and a rollback drops the rows of all threads
that are not committed yet. Calls on the vault are made as a whole by its owner.
-/
namespace Decillion.VaultService

open ByteText JsonValues JsonText JsonStrings Primitives Dictionaries PyErrors PyValues Programs
  HostSystem AccessRequests ShardManifests ShardVault VaultReads VaultRuns VaultReceipts

section Requests

/-- A data class does not look at the types of its fields. -/
structure RawRequest (F : Type) where
  requesterPubkey : Json F
  modelId : Json F
  purpose : Json F
  nonce : Json F
  timestamp : Json F
  signature : Json F

variable {F : Type}

def requestFields : List String :=
  ["requester_pubkey", "model_id", "purpose", "nonce", "timestamp", "signature"]

/-- `AccessRequest(**body)` -/
def RawRequest.ofDict (members : Members F) : Option (RawRequest F) := do
  guard (onlyFields requestFields members)
  return {
    requesterPubkey := ← members.lookup "requester_pubkey"
    modelId := ← members.lookup "model_id"
    purpose := ← members.lookup "purpose"
    nonce := ← members.lookup "nonce"
    timestamp := ← members.lookup "timestamp"
    signature := ← members.lookup "signature" }

def RawRequest.unsigned (req : RawRequest F) : Json F :=
  .obj [("requester_pubkey", req.requesterPubkey), ("model_id", req.modelId),
    ("purpose", req.purpose), ("nonce", req.nonce), ("timestamp", req.timestamp)]

/-- A request whose fields have the declared types. -/
def rawOf (req : AccessRequest F) : RawRequest F :=
  ⟨.str req.requesterPubkey, .str req.modelId, .str req.purpose, .str req.nonce,
    .float req.timestamp, .str req.signature⟩

/-- `len(value)` -/
def lengthOf : Json F → Except PyError ℕ
  | .str text => .ok text.length
  | .list items => .ok items.length
  | .obj members => .ok members.length
  | _ => .error .typeError

/-- The point in time that is subtracted from a floating-point number. -/
def instantOf [FloatTime F] [FloatConversion F] : Json F → Except PyError Instant
  | .int n => (FloatConversion.ofInt (F := F) n).elim (.error .overflowError)
      (fun x => .ok (FloatTime.instant x))
  | .bool b => .ok (.at (if b then 1 else 0))
  | .float x => .ok (FloatTime.instant x)
  | _ => .error .typeError

/-- `bytes.fromhex(value)`, `none` for a text that is refused. -/
def octetsOf : Json F → Except PyError (Option Bytes)
  | .str text => .ok (fromHex text)
  | _ => .error .typeError

variable [FloatText F]

/-- What is tried by `verify_request`; an exception of another type is raised. -/
def checkSignature (ed : Ed25519) (req : RawRequest F) : Except PyError Bool := do
  match ← octetsOf req.requesterPubkey with
  | none => return false
  | some key =>
      if key.length ≠ 32 then return false
      else match ← octetsOf req.signature with
        | none => return false
        | some signature => return ed.verify key signature (canonical req.unsigned)

variable [FloatTime F] [FloatNumber F] [FloatConversion F]

/-- `not value or ..` of the first check; the length of the nonce is looked at last. -/
def fieldsMissing (req : RawRequest F) : Except PyError Bool :=
  if truthy req.modelId = false ∨ truthy req.purpose = false then .ok true
  else (lengthOf req.nonce).map (fun length => length < 16)

/-- `verify_request` -/
def verifyRaw (ed : Ed25519) (now : ℚ) (req : RawRequest F) : Except PyError (Bool × String) := do
  if ← fieldsMissing req then return (false, "required field is missing or invalid")
  else if outOfWindow F now maxSkew (← instantOf req.timestamp) then
    return (false, "timestamp out of window")
  else if ← checkSignature ed req then return (true, "ok")
  else return (false, "bad signature")

end Requests

/-- What the service holds for its lifetime, and what it reads of its surroundings. -/
structure App (F : Type) [FloatTime F] where
  ed : Ed25519
  hmac : HmacSha256
  crypto : Crypto
  root : Path
  env : Env F
  receiptKey : Bytes
  acl : ACL
  fault : ℕ → Bool
  uuid : ℕ → String
  clock : ℕ → ℚ
  stamp : ℕ → F
  stamp_clock : ∀ tick, FloatTime.instant (stamp tick) = .at (clock tick)

/-- The files of the vault with the calls that were made on it, and what the threads share: the
table of nonces, the log as the connection sees it and as it was committed last, and how often the
connection has rolled back. -/
structure ServiceState (F : Type) where
  host : Host
  made : List (VaultCall F × ℕ)
  nonces : NonceCache
  receipts : Table F
  committed : Table F
  rollbacks : ℕ
  tick : ℕ

inductive ServiceOp (F : Type) where
  | publish (call : VaultCall F × ℕ)
  | getManifest (modelId : String)
  | readShard (manifest : ModelManifest F) (index : ℤ)
  | time
  | uuid4
  | seenSize
  | seenAlive (current : ℚ)
  | seenReplace (table : Dict (String × String) ℚ)
  | seenGet (key : String × String)
  | seenSet (key : String × String) (current : ℚ)
  | newestSig
  | execute (row : Row F)
  | commit
  | rollback

inductive ServiceError where
  | http (status : ℕ) (detail : String)
  | python (error : PyError)
  | receipt (error : ReceiptError)
  | database

def Answers (F : Type) : ServiceOp F → Type
  | .publish _ => Option (Except PyError (Option (ModelManifest F)))
  | .getManifest _ => Except PyError (Option (ModelManifest F))
  | .readShard _ _ => Except PyError Bytes
  | .time => ℚ × F
  | .uuid4 => String
  | .seenSize => ℕ
  | .seenAlive _ => Dict (String × String) ℚ
  | .seenReplace _ => Unit
  | .seenGet _ => Option ℚ
  | .seenSet _ _ => Unit
  | .newestSig => Except ServiceError (SqlValue F)
  | .execute _ => Except ServiceError Unit
  | .commit => Except ServiceError Unit
  | .rollback => Unit

variable {F : Type}

def ServiceState.next (s : ServiceState F) : ServiceState F := { s with tick := s.tick + 1 }

variable [FloatText F] [FloatTime F]

/-- A file or the database may fail at any tick. -/
def serve [DecidableEq F] (app : App F) : Handler (ServiceOp F) (Answers F) (ServiceState F)
  | s, .publish call =>
      let ended := runCall app.crypto app.root app.env call s.host
      (ended.1, { s.next with host := ended.2, made := s.made ++ [call] })
  | s, .getManifest modelId =>
      (if app.fault s.tick then .error .osError
        else getManifest F app.crypto app.root s.host.files (app.stamp s.tick) modelId, s.next)
  | s, .readShard manifest index =>
      (if app.fault s.tick then .error .osError
        else readShardPlaintext F app.crypto app.root (passphrase app.env) s.host.files manifest
          index, s.next)
  | s, .time => ((app.clock s.tick, app.stamp s.tick), s.next)
  | s, .uuid4 => (app.uuid s.tick, s.next)
  | s, .seenSize => (s.nonces.seen.size, s.next)
  | s, .seenAlive current => ((s.nonces.purge current).seen, s.next)
  | s, .seenReplace table => ((), { s.next with nonces := { s.nonces with seen := table } })
  | s, .seenGet key => (s.nonces.seen.get? key, s.next)
  | s, .seenSet key current => ((), { s.next with nonces := s.nonces.remember F key current })
  | s, .newestSig =>
      (if app.fault s.tick then .error .database else .ok s.receipts.newestSig, s.next)
  | s, .execute row =>
      if app.fault s.tick then (.error .database, s.next)
      else match s.receipts.insert row with
        | none => (.error (.receipt .integrityError), s.next)
        | some table => (.ok (), { s.next with receipts := table })
  | s, .commit =>
      if app.fault s.tick then (.error .database, s.next)
      else (.ok (), { s.next with committed := s.receipts })
  | s, .rollback =>
      ((), { s.next with receipts := s.committed, rollbacks := s.rollbacks + 1 })

abbrev Serve (F α : Type) := Action (ServiceOp F) (Answers F) ServiceError α

/-- The answer of an operation that may raise an exception. -/
def raising {α : Type} (x : Serve F (Except ServiceError α)) : Serve F α := do
  match ← x with
  | .ok a => return a
  | .error e => throw e

def readManifest (modelId : String) : Serve F (Option (ModelManifest F)) := do
  match ← perform (ServiceOp.getManifest modelId) with
  | .ok value => return value
  | .error e => throw (ServiceError.python e)

/-- The clock as a point in time. -/
def now : Serve F ℚ := do
  let time ← perform ServiceOp.time
  return time.1

/-- `len(self._seen)` -/
def seenSize : Serve F ℕ := perform ServiceOp.seenSize

def seenGet (key : String × String) : Serve F (Option ℚ) := perform (ServiceOp.seenGet key)

/-- The entries that are still alive take the place of the table. -/
def dropExpired (current : ℚ) : Serve F Unit := do
  let table ← perform (ServiceOp.seenAlive current)
  perform (ServiceOp.seenReplace table)

/-- The key under which a nonce is remembered; a list or an object is no key. -/
def nonceKey (req : RawRequest F) : Except ServiceError (String × String) :=
  match req.requesterPubkey, req.nonce with
  | .str pubkey, .str nonce => .ok (pubkey, nonce)
  | _, _ => .error (.python .typeError)

/-- A nonce that is not known at this time is remembered. -/
def rememberNew (current : ℚ) (req : RawRequest F) : Serve F Bool := do
  let key ← fromExcept (nonceKey req)
  let expiry ← seenGet key
  if current < expiry.getD 0 then return false
  else do
    let _ ← perform (ServiceOp.seenSet key current)
    return true

/-- `nonces.accept(request.requester_pubkey, request.nonce)` -/
def acceptNonce (maxEntries : ℕ) (req : RawRequest F) : Serve F Bool := do
  let current ← now
  if maxEntries ≤ (← seenSize) then do
    dropExpired current
    if maxEntries ≤ (← seenSize) then return false
    else rememberNew current req
  else rememberNew current req

/-- `acl.is_allowed(model_id, request.requester_pubkey)` -/
def allows (acl : ACL) (modelId : String) : Json F → Bool
  | .str key => acl.isAllowed modelId key
  | _ => false

variable [FloatNumber F] [FloatConversion F]

def authorize (app : App F) (req : RawRequest F) (modelId purpose : String) : Serve F Unit := do
  if equalsStr req.modelId modelId = false ∨ equalsStr req.purpose purpose = false then
    throw (.http 403 "signed request does not match this operation")
  else do
    let current ← now
    let (ok, reason) ← fromExcept ((verifyRaw app.ed current req).mapError ServiceError.python)
    if ok = false then throw (.http 403 reason)
    else if (← acceptNonce NonceCache.new.maxEntries req) = false then
      throw (.http 409 "request nonce was already used")
    else if allows app.acl modelId req.requesterPubkey = false then
      throw (.http 403 "not in ACL")
    else return ()

/-- `with self.db: ..`; an exception of the statement or of the commit is raised again. -/
def transaction (statement : Serve F (Except ServiceError Unit)) : Serve F Unit := do
  match ← statement with
  | .error e => do
      perform ServiceOp.rollback
      throw e
  | .ok () => do
      match ← perform ServiceOp.commit with
      | .error e => do
          perform ServiceOp.rollback
          throw e
      | .ok () => return ()

/-- `receipts.emit(..)` for an actor that is a text. -/
def emitReceipt (app : App F) (kind modelId : String) (actor : Json F) (payload : Json F) :
    Serve F String := do
  let receiptId ← perform ServiceOp.uuid4
  let time ← perform ServiceOp.time
  let previous ← raising (perform ServiceOp.newestSig)
  match actor with
  | .str actor =>
      match Emission.row app.hmac app.receiptKey
          ⟨receiptId, time.2, kind, modelId, actor, payload⟩ previous with
      | none => throw (.receipt .typeError)
      | some row => do
          transaction (perform (ServiceOp.execute row))
          return receiptId
  | _ => throw (.receipt .typeError)

inductive Answer (F : Type) where
  | called
  | json (value : Json F)
  | content (chunk : Bytes) (receiptId : String)

/-- `GET /manifests/{model_id}` -/
def manifest (modelId : String) : Serve F (Answer F) := do
  match ← readManifest modelId with
  | none => throw (.http 404 "not found")
  | some value => return .json value.toDict

/-- `POST /models/{model_id}/open` -/
def openModel (app : App F) (modelId : String) (body : Members F) : Serve F (Answer F) := do
  match ← readManifest modelId with
  | none => throw (.http 404 "not found")
  | some value =>
      match RawRequest.ofDict body with
      | none => throw (.http 400 "malformed access request")
      | some req => do
          authorize app req modelId "open"
          let receiptId ← emitReceipt app "vault.open" modelId req.requesterPubkey
            (.obj [("purpose", req.purpose), ("request_nonce", req.nonce)])
          return .json (.obj [("ok", .bool true), ("n_shards", .int value.nShards),
            ("merkle_root", .str value.merkleRoot), ("receipt_id", .str receiptId)])

/-- The answers to the exceptions of a read. -/
def readRefused : PyError → ServiceError
  | .indexError _ => .http 404 "shard not found"
  | _ => .http 500 "shard integrity or decryption failure"

/-- The shard for a request that has been authorised. -/
def sendShard (app : App F) (value : ModelManifest F) (req : AccessRequest F) (index : ℤ) :
    Serve F (Answer F) := do
  match ← perform (ServiceOp.readShard value index) with
  | .error e => throw (readRefused e)
  | .ok chunk => do
      let receiptId ← emitReceipt app "vault.shard_read" req.modelId (.str req.requesterPubkey)
        (.obj [("shard_index", .int index), ("bytes", .int chunk.length)])
      return .content chunk receiptId

/-- `GET /models/{model_id}/shards/{index}` -/
def shard (app : App F) (modelId : String) (index : ℤ) (pubkey nonce signature : String)
    (timestamp : F) : Serve F (Answer F) := do
  match ← readManifest modelId with
  | none => throw (.http 404 "not found")
  | some value => do
      let req := ⟨pubkey, modelId, "read:" ++ toString index, nonce, timestamp, signature⟩
      authorize app (rawOf req) modelId req.purpose
      sendShard app value req index

/-- A request to the service, or a call on the vault by its owner. -/
inductive Request (F : Type) where
  | vault (call : VaultCall F × ℕ)
  | manifest (modelId : String)
  | openModel (modelId : String) (body : Members F)
  | shard (modelId : String) (index : ℤ) (pubkey nonce signature : String) (timestamp : F)

def program (app : App F) : Request F → Serve F (Answer F)
  | .vault call => do
      let _ ← perform (ServiceOp.publish call)
      return .called
  | .manifest modelId => manifest modelId
  | .openModel modelId body => openModel app modelId body
  | .shard modelId index pubkey nonce signature timestamp =>
      shard app modelId index pubkey nonce signature timestamp

end Decillion.VaultService
