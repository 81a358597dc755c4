import Decillion.Base64Text
import Decillion.ManifestPaths
import Decillion.RaisingPrograms
import Decillion.TelepathFrames
import Decillion.TelepathSessions

/-!
A node of Telepath: how it answers the requests of its peers. A request is verified, its
nonce is remembered, and the dispatcher answers it from the vault, the access control list
and the sessions of the node. What a node reads of its surroundings (the time, random
numbers, the files of the vault) is part of the node; the number of readings is part of its
state. Exceptions leave the state as it is when they are raised.
-/
namespace Decillion.TelepathNodes

open ByteText Base64Text JsonValues JsonText Primitives Dictionaries TextFiles PyErrors PyValues
open HostSystem AccessRequests ShardVault RawManifests ManifestPaths RaisingPrograms
open TelepathMessages TelepathSessions TelepathFrames

/-- A vault with its files, the exceptions of the system where it does not look at a path, and the
texts that are nested deeper than the interpreter's stack. -/
structure Vault where
  crypto : Crypto
  root : Path
  passphrase : Option String
  files : Files
  refuse : Path → Option PyError
  deep : Bytes → Bool

def isScalar {F : Type} : Json F → Bool
  | .list _ => false
  | .obj _ => false
  | _ => true

def isFlat {F : Type} : Json F → Bool
  | .list items => items.all isScalar
  | value => isScalar value

/-- A scalar, a list of scalars, or an object of scalars and of lists of scalars. -/
def shallow {F : Type} : Json F → Bool
  | .obj members => members.all (fun m => isFlat m.2)
  | value => isFlat value

theorem isFlat_of_isScalar {F : Type} {value : Json F} (h : isScalar value = true) :
    isFlat value = true := by
  cases value <;> first | exact h | cases h

theorem shallow_setMember {F : Type} {key : String} {value : Json F} {members : Members F}
    (hvalue : isScalar value = true) (h : shallow (.obj members) = true) :
    shallow (.obj (setMember key value members)) = true := by
  simp only [shallow] at h ⊢
  induction members with
  | nil =>
    rw [setMember, List.all_cons, List.all_nil, Bool.and_true]
    exact isFlat_of_isScalar hvalue
  | cons m rest ih =>
    obtain ⟨k, v⟩ := m
    rw [List.all_cons, Bool.and_eq_true] at h
    rw [setMember]
    split
    · rw [List.all_cons, Bool.and_eq_true]
      exact ⟨isFlat_of_isScalar hvalue, h.2⟩
    · rw [List.all_cons, Bool.and_eq_true]
      exact ⟨h.1, ih h.2⟩

/-- A node; a payload that is nested deeper than the interpreter's stack is neither signed nor
copied. -/
structure Node (F : Type) [FloatTime F] where
  ed : Ed25519
  sha : Sha256
  key : Bytes
  key_length : (ed.publicKey key).length = 32
  signature_length : ∀ message, (ed.sign key message).length = 64
  name : String
  port : ℤ
  vault : Option Vault
  receipts : Option (ℕ → String → String → String → Members F → Except PyError Unit)
  clock : ℕ → ℚ
  stamp : ℕ → F
  stamp_clock : ∀ tick, FloatTime.instant (stamp tick) = .at (clock tick)
  uuid : ℕ → Bytes
  uuid_length : ∀ tick, (uuid tick).length = 16
  str : Json F → String
  repr : String → String
  deep : Json F → Bool
  deep_shallow : ∀ value, shallow value = true → deep value = false

structure NodeState (F : Type) where
  acl : Option ACL
  sessions : SessionRegistry
  nonces : NonceCache
  peers : Dict String (String × ℤ)
  peerInfo : Dict String (Json F)
  tick : ℕ

variable {F : Type}

def NodeState.next (s : NodeState F) : NodeState F := { s with tick := s.tick + 1 }

@[simp]
theorem NodeState.next_tick (s : NodeState F) : s.next.tick = s.tick + 1 := rfl

@[simp]
theorem NodeState.next_nonces (s : NodeState F) : s.next.nonces = s.nonces := rfl

@[simp]
theorem NodeState.next_sessions (s : NodeState F) : s.next.sessions = s.sessions := rfl

/-- `self.vault_acl is None or self.vault_acl.is_allowed(model_id, sender)` -/
def NodeState.allows (s : NodeState F) (modelId sender : String) : Bool :=
  s.acl.all (fun acl => acl.isAllowed modelId sender)

abbrev Serving (F : Type) := Raising PyError (NodeState F)

/-- `members.get(key, default)` -/
def field (members : Members F) (key : String) (default : Json F) : Json F :=
  (members.lookup key).getD default

/-- `payload.get(key, default)` -/
def member (payload : Json F) (key : String) (default : Json F) : Except PyError (Json F) :=
  match payload with
  | .obj members => .ok (field members key default)
  | _ => .error .attributeError

theorem member_obj {payload : Json F} {members : Members F} (h : payload = .obj members)
    (key : String) (default : Json F) :
    member payload key default = .ok (field members key default) := by
  rw [h]
  rfl

theorem member_eq_ok {payload : Json F} {key : String} {default value : Json F} :
    member payload key default = .ok value ↔
      ∃ members, payload = .obj members ∧ field members key default = value := by
  cases payload <;> simp [member]

/-- `ModelManifest.load` with the exception it raises for a text of another form. -/
def loadManifest [FloatText F] (now : F) (content : Bytes) : Except PyError (RawManifest F) :=
  match (readText content).bind loads with
  | none => .error (.valueError "")
  | some (.obj members) =>
      match RawManifest.ofDict now (.obj members) with
      | none => .error .typeError
      | some manifest => .ok manifest
  | some _ => .error .attributeError

namespace Vault

variable [FloatText F] [FloatNumber F] (vault : Vault)

/-- `get_manifest` -/
def manifestOf (now : F) (modelId : String) : Except PyError (Option (RawManifest F)) := do
  match ← look vault.files vault.refuse (manifestPath vault.crypto.sha vault.root modelId) with
  | none => return none
  | some content =>
      if vault.deep content then throw .recursionError
      let manifest ← loadManifest now content
      return if equalsStr manifest.modelId modelId then some manifest else none

/-- `read_shard_plaintext` on what `get_manifest` returns; an index is looked at first. -/
def readShard (str : Json F → String) (manifest : Option (RawManifest F)) (index : ℤ) :
    Except PyError Bytes :=
  match manifest with
  | none => if index < 0 then .error (.indexError index) else .error .attributeError
  | some manifest => (probeReadShardPlaintext vault.crypto vault.root vault.passphrase vault.files
      vault.refuse str manifest index []).1

/-- The system looks at every path, and no file is nested too deep. -/
structure Readable : Prop where
  look : ∀ path, vault.refuse path = none
  flat : ∀ path content, vault.files path = some content → vault.deep content = false

end Vault

/-- The exceptions of a read that deny the shard. -/
def deniesShard : PyError → Bool
  | .indexError _ => true
  | .runtimeError _ => true
  | .recursionError => true
  | .osError => true
  | .fileNotFound => true
  | .fileExists _ => true
  | .permissionError _ => true
  | .valueError _ => true
  | _ => false

/-- The exceptions that end a connection without a word. -/
def dropsConnection : PyError → Bool
  | .incompleteRead => true
  | .keyError => true
  | .typeError => true
  | .valueError _ => true
  | _ => false

/-- `except ValueError as exc`, with the text of the exception. -/
def catchValueError {α : Type} (x : Serving F α) : Serving F (Except String α) := fun s =>
  match x s with
  | (.ok a, s') => (.ok (.ok a), s')
  | (.error (.valueError message), s') => (.ok (.error message), s')
  | (.error e, s') => (.error e, s')

theorem catchValueError_ok {α : Type} {x : Serving F α} {s s' : NodeState F} {a : α}
    (h : x s = (.ok a, s')) : catchValueError x s = (.ok (.ok a), s') := by
  rw [catchValueError, h]

theorem catchValueError_value {α : Type} {x : Serving F α} {s s' : NodeState F}
    {message : String} (h : x s = (.error (.valueError message), s')) :
    catchValueError x s = (.ok (.error message), s') := by
  rw [catchValueError, h]

theorem catchValueError_other {α : Type} {x : Serving F α} {s s' : NodeState F} {e : PyError}
    (h : x s = (.error e, s')) (hother : ∀ message, e ≠ .valueError message) :
    catchValueError x s = (.error e, s') := by
  rw [catchValueError, h]
  cases e <;> simp_all

/-- A read whose exception denies the shard, or is raised. -/
def catchRead (result : Except PyError Bytes) : Except PyError (Option Bytes) :=
  match result with
  | .ok data => .ok (some data)
  | .error e => if deniesShard e then .ok none else .error e

namespace Node

variable [FloatText F] [FloatTime F] [FloatNumber F] [FloatConversion F] (node : Node F)

def pub : String := hex (node.ed.publicKey node.key)

/-- `time.time()` -/
def readClock : Serving F ℚ := change (fun s => (node.clock s.tick, s.next))

/-- `_receipt` -/
def receipt (kind modelId actor : String) (payload : Members F) : Serving F Unit := fun s =>
  match node.receipts with
  | none => (.ok (), s)
  | some emit => (emit s.tick kind modelId actor payload, s)

/-- `_reply` -/
def reply (kind : String) (payload : Members F) : Serving F (Message F) :=
  change (fun s => (make node.ed node.key kind (.obj payload) (hex (node.uuid s.tick))
    (node.stamp s.tick), s.next))

def capabilities : List String :=
  ["signed-tcp", "session", "shard"] ++ (if node.vault.isSome then ["vault"] else [])

/-- The payload with which a node says who it is. -/
def greeting : Members F :=
  [("name", .str node.name), ("port", .int node.port),
    ("capabilities", .list (node.capabilities.map Json.str))]

/-- `self.nonces.accept(message.sender, message.nonce)` -/
def acceptNonce (message : RawMessage F) : Serving F Bool := fun s =>
  let answer := acceptRaw s.nonces message (node.clock s.tick)
  (answer.1, { s.next with nonces := answer.2 })

/-- `self.sessions.open(..)` -/
def openRegistry (peerPub modelId purpose : String) (budget : ℤ) (ttl : F) :
    Serving F Session := do
  let now ← node.readClock
  change (fun s => ((), { s with sessions := s.sessions.gc F now }))
  match SessionRegistry.inBounds budget (FloatNumber.number ttl) with
  | none => throw (.valueError "session budget or TTL out of bounds")
  | some seconds => do
      let s ← get
      let registry ← s.sessions.makeRoom
      change (fun s =>
        let session : Session := ⟨hex (node.uuid s.tick), peerPub, modelId, purpose, budget, 0,
          node.clock s.tick, seconds⟩
        (session, { s.next with sessions := registry.put session }))

/-- The session a peer asks for; whole shards of the model are its budget unless it says. -/
def requestSession (message : Message F) (modelId : String) (nShards : Json F) :
    Serving F Session := do
  let purpose ← member message.payload "purpose" (.str "read")
  let asked ← member message.payload "budget_shards" nShards
  let budget ← toInt node.repr asked
  let lifetime ← member message.payload "ttl_s" (.int 600)
  let ttl ← toFloat node.repr lifetime
  node.openRegistry message.sender modelId (textOf node.str purpose) budget ttl

def denySession (modelId reason : String) : Serving F (Message F) :=
  node.reply "SESSION_DENY" [("model_id", .str modelId), ("reason", .str reason)]

/-- A session for a sender that may have one, and what it is told of the manifest. -/
def grantSession (message : Message F) (modelId : String) (manifest : RawManifest F) :
    Serving F (Message F) := do
  match ← catchValueError (node.requestSession message modelId manifest.nShards) with
  | .error reason => node.denySession modelId reason
  | .ok session => do
      node.receipt "telepath.session_open" modelId message.sender
        [("session_id", .str session.sessionId), ("budget", .int session.budgetShards)]
      let fileSha256 ← member manifest.metadata "file_sha256" .null
      node.reply "SESSION_ACCEPT" [("session_id", .str session.sessionId),
        ("model_id", .str modelId), ("n_shards", manifest.nShards),
        ("size_bytes", manifest.sizeBytes), ("merkle_root", manifest.merkleRoot),
        ("file_sha256", fileSha256)]

/-- `_open_session` -/
def openSession (message : Message F) : Serving F (Message F) := do
  let asked ← member message.payload "model_id" (.str "")
  let modelId := textOf node.str asked
  match node.vault with
  | none => node.denySession modelId "no vault"
  | some vault => do
      let s ← get
      match ← vault.manifestOf (node.stamp s.tick) modelId with
      | none => node.denySession modelId "not found"
      | some manifest =>
          if s.allows modelId message.sender = false then node.denySession modelId "ACL denied"
          else node.grantSession message modelId manifest

/-- `self.sessions.get(session_id)` -/
def findSession (sessionId : String) : Serving F (Option Session) := do
  let now ← node.readClock
  change (fun s =>
    ((s.sessions.gc F now).sessions.get? sessionId, { s with sessions := s.sessions.gc F now }))

/-- The session for one more shard, if it is there, is the peer's own and has one left. -/
def useSession (session : Option Session) (sender : String) : Serving F (Option Session) :=
  match session with
  | none => return none
  | some session =>
      if session.peerPub ≠ sender then return none
      else do
        let now ← node.readClock
        match session.consume F now with
        | none => return none
        | some used => change (fun s => (some used, { s with sessions := s.sessions.put used }))

def denyShard (index : ℤ) (reason : String) : Serving F (Message F) :=
  node.reply "SHARD_DENY" [("shard_idx", .int index), ("reason", .str reason)]

/-- A shard of the model of a session, once the request has been charged to it. -/
def sendShard (message : Message F) (session : Session) (index : ℤ) : Serving F (Message F) :=
  match node.vault with
  | none => throw .attributeError
  | some vault => do
      let s ← get
      let manifest ← vault.manifestOf (node.stamp s.tick) session.modelId
      match ← catchRead (vault.readShard node.str manifest index) with
      | none => node.denyShard index "shard unavailable"
      | some data => do
          node.receipt "telepath.shard_served" session.modelId message.sender
            [("shard_idx", .int index), ("bytes", .int data.length),
              ("session_id", .str session.sessionId)]
          node.reply "SHARD_DATA" [("model_id", .str session.modelId),
            ("shard_idx", .int index), ("plaintext_hash", .str (node.sha.hexdigest data)),
            ("payload_b64", .str (b64encode data))]

/-- `_serve_shard` -/
def serveShard (message : Message F) : Serving F (Message F) := do
  let asked ← member message.payload "session_id" (.str "")
  let session ← node.findSession (textOf node.str asked)
  let asked ← member message.payload "shard_idx" (.int (-1))
  let index ← toInt node.repr asked
  match ← node.useSession session message.sender with
  | none => node.denyShard index "invalid, expired, or exhausted session"
  | some session => node.sendShard message session index

def hello (peerIp : String) (message : Message F) : Serving F (Message F) := do
  let asked ← member message.payload "port" (.int 0)
  let port ← toInt node.repr asked
  if 0 < port ∧ port < 65536 then
    change (fun s => ((), { s with
      peers := s.peers.set message.sender (peerIp, port)
      peerInfo := s.peerInfo.set message.sender message.payload }))
  node.reply "HELLO" node.greeting

def receiveRam (message : Message F) : Serving F (Message F) := do
  let asked ← member message.payload "key" (.str "state")
  let key := textOf node.str asked
  let asked ← member message.payload "size_bytes" (.int 0)
  let size ← toInt node.repr asked
  node.receipt "telepath.ram_recv" "-" message.sender [("key", .str key), ("bytes", .int size)]
  node.reply "ACK" [("received", .str key)]

/-- `_dispatch` -/
def dispatch (peerIp : String) (message : Message F) : Serving F (Message F) :=
  if message.type = "HELLO" then node.hello peerIp message
  else if message.type = "SESSION_OPEN" then node.openSession message
  else if message.type = "REQUEST_SHARD" then node.serveShard message
  else if message.type = "RAM_BROADCAST" then node.receiveRam message
  else node.reply "ERROR" [("reason", .str ("unsupported message: " ++ message.type))]

/-- A message that is verified and whose nonce is accepted has a sender, a nonce and a signature
that are texts; a type that is none is unsupported. -/
def dispatchRaw (peerIp : String) (message : RawMessage F) : Serving F (Message F) :=
  match message.text? with
  | some message => node.dispatch peerIp message
  | none => node.reply "ERROR"
      [("reason", .str ("unsupported message: " ++ textOf node.str message.type))]

/-- The response names the request and is signed once more. -/
def bindReply (response : Message F) (nonce : Json F) : Message F :=
  Message.sign node.ed node.key { response with
    payload := match response.payload with
      | .obj members => .obj (setMember "request_nonce" nonce members)
      | payload => payload }

/-- A message is dispatched when it is verified and its nonce is accepted. -/
def receive (peerIp : String) (message : RawMessage F) : Serving F (Message F) := do
  let now ← node.readClock
  match ← verifyRaw node.ed now message with
  | (false, reason) => node.reply "ERROR" [("reason", .str reason)]
  | (true, _) => do
      if ← node.acceptNonce message then node.dispatchRaw peerIp message
      else node.reply "ERROR" [("reason", .str "replayed nonce")]

/-- The response to a message that has been read. -/
def respondRaw (peerIp : String) (message : RawMessage F) : Serving F (Message F) := do
  let response ← node.receive peerIp message
  return node.bindReply response message.nonce

def respond (peerIp : String) (message : Message F) : Serving F (Message F) :=
  node.respondRaw peerIp message.raw

/-- What a connection sees of the node, and the state that is left. -/
structure Handled (F : Type) where
  sent : List Bytes
  raised : Option PyError
  state : NodeState F

/-- The handlers of `_handle_connection` around what is sent. -/
def finish (result : Except PyError Bytes × NodeState F) : Handled F :=
  match result with
  | (.ok frame, s) => ⟨[frame], none, s⟩
  | (.error e, s) => ⟨[], if dropsConnection e then none else some e, s⟩

/-- What is signed, copied and sent. -/
def sendReply (response : Message F) : Except PyError Bytes :=
  if node.deep response.payload then .error .recursionError else sendFrame (toDict response)

/-- `_handle_connection` from the message on. -/
def answer (peerIp : String) (message : RawMessage F) : Serving F Bytes := do
  let response ← node.respondRaw peerIp message
  node.sendReply response

def handleRaw (peerIp : String) (message : RawMessage F) (s : NodeState F) : Handled F :=
  finish (node.answer peerIp message s)

def handleMessage (peerIp : String) (message : Message F) (s : NodeState F) : Handled F :=
  node.handleRaw peerIp message.raw s

/-- `_handle_connection` on the octets that come in. -/
def handleConnection (peerIp : String) (stream : Bytes) (s : NodeState F) : Handled F :=
  finish ((do
    let value ← recvFrame stream
    let message ← fromDict node.repr value
    node.answer peerIp message : Serving F Bytes) s)

/-- The session a request for a shard is charged to, with the readings of the clock. -/
def charged (s : NodeState F) (sender sessionId : String) : Option Session × ℕ :=
  match (s.sessions.gc F (node.clock s.tick)).sessions.get? sessionId with
  | none => (none, s.tick + 1)
  | some session =>
      if session.peerPub ≠ sender then (none, s.tick + 1)
      else (session.consume F (node.clock (s.tick + 1)), s.tick + 2)

/-- The state in which the request has been charged. -/
def chargedState (s : NodeState F) (sender sessionId : String) : NodeState F :=
  { s with
    sessions := match (node.charged s sender sessionId).1 with
      | none => s.sessions.gc F (node.clock s.tick)
      | some used => (s.sessions.gc F (node.clock s.tick)).put used
    tick := (node.charged s sender sessionId).2 }

/-- The session that is opened for a peer. -/
def opened (s : NodeState F) (peerPub modelId purpose : String) (budget : ℤ) (seconds : ℚ) :
    Session :=
  ⟨hex (node.uuid (s.tick + 1)), peerPub, modelId, purpose, budget, 0, node.clock (s.tick + 1),
    seconds⟩

/-- The state in which a verified message has been accepted. -/
def received (s : NodeState F) (message : Message F) : NodeState F :=
  { s with
    nonces := (s.nonces.accept F (message.sender, message.nonce) (node.clock (s.tick + 1))).2
    tick := s.tick + 2 }

section Runs

variable {node} {s : NodeState F} {peerPub modelId purpose : String} {budget : ℤ} {ttl : F}
  {seconds : ℚ} {message : Message F} {members : Members F} {nShards : Json F}

omit [FloatText F] [FloatNumber F] [FloatConversion F] in
theorem findSession_run (sessionId : String) : node.findSession sessionId s =
    (.ok ((s.sessions.gc F (node.clock s.tick)).sessions.get? sessionId),
      { s.next with sessions := s.sessions.gc F (node.clock s.tick) }) := rfl

omit [FloatText F] [FloatNumber F] [FloatConversion F] in
theorem useSession_run (sender sessionId : String) :
    node.useSession ((s.sessions.gc F (node.clock s.tick)).sessions.get? sessionId) sender
        { s.next with sessions := s.sessions.gc F (node.clock s.tick) } =
      (.ok (node.charged s sender sessionId).1, node.chargedState s sender sessionId) := by
  unfold chargedState charged useSession
  cases (s.sessions.gc F (node.clock s.tick)).sessions.get? sessionId with
  | none => rfl
  | some session =>
    dsimp only
    split
    · rfl
    · rw [readClock, bind_change, NodeState.next_tick]
      cases session.consume F (node.clock (s.tick + 1)) <;> rfl

omit [FloatText F] [FloatNumber F] [FloatConversion F] in
theorem charged_eq_some {sender sessionId : String} {used : Session}
    (h : (node.charged s sender sessionId).1 = some used) :
    ∃ current, s.sessions.sessions.get? sessionId = some current ∧
      (s.sessions.gc F (node.clock s.tick)).sessions.get? sessionId = some current ∧
      current.peerPub = sender ∧ current.consume F (node.clock (s.tick + 1)) = some used ∧
      (node.charged s sender sessionId).2 = s.tick + 2 := by
  unfold charged at h ⊢
  cases hfound : (s.sessions.gc F (node.clock s.tick)).sessions.get? sessionId with
  | none =>
    rw [hfound] at h
    cases h
  | some current =>
    rw [hfound] at h
    dsimp only at h ⊢
    by_cases hown : current.peerPub = sender
    · rw [if_neg (not_not.mpr hown)] at h ⊢
      exact ⟨current, (SessionRegistry.get?_gc_eq_some.mp hfound).1, rfl, hown, h, rfl⟩
    · rw [if_pos hown] at h
      cases h

omit [FloatText F] [FloatConversion F] in
theorem openRegistry_outOfBounds
    (hbounds : SessionRegistry.inBounds budget (FloatNumber.number ttl) = none) :
    node.openRegistry peerPub modelId purpose budget ttl s =
      (.error (.valueError "session budget or TTL out of bounds"),
        { s.next with sessions := s.sessions.gc F (node.clock s.tick) }) := by
  rw [openRegistry, readClock, bind_change, bind_change, hbounds]
  rfl

omit [FloatText F] [FloatConversion F] in
theorem openRegistry_full {e : PyError}
    (hbounds : SessionRegistry.inBounds budget (FloatNumber.number ttl) = some seconds)
    (hroom : (s.sessions.gc F (node.clock s.tick)).makeRoom = .error e) :
    node.openRegistry peerPub modelId purpose budget ttl s =
      (.error e, { s.next with sessions := s.sessions.gc F (node.clock s.tick) }) := by
  rw [openRegistry, readClock, bind_change, bind_change, hbounds]
  simp only [bind_get, NodeState.next_sessions, hroom, bind_lift_error]

omit [FloatText F] [FloatConversion F] in
theorem openRegistry_ok {registry : SessionRegistry}
    (hbounds : SessionRegistry.inBounds budget (FloatNumber.number ttl) = some seconds)
    (hroom : (s.sessions.gc F (node.clock s.tick)).makeRoom = .ok registry) :
    node.openRegistry peerPub modelId purpose budget ttl s =
      (.ok (node.opened s peerPub modelId purpose budget seconds),
        { s.next.next with
          sessions := registry.put (node.opened s peerPub modelId purpose budget seconds) }) := by
  rw [openRegistry, readClock, bind_change, bind_change, hbounds]
  simp only [bind_get, NodeState.next_sessions, hroom, bind_lift_ok]
  rfl

omit [FloatText F] in
theorem requestSession_budget {e : PyError} (hpayload : message.payload = .obj members)
    (hbudget : toInt node.repr (field members "budget_shards" nShards) = .error e) :
    node.requestSession message modelId nShards s = (.error e, s) := by
  simp only [requestSession, member_obj hpayload, bind_lift_ok, hbudget, bind_lift_error]

omit [FloatText F] in
theorem requestSession_ttl {e : PyError} (hpayload : message.payload = .obj members)
    (hbudget : toInt node.repr (field members "budget_shards" nShards) = .ok budget)
    (httl : toFloat node.repr (field members "ttl_s" (.int 600)) = .error e) :
    node.requestSession message modelId nShards s = (.error e, s) := by
  simp only [requestSession, member_obj hpayload, bind_lift_ok, hbudget, httl, bind_lift_error]

omit [FloatText F] in
theorem requestSession_open (hpayload : message.payload = .obj members)
    (hbudget : toInt node.repr (field members "budget_shards" nShards) = .ok budget)
    (httl : toFloat node.repr (field members "ttl_s" (.int 600)) = .ok ttl) :
    node.requestSession message modelId nShards s =
      node.openRegistry message.sender modelId
        (textOf node.str (field members "purpose" (.str "read"))) budget ttl s := by
  simp only [requestSession, member_obj hpayload, bind_lift_ok, hbudget, httl]

/-- A message that is not verified is told so. -/
theorem respond_rejected (peerIp : String) {reason : String}
    (hverify : verify node.ed (node.clock s.tick) message = (false, reason)) :
    node.respond peerIp message s =
      (node.reply "ERROR" [("reason", .str reason)] >>= fun response =>
        (return node.bindReply response (.str message.nonce) : Serving F (Message F))) s.next := by
  have hreceive : node.receive peerIp message.raw s =
      node.reply "ERROR" [("reason", .str reason)] s.next := by
    rw [receive, readClock, bind_change, verifyRaw_raw, bind_lift_ok, hverify]
  rw [respond, respondRaw, bind_ok hreceive]
  rfl

omit [FloatText F] [FloatNumber F] [FloatConversion F] in
theorem acceptNonce_next {message : RawMessage F} {result : Except PyError Bool}
    {nonces : NonceCache}
    (h : acceptRaw s.nonces message (node.clock (s.tick + 1)) = (result, nonces)) :
    node.acceptNonce message s.next =
      (result, { s with nonces := nonces, tick := s.tick + 2 }) := by
  rw [acceptNonce, NodeState.next_tick, NodeState.next_nonces, h]
  rfl

omit [FloatText F] [FloatNumber F] [FloatConversion F] in
theorem acceptNonce_run (accepted : Bool) (h : (s.nonces.accept F (message.sender, message.nonce)
      (node.clock (s.tick + 1))).1 = accepted) :
    node.acceptNonce message.raw s.next = (.ok accepted, node.received s message) := by
  apply acceptNonce_next
  rw [acceptRaw_raw, h]

theorem receive_verified (peerIp : String) {message : RawMessage F} {reason : String}
    (hverify : verifyRaw node.ed (node.clock s.tick) message = .ok (true, reason)) :
    node.receive peerIp message s = (do
      if ← node.acceptNonce message then node.dispatchRaw peerIp message
      else node.reply "ERROR" [("reason", .str "replayed nonce")] :
        Serving F (Message F)) s.next := by
  rw [receive, readClock, bind_change, hverify, bind_lift_ok]

theorem receive_raw (peerIp : String)
    (hverify : (verify node.ed (node.clock s.tick) message).1 = true) :
    node.receive peerIp message.raw s = (do
      if ← node.acceptNonce message.raw then node.dispatch peerIp message
      else node.reply "ERROR" [("reason", .str "replayed nonce")] :
        Serving F (Message F)) s.next := by
  rcases hresult : verify node.ed (node.clock s.tick) message with ⟨ok, reason⟩
  rw [hresult] at hverify
  obtain rfl : ok = true := hverify
  exact receive_verified peerIp (by rw [verifyRaw_raw, hresult])

theorem respond_replayed (peerIp : String)
    (hverify : (verify node.ed (node.clock s.tick) message).1 = true)
    (hreplayed : (s.nonces.accept F (message.sender, message.nonce)
      (node.clock (s.tick + 1))).1 = false) :
    node.respond peerIp message s =
      (node.reply "ERROR" [("reason", .str "replayed nonce")] >>= fun response =>
        (return node.bindReply response (.str message.nonce) : Serving F (Message F)))
          (node.received s message) := by
  have hreceive : node.receive peerIp message.raw s =
      node.reply "ERROR" [("reason", .str "replayed nonce")] (node.received s message) := by
    rw [receive_raw peerIp hverify, bind_ok (acceptNonce_run false hreplayed),
      if_neg Bool.false_ne_true]
  rw [respond, respondRaw, bind_ok hreceive]
  rfl

theorem respond_run (peerIp : String)
    (hverify : (verify node.ed (node.clock s.tick) message).1 = true)
    (hfresh : (s.nonces.accept F (message.sender, message.nonce)
      (node.clock (s.tick + 1))).1 = true) :
    node.respond peerIp message s =
      (node.dispatch peerIp message >>= fun response =>
        (return node.bindReply response (.str message.nonce) : Serving F (Message F)))
          (node.received s message) := by
  have hreceive : node.receive peerIp message.raw s =
      node.dispatch peerIp message (node.received s message) := by
    rw [receive_raw peerIp hverify, bind_ok (acceptNonce_run true hfresh), if_pos rfl]
  rw [respond, respondRaw]
  rcases hdispatch : node.dispatch peerIp message (node.received s message) with ⟨e | response, s'⟩
  · rw [bind_error hdispatch, bind_error (hreceive.trans hdispatch)]
  · rw [bind_ok hdispatch, bind_ok (hreceive.trans hdispatch)]
    rfl

/-- An answer that tells an error. -/
def errorReply (reason : String) (tick : ℕ) : Message F :=
  make node.ed node.key "ERROR" (.obj [("reason", .str reason)]) (hex (node.uuid tick))
    (node.stamp tick)

/-- A message whose header is not made of texts is at most remembered, and its answer tells an
error. -/
theorem receive_odd (peerIp : String) {message : RawMessage F} (h : message.text? = none) :
    ∃ nonces tick, (node.receive peerIp message s).2 = { s with nonces := nonces, tick := tick } ∧
      s.tick ≤ tick ∧ ∀ response, (node.receive peerIp message s).1 = .ok response →
        ∃ reason tick', response = node.errorReply reason tick' := by
  rw [receive, readClock, bind_change]
  dsimp only
  rcases verifyRaw node.ed (node.clock s.tick) message with e | ⟨_ | _, reason⟩
  · rw [bind_lift_error]
    exact ⟨s.nonces, s.tick + 1, rfl, Nat.le_succ _, fun response hresponse => by cases hresponse⟩
  · rw [bind_lift_ok]
    exact ⟨s.nonces, s.tick + 2, rfl, Nat.le_add_right _ 2,
      fun response hresponse => ⟨reason, s.tick + 1, (Except.ok.inj hresponse).symm⟩⟩
  · rw [bind_lift_ok]
    dsimp only
    rcases haccept : acceptRaw s.nonces message (node.clock (s.tick + 1)) with
      ⟨e | accepted, nonces⟩
    · rw [bind_error (acceptNonce_next haccept)]
      exact ⟨nonces, s.tick + 2, rfl, Nat.le_add_right _ 2,
        fun response hresponse => by cases hresponse⟩
    · rw [bind_ok (acceptNonce_next haccept), dispatchRaw, h]
      cases accepted with
      | false => exact ⟨nonces, s.tick + 3, rfl, Nat.le_add_right _ 3,
          fun response hresponse => ⟨_, s.tick + 2, (Except.ok.inj hresponse).symm⟩⟩
      | true => exact ⟨nonces, s.tick + 3, rfl, Nat.le_add_right _ 3,
          fun response hresponse => ⟨_, s.tick + 2, (Except.ok.inj hresponse).symm⟩⟩

theorem respondRaw_odd (peerIp : String) {message : RawMessage F} (h : message.text? = none) :
    ∃ nonces tick, (node.respondRaw peerIp message s).2 =
      { s with nonces := nonces, tick := tick } ∧
      s.tick ≤ tick ∧ ∀ response, (node.respondRaw peerIp message s).1 = .ok response →
        ∃ reason tick', response = node.bindReply (node.errorReply reason tick') message.nonce := by
  obtain ⟨nonces, tick, hstate, htick, hreply⟩ := @receive_odd _ _ _ _ _ node s peerIp _ h
  rw [respondRaw]
  rcases hreceive : node.receive peerIp message s with ⟨e | reply, s'⟩
  · rw [hreceive] at hstate
    rw [bind_error hreceive]
    exact ⟨nonces, tick, hstate, htick, fun response hresponse => by cases hresponse⟩
  · rw [hreceive] at hstate hreply
    rw [bind_ok hreceive]
    obtain ⟨reason, tick', rfl⟩ := hreply reply rfl
    exact ⟨nonces, tick, hstate, htick,
      fun response hresponse => ⟨reason, tick', (Except.ok.inj hresponse).symm⟩⟩

/-- What is sent leaves the state as it is. -/
theorem handleRaw_state (peerIp : String) (message : RawMessage F) (s : NodeState F) :
    (node.handleRaw peerIp message s).state = (node.respondRaw peerIp message s).2 := by
  rw [handleRaw, answer]
  rcases hrespond : node.respondRaw peerIp message s with ⟨e | response, s'⟩
  · rw [bind_error hrespond]
    rfl
  · rw [bind_ok hrespond]
    cases node.sendReply response <;> rfl

theorem handleMessage_ok {peerIp : String} {response : Message F} {s' : NodeState F}
    (h : node.respond peerIp message s = (.ok response, s')) :
    node.handleMessage peerIp message s = finish (node.sendReply response, s') := by
  have hrespond : node.respondRaw peerIp message.raw s = (.ok response, s') := h
  rw [handleMessage, handleRaw, answer, bind_ok hrespond]
  rfl

theorem handleMessage_error {peerIp : String} {e : PyError} {s' : NodeState F}
    (h : node.respond peerIp message s = (.error e, s')) :
    node.handleMessage peerIp message s = finish (.error e, s') := by
  have hrespond : node.respondRaw peerIp message.raw s = (.error e, s') := h
  rw [handleMessage, handleRaw, answer, bind_error hrespond]

theorem handleMessage_state (peerIp : String) (message : Message F) (s : NodeState F) :
    (node.handleMessage peerIp message s).state = (node.respond peerIp message s).2 :=
  handleRaw_state peerIp message.raw s

end Runs

end Node

end Decillion.TelepathNodes
