import Decillion.JsonStrings
import Decillion.StorageEngine
import Mathlib.Data.List.Induction

/-!
The gateway stores an object and then inserts its receipt into a catalog keyed by the
digest of the object. An upload may raise or be cut off between any two operations; the
uploads of one process do not overlap, since the handler never waits in the middle of
one. Every receipt in the catalog opens to what its upload was given, at every later
point of every run.
-/
namespace Decillion.StorageGateway

open ByteText JsonValues JsonText JsonStrings JsonRoundTrip Primitives PyErrors Programs HostSystem
  HostRules StorageReceipts StorageEngine

inductive GatewayError where
  | http (status : ℕ) (detail : String)
  | storage (error : StorageError)
deriving DecidableEq

instance : PythonErrors GatewayError := ⟨fun e => .storage (.python e)⟩

/-- `except ValueError as exc` of the upload handler. -/
def unprocessable : StorageError → GatewayError
  | .python (.valueError message) => .http 422 message
  | e => .storage e

/-- The exceptions the download handler turns into answers. -/
def refused : StorageError → GatewayError
  | .authorization message => .http 403 message
  | .attestation message => .http 403 message
  | .integrity message => .http 409 message
  | e => .storage e

/-- The columns of the table: `object_id`, `owner`, `receipt_json` and `created_at`. -/
def row (receipt : Receipt) : List String :=
  [receipt.objectId, receipt.owner, dumpsSorted compact (.obj receipt.asdict), receipt.createdAt]

def receiptFields : List String :=
  ["version", "object_id", "owner", "original_name_hash", "plaintext_size", "ciphertext_size",
    "created_at", "wrapped_key", "signature"]

/-- `Receipt(**value)` for members of the declared types; the signature has a default. -/
def receiptOfDict : Json Empty → Option Receipt
  | .obj members => do
      guard (onlyFields receiptFields members)
      return {
        version := ← intField "version" members
        objectId := ← strField "object_id" members
        owner := ← strField "owner" members
        originalNameHash := ← strField "original_name_hash" members
        plaintextSize := ← intField "plaintext_size" members
        ciphertextSize := ← intField "ciphertext_size" members
        createdAt := ← strField "created_at" members
        wrappedKey := ← strField "wrapped_key" members
        signature := ← if (members.lookup "signature").isNone then some "" else
          strField "signature" members }
  | _ => none

/-- `Receipt(**json.loads(row[0]))` -/
def readRow (columns : List String) : Except PyError Receipt :=
  match loads (columns.getD 2 "") with
  | none => .error (.valueError "")
  | some value =>
      match receiptOfDict value with
      | none => .error .typeError
      | some receipt => .ok receipt

/-- `ReceiptCatalog.get` -/
def getReceipt (rows : List (List String)) (objectId : String) :
    Except PyError (Option Receipt) :=
  match rows.find? (fun columns => columns.head? = some objectId) with
  | none => .ok none
  | some columns => (readRow columns).map some

/-- An upload as the handler receives it. -/
structure UploadCall where
  owner : String
  filename : Option String
  content : Bytes

/-- `file.filename or "unnamed"` -/
def UploadCall.name (call : UploadCall) : String :=
  if call.filename.getD "" = "" then "unnamed" else call.filename.getD ""

variable {F : Type} (crypto : Crypto) (engine : SovereignStorage)

/-- `POST /v1/objects` -/
def postObject (call : UploadCall) : Act F GatewayError Receipt := do
  let stored ← mapError unprocessable (upload crypto engine call.owner call.name call.content)
  insertRow (row stored)
  return stored

/-- `GET /v1/objects/{object_id}` -/
def fetchObject (s : Host) (objectId owner filename : String) (attestation : Option String) :
    Except GatewayError Bytes :=
  match getReceipt s.rows objectId with
  | .error e => .error (.storage (.python e))
  | .ok none => .error (.http 404 "object not found")
  | .ok (some receipt) =>
      (download crypto engine s.files receipt owner filename attestation).mapError refused

variable (env : Env F)

/-- One upload, cut off after a number of operations. -/
def runCall (c : UploadCall × ℕ) (s : Host) : Option (Except GatewayError Receipt) × Host :=
  run (handle env) c.2 (postObject crypto engine c.1) s

def runCalls (s : Host) (calls : List (UploadCall × ℕ)) : Host :=
  calls.foldl (fun s c => (runCall crypto engine env c s).2) s

variable {crypto engine env}

theorem readRow_row (receipt : Receipt) : readRow (row receipt) = .ok receipt := by
  have hloads : loads (dumpsSorted compact (.obj receipt.asdict : Json Empty)) =
      some (sortKeys (.obj receipt.asdict)) := by
    have htext := loads_dumps compact (sortKeys (.obj receipt.asdict))
      (sortKeys_distinctKeys _ (distinctKeys_asdict receipt)) [] rfl
    rw [List.append_nil] at htext
    exact htext
  have hdict : receiptOfDict (sortKeys (.obj receipt.asdict)) = some receipt := by
    rw [sortKeys_asdict]
    rfl
  simp [readRow, row, hloads, hdict]

theorem getReceipt_fresh (rows : List (List String)) (objectId : String)
    (hfresh : ∀ other ∈ rows, other.head? ≠ some objectId) :
    getReceipt rows objectId = .ok none := by
  have hnone : rows.find? (fun columns => columns.head? = some objectId) = none := by
    simpa [List.find?_eq_none] using hfresh
  rw [getReceipt, hnone]

theorem getReceipt_ne_none (rows : List (List String)) (receipt : Receipt)
    (h : row receipt ∈ rows) : getReceipt rows receipt.objectId ≠ .ok none := by
  have hfound : (rows.find?
      (fun columns => columns.head? = some receipt.objectId)).isSome = true :=
    List.find?_isSome.mpr ⟨row receipt, h, by simp [row]⟩
  obtain ⟨columns, hcolumns⟩ := Option.isSome_iff_exists.mp hfound
  rw [getReceipt, hcolumns]
  cases hread : readRow columns with
  | error e => simp [hread, Except.map]
  | ok found => simp [hread, Except.map]

theorem getReceipt_append (rows : List (List String)) (receipt : Receipt) (objectId : String)
    (hfresh : ∀ other ∈ rows, other.head? ≠ some receipt.objectId) :
    getReceipt (rows ++ [row receipt]) objectId =
      if objectId = receipt.objectId then .ok (some receipt) else getReceipt rows objectId := by
  by_cases hid : objectId = receipt.objectId
  · subst hid
    have hnone : rows.find? (fun columns => columns.head? = some receipt.objectId) = none := by
      simpa [List.find?_eq_none] using hfresh
    have hhead : (row receipt).head? = some receipt.objectId := rfl
    rw [if_pos rfl, getReceipt, List.find?_append, hnone]
    simp [hhead, readRow_row, Except.map]
  · have hlast : [row receipt].find? (fun columns => columns.head? = some objectId) = none := by
      simp [row, Ne.symm hid]
    rw [if_neg hid, getReceipt, List.find?_append, hlast, Option.or_none, ← getReceipt]

/-- A call has stored its object and then inserted the receipt of the object. -/
def Posted (crypto : Crypto) (engine : SovereignStorage) (call : UploadCall) (s s' : Host)
    (receipt : Receipt) (payload : Bytes) : Prop :=
  Uploaded crypto engine call.owner call.name call.content receipt payload ∧
    (∀ other ∈ s.rows, other.head? ≠ some receipt.objectId) ∧
    ∃ s₁, Replaced s s₁ (objectPath engine.root receipt.objectId) payload ∧
      s'.files = s₁.files ∧ s'.rows = s.rows ++ [row receipt]

theorem holds_postObject (call : UploadCall) (s : Host) :
    Holds (handle env)
      (fun s' => Stored crypto.sha engine.root s s')
      (fun result s' => match result with
        | .ok receipt => ∃ payload, Posted crypto engine call s s' receipt payload
        | .error _ => Stored crypto.sha engine.root s s')
      (postObject crypto engine call) s := by
  apply holds_then
  apply holds_mapError
  apply holds_upload
  · exact fun _ h => h
  · exact fun _ _ h => Or.inl h
  · intro receipt payload s₁ hreplaced huploaded
    have hstored : ∀ s', Unchanged s₁ s' → Stored crypto.sha engine.root s s' := by
      rw [huploaded.objectId] at hreplaced
      exact fun s' h => Or.inr ⟨payload,
        hreplaced.unchanged (isTemporary_objectPath crypto.sha engine.root payload) h⟩
    apply holds_then
    apply holds_insertRow _ _ (hstored s₁ (.rfl s₁))
    · exact fun e => hstored _ (unchanged_next s₁)
    · intro hfresh
      apply holds_pure
      have hrows := hreplaced.2.2.1
      rw [hrows] at hfresh
      exact ⟨payload, huploaded, hfresh, s₁, hreplaced, rfl, by rw [hrows]⟩

variable (crypto engine env) in
/-- A call that has not inserted a receipt has stored at most an object. -/
theorem runCall_cases (c : UploadCall × ℕ) (s : Host) :
    Stored crypto.sha engine.root s (runCall crypto engine env c s).2 ∨
      ∃ receipt payload, Posted crypto engine c.1 s (runCall crypto engine env c s).2 receipt
        payload := by
  rcases run_holds _ _ s c.2 (holds_postObject c.1 s) with ⟨result, -, hpost⟩ | ⟨-, hcut⟩
  · cases result with
    | ok receipt => exact Or.inr ⟨receipt, hpost⟩
    | error e => exact Or.inl hpost
  · exact Or.inl hcut

variable (crypto engine env) in
theorem runCall_files (c : UploadCall × ℕ) (s : Host) :
    ∃ payload, ∀ path, isTemporary path = false →
      (runCall crypto engine env c s).2.files path = s.files path ∨
      (path = objectPath engine.root (crypto.sha.hexdigest payload) ∧
        (runCall crypto engine env c s).2.files path = some payload) := by
  have hreplaced : ∀ s' payload,
      Replaced s s' (objectPath engine.root (crypto.sha.hexdigest payload)) payload →
      ∀ path, isTemporary path = false → s'.files path = s.files path ∨
        (path = objectPath engine.root (crypto.sha.hexdigest payload) ∧
          s'.files path = some payload) := by
    intro s' payload h path hpath
    by_cases htarget : path = objectPath engine.root (crypto.sha.hexdigest payload)
    · exact Or.inr ⟨htarget, by rw [htarget]; exact h.1⟩
    · exact Or.inl (h.2.1 path hpath htarget)
  rcases runCall_cases crypto engine env c s with
    (h | ⟨payload, h⟩) | ⟨receipt, payload, huploaded, -, s₁, h, hfiles, -⟩
  · exact ⟨[], fun path hpath => Or.inl (h.1 path hpath)⟩
  · exact ⟨payload, hreplaced _ payload h⟩
  · rw [huploaded.objectId] at h
    rw [hfiles]
    exact ⟨payload, hreplaced s₁ payload h⟩

variable (crypto engine env)

/-- The contents of the files of the store that a run has at some point. -/
def storeContents (start : Host) (calls : List (UploadCall × ℕ)) : Set Bytes :=
  {payload | ∃ prior path, prior <+: calls ∧ engine.root <+: path ∧ isTemporary path = false ∧
    (runCalls crypto engine env start prior).files path = some payload}

theorem runCalls_append (start : Host) (calls : List (UploadCall × ℕ)) (c : UploadCall × ℕ) :
    runCalls crypto engine env start (calls ++ [c]) =
      (runCall crypto engine env c (runCalls crypto engine env start calls)).2 := by
  simp [runCalls]

theorem runCalls_singleton (start : Host) (c : UploadCall × ℕ) :
    runCalls crypto engine env start [c] = (runCall crypto engine env c start).2 := rfl

theorem storeContents_mono (start : Host) {calls calls' : List (UploadCall × ℕ)}
    (h : calls <+: calls') : storeContents crypto engine env start calls ⊆
      storeContents crypto engine env start calls' := by
  rintro payload ⟨prior, path, hprior, hrest⟩
  exact ⟨prior, path, hprior.trans h, hrest⟩

theorem mem_storeContents (start : Host) (calls : List (UploadCall × ℕ)) (message payload : Bytes)
    (h : (runCalls crypto engine env start calls).files
      (objectPath engine.root (crypto.sha.hexdigest message)) = some payload) :
    payload ∈ storeContents crypto engine env start calls :=
  ⟨calls, _, List.prefix_rfl, List.prefix_append _ _,
    isTemporary_objectPath crypto.sha engine.root message, h⟩

/-- An object is kept by the next call, since a new one of its digest has its content. -/
theorem object_kept (start : Host) (calls : List (UploadCall × ℕ)) (c : UploadCall × ℕ)
    (hcollision : crypto.sha.NoCollision (storeContents crypto engine env start (calls ++ [c])))
    (payload : Bytes) (h : (runCalls crypto engine env start calls).files
      (objectPath engine.root (crypto.sha.hexdigest payload)) = some payload) :
    (runCalls crypto engine env start (calls ++ [c])).files
      (objectPath engine.root (crypto.sha.hexdigest payload)) = some payload := by
  obtain ⟨other, hother⟩ := runCall_files crypto engine env c
    (runCalls crypto engine env start calls)
  rcases hother _ (isTemporary_objectPath crypto.sha engine.root payload) with hsame | ⟨hpath, hnew⟩
  · rw [runCalls_append, hsame, h]
  · have hold := storeContents_mono crypto engine env start (List.prefix_append calls [c])
      (mem_storeContents crypto engine env start calls payload payload h)
    rw [← runCalls_append] at hnew
    have heq := hcollision.eq_of_hexdigest hold
      (mem_storeContents crypto engine env start _ payload other hnew)
      (objectPath_injective engine.root _ _ hpath)
    rw [hnew, heq]

/-- The upload of a run that a receipt in the catalog comes from, with its object in place. -/
def Delivered (start : Host) (calls : List (UploadCall × ℕ)) (objectId : String)
    (receipt : Receipt) : Prop :=
  ∃ before c after payload, calls = before ++ c :: after ∧
    getReceipt (runCalls crypto engine env start before).rows objectId = .ok none ∧
    getReceipt (runCalls crypto engine env start (before ++ [c])).rows objectId =
      .ok (some receipt) ∧
    Uploaded crypto engine c.1.owner c.1.name c.1.content receipt payload ∧
    objectId = crypto.sha.hexdigest payload ∧
    (runCalls crypto engine env start calls).files (objectPath engine.root objectId) = some payload

theorem delivered_append (start : Host) (calls : List (UploadCall × ℕ)) (c : UploadCall × ℕ)
    (hcollision : crypto.sha.NoCollision (storeContents crypto engine env start (calls ++ [c])))
    (objectId : String) (receipt : Receipt)
    (h : Delivered crypto engine env start calls objectId receipt) :
    Delivered crypto engine env start (calls ++ [c]) objectId receipt := by
  obtain ⟨before, c', after, payload, hcalls, hnone, hsome, huploaded, hid, hfile⟩ := h
  refine ⟨before, c', after ++ [c], payload, ?_, hnone, hsome, huploaded, hid, ?_⟩
  · rw [hcalls, List.append_assoc, List.cons_append]
  · rw [hid] at hfile ⊢
    exact object_kept crypto engine env start calls c hcollision payload hfile

/-- After every run an identifier has no receipt, or one that an upload of the run inserted. -/
theorem catalog_delivered (start : Host) (hrows : start.rows = []) (calls : List (UploadCall × ℕ))
    (hcollision : crypto.sha.NoCollision (storeContents crypto engine env start calls))
    (objectId : String) :
    getReceipt (runCalls crypto engine env start calls).rows objectId = .ok none ∨
      ∃ receipt, getReceipt (runCalls crypto engine env start calls).rows objectId =
        .ok (some receipt) ∧ Delivered crypto engine env start calls objectId receipt := by
  induction calls using List.reverseRecOn with
  | nil => exact Or.inl (getReceipt_fresh _ _ (by simp [runCalls, hrows]))
  | append_singleton calls c ih =>
    have hprior := ih (hcollision.mono
      (storeContents_mono crypto engine env start (List.prefix_append calls [c])))
    rcases runCall_cases crypto engine env c (runCalls crypto engine env start calls) with
      hstored | ⟨receipt, payload, huploaded, hfresh, s₁, hreplaced, hfiles, hrows'⟩
    · have hrows' : (runCalls crypto engine env start (calls ++ [c])).rows =
          (runCalls crypto engine env start calls).rows := by
        rw [runCalls_append]
        rcases hstored with h | ⟨payload, h⟩
        · exact h.2.1
        · exact h.2.2.1
      rw [hrows']
      exact hprior.imp id (fun ⟨receipt, hget, h⟩ =>
        ⟨receipt, hget, delivered_append crypto engine env start calls c hcollision _ _ h⟩)
    · rw [← runCalls_append] at hfiles hrows'
      have hget := getReceipt_append _ receipt objectId hfresh
      rw [← hrows'] at hget
      by_cases hid : objectId = receipt.objectId
      · rw [if_pos hid] at hget
        refine Or.inr ⟨receipt, hget, calls, c, [], payload, rfl, ?_, hget, huploaded, ?_, ?_⟩
        · rw [hid]
          exact getReceipt_fresh _ _ hfresh
        · rw [hid, huploaded.objectId]
        · rw [hfiles, hid]
          exact hreplaced.1
      · rw [if_neg hid] at hget
        rw [hget]
        exact hprior.imp id (fun ⟨receipt, hget, h⟩ =>
          ⟨receipt, hget, delivered_append crypto engine env start calls c hcollision _ _ h⟩)

theorem rows_eq_row (start : Host) (hrows : start.rows = []) (calls : List (UploadCall × ℕ)) :
    ∀ columns ∈ (runCalls crypto engine env start calls).rows,
      ∃ receipt, columns = row receipt := by
  induction calls using List.reverseRecOn with
  | nil => simp [runCalls, hrows]
  | append_singleton calls c ih =>
    rw [runCalls_append]
    rcases runCall_cases crypto engine env c (runCalls crypto engine env start calls) with
      (h | ⟨payload, h⟩) | ⟨receipt, payload, -, -, s₁, -, -, h⟩
    · rw [h.2.1]
      exact ih
    · rw [h.2.2.1]
      exact ih
    · rw [h]
      intro columns hcolumns
      rcases List.mem_append.mp hcolumns with hold | hnew
      · exact ih columns hold
      · exact ⟨receipt, List.mem_singleton.mp hnew⟩

theorem object_later (start : Host) (calls later : List (UploadCall × ℕ))
    (hcollision : crypto.sha.NoCollision (storeContents crypto engine env start (calls ++ later)))
    (payload : Bytes) (h : (runCalls crypto engine env start calls).files
      (objectPath engine.root (crypto.sha.hexdigest payload)) = some payload) :
    (runCalls crypto engine env start (calls ++ later)).files
      (objectPath engine.root (crypto.sha.hexdigest payload)) = some payload := by
  induction later using List.reverseRecOn with
  | nil => rwa [List.append_nil]
  | append_singleton later c ih =>
    rw [← List.append_assoc] at hcollision ⊢
    exact object_kept crypto engine env start _ c hcollision payload (ih (hcollision.mono
      (storeContents_mono crypto engine env start (List.prefix_append _ [c]))))

/-- Every receipt the catalog returns after a run is the one an upload of the run inserted, and
from then on a download with the owner and the name of that upload returns its content. Every
row of the catalog has its object in the store. -/
theorem catalog_downloadable (start : Host) (hrows : start.rows = [])
    (calls later : List (UploadCall × ℕ))
    (hcollision : crypto.sha.NoCollision (storeContents crypto engine env start (calls ++ later))) :
    (∀ objectId receipt,
      getReceipt (runCalls crypto engine env start calls).rows objectId = .ok (some receipt) →
      ∃ before c after, calls = before ++ c :: after ∧
        getReceipt (runCalls crypto engine env start before).rows objectId = .ok none ∧
        getReceipt (runCalls crypto engine env start (before ++ [c])).rows objectId =
          .ok (some receipt) ∧
        ∀ attestation, (engine.keys.requireAttestation = true → given attestation) →
          fetchObject crypto engine (runCalls crypto engine env start calls) objectId c.1.owner
            c.1.name attestation = .ok c.1.content ∧
          download crypto engine (runCalls crypto engine env start (calls ++ later)).files receipt
            c.1.owner c.1.name attestation = .ok c.1.content) ∧
    (∀ columns ∈ (runCalls crypto engine env start calls).rows, ∃ objectId receipt,
      columns.head? = some objectId ∧
      getReceipt (runCalls crypto engine env start calls).rows objectId = .ok (some receipt) ∧
      ((runCalls crypto engine env start calls).files
        (objectPath engine.root receipt.objectId)).isSome) := by
  have hcalls := hcollision.mono
    (storeContents_mono crypto engine env start (List.prefix_append calls later))
  have hcatalog := catalog_delivered crypto engine env start hrows calls hcalls
  refine ⟨?_, ?_⟩
  · intro objectId receipt hget
    rcases hcatalog objectId with hnone | ⟨found, hfound, hdelivered⟩
    · rw [hget] at hnone
      simp at hnone
    obtain rfl : receipt = found := by
      rw [hget] at hfound
      simpa using hfound
    obtain ⟨before, c, after, payload, hsplit, hnone, hsome, huploaded, hid, hfile⟩ := hdelivered
    refine ⟨before, c, after, hsplit, hnone, hsome, fun attestation hgiven => ?_⟩
    have hopened : ∀ files : Path → Option Bytes,
        files (objectPath engine.root receipt.objectId) = some payload →
        download crypto engine files receipt c.1.owner c.1.name attestation = .ok c.1.content := by
      intro files hpayload
      rw [download_enveloped huploaded.toEnveloped files hpayload huploaded.verified attestation]
      exact if_neg (fun hrefused => hrefused.2 (hgiven hrefused.1))
    rw [hid, ← huploaded.objectId] at hfile
    constructor
    · rw [fetchObject, hget]
      exact congrArg (Except.mapError refused) (hopened _ hfile)
    · apply hopened
      rw [huploaded.objectId] at hfile ⊢
      exact object_later crypto engine env start calls later hcollision payload hfile
  · intro columns hcolumns
    obtain ⟨receipt, rfl⟩ := rows_eq_row crypto engine env start hrows calls columns hcolumns
    rcases hcatalog receipt.objectId with hnone | ⟨found, hfound, hdelivered⟩
    · exact absurd hnone (getReceipt_ne_none _ receipt hcolumns)
    · obtain ⟨before, c, after, payload, -, -, -, huploaded, hid, hfile⟩ := hdelivered
      refine ⟨receipt.objectId, found, rfl, hfound, ?_⟩
      rw [huploaded.objectId, ← hid, hfile]
      rfl

def sampleEnv : Env WholeFloat :=
  Env.sample (fun _ => false) (fun tick => ⟨tick⟩) (fun _ => none)

def sampleUpload : UploadCall × ℕ := (⟨"ann", none, [1, 2, 3]⟩, 100)

def sampleRun : Host :=
  runCalls Crypto.sample SovereignStorage.sample sampleEnv Host.empty [sampleUpload]

theorem noCollision_sampleUpload : Crypto.sample.sha.NoCollision
    (storeContents Crypto.sample SovereignStorage.sample sampleEnv Host.empty [sampleUpload]) := by
  obtain ⟨payload, hpayload⟩ :=
    runCall_files Crypto.sample SovereignStorage.sample sampleEnv sampleUpload
    Host.empty
  suffices h : ∀ content ∈ storeContents Crypto.sample SovereignStorage.sample sampleEnv Host.empty
      [sampleUpload], content = payload from
    fun a ha b hb _ => (h a ha).trans (h b hb).symm
  rintro content ⟨prior, path, hprior, -, hpath, hcontent⟩
  rcases List.prefix_cons_iff.mp hprior with rfl | ⟨rest, rfl, hrest⟩
  · simp [runCalls, Host.empty] at hcontent
  · obtain rfl := List.prefix_nil.mp hrest
    rw [runCalls_singleton] at hcontent
    rcases hpayload path hpath with hold | ⟨-, hnew⟩
    · rw [hcontent] at hold
      simp [Host.empty] at hold
    · rw [hcontent] at hnew
      exact Option.some.inj hnew

/-- `catalog_downloadable` for an upload without a file name. -/
theorem catalog_downloadable_sample : ∃ objectId receipt,
    getReceipt sampleRun.rows objectId = .ok (some receipt) ∧
      fetchObject Crypto.sample SovereignStorage.sample sampleRun objectId "ann" "unnamed"
        (some "tee") =
        .ok [1, 2, 3] := by
  have hcatalog :=
    catalog_downloadable Crypto.sample SovereignStorage.sample sampleEnv Host.empty rfl
    [sampleUpload] [] noCollision_sampleUpload
  have hrows : 0 < sampleRun.rows.length := by decide +kernel
  obtain ⟨columns, hcolumns⟩ := List.exists_mem_of_length_pos hrows
  obtain ⟨objectId, receipt, -, hget, -⟩ := hcatalog.2 columns hcolumns
  obtain ⟨before, c, after, hsplit, -, -, hdownload⟩ := hcatalog.1 objectId receipt hget
  obtain rfl : c = sampleUpload := by
    apply List.mem_singleton.mp
    rw [hsplit]
    exact List.mem_append_right before (List.mem_cons_self ..)
  exact ⟨objectId, receipt, hget, (hdownload (some "tee") (fun _ => by decide)).1⟩

end Decillion.StorageGateway
