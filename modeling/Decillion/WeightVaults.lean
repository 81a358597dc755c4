import Decillion.PyValues
import Decillion.TextFiles
import Decillion.TreeSystem

/-!
The vault of model weights and the command that mirrors a model into it. Paths are relative
to the root of the vault. A snapshot is downloaded into a staging directory of its own while
a lock file is held, gets a manifest that lists its files, and becomes visible when the
staging directory is renamed. What the hub answers is data of the call.
-/
namespace Decillion.WeightVaults

open ByteText JsonValues JsonText Primitives Programs PyErrors PyValues TextFiles Trees TreeSystem

def MARKER : String := ".decillion-vault.json"

def MANIFEST : String := "decillion-manifest.json"

def FORMAT_VERSION : ℤ := 1

inductive WeightError where
  | vaultError (message : String)
  | notInitialized
  | unsafeComponent (value : String)
  | symbolicLink (path : Path)
  | integrityError (message : String)
  | python (e : PyError)
deriving DecidableEq

instance : PythonErrors WeightError := ⟨.python⟩

def isComponentChar (c : Char) : Bool := c.isAlphanum || c = '.' || c = '_' || c = '-'

/-- `_COMPONENT.fullmatch` -/
def isComponent : List Char → Bool
  | [] => false
  | c :: rest => c.isAlphanum && decide (rest.length ≤ 127) && rest.all isComponentChar

def safeComponent (value : String) : Except WeightError String :=
  if isComponent (chars value) then .ok value else .error (.unsafeComponent value)

def snapshotPath (modelId revision : String) : Except WeightError Path :=
  match (chars modelId).splitOn '/' with
  | [first, second] => do
      let organization ← safeComponent (String.ofList first)
      let name ← safeComponent (String.ofList second)
      let revision ← safeComponent revision
      return ["models", organization, name, revision]
  | _ => .error (.vaultError "model ID must use organization/name form")

variable {F : Type} [FloatText F] [FloatNumber F]

structure FileRecord where
  path : String
  size : ℕ
  sha256 : String
deriving DecidableEq

def FileRecord.toJson (record : FileRecord) : Json F :=
  .obj [("path", .str record.path), ("size", .int record.size), ("sha256", .str record.sha256)]

/-- The comparison of a record with a dictionary. -/
def sameRecord (record : FileRecord) : Json F → Bool
  | .obj members =>
      decide (members.length = 3) &&
        (members.lookup "path").any (fun value => equalsStr value record.path) &&
        (members.lookup "size").any (fun value => equalsInt value record.size) &&
        (members.lookup "sha256").any (fun value => equalsStr value record.sha256)
  | _ => false

def sameItems : List FileRecord → List (Json F) → Bool
  | [], [] => true
  | record :: records, item :: items => sameRecord record item && sameItems records items
  | _, _ => false

/-- The comparison of the records with a value that may be missing. -/
def sameRecords (records : List FileRecord) : Option (Json F) → Bool
  | some (.list items) => sameItems records items
  | _ => false

structure WeightVault (F : Type) where
  config : Members F

structure VaultStatus (F : Type) where
  vaultId : Json F
  quotaBytes : ℤ
  reserveBytes : ℤ
  usedBytes : ℕ
  freeBytes : ℕ
  modelSnapshots : ℕ

abbrev Weight (α : Type) := Act WeightError α

def raisePython {α : Type} (result : Except PyError α) : Except WeightError α :=
  result.mapError WeightError.python

variable (repr : String → String)

def configInt (vault : WeightVault F) (key : String) : Except PyError ℤ :=
  match vault.config.lookup key with
  | none => .ok 0
  | some value => toInt repr value

def openVault : Weight (WeightVault F) := do
  if !(← isFile [MARKER]) then throw .notInitialized
  match ← perform (TreeOp.readFile [MARKER]) with
  | .error _ => throw (.vaultError "vault marker is unreadable")
  | .ok content =>
      match readText content with
      | none => throw (.python (.valueError "invalid utf-8"))
      | some text =>
          match loads (F := F) text with
          | none => throw (.vaultError "vault marker is unreadable")
          | some (.obj config) =>
              if (config.lookup "format_version").any (fun value => equalsInt value FORMAT_VERSION)
              then return ⟨config⟩
              else throw (.vaultError "unsupported or missing vault format version")
          | some _ => throw (.python .attributeError)

/-- The size of a regular file; nothing else is counted. -/
def regularSize (path : Path) : Weight ℕ := do
  if ← isFile path then fileSize path else return 0

def sumSizes (dir : Path) : List Path → Weight ℕ
  | [] => return 0
  | rest :: more => do
      let here ← regularSize (dir ++ rest)
      let total ← sumSizes dir more
      return here + total

def isManifest (rest : Path) : Bool := rest.getLast? = some MANIFEST

def status (vault : WeightVault F) : Weight (VaultStatus F) := do
  let free ← diskFree
  let names ← scan ["models"]
  let used ← sumSizes ["models"] names
  let names ← scan ["models"]
  let snapshots := (names.filter isManifest).length
  match vault.config.lookup "vault_id" with
  | none => throw (.python .keyError)
  | some vaultId =>
      let quota ← fromExcept (raisePython (configInt repr vault "quota_bytes"))
      let reserve ← fromExcept (raisePython (configInt repr vault "reserve_bytes"))
      return ⟨vaultId, quota, reserve, used, free, snapshots⟩

def requireCapacity (vault : WeightVault F) (expectedBytes : ℤ) : Weight Unit := do
  if expectedBytes < 0 then throw (.vaultError "expected size must be non-negative")
  let status ← status repr vault
  if status.quotaBytes ≠ 0 ∧ status.quotaBytes < status.usedBytes + expectedBytes then
    throw (.vaultError "download would exceed vault quota")
  if (status.freeBytes : ℤ) < expectedBytes + status.reserveBytes then
    throw (.vaultError "download would violate free-space reserve")

def asPosix (path : Path) : String :=
  String.ofList (['/'].intercalate (path.map String.toList))

variable (sha : Sha256)

/-- What the inventory lists for a name; no manifest and nothing that is no regular file. -/
def inventoryEntry (dir rest : Path) : Weight (Option FileRecord) := do
  if ← isSymlink (dir ++ rest) then throw (.symbolicLink (dir ++ rest))
  if ← isFile (dir ++ rest) then
    if isManifest rest then return none
    let content ← readFile (dir ++ rest)
    let size ← fileSize (dir ++ rest)
    return some ⟨asPosix rest, size, sha.hexdigest content⟩
  else return none

def addRecord (entry : Option FileRecord) (found : List FileRecord × ℕ) : List FileRecord × ℕ :=
  match entry with
  | none => found
  | some record => (record :: found.1, record.size + found.2)

/-- The records of the names below a directory and the sum of their sizes. -/
def inventoryFrom (dir : Path) : List Path → Weight (List FileRecord × ℕ)
  | [] => return ([], 0)
  | rest :: more => do
      let entry ← inventoryEntry sha dir rest
      let found ← inventoryFrom dir more
      return addRecord entry found

def inventory (dir : Path) : Weight (List FileRecord × ℕ) := do
  let names ← scan dir
  inventoryFrom sha dir (sortPaths names)

def manifestText (manifest : Json F) : Bytes :=
  encode (dumps (indented 2) (sortKeys manifest) ++ "\n")

def atomicJson (path : Path) (value : Json F) : Weight Unit := do
  makeDirs path.dropLast
  let temporary ← mkstemp path.dropLast ".json-"
  tryFinally
    (do
      write temporary (manifestText value)
      chmod temporary
      replace temporary path)
    (do
      if ← osPathExists temporary then unlink temporary)

def manifestJson (modelId revision license createdAt : String) (files : List FileRecord)
    (total : ℕ) : Json F :=
  .obj [("format_version", .int FORMAT_VERSION), ("model_id", .str modelId),
    ("revision", .str revision), ("license", .str license), ("created_at", .str createdAt),
    ("total_bytes", .int total), ("files", .list (files.map FileRecord.toJson))]

/-- What `verify` does with the text of the manifest and the inventory of the snapshot. -/
def checkManifest (manifest : Json F) (modelId revision : String) (files : List FileRecord)
    (total : ℕ) : Except WeightError (Json F) :=
  match manifest with
  | .obj members =>
      if sameRecords files (members.lookup "files") = false ∨
          (members.lookup "total_bytes").any (fun value => equalsInt value total) = false then
        .error (.integrityError "model snapshot failed SHA-256 inventory verification")
      else if (members.lookup "model_id").any (fun value => equalsStr value modelId) = false ∨
          (members.lookup "revision").any (fun value => equalsStr value revision) = false then
        .error (.integrityError "model manifest identity does not match its path")
      else .ok manifest
  | _ => .error (.python .attributeError)

def loadManifest (content : Bytes) : Except WeightError (Json F) :=
  match readText content with
  | none => .error (.python (.valueError "invalid utf-8"))
  | some text =>
      match loads text with
      | none => .error (.integrityError "model manifest is unreadable")
      | some manifest => .ok manifest

def verify (modelId revision : String) : Weight (Json F) := do
  let target ← fromExcept (snapshotPath modelId revision)
  if !(← isFile (target ++ [MANIFEST])) then
    throw (.integrityError "model manifest is missing")
  match ← perform (TreeOp.readFile (target ++ [MANIFEST])) with
  | .error _ => throw (.integrityError "model manifest is unreadable")
  | .ok content =>
      let manifest ← fromExcept (loadManifest content)
      let (files, total) ← inventory sha target
      fromExcept (checkManifest manifest modelId revision files total)

def commitSnapshot (vault : WeightVault F) (staging : Path) (modelId revision license : String) :
    Weight (Json F) := do
  let target ← fromExcept (snapshotPath modelId revision)
  if ← pathExists target then verify sha modelId revision
  else
    let (files, total) ← inventory sha staging
    if files = [] then throw (.vaultError "refusing to commit an empty model snapshot")
    requireCapacity repr vault total
    let now ← utcNow
    let manifest := manifestJson modelId revision license now files total
    atomicJson (staging ++ [MANIFEST]) manifest
    makeDirs target.dropLast
    replace staging target
    return manifest

def slotKey (modelId revision : String) : String :=
  sha.hexdigest (encode (modelId ++ "@" ++ revision))

def lockPath (modelId revision : String) : Path :=
  [".locks", slotKey sha modelId revision ++ ".lock"]

def downloadSlot {α : Type} (modelId revision : String) (body : Path → Weight α) : Weight α := do
  match ← perform (TreeOp.createExclusive (lockPath sha modelId revision)) with
  | .error (.fileExists _) =>
      throw (.vaultError "this model revision is already being downloaded")
  | .error e => throw (.python e)
  | .ok () =>
      let staging ← mkdtemp [".staging"] (slice (slotKey sha modelId revision) 0 12 ++ "-")
      tryFinally (body staging)
        (do
          removeTree staging
          unlinkMissing (lockPath sha modelId revision))

/-- A file of the model as the hub lists it. -/
structure Sibling where
  size : Option ℤ
  lfsSize : Option ℤ

def expectedSize (siblings : List Sibling) : ℤ :=
  (siblings.map (fun sibling => (sibling.size.orElse (fun _ => sibling.lfsSize)).getD 0)).sum

/-- A call of `mirror` with the weights: what the hub has said about the model, which changes
the download makes in the staging directory and how it ends. -/
structure MirrorCall where
  modelId : String
  revision : String
  license : String
  siblings : List Sibling
  download : List (Path × Option Node)
  failure : Option PyError

structure MirrorRecord (F : Type) where
  modelId : String
  revision : String
  license : String
  destination : Path
  expectedBytes : ℤ
  verifiedBytes : Json F
  verifiedFiles : ℕ

def snapshotDownload (staging : Path) (call : MirrorCall) : Weight Unit := do
  changes call.download
  match call.failure with
  | some e => throw (.python e)
  | none => return
where
  changes : List (Path × Option Node) → Weight Unit
    | [] => return
    | (rest, value) :: more => do
        let _ ← perform (TreeOp.edit (staging ++ rest) value)
        changes more

/-- `len(value)` -/
def jsonLength : Json F → Except PyError ℕ
  | .list items => .ok items.length
  | .obj members => .ok members.length
  | .str s => .ok s.length
  | _ => .error .typeError

def mirrorRecord (call : MirrorCall) (target : Path) (manifest : Json F) :
    Except WeightError (MirrorRecord F) :=
  match manifest.get? "total_bytes", manifest.get? "files" with
  | some total, some files => do
      let count ← raisePython (jsonLength files)
      return ⟨call.modelId, call.revision, call.license, target, expectedSize call.siblings, total,
        count⟩
  | _, _ => .error (.python .keyError)

variable (F) in
def mirror (call : MirrorCall) : Weight (MirrorRecord F) := do
  let vault ← openVault (F := F)
  requireCapacity repr vault (expectedSize call.siblings)
  let target ← fromExcept (snapshotPath call.modelId call.revision)
  let manifest ← do
    if ← pathExists target then verify sha call.modelId call.revision
    else
      downloadSlot sha call.modelId call.revision (fun staging => do
        snapshotDownload staging call
        commitSnapshot repr sha vault staging call.modelId call.revision call.license)
  fromExcept (mirrorRecord call target manifest)

theorem manifest_proper : Proper MANIFEST := by decide

theorem temporary_toList (name : String) :
    (".json-" ++ name).toList = ['.', 'j', 's', 'o', 'n', '-'] ++ name.toList := by
  rw [String.toList_append]
  rfl

theorem temporary_proper {name : String} (h : '/' ∉ name.toList) : Proper (".json-" ++ name) := by
  have hne : ∀ other : String, other.toList.length < 6 → ".json-" ++ name ≠ other := by
    rintro other hlength rfl
    rw [temporary_toList, List.length_append] at hlength
    simp at hlength
  refine ⟨hne _ (by decide), hne _ (by decide), hne _ (by decide), ?_⟩
  rw [temporary_toList, List.mem_append]
  rintro (hslash | hslash)
  · exact absurd hslash (by decide)
  · exact h hslash

theorem temporary_ne_manifest (name : String) : ".json-" ++ name ≠ MANIFEST := by
  intro heq
  have hlist := congrArg String.toList heq
  rw [temporary_toList] at hlist
  have hhead : some '.' = MANIFEST.toList.head? := congrArg List.head? hlist
  exact absurd hhead (by decide)

end Decillion.WeightVaults
