import Decillion.CheckedActs
import Decillion.VaultExecutions

/-!
What the calls of a vault look for before they write it. A constructor looks for the
configuration and `add_file` for the manifest, and a call that has found none replaces the file
once, without looking again. No other file is looked for and replaced by the same path.
-/
namespace Decillion.VaultChecks

open ByteText Blocks JsonText Primitives PyErrors Programs HostSystem HostRules
  Interleavings CheckedActs
open ShardManifests ShardVault VaultRuns VaultWrites VaultProcesses VaultExecutions

/-- A file is looked for, and replaced if it is not there. -/
def lookFirst (F : Type) (path : Path) : Guard SysOp (Resp F) where
  looks op := op = .pathExists path
  acts op := ∃ source, op = .replace source path
  passes op resp :=
    match op, resp with
    | .pathExists _, answer => answer = .ok false
    | _, _ => True

variable {F α β : Type} {path : Path}

/-- The operation neither looks for a file by `Path.exists` nor replaces one. -/
def Neutral : SysOp → Prop
  | .pathExists _ => False
  | .replace _ _ => False
  | _ => True

theorem apart_of_neutral {op : SysOp} (h : Neutral op) : (lookFirst F path).Apart op := by
  constructor
  · rintro rfl
    exact h
  · rintro ⟨source, rfl⟩
    exact h

theorem idle_of_apart {g : Guard SysOp (Resp F)} {p : Prog SysOp (Resp F) α}
    (h : Only g.Apart p) : Only g.Idle p := only_mono h (fun _ hop => hop.2)

/-- A call that goes on only if the file is not there. -/
theorem careful_pathExists (f : Bool → Act F PyError β)
    (hfound : Only (lookFirst F path).Idle (f true))
    (habsent : (lookFirst F path).Careful (f false)) :
    (lookFirst F path).Careful (pathExists path >>= f : Act F PyError β) := by
  rintro (e | _ | _)
  · exact ⟨trivial, fun _ hpending => hpending⟩
  · refine ⟨habsent, ?_⟩
    rintro (⟨source, hact⟩ | ⟨-, hpasses⟩)
    · cases hact
    · exact absurd rfl hpasses
  · exact ⟨Guard.careful_of_only hfound, fun _ => Guard.not_pending_of_only hfound⟩

theorem not_pending_pathExists (f : Bool → Act F PyError β) :
    ¬ (lookFirst F path).Pending (pathExists path >>= f : Act F PyError β) := by
  rintro (⟨source, hact⟩ | ⟨hlooks, -⟩)
  · cases hact
  · exact hlooks rfl

/-- A look at a file that is there does not let a call act. -/
theorem not_passes_of_there (env : Env F) {s : Host} (hthere : s.files path ≠ none) (op : SysOp)
    (hlooks : (lookFirst F path).looks op) :
    ¬ (lookFirst F path).passes op (handle env s op).1 := by
  obtain rfl : op = .pathExists path := hlooks
  obtain ⟨content, hfile⟩ := Option.ne_none_iff_exists'.mp hthere
  intro hpasses
  change (if env.fault s.tick then Except.error PyError.osError
    else Except.ok (s.files path).isSome) = .ok false at hpasses
  rw [hfile] at hpasses
  split at hpasses <;> cases hpasses

section Files

variable (start : String) (value : Bytes)

theorem apart_mkstemp (dir : Path) :
    Only (lookFirst F path).Apart (mkstemp dir start : Act F PyError Path) :=
  only_orRaise _ (only_perform (apart_of_neutral trivial))

theorem apart_writeTemp (temporary : Path) :
    Only (lookFirst F path).Apart (writeTemp temporary value : Act F PyError Unit) :=
  only_orRaise _ (only_perform (apart_of_neutral trivial))

theorem apart_chmod (temporary : Path) :
    Only (lookFirst F path).Apart (chmod temporary : Act F PyError Unit) :=
  only_orRaise _ (only_perform (apart_of_neutral trivial))

theorem apart_removeTemporary (temporary : Path) :
    Only (lookFirst F path).Apart (removeTemporary temporary : Act F PyError Unit) := by
  apply only_then
  · exact only_perform (apart_of_neutral trivial)
  intro found
  cases found with
  | true => exact only_orRaise _ (only_perform (apart_of_neutral trivial))
  | false => trivial

theorem apart_replaceFile {target : Path} (h : target ≠ path) :
    Only (lookFirst F path).Apart (replaceFile start target value : Act F PyError Unit) := by
  apply only_then _ _ (apart_mkstemp start _)
  intro temporary
  apply only_bind
  · apply only_then _ _ (apart_writeTemp value temporary)
    intro _
    apply only_then _ _ (apart_chmod temporary)
    intro _
    refine only_orRaise _ (only_perform ⟨fun hlooks => ?_, ?_⟩)
    · cases hlooks
    · rintro ⟨source, hop⟩
      exact h (SysOp.replace.inj hop).2
  · intro result
    apply only_bind _ _ (apart_removeTemporary temporary)
    intro ended
    cases ended <;> trivial

/-- A file is replaced once. -/
theorem careful_replaceFile :
    (lookFirst F path).Careful (replaceFile start path value : Act F PyError Unit) := by
  apply Guard.careful_after (apart_mkstemp start _)
  intro temporary
  apply Guard.careful_bind
  · apply Guard.careful_after (apart_writeTemp value temporary)
    intro _
    apply Guard.careful_after (apart_chmod temporary)
    intro _
    rintro (e | _)
    · exact ⟨trivial, fun _ hpending => hpending⟩
    · exact ⟨trivial, fun _ hpending => hpending⟩
  · intro result
    apply only_bind _ _ (idle_of_apart (apart_removeTemporary temporary))
    intro ended
    cases ended <;> trivial

end Files

section Calls

variable [FloatText F] (crypto : Crypto) {root : Path}

omit [FloatText F] in
theorem apart_urandom (count : ℕ) :
    Only (lookFirst F path).Apart (urandom count : Act F PyError Bytes) :=
  only_orRaise _ (only_perform (apart_of_neutral trivial))

omit [FloatText F] in
theorem apart_readBytes (file : Path) :
    Only (lookFirst F path).Apart (readBytes file : Act F PyError Bytes) :=
  only_orRaise _ (only_perform (apart_of_neutral trivial))

omit [FloatText F] in
theorem apart_pathExists {file : Path} (h : file ≠ path) :
    Only (lookFirst F path).Apart (pathExists file : Act F PyError Bool) := by
  refine only_orRaise _ (only_perform ⟨fun hlooks => h (SysOp.pathExists.inj hlooks), ?_⟩)
  rintro ⟨source, hop⟩
  cases hop

omit [FloatText F] in
theorem apart_uuid4 : Only (lookFirst F path).Apart (uuid4 : Act F PyError String) :=
  ⟨apart_of_neutral trivial, fun _ => trivial⟩

omit [FloatText F] in
theorem apart_time : Only (lookFirst F path).Apart (time : Act F PyError F) :=
  ⟨apart_of_neutral trivial, fun _ => trivial⟩

omit [FloatText F] in
theorem apart_getenv (name : String) :
    Only (lookFirst F path).Apart (getenv name : Act F PyError (Option String)) :=
  ⟨apart_of_neutral trivial, fun _ => trivial⟩

theorem apart_ensureConfig (shardSize : ℕ) (h : configPath root ≠ path) :
    Only (lookFirst F path).Apart (ensureConfig root shardSize : Act F PyError Unit) := by
  apply only_then _ _ (apart_pathExists h)
  intro found
  cases found with
  | true => exact only_then _ _ (apart_readBytes _) (fun _ => trivial)
  | false =>
    apply only_then _ _ apart_uuid4
    intro _
    apply only_then _ _ (apart_urandom 16)
    exact fun _ => apart_replaceFile _ _ h

theorem careful_ensureConfig (shardSize : ℕ) : (lookFirst F (configPath root)).Careful
    (ensureConfig root shardSize : Act F PyError Unit) := by
  apply careful_pathExists
  · exact only_then _ _ (idle_of_apart (apart_readBytes _)) (fun _ => trivial)
  · apply Guard.careful_after apart_uuid4
    intro _
    apply Guard.careful_after (apart_urandom 16)
    exact fun _ => careful_replaceFile _ _

omit [FloatText F] in
theorem apart_writeShard (blob : Bytes) (hash : String) (h : shardPath root hash ≠ path) :
    Only (lookFirst F path).Apart (writeShard root blob hash : Act F PyError Unit) := by
  apply only_then _ _ (apart_pathExists h)
  intro found
  cases found with
  | true =>
    apply only_then _ _ (apart_readBytes _)
    intro content
    change Only _ (if content ≠ blob then _ else _)
    split <;> trivial
  | false => exact apart_replaceFile _ _ h

omit [FloatText F] in
theorem apart_encryptShards (hshard : ∀ hash, shardPath root hash ≠ path) (dataKey : Bytes)
    (modelId : String) (index : ℕ) (content : List Bytes) : Only (lookFirst F path).Apart
      (encryptShards crypto root dataKey modelId index content : Act F PyError (List Shard)) := by
  have hblock : ∀ block, Only (lookFirst F path).Apart (readBlock block : Act F PyError Bytes) :=
    fun _ => only_orRaise _ (only_perform (apart_of_neutral trivial))
  induction content generalizing index with
  | nil => exact only_then _ _ (hblock []) (fun _ => trivial)
  | cons block rest ih =>
    apply only_then _ _ (hblock block)
    intro chunk
    apply only_then _ _ (apart_urandom 12)
    intro nonce
    apply only_then _ _ (apart_writeShard _ _ (hshard _))
    intro _
    exact only_then _ _ (ih (index + 1)) (fun _ => trivial)

theorem apart_wrapKey (keyId : String) (dataKey : Bytes) (h : keyPath root keyId ≠ path) :
    Only (lookFirst F path).Apart (wrapKey crypto root keyId dataKey : Act F PyError Unit) := by
  apply only_then _ _ (apart_urandom 12)
  intro nonce
  apply only_then
  · apply only_then _ _ (apart_getenv _)
    intro passphrase
    apply only_then (fromExcept (checkPassphrase passphrase)) _ trivial
    intro text
    exact only_then _ _ (apart_readBytes _) (fun _ => trivial)
  · exact fun _ => apart_replaceFile _ _ h

/-- The file that a call looks for and writes at last. -/
def target (root : Path) : VaultCall F → Path
  | .construct _ => configPath root
  | .add _ _ call => manifestPath crypto.sha root call.modelId

/-- A rule for `add_file` that names what matters: its look, its exceptions and its last step. -/
theorem addFile_rule {good : Act F PyError (ModelManifest F) → Prop} (store : VaultStore)
    (call : AddFile F) (hshard : ∀ hash, shardPath store.root hash ≠ path)
    (hkey : ∀ keyId, keyPath store.root keyId ≠ path) (hthrow : ∀ e, good (throw e))
    (hafter : ∀ {α : Type} (x : Act F PyError α) (f : α → Act F PyError (ModelManifest F)),
      Only (lookFirst F path).Apart x → (∀ a, good (f a)) → good (x >>= f))
    (hlook : ∀ f : Bool → Act F PyError (ModelManifest F), (∃ e, f true = throw e) →
      good (f false) → good (pathExists (manifestPath crypto.sha store.root call.modelId) >>= f))
    (hpublish : ∀ value manifest, good (do
      replaceFile ".write-" (manifestPath crypto.sha store.root call.modelId) value
      return manifest)) : good (addFile crypto store call) := by
  apply hafter (fromExcept (checkCall call)) _ trivial
  intro _
  apply hlook _ ⟨_, rfl⟩
  apply hafter _ _ (apart_urandom 32)
  intro dataKey
  apply hafter _ _ (apart_encryptShards crypto hshard _ _ _ _)
  intro shards
  change good (if shards.isEmpty then _ else _)
  split
  · exact hthrow _
  · apply hafter _ _ apart_uuid4
    intro id
    apply hafter _ _ apart_time
    intro createdAt
    apply hafter _ _ (apart_wrapKey crypto _ _ (hkey _))
    exact fun _ => hpublish _ _

variable {crypto} (call : VaultCall F) (hshard : ∀ hash, shardPath root hash ≠ path)
  (hkey : ∀ keyId, keyPath root keyId ≠ path)
include hshard hkey

/-- A call leaves every path alone that it does not look for itself. -/
theorem apart_program (h : target crypto root call ≠ path) :
    Only (lookFirst F path).Apart (program crypto root call) := by
  cases call with
  | construct shardSize =>
    rw [program]
    refine only_then _ _ ?_ (fun _ => trivial)
    unfold openStore
    split
    · trivial
    · exact only_then _ _ (apart_ensureConfig _ h) (fun _ => trivial)
  | add size positive add =>
    rw [program]
    refine only_then _ _ ?_ (fun _ => trivial)
    apply addFile_rule crypto ⟨root, size, positive⟩ add hshard hkey (fun _ => trivial)
    · exact fun x f hx hf => only_then x f hx hf
    · rintro f ⟨e, hf⟩ habsent
      apply only_then _ _ (apart_pathExists h)
      intro found
      cases found with
      | true =>
        rw [hf]
        trivial
      | false => exact habsent
    · exact fun value manifest => only_then _ _ (apart_replaceFile _ _ h) (fun _ => trivial)

theorem careful_program : (lookFirst F path).Careful (program crypto root call) := by
  by_cases h : target crypto root call = path
  · cases call with
    | construct shardSize =>
      rw [program]
      refine Guard.careful_then ?_ (fun _ => trivial)
      unfold openStore
      split
      · trivial
      · rw [← h]
        exact Guard.careful_then (careful_ensureConfig _) (fun _ => trivial)
    | add size positive add =>
      rw [program]
      refine Guard.careful_then ?_ (fun _ => trivial)
      apply addFile_rule crypto ⟨root, size, positive⟩ add hshard hkey (fun _ => trivial)
      · exact fun x f hx hf => Guard.careful_after hx hf
      · rintro f ⟨e, hf⟩ habsent
        rw [show manifestPath crypto.sha root add.modelId = path from h]
        exact careful_pathExists f (by rw [hf]; trivial) habsent
      · intro value manifest
        rw [show manifestPath crypto.sha root add.modelId = path from h]
        exact Guard.careful_then (careful_replaceFile _ _) (fun _ => trivial)
  · exact Guard.careful_of_only (idle_of_apart (apart_program call hshard hkey h))

/-- A call that is begun looks first. -/
theorem not_pending_program : ¬ (lookFirst F path).Pending (program crypto root call) := by
  by_cases h : target crypto root call = path
  · cases call with
    | construct shardSize =>
      rw [program]
      refine Guard.not_pending_then ?_ (fun _ => trivial)
      unfold openStore
      split
      · exact fun hpending => hpending
      · rw [← h]
        exact Guard.not_pending_then (not_pending_pathExists _) (fun _ => trivial)
    | add size positive add =>
      rw [program]
      refine Guard.not_pending_then ?_ (fun _ => trivial)
      rw [← h]
      cases hcheck : checkCall add with
      | error e =>
        rw [addFile, hcheck]
        exact fun hpending => hpending
      | ok _ =>
        rw [addFile, hcheck]
        exact not_pending_pathExists _
  · exact Guard.not_pending_of_only (idle_of_apart (apart_program call hshard hkey h))

end Calls

end Decillion.VaultChecks
