import Decillion.PathJoins
import Decillion.RaisingPrograms
import Decillion.RawManifests

/-!
The files that the reading methods of the vault ask for, when anyone may have written the
manifest. The name of a shard file is made from the ciphertext hash and that of a key file
from the key id, by joining texts to a path; a text with slashes or double dots leads out
of the directory it is joined to. The methods keep to the shards and the keys exactly when
the texts of the manifest do.
-/
namespace Decillion.ManifestPaths

open ByteText JsonValues JsonText JsonStrings Primitives MerkleTrees TextFiles PyErrors PyValues
open HostSystem AccessRequests ShardManifests ShardVault VaultReads RawManifests PathJoins
open RaisingPrograms (Raising bind_ok bind_error returned_bind)

/-- A computation that reads files, with the paths that have been asked for. -/
abbrev Probing := Raising PyError (List Path)

/-- The path of a file, unless its text holds the character that ends a text of the system. -/
def named (text : String) (path : Path) : Option Path :=
  if (chars text).contains '\x00' then none else some path

def shardFile (root : Path) (ciphertextHash : String) : Option Path :=
  named ciphertextHash (locate (locate (locate (root ++ ["shards"]) (slice ciphertextHash 0 2))
    (slice ciphertextHash 2 4)) (ciphertextHash ++ ".bin"))

def keyFile (root : Path) (keyId : String) : Option Path :=
  named keyId (locate (root ++ ["keys"]) (keyId ++ ".bin"))

section Reading

variable (files : Files) (refuse : Path → Option PyError)

/-- What the system finds at a path, or the exception it raises when it may not or can not look
there. -/
def look (path : Path) : Except PyError (Option Bytes) :=
  match refuse path with
  | none => .ok (files path)
  | some e => .error e

def probe (path : Path) : Probing (Option Bytes) :=
  fun asked => (look files refuse path, asked ++ [path])

/-- `path.read_bytes()` -/
def readAt : Option Path → Probing Bytes
  | none => throw (.valueError "embedded null byte")
  | some path => do
      match ← probe files refuse path with
      | none => throw .fileNotFound
      | some value => return value

/-- The content of the file if `path.is_file()`. -/
def isFileAt : Option Path → Probing (Option Bytes)
  | none => return none
  | some path => probe files refuse path

end Reading

variable {F : Type} [FloatText F] [FloatNumber F] (crypto : Crypto) (root : Path)
  (passphrase : Option String) (files : Files) (refuse : Path → Option PyError)
  (str : Json F → String) (order : List (RawShard F) → Except PyError (List (RawShard F)))

/-- The text of a value in a formatted text. -/
def textOf : Json F → String
  | .str text => text
  | value => str value

/-- The checks before the configuration is read. -/
def checkWrapped (blob : Bytes) : Except PyError String := do
  if blob.length < 29 then throw (.runtimeError "wrapped key is truncated")
  checkPassphrase passphrase

def openKey (keyId : Json F) (blob : Bytes) (text : String) (content : Bytes) :
    Except PyError Bytes := do
  let master ← deriveKey F crypto.scrypt text content
  match keyId with
  | .str id => aesDecrypt crypto.aes master (blob.take 12) (blob.drop 12) (encode id)
  | _ => throw .attributeError

def probeUnwrapKey (keyId : Json F) : Probing Bytes := do
  let blob ← readAt files refuse (keyFile root (textOf str keyId))
  let text ← checkWrapped passphrase blob
  let content ← readAt files refuse (some (configPath root))
  openKey crypto keyId blob text content

/-- A ciphertext hash that is no text makes no path. -/
def probeDecryptShard (modelId : Json F) (shard : RawShard F) (key : Bytes) : Probing Bytes :=
  match shard.ciphertextHash with
  | .str ciphertextHash => do
      let blob ← readAt files refuse (shardFile root ciphertextHash)
      openShard crypto str modelId shard ciphertextHash key blob
  | _ => throw .typeError

/-- `stream_plaintext` until it ends or raises. -/
def probeStreamPlaintext (manifest : RawManifest F) : Probing (List Bytes) := do
  let key ← probeUnwrapKey crypto root passphrase files refuse str manifest.keyId
  let shards ← rawSorted order manifest.shards
  shards.mapM (fun shard => probeDecryptShard crypto root files refuse str
    manifest.modelId shard key)

/-- The shard that `read_shard_plaintext` picks. -/
def pickShard (manifest : RawManifest F) (index : ℤ) : Except PyError (RawShard F) :=
  if index < 0 then .error (.indexError index)
  else match intLess index manifest.nShards with
    | .error e => .error e
    | .ok false => .error (.indexError index)
    | .ok true =>
        match manifest.shards.find? (fun item => equalsInt item.index index) with
        | none => .error (.indexError index)
        | some shard => .ok shard

def probeReadShardPlaintext (manifest : RawManifest F) (index : ℤ) : Probing Bytes := do
  let shard ← pickShard manifest index
  let key ← probeUnwrapKey crypto root passphrase files refuse str manifest.keyId
  probeDecryptShard crypto root files refuse str manifest.modelId shard key

/-- `list(range(value))`; a list has less than 2 ^ 63 items, and not more than there is memory
for. -/
def range (memory : ℕ) : Json F → Except PyError (List ℤ)
  | .int n =>
      if 2 ^ 63 ≤ n then .error .overflowError
      else if memory < n then .error .memoryError
      else .ok ((List.range n.toNat).map Int.ofNat)
  | .bool b => .ok (if b then [0] else [])
  | _ => .error .typeError

omit [FloatText F] [FloatNumber F] in
theorem range_int {memory : ℕ} {n : ℤ} (hlow : n < 2 ^ 63) (hmemory : n ≤ memory) :
    range (F := F) memory (.int n) = .ok ((List.range n.toNat).map Int.ofNat) := by
  rw [range, if_neg (not_le.mpr hlow), if_neg (not_lt.mpr hmemory)]

/-- `values == numbers` -/
def equalsInts (values : List (Json F)) (numbers : List ℤ) : Bool :=
  values.length = numbers.length ∧ (values.zip numbers).all (fun p => equalsInt p.1 p.2)

/-- What `verify` finds about the shard file it has read, and the leaf it adds to the tree. -/
def checkBlob (shard : RawShard F) (ciphertextHash : String) :
    Option Bytes → List String × Option Bytes
  | none => (["shard " ++ str shard.index ++ ": missing"], none)
  | some blob =>
      let label := "shard " ++ str shard.index
      let actualHash := crypto.sha.hexdigest blob
      ((if actualHash ≠ ciphertextHash then [label ++ ": ciphertext hash mismatch"] else []) ++
        (if equalsInt shard.ciphertextBytes blob.length = false then
          [label ++ ": size mismatch"] else []) ++
        (if blob.length < 12 ∨ equalsStr shard.nonceHex (hex (blob.take 12)) = false then
          [label ++ ": nonce mismatch"] else []),
        if actualHash ≠ ciphertextHash then none else fromHex actualHash)

def probeVerifyShard (shard : RawShard F) : Probing (List String × Option Bytes) :=
  match shard.ciphertextHash with
  | .str ciphertextHash => do
      let blob ← isFileAt files refuse (shardFile root ciphertextHash)
      return checkBlob crypto str shard ciphertextHash blob
  | _ => throw .typeError

variable (memory : ℕ)

def probeVerify (manifest : RawManifest F) : Probing (Bool × List String) := do
  let expected ← range memory manifest.nShards
  let shards ← rawSorted order manifest.shards
  let found ← shards.mapM (probeVerifyShard crypto root files refuse str)
  let computed := hex (merkleRoot crypto.sha (found.filterMap Prod.snd))
  let errors :=
    (if equalsInts (shards.map RawShard.index) expected then []
      else ["shard indexes are not contiguous"]) ++
      found.flatMap Prod.fst ++
      (if equalsStr manifest.merkleRoot computed then []
        else ["merkle root mismatch: " ++ computed ++ " != " ++ textOf str manifest.merkleRoot])
  return (errors.isEmpty, errors)

section Rules

variable {α β : Type} {P : Path → Prop}

/-- All paths that a computation asks for have a property. -/
def Asks (P : Path → Prop) (x : Probing α) : Prop :=
  ∀ asked, ∃ more, (x asked).2 = asked ++ more ∧ ∀ path ∈ more, P path

/-- What a computation returns, whatever has been asked for before. -/
def Returns (x : Probing α) (result : Except PyError α) : Prop := ∀ asked, (x asked).1 = result

theorem asks_lift (result : Except PyError α) : Asks P (liftM result : Probing α) :=
  fun asked => ⟨[], (List.append_nil asked).symm, fun _ h => absurd h List.not_mem_nil⟩

theorem asks_bind {x : Probing α} {f : α → Probing β} (hx : Asks P x) (hf : ∀ a, Asks P (f a)) :
    Asks P (x >>= f) := by
  intro asked
  obtain ⟨more, hmore, hpaths⟩ := hx asked
  rcases hrun : x asked with ⟨e | a, asked'⟩
  · rw [bind_error hrun]
    rw [hrun] at hmore
    exact ⟨more, hmore, hpaths⟩
  · obtain ⟨rest, hrest, hpaths'⟩ := hf a asked'
    rw [bind_ok hrun, hrest]
    rw [hrun] at hmore
    refine ⟨more ++ rest, by rw [← List.append_assoc, ← hmore], ?_⟩
    intro path hpath
    exact (List.mem_append.mp hpath).elim (hpaths path) (hpaths' path)

theorem asks_bind_lift {result : Except PyError α} {f : α → Probing β}
    (h : ∀ a, result = .ok a → Asks P (f a)) : Asks P ((liftM result : Probing α) >>= f) := by
  cases result with
  | error e => exact asks_lift (.error e)
  | ok a => exact h a rfl

theorem asks_mapM {f : α → Probing β} (items : List α) (h : ∀ item ∈ items, Asks P (f item)) :
    Asks P (items.mapM f) := by
  induction items with
  | nil => exact asks_lift (.ok [])
  | cons item rest ih =>
    rw [List.mapM_cons]
    apply asks_bind (h item List.mem_cons_self)
    intro b
    apply asks_bind (ih (fun i hi => h i (List.mem_cons_of_mem item hi)))
    exact fun bs => asks_lift (.ok (b :: bs))

theorem asks_probe (path : Path) (h : P path) : Asks P (probe files refuse path) :=
  fun _ => ⟨[path], rfl, fun _ hmem => List.mem_singleton.mp hmem ▸ h⟩

theorem asks_readAt (path : Option Path) (h : ∀ p ∈ path, P p) :
    Asks P (readAt files refuse path) := by
  cases path with
  | none => exact asks_lift (.error _)
  | some path =>
    apply asks_bind (asks_probe files refuse path (h path rfl))
    rintro (_ | value)
    · exact asks_lift (.error _)
    · exact asks_lift (.ok value)

theorem asks_isFileAt (path : Option Path) (h : ∀ p ∈ path, P p) :
    Asks P (isFileAt files refuse path) := by
  cases path with
  | none => exact asks_lift (.ok none)
  | some path => exact asks_probe files refuse path (h path rfl)

/-- What has been asked for stays asked for. -/
theorem asked_bind {x : Probing α} {f : α → Probing β} {asked : List Path} {path : Path}
    (h : path ∈ (x asked).2) (hf : ∀ a, Asks (fun _ => True) (f a)) :
    path ∈ ((x >>= f) asked).2 := by
  rcases hrun : x asked with ⟨e | a, asked'⟩
  · rw [bind_error hrun]
    rwa [hrun] at h
  · obtain ⟨rest, hrest, -⟩ := hf a asked'
    rw [hrun] at h
    rw [bind_ok hrun, hrest]
    exact List.mem_append_left rest h

theorem asked_mapM {f : α → Probing β} (items : List α)
    (hall : ∀ item, Asks (fun _ => True) (f item))
    (hok : ∀ item ∈ items, ∃ b, Returns (f item) (.ok b)) {item : α} (hitem : item ∈ items)
    {path : Path} (hpath : ∀ asked, path ∈ (f item asked).2) (asked : List Path) :
    path ∈ (items.mapM f asked).2 := by
  have hrest : ∀ (rest : List α) (b : β),
      Asks (fun _ => True) (rest.mapM f >>= fun bs => pure (b :: bs)) := by
    intro rest b
    apply asks_bind (asks_mapM rest (fun i _ => hall i))
    exact fun bs => asks_lift (.ok (b :: bs))
  induction items generalizing asked with
  | nil => exact absurd hitem List.not_mem_nil
  | cons first rest ih =>
    rw [List.mapM_cons]
    rcases List.mem_cons.mp hitem with rfl | hmem
    · exact asked_bind (hpath asked) (hrest rest)
    · obtain ⟨b, hb⟩ := hok first List.mem_cons_self
      have hrun : f first asked = (.ok b, (f first asked).2) := Prod.ext (hb asked) rfl
      rw [bind_ok hrun]
      exact asked_bind (ih (fun i hi => hok i (List.mem_cons_of_mem first hi)) hmem _)
        (fun bs => asks_lift (.ok (b :: bs)))

theorem returns_bind {x : Probing α} {f : α → Probing β} {result : Except PyError α}
    {g : α → Except PyError β} (hx : Returns x result) (hf : ∀ a, Returns (f a) (g a)) :
    Returns (x >>= f) (result >>= g) := by
  intro asked
  have hresult := hx asked
  rcases hrun : x asked with ⟨e | a, asked'⟩
  · rw [hrun] at hresult
    rw [bind_error hrun, ← hresult]
    rfl
  · rw [hrun] at hresult
    rw [bind_ok hrun, ← hresult]
    exact hf a asked'

theorem returns_bind_ok {x : Probing α} {f : α → Probing β} {a : α} {result : Except PyError β}
    (hx : Returns x (.ok a)) (hf : Returns (f a) result) : Returns (x >>= f) result := by
  intro asked
  rw [bind_ok (Prod.ext (hx asked) rfl : x asked = (.ok a, (x asked).2))]
  exact hf _

theorem returns_mapM {f : α → Probing β} {g : α → Except PyError β} (items : List α)
    (h : ∀ item ∈ items, Returns (f item) (g item)) : Returns (items.mapM f) (items.mapM g) := by
  induction items with
  | nil => exact fun _ => rfl
  | cons item rest ih =>
    rw [List.mapM_cons, List.mapM_cons]
    apply returns_bind (h item List.mem_cons_self)
    intro b
    apply returns_bind (ih (fun i hi => h i (List.mem_cons_of_mem item hi)))
    exact fun _ _ => rfl

theorem returns_mapM_ok {f : α → Probing β} {g : α → β} (items : List α)
    (h : ∀ item ∈ items, Returns (f item) (.ok (g item))) :
    Returns (items.mapM f) (.ok (items.map g)) := by
  have hpure : items.mapM (fun item => (.ok (g item) : Except PyError β)) = .ok (items.map g) :=
    List.mapM_pure
  rw [← hpure]
  exact returns_mapM items h

theorem returns_readAt (path : Path) (h : refuse path = none) :
    Returns (readAt files refuse (some path)) (readFile files path) := by
  intro asked
  have hrun : probe files refuse path asked = (.ok (files path), asked ++ [path]) := by
    rw [probe, look, h]
  rw [readAt, bind_ok hrun, readFile]
  cases files path <;> rfl

theorem returns_isFileAt (path : Option Path) (h : ∀ p ∈ path, refuse p = none) :
    Returns (isFileAt files refuse path) (.ok (path.bind files)) := by
  intro asked
  cases path with
  | none => rfl
  | some path =>
    simp only [isFileAt, probe, look, h path rfl]
    rfl

theorem asked_isFileAt (path : Path) (asked : List Path) :
    path ∈ (isFileAt files refuse (some path) asked).2 :=
  List.mem_append_right asked (List.mem_singleton_self path)

theorem asked_readAt (path : Path) (asked : List Path) :
    path ∈ (readAt files refuse (some path) asked).2 := by
  apply asked_bind (asked_isFileAt files refuse path asked)
  rintro (_ | value)
  · exact asks_lift (.error .fileNotFound)
  · exact asks_lift (.ok value)

end Rules

section Refusals

variable {α β : Type}

/-- What the first computation returns the second one returns as well. -/
def Loosens (x y : Probing α) : Prop :=
  ∀ asked a asked', x asked = (.ok a, asked') → y asked = (.ok a, asked')

theorem loosens_refl (x : Probing α) : Loosens x x := fun _ _ _ h => h

theorem loosens_bind {x y : Probing α} {f g : α → Probing β} (hx : Loosens x y)
    (hf : ∀ a, Loosens (f a) (g a)) : Loosens (x >>= f) (y >>= g) := by
  intro asked b asked' h
  obtain ⟨a, asked₁, hfirst, hrest⟩ := returned_bind h
  rw [bind_ok (hx asked a asked₁ hfirst)]
  exact hf a asked₁ b asked' hrest

theorem loosens_readAt (path : Option Path) :
    Loosens (readAt files refuse path) (readAt files (fun _ => none) path) := by
  cases path with
  | none => exact loosens_refl _
  | some path =>
    refine loosens_bind ?_ (fun _ => loosens_refl _)
    intro asked found asked' h
    rw [probe, look] at h
    cases hrefuse : refuse path with
    | none =>
      rw [hrefuse] at h
      exact h
    | some e =>
      rw [hrefuse] at h
      cases h

/-- A shard that has been read is read as well where the system looks at every path. -/
theorem loosens_readShardPlaintext (manifest : RawManifest F) (index : ℤ) :
    Loosens (probeReadShardPlaintext crypto root passphrase files refuse str manifest index)
      (probeReadShardPlaintext crypto root passphrase files (fun _ => none) str manifest
        index) := by
  refine loosens_bind (loosens_refl _) fun shard => loosens_bind ?_ fun key => ?_
  · refine loosens_bind (loosens_readAt files refuse _) fun blob => ?_
    refine loosens_bind (loosens_refl _) fun text => ?_
    exact loosens_bind (loosens_readAt files refuse _) fun content => loosens_refl _
  · unfold probeDecryptShard
    split
    · exact loosens_bind (loosens_readAt files refuse _) fun blob => loosens_refl _
    · exact loosens_refl _

end Refusals

section Containment

/-- A file below the shards or the keys of the vault. -/
def Inside (path : Path) : Prop :=
  (root ++ ["shards"]) <+: path ∨ (root ++ ["keys"]) <+: path

/-- The configuration apart, whose name no manifest has a part in. -/
def Allowed (path : Path) : Prop := path = configPath root ∨ Inside root path

/-- The texts of the manifest lead to files of the vault. -/
structure Contained (manifest : RawManifest F) : Prop where
  key : ∀ path ∈ keyFile root (textOf str manifest.keyId), Inside root path
  shards : ∀ shard ∈ manifest.shards, ∀ ciphertextHash,
    shard.ciphertextHash = .str ciphertextHash →
    ∀ path ∈ shardFile root ciphertextHash, Inside root path

/-- Numbers where the data class declares numbers, of which that of the shards is the length of a
list, and hashes that are texts, of files where the system looks without an exception. -/
structure Declared (manifest : RawManifest F) : Prop where
  nShards : ∃ n, manifest.nShards = .int n ∧ n < 2 ^ 63 ∧ n ≤ memory
  shards : ∀ shard ∈ manifest.shards,
    shard.hasIntIndex = true ∧ ∃ ciphertextHash, shard.ciphertextHash = .str ciphertextHash ∧
      ∀ path ∈ shardFile root ciphertextHash, refuse path = none

/-- Every file that one of the three methods asks for is one of the vault. -/
structure KeepsInside (manifest : RawManifest F) : Prop where
  verify : ∀ path ∈ (probeVerify crypto root files refuse str order memory manifest []).2,
    Allowed root path
  stream :
    ∀ path ∈ (probeStreamPlaintext crypto root passphrase files refuse str order manifest []).2,
    Allowed root path
  read : ∀ index, ∀ path ∈
    (probeReadShardPlaintext crypto root passphrase files refuse str manifest index []).2,
    Allowed root path

theorem Asks.paths {α : Type} {P : Path → Prop} {x : Probing α} (h : Asks P x) :
    ∀ path ∈ (x []).2, P path := by
  obtain ⟨more, hmore, hpaths⟩ := h []
  rw [hmore, List.nil_append]
  exact hpaths

section Asking

variable {P : Path → Prop} (manifest : RawManifest F)

omit [FloatNumber F] in
theorem asks_unwrapKey (hkey : ∀ path ∈ keyFile root (textOf str manifest.keyId), P path)
    (hconfig : P (configPath root)) :
    Asks P (probeUnwrapKey crypto root passphrase files refuse str manifest.keyId) := by
  apply asks_bind (asks_readAt files refuse _ hkey)
  intro blob
  apply asks_bind (asks_lift (checkWrapped passphrase blob))
  intro text
  apply asks_bind (asks_readAt files refuse (some (configPath root))
    (by rintro path ⟨⟩; exact hconfig))
  exact fun content => asks_lift (openKey crypto manifest.keyId blob text content)

theorem asks_decryptShard (shard : RawShard F) (key : Bytes)
    (h : ∀ ciphertextHash, shard.ciphertextHash = .str ciphertextHash →
      ∀ path ∈ shardFile root ciphertextHash, P path) :
    Asks P (probeDecryptShard crypto root files refuse str manifest.modelId shard key) := by
  unfold probeDecryptShard
  split
  · rename_i ciphertextHash htext
    apply asks_bind (asks_readAt files refuse _ (h ciphertextHash htext))
    exact fun blob => asks_lift (openShard crypto str _ shard ciphertextHash key blob)
  · exact asks_lift (.error .typeError)

omit [FloatText F] in
theorem asks_verifyShard (shard : RawShard F)
    (h : ∀ ciphertextHash, shard.ciphertextHash = .str ciphertextHash →
      ∀ path ∈ shardFile root ciphertextHash, P path) :
    Asks P (probeVerifyShard crypto root files refuse str shard) := by
  unfold probeVerifyShard
  split
  · rename_i ciphertextHash htext
    apply asks_bind (asks_isFileAt files refuse _ (h ciphertextHash htext))
    exact fun blob => asks_lift (.ok (checkBlob crypto str shard ciphertextHash blob))
  · exact asks_lift (.error .typeError)

end Asking

variable {root str order} {manifest : RawManifest F}

omit [FloatText F] [FloatNumber F] in
theorem mem_of_rawSorted (horder : ∀ shards sorted, order shards = .ok sorted →
      ∀ shard ∈ sorted, shard ∈ shards) (shards sorted : List (RawShard F))
    (h : rawSorted order shards = .ok sorted) : ∀ shard ∈ sorted, shard ∈ shards := by
  unfold rawSorted at h
  split at h
  · obtain rfl := Except.ok.inj h
    exact fun shard hshard => (List.mem_insertionSort _).mp hshard
  · exact horder shards sorted h

omit [FloatText F] in
theorem mem_of_pickShard (index : ℤ) (shard : RawShard F)
    (h : pickShard manifest index = .ok shard) : shard ∈ manifest.shards := by
  unfold pickShard at h
  split at h
  · simp at h
  · split at h
    · simp at h
    · simp at h
    · split at h
      · simp at h
      · rename_i found hfind
        obtain rfl := Except.ok.inj h
        exact List.mem_of_find?_eq_some hfind

theorem keepsInside_of_contained (horder : ∀ shards sorted, order shards = .ok sorted →
      ∀ shard ∈ sorted, shard ∈ shards) (h : Contained root str manifest) :
    KeepsInside crypto root passphrase files refuse str order memory manifest := by
  have hshard : ∀ shard ∈ manifest.shards, ∀ ciphertextHash,
      shard.ciphertextHash = .str ciphertextHash →
      ∀ path ∈ shardFile root ciphertextHash, Allowed root path :=
    fun shard hmem hash hhash path hpath => Or.inr (h.shards shard hmem hash hhash path hpath)
  have hkey := asks_unwrapKey crypto root passphrase files refuse str manifest (P := Allowed root)
    (fun path hpath => Or.inr (h.key path hpath)) (Or.inl rfl)
  constructor
  · apply Asks.paths
    apply asks_bind (asks_lift (range memory manifest.nShards))
    intro expected
    apply asks_bind_lift
    intro sorted hsorted
    apply asks_bind (asks_mapM sorted (fun shard hmem => ?_)) (fun found => asks_lift (.ok _))
    exact asks_verifyShard crypto root files refuse str shard
      (hshard shard (mem_of_rawSorted horder _ _ hsorted shard hmem))
  · apply Asks.paths
    apply asks_bind hkey
    intro key
    apply asks_bind_lift
    intro sorted hsorted
    apply asks_mapM sorted
    intro shard hmem
    exact asks_decryptShard crypto root files refuse str manifest shard key
      (hshard shard (mem_of_rawSorted horder _ _ hsorted shard hmem))
  · intro index
    apply Asks.paths
    apply asks_bind_lift
    intro shard hpick
    apply asks_bind hkey
    exact fun key => asks_decryptShard crypto root files refuse str manifest shard key
      (hshard shard (mem_of_pickShard index shard hpick))

omit [FloatText F] in
theorem returns_verifyShard (shard : RawShard F) (ciphertextHash : String)
    (h : shard.ciphertextHash = .str ciphertextHash)
    (hrefuse : ∀ path ∈ shardFile root ciphertextHash, refuse path = none) :
    Returns (probeVerifyShard crypto root files refuse str shard) (.ok (checkBlob crypto str shard
      ciphertextHash ((shardFile root ciphertextHash).bind files))) := by
  unfold probeVerifyShard
  rw [h]
  exact returns_bind (g := fun blob => .ok (checkBlob crypto str shard ciphertextHash blob))
    (returns_isFileAt files refuse (shardFile root ciphertextHash) hrefuse) (fun _ _ => rfl)

omit [FloatText F] in
theorem asked_verifyShard (shard : RawShard F) (ciphertextHash : String)
    (h : shard.ciphertextHash = .str ciphertextHash) (path : Path)
    (hpath : path ∈ shardFile root ciphertextHash) (asked : List Path) :
    path ∈ (probeVerifyShard crypto root files refuse str shard asked).2 := by
  unfold probeVerifyShard
  rw [h]
  simp only [Option.mem_def.mp hpath]
  apply asked_bind (asked_isFileAt files refuse path asked)
  exact fun blob => asks_lift (.ok (checkBlob crypto str shard ciphertextHash blob))

omit [FloatText F] [FloatNumber F] in
/-- The configuration does not end like a shard or a key. -/
theorem inside_of_allowed (base : Path) (text suffixed : String) (path : Path)
    (hpath : path ∈ named text (locate base (suffixed ++ ".bin"))) (h : Allowed root path) :
    Inside root path := by
  refine h.resolve_left ?_
  rintro rfl
  have hlocate : locate base (suffixed ++ ".bin") = configPath root := by
    rw [named] at hpath
    split at hpath
    · simp at hpath
    · exact Option.some.inj hpath
  obtain ⟨directory, front, hend⟩ := locate_append base suffixed ".bin" (by decide) (by decide)
  rw [hlocate, configPath] at hend
  have hname := List.append_inj_right' hend rfl
  have htext := congrArg (fun name => name.toList.reverse) (List.singleton_inj.mp hname)
  simp [String.toList_append] at htext

/-- What `verify` and `stream_plaintext` ask for covers the names of a declared manifest. -/
theorem contained_of_keepsInside (hdeclared : Declared root refuse memory manifest)
    (h : KeepsInside crypto root passphrase files refuse str order memory manifest) :
    Contained root str manifest := by
  have hall : ∀ shard, Asks (fun _ => True) (probeVerifyShard crypto root files refuse str shard) :=
    fun shard => asks_verifyShard crypto root files refuse str shard (fun _ _ _ _ => trivial)
  have hsorted : rawSorted order manifest.shards = .ok (manifest.shards.insertionSort
      (fun a b => a.intIndex ≤ b.intIndex)) :=
    if_pos (List.all_eq_true.mpr (fun s hs => (hdeclared.shards s hs).1))
  constructor
  · intro path hpath
    refine inside_of_allowed _ _ _ path hpath (h.stream path ?_)
    unfold probeStreamPlaintext probeUnwrapKey
    rw [Option.mem_def.mp hpath]
    apply asked_bind
    · apply asked_bind (asked_readAt files refuse path [])
      intro blob
      apply asks_bind (asks_lift (checkWrapped passphrase blob))
      intro text
      apply asks_bind (asks_readAt files refuse _ (fun _ _ => trivial))
      exact fun content => asks_lift (openKey crypto manifest.keyId blob text content)
    · intro key
      apply asks_bind_lift
      intro sorted _
      apply asks_mapM sorted
      exact fun shard _ => asks_decryptShard crypto root files refuse str manifest shard key
        (fun _ _ _ _ => trivial)
  · intro shard hshard hash hhash path hpath
    refine inside_of_allowed _ _ _ path hpath (h.verify path ?_)
    obtain ⟨n, hn, hlow, hfits⟩ := hdeclared.nShards
    unfold probeVerify
    rw [hn, hsorted, range_int hlow hfits]
    refine asked_bind (x := List.mapM (probeVerifyShard crypto root files refuse str) _) ?_ ?_
    · apply asked_mapM _ hall
      · intro item hitem
        obtain ⟨-, text, htext, hlook⟩ :=
          hdeclared.shards item ((List.mem_insertionSort _).mp hitem)
        exact ⟨_, returns_verifyShard crypto files refuse item text htext hlook⟩
      · exact (List.mem_insertionSort _).mpr hshard
      · exact asked_verifyShard crypto files refuse shard hash hhash path hpath
    · exact fun found => asks_lift (.ok _)

end Containment

section Names

variable {root str}

omit [FloatText F] [FloatNumber F] in
theorem named_plain (text : String) (path : Path) (h : '\x00' ∉ text.toList) :
    named text path = some path := by
  rw [named, if_neg (by rw [chars_eq]; simpa using h)]

theorem keyFile_plain (keyId : String) (hslash : '/' ∉ keyId.toList)
    (hnull : '\x00' ∉ keyId.toList) : keyFile root keyId = some (keyPath root keyId) := by
  have hlong : ∀ other : String, other.toList.length ≤ 2 → keyId ++ ".bin" ≠ other := by
    rintro other hother rfl
    simp [String.toList_append] at hother
  rw [keyFile, named_plain keyId _ hnull, locate_name, keyPath, List.append_assoc]
  · rfl
  · simp [String.toList_append, hslash]
  · exact hlong "" (by decide)
  · exact hlong "." (by decide)
  · exact hlong ".." (by decide)

/-- A text that is long enough for all its slices and has no special character. -/
def Plain (text : String) : Prop :=
  4 ≤ text.toList.length ∧ ∀ c ∈ text.toList, c ≠ '/' ∧ c ≠ '.' ∧ c ≠ '\x00'

theorem locate_slice (base : List String) (text : String) (h : Plain text) (start stop : ℕ)
    (hstart : start < stop) (hstop : stop ≤ 4) :
    locate base (slice text start stop) = base ++ [slice text start stop] := by
  have htext : (slice text start stop).toList = (text.toList.take stop).drop start := by
    rw [slice, chars_eq, String.toList_ofList]
  have hmem : ∀ c ∈ (slice text start stop).toList, c ≠ '/' ∧ c ≠ '.' := by
    intro c hc
    rw [htext] at hc
    have hplain := h.2 c (List.mem_of_mem_take (List.mem_of_mem_drop hc))
    exact ⟨hplain.1, hplain.2.1⟩
  have hlength : (slice text start stop).toList.length = stop - start := by
    rw [htext, List.length_drop, List.length_take, Nat.min_eq_left (hstop.trans h.1)]
  apply locate_name
  · exact fun hc => (hmem _ hc).1 rfl
  · intro hempty
    rw [hempty] at hlength
    simp at hlength
    omega
  · intro hdot
    exact (hmem '.' (by simp [hdot])).2 rfl
  · intro hdots
    exact (hmem '.' (by simp [hdots])).2 rfl

theorem shardFile_plain (ciphertextHash : String) (h : Plain ciphertextHash) :
    shardFile root ciphertextHash = some (shardPath root ciphertextHash) := by
  have hlong : ∀ other : String, other.toList.length ≤ 2 → ciphertextHash ++ ".bin" ≠ other := by
    rintro other hother rfl
    simp [String.toList_append] at hother
  rw [shardFile, named_plain _ _ (fun hc => (h.2 _ hc).2.2 rfl),
    locate_slice _ _ h 0 2 (by decide) (by decide), locate_slice _ _ h 2 4 (by decide) le_rfl,
    locate_name, shardPath]
  · simp
  · rw [String.toList_append, List.mem_append]
    exact not_or.mpr ⟨fun hc => (h.2 _ hc).1 rfl, by decide⟩
  · exact hlong "" (by decide)
  · exact hlong "." (by decide)
  · exact hlong ".." (by decide)

variable (manifest : RawManifest F)

/-- Every text of the manifest that becomes a path is one name. -/
structure OneName (root : Path) (str : Json F → String) (manifest : RawManifest F) : Prop where
  key : keyFile root (textOf str manifest.keyId) = some (keyPath root (textOf str manifest.keyId))
  shards : ∀ shard ∈ manifest.shards, ∀ ciphertextHash,
    shard.ciphertextHash = .str ciphertextHash →
    shardFile root ciphertextHash = some (shardPath root ciphertextHash)

variable {manifest}

omit [FloatText F] [FloatNumber F] in
theorem returns_lift {α : Type} (result : Except PyError α) :
    Returns (liftM result : Probing α) result := fun _ => rfl

omit [FloatNumber F] in
theorem rawUnwrapKey_eq (keyId : Json F) :
    rawUnwrapKey crypto root passphrase files str keyId =
      (readFile files (keyPath root (textOf str keyId)) >>= fun blob =>
        checkWrapped passphrase blob >>= fun text =>
          readFile files (configPath root) >>= fun content =>
            openKey crypto keyId blob text content) := by
  have hlift : ∀ keyText : String, rawUnwrapKey crypto root passphrase files str (.str keyText) =
      unwrapKey F crypto root passphrase files keyText := fun _ => rfl
  cases keyId with
  | str keyText =>
    rw [hlift, unwrapKey]
    congr 1
    funext blob
    rw [checkWrapped]
    split <;> rfl
  | _ =>
    rw [rawUnwrapKey]
    · congr 1
      funext blob
      rw [checkWrapped]
      split <;> rfl
    · simp

variable {refuse} (hlook : ∀ path, refuse path = none)
include hlook

omit [FloatNumber F] in
theorem returns_unwrapKey (h : OneName root str manifest) :
    Returns (probeUnwrapKey crypto root passphrase files refuse str manifest.keyId)
      (rawUnwrapKey crypto root passphrase files str manifest.keyId) := by
  rw [rawUnwrapKey_eq, probeUnwrapKey, h.key]
  apply returns_bind (returns_readAt files refuse (keyPath root (textOf str manifest.keyId))
    (hlook _))
  intro blob
  apply returns_bind (returns_lift (checkWrapped passphrase blob))
  intro text
  apply returns_bind (returns_readAt files refuse (configPath root) (hlook _))
  exact fun content => returns_lift (openKey crypto manifest.keyId blob text content)

theorem returns_decryptShard (h : OneName root str manifest) (shard : RawShard F)
    (hshard : shard ∈ manifest.shards) (key : Bytes) :
    Returns (probeDecryptShard crypto root files refuse str manifest.modelId shard key)
      (rawDecryptShard crypto root files str manifest.modelId shard key) := by
  cases hhash : shard.ciphertextHash with
  | str hash =>
    rw [rawDecryptShard, probeDecryptShard, hhash]
    simp only [h.shards shard hshard hash hhash]
    apply returns_bind (returns_readAt files refuse (shardPath root hash) (hlook _))
    exact fun blob => returns_lift (openShard crypto str manifest.modelId shard hash key blob)
  | _ =>
    intro asked
    rw [probeDecryptShard, rawDecryptShard, hhash]
    rfl

/-- Where every text is one name, the methods are those of the vault. -/
theorem returns_streamPlaintext (horder : ∀ shards sorted, order shards = .ok sorted →
      ∀ shard ∈ sorted, shard ∈ shards) (h : OneName root str manifest) :
    Returns (probeStreamPlaintext crypto root passphrase files refuse str order manifest)
      (rawStreamPlaintext crypto root passphrase files str order manifest) := by
  apply returns_bind (returns_unwrapKey crypto passphrase files hlook h)
  intro key
  cases hsorted : rawSorted order manifest.shards with
  | error e => exact fun _ => rfl
  | ok sorted =>
    have hdecrypt : ∀ shard ∈ sorted,
        Returns (probeDecryptShard crypto root files refuse str manifest.modelId shard key)
          (rawDecryptShard crypto root files str manifest.modelId shard key) := fun shard hmem =>
      returns_decryptShard crypto files hlook h shard
        (mem_of_rawSorted horder _ _ hsorted shard hmem) key
    exact returns_mapM sorted hdecrypt

theorem returns_readShardPlaintext (h : OneName root str manifest) (index : ℤ) :
    Returns (probeReadShardPlaintext crypto root passphrase files refuse str manifest index)
      (rawReadShardPlaintext crypto root passphrase files str manifest index) := by
  have hraw : rawReadShardPlaintext crypto root passphrase files str manifest index =
      (pickShard manifest index >>= fun shard =>
        rawUnwrapKey crypto root passphrase files str manifest.keyId >>=
          rawDecryptShard crypto root files str manifest.modelId shard) := by
    unfold rawReadShardPlaintext pickShard
    by_cases hnegative : index < 0
    · rw [if_pos hnegative, if_pos hnegative]
      rfl
    · rw [if_neg hnegative, if_neg hnegative]
      rcases intLess index manifest.nShards with e | _ | _
      · rfl
      · rfl
      · cases manifest.shards.find? (fun item => equalsInt item.index index) <;> rfl
  rw [hraw]
  cases hpick : pickShard manifest index with
  | error e =>
    intro asked
    rw [probeReadShardPlaintext, hpick]
    rfl
  | ok shard =>
    rw [probeReadShardPlaintext, hpick]
    apply returns_bind (returns_unwrapKey crypto passphrase files hlook h)
    exact returns_decryptShard crypto files hlook h shard (mem_of_pickShard index shard hpick)

omit [FloatText F] hlook in
theorem equalsInts_int (values numbers : List ℤ) :
    equalsInts (values.map (Json.int (F := F))) numbers = decide (values = numbers) := by
  induction values generalizing numbers with
  | nil => cases numbers <;> simp [equalsInts]
  | cons value rest ih =>
    cases numbers with
    | nil => simp [equalsInts]
    | cons number others =>
      have hrest := ih others
      simp only [equalsInts, List.length_map, Bool.decide_and, Bool.decide_eq_true,
        List.map_cons, List.length_cons, List.zip_cons_cons, List.all_cons, equalsInt_int,
        Nat.add_right_cancel_iff, List.cons.injEq] at hrest ⊢
      rw [← hrest]
      cases decide (value = number) <;> simp

omit [FloatText F] hlook in
theorem checkBlob_rawShard (hstr : ∀ n, str (.int n) = toString n) (shard : Shard) :
    checkBlob crypto str (rawShard shard) shard.ciphertextHash
      (files (shardPath root shard.ciphertextHash)) = verifyShard crypto root files shard := by
  rw [verifyShard]
  cases files (shardPath root shard.ciphertextHash) with
  | none => simp only [checkBlob, rawShard, hstr]
  | some blob => simp only [checkBlob, rawShard, hstr, equalsInt_eq_false, equalsStr_eq_false]

omit [FloatText F] in
theorem returns_verify (hstr : ∀ n, str (.int n) = toString n) (manifest : ModelManifest F)
    (hlow : manifest.nShards < 2 ^ 63) (hmemory : manifest.nShards ≤ memory)
    (h : OneName root str (rawManifest manifest)) :
    Returns (probeVerify crypto root files refuse str order memory (rawManifest manifest))
      (.ok (verify F crypto root files manifest)) := by
  have hshards : ∀ shard ∈ sortedShards manifest.shards,
      Returns (probeVerifyShard crypto root files refuse str (rawShard shard))
        (.ok (verifyShard crypto root files shard)) := by
    intro shard hshard
    have hmem : rawShard shard ∈ (rawManifest manifest : RawManifest F).shards :=
      List.mem_map_of_mem ((List.mem_insertionSort _).mp hshard)
    have hreturns : Returns (probeVerifyShard crypto root files refuse str (rawShard shard)) _ :=
      returns_verifyShard crypto files refuse (rawShard shard) shard.ciphertextHash rfl
        (fun path _ => hlook path)
    rw [h.shards _ hmem _ rfl, Option.bind_some,
      checkBlob_rawShard crypto files hstr] at hreturns
    exact hreturns
  have hfound := returns_mapM_ok (sortedShards manifest.shards) hshards
  have hindexes : ((sortedShards manifest.shards).map rawShard).map (RawShard.index (F := F)) =
      ((sortedShards manifest.shards).map Shard.index).map Json.int := by
    rw [List.map_map, List.map_map]
    rfl
  have hmap : ∀ shards : List Shard, (shards.map rawShard).mapM (probeVerifyShard crypto root files
      refuse str) = shards.mapM (fun shard =>
        probeVerifyShard crypto root files refuse str (rawShard shard)) :=
    fun shards => List.mapM_map
  rw [← hmap] at hfound
  have hsorted := rawSorted_rawShard order manifest.shards
  have hrange : range memory (rawManifest manifest : RawManifest F).nShards =
      .ok ((List.range manifest.nShards.toNat).map Int.ofNat) := range_int hlow hmemory
  unfold probeVerify
  rw [hrange]
  apply returns_bind_ok (returns_lift (.ok ((List.range manifest.nShards.toNat).map Int.ofNat)))
  apply returns_bind_ok (a := (sortedShards manifest.shards).map rawShard)
  · rw [← hsorted]
    exact returns_lift _
  apply returns_bind_ok hfound
  rw [hindexes, equalsInts_int]
  have hmerkle : (rawManifest manifest : RawManifest F).merkleRoot = .str manifest.merkleRoot := rfl
  rw [verify]
  simp only [hmerkle, equalsStr_str, textOf, decide_eq_true_eq, ne_eq, ite_not,
    eq_comm (a := manifest.merkleRoot)]
  exact returns_lift (.ok _)

end Names

/-- Manifests whose texts lead to files of the vault never make the methods ask for another; for
manifests of numbers and texts where they are declared nothing less will do. -/
theorem paths_inside_iff (crypto : Crypto) (root : Path) (passphrase : Option String)
    (files : Files) (refuse : Path → Option PyError) (str : Json F → String)
    (order : List (RawShard F) → Except PyError (List (RawShard F))) (memory : ℕ)
    (horder : ∀ shards sorted, order shards = .ok sorted → ∀ shard ∈ sorted, shard ∈ shards)
    (manifest : RawManifest F) :
    (Contained root str manifest →
      KeepsInside crypto root passphrase files refuse str order memory manifest) ∧
    (Declared root refuse memory manifest →
      KeepsInside crypto root passphrase files refuse str order memory manifest →
        Contained root str manifest) :=
  ⟨keepsInside_of_contained crypto passphrase files refuse memory horder,
    contained_of_keepsInside crypto passphrase files refuse memory⟩

def sampleShard (index : ℤ) (ciphertextHash : String) : Shard :=
  ⟨index, "", ciphertextHash, 0, 0, ""⟩

def sampleManifest (shards : List Shard) : ModelManifest WholeFloat where
  modelId := "m"
  source := ""
  license := ""
  sizeBytes := 0
  nShards := shards.length
  merkleRoot := ""
  keyId := "k"
  shards := shards
  createdAt := ⟨0⟩
  metadata := []
  formatVersion := 1

theorem load_sample (shards : List Shard) :
    RawManifest.load (⟨0⟩ : WholeFloat) (encode (sampleManifest shards).toJson) =
      some (rawManifest (sampleManifest shards).sorted) := by
  have hload := load_toJson (⟨0⟩ : WholeFloat) (sampleManifest shards) ⟨List.nodup_nil, trivial⟩
  exact load_rawManifest _ _ _ hload

theorem declared_sample (ciphertextHash : String) :
    Declared ["vault"] (fun _ => none) 1
      (rawManifest (sampleManifest [sampleShard 0 ciphertextHash]).sorted :
        RawManifest WholeFloat) where
  nShards := ⟨1, rfl, by decide, le_rfl⟩
  shards := by
    intro shard hshard
    obtain rfl := List.mem_singleton.mp hshard
    exact ⟨rfl, ciphertextHash, rfl, fun _ _ => rfl⟩

theorem contained_sample : Contained ["vault"] sampleStr (rawManifest
    (sampleManifest [sampleShard 1 "0123", sampleShard 0 "4567"]) : RawManifest WholeFloat) where
  key := by
    intro path hpath
    change path ∈ keyFile ["vault"] "k" at hpath
    rw [keyFile_plain "k" (by decide) (by decide)] at hpath
    obtain rfl := Option.some.inj hpath
    exact Or.inr (by simp [keyPath])
  shards := by
    intro shard hshard hash hhash path hpath
    have hplain : ∀ text ∈ ["0123", "4567"], Plain text := by
      intro text htext
      have hchars : ["0123", "4567"].all (fun text => 4 ≤ text.toList.length ∧
        text.toList.all (fun c => c ≠ '/' ∧ c ≠ '.' ∧ c ≠ '\x00')) = true := by decide
      obtain ⟨hlength, hall⟩ := of_decide_eq_true (List.all_eq_true.mp hchars text htext)
      exact ⟨hlength, fun c hc => of_decide_eq_true (List.all_eq_true.mp hall c hc)⟩
    have hmem : hash ∈ ["0123", "4567"] := by
      rcases List.mem_pair.mp hshard with rfl | rfl
      · obtain rfl : "0123" = hash := Json.str.inj hhash
        exact List.mem_cons_self
      · obtain rfl : "4567" = hash := Json.str.inj hhash
        exact List.mem_cons_of_mem _ List.mem_cons_self
    rw [shardFile_plain hash (hplain hash hmem)] at hpath
    obtain rfl := Option.some.inj hpath
    exact Or.inl (by simp [shardPath])

theorem not_contained_sample : ¬ Contained ["vault"] sampleStr (rawManifest
    (sampleManifest [sampleShard 0 "/etc/passwd"]).sorted : RawManifest WholeFloat) := by
  intro hcontained
  have hfile : shardFile ["vault"] "/etc/passwd" = some ["etc", "passwd.bin"] := by decide +kernel
  have hmem : rawShard (sampleShard 0 "/etc/passwd") ∈
      (rawManifest (sampleManifest [sampleShard 0 "/etc/passwd"]).sorted :
        RawManifest WholeFloat).shards :=
    List.mem_singleton_self _
  have hinside := hcontained.shards _ hmem "/etc/passwd" rfl _ hfile
  simp [Inside] at hinside

/-- A manifest that leads to files of the vault, and one that does not. -/
theorem paths_inside_iff_sample :
    KeepsInside Crypto.sample ["vault"] none (fun _ => none) (fun _ => none) sampleStr sampleOrder 9
        (rawManifest (sampleManifest [sampleShard 1 "0123", sampleShard 0 "4567"])) ∧
      ¬ KeepsInside Crypto.sample ["vault"] none (fun _ => none) (fun _ => none) sampleStr
        sampleOrder 1 (rawManifest (sampleManifest [sampleShard 0 "/etc/passwd"]).sorted) := by
  have horder : ∀ shards sorted, sampleOrder shards = .ok sorted → ∀ shard ∈ sorted,
      shard ∈ shards := fun _ _ h => absurd h (by simp [sampleOrder])
  constructor
  · exact (paths_inside_iff Crypto.sample ["vault"] none (fun _ => none) (fun _ => none) sampleStr
      sampleOrder 9 horder _).1 contained_sample
  · intro hkeeps
    exact not_contained_sample ((paths_inside_iff Crypto.sample ["vault"] none (fun _ => none)
      (fun _ => none) sampleStr sampleOrder 1 horder _).2 (declared_sample "/etc/passwd") hkeeps)

/-- A manifest that is read without complaint makes `verify` look at a file of the system. -/
theorem paths_escape :
    ¬ ∀ (crypto : Crypto) (root : Path) (now : WholeFloat) (content : Bytes)
      (manifest : RawManifest WholeFloat), RawManifest.load now content = some manifest →
      ∀ (passphrase : Option String) (files : Files) (refuse : Path → Option PyError)
        (str : Json WholeFloat → String)
        (order : List (RawShard WholeFloat) → Except PyError (List (RawShard WholeFloat)))
        (memory : ℕ),
      KeepsInside crypto root passphrase files refuse str order memory manifest := by
  intro hclaim
  have hkeeps := hclaim Crypto.sample ["vault"] ⟨0⟩ _ _ (load_sample [sampleShard 0 "/etc/passwd"])
    none (fun _ => none) (fun _ => none) sampleStr sampleOrder 1
  exact not_contained_sample (contained_of_keepsInside Crypto.sample none (fun _ => none)
    (fun _ => none) 1 (declared_sample "/etc/passwd") hkeeps)

end Decillion.ManifestPaths
