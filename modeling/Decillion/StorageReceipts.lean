import Decillion.Base64Text
import Decillion.JsonRoundTrip
import Decillion.MerkleTrees
import Decillion.Primitives

/-!
Receipts of the storage gateway: their canonical JSON, the node's signature over the
digest of the unsigned fields and the Merkle root of a batch. The canonical text of a
receipt determines the receipt and is longer than two digests, so a root binds a
duplicate-free batch together with its length.
-/
namespace Decillion.StorageReceipts

open ByteText Base64Text JsonValues JsonText JsonRoundTrip MerkleTrees Primitives

/-- `json.dumps(value, sort_keys=True, separators=(",", ":"), ensure_ascii=True).encode()` -/
def canonicalJson (value : Json Empty) : Bytes := utf8 (dump compact 0 (sortKeys value))

theorem canonicalJson_eq_encode (value : Json Empty) :
    canonicalJson value = encode (dumpsSorted compact value) := (encode_ofList _).symm

structure Receipt where
  version : ℤ
  objectId : String
  owner : String
  originalNameHash : String
  plaintextSize : ℤ
  ciphertextSize : ℤ
  createdAt : String
  wrappedKey : String
  signature : String
deriving DecidableEq

def Receipt.unsigned (receipt : Receipt) : Members Empty :=
  [("version", .int receipt.version), ("object_id", .str receipt.objectId),
    ("owner", .str receipt.owner), ("original_name_hash", .str receipt.originalNameHash),
    ("plaintext_size", .int receipt.plaintextSize),
    ("ciphertext_size", .int receipt.ciphertextSize), ("created_at", .str receipt.createdAt),
    ("wrapped_key", .str receipt.wrappedKey)]

def Receipt.asdict (receipt : Receipt) : Members Empty :=
  receipt.unsigned ++ [("signature", .str receipt.signature)]

def Receipt.digest (sha : Sha256) (receipt : Receipt) : Bytes :=
  sha.digest (canonicalJson (.obj receipt.unsigned))

/-- The unsigned receipt of an upload; the signature field holds its default. -/
def Receipt.create (sha : Sha256) (objectId owner filename : String) (plaintextSize : ℤ)
    (ciphertextSize : ℤ) (wrappedKey : Bytes) (now : String) : Receipt :=
  { version := 1
    objectId := objectId
    owner := owner
    originalNameHash := sha.hexdigest (encode filename)
    plaintextSize := plaintextSize
    ciphertextSize := ciphertextSize
    createdAt := now
    wrappedKey := urlsafeB64encode wrappedKey
    signature := "" }

/-- `ReceiptSigner.sign` -/
def signReceipt (sha : Sha256) (ed : Ed25519) (privateKey : Bytes) (receipt : Receipt) : Receipt :=
  { receipt with signature := urlsafeB64encode (ed.sign privateKey (receipt.digest sha)) }

/-- Whether `verify_receipt` returns; it raises an integrity error otherwise. -/
def verifyReceipt (sha : Sha256) (ed : Ed25519) (publicKey : Bytes) (receipt : Receipt) : Bool :=
  match b64decodeValidate receipt.signature with
  | none => false
  | some signature => ed.verify publicKey signature (receipt.digest sha)

def receiptLeaf (sha : Sha256) (item : Receipt) : Bytes :=
  sha.digest (canonicalJson (.obj item.asdict))

def hashNode (sha : Sha256) (left right : Bytes) : Bytes := sha.digest (left ++ right)

/-- The root of a batch; each round halves the level, so as many rounds as leaves suffice. -/
def merkleRoot (sha : Sha256) (receipts : List Receipt) : String :=
  let leaves := receipts.map (receiptLeaf sha)
  if leaves.isEmpty then sha.hexdigest []
  else hex ((climb (hashNode sha) leaves.length leaves).headD [])

/-- Every message the computation of a root hashes. -/
def merkleInputs (sha : Sha256) (receipts : List Receipt) : List Bytes :=
  let leaves := receipts.map (receiptLeaf sha)
  [] :: receipts.map (fun item => canonicalJson (.obj item.asdict)) ++
    (hashedPairs (hashNode sha) leaves.length leaves).map (fun p => p.1 ++ p.2)

theorem unsigned_signReceipt (sha : Sha256) (ed : Ed25519) (privateKey : Bytes)
    (receipt : Receipt) : (signReceipt sha ed privateKey receipt).unsigned = receipt.unsigned :=
  rfl

theorem verifyReceipt_signReceipt (sha : Sha256) (ed : Ed25519) (privateKey : Bytes)
    (receipt : Receipt) : verifyReceipt sha ed (ed.publicKey privateKey)
      (signReceipt sha ed privateKey receipt) = true := by
  have hdigest : (signReceipt sha ed privateKey receipt).digest sha = receipt.digest sha := rfl
  unfold verifyReceipt
  rw [hdigest]
  simp only [signReceipt, b64decodeValidate_encode]
  exact ed.verify_sign privateKey (receipt.digest sha)

theorem distinctKeys_unsigned (receipt : Receipt) : DistinctKeys (.obj receipt.unsigned) := by
  refine ⟨?_, ?_⟩
  · simp [Receipt.unsigned]
  · simp [Receipt.unsigned, DistinctKeysMembers, DistinctKeys]

theorem distinctKeys_asdict (receipt : Receipt) : DistinctKeys (.obj receipt.asdict) := by
  refine ⟨?_, ?_⟩
  · simp [Receipt.unsigned, Receipt.asdict]
  · simp [Receipt.unsigned, Receipt.asdict, DistinctKeysMembers, DistinctKeys]

theorem sortKeys_unsigned (receipt : Receipt) : sortKeys (.obj receipt.unsigned) =
    .obj [("ciphertext_size", .int receipt.ciphertextSize), ("created_at", .str receipt.createdAt),
      ("object_id", .str receipt.objectId), ("original_name_hash", .str receipt.originalNameHash),
      ("owner", .str receipt.owner), ("plaintext_size", .int receipt.plaintextSize),
      ("version", .int receipt.version), ("wrapped_key", .str receipt.wrappedKey)] := by
  simp [sortKeys, sortMembers, Receipt.unsigned, List.insertionSort, List.orderedInsert, keyLe]

theorem sortKeys_asdict (receipt : Receipt) : sortKeys (.obj receipt.asdict) =
    .obj [("ciphertext_size", .int receipt.ciphertextSize), ("created_at", .str receipt.createdAt),
      ("object_id", .str receipt.objectId), ("original_name_hash", .str receipt.originalNameHash),
      ("owner", .str receipt.owner), ("plaintext_size", .int receipt.plaintextSize),
      ("signature", .str receipt.signature), ("version", .int receipt.version),
      ("wrapped_key", .str receipt.wrappedKey)] := by
  simp [sortKeys, sortMembers, Receipt.asdict, Receipt.unsigned, List.insertionSort,
    List.orderedInsert, keyLe]

theorem canonicalJson_injective {v w : Json Empty} (hv : DistinctKeys v) (hw : DistinctKeys w)
    (h : canonicalJson v = canonicalJson w) : SameValue v w := by
  rw [canonicalJson_eq_encode, canonicalJson_eq_encode] at h
  exact dumpsSorted_injective compact hv hw (encode_injective h)

/-- The canonical JSON of a signed receipt determines the receipt. -/
theorem canonicalJson_asdict_injective (a b : Receipt)
    (h : canonicalJson (.obj a.asdict) = canonicalJson (.obj b.asdict)) : a = b := by
  have hsame := canonicalJson_injective (distinctKeys_asdict a) (distinctKeys_asdict b) h
  unfold SameValue at hsame
  rw [sortKeys_asdict, sortKeys_asdict] at hsame
  cases a
  cases b
  simp only [Json.obj.injEq, List.cons.injEq, Prod.mk.injEq, Json.int.injEq, Json.str.injEq,
    true_and, and_true] at hsame
  obtain ⟨rfl, rfl, rfl, rfl, rfl, rfl, rfl, rfl, rfl⟩ := hsame
  rfl

/-- The canonical JSON of the unsigned fields determines them. -/
theorem canonicalJson_unsigned_injective (a b : Receipt)
    (h : canonicalJson (.obj a.unsigned) = canonicalJson (.obj b.unsigned)) :
    a = { b with signature := a.signature } := by
  have hsame := canonicalJson_injective (distinctKeys_unsigned a) (distinctKeys_unsigned b) h
  unfold SameValue at hsame
  rw [sortKeys_unsigned, sortKeys_unsigned] at hsame
  cases a
  cases b
  simp only [Json.obj.injEq, List.cons.injEq, Prod.mk.injEq, Json.int.injEq, Json.str.injEq,
    true_and, and_true] at hsame
  obtain ⟨rfl, rfl, rfl, rfl, rfl, rfl, rfl, rfl⟩ := hsame
  rfl

theorem canonicalJson_asdict_length (receipt : Receipt) :
    64 < (canonicalJson (.obj receipt.asdict)).length := by
  have hlength := length_le_encode_length (dumpsSorted compact (.obj receipt.asdict))
  have htext : 64 < (dumpsSorted compact (.obj receipt.asdict)).length := by
    rw [← String.length_toList, dumpsSorted, dumps, String.toList_ofList, sortKeys_asdict]
    simp [dump, dumpMembers, dumpString, chars_eq, newline, colon, compact, escapeChar]
    omega
  rw [canonicalJson_eq_encode]
  exact lt_of_lt_of_le htext hlength

/-- A pair of digests whose concatenation is among the messages. -/
def DigestPair (messages : Set Bytes) : Set (Bytes × Bytes) :=
  {p | p.1.length = 32 ∧ p.2.length = 32 ∧ p.1 ++ p.2 ∈ messages}

theorem hashNode_injOn (sha : Sha256) (messages : Set Bytes)
    (hcollision : sha.NoCollision messages) :
    Set.InjOn (fun p : Bytes × Bytes => hashNode sha p.1 p.2) (DigestPair messages) := by
  rintro ⟨a, b⟩ ⟨ha, -, hab⟩ ⟨c, d⟩ ⟨hc, -, hcd⟩ h
  obtain ⟨rfl, rfl⟩ := List.append_inj (hcollision hab hcd h) (ha.trans hc.symm)
  rfl

theorem hashedPairs_digestPair (sha : Sha256) (receipts : List Receipt) (messages : Set Bytes)
    (hinputs : ∀ message ∈ merkleInputs sha receipts, message ∈ messages) :
    ∀ p ∈ hashedPairs (hashNode sha) (receipts.map (receiptLeaf sha)).length
      (receipts.map (receiptLeaf sha)), p ∈ DigestPair messages := by
  intro p hp
  have hlengths := forall_hashedPairs (hashNode sha) (fun d => d.length = 32)
    (fun x y => sha.digest_length (x ++ y)) _ (receipts.map (receiptLeaf sha))
    (by simp [receiptLeaf, sha.digest_length]) p hp
  refine ⟨hlengths.1, hlengths.2, hinputs _ ?_⟩
  exact List.mem_append_right _ (List.mem_map_of_mem hp)

theorem canonicalJson_mem_merkleInputs (sha : Sha256) (receipts : List Receipt) (item : Receipt)
    (hitem : item ∈ receipts) : canonicalJson (.obj item.asdict) ∈ merkleInputs sha receipts :=
  List.mem_append_left _ (List.mem_cons_of_mem _
    (List.mem_map_of_mem (f := fun item : Receipt => canonicalJson (.obj item.asdict)) hitem))

theorem merkleRoot_of_climb (sha : Sha256) (receipts : List Receipt) (root : Bytes)
    (hne : receipts ≠ [])
    (hclimb : climb (hashNode sha) (receipts.map (receiptLeaf sha)).length
      (receipts.map (receiptLeaf sha)) = [root]) : merkleRoot sha receipts = hex root := by
  have hleaves : (receipts.map (receiptLeaf sha)).isEmpty = false := by simpa using hne
  simp only [merkleRoot, hclimb, hleaves]
  rfl

/-- The root of a batch with receipts is the digest of a text that is not empty. -/
theorem exists_message_of_merkleRoot (sha : Sha256) (receipts : List Receipt)
    (hne : receipts ≠ []) :
    ∃ message ∈ merkleInputs sha receipts, message ≠ [] ∧
      merkleRoot sha receipts = sha.hexdigest message := by
  have hleaves : receipts.map (receiptLeaf sha) ≠ [] := by simpa using hne
  rcases climb_eq_or (hashNode sha) _ hleaves with htop | ⟨p, hp, htop⟩
  · have hlength := climb_length (hashNode sha) _ _ hleaves le_rfl
    rw [htop, List.length_map, List.length_eq_one_iff] at hlength
    obtain ⟨item, rfl⟩ := hlength
    refine ⟨_, canonicalJson_mem_merkleInputs sha [item] item (List.mem_singleton_self item), ?_,
      merkleRoot_of_climb sha [item] _ hne htop⟩
    have hlong := canonicalJson_asdict_length item
    intro h
    rw [h] at hlong
    simp at hlong
  · have hpair := hashedPairs_digestPair sha receipts {m | m ∈ merkleInputs sha receipts}
      (fun _ h => h) p hp
    refine ⟨p.1 ++ p.2, hpair.2.2, ?_, merkleRoot_of_climb sha receipts _ hne htop⟩
    intro h
    have hlength := hpair.1
    rw [(List.append_eq_nil_iff.mp h).1] at hlength
    simp at hlength

theorem climb_singleton (sha : Sha256) (leaves : List Bytes) (hne : leaves ≠ []) :
    ∃ root, climb (hashNode sha) leaves.length leaves = [root] :=
  List.length_eq_one_iff.mp (climb_length (hashNode sha) leaves.length leaves hne le_rfl)

/-- A leaf hashes a text longer than the two digests an inner node hashes. -/
theorem receiptLeaf_ne_hashNode (sha : Sha256) (receipts : List Receipt) (messages : Set Bytes)
    (hinputs : ∀ message ∈ merkleInputs sha receipts, message ∈ messages)
    (hcollision : sha.NoCollision messages) (leaf : Bytes)
    (hleaf : leaf ∈ receipts.map (receiptLeaf sha)) (p : Bytes × Bytes)
    (hp : p ∈ DigestPair messages) : leaf ≠ hashNode sha p.1 p.2 := by
  obtain ⟨item, hitem, rfl⟩ := List.mem_map.mp hleaf
  intro h
  have hmem := hinputs _ (canonicalJson_mem_merkleInputs sha receipts item hitem)
  have htext := hcollision hmem hp.2.2 h
  have hlong := canonicalJson_asdict_length item
  rw [htext, List.length_append, hp.1, hp.2.1] at hlong
  omega

/-- Two duplicate-free batches of one root are equal, in length and in order. -/
theorem merkleRoot_injective (sha : Sha256) (a b : List Receipt) (ha : a.Nodup) (hb : b.Nodup)
    (hcollision : sha.NoCollision
      {message | message ∈ merkleInputs sha a ∨ message ∈ merkleInputs sha b})
    (h : merkleRoot sha a = merkleRoot sha b) : a = b := by
  have hempty : ∀ c, [] ∈ merkleInputs sha c := fun c => List.mem_cons_self ..
  by_cases hane : a = []
  · by_contra hne
    obtain ⟨message, hmessage, hmne, hroot⟩ :=
      exists_message_of_merkleRoot sha b (fun hb => hne (hane.trans hb.symm))
    rw [hane, hroot] at h
    exact hmne (hcollision.eq_of_hexdigest (Or.inl (hempty a)) (Or.inr hmessage) h).symm
  by_cases hbne : b = []
  · obtain ⟨message, hmessage, hmne, hroot⟩ := exists_message_of_merkleRoot sha a hane
    rw [hbne, hroot] at h
    exact absurd (hcollision.eq_of_hexdigest (Or.inl hmessage) (Or.inr (hempty b)) h) hmne
  have hleaf : Set.InjOn (receiptLeaf sha) {x | x ∈ a ∨ x ∈ b} := by
    intro x hx y hy hxy
    exact canonicalJson_asdict_injective x y (hcollision
      (hx.imp (canonicalJson_mem_merkleInputs sha a x) (canonicalJson_mem_merkleInputs sha b x))
      (hy.imp (canonicalJson_mem_merkleInputs sha a y) (canonicalJson_mem_merkleInputs sha b y))
      hxy)
  have hleaves : a.map (receiptLeaf sha) = b.map (receiptLeaf sha) := by
    apply climb_injective (hashNode_injOn sha _ hcollision)
    · simpa using hane
    · simpa using hbne
    · exact ha.map_on (fun x hx y hy => hleaf (Or.inl hx) (Or.inl hy))
    · exact hb.map_on (fun x hx y hy => hleaf (Or.inr hx) (Or.inr hy))
    · exact hashedPairs_digestPair sha a _ (fun _ hm => Or.inl hm)
    · exact hashedPairs_digestPair sha b _ (fun _ hm => Or.inr hm)
    · intro leaf hmem p hp
      rcases hmem with hmem | hmem
      · exact receiptLeaf_ne_hashNode sha a _ (fun _ hm => Or.inl hm) hcollision leaf hmem p hp
      · exact receiptLeaf_ne_hashNode sha b _ (fun _ hm => Or.inr hm) hcollision leaf hmem p hp
    · have hneA : a.map (receiptLeaf sha) ≠ [] := by simpa using hane
      have hneB : b.map (receiptLeaf sha) ≠ [] := by simpa using hbne
      obtain ⟨rootA, hrootA⟩ := climb_singleton sha _ hneA
      obtain ⟨rootB, hrootB⟩ := climb_singleton sha _ hneB
      rw [merkleRoot_of_climb sha a rootA hane hrootA,
        merkleRoot_of_climb sha b rootB hbne hrootB] at h
      rw [hrootA, hrootB, hex_injective h]
  exact map_injective_on _ _ hleaf a b (fun _ hx => Or.inl hx) (fun _ hx => Or.inr hx) hleaves

def sampleReceipt (n : ℕ) : Receipt :=
  Receipt.create Sha256.sample "ab" "ann" "model" n (n + 38) [1, 2] "2025-01-01T00:00:00+00:00"

/-- A batch of two receipts and the batch itself read back from the catalog. -/
theorem merkleRoot_injective_sample :
    merkleRoot Sha256.sample [sampleReceipt 1, sampleReceipt 2] =
        merkleRoot Sha256.sample ([2, 1].reverse.map sampleReceipt) ∧
      [sampleReceipt 1, sampleReceipt 2] =
        [2, 1].reverse.map sampleReceipt := by
  refine ⟨rfl, merkleRoot_injective Sha256.sample _ _ (by decide) (by decide) ?_ rfl⟩
  have hlist := Sha256.noCollision_of_list Sha256.sample
    (merkleInputs Sha256.sample ([2, 1].reverse.map sampleReceipt)) (by decide +kernel)
  simpa using hlist

end Decillion.StorageReceipts
