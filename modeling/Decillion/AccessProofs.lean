import Decillion.AccessRequests
import Decillion.MerklePaths
import Decillion.PyErrors
import Decillion.StorageReceipts

/-!
Proofs of membership in a list of leaves. The proof of a leaf is accepted whatever the
hash function, and an accepted proof of the height of the tree leads from the leaf of its
position.
-/
namespace Decillion.AccessProofs

open ByteText Primitives PyErrors MerkleTrees MerklePaths AccessRequests

open StorageReceipts (hashNode DigestPair hashNode_injOn climb_singleton)

/-- `_hash(left + right)` -/
def hashPair (hash : Bytes → Bytes) (left right : Bytes) : Bytes := hash (left ++ right)

/-- `merkle_root` with any hash function. -/
def rootOf (hash : Bytes → Bytes) (leaves : List Bytes) : Bytes :=
  if leaves.isEmpty then List.replicate 32 0
  else (climb (hashPair hash) leaves.length leaves).headD []

theorem rootOf_digest (sha : Sha256) (leaves : List Bytes) :
    rootOf sha.digest leaves = merkleRoot sha leaves := rfl

def merkleProof (hash : Bytes → Bytes) (leaves : List Bytes) (index : ℤ) :
    Except PyError (List (Bytes × String)) :=
  if 0 ≤ index ∧ index < leaves.length then
    match siblings (hashPair hash) leaves.length leaves index.toNat with
    | some proof => .ok proof
    | none => .error (.indexError index)
  else .error (.indexError index)

def verifyMerkle (hash : Bytes → Bytes) (leaf : Bytes) (proof : List (Bytes × String))
    (root : Bytes) : Bool := fold (hashPair hash) leaf proof = root

theorem merkleProof_eq_ok {hash : Bytes → Bytes} {leaves : List Bytes} {index : ℤ}
    {proof : List (Bytes × String)} (h : merkleProof hash leaves index = .ok proof) :
    siblings (hashPair hash) leaves.length leaves index.toNat = some proof := by
  unfold merkleProof at h
  split at h
  · split at h
    · rename_i hproof
      rw [hproof, Except.ok.inj h]
    · simp at h
  · simp at h

/-- Every leaf has a proof, and it is accepted. -/
theorem verifyMerkle_merkleProof (hash : Bytes → Bytes) (leaves : List Bytes) (index : ℕ)
    (hindex : index < leaves.length) :
    ∃ proof, merkleProof hash leaves index = .ok proof ∧
      verifyMerkle hash leaves[index] proof (rootOf hash leaves) = true := by
  obtain ⟨proof, hproof, hroot⟩ := fold_siblings (hashPair hash) leaves.length leaves index
    leaves[index] le_rfl (List.getElem?_eq_getElem hindex)
  refine ⟨proof, ?_, ?_⟩
  · rw [merkleProof, if_pos (by omega), Int.toNat_natCast, hproof]
  · have hne : leaves.isEmpty = false := by
      rw [List.isEmpty_eq_false_iff, ← List.length_pos_iff]
      omega
    rw [verifyMerkle, rootOf, hne, hroot]
    exact decide_eq_true rfl

def sampleLeaves : List Bytes := [1, 2, 3].map (fun n => List.replicate 32 n)

theorem verifyMerkle_merkleProof_sample :
    2 < sampleLeaves.length ∧ ∃ proof, merkleProof Sha256.sample.digest sampleLeaves 2 =
      .ok proof ∧ verifyMerkle Sha256.sample.digest sampleLeaves[2] proof
        (rootOf Sha256.sample.digest sampleLeaves) = true :=
  ⟨by decide, verifyMerkle_merkleProof _ _ 2 (by decide)⟩

theorem forall_foldedPairs {D : Type*} (node : D → D → D) (good : D → Prop)
    (hnode : ∀ x y, good (node x y)) (x : D) (path : List (D × String)) (hx : good x)
    (hpath : ∀ step ∈ path, good step.1) :
    ∀ p ∈ foldedPairs node x path, good p.1 ∧ good p.2 := by
  induction path generalizing x with
  | nil => simp [foldedPairs]
  | cons step path ih =>
    intro p hp
    have hstep := hpath step List.mem_cons_self
    rcases List.mem_cons.mp hp with rfl | hp
    · split
      · exact ⟨hx, hstep⟩
      · exact ⟨hstep, hx⟩
    · refine ih _ ?_ (fun step h => hpath step (List.mem_cons_of_mem _ h)) p hp
      unfold joined
      split
      · exact hnode _ _
      · exact hnode _ _

/-- What is hashed for the root of a tree and along a proof. -/
def proofInputs (sha : Sha256) (leaves : List Bytes) (x : Bytes) (proof : List (Bytes × String)) :
    List Bytes :=
  (hashedPairs (hashNode sha) leaves.length leaves ++ foldedPairs (hashNode sha) x proof).map
    (fun p => p.1 ++ p.2)

/-- An accepted proof of the right height leads from the leaf of its position. -/
theorem verifyMerkle_sound (sha : Sha256) (leaves : List Bytes) (x : Bytes)
    (proof honest : List (Bytes × String)) (hne : leaves ≠ [])
    (hleaves : ∀ leaf ∈ leaves, leaf.length = 32) (hx : x.length = 32)
    (hproof : ∀ step ∈ proof, step.1.length = 32)
    (hhonest : merkleProof sha.digest leaves 0 = .ok honest)
    (hheight : proof.length = honest.length)
    (hcollision : sha.NoCollision {message | message ∈ proofInputs sha leaves x proof})
    (haccepted : verifyMerkle sha.digest x proof (merkleRoot sha leaves) = true) :
    leaves[leafAt leaves.length leaves.length (position proof)]? = some x ∧
      (position proof < leaves.length → leaves[position proof]? = some x) ∧ x ∈ leaves := by
  have hempty : leaves.isEmpty = false := by simpa using hne
  have hlengths := forall_hashedPairs (hashNode sha) (fun d => d.length = 32)
    (fun a b => sha.digest_length (a ++ b)) leaves.length leaves hleaves
  have hfolded := forall_foldedPairs (hashNode sha) (fun d => d.length = 32)
    (fun a b => sha.digest_length (a ++ b)) x proof hx hproof
  have hlevels := siblings_length _ _ _ _ _ (merkleProof_eq_ok hhonest)
  have hroot : climb (hashNode sha) leaves.length leaves = [fold (hashNode sha) x proof] := by
    obtain ⟨root, hroot⟩ := climb_singleton sha leaves hne
    have hfold : fold (hashNode sha) x proof = merkleRoot sha leaves :=
      of_decide_eq_true haccepted
    have hmerkle : merkleRoot sha leaves =
        (climb (hashNode sha) leaves.length leaves).headD [] := by
      rw [merkleRoot, hempty]
      rfl
    rw [hfold, hmerkle, hroot]
    rfl
  have hleaf := leaf_of_fold (hashNode sha) (hashNode_injOn sha _ hcollision) leaves.length leaves
    proof x hne le_rfl (hheight.trans hlevels)
    (fun p hp => ⟨(hlengths p hp).1, (hlengths p hp).2,
      List.mem_map.mpr ⟨p, List.mem_append_left _ hp, rfl⟩⟩)
    (fun p hp => ⟨(hfolded p hp).1, (hfolded p hp).2,
      List.mem_map.mpr ⟨p, List.mem_append_right _ hp, rfl⟩⟩) hroot
  refine ⟨hleaf, fun hposition => ?_, List.mem_of_getElem? hleaf⟩
  rwa [leafAt_of_lt _ _ _ le_rfl hposition] at hleaf

/-- A proof whose position lies in the padding. -/
def paddedProof : List (Bytes × String) :=
  [(List.replicate 32 3, "left"),
    (Sha256.sample.digest (List.replicate 32 1 ++ List.replicate 32 2), "left")]

theorem verifyMerkle_sound_sample :
    sampleLeaves[leafAt 3 3 (position paddedProof)]? = some (List.replicate 32 3) ∧
      (position paddedProof < 3 →
        sampleLeaves[position paddedProof]? = some (List.replicate 32 3)) ∧
      List.replicate 32 3 ∈ sampleLeaves :=
  verifyMerkle_sound Sha256.sample sampleLeaves (List.replicate 32 3) paddedProof
    (((merkleProof Sha256.sample.digest sampleLeaves 0).toOption).getD []) (by decide) (by decide)
    (by decide) (by decide +kernel) (by decide +kernel) (by decide +kernel)
    (Sha256.noCollision_of_list _ _ (by decide +kernel)) (by decide +kernel)

end Decillion.AccessProofs
