import Decillion.Dictionaries
import Decillion.JsonRoundTrip
import Decillion.MerkleTrees
import Decillion.Primitives
import Mathlib.Data.List.Dedup
import Mathlib.Data.Rat.Defs
import Mathlib.Algebra.Order.Field.Rat

/-!
Access control of the vault: signed requests with a timestamp and a nonce, the bounded
table of nonces that have been seen, and the lists of keys allowed for each model. Points
in time are rational numbers, which are compared exactly; what is added up is rounded, and
rounding keeps the order. A timestamp that is a floating-point number may also be infinite
or not a number, and then every comparison is false.
-/
namespace Decillion.AccessRequests

open ByteText JsonValues JsonText JsonStrings JsonRoundTrip MerkleTrees Primitives Dictionaries

/-- Sorted keys, compact, characters as they are. -/
def canonical {F : Type} [FloatText F] (value : Json F) : Bytes :=
  utf8 (dump compactUnicode 0 (sortKeys value))

/-- The octets say what the value is, up to the order of the keys. -/
theorem canonical_injective {F : Type} [FloatText F] {v w : Json F} (hv : DistinctKeys v)
    (hw : DistinctKeys w) (h : canonical v = canonical w) : SameValue v w := by
  rw [canonical, canonical, ← encode_ofList, ← encode_ofList] at h
  exact dumpsSorted_injective compactUnicode hv hw (encode_injective h)

/-- `merkle_root`; 32 zeros for no leaf. -/
def merkleRoot (sha : Sha256) (leaves : List Bytes) : Bytes :=
  if leaves.isEmpty then List.replicate 32 0
  else (climb (fun a b => sha.digest (a ++ b)) leaves.length leaves).headD []

/-- What a floating-point number says as a point in time. -/
inductive Instant where
  | at (time : ℚ)
  | infinite
  | nan

/-- What the floating-point numbers say about time, and how they are added. -/
class FloatTime (F : Type) where
  instant : F → Instant
  sum : ℚ → ℚ → ℚ
  sum_mono : ∀ t, Monotone (fun s => sum s t)

instance : FloatTime WholeFloat where
  instant := fun x => .at x.value
  sum := fun s t => s + t
  sum_mono := fun _ _ _ h => Rat.add_le_add_right.mpr h

/-- Sums are not rounded. -/
def ExactSums (F : Type) [FloatTime F] : Prop := ∀ s t : ℚ, FloatTime.sum F s t = s + t

@[simp]
theorem sum_wholeFloat (s t : ℚ) : FloatTime.sum WholeFloat s t = s + t := rfl

theorem exactSums_wholeFloat : ExactSums WholeFloat := sum_wholeFloat

/-- `abs(time.time() - timestamp) > max_skew_s` -/
def outOfWindow (F : Type) [FloatTime F] (now maxSkew : ℚ) : Instant → Bool
  | .at time => maxSkew < |FloatTime.sum F now (-time)|
  | .infinite => true
  | .nan => false

/-- The key and the signature are spelled in hexadecimal digits; no exception is raised. -/
def signatureValid (ed : Ed25519) (key signature : String) (message : Bytes) : Bool :=
  match fromHex key, fromHex signature with
  | some key, some signature => key.length = 32 && ed.verify key signature message
  | _, _ => false

structure AccessRequest (F : Type) where
  requesterPubkey : String
  modelId : String
  purpose : String
  nonce : String
  timestamp : F
  signature : String

variable {F : Type} [FloatText F] [FloatTime F]

def AccessRequest.unsigned (req : AccessRequest F) : Json F :=
  .obj [("requester_pubkey", .str req.requesterPubkey), ("model_id", .str req.modelId),
    ("purpose", .str req.purpose), ("nonce", .str req.nonce), ("timestamp", .float req.timestamp)]

def maxSkew : ℚ := 300

def verifyRequest (ed : Ed25519) (now : ℚ) (req : AccessRequest F) : Bool × String :=
  if req.modelId = "" ∨ req.purpose = "" ∨ req.nonce.length < 16 then
    (false, "required field is missing or invalid")
  else if outOfWindow F now maxSkew (FloatTime.instant req.timestamp) then
    (false, "timestamp out of window")
  else if signatureValid ed req.requesterPubkey req.signature (canonical req.unsigned) then
    (true, "ok")
  else (false, "bad signature")

/-- `sign_request` with the nonce it draws and the time it reads. -/
def signRequest (ed : Ed25519) (secret : Bytes) (modelId purpose nonce : String) (timestamp : F) :
    AccessRequest F :=
  let body : AccessRequest F :=
    ⟨hex (ed.publicKey secret), modelId, purpose, nonce, timestamp, ""⟩
  { body with signature := hex (ed.sign secret (canonical body.unsigned)) }

theorem signatureValid_sign (ed : Ed25519) (secret message : Bytes)
    (hlength : (ed.publicKey secret).length = 32) :
    signatureValid ed (hex (ed.publicKey secret)) (hex (ed.sign secret message))
      message = true := by
  simp only [signatureValid, fromHex_hex, hlength, ed.verify_sign]
  rfl

/-- A request passes the check of its signer's own signature inside the window. -/
theorem verifyRequest_signRequest (ed : Ed25519) (secret : Bytes)
    (hlength : (ed.publicKey secret).length = 32) (modelId purpose nonce : String) (timestamp : F)
    (hfields : ¬ (modelId = "" ∨ purpose = "" ∨ nonce.length < 16)) (now : ℚ)
    (hwindow : outOfWindow F now maxSkew (FloatTime.instant timestamp) = false) :
    verifyRequest ed now (signRequest ed secret modelId purpose nonce timestamp) =
      (true, "ok") := by
  have hvalid := signatureValid_sign ed secret (canonical (AccessRequest.unsigned
    (⟨hex (ed.publicKey secret), modelId, purpose, nonce, timestamp, ""⟩ : AccessRequest F)))
      hlength
  simp only [AccessRequest.unsigned] at hvalid
  simp only [verifyRequest, signRequest, AccessRequest.unsigned, hfields, hwindow, hvalid, if_false,
    if_true, Bool.false_eq_true]

structure NonceCache where
  ttl : ℚ
  maxEntries : ℕ
  seen : Dict (String × String) ℚ

/-- `NonceCache()` -/
def NonceCache.new : NonceCache := ⟨600, 100000, Dict.empty⟩

namespace NonceCache

def isFull (cache : NonceCache) : Bool := cache.maxEntries ≤ cache.seen.size

def purge (cache : NonceCache) (current : ℚ) : NonceCache :=
  { cache with seen := cache.seen.filter (fun _ expiry => current < expiry) }

/-- `self._seen.get(key, 0) > current` -/
def knows (cache : NonceCache) (key : String × String) (current : ℚ) : Bool :=
  current < (cache.seen.get? key).getD 0

variable (F : Type) [FloatTime F]

def remember (cache : NonceCache) (key : String × String) (current : ℚ) : NonceCache :=
  { cache with seen := cache.seen.set key (FloatTime.sum F current cache.ttl) }

def accept (cache : NonceCache) (key : String × String) (current : ℚ) : Bool × NonceCache :=
  let look := fun cache : NonceCache =>
    if cache.knows key current then (false, cache) else (true, cache.remember F key current)
  if cache.isFull then
    let purged := cache.purge current
    if purged.isFull then (false, purged) else look purged
  else look cache

/-- A nonce that is not in the table is taken while there is room. -/
theorem accept_fresh {cache : NonceCache} {key : String × String} {current : ℚ}
    (hroom : cache.seen.size < cache.maxEntries) (hnone : cache.seen.get? key = none)
    (hmodern : 0 ≤ current) :
    cache.accept F key current = (true, cache.remember F key current) := by
  have hfull : cache.isFull = false := decide_eq_false (not_le.mpr hroom)
  have hunknown : cache.knows key current = false := by
    rw [knows, hnone]
    exact decide_eq_false (not_lt.mpr hmodern)
  simp only [accept, hfull, hunknown, Bool.false_eq_true, if_false]

end NonceCache

/-- The keys allowed for each model; `*` stands for all models. -/
structure ACL where
  rules : Dict String (List String)

namespace ACL

def listed (acl : ACL) (modelId : String) : List String := (acl.rules.get? modelId).getD []

/-- `allow`; nothing is changed when it raises an exception. -/
def allow (acl : ACL) (modelId key : String) : ACL :=
  match fromHex key with
  | some bytes =>
      if bytes.length ≠ 32 then acl
      else
        let keys := ((acl.listed modelId ++ [key]).dedup).insertionSort (· ≤ ·)
        ⟨acl.rules.set modelId keys⟩
  | none => acl

def revoke (acl : ACL) (modelId key : String) : ACL :=
  ⟨acl.rules.set modelId ((acl.listed modelId).filter (· ≠ key))⟩

def isAllowed (acl : ACL) (modelId key : String) : Bool :=
  (acl.listed "*").contains key || (acl.listed modelId).contains key

/-- `allow` raises an exception for another key. -/
def validKey (key : String) : Bool := (fromHex key).any (fun bytes => bytes.length = 32)

theorem listed_set (acl : ACL) (modelId name : String) (keys : List String) :
    listed ⟨acl.rules.set modelId keys⟩ name = if name = modelId then keys
      else acl.listed name := by
  rw [listed, Dict.get?_set]
  split
  · rfl
  · rfl

theorem mem_listed_allow (acl : ACL) (modelId key : String) (hkey : validKey key = true)
    (name other : String) : other ∈ (acl.allow modelId key).listed name ↔
      (name = modelId ∧ other = key) ∨ other ∈ acl.listed name := by
  have hallow : acl.allow modelId key = ⟨acl.rules.set modelId
      (((acl.listed modelId ++ [key]).dedup).insertionSort (· ≤ ·))⟩ := by
    unfold validKey at hkey
    unfold allow
    cases hbytes : fromHex key with
    | none => simp [hbytes] at hkey
    | some bytes => simp_all
  rw [hallow, listed_set]
  by_cases hname : name = modelId
  · subst hname
    rw [if_pos rfl, List.mem_insertionSort, List.mem_dedup]
    simp [or_comm]
  · simp [hname]

theorem allow_of_invalid (acl : ACL) (modelId key : String) (hkey : validKey key = false) :
    acl.allow modelId key = acl := by
  unfold validKey at hkey
  unfold allow
  cases hbytes : fromHex key with
  | none => rfl
  | some bytes => simp_all

theorem mem_listed_revoke (acl : ACL) (modelId key name other : String) :
    other ∈ (acl.revoke modelId key).listed name ↔
      ¬ (name = modelId ∧ other = key) ∧ other ∈ acl.listed name := by
  rw [revoke, listed_set]
  by_cases hname : name = modelId
  · subst hname
    simp [and_comm]
  · simp [hname]

theorem isAllowed_iff (acl : ACL) (modelId key : String) : acl.isAllowed modelId key = true ↔
    key ∈ acl.listed "*" ∨ key ∈ acl.listed modelId := by
  simp [isAllowed]

end ACL

end Decillion.AccessRequests
