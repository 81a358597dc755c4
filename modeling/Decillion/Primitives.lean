import Decillion.ByteText
import Mathlib.Algebra.Group.Nat.Defs
import Mathlib.Data.Set.Function

/-!
The cryptographic functions the programs call: a hash with outputs of 32 octets,
authenticated encryption with a 16-octet tag, signatures and keyed tags. Each comes with
the documented laws only. That a hash has no collision is a hypothesis about the finite
set of messages hashed, and that a tag or signature was not forged is a hypothesis about
the values presented.
-/
namespace Decillion.Primitives

open ByteText

structure Sha256 where
  digest : Bytes → Bytes
  digest_length : ∀ message, (digest message).length = 32

def Sha256.hexdigest (sha : Sha256) (message : Bytes) : String := hex (sha.digest message)

/-- No two of the given messages have one digest. -/
def Sha256.NoCollision (sha : Sha256) (messages : Set Bytes) : Prop :=
  Set.InjOn sha.digest messages

theorem Sha256.hexdigest_length (sha : Sha256) (message : Bytes) :
    (sha.hexdigest message).length = 64 := by
  rw [hexdigest, hex_length, sha.digest_length]

theorem Sha256.head_hexdigest (sha : Sha256) (message : Bytes) (rest : String) :
    (sha.hexdigest message ++ rest).toList.head? ≠ some '.' := by
  have hlength := sha.digest_length message
  cases hdigest : sha.digest message with
  | nil => rw [hdigest] at hlength; simp at hlength
  | cons b more =>
    have hdigit : ∀ d, d < 16 → Nat.digitChar d ≠ '.' := by decide
    have hlt := b.toNat_lt
    have hchars : (sha.hexdigest message ++ rest).toList.head? =
        some (Nat.digitChar (b.toNat / 16)) := by
      rw [hexdigest, hdigest, String.toList_append, hex, String.toList_ofList]
      rfl
    rw [hchars]
    exact fun h => hdigit _ (by omega) (Option.some.inj h)

theorem Sha256.digest_of_hexdigest (sha : Sha256) {message other : Bytes}
    (h : sha.hexdigest message = sha.hexdigest other) : sha.digest message = sha.digest other :=
  hex_injective h

theorem Sha256.NoCollision.eq_of_hexdigest {sha : Sha256} {messages : Set Bytes}
    (hcollision : sha.NoCollision messages) {message other : Bytes} (hmessage : message ∈ messages)
    (hother : other ∈ messages) (h : sha.hexdigest message = sha.hexdigest other) :
    message = other :=
  hcollision hmessage hother (sha.digest_of_hexdigest h)

theorem Sha256.noCollision_of_list (sha : Sha256) (messages : List Bytes)
    (h : ∀ a ∈ messages, ∀ b ∈ messages, sha.digest a = sha.digest b → a = b) :
    sha.NoCollision {message | message ∈ messages} :=
  fun a ha b hb hab => h a ha b hb hab

/-- AES-GCM with 32-octet keys and 12-octet nonces; a failed check of the tag is `none`. -/
structure AesGcm where
  encrypt : (key nonce plaintext context : Bytes) → Bytes
  decrypt : (key nonce ciphertext context : Bytes) → Option Bytes
  decrypt_encrypt : ∀ key nonce plaintext context, key.length = 32 → nonce.length = 12 →
    decrypt key nonce (encrypt key nonce plaintext context) context = some plaintext
  encrypt_length : ∀ key nonce plaintext context,
    (encrypt key nonce plaintext context).length = plaintext.length + 16

structure Ed25519 where
  publicKey : (secret : Bytes) → Bytes
  sign : (secret message : Bytes) → Bytes
  verify : (key signature message : Bytes) → Bool
  verify_sign : ∀ secret message, verify (publicKey secret) (sign secret message) message = true

/-- A key of 32 octets derived from a passphrase. -/
structure Scrypt where
  derive : (salt passphrase : Bytes) → Bytes
  derive_length : ∀ salt passphrase, (derive salt passphrase).length = 32

structure HmacSha256 where
  tag : (key message : Bytes) → Bytes
  tag_length : ∀ key message, (tag key message).length = 32

def HmacSha256.hexdigest (hmac : HmacSha256) (key message : Bytes) : String :=
  hex (hmac.tag key message)

theorem HmacSha256.hexdigest_length (hmac : HmacSha256) (key message : Bytes) :
    (hmac.hexdigest key message).length = 64 := by
  rw [hexdigest, hex_length, hmac.tag_length]

/-- No two of the given messages have one tag under the key. -/
def HmacSha256.NoCollision (hmac : HmacSha256) (key : Bytes) (messages : Set Bytes) : Prop :=
  Set.InjOn (hmac.tag key) messages

theorem HmacSha256.noCollision_of_list (hmac : HmacSha256) (key : Bytes) (messages : List Bytes)
    (h : ∀ a ∈ messages, ∀ b ∈ messages, hmac.tag key a = hmac.tag key b → a = b) :
    hmac.NoCollision key {message | message ∈ messages} :=
  fun a ha b hb hab => h a ha b hb hab

/-- A digest that can be evaluated: the octets as digits of a number below `2 ^ 256`. -/
def mix (message : Bytes) : ℕ :=
  message.foldl (fun acc b => (acc * 1000003 + b.toNat + 1) % 2 ^ 256) 7

/-- The lowest `count` octets of a number, the last one lowest. -/
def octets (count n : ℕ) : Bytes :=
  (List.range count).map (fun i => UInt8.ofNat (n / 256 ^ (count - 1 - i)))

theorem octets_length (count n : ℕ) : (octets count n).length = count := by simp [octets]

/-- The last octet tells numbers below 256 apart. -/
theorem octets_inj {count i j : ℕ} (hcount : 0 < count) (hi : i < 256) (hj : j < 256)
    (h : octets count i = octets count j) : i = j := by
  have hlast : ∀ n, (octets count n).getLast? = some (UInt8.ofNat n) := by
    intro n
    obtain ⟨k, rfl⟩ := Nat.exists_eq_succ_of_ne_zero (Nat.pos_iff_ne_zero.mp hcount)
    simp [octets, List.range_succ]
  have hoctets := congrArg List.getLast? h
  rw [hlast, hlast, Option.some.injEq] at hoctets
  have hnat := congrArg UInt8.toNat hoctets
  simp only [UInt8.toNat_ofNat'] at hnat
  omega

def Sha256.sample : Sha256 where
  digest := fun message => octets 32 (mix message)
  digest_length := fun _ => octets_length 32 _

def AesGcm.sample : AesGcm where
  encrypt := fun key nonce plaintext context =>
    plaintext ++ octets 16 (mix (key ++ nonce ++ context ++ plaintext))
  decrypt := fun key nonce ciphertext context =>
    let plaintext := ciphertext.take (ciphertext.length - 16)
    if ciphertext.drop (ciphertext.length - 16) =
        octets 16 (mix (key ++ nonce ++ context ++ plaintext)) then some plaintext else none
  decrypt_encrypt := by
    intro key nonce plaintext context _ _
    simp [octets_length]
  encrypt_length := by simp [octets_length]

def Ed25519.sample : Ed25519 where
  publicKey := fun secret => secret
  sign := fun secret message => octets 64 (mix (secret ++ message))
  verify := fun key signature message => signature = octets 64 (mix (key ++ message))
  verify_sign := by simp

theorem Ed25519.sign_of_verify_sample (secret signature message : Bytes)
    (h : Ed25519.sample.verify (Ed25519.sample.publicKey secret) signature message = true) :
    Ed25519.sample.sign secret message = signature :=
  (of_decide_eq_true h).symm

def Scrypt.sample : Scrypt where
  derive := fun salt passphrase => octets 32 (mix (salt ++ passphrase))
  derive_length := fun _ _ => octets_length 32 _

def HmacSha256.sample : HmacSha256 where
  tag := fun key message => octets 32 (mix (key ++ message))
  tag_length := fun _ _ => octets_length 32 _

end Decillion.Primitives
