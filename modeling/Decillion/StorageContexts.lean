import Decillion.StorageEngine

/-!
The associated data of the storage engine. The digest at its end has a fixed length, so the
owner is what is left between the front and the last separator, whatever characters it has, and
the digest stands for the filename. A wrapped key or a ciphertext is opened only under the data
that it was made with.
-/
namespace Decillion.StorageContexts

open ByteText Base64Text Primitives PyErrors StorageReceipts StorageEngine

/-- What is encrypted with one of the contexts is decrypted with no other one. -/
def Bound (aes : AesGcm) (key nonce plaintext : Bytes) (contexts : Set Bytes) : Prop :=
  ∀ ctx ∈ contexts, ∀ other ∈ contexts, ∀ opened,
    aes.decrypt key nonce (aes.encrypt key nonce plaintext ctx) other = some opened → ctx = other

/-- The contexts of two pairs of names. -/
def contexts (sha : Sha256) (owner filename owner' filename' : String) : Set Bytes :=
  {context sha owner filename, context sha owner' filename'}

theorem context_parts (sha : Sha256) {owner filename owner' filename' : String}
    (h : context sha owner filename = context sha owner' filename') :
    owner = owner' ∧ sha.digest (encode filename) = sha.digest (encode filename') := by
  have hlength :
      (sha.digest (encode filename)).length = (sha.digest (encode filename')).length := by
    rw [sha.digest_length, sha.digest_length]
  obtain ⟨hfront, hdigest⟩ := List.append_inj' h hlength
  refine ⟨?_, hdigest⟩
  rw [List.append_cancel_right_eq, List.append_cancel_left_eq] at hfront
  exact encode_injective hfront

theorem context_injective {sha : Sha256} {owner filename owner' filename' : String}
    (hcollision : sha.NoCollision {encode filename, encode filename'})
    (h : context sha owner filename = context sha owner' filename') :
    owner = owner' ∧ filename = filename' := by
  obtain ⟨howner, hdigest⟩ := context_parts sha h
  exact ⟨howner, encode_injective (hcollision (Or.inl rfl) (Or.inr rfl) hdigest)⟩

section Opening

variable {crypto : Crypto} {key nonce plaintext ctx other : Bytes}

/-- A key that is unwrapped was wrapped with the same context. -/
theorem unwrap_bound {keys : LocalKeyProvider} {opened : Bytes} {attestation : Option String}
    (hnonce : nonce.length = 12)
    (hbound : Bound crypto.aes keys.masterKey nonce plaintext {ctx, other})
    (h : unwrap crypto keys (nonce ++ crypto.aes.encrypt keys.masterKey nonce plaintext ctx) other
      attestation = .ok opened) : ctx = other := by
  unfold unwrap at h
  split at h
  · cases h
  split at h
  · cases h
  rw [List.take_left' hnonce, List.drop_left' hnonce] at h
  cases hopened : aesDecrypt crypto.aes keys.masterKey nonce
      (crypto.aes.encrypt keys.masterKey nonce plaintext ctx) other with
  | error e =>
    rw [hopened] at h
    cases h
  | ok found =>
    exact hbound ctx (Or.inl rfl) other (Or.inr rfl) found (decrypt_of_aesDecrypt hopened)

/-- A payload that is decrypted was encrypted with the same context. -/
theorem decryptPayload_bound {opened : Bytes} (hnonce : nonce.length = 12)
    (hbound : Bound crypto.aes key nonce plaintext {ctx, other})
    (h : decryptPayload crypto key (magic ++ nonce ++ crypto.aes.encrypt key nonce plaintext ctx)
      other = .ok opened) : ctx = other := by
  have hslice : ((magic ++ nonce ++ crypto.aes.encrypt key nonce plaintext ctx).drop
      magic.length).take 12 = nonce := by
    rw [List.append_assoc, List.drop_left, List.take_left' hnonce]
  have hrest : (magic ++ nonce ++ crypto.aes.encrypt key nonce plaintext ctx).drop
      (magic.length + 12) = crypto.aes.encrypt key nonce plaintext ctx := by
    rw [← hnonce, ← List.length_append, List.drop_left]
  rw [decryptPayload] at h
  simp only [hslice, hrest] at h
  split at h
  · cases h
  · cases h
  · rename_i found hfound
    exact hbound ctx (Or.inl rfl) other (Or.inr rfl) found (decrypt_of_aesDecrypt hfound)

end Opening

/-- A download with the wrapped key of an upload is a download of its owner and filename. -/
theorem download_names {crypto : Crypto} {engine : SovereignStorage}
    {owner filename owner' filename' : String} {plaintext payload opened : Bytes}
    {receipt receipt' : Receipt} {files : Path → Option Bytes}
    {attestation : Option String}
    (hcollision : crypto.sha.NoCollision {encode filename, encode filename'})
    (hbound : ∀ dataKey nonce, Bound crypto.aes engine.keys.masterKey nonce dataKey
      (contexts crypto.sha owner filename owner' filename'))
    (hupload : Enveloped crypto engine owner filename plaintext receipt payload)
    (hkey : receipt'.wrappedKey = receipt.wrappedKey)
    (h : download crypto engine files receipt' owner' filename' attestation = .ok opened) :
    owner = owner' ∧ filename = filename' := by
  obtain ⟨dataKey, nonce, wrapNonce, -, -, hwrap, -, hwrapped⟩ := hupload.sealed
  have hbytes : wrappedBytes receipt' = .ok (wrapNonce ++ crypto.aes.encrypt engine.keys.masterKey
      wrapNonce dataKey (context crypto.sha owner filename)) := by
    rw [wrappedBytes, hkey, hwrapped, urlsafeB64decode_encode]
  obtain ⟨⟨⟩, -, h⟩ := bind_eq_ok h
  obtain ⟨found, -, h⟩ := bind_eq_ok h
  obtain ⟨⟨⟩, -, h⟩ := bind_eq_ok h
  obtain ⟨wrapped, hread, h⟩ := bind_eq_ok h
  obtain ⟨key, hopened, -⟩ := bind_eq_ok h
  obtain rfl := Except.ok.inj (hbytes.symm.trans hread)
  exact context_injective hcollision (unwrap_bound hwrap (hbound dataKey wrapNonce) hopened)

/-- Two pairs of names with one context are one pair, so what is wrapped or encrypted for one
pair is not opened under another one. -/
theorem context_unambiguous (crypto : Crypto) (owner filename owner' filename' : String)
    (hcollision : crypto.sha.NoCollision {encode filename, encode filename'}) :
    (context crypto.sha owner filename = context crypto.sha owner' filename' →
      owner = owner' ∧ filename = filename') ∧
    (∀ (keys : LocalKeyProvider) (dataKey nonce opened : Bytes) (attestation : Option String),
      nonce.length = 12 →
      Bound crypto.aes keys.masterKey nonce dataKey
        (contexts crypto.sha owner filename owner' filename') →
      unwrap crypto keys (nonce ++ crypto.aes.encrypt keys.masterKey nonce dataKey
        (context crypto.sha owner filename)) (context crypto.sha owner' filename') attestation =
          .ok opened → owner = owner' ∧ filename = filename') ∧
    ∀ dataKey nonce plaintext opened : Bytes, nonce.length = 12 →
      Bound crypto.aes dataKey nonce plaintext
        (contexts crypto.sha owner filename owner' filename') →
      decryptPayload crypto dataKey (magic ++ nonce ++ crypto.aes.encrypt dataKey nonce plaintext
        (context crypto.sha owner filename)) (context crypto.sha owner' filename') = .ok opened →
          owner = owner' ∧ filename = filename' := by
  refine ⟨context_injective hcollision, ?_, ?_⟩
  · intro keys dataKey nonce opened attestation hnonce hbound h
    exact context_injective hcollision (unwrap_bound hnonce hbound h)
  · intro dataKey nonce plaintext opened hnonce hbound h
    exact context_injective hcollision (decryptPayload_bound hnonce hbound h)

section Samples

/-- A key of the engine, which is also a data key here. -/
def sampleKey : Bytes := octets 32 1

def sampleKeys : LocalKeyProvider := ⟨sampleKey, false, octets_length 32 1⟩

/-- Owners that differ in a NUL only, which is also the separator. -/
def sampleContext : Bytes := context Sha256.sample "a" "f"

def sampleOther : Bytes := context Sha256.sample "a\x00" "f"

theorem sample_noCollision : Sha256.sample.NoCollision {encode "f", encode "f"} := by
  rintro _ (rfl | rfl) _ (rfl | rfl) _ <;> rfl

theorem sample_bound : Bound AesGcm.sample sampleKey (octets 12 2) sampleKey
    (contexts Sha256.sample "a" "f" "a\x00" "f") := by
  have hforth : AesGcm.sample.decrypt sampleKey (octets 12 2)
      (AesGcm.sample.encrypt sampleKey (octets 12 2) sampleKey sampleContext) sampleOther =
        none := by
    decide +kernel
  have hback : AesGcm.sample.decrypt sampleKey (octets 12 2)
      (AesGcm.sample.encrypt sampleKey (octets 12 2) sampleKey sampleOther) sampleContext =
        none := by
    decide +kernel
  rintro _ (rfl | rfl) _ (rfl | rfl) opened h
  · rfl
  · exact absurd (hforth.symm.trans h) (by simp)
  · exact absurd (hback.symm.trans h) (by simp)
  · rfl

theorem context_unambiguous_sample : sampleContext ≠ sampleOther ∧
    (∀ attestation opened, unwrap Crypto.sample sampleKeys (octets 12 2 ++
      AesGcm.sample.encrypt sampleKey (octets 12 2) sampleKey sampleContext) sampleOther
        attestation ≠
        .ok opened) ∧
    ∀ opened, decryptPayload Crypto.sample sampleKey (magic ++ octets 12 2 ++
      AesGcm.sample.encrypt sampleKey (octets 12 2) sampleKey sampleContext) sampleOther ≠
        .ok opened := by
  obtain ⟨hcontext, hwrapped, hpayload⟩ :=
    context_unambiguous Crypto.sample "a" "f" "a\x00" "f" sample_noCollision
  have howner : ¬ ("a" = "a\x00" ∧ "f" = "f") := by decide
  refine ⟨fun h => howner (hcontext h), fun attestation opened h => ?_, fun opened h => ?_⟩
  · exact howner (hwrapped sampleKeys sampleKey (octets 12 2) opened attestation
      (octets_length 12 2) sample_bound h)
  · exact howner (hpayload sampleKey (octets 12 2) sampleKey opened (octets_length 12 2)
      sample_bound h)

end Samples

end Decillion.StorageContexts
