import Decillion.StorageGateway

/-!
What a download does when the object of a receipt has been damaged. Other bytes have another
digest and are refused before they are opened, so the answer is the plaintext or an integrity
error; an object that is gone is not refused but raises the exception of the file system.
-/
namespace Decillion.DamagedObjects

open ByteText HostSystem JsonStrings Primitives Programs PyErrors StorageEngine
  StorageGateway StorageReceipts

variable {crypto : Crypto} {engine : SovereignStorage} {owner filename : String}
  {plaintext payload : Bytes} {receipt : Receipt} {files : Path → Option Bytes}
  {attestation : Option String}

/-- The bytes of the upload, or an integrity error that the gateway reports with status 409. -/
def Safe (crypto : Crypto) (engine : SovereignStorage) (files : Path → Option Bytes)
    (receipt : Receipt) (owner filename : String) (attestation : Option String)
    (plaintext : Bytes) : Prop :=
  download crypto engine files receipt owner filename attestation = .ok plaintext ∨
    ∃ message,
      download crypto engine files receipt owner filename attestation =
        .error (.integrity message) ∧
      ∀ s : Host, s.files = files →
        getReceipt s.rows receipt.objectId = .ok (some receipt) →
        fetchObject crypto engine s receipt.objectId owner filename attestation =
          .error (.http 409 message)

theorem fetchObject_refused {s : Host} {message : String} (hfiles : s.files = files)
    (hget : getReceipt s.rows receipt.objectId = .ok (some receipt))
    (h : download crypto engine files receipt owner filename attestation =
      .error (.integrity message)) :
    fetchObject crypto engine s receipt.objectId owner filename attestation =
      .error (.http 409 message) := by
  rw [fetchObject, hget]
  simp only [hfiles, h]
  rfl

theorem checkReceipt_uploaded
    (h : Uploaded crypto engine owner filename plaintext receipt payload) :
    checkReceipt crypto engine receipt owner filename = .ok () := by
  rw [checkReceipt, h.verified, if_neg (by simp), if_neg (by simp [h.ownerField]),
    if_neg (by simp [h.nameField])]

/-- A download after the receipt is checked begins with the file of the object. -/
theorem download_missing (h : Uploaded crypto engine owner filename plaintext receipt payload)
    (hfile : files (objectPath engine.root receipt.objectId) = none) :
    download crypto engine files receipt owner filename attestation =
      .error (.python .fileNotFound) := by
  have hpath := checkedPath_hexdigest crypto.sha engine.root payload
  rw [← h.objectId] at hpath
  have hread : getObject engine.root files receipt.objectId = .error (.python .fileNotFound) := by
    rw [getObject, hpath, ok_bind, hfile]
  rw [download, checkReceipt_uploaded h, ok_bind, hread]
  rfl

/-- Bytes with another digest are not opened. -/
theorem download_replaced (attestation : Option String)
    (h : Uploaded crypto engine owner filename plaintext receipt payload)
    {content : Bytes} (hfile : files (objectPath engine.root receipt.objectId) = some content)
    (hdigest : crypto.sha.hexdigest content ≠ receipt.objectId) :
    download crypto engine files receipt owner filename attestation =
      .error (.integrity "stored ciphertext digest does not match receipt") := by
  have hpath := checkedPath_hexdigest crypto.sha engine.root payload
  rw [← h.objectId] at hpath
  have hread : getObject engine.root files receipt.objectId = .ok content := by
    rw [getObject, hpath, ok_bind, hfile]
  have hcheck : checkEnvelope crypto receipt content =
      .error (.integrity "stored ciphertext digest does not match receipt") := if_pos hdigest
  rw [download, checkReceipt_uploaded h, ok_bind, hread, ok_bind, hcheck]
  rfl

/-- The upload that has returned a receipt has left its object in the store. -/
theorem stored_of_upload {F : Type} {env : Env F} {budget : ℕ} {s s' : Host}
    (hupload : run (handle env) budget (upload crypto engine owner filename plaintext) s =
      (some (.ok receipt), s')) :
    ∃ payload, Uploaded crypto engine owner filename plaintext receipt payload ∧
      s'.files (objectPath engine.root receipt.objectId) = some payload := by
  have hholds : Holds (handle env) (fun _ => True)
      (fun result s' => ∀ receipt, result = .ok receipt →
        ∃ payload, Uploaded crypto engine owner filename plaintext receipt payload ∧
          s'.files (objectPath engine.root receipt.objectId) = some payload)
      (upload crypto engine owner filename plaintext) s := by
    apply holds_upload
    · exact fun _ _ => trivial
    · simp
    · intro receipt payload s' hreplaced huploaded receipt' hreceipt
      obtain rfl := Except.ok.inj hreceipt
      exact ⟨payload, huploaded, hreplaced.1⟩
  rcases run_holds _ _ s budget hholds with ⟨result, hresult, hpost⟩ | ⟨hcut, -⟩
  · rw [hupload] at hresult hpost
    exact hpost receipt (Option.some.inj hresult).symm
  · rw [hupload] at hcut
    cases hcut

/-- A download of an uploaded object is safe exactly when the file of the object is there. -/
theorem safe_iff {F : Type} {env : Env F} {budget : ℕ} {s s' : Host}
    (hupload : run (handle env) budget (upload crypto engine owner filename plaintext) s =
      (some (.ok receipt), s'))
    (hattested : engine.keys.requireAttestation = true → given attestation)
    (hcollision : crypto.sha.NoCollision
      {message | s'.files (objectPath engine.root receipt.objectId) = some message ∨
        files (objectPath engine.root receipt.objectId) = some message}) :
    Safe crypto engine files receipt owner filename attestation plaintext ↔
      files (objectPath engine.root receipt.objectId) ≠ none := by
  obtain ⟨payload, huploaded, hpayload⟩ := stored_of_upload hupload
  cases hfile : files (objectPath engine.root receipt.objectId) with
  | none =>
    refine iff_of_false ?_ (fun h => h rfl)
    rintro (hok | ⟨message, herror, -⟩)
    · rw [download_missing huploaded hfile] at hok
      cases hok
    · rw [download_missing huploaded hfile] at herror
      cases herror
  | some content =>
    refine iff_of_true ?_ (by simp)
    by_cases hdigest : crypto.sha.hexdigest content = receipt.objectId
    · left
      obtain rfl : content = payload := hcollision.eq_of_hexdigest (Or.inr hfile)
        (Or.inl hpayload) (hdigest.trans huploaded.objectId)
      have hopened := download_enveloped huploaded.toEnveloped files hfile huploaded.verified
        attestation
      rw [if_neg (fun h => h.2 (hattested h.1))] at hopened
      exact hopened
    · have hrefused := download_replaced attestation huploaded hfile hdigest
      exact Or.inr ⟨_, hrefused, fun s hfiles hget => fetchObject_refused hfiles hget hrefused⟩

/-- An upload of three bytes. -/
def sampleEnded : Option (Except StorageError Receipt) × Host :=
  run (handle sampleEnv) 100 (upload Crypto.sample SovereignStorage.sample "ann"
    "model.bin" [1, 2, 3])
    Host.empty

def returned : Option (Except StorageError Receipt) → Option Receipt
  | some (.ok receipt) => some receipt
  | _ => none

theorem eq_of_returned {ended : Option (Except StorageError Receipt) × Host} {receipt : Receipt}
    (h : returned ended.1 = some receipt) : ended = (some (.ok receipt), ended.2) := by
  obtain ⟨result, s⟩ := ended
  unfold returned at h
  split at h
  · rename_i found hfound
    obtain rfl := Option.some.inj h
    exact Prod.ext hfound rfl
  · cases h

theorem sample_returned : (returned sampleEnded.1).isSome = true := by decide +kernel

theorem exists_sample : ∃ receipt, sampleEnded = (some (.ok receipt), sampleEnded.2) := by
  obtain ⟨receipt, hreceipt⟩ := Option.isSome_iff_exists.mp sample_returned
  exact ⟨receipt, eq_of_returned hreceipt⟩

/-- The untouched store has the object. -/
theorem safe_iff_sample : ∃ receipt,
    (Safe Crypto.sample SovereignStorage.sample sampleEnded.2.files receipt "ann" "model.bin"
      (some "tee")
        [1, 2, 3] ↔
      sampleEnded.2.files (objectPath SovereignStorage.sample.root receipt.objectId) ≠ none) := by
  obtain ⟨receipt, hupload⟩ := exists_sample
  refine ⟨receipt, safe_iff hupload (fun _ => by decide) ?_⟩
  rintro first (hfirst | hfirst) second (hsecond | hsecond) -
  all_goals exact Option.some.inj (hfirst.symm.trans hsecond)

/-- The object is deleted after the upload. -/
theorem deleted_object_escapes : ∃ receipt,
    sampleEnded = (some (.ok receipt), sampleEnded.2) ∧
      download Crypto.sample SovereignStorage.sample (fun _ => none) receipt "ann" "model.bin"
        (some "tee") =
        .error (.python .fileNotFound) ∧
      ¬ Safe Crypto.sample SovereignStorage.sample (fun _ => none) receipt "ann" "model.bin"
        (some "tee")
        [1, 2, 3] := by
  obtain ⟨receipt, hupload⟩ := exists_sample
  obtain ⟨payload, huploaded, -⟩ := stored_of_upload hupload
  have hmissing :
      download Crypto.sample SovereignStorage.sample (fun _ => none) receipt "ann" "model.bin"
      (some "tee") = .error (.python .fileNotFound) := download_missing huploaded rfl
  refine ⟨receipt, hupload, hmissing, ?_⟩
  rintro (hok | ⟨message, herror, -⟩)
  · rw [hmissing] at hok
    cases hok
  · rw [hmissing] at herror
    cases herror

end Decillion.DamagedObjects
