import Decillion.JsonStrings
import Decillion.StorageEngine

/-!
A receipt binds the download to one upload. The files may have been changed by anybody
before and between the uploads and before the download, and the receipt, the owner, the
name and the attestation may be arbitrary; a download that returns gives the plaintext of
an earlier upload of this owner and this name, which returned this receipt.
-/
namespace Decillion.StorageBinding

open ByteText Base64Text JsonStrings Primitives PyErrors Programs HostSystem HostRules
  StorageReceipts
  StorageEngine

/-- An upload cut off after a number of operations, or a change of the files by anybody. -/
inductive Event where
  | upload (owner filename : String) (plaintext : Bytes) (budget : ℕ)
  | change (files : Path → Option Bytes)

/-- An upload that has returned, and the object it has stored. -/
structure Returned where
  owner : String
  filename : String
  plaintext : Bytes
  receipt : Receipt
  payload : Bytes

variable {F : Type} (crypto : Crypto) (engine : SovereignStorage) (env : Env F)

def step (state : Host × List Returned) : Event → Host × List Returned
  | .upload owner filename plaintext budget =>
      let ended := run (handle env) budget (upload crypto engine owner filename plaintext) state.1
      match ended.1 with
      | some (.ok receipt) =>
          let payload := (ended.2.files (objectPath engine.root receipt.objectId)).getD []
          (ended.2, state.2 ++ [⟨owner, filename, plaintext, receipt, payload⟩])
      | _ => (ended.2, state.2)
  | .change files => ({ state.1 with files := files }, state.2)

/-- The uploads of a history that have returned. -/
def history (start : Host) (events : List Event) : List Returned :=
  (events.foldl (step crypto engine env) (start, [])).2

variable {env}

/-- The messages an upload has hashed. -/
def Returned.hashed (call : Returned) : List Bytes :=
  [call.payload, encode call.filename, canonicalJson (.obj call.receipt.unsigned)]

/-- The messages a download hashes. -/
def downloadHashed (files : Path → Option Bytes) (receipt : Receipt) (filename : String) :
    List Bytes :=
  [canonicalJson (.obj receipt.unsigned), encode filename] ++
    (files (objectPath engine.root receipt.objectId)).toList

def Returned.Honest (call : Returned) : Prop :=
  Uploaded crypto engine call.owner call.filename call.plaintext call.receipt call.payload

variable (env) in
theorem holds_uploaded (owner filename : String) (plaintext : Bytes) (s : Host) :
    Holds (handle env) (fun _ => True)
      (fun result s' => ∀ receipt, result = .ok receipt → Uploaded crypto engine owner filename
        plaintext receipt ((s'.files (objectPath engine.root receipt.objectId)).getD []))
      (upload crypto engine owner filename plaintext) s := by
  apply holds_upload
  · exact fun _ _ => trivial
  · simp
  · intro receipt payload s' hreplaced huploaded receipt' hreceipt
    obtain rfl := Except.ok.inj hreceipt
    rw [hreplaced.1]
    exact huploaded

theorem honest_step (state : Host × List Returned) (event : Event)
    (h : ∀ call ∈ state.2, call.Honest crypto engine) :
    ∀ call ∈ (step crypto engine env state event).2, call.Honest crypto engine := by
  cases event with
  | change files => exact h
  | upload owner filename plaintext budget =>
    have hrun := run_holds _ _ state.1 budget
      (holds_uploaded crypto engine env owner filename plaintext state.1)
    simp only [step]
    rcases hrun with ⟨result, hresult, hpost⟩ | ⟨hcut, -⟩
    · cases result with
      | error e => simpa [hresult] using h
      | ok receipt =>
        rw [hresult]
        intro call hcall
        rcases List.mem_append.mp hcall with hold | hnew
        · exact h call hold
        · rw [List.mem_singleton.mp hnew]
          exact hpost receipt rfl
    · simpa [hcut] using h

theorem honest_history (start : Host) (events : List Event) :
    ∀ call ∈ history crypto engine env start events, call.Honest crypto engine := by
  suffices h : ∀ state : Host × List Returned, (∀ call ∈ state.2, call.Honest crypto engine) →
      ∀ call ∈ (events.foldl (step crypto engine env) state).2, call.Honest crypto engine from
    h (start, []) (by simp)
  induction events with
  | nil => exact fun _ h => h
  | cons event rest ih => exact fun state h => ih _ (honest_step crypto engine state event h)

/-- A download that returns gives back what an earlier upload of the same owner and name was
given, and that upload returned the receipt up to the spelling of its signature. -/
theorem download_bound (start : Host) (events : List Event) (files : Path → Option Bytes)
    (receipt : Receipt) (owner filename : String) (attestation : Option String) (plaintext : Bytes)
    (hunforged : ∀ signature, crypto.ed.verify (crypto.ed.publicKey engine.privateKey) signature
      (receipt.digest crypto.sha) = true → ∃ call ∈ history crypto engine env start events,
        call.receipt.digest crypto.sha = receipt.digest crypto.sha ∧
        crypto.ed.sign engine.privateKey (call.receipt.digest crypto.sha) = signature)
    (hcollision : crypto.sha.NoCollision
      {message | (∃ call ∈ history crypto engine env start events, message ∈ call.hashed) ∨
        message ∈ downloadHashed engine files receipt filename})
    (h : download crypto engine files receipt owner filename attestation = .ok plaintext) :
    ∃ call ∈ history crypto engine env start events,
      call.owner = owner ∧ call.filename = filename ∧ call.plaintext = plaintext ∧
        receipt = { call.receipt with signature := receipt.signature } ∧
        b64decodeValidate receipt.signature = b64decodeValidate call.receipt.signature := by
  obtain ⟨hverify, howner, hname, payload, hfile, hpayload⟩ := download_ok files attestation h
  obtain ⟨signature, hsignature, hvalid⟩ : ∃ signature,
      b64decodeValidate receipt.signature = some signature ∧ crypto.ed.verify
        (crypto.ed.publicKey engine.privateKey) signature (receipt.digest crypto.sha) = true := by
    unfold verifyReceipt at hverify
    split at hverify
    · simp at hverify
    · rename_i signature hdecoded
      exact ⟨signature, hdecoded, hverify⟩
  obtain ⟨call, hcall, hdigest, hsigned⟩ := hunforged signature hvalid
  have hhonest := honest_history crypto engine start events call hcall
  have hunsigned : canonicalJson (.obj call.receipt.unsigned) =
      canonicalJson (.obj receipt.unsigned) :=
    hcollision (Or.inl ⟨call, hcall, by simp [Returned.hashed]⟩)
      (Or.inr (by simp [downloadHashed])) hdigest
  have hreceipt := canonicalJson_unsigned_injective receipt call.receipt hunsigned.symm
  have hfields : receipt.objectId = call.receipt.objectId ∧ receipt.owner = call.receipt.owner ∧
      receipt.originalNameHash = call.receipt.originalNameHash := by
    rw [hreceipt]
    exact ⟨rfl, rfl, rfl⟩
  have hsameOwner : call.owner = owner := by
    rw [← howner, hfields.2.1, hhonest.ownerField]
  have hsameName : call.filename = filename := by
    rw [hfields.2.2, hhonest.nameField] at hname
    exact encode_injective (hcollision.eq_of_hexdigest
      (Or.inl ⟨call, hcall, by simp [Returned.hashed]⟩) (Or.inr (by simp [downloadHashed])) hname)
  have hsamePayload : payload = call.payload := by
    rw [hfields.1, hhonest.objectId] at hpayload
    exact hcollision.eq_of_hexdigest (Or.inr (by simp [downloadHashed, hfile]))
      (Or.inl ⟨call, hcall, by simp [Returned.hashed]⟩) hpayload
  have hopened : download crypto engine files receipt owner filename attestation =
      if engine.keys.requireAttestation = true ∧ ¬ given attestation then
        .error (.attestation "valid attestation is required before key release")
      else .ok call.plaintext := by
    have henveloped := hhonest.toEnveloped.resigned receipt.signature
    rw [← hreceipt, hsameOwner, hsameName, ← hsamePayload] at henveloped
    exact download_enveloped henveloped files hfile hverify attestation
  refine ⟨call, hcall, hsameOwner, hsameName, ?_, hreceipt, ?_⟩
  · rw [hopened] at h
    split at h
    · simp at h
    · exact Except.ok.inj h
  · rw [hsignature, hhonest.signed, b64decodeValidate_encode, hsigned]

def sampleEnv : Env WholeFloat :=
  Env.sample (fun _ => false) (fun tick => ⟨tick⟩) (fun _ => none)

/-- Somebody fills the store before the upload. -/
def sampleEvents : List Event :=
  [.change (fun path => if path.length < 3 then some [7] else none),
    .upload "ann" "model.bin" [1, 2, 3] 100]

def sampleState : Host × List Returned :=
  sampleEvents.foldl (step Crypto.sample SovereignStorage.sample sampleEnv) (Host.empty, [])

def sampleReceipt : Receipt :=
  ((sampleState.2.map Returned.receipt).head?).getD
    (Receipt.create Sha256.sample "" "" "" 0 0 [] "")

theorem download_bound_sample :
    download Crypto.sample SovereignStorage.sample sampleState.1.files sampleReceipt
      "ann" "model.bin"
        (some "tee") = .ok [1, 2, 3] ∧
      ∃ call ∈ sampleState.2, call.owner = "ann" ∧ call.plaintext = [1, 2, 3] ∧
        sampleReceipt = { call.receipt with signature := sampleReceipt.signature } := by
  have hdownload :
      download Crypto.sample SovereignStorage.sample sampleState.1.files sampleReceipt "ann"
      "model.bin" (some "tee") = .ok [1, 2, 3] := by decide +kernel
  obtain ⟨call, hcall⟩ : ∃ call, sampleState.2.head? = some call :=
    Option.isSome_iff_exists.mp (by decide +kernel)
  have hmem : call ∈ sampleState.2 := List.mem_of_head? hcall
  have hreceipt : sampleReceipt = call.receipt := by
    simp [sampleReceipt, hcall]
  have hcollision := Sha256.noCollision_of_list Sha256.sample
    (sampleState.2.flatMap Returned.hashed ++
      downloadHashed SovereignStorage.sample sampleState.1.files sampleReceipt "model.bin")
    (by decide +kernel)
  have hset : Crypto.sample.sha.NoCollision
      {message | (∃ call ∈ sampleState.2, message ∈ call.hashed) ∨
        message ∈ downloadHashed SovereignStorage.sample sampleState.1.files sampleReceipt
          "model.bin"} := by
    refine hcollision.mono ?_
    rintro message (⟨other, hother, hmessage⟩ | hmessage)
    · exact List.mem_append_left _ (List.mem_flatMap.mpr ⟨other, hother, hmessage⟩)
    · exact List.mem_append_right _ hmessage
  obtain ⟨found, hfound, howner, -, hplaintext, hsame, -⟩ := download_bound Crypto.sample
    SovereignStorage.sample Host.empty sampleEvents sampleState.1.files sampleReceipt
      "ann" "model.bin"
    (some "tee") [1, 2, 3] (fun signature hvalid =>
      ⟨call, hmem, congrArg _ hreceipt.symm, (congrArg _ (congrArg _ hreceipt.symm)).trans
        (Ed25519.sign_of_verify_sample _ _ _ hvalid)⟩)
    hset hdownload
  exact ⟨hdownload, found, hfound, howner, hplaintext, hsame⟩

end Decillion.StorageBinding
