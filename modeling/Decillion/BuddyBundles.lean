import Decillion.BuddyGates
import Decillion.JsonObjects

/-!
The bundles that the proof service verifies. The certificate is checked against the digests of
the contract and the attempt, its receipt and two signatures, over a body that is read back from
the certificate without its signature and receipt. A bundle with the key of the service is
accepted when the service has issued it, in whatever order its members are, and no other one is.
-/
namespace Decillion.BuddyBundles

open AccessRequests BuddyGates BuddyProofs ByteText JsonObjects JsonRoundTrip JsonStrings JsonText
  JsonValues Primitives PyCollections PyErrors PyValues

variable {F : Type} [FloatNumber F]

section Finite

theorem allFiniteMembers_eq (members : Members F) :
    allFiniteMembers members = members.all (fun member => isFinite member.2) := by
  induction members with
  | nil => rfl
  | cons member rest ih => rw [allFiniteMembers, ih, List.all_cons]

mutual

theorem isFinite_sortKeys : (value : Json F) → isFinite (sortKeys value) = isFinite value
  | .list items => by rw [sortKeys, isFinite, isFinite, allFinite_sortItems items]
  | .obj members => by
    have hperm := List.perm_insertionSort keyLe (sortMembers members)
    rw [sortKeys, isFinite, isFinite, ← allFinite_sortMembers members, allFiniteMembers_eq,
      allFiniteMembers_eq, hperm.all_eq]
  | .null => rfl
  | .bool _ => rfl
  | .int _ => rfl
  | .float _ => rfl
  | .str _ => rfl

theorem allFinite_sortItems : (items : List (Json F)) → allFinite (sortItems items) =
    allFinite items
  | [] => rfl
  | x :: xs => by
    rw [sortItems, allFinite, allFinite, isFinite_sortKeys x, allFinite_sortItems xs]

theorem allFinite_sortMembers : (members : Members F) → allFiniteMembers (sortMembers members) =
    allFiniteMembers members
  | [] => rfl
  | (k, v) :: rest => by
    rw [sortMembers, allFiniteMembers, allFiniteMembers, isFinite_sortKeys v,
      allFinite_sortMembers rest]

end

end Finite

variable [FloatText F]

/-- `value.items()` -/
def itemsOf : Json F → Except PyError (Members F)
  | .obj members => .ok members
  | _ => .error .attributeError

def isSigned (key : String) : Bool := decide (key ≠ "signature" ∧ key ≠ "ur1_receipt")

/-- The body of a certificate. -/
def signedBody (cert : Members F) : Members F := cert.filter (fun member => isSigned member.1)

/-- `Ed25519PublicKey.from_public_bytes(bytes.fromhex(key)).verify(bytes.fromhex(signature),
message)` -/
def verifySignature (ed : Ed25519) (key signature : Json F) (message : Bytes) :
    Except PyError Unit :=
  match key, signature with
  | .str key, .str signature =>
      if signatureValid ed key signature message then .ok ()
      else .error (.valueError "invalid signature")
  | _, _ => .error .typeError

/-- `if condition: raise ValueError(message)` -/
def refuse (condition : Bool) (message : String) : Except PyError Unit :=
  if condition then .error (.valueError message) else .ok ()

def signedPair (contract attempt : Json F) : Json F :=
  .obj [("contract", contract), ("attempt", attempt)]

def checkBundle (sha : Sha256) (ed : Ed25519) (bundle : Members F) : Except PyError Unit := do
  let c ← item bundle "contract"
  let a ← item bundle "attempt"
  let value ← item bundle "certification"
  let cert ← itemsOf value
  let body := signedBody cert
  let contractHash ← item body "contract_hash"
  let hash ← digest sha c
  refuse (!equalsStr contractHash hash) "mismatched digest"
  let attemptHash ← item body "attempt_hash"
  let hash ← digest sha a
  refuse (!equalsStr attemptHash hash) "mismatched digest"
  let receipt ← item cert "ur1_receipt"
  let hash ← digest sha (.obj body)
  refuse (!equalsStr receipt ("urn:ur1:" ++ hash)) "receipt mismatch"
  let issuer ← item body "issuer_public_key"
  let signature ← item cert "signature"
  let message ← canon (.obj body)
  verifySignature ed issuer signature message
  let reviewer ← item body "reviewer_public_key"
  let reviewed ← item body "reviewer_signature"
  let message ← canon (signedPair c a)
  verifySignature ed reviewer reviewed message

structure Verdict where
  integrityVerified : Bool
  revocationChecked : Bool
  externalAnchorVerified : Bool

/-- Every exception is a verdict. -/
def verify (sha : Sha256) (ed : Ed25519) (bundle : Members F) : Verdict :=
  match checkBundle sha ed bundle with
  | .ok () => ⟨true, false, false⟩
  | .error _ => ⟨false, false, false⟩

/-- The dictionary that `submit` returns. -/
def toDict (bundle : Bundle F) : Members F :=
  [("contract", .obj bundle.contract), ("attempt", .obj bundle.attempt),
    ("certification", .obj bundle.certification)]

section Canon

theorem canon_sameValue {v w : Json F} (h : SameValue v w) : canon v = canon w := by
  have hfinite : isFinite v = isFinite w := by
    rw [← isFinite_sortKeys v, ← isFinite_sortKeys w, h]
  rw [canon, canon, hfinite, dumpsSorted, dumpsSorted, h]

theorem digest_sameValue (sha : Sha256) {v w : Json F} (h : SameValue v w) :
    digest sha v = digest sha w := by
  rw [digest, digest, canon_sameValue h]

end Canon

section Checks

omit [FloatText F] [FloatNumber F] in
theorem refuse_same {message : String} (text : String) :
    refuse (!equalsStr (.str text : Json F) text) message = .ok () := by
  rw [equalsStr_str, decide_eq_true rfl]
  rfl

variable {sha : Sha256} {ed : Ed25519} {bundle : Members F}

theorem refuse_ok {condition : Bool} {message : String} (h : refuse condition message = .ok ()) :
    condition = false := by
  unfold refuse at h
  split at h
  · cases h
  · rwa [Bool.not_eq_true] at *

omit [FloatText F] [FloatNumber F] in
theorem verifySignature_ok {key signature : Json F} {message : Bytes}
    (h : verifySignature ed key signature message = .ok ()) : ∃ keyText signatureText,
      key = .str keyText ∧ signature = .str signatureText ∧
        signatureValid ed keyText signatureText message = true := by
  unfold verifySignature at h
  split at h
  · split at h
    · exact ⟨_, _, rfl, rfl, ‹_›⟩
    · cases h
  · cases h

/-- What holds of a bundle that is accepted. -/
structure Accepted (sha : Sha256) (ed : Ed25519) (bundle : Members F) (c a : Json F)
    (cert : Members F) : Prop where
  contract : bundle.lookup "contract" = some c
  attempt : bundle.lookup "attempt" = some a
  certification : bundle.lookup "certification" = some (.obj cert)
  contractHash : ∃ hash, digest sha c = .ok hash ∧
    (signedBody cert).lookup "contract_hash" = some (.str hash)
  attemptHash : ∃ hash, digest sha a = .ok hash ∧
    (signedBody cert).lookup "attempt_hash" = some (.str hash)
  receipt : ∃ hash, digest sha (.obj (signedBody cert)) = .ok hash ∧
    cert.lookup "ur1_receipt" = some (.str ("urn:ur1:" ++ hash))
  issuer : ∃ key signature message,
    (signedBody cert).lookup "issuer_public_key" = some (.str key) ∧
    cert.lookup "signature" = some (.str signature) ∧
    canon (.obj (signedBody cert)) = .ok message ∧ signatureValid ed key signature message = true
  reviewer : ∃ key signature message,
    (signedBody cert).lookup "reviewer_public_key" = some (.str key) ∧
    (signedBody cert).lookup "reviewer_signature" = some (.str signature) ∧
    canon (signedPair c a) = .ok message ∧ signatureValid ed key signature message = true

omit [FloatText F] [FloatNumber F] in
theorem lookup_of_equalsStr {members : Members F} {key text : String} {value : Json F}
    (hitem : item members key = .ok value) (h : refuse (!equalsStr value text) message = .ok ()) :
    members.lookup key = some (.str text) := by
  have hequal : equalsStr value text = true := by simpa using refuse_ok h
  rw [item_ok.mp hitem, eq_of_equalsStr hequal]

theorem accepted_iff : checkBundle sha ed bundle = .ok () ↔
    ∃ c a cert, Accepted sha ed bundle c a cert := by
  constructor
  · intro h
    obtain ⟨c, hc, h⟩ := bind_eq_ok h
    obtain ⟨a, ha, h⟩ := bind_eq_ok h
    obtain ⟨value, hvalue, h⟩ := bind_eq_ok h
    obtain ⟨cert, hcert, h⟩ := bind_eq_ok h
    obtain ⟨contractHash, hcontractHash, h⟩ := bind_eq_ok h
    obtain ⟨hash, hhash, h⟩ := bind_eq_ok h
    obtain ⟨⟨⟩, hcontract, h⟩ := bind_eq_ok h
    obtain ⟨attemptHash, hattemptHash, h⟩ := bind_eq_ok h
    obtain ⟨hash', hhash', h⟩ := bind_eq_ok h
    obtain ⟨⟨⟩, hattempt, h⟩ := bind_eq_ok h
    obtain ⟨receipt, hreceipt, h⟩ := bind_eq_ok h
    obtain ⟨hash'', hhash'', h⟩ := bind_eq_ok h
    obtain ⟨⟨⟩, hreceipted, h⟩ := bind_eq_ok h
    obtain ⟨issuer, hissuer, h⟩ := bind_eq_ok h
    obtain ⟨signature, hsignature, h⟩ := bind_eq_ok h
    obtain ⟨message, hmessage, h⟩ := bind_eq_ok h
    obtain ⟨⟨⟩, hissued, h⟩ := bind_eq_ok h
    obtain ⟨reviewer, hreviewer, h⟩ := bind_eq_ok h
    obtain ⟨reviewed, hreviewed, h⟩ := bind_eq_ok h
    obtain ⟨message', hmessage', hverified⟩ := bind_eq_ok h
    obtain ⟨key, text, rfl, rfl, hvalid⟩ := verifySignature_ok hissued
    obtain ⟨key', text', rfl, rfl, hvalid'⟩ := verifySignature_ok hverified
    have hobj : value = .obj cert := by
      cases value with
      | obj members => exact congrArg Json.obj (Except.ok.inj hcert)
      | _ => cases hcert
    refine ⟨c, a, cert, item_ok.mp hc, item_ok.mp ha, hobj ▸ item_ok.mp hvalue,
      ⟨hash, hhash, lookup_of_equalsStr hcontractHash hcontract⟩,
      ⟨hash', hhash', lookup_of_equalsStr hattemptHash hattempt⟩,
      ⟨hash'', hhash'', lookup_of_equalsStr hreceipt hreceipted⟩,
      ⟨key, text, message, item_ok.mp hissuer, item_ok.mp hsignature, hmessage, hvalid⟩,
      ⟨key', text', message', item_ok.mp hreviewer, item_ok.mp hreviewed, hmessage', hvalid'⟩⟩
  · rintro ⟨c, a, cert, h⟩
    obtain ⟨hash, hhash, hcontractHash⟩ := h.contractHash
    obtain ⟨hash', hhash', hattemptHash⟩ := h.attemptHash
    obtain ⟨hash'', hhash'', hreceipt⟩ := h.receipt
    obtain ⟨key, text, message, hissuer, hsignature, hmessage, hvalid⟩ := h.issuer
    obtain ⟨key', text', message', hreviewer, hreviewed, hmessage', hvalid'⟩ := h.reviewer
    rw [checkBundle, item_ok.mpr h.contract, ok_bind, item_ok.mpr h.attempt, ok_bind,
      item_ok.mpr h.certification, ok_bind, itemsOf, ok_bind]
    dsimp only
    rw [item_ok.mpr hcontractHash, ok_bind, hhash, ok_bind, refuse_same, ok_bind,
      item_ok.mpr hattemptHash, ok_bind, hhash', ok_bind, refuse_same, ok_bind,
      item_ok.mpr hreceipt, ok_bind, hhash'', ok_bind, refuse_same, ok_bind,
      item_ok.mpr hissuer, ok_bind, item_ok.mpr hsignature, ok_bind, hmessage, ok_bind,
      verifySignature, if_pos hvalid, ok_bind, item_ok.mpr hreviewer, ok_bind,
      item_ok.mpr hreviewed, ok_bind, hmessage', ok_bind, verifySignature, if_pos hvalid']

theorem verify_iff : (verify sha ed bundle).integrityVerified = true ↔
    ∃ c a cert, Accepted sha ed bundle c a cert := by
  rw [← accepted_iff]
  unfold verify
  split
  · rename_i h
    exact iff_of_true rfl h
  · rename_i e h
    refine iff_of_false Bool.false_ne_true fun hok => ?_
    cases h.symm.trans hok

end Checks

section Orders

variable {sha : Sha256} {ed : Ed25519} {bundle others : Members F}

omit [FloatText F] [FloatNumber F] in
theorem sameValue_signedPair {c a c' a' : Json F} (hc : SameValue c c') (ha : SameValue a a') :
    SameValue (signedPair c a) (signedPair c' a') := by
  have hsorted : ∀ c a : Json F, sortKeys (signedPair c a) =
      .obj [("attempt", sortKeys a), ("contract", sortKeys c)] := by
    intro c a
    simp [signedPair, sortKeys, sortMembers, List.insertionSort, List.orderedInsert, keyLe]
  rw [SameValue, hsorted, hsorted, hc, ha]

omit [FloatText F] [FloatNumber F] in
theorem distinct_signedBody {cert : Members F} (h : DistinctKeys (.obj cert)) :
    DistinctKeys (.obj (signedBody cert)) :=
  distinctKeys_filter _ h

/-- The order of the members of a bundle does not matter. -/
theorem accepted_sameValue (hkeys : DistinctKeys (.obj bundle))
    (hkeys' : DistinctKeys (.obj others))
    (hsame : SameValue (.obj bundle) (.obj others)) {c a : Json F} {cert : Members F}
    (h : Accepted sha ed bundle c a cert) : ∃ c' a' cert', Accepted sha ed others c' a' cert' := by
  obtain ⟨c', hcontract, hc⟩ := lookup_sameValue hkeys.1 hkeys'.1 hsame h.contract
  obtain ⟨a', hattempt, ha⟩ := lookup_sameValue hkeys.1 hkeys'.1 hsame h.attempt
  obtain ⟨value, hcertification, hvalue⟩ :=
    lookup_sameValue hkeys.1 hkeys'.1 hsame h.certification
  obtain ⟨cert', rfl⟩ := obj_of_sameValue hvalue
  have hcert := distinctKeys_lookup hkeys h.certification
  have hcert' := distinctKeys_lookup hkeys' hcertification
  have hbody : SameValue (.obj (signedBody cert)) (.obj (signedBody cert')) :=
    sameValue_filter isSigned hcert.1 hvalue
  have htext : ∀ {key text : String}, cert.lookup key = some (.str text) →
      cert'.lookup key = some (.str text) := text_sameValue hcert.1 hcert'.1 hvalue
  have htext' : ∀ {key text : String}, (signedBody cert).lookup key = some (.str text) →
      (signedBody cert').lookup key = some (.str text) :=
    text_sameValue (distinct_signedBody hcert).1 (distinct_signedBody hcert').1 hbody
  refine ⟨c', a', cert', hcontract, hattempt, hcertification, ?_, ?_, ?_, ?_, ?_⟩
  · obtain ⟨hash, hhash, hclaimed⟩ := h.contractHash
    exact ⟨hash, digest_sameValue sha hc ▸ hhash, htext' hclaimed⟩
  · obtain ⟨hash, hhash, hclaimed⟩ := h.attemptHash
    exact ⟨hash, digest_sameValue sha ha ▸ hhash, htext' hclaimed⟩
  · obtain ⟨hash, hhash, hclaimed⟩ := h.receipt
    exact ⟨hash, digest_sameValue sha hbody ▸ hhash, htext hclaimed⟩
  · obtain ⟨key, signature, message, hkey, hsignature, hmessage, hvalid⟩ := h.issuer
    exact ⟨key, signature, message, htext' hkey, htext hsignature,
      canon_sameValue hbody ▸ hmessage, hvalid⟩
  · obtain ⟨key, signature, message, hkey, hsignature, hmessage, hvalid⟩ := h.reviewer
    exact ⟨key, signature, message, htext' hkey, htext' hsignature,
      canon_sameValue (sameValue_signedPair hc ha) ▸ hmessage, hvalid⟩

end Orders

section Issued

variable {service : Service F} {data : Submission F} {db : Database} {secret : Bytes}
  {cert : Members F}

/-- What a certificate is made of. -/
structure Certificate (service : Service F) (secret : Bytes) (contract attempt cert : Members F)
    (body : Members F) : Prop where
  contractHash : ∃ hash, digest service.sha (.obj contract) = .ok hash ∧
    body.lookup "contract_hash" = some (.str hash)
  attemptHash : ∃ hash, digest service.sha (.obj attempt) = .ok hash ∧
    body.lookup "attempt_hash" = some (.str hash)
  issuer : body.lookup "issuer_public_key" = some (.str (hex (service.ed.publicKey secret)))
  signature : ∃ message, canon (.obj body) = .ok message ∧
    cert.lookup "signature" = some (.str (hex (service.ed.sign secret message)))
  receipt : ∃ hash, digest service.sha (.obj body) = .ok hash ∧
    cert.lookup "ur1_receipt" = some (.str ("urn:ur1:" ++ hash))

omit [FloatText F] [FloatNumber F] in
theorem signedBody_certificate (contractHash attemptHash : String) (signature receipt : Json F) :
    signedBody (certificateBody service secret data contractHash attemptHash ++
      [("signature", signature), ("ur1_receipt", receipt)]) =
        certificateBody service secret data contractHash attemptHash := rfl

theorem certificate_made (h : certificate service secret data = .ok cert) :
    Certificate service secret data.contract data.attempt cert (signedBody cert) ∧
    (signedBody cert).lookup "reviewer_public_key" = some (.str data.reviewerPublicKey) ∧
    (signedBody cert).lookup "reviewer_signature" = some (.str data.reviewerSignature) := by
  obtain ⟨contractHash, hcontract, h⟩ := bind_eq_ok h
  obtain ⟨attemptHash, hattempt, h⟩ := bind_eq_ok h
  obtain ⟨message, hmessage, h⟩ := bind_eq_ok h
  obtain ⟨receipt, hreceipt, h⟩ := bind_eq_ok h
  obtain rfl := Except.ok.inj h
  rw [signedBody_certificate]
  obtain ⟨hash, hhash, rfl⟩ := map_eq_ok hreceipt
  exact ⟨⟨⟨contractHash, hcontract, rfl⟩, ⟨attemptHash, hattempt, rfl⟩, rfl,
    ⟨message, hmessage, rfl⟩, ⟨hash, hhash, rfl⟩⟩, rfl, rfl⟩

omit [FloatText F] [FloatNumber F] in
theorem distinct_getD {members : Members F} (h : DistinctKeys (.obj members)) (key : String)
    {default : Json F} (hdefault : DistinctKeys default) :
    DistinctKeys ((members.lookup key).getD default) := by
  cases hlookup : members.lookup key with
  | none => exact hdefault
  | some value => exact distinctKeys_lookup h hlookup

theorem certificate_distinct (h : certificate service secret data = .ok cert) :
    DistinctKeys (.obj cert) := by
  obtain ⟨contractHash, hcontract, h⟩ := bind_eq_ok h
  obtain ⟨attemptHash, hattempt, h⟩ := bind_eq_ok h
  obtain ⟨message, hmessage, h⟩ := bind_eq_ok h
  obtain ⟨receipt, hreceipt, h⟩ := bind_eq_ok h
  obtain rfl := Except.ok.inj h
  have hkeys : ["certificate_type", "claim_id", "claim_version", "contract_hash", "attempt_hash",
      "reviewer_public_key", "reviewer_signature", "issuer_public_key", "scope", "limits",
      "signature", "ur1_receipt"].Nodup := by decide
  exact ⟨hkeys, trivial, distinct_getD data.contract_distinct "claim_id" trivial,
    distinct_getD data.contract_distinct "claim_version" trivial, trivial, trivial,
      trivial, trivial,
    trivial, distinct_getD data.contract_distinct "scope" trivial, trivial, trivial,
      trivial, trivial⟩

theorem issued_made {b : Bundle F} {after : Database} (hsigner : service.signer = some secret)
    (h : submit service data db = .ok (b, after)) :
    certificate service secret data = .ok b.certification ∧ b.contract = data.contract ∧
      b.attempt = data.attempt := by
  obtain ⟨⟨⟩, -, h⟩ := bind_eq_ok h
  unfold issue at h
  rw [hsigner] at h
  obtain ⟨cert, hcert, h⟩ := bind_eq_ok h
  obtain ⟨stored, -, h⟩ := bind_eq_ok h
  obtain ⟨rfl, -⟩ := Prod.mk.inj (Except.ok.inj h)
  exact ⟨python_ok hcert, rfl, rfl⟩

/-- A bundle that the service has returned, whichever reviewers were registered. -/
def IssuedBy (service : Service F) (b : Bundle F) : Prop :=
  ∃ keysJson data db after, submit { service with keysJson := keysJson } data db = .ok (b, after)

theorem issuedBy_cases {b : Bundle F} (hsigner : service.signer = some secret)
    (h : IssuedBy service b) : ∃ data : Submission F,
      certificate service secret data = .ok b.certification ∧ b.contract = data.contract ∧
      b.attempt = data.attempt ∧ checkSignature service.ed data = .ok () := by
  obtain ⟨keysJson, data, db, after, h⟩ := h
  have hsigner' : { service with keysJson := keysJson }.signer = some secret := hsigner
  obtain ⟨hcert, hcontract, hattempt⟩ := issued_made hsigner' h
  exact ⟨data, hcert, hcontract, hattempt, (passed_of_submit h).signature⟩

/-- The certificate of a submission that a reviewer has signed. -/
theorem certified_accepted (hcert : certificate service secret data = .ok cert)
    (hlength : (service.ed.publicKey secret).length = 32)
    (hreviewed : checkSignature service.ed data = .ok ()) :
    Accepted service.sha service.ed (toDict ⟨data.contract, data.attempt, cert⟩)
      (.obj data.contract) (.obj data.attempt) cert := by
  obtain ⟨hmade, hreviewer, hsignature⟩ := certificate_made hcert
  obtain ⟨message, hmessage, hsigned⟩ := hmade.signature
  unfold checkSignature at hreviewed
  split at hreviewed
  · cases hreviewed
  · rename_i reviewed hpair
    exact ⟨rfl, rfl, rfl, hmade.contractHash, hmade.attemptHash, hmade.receipt,
      ⟨_, _, message, hmade.issuer, hsigned, hmessage, signatureValid_sign _ _ _ hlength⟩,
      ⟨_, _, reviewed, hreviewer, hsignature, hpair, require_ok hreviewed⟩⟩

theorem issued_accepted {b : Bundle F} (hsigner : service.signer = some secret)
    (hlength : (service.ed.publicKey secret).length = 32) (h : IssuedBy service b) :
    Accepted service.sha service.ed (toDict b) (.obj b.contract) (.obj b.attempt)
      b.certification := by
  obtain ⟨data, hcert, hcontract, hattempt, hreviewed⟩ := issuedBy_cases hsigner h
  obtain ⟨contract, attempt, cert⟩ := b
  obtain rfl : contract = data.contract := hcontract
  obtain rfl : attempt = data.attempt := hattempt
  exact certified_accepted hcert hlength hreviewed

theorem distinct_issued {b : Bundle F} (hsigner : service.signer = some secret)
    (h : IssuedBy service b) : DistinctKeys (.obj (toDict b)) ∧ DistinctKeys (.obj b.contract) ∧
      DistinctKeys (.obj b.attempt) ∧ DistinctKeys (.obj b.certification) := by
  obtain ⟨data, hcert, hcontract, hattempt, -⟩ := issuedBy_cases hsigner h
  have hc : DistinctKeys (.obj b.contract) := hcontract ▸ data.contract_distinct
  have ha : DistinctKeys (.obj b.attempt) := hattempt ▸ data.attempt_distinct
  have hcertification := certificate_distinct hcert
  have hkeys : ["contract", "attempt", "certification"].Nodup := by decide
  exact ⟨⟨hkeys, hc, ha, hcertification, trivial⟩, hc, ha, hcertification⟩

end Issued

section Exact

variable (sha : Sha256) (ed : Ed25519) (secret : Bytes) (issued : Set (Bundle F))

/-- The certificate names the key of the service. -/
def NamesService (cert : Members F) : Prop :=
  ∃ key, cert.lookup "issuer_public_key" = some (.str key) ∧
    fromHex key = some (ed.publicKey secret)

/-- A signature of the service that is valid is that of a certificate that was issued. -/
def Genuine (cert : Members F) : Prop :=
  ∀ key signature message, fromHex key = some (ed.publicKey secret) →
    cert.lookup "signature" = some (.str signature) →
    canon (.obj (signedBody cert)) = .ok message → signatureValid ed key signature message = true →
    ∃ b ∈ issued, canon (.obj (signedBody b.certification)) = .ok message

/-- What is hashed of a bundle and of those that were issued. -/
def hashed (bundle : Members F) : Set Bytes :=
  {message | ∃ value, canon value = .ok message ∧ (bundle.lookup "contract" = some value ∨
    bundle.lookup "attempt" = some value ∨
    ∃ b ∈ issued, value = .obj b.contract ∨ value = .obj b.attempt)}

/-- The contract, the attempt and the body of the certificate are those of a bundle. -/
structure SameBundle (bundle cert : Members F) (b : Bundle F) : Prop where
  contract : ∃ c, bundle.lookup "contract" = some c ∧ SameValue c (.obj b.contract)
  attempt : ∃ a, bundle.lookup "attempt" = some a ∧ SameValue a (.obj b.attempt)
  body : SameValue (.obj (signedBody cert)) (.obj (signedBody b.certification))

variable {sha ed secret issued} {bundle cert : Members F}

/-- Two values with one digest are the same. -/
theorem sameValue_of_digest {messages : Set Bytes} (hcollision : sha.NoCollision messages)
    {v w : Json F} (hv : DistinctKeys v) (hw : DistinctKeys w)
    (hmem : ∀ message, canon v = .ok message → message ∈ messages)
    (hmem' : ∀ message, canon w = .ok message → message ∈ messages) {hash : String}
    (h : digest sha v = .ok hash) (h' : digest sha w = .ok hash) : SameValue v w := by
  obtain ⟨bytes, hbytes, rfl⟩ := map_eq_ok h
  obtain ⟨bytes', hbytes', heq⟩ := map_eq_ok h'
  have hchars := congrArg String.toList heq
  rw [String.toList_append, String.toList_append] at hchars
  have hdigest := String.toList_injective (List.append_cancel_left hchars)
  obtain rfl := hcollision.eq_of_hexdigest (hmem' _ hbytes') (hmem _ hbytes) hdigest
  exact canon_injective hv hw hbytes hbytes'

omit [FloatText F] [FloatNumber F] in
theorem lookup_signedBody {key : String} (hkey : isSigned key = true)
    (hkeys : DistinctKeys (.obj cert)) {value : Json F} :
    (signedBody cert).lookup key = some value ↔ cert.lookup key = some value := by
  rw [lookup_eq_some_iff (distinct_signedBody hkeys).1, lookup_eq_some_iff hkeys.1, signedBody,
    List.mem_filter]
  exact and_iff_left hkey

/-- An accepted bundle with the key of the service is one that the service has issued. -/
theorem same_of_accepted {service : Service F} (hsigner : service.signer = some secret)
    (hissued : ∀ b ∈ issued, IssuedBy service b) (hkeys : DistinctKeys (.obj bundle)) {c a : Json F}
    (hnames : NamesService service.ed secret cert)
    (hgenuine : Genuine service.ed secret issued cert)
    (hcollision : service.sha.NoCollision (hashed issued bundle))
    (h : Accepted service.sha service.ed bundle c a cert) :
    ∃ b ∈ issued, SameBundle bundle cert b := by
  have hcert := distinctKeys_lookup hkeys h.certification
  obtain ⟨key, signature, message, hkey, hsignature, hmessage, hvalid⟩ := h.issuer
  obtain ⟨own, hown, hhex⟩ := hnames
  rw [lookup_signedBody (by decide) hcert, hown, Option.some.injEq, Json.str.injEq] at hkey
  obtain ⟨b, hb, hmade⟩ := hgenuine key signature message (hkey ▸ hhex) hsignature hmessage hvalid
  obtain ⟨-, hcontract, hattempt, hcertification⟩ := distinct_issued hsigner (hissued b hb)
  have hbody : SameValue (.obj (signedBody cert)) (.obj (signedBody b.certification)) :=
    canon_injective (distinct_signedBody hcert) (distinct_signedBody hcertification) hmessage hmade
  have htext : ∀ {key text : String}, (signedBody cert).lookup key = some (.str text) →
      (signedBody b.certification).lookup key = some (.str text) :=
    text_sameValue (distinct_signedBody hcert).1 (distinct_signedBody hcertification).1 hbody
  obtain ⟨data, hdata, hdataContract, hdataAttempt, -⟩ := issuedBy_cases hsigner (hissued b hb)
  obtain ⟨hparts, -, -⟩ := certificate_made hdata
  refine ⟨b, hb, ⟨c, h.contract, ?_⟩, ⟨a, h.attempt, ?_⟩, hbody⟩
  · obtain ⟨hash, hhash, hclaimed⟩ := h.contractHash
    obtain ⟨hash', hhash', hclaimed'⟩ := hparts.contractHash
    have heq : some (Json.str hash') = some (Json.str hash) := hclaimed'.symm.trans (htext hclaimed)
    rw [Json.str.inj (Option.some.inj heq), ← hdataContract] at hhash'
    exact sameValue_of_digest hcollision (distinctKeys_lookup hkeys h.contract) hcontract
      (fun m hm => ⟨c, hm, Or.inl h.contract⟩)
      (fun m hm => ⟨_, hm, Or.inr (Or.inr ⟨b, hb, Or.inl rfl⟩)⟩) hhash hhash'
  · obtain ⟨hash, hhash, hclaimed⟩ := h.attemptHash
    obtain ⟨hash', hhash', hclaimed'⟩ := hparts.attemptHash
    have heq : some (Json.str hash') = some (Json.str hash) := hclaimed'.symm.trans (htext hclaimed)
    rw [Json.str.inj (Option.some.inj heq), ← hdataAttempt] at hhash'
    exact sameValue_of_digest hcollision (distinctKeys_lookup hkeys h.attempt) hattempt
      (fun m hm => ⟨a, hm, Or.inr (Or.inl h.attempt)⟩)
      (fun m hm => ⟨_, hm, Or.inr (Or.inr ⟨b, hb, Or.inr rfl⟩)⟩) hhash hhash'

/-- Of the bundles with the key of the service those are accepted that it has issued, and these
however they are encoded. -/
theorem verified_exactly {service : Service F} (hsigner : service.signer = some secret)
    (hlength : (service.ed.publicKey secret).length = 32)
    (hissued : ∀ b ∈ issued, IssuedBy service b) :
    (∀ bundle cert : Members F, DistinctKeys (.obj bundle) →
      bundle.lookup "certification" = some (.obj cert) → NamesService service.ed secret cert →
      Genuine service.ed secret issued cert →
      service.sha.NoCollision (hashed issued bundle) →
      (verify service.sha service.ed bundle).integrityVerified = true →
        ∃ b ∈ issued, SameBundle bundle cert b) ∧
    (∀ b ∈ issued, ∀ text bundle, loads text = some (.obj bundle) →
      SameValue (.obj bundle) (.obj (toDict b)) →
        (verify service.sha service.ed bundle).integrityVerified = true) := by
  constructor
  · intro bundle cert hkeys hcert hnames hgenuine hcollision hverify
    obtain ⟨c, a, found, haccepted⟩ := verify_iff.mp hverify
    obtain rfl := Json.obj.inj (Option.some.inj (hcert.symm.trans haccepted.certification))
    exact same_of_accepted hsigner hissued hkeys hnames hgenuine hcollision haccepted
  · intro b hb text bundle hloads hsame
    exact verify_iff.mpr (accepted_sameValue (distinct_issued hsigner (hissued b hb)).1
      (loads_distinctKeys text _ hloads) hsame.symm
      (issued_accepted hsigner hlength (hissued b hb)))

end Exact

section Samples

def sampleMessages : List Bytes :=
  [encode (dumpsSorted compact (.obj sampleContract)),
    encode (dumpsSorted compact (.obj (sampleAttempt "")))]

theorem canon_sample {value : Json WholeFloat} {message : Bytes}
    (hvalue : value = .obj sampleContract ∨ value = .obj (sampleAttempt ""))
    (h : canon value = .ok message) : message ∈ sampleMessages := by
  rw [(canon_ok h).2]
  rcases hvalue with rfl | rfl
  · exact List.mem_cons_self
  · exact List.mem_cons_of_mem _ List.mem_cons_self

/-- The bundle that the service returns is accepted with its members sorted, and it is one that
was issued. -/
theorem verified_exactly_sample : ∃ b after,
    submit sampleService (sampleSubmission "") ⟨[], []⟩ = .ok (b, after) ∧
    (verify Sha256.sample Ed25519.sample (toDict b)).integrityVerified = true ∧
    ∃ b' ∈ ({b} : Set (Bundle WholeFloat)), SameBundle (toDict b) b.certification b' := by
  obtain ⟨⟨b, after⟩, hsubmit⟩ := exists_of_isSome issued_sample
  have hissued : ∀ b' ∈ ({b} : Set (Bundle WholeFloat)), IssuedBy sampleService b' := by
    rintro b' rfl
    exact ⟨_, _, _, _, hsubmit⟩
  have hsigner : sampleService.signer = some (octets 32 5) := rfl
  have hdistinct := distinct_issued hsigner (hissued b rfl)
  obtain ⟨hcert, hcontract, hattempt⟩ := issued_made hsigner hsubmit
  obtain ⟨hmade, -, -⟩ := certificate_made hcert
  obtain ⟨honly, hreturned⟩ := verified_exactly hsigner (octets_length 32 5) hissued
  have hverify := hreturned b rfl (dumps compact (.obj (toDict b))) (toDict b)
    (by simpa [dumps] using loads_dumps compact _ hdistinct.1 [] rfl) rfl
  refine ⟨b, after, hsubmit, hverify, honly (toDict b) b.certification hdistinct.1 rfl ?_ ?_ ?_
    hverify⟩
  · exact ⟨_, (lookup_signedBody (by decide) hdistinct.2.2.2).mp hmade.issuer, fromHex_hex _⟩
  · exact fun _ _ message _ _ hmessage _ => ⟨b, rfl, hmessage⟩
  · have hlist := Sha256.noCollision_of_list Sha256.sample sampleMessages (by decide +kernel)
    refine hlist.mono fun message hmessage => ?_
    obtain ⟨value, hcanon, hvalue⟩ := hmessage
    have hc : .obj b.contract = Json.obj sampleContract := congrArg Json.obj hcontract
    have ha : .obj b.attempt = Json.obj (sampleAttempt "") := congrArg Json.obj hattempt
    refine canon_sample ?_ hcanon
    rw [← hc, ← ha]
    rcases hvalue with hvalue | hvalue | ⟨b', rfl, hvalue⟩
    · exact Or.inl (Option.some.inj hvalue).symm
    · exact Or.inr (Option.some.inj hvalue).symm
    · exact hvalue

end Samples

end Decillion.BuddyBundles
