import Decillion.BuddyBundles
import Decillion.LinkedLogs

/-!
What the tables of the proof service say when submissions are handled one after another. The
events form a chain, a claim has one certificate in a version, and the receipts of the
certificates are those of the events, each once.
-/
namespace Decillion.BuddyRecords

open AccessRequests BuddyBundles BuddyGates BuddyProofs ByteText JsonObjects JsonRoundTrip
  JsonStrings JsonText JsonValues LinkedLogs Primitives PyCollections PyErrors PyValues

section Readers

variable (F : Type) [FloatText F]

/-- The object that a column stores. -/
def stored (text : String) : Members F :=
  match loads text with
  | some (.obj members) => members
  | _ => []

def eventKind (row : EventRow) : Option String := strField "kind" (stored F row.body)

def eventPrev (row : EventRow) : Option String := strField "prev" (stored F row.body)

def eventReceipt (row : EventRow) : Option String :=
  match (stored F row.body).lookup "payload" with
  | some (.obj payload) => strField "receipt" payload
  | _ => none

def certReceipt (row : IssuedRow) : Option String := strField "ur1_receipt" (stored F row.cert)

def rowKey (row : IssuedRow) : String × String := (row.claimId, row.version)

def isIssued (row : EventRow) : Bool := decide (eventKind F row = some "issued")

def rowDigest (row : EventRow) : Option String := some row.digest

variable [FloatNumber F]

/-- What the receipts of the stored certificates are the hashes of. -/
def bodies (db : Database) : Set Bytes :=
  {message | ∃ row ∈ db.issued, ∃ cert : Members F, loads row.cert = some (.obj cert) ∧
    canon (.obj (signedBody cert)) = .ok message}

/-- The events are one chain, and they and the certificates are in one-to-one correspondence. -/
structure Consistent (sha : Sha256) (db : Database) : Prop where
  linked : Linked (eventPrev F) rowDigest (some "genesis") db.events
  digests : ∀ row ∈ db.events, ∃ body : Json F, loads row.body = some body ∧
    digest sha body = .ok row.digest
  certificates : (db.issued.map rowKey).Nodup
  receipted : ∀ row ∈ db.issued, ∃ receipt, certReceipt F row = some receipt
  receipts : (db.issued.map (certReceipt F)).Nodup
  corresponding : (db.events.filter (isIssued F)).map (eventReceipt F) =
    db.issued.map (certReceipt F)

end Readers

variable {F : Type} [FloatText F] [FloatNumber F]

/-- The databases that submissions make of the empty one, one after another. -/
inductive Reached (service : Service F) : Database → Prop where
  | empty : Reached service ⟨[], []⟩
  | submitted {db after : Database} {data : Submission F} {bundle : Bundle F}
      (keysJson : Option String) (signer : Option Bytes) (hdb : Reached service db)
      (hsubmit : submit { service with keysJson := keysJson, signer := signer } data db =
        .ok (bundle, after)) : Reached service after

section Stored

variable {members : Members F} {bytes : Bytes}

/-- What is stored of an object is the object, up to the order of its members. -/
theorem loads_canon (hkeys : DistinctKeys (.obj members)) (h : canon (.obj members) = .ok bytes) :
    ∃ others, loads ((decode bytes).getD "") = some (.obj others) ∧
      stored F ((decode bytes).getD "") = others ∧ DistinctKeys (.obj others) ∧
      SameValue (.obj members) (.obj others) := by
  obtain ⟨-, rfl⟩ := canon_ok h
  have hloads : loads (dumpsSorted compact (.obj members)) = some (sortKeys (.obj members)) := by
    have hsorted := loads_dumps compact (sortKeys (.obj members)) (sortKeys_distinctKeys _ hkeys) []
      rfl
    rwa [List.append_nil] at hsorted
  rw [decode_encode, Option.getD_some, sortKeys] at *
  refine ⟨_, hloads, ?_, loads_distinctKeys _ _ hloads, (sameValue_sortKeys (.obj members)).symm⟩
  rw [stored, hloads]

omit [FloatText F] [FloatNumber F] in
theorem strField_of_lookup {key text : String} (h : members.lookup key = some (.str text)) :
    strField key members = some text := by
  rw [strField, h]

theorem strField_stored (hkeys : DistinctKeys (.obj members))
    (h : canon (.obj members) = .ok bytes) {key text : String}
    (hlookup : members.lookup key = some (.str text)) :
    strField key (stored F ((decode bytes).getD "")) = some text := by
  obtain ⟨others, -, hstored, hothers, hsame⟩ := loads_canon hkeys h
  rw [hstored]
  exact strField_of_lookup (text_sameValue hkeys.1 hothers.1 hsame hlookup)

end Stored

section Events

variable {sha : Sha256} {receipt prev : String} {event : EventRow}

/-- The members of the body of an event. -/
def eventMembers (receipt prev : String) : Members F :=
  [("kind", .str "issued"), ("payload", .obj [("receipt", .str receipt)]), ("prev", .str prev)]

omit [FloatText F] [FloatNumber F] in
theorem eventMembers_distinct : DistinctKeys (.obj (eventMembers (F := F) receipt prev)) :=
  ⟨(by decide : ["kind", "payload", "prev"].Nodup), trivial,
    ⟨(by decide : ["receipt"].Nodup), trivial, trivial⟩, trivial, trivial⟩

theorem event_read (h : eventRow (F := F) sha "issued" (.obj [("receipt", .str receipt)]) prev =
    .ok event) : eventPrev F event = some prev ∧ isIssued F event = true ∧
      eventReceipt F event = some receipt ∧
      ∃ body : Json F, loads event.body = some body ∧ digest sha body = .ok event.digest := by
  obtain ⟨hash, hhash, h⟩ := bind_eq_ok h
  obtain ⟨bytes, hbytes, h⟩ := bind_eq_ok h
  obtain rfl := Except.ok.inj h
  have hbytes : canon (.obj (eventMembers (F := F) receipt prev)) = .ok bytes := hbytes
  have hkind : eventKind F ⟨(decode bytes).getD "", hash⟩ = some "issued" :=
    strField_stored eventMembers_distinct hbytes rfl
  have hprev : eventPrev F ⟨(decode bytes).getD "", hash⟩ = some prev :=
    strField_stored eventMembers_distinct hbytes rfl
  obtain ⟨others, hloads, hstored, hothers, hsame⟩ := loads_canon eventMembers_distinct hbytes
  have hlookup : (eventMembers receipt prev).lookup "payload" =
      some (.obj [("receipt", (.str receipt : Json F))]) := rfl
  obtain ⟨payload, hpayload, hsamePayload⟩ :=
    lookup_sameValue eventMembers_distinct.1 hothers.1 hsame hlookup
  obtain ⟨members, rfl⟩ := obj_of_sameValue hsamePayload
  have hmembers := distinctKeys_lookup hothers hpayload
  refine ⟨hprev, decide_eq_true hkind, ?_, ⟨_, hloads, ?_⟩⟩
  · rw [eventReceipt, hstored, hpayload]
    exact strField_of_lookup (text_sameValue (by simp) hmembers.1 hsamePayload rfl)
  · exact (digest_sameValue sha hsame).symm.trans hhash

theorem headAfter_events (issued : List IssuedRow) (events : List EventRow) :
    headAfter rowDigest (some "genesis") events = some (lastDigest ⟨issued, events⟩) := by
  induction events using List.reverseRecOn with
  | nil => rfl
  | append_singleton before event ih =>
    rw [headAfter_concat, lastDigest, List.getLast?_concat]
    rfl

end Events

section Certificates

variable {service : Service F} {data : Submission F} {secret : Bytes} {cert : Members F}
  {row other : IssuedRow}

theorem certificate_claim (h : certificate service secret data = .ok cert) :
    (signedBody cert).lookup "claim_id" = some (get data.contract "claim_id") ∧
      (signedBody cert).lookup "claim_version" = some (get data.contract "claim_version") := by
  obtain ⟨contractHash, -, h⟩ := bind_eq_ok h
  obtain ⟨attemptHash, -, h⟩ := bind_eq_ok h
  obtain ⟨message, -, h⟩ := bind_eq_ok h
  obtain ⟨receipt, -, h⟩ := bind_eq_ok h
  obtain rfl := Except.ok.inj h
  rw [signedBody_certificate]
  exact ⟨rfl, rfl⟩

/-- A certificate and what is stored of it. -/
structure Recorded (service : Service F) (row : IssuedRow) (data : Submission F)
    (cert : Members F) (receipt : String) : Prop where
  distinct : DistinctKeys (.obj cert)
  claimId : (signedBody cert).lookup "claim_id" = some (get data.contract "claim_id")
  version : (signedBody cert).lookup "claim_version" = some (get data.contract "claim_version")
  hashed : ∃ hash, digest service.sha (.obj (signedBody cert)) = .ok hash ∧
    receipt = "urn:ur1:" ++ hash
  named : cert.lookup "ur1_receipt" = some (.str receipt)
  row : issuedRow service data cert = .ok row

theorem recorded_of_made (hcert : certificate service secret data = .ok cert)
    (hrow : issuedRow service data cert = .ok row) :
    ∃ receipt, Recorded service row data cert receipt := by
  obtain ⟨hmade, -, -⟩ := certificate_made hcert
  obtain ⟨hash, hhash, hnamed⟩ := hmade.receipt
  obtain ⟨hid, hversion⟩ := certificate_claim hcert
  exact ⟨_, certificate_distinct hcert, hid, hversion, ⟨hash, hhash, rfl⟩, hnamed, hrow⟩

theorem row_of_recorded {receipt : String} (h : Recorded service row data cert receipt) :
    service.column (get data.contract "claim_id") = .ok row.claimId ∧
      service.column (get data.contract "claim_version") = .ok row.version ∧
      ∃ bytes, canon (.obj cert) = .ok bytes ∧ row.cert = (decode bytes).getD "" := by
  obtain ⟨claimId, hid, hrow⟩ := bind_eq_ok h.row
  obtain ⟨version, hversion, hrow⟩ := bind_eq_ok hrow
  obtain ⟨bytes, hbytes, hrow⟩ := bind_eq_ok hrow
  obtain rfl := Except.ok.inj hrow
  exact ⟨hid, hversion, bytes, hbytes, rfl⟩

theorem certReceipt_of_recorded {receipt : String} (h : Recorded service row data cert receipt) :
    certReceipt F row = some receipt := by
  obtain ⟨-, -, bytes, hbytes, hcert⟩ := row_of_recorded h
  rw [certReceipt, hcert]
  exact strField_stored h.distinct hbytes h.named

theorem body_mem {receipt : String} {db : Database} (h : Recorded service row data cert receipt)
    (hrow : row ∈ db.issued) {message : Bytes}
    (hmessage : canon (.obj (signedBody cert)) = .ok message) : message ∈ bodies F db := by
  obtain ⟨-, -, bytes, hbytes, hcert⟩ := row_of_recorded h
  obtain ⟨others, hloads, -, -, hsame⟩ := loads_canon h.distinct hbytes
  refine ⟨row, hrow, others, hcert ▸ hloads, ?_⟩
  have hbody : SameValue (.obj (signedBody cert)) (.obj (signedBody others)) :=
    sameValue_filter isSigned h.distinct.1 hsame
  exact canon_sameValue hbody ▸ hmessage

/-- Neither a list nor an object can be bound to a column. -/
def Scalar (column : Json F → Except PyError String) : Prop :=
  (∀ items text, column (.list items) ≠ .ok text) ∧ ∀ members text, column (.obj members) ≠ .ok text

omit [FloatText F] [FloatNumber F] in
theorem column_sameValue {column : Json F → Except PyError String} (hcolumn : Scalar column)
    {v w : Json F} {text text' : String} (hsame : SameValue v w) (h : column v = .ok text)
    (h' : column w = .ok text') : text = text' := by
  have hscalar : ∀ {v : Json F} {text : String}, column v = .ok text → sortKeys v = v := by
    intro v text h
    cases v with
    | list items => exact absurd h (hcolumn.1 items text)
    | obj members => exact absurd h (hcolumn.2 members text)
    | _ => rfl
  have hvalue : v = w := (hscalar h).symm.trans (hsame.trans (hscalar h'))
  exact Except.ok.inj (h.symm.trans (hvalue ▸ h'))

/-- The receipt of a certificate determines the claim and its version. -/
theorem key_of_receipt (hcolumn : Scalar service.column) {messages : Set Bytes}
    (hcollision : service.sha.NoCollision messages) {data' : Submission F} {cert' : Members F}
    {receipt : String} (h : Recorded service row data cert receipt)
    (h' : Recorded service other data' cert' receipt)
    (hmem : ∀ message, canon (.obj (signedBody cert)) = .ok message → message ∈ messages)
    (hmem' : ∀ message, canon (.obj (signedBody cert')) = .ok message → message ∈ messages) :
    rowKey row = rowKey other := by
  obtain ⟨hash, hhash, rfl⟩ := h.hashed
  obtain ⟨hash', hhash', heq⟩ := h'.hashed
  have hchars := congrArg String.toList heq
  rw [String.toList_append, String.toList_append] at hchars
  obtain rfl := String.toList_injective (List.append_cancel_left hchars)
  have hkeys := distinct_signedBody h.distinct
  have hkeys' := distinct_signedBody h'.distinct
  have hsame := sameValue_of_digest hcollision hkeys hkeys' hmem hmem' hhash hhash'
  obtain ⟨id, hid, hsameId⟩ := lookup_sameValue hkeys.1 hkeys'.1 hsame h.claimId
  obtain ⟨version, hversion, hsameVersion⟩ := lookup_sameValue hkeys.1 hkeys'.1 hsame h.version
  obtain rfl := Option.some.inj (hid.symm.trans h'.claimId)
  obtain rfl := Option.some.inj (hversion.symm.trans h'.version)
  obtain ⟨hcolumnId, hcolumnVersion, -⟩ := row_of_recorded h
  obtain ⟨hcolumnId', hcolumnVersion', -⟩ := row_of_recorded h'
  exact Prod.ext (column_sameValue hcolumn hsameId hcolumnId hcolumnId')
    (column_sameValue hcolumn hsameVersion hcolumnVersion hcolumnVersion')

end Certificates

section Submissions

variable {service : Service F} {data : Submission F} {db after inserted : Database}
  {bundle : Bundle F} {row : IssuedRow}

theorem insertIssued_some (h : insertIssued db row = some inserted) :
    rowKey row ∉ db.issued.map rowKey ∧ inserted = { db with issued := db.issued ++ [row] } := by
  unfold insertIssued at h
  split at h
  · cases h
  · rename_i hfree
    refine ⟨fun hmem => hfree ?_, (Option.some.inj h).symm⟩
    obtain ⟨other, hother, hkey⟩ := List.mem_map.mp hmem
    obtain ⟨hid, hversion⟩ := Prod.mk.inj hkey
    exact List.any_eq_true.mpr ⟨other, hother, by simp [hid, hversion]⟩

/-- What a submission that is accepted enters. -/
theorem submit_cases (h : submit service data db = .ok (bundle, after)) :
    ∃ secret cert row inserted event, certificate service secret data = .ok cert ∧
      issuedRow service data cert = .ok row ∧ insertIssued db row = some inserted ∧
      eventRow service.sha "issued" (issuedPayload cert) (lastDigest inserted) = .ok event ∧
      after = { inserted with events := inserted.events ++ [event] } := by
  obtain ⟨⟨⟩, -, h⟩ := bind_eq_ok h
  unfold issue at h
  split at h
  · cases h
  · rename_i secret hsigner
    obtain ⟨cert, hcert, h⟩ := bind_eq_ok h
    obtain ⟨stored, htransaction, h⟩ := bind_eq_ok h
    obtain ⟨-, rfl⟩ := Prod.mk.inj (Except.ok.inj h)
    obtain ⟨row, hrow, htransaction⟩ := bind_eq_ok htransaction
    split at htransaction
    · cases htransaction
    · rename_i inserted hinserted
      obtain ⟨event, hevent, htransaction⟩ := bind_eq_ok htransaction
      exact ⟨secret, cert, row, inserted, event, python_ok hcert, python_ok hrow, hinserted,
        python_ok hevent, (Except.ok.inj htransaction).symm⟩

/-- What every submission keeps. -/
structure Kept (service : Service F) (db : Database) : Prop where
  linked : Linked (eventPrev F) rowDigest (some "genesis") db.events
  digests : ∀ row ∈ db.events, ∃ body : Json F, loads row.body = some body ∧
    digest service.sha body = .ok row.digest
  issued : ∀ row ∈ db.events, isIssued F row = true
  certificates : (db.issued.map rowKey).Nodup
  recorded : ∀ row ∈ db.issued, ∃ data cert receipt, Recorded service row data cert receipt
  corresponding : db.events.map (eventReceipt F) = db.issued.map (certReceipt F)

theorem kept_submit {keysJson : Option String} {signer : Option Bytes} (hdb : Kept service db)
    (h : submit { service with keysJson := keysJson, signer := signer } data db =
      .ok (bundle, after)) : Kept service after := by
  obtain ⟨secret, cert, row, inserted, event, hcert, hrow, hinserted, hevent, rfl⟩ :=
    submit_cases h
  have hcert : certificate service secret data = .ok cert := hcert
  have hrow : issuedRow service data cert = .ok row := hrow
  obtain ⟨hfree, rfl⟩ := insertIssued_some hinserted
  obtain ⟨receipt, hrecorded⟩ := recorded_of_made hcert hrow
  have hpayload : issuedPayload cert = .obj [("receipt", .str receipt)] := by
    rw [issuedPayload, PyCollections.get, hrecorded.named, Option.getD_some]
  rw [hpayload] at hevent
  obtain ⟨hprev, hissued, hreceipt, hdigest⟩ := event_read hevent
  refine ⟨?_, ?_, ?_, ?_, ?_, ?_⟩
  · refine (linked_concat _ _ _ _ _).mpr ⟨hdb.linked, ?_⟩
    rw [hprev, headAfter_events (db.issued ++ [row]) db.events]
  · exact List.forall_mem_append.mpr ⟨hdb.digests, List.forall_mem_singleton.mpr hdigest⟩
  · exact List.forall_mem_append.mpr ⟨hdb.issued, List.forall_mem_singleton.mpr hissued⟩
  · rw [List.map_append, List.map_singleton, ← List.concat_eq_append]
    exact hdb.certificates.concat hfree
  · exact List.forall_mem_append.mpr
      ⟨hdb.recorded, List.forall_mem_singleton.mpr ⟨data, cert, receipt, hrecorded⟩⟩
  · rw [List.map_append, List.map_append, List.map_singleton, List.map_singleton,
      hdb.corresponding, hreceipt, certReceipt_of_recorded hrecorded]

/-- A database that submissions make has what every submission keeps. -/
theorem kept_of_reached (h : Reached service db) : Kept service db := by
  induction h with
  | empty =>
    refine ⟨trivial, ?_, ?_, List.nodup_nil, ?_, rfl⟩
    · exact fun row hrow => absurd hrow List.not_mem_nil
    · exact fun row hrow => absurd hrow List.not_mem_nil
    · exact fun row hrow => absurd hrow List.not_mem_nil
  | submitted keysJson signer hdb hsubmit ih => exact kept_submit ih hsubmit

theorem consistent_of_kept (hcolumn : Scalar service.column) (h : Kept service db)
    (hcollision : service.sha.NoCollision (bodies F db)) : Consistent F service.sha db where
  linked := h.linked
  digests := h.digests
  certificates := h.certificates
  receipted row hrow := by
    obtain ⟨data, cert, receipt, hrecorded⟩ := h.recorded row hrow
    exact ⟨receipt, certReceipt_of_recorded hrecorded⟩
  receipts := by
    refine List.Nodup.map_on ?_ h.certificates.of_map
    intro row hrow other hother hreceipt
    obtain ⟨data, cert, receipt, hrecorded⟩ := h.recorded row hrow
    obtain ⟨data', cert', receipt', hrecorded'⟩ := h.recorded other hother
    rw [certReceipt_of_recorded hrecorded, certReceipt_of_recorded hrecorded'] at hreceipt
    obtain rfl := Option.some.inj hreceipt
    refine List.inj_on_of_nodup_map h.certificates hrow hother ?_
    exact key_of_receipt hcolumn hcollision hrecorded hrecorded'
      (fun _ => body_mem hrecorded hrow) (fun _ => body_mem hrecorded' hother)
  corresponding := by
    rw [List.filter_eq_self.mpr h.issued]
    exact h.corresponding

end Submissions

end Decillion.BuddyRecords
