import Decillion.BuddyKills

/-!
What the proof service says of a claim. The status of a claim in a version is read from what has
been committed. A submission that is answered finds its certificate there from then on, and every
certificate that is found there, also after workers have been killed, is the one that was made for
a submission that passed the gates, and is accepted with its contract and its attempt by whoever
verifies the bundle.
-/
namespace Decillion.BuddyStatuses

open BuddyBundles BuddyCommits BuddyDatabase BuddyGates BuddyKills BuddyProofs BuddyRaces
  BuddyRecords ByteText Interleavings JsonObjects JsonRoundTrip JsonStrings JsonText
    JsonValues Primitives
  Programs PyCollections PyErrors PyValues

variable {ι F : Type} [FloatText F]

structure Status (F : Type) where
  certificate : Json F
  revoked : Bool

/-- `status`, of what has been committed. -/
def status (signer : Option Bytes) (db : Database) (claimId version : String) :
    Except BuddyError (Status F) :=
  match signer with
  | none => .error (.http 503 "durable signer and database required")
  | some _ =>
    match db.issued.find? (fun row => row.claimId = claimId && row.version = version) with
    | none => .error (.http 404 "unknown claim")
    | some row =>
      match loads row.cert with
      | none => .error (.python (.valueError "invalid JSON"))
      | some certificate => .ok ⟨certificate, row.revoked⟩

section Rows

variable {db : Database} {claimId version : String} {secret : Bytes}

omit [FloatText F] in
theorem key_of_found {row : IssuedRow}
    (h : db.issued.find? (fun row => row.claimId = claimId && row.version = version) = some row) :
    row ∈ db.issued ∧ rowKey row = (claimId, version) := by
  have hkey := List.find?_some h
  rw [Bool.and_eq_true, decide_eq_true_iff, decide_eq_true_iff] at hkey
  exact ⟨List.mem_of_find?_eq_some h, Prod.ext hkey.1 hkey.2⟩

theorem status_unknown (h : (claimId, version) ∉ db.issued.map rowKey) :
    status (F := F) (some secret) db claimId version = .error (.http 404 "unknown claim") := by
  unfold status
  dsimp only
  split
  · rfl
  · rename_i row hrow
    obtain ⟨hmem, hkey⟩ := key_of_found hrow
    exact absurd (List.mem_map.mpr ⟨row, hmem, hkey⟩) h

theorem status_cases {answer : Status F}
    (h : status (some secret) db claimId version = .ok answer) :
    ∃ row ∈ db.issued, rowKey row = (claimId, version) ∧
      loads row.cert = some answer.certificate ∧ answer.revoked = row.revoked := by
  unfold status at h
  dsimp only at h
  split at h
  · cases h
  · rename_i row hrow
    obtain ⟨hmem, hkey⟩ := key_of_found hrow
    split at h
    · cases h
    · rename_i certificate hloads
      obtain rfl := Except.ok.inj h
      exact ⟨row, hmem, hkey, hloads, rfl⟩

/-- A row whose claim and version no other one has is the one that is found. -/
theorem status_of_row {row : IssuedRow} {certificate : Json F}
    (hkeys : (db.issued.map rowKey).Nodup) (hrow : row ∈ db.issued)
    (hloads : loads row.cert = some certificate) :
    status (some secret) db row.claimId row.version = .ok ⟨certificate, row.revoked⟩ := by
  have hfind : db.issued.find?
      (fun other => other.claimId = row.claimId && other.version = row.version) = some row := by
    cases hfound : db.issued.find?
        (fun other => other.claimId = row.claimId && other.version = row.version) with
    | none =>
      have hnone := List.find?_eq_none.mp hfound row hrow
      simp at hnone
    | some other =>
      obtain ⟨hother, hkey⟩ := key_of_found hfound
      rw [List.inj_on_of_nodup_map hkeys hother hrow hkey]
  simp only [status, hfind, hloads]

end Rows

variable [FloatNumber F] {service : Service F}

section Entries

variable {request : Request F} {bundle : Bundle F} {row : IssuedRow}

/-- The key of the signer has the length of a key. -/
def SignsWell (service : Service F) (request : Request F) : Prop :=
  ∀ secret, request.signer = some secret → (service.ed.publicKey secret).length = 32

/-- What is stored of a certificate is the certificate, unrevoked, and is accepted with the
contract and the attempt. -/
structure Stored (service : Service F) (bundle : Bundle F) (answer : Status F) : Prop where
  revoked : answer.revoked = false
  certificate : SameValue answer.certificate (.obj bundle.certification)
  verified : (verify service.sha service.ed [("contract", .obj bundle.contract),
    ("attempt", .obj bundle.attempt), ("certification", answer.certificate)]).integrityVerified =
      true

theorem row_of_entry (h : Entry service request bundle row) :
    service.column (PyCollections.get bundle.contract "claim_id") = .ok row.claimId ∧
      service.column (PyCollections.get bundle.contract "claim_version") = .ok row.version ∧
      row.revoked = false ∧ ∃ bytes, canon (.obj bundle.certification) = .ok bytes ∧
        row.cert = (decode bytes).getD "" := by
  obtain ⟨claimId, hid, hrow⟩ := bind_eq_ok h.row
  obtain ⟨version, hversion, hrow⟩ := bind_eq_ok hrow
  obtain ⟨bytes, hbytes, hrow⟩ := bind_eq_ok hrow
  obtain rfl := Except.ok.inj hrow
  exact ⟨h.contract ▸ hid, h.contract ▸ hversion, rfl, bytes, hbytes, rfl⟩

omit [FloatText F] [FloatNumber F] in
theorem sameValue_toDict {c a v w : Json F} (h : SameValue v w) :
    SameValue (.obj [("contract", c), ("attempt", a), ("certification", v)])
      (.obj [("contract", c), ("attempt", a), ("certification", w)]) := by
  have hsorted : ∀ v : Json F,
      sortKeys (.obj [("contract", c), ("attempt", a), ("certification", v)]) = .obj
        [("attempt", sortKeys a), ("certification", sortKeys v), ("contract", sortKeys c)] := by
    intro v
    simp [sortKeys, sortMembers, List.insertionSort, List.orderedInsert, keyLe]
  rw [SameValue, hsorted, hsorted, h]

/-- The certificate of a row is read back and accepted. -/
theorem stored_of_entry (h : Entry service request bundle row)
    (hsigns : SignsWell service request) :
    ∃ certificate, loads row.cert = some certificate ∧
      Stored service bundle ⟨certificate, row.revoked⟩ := by
  obtain ⟨contract, attempt, cert⟩ := bundle
  obtain rfl : contract = request.data.contract := h.contract
  obtain rfl : attempt = request.data.attempt := h.attempt
  obtain ⟨secret, hsigner, hcert⟩ := h.certificate
  obtain ⟨-, -, hrevoked, bytes, hbytes, hstored⟩ := row_of_entry h
  have hkeys := certificate_distinct hcert
  obtain ⟨others, hloads, -, hothers, hsame⟩ := loads_canon hkeys hbytes
  have hpassed : Passed (found service request) request.data := passed_of_gates h.gates
  have haccepted := certified_accepted hcert (hsigns secret hsigner) hpassed.signature
  have hdistinct : ∀ {members : Members F}, DistinctKeys (.obj members) →
      DistinctKeys (.obj (toDict ⟨request.data.contract, request.data.attempt, members⟩)) :=
    fun hmembers => ⟨(by decide : ["contract", "attempt", "certification"].Nodup),
      request.data.contract_distinct, request.data.attempt_distinct, hmembers, trivial⟩
  refine ⟨.obj others, hstored ▸ hloads, hrevoked, hsame.symm, verify_iff.mpr ?_⟩
  exact accepted_sameValue (hdistinct hkeys) (hdistinct hothers) (sameValue_toDict hsame) haccepted

end Entries

section Runs

variable [DecidableEq ι] {fault : ι → ℕ → Bool}
  {choose : ι → List (Finished (Request F) (Except SubmitError (Bundle F)) (DbHost ι)) →
    Option (Request F)}

/-- A certificate that a status request finds is the one that was made for a submission that a
worker was given, that has passed the gates for this claim in this version. -/
structure Backed (service : Service F)
    (choose : ι → List (Finished (Request F) (Except SubmitError (Bundle F)) (DbHost ι)) →
      Option (Request F)) (claimId version : String) (answer : Status F) (bundle : Bundle F) :
    Prop where
  submitted : ∃ i finished request secret, choose i finished = some request ∧
    Passed (found service request) request.data ∧ request.signer = some secret ∧
    certificate service secret request.data = .ok bundle.certification ∧
    bundle.contract = request.data.contract ∧ bundle.attempt = request.data.attempt
  claimId : service.column (PyCollections.get bundle.contract "claim_id") = .ok claimId
  version : service.column (PyCollections.get bundle.contract "claim_version") = .ok version
  stored : Stored service bundle answer

variable (hsigns : ∀ i finished request, choose i finished = some request →
  SignsWell service request) (schedule later : List ι) {i : ι}
  {f : Finished (Request F) (Except SubmitError (Bundle F)) (DbHost ι)} {bundle : Bundle F}

include hsigns in
/-- What is behind an answer, at the end of a run that goes on. -/
theorem entry_of_answer (hf : f ∈ ((runWorkers service fault choose (System.start emptyHost)
      schedule).process i).finished) (hresult : f.result = .ok bundle) :
    ∃ row certificate, Entry service f.call bundle row ∧
      rowKey row ∉ f.began.committed.issued.map rowKey ∧
      row ∈ (runWorkers service fault choose (System.start emptyHost)
        (schedule ++ later)).shared.committed.issued ∧
      loads row.cert = some certificate ∧ Stored service bundle ⟨certificate, row.revoked⟩ := by
  have hstanding : Standing service fault choose
      (runWorkers service fault choose (System.start emptyHost) (schedule ++ later)) :=
    standing_run (schedule ++ later)
  have hlater : f ∈ ((runWorkers service fault choose (System.start emptyHost)
      (schedule ++ later)).process i).finished := by
    rw [runWorkers, runAll_append]
    exact (finished_runAll _ later i).subset hf
  have hsound := hstanding.invariant.sound i
  obtain ⟨row, hentry, hrow, hfresh⟩ := hsound.finished f hlater bundle hresult
  obtain ⟨earlier, -, hchosen⟩ := hsound.called f hlater
  obtain ⟨certificate, hloads, hstored⟩ := stored_of_entry hentry (hsigns i earlier f.call hchosen)
  exact ⟨row, certificate, hentry, hfresh, hrow, hloads, hstored⟩

theorem nodup_standing {y : Workers ι F} (hy : Standing service fault choose y) :
    (y.shared.committed.issued.map rowKey).Nodup :=
  (kept_of_reached hy.invariant.reached.reached).certificates

include hsigns in
/-- A submission that is answered with a bundle was the first one for its claim in its version,
and every status request finds its certificate from then on. -/
theorem answers_durable (hf : f ∈ ((runWorkers service fault choose (System.start emptyHost)
      schedule).process i).finished) (hresult : f.result = .ok bundle) (secret : Bytes) :
    ∃ claimId version answer,
      service.column (PyCollections.get bundle.contract "claim_id") = .ok claimId ∧
      service.column (PyCollections.get bundle.contract "claim_version") = .ok version ∧
      status (F := F) (some secret) f.began.committed claimId version =
        .error (.http 404 "unknown claim") ∧
      status (some secret) (runWorkers service fault choose (System.start emptyHost)
        (schedule ++ later)).shared.committed claimId version = .ok answer ∧
      Stored service bundle answer := by
  obtain ⟨row, certificate, hentry, hfresh, hrow, hloads, hstored⟩ :=
    entry_of_answer hsigns schedule later hf hresult
  obtain ⟨hid, hversion, -⟩ := row_of_entry hentry
  exact ⟨row.claimId, row.version, _, hid, hversion, status_unknown hfresh,
    status_of_row (nodup_standing (standing_run (schedule ++ later))) hrow hloads, hstored⟩

include hsigns in
/-- What a status request finds is behind it, in every state of every run in which workers may be
killed. -/
theorem status_backed (events : List (Event ι)) {claimId version : String} {secret : Bytes}
    {answer : Status F}
    (h : status (some secret) (runKilled service fault choose (System.start emptyHost)
      events).shared.committed claimId version = .ok answer) :
    ∃ bundle, Backed service choose claimId version answer bundle := by
  obtain ⟨row, hrow, hkey, hloads, hrevoked⟩ := status_cases h
  obtain ⟨rfl, rfl⟩ := Prod.mk.inj hkey
  obtain ⟨j, finished, request, bundle, hchosen, hentry⟩ :=
    (standing_killed events).provided row (Or.inl hrow)
  obtain ⟨hid, hversion, -⟩ := row_of_entry hentry
  obtain ⟨certificate, hread, hstored⟩ := stored_of_entry hentry (hsigns j finished request hchosen)
  obtain ⟨secret, hsigner, hcert⟩ := hentry.certificate
  obtain ⟨found, revoked⟩ := answer
  obtain rfl := Option.some.inj (hread.symm.trans hloads)
  obtain rfl : revoked = row.revoked := hrevoked
  exact ⟨bundle, ⟨j, finished, request, secret, hchosen, passed_of_gates hentry.gates, hsigner,
    hcert, hentry.contract, hentry.attempt⟩, hid, hversion, hstored⟩

end Runs

section Sample

theorem sample_signs : ∀ (i : Bool) finished request, sampleChoose i finished = some request →
    SignsWell sampleService request := by
  intro i finished request h secret hsecret
  cases finished with
  | nil =>
    obtain rfl := Option.some.inj h
    obtain rfl := Option.some.inj hsecret
    exact octets_length 32 5
  | cons f rest => cases h

/-- What the second worker has finished. -/
def sampleFinished :
    List (Finished (Request WholeFloat) (Except SubmitError (Bundle WholeFloat)) (DbHost Bool)) :=
  ((runWorkers sampleService (fun _ _ => false) sampleChoose (System.start emptyHost)
    sampleSchedule).process false).finished

theorem sample_answered :
    sampleFinished.map (fun f => f.result.toOption.isSome) = [true] := by
  decide +kernel

theorem sample_finished : ∃ f ∈ ((runWorkers sampleService (fun _ _ => false) sampleChoose
    (System.start emptyHost) sampleSchedule).process false).finished,
      ∃ bundle, f.result = .ok bundle := by
  rw [← sampleFinished]
  have hlength : sampleFinished.length = 1 := by
    rw [← List.length_map (fun f => f.result.toOption.isSome), sample_answered]
    rfl
  obtain ⟨f, hf⟩ := List.length_eq_one_iff.mp hlength
  have hanswered := sample_answered
  rw [hf] at hanswered
  have hsome : f.result.toOption.isSome = true := (List.cons.inj hanswered).1
  refine ⟨f, hf ▸ List.mem_singleton_self f, ?_⟩
  cases hresult : f.result with
  | ok bundle => exact ⟨bundle, rfl⟩
  | error e =>
    rw [hresult] at hsome
    cases hsome

/-- The second worker is answered, and the first one goes on. -/
theorem answers_durable_sample : ∃ f ∈ ((runWorkers sampleService (fun _ _ => false) sampleChoose
    (System.start emptyHost) sampleSchedule).process false).finished,
    ∃ bundle claimId version answer, f.result = .ok bundle ∧
    status (F := WholeFloat) (some []) f.began.committed claimId version =
      .error (.http 404 "unknown claim") ∧
    status (some []) (runWorkers sampleService (fun _ _ => false) sampleChoose
      (System.start emptyHost) (sampleSchedule ++ [true, true, true])).shared.committed claimId
        version = .ok answer ∧
    Stored sampleService bundle answer := by
  obtain ⟨f, hf, bundle, hresult⟩ := sample_finished
  obtain ⟨claimId, version, answer, -, -, hbefore, hafter, hstored⟩ :=
    answers_durable sample_signs sampleSchedule [true, true, true] hf hresult []
  exact ⟨f, hf, bundle, claimId, version, answer, hresult, hbefore, hafter, hstored⟩

/-- The first worker has entered its certificate when it is killed; then the second one submits. -/
def killedEvents : List (Event Bool) :=
  List.replicate 3 (.step true) ++ .kill true :: List.replicate 12 (.step false)

/-- What the first worker leaves behind. -/
def killedShared : DbHost Bool :=
  (runKilled sampleService (fun _ _ => false) sampleChoose (System.start emptyHost)
    (killedEvents.take 3)).shared

theorem killed_writing : killedShared.writer.isSome = true ∧
    killedShared.committed.issued.length = 0 := by
  decide +kernel

theorem killed_issued : (runKilled sampleService (fun _ _ => false) sampleChoose
    (System.start emptyHost) killedEvents).shared.committed.issued.length = 1 := by
  decide +kernel

theorem status_backed_sample :
    killedShared.writer.isSome = true ∧ killedShared.committed.issued.length = 0 ∧
    ∃ claimId version answer bundle,
      status (some []) (runKilled sampleService (fun _ _ => false) sampleChoose
        (System.start emptyHost) killedEvents).shared.committed claimId version = .ok answer ∧
      Backed sampleService sampleChoose claimId version answer bundle := by
  have hstanding : Standing sampleService (fun _ _ => false) sampleChoose
      (runKilled sampleService (fun _ _ => false) sampleChoose (System.start emptyHost)
        killedEvents) := standing_killed killedEvents
  obtain ⟨row, hrows⟩ := List.length_eq_one_iff.mp killed_issued
  have hrow : row ∈ (runKilled sampleService (fun _ _ => false) sampleChoose
      (System.start emptyHost) killedEvents).shared.committed.issued := by
    rw [hrows]
    exact List.mem_singleton_self row
  obtain ⟨i, finished, request, bundle, hchosen, hentry⟩ := hstanding.provided row (Or.inl hrow)
  obtain ⟨certificate, hloads, -⟩ :=
    stored_of_entry hentry (sample_signs i finished request hchosen)
  have hstatus : status (some []) (runKilled sampleService (fun _ _ => false) sampleChoose
      (System.start emptyHost) killedEvents).shared.committed row.claimId row.version =
        .ok ⟨certificate, row.revoked⟩ :=
    status_of_row (nodup_standing hstanding) hrow hloads
  obtain ⟨backing, hbacked⟩ := status_backed sample_signs killedEvents hstatus
  exact ⟨killed_writing.1, killed_writing.2, _, _, _, backing, hstatus, hbacked⟩

end Sample

end Decillion.BuddyStatuses
