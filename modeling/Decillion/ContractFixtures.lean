import Decillion.BuddyGates

/-!
The reference fixture decides about a contract and an attempt without any signature. It and
the service read the same checks in the same way, but the evidence that is required under
names of their own: what the fixture requires, the service does not look at.
-/
namespace Decillion.ContractFixtures

open BuddyGates BuddyProofs ByteText JsonStrings JsonText JsonValues Primitives PyCollections
  PyErrors PyValues

variable {F : Type} [FloatText F] [FloatNumber F]

inductive Decision where
  | notCertified
  | checksSatisfiedNotSigned
deriving DecidableEq

/-- `any(evidence.get(key) is None for key in names)` -/
def anyMissing (evidence : Json F) : List (Json F) → Except PyError Bool
  | [] => .ok false
  | name :: rest => do
      let value ← evidenceGet evidence name .null
      match value with
      | .null => return true
      | _ => anyMissing evidence rest

def decideEvidence (contract attempt : Members F) : Except PyError Decision := do
  let names ← item contract "required_evidence"
  let names ← iterate names
  if ← anyMissing (evidenceOf attempt) names then return .notCertified
  else return .checksSatisfiedNotSigned

def decideChecks (contract attempt : Members F) : Except PyError Decision := do
  let passed ← toSet ((attempt.lookup "checks_passed").getD (.list []))
  let required ← item contract "required_checks"
  let required ← toSet required
  if isSubset required passed then decideEvidence contract attempt else return .notCertified

def decide (contract attempt : Members F) : Except PyError Decision := do
  let claimId ← item contract "claim_id"
  let version ← item contract "claim_version"
  if !(sameItem claimId (get attempt "claim_id") &&
      sameItem version (get attempt "claim_version")) then return .notCertified
  else if !truthy (get attempt "executed") then return .notCertified
  else if !equalsStr (get attempt "decision") "REQUIREMENTS_SATISFIED" then return .notCertified
  else if truthy (get attempt "checks_failed") || truthy (get attempt "blocking_issues") then
    return .notCertified
  else decideChecks contract attempt

/-- The attempt has evidence under every name that the fixture requires. -/
def EvidencePresent (contract attempt : Members F) : Prop :=
  ∀ names, iterate (get contract "required_evidence") = .ok names →
    ∀ name ∈ names, ∀ value, evidenceGet (evidenceOf attempt) name .null = .ok value →
      value ≠ .null

omit [FloatText F] [FloatNumber F] in
theorem get_of_item {members : Members F} {key : String} {value : Json F}
    (h : item members key = .ok value) : get members key = value := by
  rw [PyCollections.get, item_ok.mp h, Option.getD_some]

omit [FloatText F] [FloatNumber F] in
theorem anyMissing_iff {evidence : Json F} {names : List (Json F)} {missing : Bool}
    (h : anyMissing evidence names = .ok missing) :
    missing = false ↔ ∀ name ∈ names, ∀ value, evidenceGet evidence name .null = .ok value →
      value ≠ .null := by
  induction names with
  | nil =>
    obtain rfl := Except.ok.inj h
    simp
  | cons name rest ih =>
    obtain ⟨value, hvalue, h⟩ := bind_eq_ok h
    split at h
    · obtain rfl := Except.ok.inj h
      refine iff_of_false (by decide) (fun hall => ?_)
      exact hall name (List.mem_cons_self ..) _ hvalue rfl
    · rename_i hne
      rw [ih h, List.forall_mem_cons]
      refine ⟨fun hrest => ⟨fun other hother => ?_, hrest⟩, And.right⟩
      rw [hvalue] at hother
      exact Except.ok.inj hother ▸ hne

omit [FloatText F] [FloatNumber F] in
theorem decideEvidence_iff {contract attempt : Members F} {decision : Decision}
    (h : decideEvidence contract attempt = .ok decision) :
    decision = .checksSatisfiedNotSigned ↔ EvidencePresent contract attempt := by
  obtain ⟨required, hrequired, h⟩ := bind_eq_ok h
  obtain ⟨names, hnames, h⟩ := bind_eq_ok h
  obtain ⟨missing, hmissing, h⟩ := bind_eq_ok h
  have hpresent : EvidencePresent contract attempt ↔ missing = false := by
    rw [anyMissing_iff hmissing]
    refine ⟨fun hall => hall names (get_of_item hrequired ▸ hnames), fun hall other hother => ?_⟩
    rw [get_of_item hrequired, hnames] at hother
    exact Except.ok.inj hother ▸ hall
  rw [hpresent]
  cases missing with
  | false =>
    obtain rfl := Except.ok.inj h
    simp
  | true =>
    obtain rfl := Except.ok.inj h
    simp

omit [FloatText F] in
/-- The checks that the service has found satisfied are those of the fixture. -/
theorem decideChecks_passed {contract attempt : Members F} {decision : Decision}
    (hrequired : checkRequired contract attempt = .ok ())
    (h : decideChecks contract attempt = .ok decision) :
    decideEvidence contract attempt = .ok decision := by
  obtain ⟨passed, hpassed, h⟩ := bind_eq_ok h
  obtain ⟨value, hvalue, h⟩ := bind_eq_ok h
  obtain ⟨required, hset, h⟩ := bind_eq_ok h
  obtain ⟨required', hset', hrequired⟩ := bind_eq_ok hrequired
  obtain ⟨passed', hpassed', hsubset⟩ := bind_eq_ok hrequired
  have hset' := python_ok hset'
  rw [item_ok.mp hvalue, Option.getD_some, hset] at hset'
  have hpassed' := python_ok hpassed'
  rw [hpassed] at hpassed'
  obtain rfl := Except.ok.inj hset'
  obtain rfl := Except.ok.inj hpassed'
  rwa [require_ok hsubset, if_pos rfl] at h

/-- What the gates of the service have found, the fixture finds as well. -/
theorem decide_passed {service : Service F} {data : Submission F} {decision : Decision}
    (hpassed : Passed service data) (h : decide data.contract data.attempt = .ok decision) :
    decideEvidence data.contract data.attempt = .ok decision := by
  obtain ⟨claimId, hclaimId, h⟩ := bind_eq_ok h
  obtain ⟨version, hversion, h⟩ := bind_eq_ok h
  have hclaim := require_ok hpassed.claim
  simp only [sameClaim, Bool.and_eq_true] at hclaim
  have hattempt := require_ok hpassed.attempt
  rw [Bool.and_eq_true] at hattempt
  have hblocking := require_ok hpassed.blocking
  simp only [Bool.and_eq_true, Bool.not_eq_true'] at hblocking
  rw [← get_of_item hclaimId, ← get_of_item hversion, hclaim.1.1.1, hclaim.1.1.2, hattempt.1,
    hattempt.2, hblocking.1, hblocking.2] at h
  exact decideChecks_passed hpassed.required h

/-- On what the service certifies the fixture is satisfied exactly when the attempt has the
evidence that the fixture requires. -/
theorem fixture_satisfied_iff {service : Service F} {data : Submission F} {db : Database}
    {result : Bundle F × Database} {decision : Decision}
    (hissued : submit service data db = .ok result)
    (hdecided : decide data.contract data.attempt = .ok decision) :
    decision = .checksSatisfiedNotSigned ↔ EvidencePresent data.contract data.attempt :=
  decideEvidence_iff (decide_passed (passed_of_submit hissued) hdecided)

/-- The attempt with the evidence that the fixture requires. -/
def suppliedAttempt : Members WholeFloat :=
  ("evidence", .obj [("input", .str "i")]) :: sampleAttempt ""

theorem suppliedAttempt_distinct : DistinctKeys (.obj suppliedAttempt) :=
  ⟨(by decide : ["evidence", "claim_id", "claim_version", "executed", "decision", "spent_usd",
    "generator_public_key"].Nodup),
    by simp [suppliedAttempt, sampleAttempt, DistinctKeysMembers, DistinctKeys]⟩

def suppliedSubmission : Submission WholeFloat where
  contract := sampleContract
  attempt := suppliedAttempt
  reviewerPublicKey := hex sampleKey
  reviewerSignature := hex (Ed25519.sample.sign sampleKey
    (encode (dumpsSorted compact (pair sampleContract suppliedAttempt))))
  contract_distinct := sampleContract_distinct
  attempt_distinct := suppliedAttempt_distinct

theorem issued_supplied :
    (submit sampleService suppliedSubmission ⟨[], []⟩).toOption.isSome = true := by
  decide +kernel

theorem decided_sample :
    decide sampleContract (sampleAttempt "") = .ok .notCertified := by rfl

theorem decided_supplied :
    decide sampleContract suppliedAttempt = .ok .checksSatisfiedNotSigned := by rfl

/-- The service certifies two attempts, and one of them has the evidence. -/
theorem fixture_satisfied_iff_sample :
    (∃ result, submit sampleService (sampleSubmission "") ⟨[], []⟩ = .ok result ∧
      ¬ EvidencePresent sampleContract (sampleAttempt "")) ∧
    ∃ result, submit sampleService suppliedSubmission ⟨[], []⟩ = .ok result ∧
      EvidencePresent sampleContract suppliedAttempt := by
  obtain ⟨refused, hrefused⟩ := exists_of_isSome issued_sample
  obtain ⟨result, hresult⟩ := exists_of_isSome issued_supplied
  refine ⟨⟨refused, hrefused, fun hpresent => ?_⟩, result, hresult, ?_⟩
  · cases (fixture_satisfied_iff hrefused decided_sample).mpr hpresent
  · exact (fixture_satisfied_iff hresult decided_supplied).mp rfl

/-- The service certifies an attempt without the evidence that the fixture requires. -/
theorem fixture_refuses : ∃ result,
    submit sampleService (sampleSubmission "") ⟨[], []⟩ = .ok result ∧
      decide (sampleSubmission "").contract (sampleSubmission "").attempt =
        .ok .notCertified := by
  obtain ⟨result, hresult⟩ := exists_of_isSome issued_sample
  exact ⟨result, hresult, decided_sample⟩

end Decillion.ContractFixtures
