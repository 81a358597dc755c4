import Decillion.BuddyProofs

/-!
What a certificate of the service says about the contract and the attempt. Every gate that is
passed says what it checks; only the independence of the reviewer does not follow, since keys
are compared as texts and one key has many spellings.
-/
namespace Decillion.BuddyGates

open AccessRequests BuddyProofs ByteText JsonRoundTrip JsonStrings JsonText JsonValues Primitives
  PyCollections PyErrors PyValues

variable {F : Type} [FloatText F] [FloatNumber F] {service : Service F} {data : Submission F}
  {db : Database}

theorem require_ok {condition : Bool} {status : ℕ} {detail : String}
    (h : require condition status detail = .ok ()) : condition = true := by
  unfold require at h
  split at h
  · assumption
  · cases h

theorem python_ok {α : Type} {result : Except PyError α} {value : α}
    (h : python result = .ok value) : result = .ok value := by
  cases result with
  | ok found => exact congrArg Except.ok (Except.ok.inj h)
  | error e => cases h

/-- The gates that a submission has passed. -/
structure Passed (service : Service F) (data : Submission F) : Prop where
  registered : checkRegistered service.keysJson data = .ok ()
  claim : checkClaim data.contract data.attempt = .ok ()
  criteria : checkCriteria data.contract data.attempt = .ok ()
  generator : checkGenerator data = .ok ()
  signature : checkSignature service.ed data = .ok ()
  attempt : checkAttempt data.attempt = .ok ()
  blocking : checkBlocking data.attempt = .ok ()
  required : checkRequired data.contract data.attempt = .ok ()
  evidence : checkEvidence data.contract data.attempt = .ok ()
  budget : checkBudget data.contract data.attempt = .ok ()

theorem passed_of_gates (h : gates service.ed service.keysJson data = .ok ()) :
    Passed service data := by
  obtain ⟨⟨⟩, hregistered, h⟩ := bind_eq_ok h
  obtain ⟨⟨⟩, hclaim, h⟩ := bind_eq_ok h
  obtain ⟨⟨⟩, hcriteria, h⟩ := bind_eq_ok h
  obtain ⟨⟨⟩, hgenerator, h⟩ := bind_eq_ok h
  obtain ⟨⟨⟩, hsignature, h⟩ := bind_eq_ok h
  obtain ⟨⟨⟩, hattempt, h⟩ := bind_eq_ok h
  obtain ⟨⟨⟩, hblocking, h⟩ := bind_eq_ok h
  obtain ⟨⟨⟩, hrequired, h⟩ := bind_eq_ok h
  obtain ⟨⟨⟩, hevidence, hbudget⟩ := bind_eq_ok h
  exact ⟨hregistered, hclaim, hcriteria, hgenerator, hsignature, hattempt, hblocking, hrequired,
    hevidence, hbudget⟩

theorem passed_of_submit {result : Bundle F × Database}
    (h : submit service data db = .ok result) : Passed service data := by
  obtain ⟨⟨⟩, hgates, -⟩ := bind_eq_ok h
  exact passed_of_gates hgates

section Canon

theorem canon_ok {value : Json F} {bytes : Bytes} (h : canon value = .ok bytes) :
    isFinite value = true ∧ bytes = encode (dumpsSorted compact value) := by
  unfold canon at h
  split at h
  · exact ⟨‹_›, (Except.ok.inj h).symm⟩
  · cases h

/-- The octets say what the value is, up to the order of the keys. -/
theorem canon_injective {v w : Json F} (hv : DistinctKeys v) (hw : DistinctKeys w) {bytes : Bytes}
    (h : canon v = .ok bytes) (h' : canon w = .ok bytes) : SameValue v w := by
  obtain ⟨-, rfl⟩ := canon_ok h
  exact dumpsSorted_injective compact hv hw (encode_injective (canon_ok h').2)

omit [FloatText F] [FloatNumber F] in
theorem sameValue_pair {c a c' a' : Members F} (h : SameValue (pair c a) (pair c' a')) :
    SameValue (.obj c) (.obj c') ∧ SameValue (.obj a) (.obj a') := by
  have hsorted : ∀ c a : Members F, sortKeys (pair c a) =
      .obj [("attempt", sortKeys (.obj a)), ("contract", sortKeys (.obj c))] := by
    intro c a
    simp [pair, sortKeys, sortMembers, List.insertionSort, List.orderedInsert, keyLe]
  rw [SameValue, hsorted, hsorted] at h
  simp only [Json.obj.injEq, List.cons.injEq, Prod.mk.injEq, true_and, and_true] at h
  exact ⟨h.2, h.1⟩

omit [FloatText F] [FloatNumber F] in
theorem distinct_pair {c a : Members F} (hc : DistinctKeys (.obj c))
    (ha : DistinctKeys (.obj a)) : DistinctKeys (pair c a) :=
  ⟨(by decide : ["contract", "attempt"].Nodup), hc, ha, trivial⟩

omit [FloatText F] in
theorem isFinite_lookup {members : Members F} (h : isFinite (.obj members) = true) {key : String}
    {value : Json F} (hvalue : members.lookup key = some value) : isFinite value = true := by
  rw [isFinite] at h
  induction members with
  | nil => cases hvalue
  | cons member rest ih =>
    obtain ⟨k, v⟩ := member
    rw [allFiniteMembers, Bool.and_eq_true] at h
    rw [List.lookup_cons] at hvalue
    split at hvalue
    · exact Option.some.inj hvalue ▸ h.1
    · exact ih h.2 hvalue

omit [FloatText F] in
theorem isNaN_get {members : Members F} (h : isFinite (.obj members) = true) (key : String) :
    isNaN (get members key) = false := by
  unfold PyCollections.get
  cases hlookup : members.lookup key with
  | none => rfl
  | some value =>
    have hfinite := isFinite_lookup h hlookup
    rw [Option.getD_some]
    cases value with
    | float x =>
      rw [isFinite] at hfinite
      split at hfinite
      · rename_i q hq
        simp only [isNaN, number?, hq]
      · cases hfinite
    | _ => rfl

omit [FloatText F] in
theorem pyEq_of_sameItem {a b : Json F} (h : sameItem a b = true) (ha : isNaN a = false) :
    pyEq a b = true := by
  rw [sameItem, ha, Bool.false_and, Bool.false_or] at h
  exact h

end Canon

section Certified

/-- The key of the reviewer has signed nothing but what its holder has signed. -/
def Unforged (ed : Ed25519) (signed : Set (Members F × Members F)) (data : Submission F) : Prop :=
  ∀ message, canon (pair data.contract data.attempt) = .ok message →
    signatureValid ed data.reviewerPublicKey data.reviewerSignature message = true →
    ∃ c a, (c, a) ∈ signed ∧ DistinctKeys (.obj c) ∧ DistinctKeys (.obj a) ∧
      canon (pair c a) = .ok message

/-- The generator's key is no other spelling of the reviewer's key. -/
def Independent (data : Submission F) : Prop :=
  ∀ text key, get data.attempt "generator_public_key" = .str text → fromHex text = some key →
    key.length = 32 → fromHex data.reviewerPublicKey ≠ some key

/-- The generator's key is the reviewer's key in another spelling. -/
def Respelled (data : Submission F) : Prop :=
  ∃ text key, get data.attempt "generator_public_key" = .str text ∧
    text ≠ data.reviewerPublicKey ∧ fromHex text = some key ∧ key.length = 32 ∧
    fromHex data.reviewerPublicKey = some key

/-- What a certificate stands for; `signed` are the pairs that the reviewer has signed. -/
structure Certified (service : Service F) (signed : Set (Members F × Members F))
    (data : Submission F) : Prop where
  registered : ∃ keys : Json F, registeredKeys service.keysJson = .ok keys ∧
    containsText keys data.reviewerPublicKey = .ok true
  signed : ∃ c a, (c, a) ∈ signed ∧ SameValue (.obj data.contract) (.obj c) ∧
    SameValue (.obj data.attempt) (.obj a)
  independent : Independent data
  claimId : truthy (get data.contract "claim_id") = true ∧
    pyEq (get data.contract "claim_id") (get data.attempt "claim_id") = true
  claimVersion : truthy (get data.contract "claim_version") = true ∧
    pyEq (get data.contract "claim_version") (get data.attempt "claim_version") = true
  criteria : pyEq (get data.contract "criteria_version") (get data.attempt "criteria_version") =
    true
  executed : truthy (get data.attempt "executed") = true
  satisfied : get data.attempt "decision" = .str "REQUIREMENTS_SATISFIED"
  unblocked : truthy (get data.attempt "checks_failed") = false ∧
    truthy (get data.attempt "blocking_issues") = false
  required : ∃ required passed,
    toSet ((data.contract.lookup "required_checks").getD (.list [])) = .ok required ∧
    toSet ((data.attempt.lookup "checks_passed").getD (.list [])) = .ok passed ∧
    ∀ check ∈ required, ∃ other ∈ passed, sameItem check other = true
  evidence : ∃ names, iterate ((data.contract.lookup "evidence_requirements").getD (.list [])) =
      .ok names ∧
    ∀ name ∈ names, ∃ members key text, evidenceOf data.attempt = .obj members ∧
      name = .str key ∧ members.lookup key = some (.str text) ∧ "sha256:".toList <+: text.toList
  budget : ∃ spent budget, number? (get data.attempt "spent_usd") = some spent ∧
    number? (get data.contract "budget_usd") = some budget ∧
    lessEq (.finite 0) spent = true ∧ lessEq spent budget = true

omit [FloatText F] [FloatNumber F] in
theorem isDigest_ok {value : Json F} (h : isDigest value = true) :
    ∃ text, value = .str text ∧ "sha256:".toList <+: text.toList := by
  unfold isDigest at h
  split at h
  · rename_i text
    exact ⟨text, rfl, by simpa only [chars_eq] using of_decide_eq_true h⟩
  · cases h

omit [FloatText F] [FloatNumber F] in
/-- The default for a name that is missing is no digest. -/
theorem evidenceGet_digest {evidence name value : Json F}
    (h : evidenceGet evidence name (.str "") = .ok value) (hdigest : isDigest value = true) :
    ∃ members key text, evidence = .obj members ∧ name = .str key ∧
      members.lookup key = some (.str text) ∧ "sha256:".toList <+: text.toList := by
  have hdefault : value ≠ .str "" := by
    rintro rfl
    obtain ⟨text, htext, hprefix⟩ := isDigest_ok hdigest
    rw [← Json.str.inj htext] at hprefix
    exact absurd hprefix (by decide)
  cases evidence with
  | obj members =>
    cases name with
    | str key =>
      obtain rfl := Except.ok.inj h
      cases hlookup : members.lookup key with
      | none =>
        rw [hlookup] at hdefault
        exact absurd rfl hdefault
      | some found =>
        rw [hlookup, Option.getD_some] at hdigest
        obtain ⟨text, rfl, hprefix⟩ := isDigest_ok hdigest
        exact ⟨members, key, text, rfl, rfl, hlookup, hprefix⟩
    | list items => cases h
    | obj items => cases h
    | _ => exact absurd (Except.ok.inj h).symm hdefault
  | _ => cases h

omit [FloatText F] [FloatNumber F] in
theorem checkItems_ok {evidence : Json F} {names : List (Json F)}
    (h : checkItems evidence names = .ok ()) : ∀ name ∈ names, ∃ members key text,
      evidence = .obj members ∧ name = .str key ∧ members.lookup key = some (.str text) ∧
        "sha256:".toList <+: text.toList := by
  induction names with
  | nil => simp
  | cons name rest ih =>
    obtain ⟨value, hvalue, h⟩ := bind_eq_ok h
    obtain ⟨⟨⟩, hdigest, hrest⟩ := bind_eq_ok h
    intro other hother
    rcases List.mem_cons.mp hother with rfl | hother
    · exact evidenceGet_digest (python_ok hvalue) (require_ok hdigest)
    · exact ih hrest other hother

/-- Everything but the independence of the reviewer follows from the gates. -/
theorem certified_of_passed {signed : Set (Members F × Members F)} (h : Passed service data)
    (hunforged : Unforged service.ed signed data) (hindependent : Independent data) :
    Certified service signed data := by
  have hsignature := h.signature
  unfold checkSignature at hsignature
  split at hsignature
  · cases hsignature
  rename_i message hmessage
  obtain ⟨c, a, hsigned, hc, ha, hother⟩ := hunforged message hmessage (require_ok hsignature)
  have hsame := sameValue_pair (canon_injective
    (distinct_pair data.contract_distinct data.attempt_distinct) (distinct_pair hc ha) hmessage
    hother)
  have hfinite : isFinite (.obj data.contract) = true ∧ isFinite (.obj data.attempt) = true := by
    have hpair := (canon_ok hmessage).1
    simpa [pair, isFinite, allFiniteMembers] using hpair
  have hclaim := require_ok h.claim
  simp only [sameClaim, Bool.and_eq_true] at hclaim
  obtain ⟨⟨⟨hid, hversion⟩, hidTruthy⟩, hversionTruthy⟩ := hclaim
  have hattempt := require_ok h.attempt
  rw [Bool.and_eq_true] at hattempt
  have hblocking := require_ok h.blocking
  simp only [Bool.and_eq_true, Bool.not_eq_true'] at hblocking
  refine ⟨?_, ⟨c, a, hsigned, hsame⟩, hindependent,
    ⟨hidTruthy, pyEq_of_sameItem hid (isNaN_get hfinite.1 _)⟩,
    ⟨hversionTruthy, pyEq_of_sameItem hversion (isNaN_get hfinite.1 _)⟩, require_ok h.criteria,
    hattempt.1, eq_of_equalsStr hattempt.2, hblocking, ?_, ?_, ?_⟩
  · obtain ⟨keys, hkeys, hregistered⟩ := bind_eq_ok h.registered
    obtain ⟨found, hfound, hregistered⟩ := bind_eq_ok hregistered
    refine ⟨keys, hkeys, ?_⟩
    rw [python_ok hfound, require_ok hregistered]
  · obtain ⟨required, hrequired, hsubset⟩ := bind_eq_ok h.required
    obtain ⟨passed, hpassed, hsubset⟩ := bind_eq_ok hsubset
    refine ⟨required, passed, python_ok hrequired, python_ok hpassed, fun check hcheck => ?_⟩
    exact List.any_eq_true.mp (List.all_eq_true.mp (require_ok hsubset) check hcheck)
  · obtain ⟨names, hnames, hitems⟩ := bind_eq_ok h.evidence
    exact ⟨names, python_ok hnames, checkItems_ok hitems⟩
  · have hbudget := require_ok h.budget
    unfold withinBudget at hbudget
    split at hbudget
    · rename_i spent budget hspent hbudgeted
      rw [Bool.and_eq_true] at hbudget
      exact ⟨spent, budget, hspent, hbudgeted, hbudget⟩
    · cases hbudget

/-- The gate compares texts, so another spelling of the reviewer's key passes. -/
theorem independent_iff (h : Passed service data) : Independent data ↔ ¬ Respelled data := by
  have hgenerator := require_ok h.generator
  constructor
  · rintro hindependent ⟨text, key, htext, -, hhex, hlength, hreviewer⟩
    exact hindependent text key htext hhex hlength hreviewer
  · intro hspelled text key htext hhex hlength hreviewer
    refine hspelled ⟨text, key, htext, ?_, hhex, hlength, hreviewer⟩
    rintro rfl
    rw [htext, equalsStr_str, decide_eq_true rfl] at hgenerator
    cases hgenerator

/-- A certificate that is issued stands for what it says exactly when the generator's key is
not the reviewer's key in another spelling. -/
theorem certified_iff {signed : Set (Members F × Members F)} {result : Bundle F × Database}
    (h : submit service data db = .ok result) (hunforged : Unforged service.ed signed data) :
    Certified service signed data ↔ ¬ Respelled data := by
  have hpassed := passed_of_submit h
  rw [← independent_iff hpassed]
  exact ⟨Certified.independent, certified_of_passed hpassed hunforged⟩

end Certified

section Samples

def sampleKey : Bytes := octets 32 10

def sampleContract : Members WholeFloat :=
  [("claim_id", .str "c"), ("claim_version", .str "1"), ("budget_usd", .int 1),
    ("required_checks", .list []), ("required_evidence", .list [.str "input"])]

def sampleAttempt (generator : String) : Members WholeFloat :=
  [("claim_id", .str "c"), ("claim_version", .str "1"), ("executed", .bool true),
    ("decision", .str "REQUIREMENTS_SATISFIED"), ("spent_usd", .int 0),
    ("generator_public_key", .str generator)]

theorem sampleContract_distinct : DistinctKeys (.obj sampleContract) :=
  ⟨by decide, by simp [sampleContract, DistinctKeysMembers, DistinctKeys, DistinctKeysItems]⟩

theorem sampleAttempt_distinct (generator : String) :
    DistinctKeys (.obj (sampleAttempt generator)) :=
  ⟨(by decide : ["claim_id", "claim_version", "executed", "decision", "spent_usd",
    "generator_public_key"].Nodup), by simp [sampleAttempt, DistinctKeysMembers, DistinctKeys]⟩

def sampleMessage (generator : String) : Bytes :=
  encode (dumpsSorted compact (pair sampleContract (sampleAttempt generator)))

def sampleSubmission (generator : String) : Submission WholeFloat where
  contract := sampleContract
  attempt := sampleAttempt generator
  reviewerPublicKey := hex sampleKey
  reviewerSignature := hex (Ed25519.sample.sign sampleKey (sampleMessage generator))
  contract_distinct := sampleContract_distinct
  attempt_distinct := sampleAttempt_distinct generator

/-- The database takes texts only. -/
def sampleColumn : Json WholeFloat → Except PyError String
  | .str text => .ok text
  | _ => .error .typeError

def sampleService : Service WholeFloat where
  sha := Sha256.sample
  ed := Ed25519.sample
  keysJson := some ("[\"" ++ hex sampleKey ++ "\"]")
  signer := some (octets 32 5)
  column := sampleColumn

/-- The key of the reviewer in capitals. -/
def capitals : String := String.ofList ((hex sampleKey).toList.map Char.toUpper)

theorem exists_of_isSome {α : Type} {result : Except BuddyError α}
    (h : result.toOption.isSome = true) : ∃ value, result = .ok value := by
  cases result with
  | ok value => exact ⟨value, rfl⟩
  | error e => cases h

theorem issued_sample :
    (submit sampleService (sampleSubmission "") ⟨[], []⟩).toOption.isSome = true := by
  decide +kernel

theorem issued_capitals :
    (submit sampleService (sampleSubmission capitals) ⟨[], []⟩).toOption.isSome = true := by
  decide +kernel

/-- The pair that the reviewer has signed. -/
def sampleSigned (generator : String) : Set (Members WholeFloat × Members WholeFloat) :=
  {(sampleContract, sampleAttempt generator)}

theorem unforged_sample (generator : String) :
    Unforged Ed25519.sample (sampleSigned generator) (sampleSubmission generator) :=
  fun _ hmessage _ => ⟨_, _, Set.mem_singleton _, sampleContract_distinct,
    sampleAttempt_distinct generator, hmessage⟩

theorem respelled_capitals : Respelled (sampleSubmission capitals) :=
  ⟨capitals, sampleKey, rfl, by decide +kernel, by decide +kernel, octets_length 32 10,
    fromHex_hex _⟩

theorem certified_iff_sample : ∃ result,
    submit sampleService (sampleSubmission "") ⟨[], []⟩ = .ok result ∧
      (Certified sampleService (sampleSigned "") (sampleSubmission "") ↔
        ¬ Respelled (sampleSubmission "")) := by
  obtain ⟨result, hresult⟩ := exists_of_isSome issued_sample
  exact ⟨result, hresult, certified_iff hresult (unforged_sample "")⟩

/-- A generator certifies its own work under its key in capitals. -/
theorem generator_certified : ∃ result,
    submit sampleService (sampleSubmission capitals) ⟨[], []⟩ = .ok result ∧
      ¬ Certified sampleService (sampleSigned capitals) (sampleSubmission capitals) := by
  obtain ⟨result, hresult⟩ := exists_of_isSome issued_capitals
  refine ⟨result, hresult, fun hcertified => ?_⟩
  exact (independent_iff (passed_of_submit hresult)).mp hcertified.independent respelled_capitals

end Samples

end Decillion.BuddyGates
