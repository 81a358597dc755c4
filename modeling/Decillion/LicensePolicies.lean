import Decillion.Evaluations
import Decillion.WeightVaults

/-!
The license gate in front of the weight vault. The license in the metadata of a model and
the one that the operator expects are brought to a normal form and compared before anything
is read or written; a license that is missing or empty, on either side, has the normal form
of the text `unknown`.
-/
namespace Decillion.LicensePolicies

open ByteText Evaluations JsonStrings JsonText JsonValues Primitives Programs PyErrors PyValues
  Trees TreeSystem WeightVaults

def LICENSE_ALIASES : List (String × String) :=
  [("mit", "mit"), ("apache-2.0", "apache-2.0"), ("apache 2.0", "apache-2.0")]

inductive MirrorError where
  | licensePolicy (message : String)
  | vault (e : WeightError)
  | python (e : PyError)
deriving DecidableEq

/-- The metadata of a model: a dictionary, an object with attributes or nothing. -/
inductive CardData (F : Type) where
  | missing
  | dict (members : Members F)
  | object (attributes : Members F)

/-- What the hub tells of a model. -/
structure HubModel (F : Type) where
  sha : Option String
  cardData : CardData F
  siblings : List Sibling

/-- A call of the command with the weights, with what the download does and how it ends. -/
structure HubCall (F : Type) where
  modelId : String
  expectedLicense : String
  info : HubModel F
  download : List (Path × Option Node)
  failure : Option PyError

variable {F : Type} [FloatText F] [FloatNumber F] (lowering : Lowering)

def normalizeText (text : String) : String :=
  let raw := lowering.lower (strip text)
  (LICENSE_ALIASES.lookup raw).getD raw

def normalizeLicense (value : Json F) : Except PyError String :=
  if truthy value then
    match value with
    | .str text => .ok (normalizeText lowering text)
    | _ => .error .attributeError
  else .ok (normalizeText lowering "unknown")

def CardData.license : CardData F → Json F
  | .missing => .null
  | .dict members => (members.lookup "license").getD .null
  | .object attributes => (attributes.lookup "license").getD .null

variable (repr : String → String)

def requireLicense (actual : Json F) (expected : String) : Except MirrorError String :=
  match normalizeLicense lowering actual with
  | .error e => .error (.python e)
  | .ok normalizedActual =>
      match normalizeLicense lowering (.str expected : Json F) with
      | .error e => .error (.python e)
      | .ok normalizedExpected =>
          if normalizedActual = normalizedExpected then .ok normalizedActual
          else .error (.licensePolicy ("model license " ++ repr normalizedActual ++
            " does not match required " ++ repr normalizedExpected))

variable (sha : Sha256)

/-- A model without a revision has no path; its id is looked at first. -/
def pathWithoutRevision (modelId : String) : Except WeightError Path := do
  let _ ← snapshotPath modelId "revision"
  .error (.python .typeError)

/-- The part of the command after the license is verified. -/
def mirrorVerified (call : HubCall F) (license : String) : Weight (MirrorRecord F) :=
  match call.info.sha with
  | some revision => WeightVaults.mirror F repr sha
      ⟨call.modelId, revision, license, call.info.siblings, call.download, call.failure⟩
  | none => do
      let vault ← openVault (F := F)
      requireCapacity repr vault (expectedSize call.info.siblings)
      let _ ← fromExcept (pathWithoutRevision call.modelId)
      throw (.python .typeError)

def mirror (call : HubCall F) : Act MirrorError (MirrorRecord F) :=
  match requireLicense lowering repr call.info.cardData.license call.expectedLicense with
  | .error e => throw e
  | .ok license => mapError .vault (mirrorVerified repr sha call license)

section Gate

variable (call : HubCall F)

/-- The normal form of a license that is given as text. -/
def normalForm (text : String) : String :=
  if text = "" then "unknown" else normalizeText lowering text

/-- The metadata carries a license that is not blank and is the expected one. -/
def Licensed : Prop :=
  ∃ text, call.info.cardData.license = .str text ∧ strip text ≠ "" ∧
    normalForm lowering text = normalForm lowering call.expectedLicense

/-- The metadata is no license that the gate mistakes for another or cannot read. -/
def Judged : Prop :=
  (∃ text, call.info.cardData.license = .str text ∧ strip text ≠ "") ∨
    (truthy call.info.cardData.license = false ∧
      normalForm lowering call.expectedLicense ≠ "unknown") ∨
    ∃ text, call.info.cardData.license = .str text ∧ text ≠ "" ∧ strip text = "" ∧
      normalForm lowering call.expectedLicense ≠ ""

theorem strip_unknown : strip "unknown" = "unknown" := by decide

theorem strip_empty : strip "" = "" := by decide

theorem normalizeText_unknown : normalizeText lowering "unknown" = "unknown" := by
  have hlower : lowering.lower "unknown" = "unknown" :=
    (lowering.lower_ascii "unknown" (by decide)).trans (by decide)
  rw [normalizeText, strip_unknown, hlower]
  decide

theorem normalizeText_blank {text : String} (h : strip text = "") :
    normalizeText lowering text = "" := by
  have hlower : lowering.lower "" = "" :=
    (lowering.lower_ascii "" (by decide)).trans (by decide)
  rw [normalizeText, h, hlower]
  decide

omit [FloatText F] in
theorem normalizeLicense_missing {value : Json F} (h : truthy value = false) :
    normalizeLicense lowering value = .ok "unknown" := by
  unfold normalizeLicense
  rw [h, if_neg Bool.false_ne_true, normalizeText_unknown]

omit [FloatText F] in
theorem normalizeLicense_str {text : String} (h : text ≠ "") :
    normalizeLicense lowering (.str text : Json F) = .ok (normalizeText lowering text) := by
  unfold normalizeLicense
  exact if_pos (decide_eq_true h)

omit [FloatText F] in
theorem normalizeLicense_text (text : String) :
    normalizeLicense lowering (.str text : Json F) = .ok (normalForm lowering text) := by
  by_cases h : text = ""
  · subst h
    rw [normalForm, if_pos rfl]
    exact normalizeLicense_missing lowering rfl
  · rw [normalForm, if_neg h]
    exact normalizeLicense_str lowering h

theorem normalForm_of_ne {text : String} (h : text ≠ "") :
    normalForm lowering text = normalizeText lowering text := if_neg h

omit [FloatText F] in
theorem normalizeLicense_other {value : Json F} (h : truthy value = true)
    (htext : ∀ text, value ≠ .str text) :
    normalizeLicense lowering value = .error .attributeError := by
  unfold normalizeLicense
  rw [h, if_pos rfl]
  cases value with
  | str text => exact absurd rfl (htext text)
  | _ => rfl

variable {lowering repr}

omit [FloatText F] in
theorem requireLicense_ok {actual : Json F} {expected normalized : String}
    (hactual : normalizeLicense lowering actual = .ok normalized)
    (h : normalized = normalForm lowering expected) :
    requireLicense lowering repr actual expected = .ok normalized := by
  simp only [requireLicense, hactual, normalizeLicense_text]
  exact if_pos h

omit [FloatText F] in
theorem requireLicense_refused {actual : Json F} {expected normalized : String}
    (hactual : normalizeLicense lowering actual = .ok normalized)
    (h : normalized ≠ normalForm lowering expected) :
    ∃ message, requireLicense lowering repr actual expected =
      .error (.licensePolicy message) := by
  simp only [requireLicense, hactual, normalizeLicense_text]
  exact ⟨_, if_neg h⟩

variable {ι : Type} [DecidableEq ι] (me : ι) (env : TreeEnv) (s : TreeHost ι)
  (lowering repr)

/-- The command raises `LicensePolicyError` and calls nothing, so that the vault stays as it
is and no download begins. -/
def Refused : Prop :=
  ∃ message, Only (fun _ => False) (mirror lowering repr sha call) ∧
    eval (handle me env) (mirror lowering repr sha call) s = (.error (.licensePolicy message), s)

variable {call me env s sha lowering repr}

theorem refused_of_error {message : String}
    (h : requireLicense lowering repr call.info.cardData.license call.expectedLicense =
      .error (.licensePolicy message)) :
    Refused lowering repr sha call me env s := by
  refine ⟨message, ?_, ?_⟩
  · rw [mirror, h]
    trivial
  · rw [mirror, h]
    rfl

/-- What is raised after the gate is no `LicensePolicyError`. -/
theorem not_refused_of_ok {license : String}
    (h : requireLicense lowering repr call.info.cardData.license call.expectedLicense =
      .ok license) :
    ¬ Refused lowering repr sha call me env s := by
  rintro ⟨message, -, hrun⟩
  rw [mirror, h] at hrun
  have hresult := congrArg Prod.fst ((eval_bind _ _ s).symm.trans hrun)
  change Except.mapError MirrorError.vault _ = _ at hresult
  revert hresult
  cases (eval (handle me env) (mirrorVerified repr sha call license) s).1 with
  | error e => exact fun hresult => nomatch hresult
  | ok record => exact fun hresult => nomatch hresult

theorem not_refused_of_python {e : PyError}
    (h : requireLicense lowering repr call.info.cardData.license call.expectedLicense =
      .error (.python e)) :
    ¬ Refused lowering repr sha call me env s := by
  rintro ⟨message, -, hrun⟩
  rw [mirror, h] at hrun
  cases congrArg Prod.fst hrun

/-- The gate lets only an expected license pass and refuses all else with
`LicensePolicyError` exactly when the metadata is judged rightly. -/
theorem fails_closed_iff :
    (Licensed lowering call ∨ Refused lowering repr sha call me env s) ↔
      Judged lowering call := by
  by_cases htext : ∃ text, call.info.cardData.license = .str text ∧ text ≠ ""
  · obtain ⟨text, htext, hne⟩ := htext
    have hactual : normalizeLicense lowering call.info.cardData.license =
        .ok (normalForm lowering text) := htext ▸ normalizeLicense_text lowering text
    by_cases hblank : strip text = ""
    · rw [normalForm_of_ne lowering hne, normalizeText_blank lowering hblank] at hactual
      constructor
      · rintro (⟨other, hother, hnotBlank, -⟩ | hrefused)
        · exact Or.inl ⟨other, hother, hnotBlank⟩
        · refine Or.inr (Or.inr ⟨text, htext, hne, hblank, fun hsame => ?_⟩)
          exact not_refused_of_ok (requireLicense_ok hactual hsame.symm) hrefused
      · rintro (⟨other, hother, hnotBlank⟩ | ⟨hfalse, -⟩ | ⟨other, -, -, -, hexpected⟩)
        · rw [htext] at hother
          exact absurd (Json.str.inj hother ▸ hblank) hnotBlank
        · rw [htext, truthy, decide_eq_false_iff_not] at hfalse
          exact absurd hne hfalse
        · obtain ⟨message, herror⟩ := requireLicense_refused hactual hexpected.symm
          exact Or.inr (refused_of_error herror)
    · refine iff_of_true ?_ (Or.inl ⟨text, htext, hblank⟩)
      by_cases hsame : normalForm lowering text = normalForm lowering call.expectedLicense
      · exact Or.inl ⟨text, htext, hblank, hsame⟩
      · obtain ⟨message, herror⟩ := requireLicense_refused hactual hsame
        exact Or.inr (refused_of_error herror)
  · have hempty : ∀ text, call.info.cardData.license = .str text → text = "" :=
      fun text h => by_contra fun hne => htext ⟨text, h, hne⟩
    have hblank : ∀ text, call.info.cardData.license = .str text → strip text = "" :=
      fun text h => hempty text h ▸ strip_empty
    cases htruthy : truthy call.info.cardData.license with
    | false =>
      have hactual := normalizeLicense_missing lowering htruthy
      constructor
      · rintro (⟨text, hlicense, hnotBlank, -⟩ | hrefused)
        · exact absurd (hblank text hlicense) hnotBlank
        · refine Or.inr (Or.inl ⟨htruthy, fun hsame => ?_⟩)
          exact not_refused_of_ok (requireLicense_ok hactual hsame.symm) hrefused
      · rintro (⟨text, hlicense, hnotBlank⟩ | ⟨-, hother⟩ | ⟨text, hlicense, hne, -⟩)
        · exact absurd (hblank text hlicense) hnotBlank
        · obtain ⟨message, herror⟩ := requireLicense_refused hactual hother.symm
          exact Or.inr (refused_of_error herror)
        · exact absurd (hempty text hlicense) hne
    | true =>
      have hnoText : ∀ text, call.info.cardData.license ≠ .str text := by
        intro text hlicense
        rw [hlicense, hempty text hlicense] at htruthy
        cases htruthy
      have herror : requireLicense lowering repr call.info.cardData.license
          call.expectedLicense = .error (.python .attributeError) := by
        rw [requireLicense, normalizeLicense_other lowering htruthy hnoText]
      refine iff_of_false ?_ ?_
      · rintro (⟨text, hlicense, -⟩ | hrefused)
        · exact hnoText text hlicense
        · exact not_refused_of_python herror hrefused
      · rintro (⟨text, hlicense, -⟩ | ⟨hfalse, -⟩ | ⟨text, hlicense, -⟩)
        · exact hnoText text hlicense
        · rw [htruthy] at hfalse
          cases hfalse
        · exact hnoText text hlicense

/-- A model without metadata, asked for under the license `unknown`. -/
def unnamedCall : HubCall WholeFloat where
  modelId := "o/n"
  expectedLicense := "unknown"
  info := ⟨some "r", .missing, []⟩
  download := []
  failure := none

def quietEnv : TreeEnv := ⟨fun _ => false, fun _ => 0, fun _ => "x", fun _ => "", fun _ => 1⟩

def rootOnly : Tree where
  node := fun path => if path = [] then some .dir else none
  names := [[]]
  named := fun _ h => by_contra fun hin =>
    h (if_neg fun hnil => hin (List.mem_singleton.mpr hnil))
  closed := fun path name h => absurd (if_neg (List.concat_ne_nil name path)) h
  proper := fun path name h => absurd (if_neg (List.concat_ne_nil name path)) h

/-- Missing metadata passes the gate when the operator expects the license `unknown`. -/
theorem missing_license_passes :
    ¬ (Licensed Lowering.sample unnamedCall ∨
      Refused Lowering.sample id Sha256.sample unnamedCall () quietEnv
        ⟨rootOnly, fun _ => [], 0⟩) := by
  have hactual : normalizeLicense Lowering.sample unnamedCall.info.cardData.license =
      .ok "unknown" := normalizeLicense_missing Lowering.sample rfl
  rintro (⟨text, h, -⟩ | hrefused)
  · cases h
  · have hexpected : "unknown" = normalForm Lowering.sample unnamedCall.expectedLicense :=
      (normalForm_of_ne Lowering.sample (by decide)).trans
        (normalizeText_unknown Lowering.sample) |>.symm
    exact not_refused_of_ok (requireLicense_ok hactual hexpected) hrefused

end Gate

end Decillion.LicensePolicies
