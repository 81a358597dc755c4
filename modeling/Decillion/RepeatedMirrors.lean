import Decillion.CapacityChecks
import Decillion.LicensePolicies
import Decillion.MirrorRules

/-!
A mirror that is called again. The snapshot that the first call has left is verified and gives
the same record, but only after the capacity check: the bytes of a download that is not made
are asked for once more, beside those that the snapshot uses already.
-/
namespace Decillion.RepeatedMirrors

open ByteText Evaluations JsonStrings JsonText JsonValues LicensePolicies MirrorRules MirrorSteps
  Primitives Programs PyErrors PyValues SnapshotManifests TextFiles TreeSystem Trees
  WeightEvaluations WeightRules
open WeightVaults hiding mirror

variable {ι F : Type} [DecidableEq ι] [FloatText F] [FloatNumber F] {u : ι} {env : TreeEnv}

/-- The vault that the marker of a tree describes. -/
def Opens (t : Tree) (vault : WeightVault F) : Prop :=
  ∃ content text, nodeContent t [MARKER] = some content ∧ readText content = some text ∧
    loads text = some (.obj vault.config) ∧
    (vault.config.lookup "format_version").any (fun value => equalsInt value FORMAT_VERSION) = true

section Reading

variable (hquiet : ∀ tick, env.fault tick = false) {s : TreeHost ι} {vault : WeightVault F}
include hquiet

theorem eval_perform_readFile {path : Path} {content : Bytes}
    (h : nodeContent s.tree path = some content) :
    eval (handle u env) (perform (.readFile path) : Weight (Resp _)) s =
      (.ok (.ok content : Except PyError Bytes), later s 1) := by
  simp only [perform, eval, handle, hquiet, fileContent, h]
  rfl

theorem eval_openVault (h : Opens s.tree vault) :
    eval (handle u env) (openVault (F := F)) s = (.ok vault, later s 2) := by
  obtain ⟨content, text, hcontent, htext, hloads, hversion⟩ := h
  unfold openVault
  rw [eval_then (eval_isFile hquiet _ _), hcontent]
  refine (eval_then (eval_perform_readFile hquiet (s := later s 1) hcontent)).trans ?_
  dsimp only
  rw [htext]
  dsimp only
  rw [hloads]
  dsimp only
  rw [if_pos hversion]
  rfl

variable (sha : Sha256) {modelId revision : String} {target : Path} {manifest : Json F}

/-- What is verified is returned. -/
theorem eval_verify (htarget : snapshotPath modelId revision = .ok target)
    (h : Verified sha s.tree modelId revision target manifest) :
    ∃ n, eval (handle u env) (verify sha modelId revision : Weight (Json F)) s =
      (.ok manifest, later s n) := by
  obtain ⟨content, found, hcontent, hload, hfound, hcheck⟩ := h
  have hpath : eval (handle u env) (fromExcept (snapshotPath modelId revision) : Weight Path) s =
      (.ok target, s) := by
    rw [htarget]
    rfl
  obtain ⟨n, hinventory⟩ := eval_inventory hquiet sha (later s 2) target (u := u)
  rw [later_tree, hfound, later_later] at hinventory
  refine ⟨2 + n, ?_⟩
  unfold verify
  rw [eval_then hpath, eval_then (eval_isFile hquiet _ _), hcontent]
  refine (eval_then (eval_perform_readFile hquiet (s := later s 1) hcontent)).trans ?_
  dsimp only
  have hmanifest : eval (handle u env) (fromExcept (loadManifest content) : Weight (Json F))
      (later (later s 1) 1) = (.ok manifest, later s 2) := by
    rw [hload]
    rfl
  rw [eval_then hmanifest, eval_then hinventory]
  exact congrArg (fun result => (result, later s (2 + n))) hcheck

/-- With the snapshot at its place a mirror is decided by the capacity check. -/
theorem eval_mirror_present (repr : String → String) {call : MirrorCall}
    {record : MirrorRecord F} (hvault : Opens s.tree vault) (h : Reported sha s call record) :
    (Accepts repr vault (usedBytes s.tree) (env.free (s.tick + 2)) (expectedSize call.siblings) →
      ∃ n, eval (handle u env) (WeightVaults.mirror F repr sha call) s = (.ok record, later s n)) ∧
    (¬ Accepts repr vault (usedBytes s.tree) (env.free (s.tick + 2)) (expectedSize call.siblings) →
      ∃ e s', eval (handle u env) (WeightVaults.mirror F repr sha call) s = (.error e, s')) := by
  obtain ⟨target, manifest, htarget, hverified, hrecord⟩ := h
  obtain ⟨n, result, hcheck, hiff⟩ := eval_requireCapacity hquiet (later s 2) repr vault
    (expectedSize call.siblings) (u := u)
  rw [later_later] at hcheck
  rw [later_tree, later_tick] at hiff
  have hopened := eval_openVault (u := u) hquiet hvault
  unfold WeightVaults.mirror
  constructor
  · intro haccepts
    rw [hiff.mpr haccepts] at hcheck
    have hpath : eval (handle u env)
        (fromExcept (snapshotPath call.modelId call.revision) : Weight Path) (later s (2 + n)) =
          (.ok target, later s (2 + n)) := by
      rw [htarget]
      rfl
    have hexists : nodeExists s.tree target = true := by
      have hdir : s.tree.node target = some .dir := by
        obtain ⟨content, -, hcontent, -⟩ := hverified
        apply s.tree.dir_of_prefix target [MANIFEST] (by simp)
        intro hnone
        rw [nodeContent, hnone] at hcontent
        cases hcontent
      rw [nodeExists, hdir]
    obtain ⟨m, hverify⟩ := eval_verify (u := u) hquiet sha (s := later (later s (2 + n)) 1) htarget
      hverified
    refine ⟨2 + n + (1 + m), ?_⟩
    rw [eval_then hopened, eval_then hcheck, eval_then hpath,
      eval_then (eval_pathExists hquiet _ _), later_tree, hexists]
    refine (eval_then hverify).trans ?_
    rw [later_later, later_later]
    exact congrArg (fun result => (result, later s (2 + n + (1 + m)))) hrecord
  · intro haccepts
    cases result with
    | ok _ => exact absurd (hiff.mp rfl) haccepts
    | error e =>
      rw [eval_then hopened]
      exact ⟨e, _, eval_then_error hcheck⟩

end Reading

theorem eval_mapError {ε ε' : Type} {α : Type} (f : ε → ε') (x : Act ε α) (s : TreeHost ι) :
    eval (handle u env) (mapError f x) s =
      ((eval (handle u env) x s).1.mapError f, (eval (handle u env) x s).2) := eval_bind _ _ s

variable (lowering : Lowering) (repr : String → String) (sha : Sha256)

/-- The command reads the metadata, and then mirrors the revision under the verified license. -/
theorem mirror_ok {call : HubCall F} {record : MirrorRecord F} {s s' : TreeHost ι}
    (h : eval (handle u env) (mirror lowering repr sha call) s = (.ok record, s')) :
    ∃ license revision,
      requireLicense lowering repr call.info.cardData.license call.expectedLicense =
        .ok license ∧ call.info.sha = some revision ∧
      eval (handle u env) (WeightVaults.mirror F repr sha ⟨call.modelId, revision, license,
        call.info.siblings, call.download, call.failure⟩) s = (.ok record, s') := by
  unfold mirror at h
  cases hlicense : requireLicense lowering repr call.info.cardData.license
      call.expectedLicense with
  | error e =>
    rw [hlicense] at h
    cases congrArg Prod.fst h
  | ok license =>
    rw [hlicense] at h
    refine ⟨license, ?_⟩
    have heval :=
      (eval_mapError MirrorError.vault (mirrorVerified repr sha call license) s).symm.trans h
    cases hresult : (eval (handle u env) (mirrorVerified repr sha call license) s).1 with
    | error e =>
      rw [hresult] at heval
      cases congrArg Prod.fst heval
    | ok found =>
      rw [hresult] at heval
      obtain rfl : found = record := Except.ok.inj (congrArg Prod.fst heval)
      have hrun :
          eval (handle u env) (mirrorVerified repr sha call license) s = (.ok found, s') := by
        refine Prod.ext hresult ?_
        exact congrArg (fun pair => pair.2) heval
      unfold mirrorVerified at hrun
      cases hrevision : call.info.sha with
      | some revision =>
        rw [hrevision] at hrun
        exact ⟨revision, rfl, rfl, hrun⟩
      | none =>
        rw [hrevision] at hrun
        obtain ⟨vault, s₁, -, hrun⟩ := eval_then_ok hrun
        obtain ⟨⟨⟩, s₂, -, hrun⟩ := eval_then_ok hrun
        obtain ⟨path, s₃, -, hrun⟩ := eval_then_ok hrun
        cases congrArg Prod.fst hrun

/-- The call returns the same record once more and leaves the tree as it is. -/
def Repeated (u : ι) (env : TreeEnv) (call : HubCall F) (record : MirrorRecord F)
    (s : TreeHost ι) : Prop :=
  ∃ s', eval (handle u env) (mirror lowering repr sha call) s = (.ok record, s') ∧
    s'.tree = s.tree

section Repetition

variable {v : ι} {before : TreeEnv} {call : HubCall F} {record : MirrorRecord F}
  {s s₁ s₂ : TreeHost ι}

/-- What the first call has returned stays reported as long as the snapshot is intact. -/
theorem reported_of_first
    (hfirst : eval (handle v before) (mirror lowering repr sha call) s = (.ok record, s₁))
    (hintact : ∀ rest, s₂.tree.node (record.destination ++ rest) =
      s₁.tree.node (record.destination ++ rest)) :
    ∃ license revision,
      requireLicense lowering repr call.info.cardData.license call.expectedLicense =
        .ok license ∧ call.info.sha = some revision ∧
      ∀ download failure, Reported sha s₂
        ⟨call.modelId, revision, license, call.info.siblings, download, failure⟩ record := by
  obtain ⟨license, revision, hlicense, hrevision, hrun⟩ := mirror_ok lowering repr sha hfirst
  refine ⟨license, revision, hlicense, hrevision, fun download failure => ?_⟩
  let started : MirrorCall :=
    ⟨call.modelId, revision, license, call.info.siblings, call.download, call.failure⟩
  let post : Except WeightError (MirrorRecord F) → TreeHost ι → Prop := fun result s' =>
    ∀ record, result = .ok record → Reported sha s' started record
  have hpost : post (eval (handle v before) (WeightVaults.mirror F repr sha started) s).1
      (eval (handle v before) (WeightVaults.mirror F repr sha started) s).2 := by
    apply @eval_safe _ _ _ _ (handle v before) (Spared v before) (fun _ _ => True)
      (May F sha v before) _ post _ s (fun _ _ => trivial)
    apply safe_mirror sha repr started s
    · exact fun found s' hreported other hother => Except.ok.inj hother ▸ hreported
    · exact fun e s' other hother => nomatch hother
  have hsafe := hpost record (congrArg Prod.fst hrun)
  rw [hrun] at hsafe
  obtain ⟨target, manifest, htarget, hverified, hrecord⟩ := hsafe
  have hdestination : record.destination = target := by
    unfold mirrorRecord at hrecord
    split at hrecord
    · obtain ⟨count, -, hrecord⟩ := bind_eq_ok hrecord
      exact (congrArg MirrorRecord.destination (Except.ok.inj hrecord)).symm
    · cases hrecord
  rw [hdestination] at hintact
  exact ⟨target, manifest, htarget, (verified_congr sha hintact).mpr hverified, hrecord⟩

theorem eval_mirror_licensed (u : ι) (env : TreeEnv) (call : HubCall F) {license revision : String}
    (hlicense : requireLicense lowering repr call.info.cardData.license call.expectedLicense =
      .ok license) (hrevision : call.info.sha = some revision) (s : TreeHost ι) :
    eval (handle u env) (mirror lowering repr sha call) s =
      ((eval (handle u env) (WeightVaults.mirror F repr sha ⟨call.modelId, revision, license,
        call.info.siblings, call.download, call.failure⟩) s).1.mapError .vault,
      (eval (handle u env) (WeightVaults.mirror F repr sha ⟨call.modelId, revision, license,
        call.info.siblings, call.download, call.failure⟩) s).2) := by
  unfold mirror
  rw [hlicense]
  dsimp only
  rw [eval_mapError, mirrorVerified, hrevision]

/-- A call that is made again returns the same exactly when the capacity check accepts the
download that it does not need. -/
theorem mirror_again_iff (hquiet : ∀ tick, env.fault tick = false) {vault : WeightVault F}
    (hfirst : eval (handle v before) (mirror lowering repr sha call) s = (.ok record, s₁))
    (hintact : ∀ rest, s₂.tree.node (record.destination ++ rest) =
      s₁.tree.node (record.destination ++ rest))
    (hvault : Opens s₂.tree vault) (download : List (Path × Option Node))
    (failure : Option PyError) :
    Repeated lowering repr sha u env { call with download := download, failure := failure } record
        s₂ ↔
      Accepts repr vault (usedBytes s₂.tree) (env.free (s₂.tick + 2))
        (expectedSize call.info.siblings) := by
  obtain ⟨license, revision, hlicense, hrevision, hreported⟩ :=
    reported_of_first lowering repr sha hfirst hintact
  obtain ⟨haccepted, hrefused⟩ := eval_mirror_present (u := u) hquiet sha repr hvault
    (hreported download failure)
  have heval := eval_mirror_licensed lowering repr sha u env
    { call with download := download, failure := failure } hlicense hrevision s₂
  constructor
  · rintro ⟨s₃, hrun, -⟩
    by_contra hnot
    obtain ⟨e, s', herror⟩ := hrefused hnot
    rw [heval, herror] at hrun
    cases congrArg Prod.fst hrun
  · intro haccepts
    obtain ⟨n, hrun⟩ := haccepted haccepts
    refine ⟨later s₂ n, ?_, rfl⟩
    rw [heval, hrun]
    rfl

end Repetition

section Samples

def sampleConfig : Members WholeFloat := [("format_version", .int 1), ("vault_id", .str "v")]

def sampleFile : FileRecord := ⟨"w", 1, Sha256.sample.hexdigest [0]⟩

def sampleManifest : Json WholeFloat := manifestJson "o/n" "r" "mit" "" [sampleFile] 1

def sampleTarget : Path := ["models", "o", "n", "r"]

def sampleNodes : List (Path × Node) :=
  [([], .dir), (["models"], .dir), (["models", "o"], .dir), (["models", "o", "n"], .dir),
    (sampleTarget, .dir), (sampleTarget ++ ["w"], .file [0]),
    (sampleTarget ++ [MANIFEST], .file (manifestText sampleManifest)),
    ([MARKER], .file (encode (dumps (indented 2) (.obj sampleConfig) ++ "\n")))]

theorem sampleNodes_placed : CapacityChecks.placed sampleNodes = true := by decide

/-- A vault with one snapshot of one byte. -/
def sampleTree : Tree := CapacityChecks.treeOf sampleNodes sampleNodes_placed

theorem sample_opens : Opens sampleTree ⟨sampleConfig⟩ := by
  have hkeys : DistinctKeys (.obj sampleConfig : Json WholeFloat) := by
    refine ⟨by decide, ?_⟩
    simp [sampleConfig, DistinctKeysMembers, DistinctKeys]
  obtain ⟨text, htext, hloads⟩ := Option.bind_eq_some_iff.mp
    (loads_readText (indented 2) (.obj sampleConfig : Json WholeFloat) hkeys)
  exact ⟨_, text, rfl, htext, hloads, rfl⟩

theorem sample_inventory :
    inventoryOf Sha256.sample sampleTree sampleTarget = .ok ([sampleFile], 1) := by rfl

theorem sample_verified : Verified Sha256.sample sampleTree "o/n" "r" sampleTarget
    (sortKeys sampleManifest) := by
  have hmanifest : sampleTree.node (sampleTarget ++ [MANIFEST]) =
      some (.file (manifestText (manifestJson (F := WholeFloat) "o/n" "r" "mit" "" [sampleFile]
        1))) := rfl
  have hverified := verified_stored Sha256.sample sample_inventory (fun _ _ => rfl) hmanifest
  exact hverified

def sampleCall : HubCall WholeFloat where
  modelId := "o/n"
  expectedLicense := "mit"
  info := ⟨some "r", .dict [("license", .str "mit")], [⟨some 1, none⟩]⟩
  download := []
  failure := none

def sampleRecord : MirrorRecord WholeFloat := ⟨"o/n", "r", "mit", sampleTarget, 1, .int 1, 1⟩

theorem sample_license : requireLicense Lowering.sample id sampleCall.info.cardData.license
    sampleCall.expectedLicense = .ok "mit" := by
  have hlower : normalizeText Lowering.sample "mit" = "mit" := by
    have hstrip : strip "mit" = "mit" := by decide
    rw [normalizeText, hstrip, Lowering.sample.lower_ascii "mit" (by decide)]
    decide
  have hactual : normalizeLicense Lowering.sample sampleCall.info.cardData.license =
      .ok "mit" := (normalizeLicense_str Lowering.sample (by decide)).trans (congrArg _ hlower)
  have hexpected : normalForm Lowering.sample sampleCall.expectedLicense = "mit" :=
    (normalForm_of_ne Lowering.sample (by decide)).trans hlower
  exact requireLicense_ok hactual hexpected.symm

def sampleHost : TreeHost Unit := ⟨sampleTree, fun _ => [], 0⟩

theorem sample_reported : Reported Sha256.sample sampleHost ⟨sampleCall.modelId, "r", "mit",
    sampleCall.info.siblings, sampleCall.download, sampleCall.failure⟩ sampleRecord :=
  ⟨sampleTarget, _, by decide, sample_verified, rfl⟩

def sampleEnv (free : ℕ) : TreeEnv :=
  ⟨fun _ => false, fun _ => 0, fun _ => "x", fun _ => "", fun _ => free⟩

theorem sample_accepts_iff (free : ℕ) :
    Accepts id (⟨sampleConfig⟩ : WeightVault WholeFloat) (usedBytes sampleHost.tree)
      ((sampleEnv free).free (sampleHost.tick + 2)) (expectedSize sampleCall.info.siblings) ↔
        1 ≤ free := by
  have hexpected : expectedSize sampleCall.info.siblings = 1 := rfl
  rw [hexpected]
  constructor
  · rintro ⟨-, -, -, reserve, hreserve, hfits⟩
    obtain rfl : (0 : ℤ) = reserve := Except.ok.inj hreserve
    change (1 : ℤ) + 0 ≤ (free : ℤ) at hfits
    omega
  · intro hfree
    refine ⟨by decide, by decide, ⟨0, rfl, Or.inl rfl⟩, 0, rfl, ?_⟩
    change (1 : ℤ) + 0 ≤ (free : ℤ)
    omega

/-- The first call, with one free byte. -/
theorem sample_first : ∃ n, eval (handle () (sampleEnv 1))
    (mirror Lowering.sample id Sha256.sample sampleCall) sampleHost =
      (.ok sampleRecord, later sampleHost n) := by
  obtain ⟨n, hrun⟩ := (eval_mirror_present (u := ())
    (fun _ => rfl : ∀ tick, (sampleEnv 1).fault tick = false) Sha256.sample id sample_opens
      sample_reported).1 ((sample_accepts_iff 1).mpr (by decide))
  refine ⟨n, ?_⟩
  rw [eval_mirror_licensed Lowering.sample id Sha256.sample () (sampleEnv 1) sampleCall
    sample_license rfl, hrun]
  rfl

theorem mirror_again_iff_sample : ∃ s₁,
    eval (handle () (sampleEnv 1)) (mirror Lowering.sample id Sha256.sample sampleCall)
        sampleHost = (.ok sampleRecord, s₁) ∧
      (Repeated Lowering.sample id Sha256.sample () (sampleEnv 1)
          { sampleCall with download := [], failure := none } sampleRecord sampleHost ↔
        Accepts id (⟨sampleConfig⟩ : WeightVault WholeFloat) (usedBytes sampleHost.tree)
          ((sampleEnv 1).free (sampleHost.tick + 2)) (expectedSize sampleCall.info.siblings)) := by
  obtain ⟨n, hfirst⟩ := sample_first
  have hquiet : ∀ tick, (sampleEnv 1).fault tick = false := fun _ => rfl
  have hintact : ∀ rest, sampleHost.tree.node (sampleRecord.destination ++ rest) =
      (later sampleHost n).tree.node (sampleRecord.destination ++ rest) := fun _ => rfl
  have hvault : Opens sampleHost.tree (⟨sampleConfig⟩ : WeightVault WholeFloat) := sample_opens
  exact ⟨later sampleHost n, hfirst,
    mirror_again_iff Lowering.sample id Sha256.sample hquiet hfirst hintact hvault [] none⟩

/-- The mirrored model is refused for want of a byte that the call would not have used. -/
theorem mirror_refused_again : ∃ s₁,
    eval (handle () (sampleEnv 1)) (mirror Lowering.sample id Sha256.sample sampleCall)
        sampleHost = (.ok sampleRecord, s₁) ∧
      s₁.tree = sampleTree ∧ Opens sampleTree ⟨sampleConfig⟩ ∧
      ¬ Repeated Lowering.sample id Sha256.sample () (sampleEnv 0) sampleCall sampleRecord s₁ := by
  obtain ⟨n, hfirst⟩ := sample_first
  refine ⟨later sampleHost n, hfirst, rfl, sample_opens, ?_⟩
  rintro ⟨s', hrun, -⟩
  obtain ⟨e, s'', herror⟩ := (eval_mirror_present (u := ()) (s := later sampleHost n)
    (fun _ => rfl : ∀ tick, (sampleEnv 0).fault tick = false) Sha256.sample id sample_opens
      sample_reported).2 (fun haccepts => absurd ((sample_accepts_iff 0).mp haccepts) (by decide))
  rw [eval_mirror_licensed Lowering.sample id Sha256.sample () (sampleEnv 0) sampleCall
    sample_license rfl, herror] at hrun
  cases congrArg Prod.fst hrun

end Samples

end Decillion.RepeatedMirrors
