import Decillion.EditedSnapshots
import Mathlib.Algebra.BigOperators.Group.Finset.Basic

/-!
The quota of a vault over runs of `commit_snapshot`. A call checks that the files of its
inventory fit. Into the vault it brings every staged file, those in subdirectories that are named
like the manifest among them, and the manifest itself, and a later call counts all of them.
-/
namespace Decillion.VaultQuotas

open ByteText CapacityChecks EditedSnapshots Evaluations FailedMirrors Interleavings JsonStrings
  JsonText JsonValues MirrorRules MirrorSteps Primitives Programs PyErrors PyValues SnapshotFiles
  SnapshotManifests TextFiles TreeFrames TreeRules TreeSystem Trees WeightEvaluations WeightRules
  WeightVaults

section Sums

variable {t t' : Tree} {dir : Path}

theorem sizeAt_none {path : Path} (h : t.node path = none) : sizeAt t path = 0 := by
  rw [sizeAt, nodeContent, h]
  rfl

theorem sizeAt_dir {path : Path} (h : t.node path = some .dir) : sizeAt t path = 0 := by
  rw [sizeAt, nodeContent, h]
  rfl

theorem sizeAt_file {path : Path} {content : Bytes} (h : t.node path = some (.file content)) :
    sizeAt t path = content.length := by
  rw [sizeAt, nodeContent, h]
  rfl

theorem sizeAt_congr {path path' : Path} (h : t'.node path' = t.node path) :
    sizeAt t' path' = sizeAt t path := by
  rw [sizeAt, sizeAt, nodeContent, nodeContent, h]

/-- Names that lead nowhere add nothing. -/
theorem sizesOf_eq_sum (t : Tree) (dir : Path) (names : Finset Path) (hne : [] ∉ names)
    (hall : ∀ rest ∈ t.below dir, rest ∈ names) :
    sizesOf t dir (t.below dir) = ∑ rest ∈ names, sizeAt t (dir ++ rest) := by
  rw [sizesOf, ← List.sum_toFinset _ (nodup_below t dir)]
  apply Finset.sum_subset
  · exact fun rest hrest => hall rest (List.mem_toFinset.mp hrest)
  · intro rest hrest hbelow
    apply sizeAt_none
    by_contra hsome
    apply hbelow
    rw [List.mem_toFinset, mem_below]
    exact ⟨fun hnil => hne (hnil ▸ hrest), hsome⟩

/-- The bytes of the files in a staging directory beside a manifest at its root. -/
def stagedBytes (t : Tree) (staging : Path) : ℕ :=
  sizesOf t staging ((t.below staging).filter (fun rest => decide (rest ≠ [MANIFEST])))

/-- A published snapshot has the bytes of the staged files and of its manifest. -/
theorem sizesOf_published {staging target : Path} {content : Bytes}
    (hview : t'.view target =
      Function.update (t.view staging) [MANIFEST] (some (.file content))) :
    sizesOf t' target (t'.below target) = stagedBytes t staging + content.length := by
  let staged := ((t.below staging).filter (fun rest => decide (rest ≠ [MANIFEST]))).toFinset
  have hstaged : ∀ rest, rest ∈ staged ↔
      (rest ≠ [] ∧ t.node (staging ++ rest) ≠ none) ∧ rest ≠ [MANIFEST] := by
    intro rest
    rw [List.mem_toFinset, List.mem_filter, mem_below, decide_eq_true_eq]
  have hnode : ∀ rest, rest ≠ [MANIFEST] →
      t'.node (target ++ rest) = t.node (staging ++ rest) := by
    intro rest hrest
    have hrest' := congrFun hview rest
    rwa [Function.update_of_ne hrest] at hrest'
  have hmanifest : t'.node (target ++ [MANIFEST]) = some (.file content) := by
    have hrest' := congrFun hview [MANIFEST]
    rwa [Function.update_self] at hrest'
  have hfresh : [MANIFEST] ∉ staged := fun h => ((hstaged _).mp h).2 rfl
  rw [sizesOf_eq_sum t' target (insert [MANIFEST] staged), Finset.sum_insert hfresh,
    sizeAt_file hmanifest, stagedBytes, sizesOf,
    ← List.sum_toFinset _ ((nodup_below t staging).filter _), add_comm]
  · refine congrArg (· + content.length) (Finset.sum_congr rfl fun rest hrest => ?_)
    exact sizeAt_congr (hnode rest ((hstaged rest).mp hrest).2)
  · rw [Finset.mem_insert]
    rintro (hnil | hnil)
    · cases hnil
    · exact ((hstaged []).mp hnil).1.1 rfl
  · intro rest hrest
    rw [mem_below] at hrest
    by_cases heq : rest = [MANIFEST]
    · exact Finset.mem_insert.mpr (Or.inl heq)
    · exact Finset.mem_insert_of_mem ((hstaged rest).mpr ⟨⟨hrest.1, hnode rest heq ▸ hrest.2⟩, heq⟩)

/-- The used bytes of two trees are sums over the same names. -/
theorem exists_names (t t' : Tree) : ∃ names : Finset Path,
    (∀ rest ∈ t'.below ["models"], rest ∈ names) ∧
    usedBytes t = ∑ rest ∈ names, sizeAt t (["models"] ++ rest) ∧
    usedBytes t' = ∑ rest ∈ names, sizeAt t' (["models"] ++ rest) := by
  let names := (t.below ["models"]).toFinset ∪ (t'.below ["models"]).toFinset
  have hnil : [] ∉ names := by
    rw [Finset.mem_union, List.mem_toFinset, List.mem_toFinset, mem_below, mem_below]
    rintro (h | h)
    · exact h.1 rfl
    · exact h.1 rfl
  have hleft : ∀ rest ∈ t.below ["models"], rest ∈ names :=
    fun rest h => Finset.mem_union_left _ (List.mem_toFinset.mpr h)
  have hright : ∀ rest ∈ t'.below ["models"], rest ∈ names :=
    fun rest h => Finset.mem_union_right _ (List.mem_toFinset.mpr h)
  exact ⟨names, hright, sizesOf_eq_sum t ["models"] names hnil hleft,
    sizesOf_eq_sum t' ["models"] names hnil hright⟩

theorem usedBytes_of_sizes
    (h : ∀ rest, sizeAt t' (["models"] ++ rest) = sizeAt t (["models"] ++ rest)) :
    usedBytes t' = usedBytes t := by
  obtain ⟨names, -, hused, hused'⟩ := exists_names t t'
  rw [hused, hused']
  exact Finset.sum_congr rfl fun rest _ => h rest

/-- What is new below a place adds its bytes. -/
theorem usedBytes_add {place : Path} (hplace : t'.node (["models"] ++ place) = some .dir)
    (hne : place ≠ [])
    (hout : ∀ rest, ¬ place <+: rest →
      sizeAt t' (["models"] ++ rest) = sizeAt t (["models"] ++ rest))
    (hempty : ∀ rest, sizeAt t (["models"] ++ (place ++ rest)) = 0) :
    usedBytes t' = usedBytes t +
      sizesOf t' (["models"] ++ place) (t'.below (["models"] ++ place)) := by
  obtain ⟨names, hnames, hused, hused'⟩ := exists_names t t'
  let added := (t'.below (["models"] ++ place)).toFinset.image (place ++ ·)
  have hsubset : added ⊆ names := by
    intro rest hrest
    obtain ⟨other, hother, rfl⟩ := Finset.mem_image.mp hrest
    rw [List.mem_toFinset, mem_below, List.append_assoc] at hother
    apply hnames
    rw [mem_below]
    exact ⟨fun h => hne (List.append_eq_nil_iff.mp h).1, hother.2⟩
  have hbefore : ∑ rest ∈ added, sizeAt t (["models"] ++ rest) = 0 := by
    apply Finset.sum_eq_zero
    intro rest hrest
    obtain ⟨other, -, rfl⟩ := Finset.mem_image.mp hrest
    exact hempty other
  have hafter : ∑ rest ∈ added, sizeAt t' (["models"] ++ rest) =
      sizesOf t' (["models"] ++ place) (t'.below (["models"] ++ place)) := by
    rw [Finset.sum_image (fun _ _ _ _ h => List.append_cancel_left h), sizesOf,
      ← List.sum_toFinset _ (nodup_below _ _)]
    simp only [List.append_assoc]
  have hothers : ∑ rest ∈ names \ added, sizeAt t' (["models"] ++ rest) =
      ∑ rest ∈ names \ added, sizeAt t (["models"] ++ rest) := by
    refine Finset.sum_congr rfl fun rest hrest => ?_
    by_cases hbelow : place <+: rest
    · obtain ⟨other, rfl⟩ := hbelow
      rw [hempty]
      cases other with
      | nil => exact sizeAt_dir (by rwa [List.append_nil])
      | cons name other =>
        apply sizeAt_none
        by_contra hsome
        refine (Finset.mem_sdiff.mp hrest).2 (Finset.mem_image_of_mem _ ?_)
        rw [List.mem_toFinset, mem_below, List.append_assoc]
        exact ⟨List.cons_ne_nil _ _, hsome⟩
    · exact hout rest hbelow
  rw [hused, hused', ← Finset.sum_sdiff hsubset, hothers, hafter,
    ← Finset.sum_sdiff (f := fun rest => sizeAt t (["models"] ++ rest)) hsubset, hbefore, add_zero]

end Sums

variable {ι F : Type} [DecidableEq ι] [FloatText F] [FloatNumber F] {u : ι} {env : TreeEnv}

section Growth

/-- Outside of the area nothing has changed, except for directories that are new. -/
def Grown (area : Path → Prop) (s s' : TreeHost ι) : Prop :=
  ∀ p, ¬ area p → s'.tree.node p = s.tree.node p ∨
    s.tree.node p = none ∧ s'.tree.node p = some .dir

instance (area : Path → Prop) : IsPreorder (TreeHost ι) (Grown area) where
  refl _ := fun _ _ => Or.inl rfl
  trans _ _ _ h h' := by
    intro p hp
    rcases h p hp with heq | ⟨hnone, hdir⟩
    · rcases h' p hp with heq' | ⟨hnone', hdir'⟩
      · exact Or.inl (heq'.trans heq)
      · exact Or.inr ⟨heq ▸ hnone', hdir'⟩
    · rcases h' p hp with heq' | ⟨hnone', hdir'⟩
      · exact Or.inr ⟨hnone, heq'.trans hdir⟩
      · cases hdir.symm.trans hnone'

omit [DecidableEq ι] in
theorem Grown.sizeAt {area : Path → Prop} {s s' : TreeHost ι} (h : Grown area s s') {p : Path}
    (hp : ¬ area p) : sizeAt s'.tree p = sizeAt s.tree p := by
  rcases h p hp with heq | ⟨hnone, hdir⟩
  · exact sizeAt_congr heq
  · rw [sizeAt_none hnone, sizeAt_dir hdir]

theorem mkdir_node (s : TreeHost ι) (path : Path) :
    (handle u env s (.mkdir path)).2.tree.node path = s.tree.node path ∨
      s.tree.node path = none ∧
        (handle u env s (.mkdir path)).2.tree.node path = some .dir := by
  rcases mkdir_cases u env s path with hnext | ⟨t, hnone, hput, hnext⟩
  · rw [hnext]
    exact Or.inl rfl
  · rw [hnext]
    refine Or.inr ⟨hnone, ?_⟩
    change t.node path = some .dir
    rw [put_node hput, Function.update_self]

theorem confines_grown (staging target : Path) :
    Confines u env (Grown (fun p => staging <+: p)) staging target where
  same s s' h := by
    intro p _
    rw [h]
    exact Or.inl rfl
  staged op hop s p hp := Or.inl (handle_node u env s op p (fun htouch => hp (hop p htouch)))
  parent path _ s p hp := by
    by_cases heq : p = path
    · rw [heq]
      exact mkdir_node s path
    · exact Or.inl (handle_node u env s (.mkdir path) p heq)

end Growth

section Calls

variable (repr : String → String) (sha : Sha256) (vault : WeightVault F) {staging target : Path}
  {modelId revision license : String} {s s₁ : TreeHost ι} {manifest : Json F}

/-- What a call does to the sizes outside of the staging directory and of what it publishes. -/
theorem sizes_of_commit {result : Except WeightError (Json F)}
    (hcommit : eval (handle u env)
      (commitSnapshot repr sha vault staging modelId revision license) s = (result, s₁)) {p : Path}
    (hstaging : ¬ staging <+: p)
    (hplace : ∀ target manifest, snapshotPath modelId revision = .ok target →
      nodeExists s.tree target = false → result = .ok manifest → ¬ target <+: p) :
    sizeAt s₁.tree p = sizeAt s.tree p := by
  let post : Except WeightError (Json F) → TreeHost ι → Prop := fun result s' =>
    (∀ target manifest, snapshotPath modelId revision = .ok target →
      nodeExists s.tree target = false → result = .ok manifest → ¬ target <+: p) →
        sizeAt s'.tree p = sizeAt s.tree p
  have hpost : post
      (eval (handle u env) (commitSnapshot repr sha vault staging modelId revision license) s).1
      (eval (handle u env)
        (commitSnapshot repr sha vault staging modelId revision license) s).2 := by
    apply @eval_safe _ _ _ _ (handle u env) SameTree (fun _ _ => True) (fun _ _ => True) _ post _ s
      (fun _ _ => trivial)
    apply safe_commit_reads
    · intro result s' h _
      rw [h]
    · intro target s₁ h₁ htarget habsent
      apply (confines_grown staging target).safe_publish
      · intro manifest s₂ s' h₂ h hplace
        have hnode := handle_node u env s₂ (.replace staging target) p
          (not_or.mpr ⟨hstaging, hplace target manifest htarget habsent rfl⟩)
        rw [h, sizeAt_congr hnode, h₂.sizeAt hstaging, h₁]
      · intro e s' h _
        rw [Grown.sizeAt h hstaging, h₁]
  rw [hcommit] at hpost
  exact hpost hplace

omit [DecidableEq ι] in
theorem sizeAt_absent {t : Tree} (h : nodeExists t target = false) (rest : Path) :
    sizeAt t (target ++ rest) = 0 := by
  have hnode : t.node target = none ∨ t.node target = some (.link .missing) := by
    unfold nodeExists at h
    split at h
    · exact Or.inl ‹_›
    · exact Or.inr ‹_›
    · cases h
  cases rest with
  | nil =>
    rw [List.append_nil]
    rcases hnode with hnone | hlink
    · exact sizeAt_none hnone
    · rw [sizeAt, nodeContent, hlink]
      rfl
  | cons name rest =>
    apply sizeAt_none
    apply t.none_below _ (List.cons_ne_nil _ _)
    intro hdir
    rcases hnode with hnone | hlink
    · cases hnone.symm.trans hdir
    · cases hlink.symm.trans hdir

theorem models_off (h : IsStaging env staging) (rest : Path) :
    ¬ staging <+: ["models"] ++ rest := by
  obtain ⟨start, tick, rfl⟩ := h
  exact fun hle => absurd (List.cons_prefix_cons.mp hle).1 (by decide)

/-- A call that publishes brings the staged files and the manifest into the vault. -/
theorem usedBytes_of_commit (hstaging : IsStaging env staging)
    (htarget : snapshotPath modelId revision = .ok target)
    (habsent : nodeExists s.tree target = false)
    (hcommit : eval (handle u env)
      (commitSnapshot repr sha vault staging modelId revision license) s = (.ok manifest, s₁)) :
    usedBytes s₁.tree =
      usedBytes s.tree + (stagedBytes s.tree staging + (manifestText manifest).length) := by
  have hsizes := fun p => sizes_of_commit repr sha vault hcommit (p := p)
  obtain ⟨found, createdAt, hfound, hne, hmanifest, hview⟩ :=
    staged_of_commit sha hstaging htarget habsent hcommit
  have hdir := dir_of_inventory sha hfound hne
  have hroot := congrFun hview []
  rw [Function.update_of_ne (List.cons_ne_nil _ _).symm, Tree.view, Tree.view, List.append_nil,
    List.append_nil, hdir] at hroot
  rw [← sizesOf_published hview]
  obtain ⟨organization, name, rfl, -⟩ := snapshotPath_cases htarget
  have hoff := models_off hstaging
  refine usedBytes_add hroot (List.cons_ne_nil _ _) (fun rest hrest => ?_) (sizeAt_absent habsent)
  apply hsizes _ (hoff rest)
  intro target manifest htarget' _ _ hle
  obtain rfl := Except.ok.inj (htarget.symm.trans htarget')
  exact hrest (List.cons_prefix_cons.mp hle).2

variable (u env) in
/-- The host when the clock is read for the manifest. -/
def atStamp (staging target : Path) (s : TreeHost ι) : TreeHost ι :=
  (eval (handle u env) (requireCapacity repr vault (totalOf (filesOf sha s.tree staging)))
    (atCheck sha u env staging target s)).2

variable (u env) in
/-- The manifest that a call writes if it publishes. -/
def stampedManifest (staging target : Path) (modelId revision license : String)
    (s : TreeHost ι) : Json F :=
  manifestJson modelId revision license
    (env.isoClock (atStamp u env repr sha vault staging target s).tick)
    (filesOf sha s.tree staging) (totalOf (filesOf sha s.tree staging))

theorem manifest_of_commit (hstaging : IsStaging env staging)
    (htarget : snapshotPath modelId revision = .ok target)
    (habsent : nodeExists s.tree target = false)
    (hcommit : eval (handle u env)
      (commitSnapshot repr sha vault staging modelId revision license) s = (.ok manifest, s₁)) :
    manifest =
      stampedManifest u env repr sha vault staging target modelId revision license s := by
  obtain ⟨found, createdAt, hfound, -, hmanifest, -⟩ :=
    staged_of_commit sha hstaging htarget habsent hcommit
  obtain ⟨-, rfl⟩ := (inventoryOf_ok_iff sha found).mp hfound
  obtain ⟨-, hpublish⟩ := publish_of_commit repr sha vault htarget habsent hcommit
  obtain ⟨⟨files, total⟩, s₂, hinventory, hpublish⟩ := eval_then_ok hpublish
  dsimp only at hpublish
  split at hpublish
  · obtain ⟨_, _, hfails, -⟩ := eval_then_ok hpublish
    cases congrArg Prod.fst hfails
  obtain ⟨_, s₃, hcapacity, hpublish⟩ := eval_then_ok hpublish
  obtain ⟨now, s₄, hclock, hpublish⟩ := eval_then_ok hpublish
  obtain ⟨_, _, -, hpublish⟩ := eval_then_ok hpublish
  obtain ⟨_, _, -, hpublish⟩ := eval_then_ok hpublish
  obtain ⟨_, _, -, hpublish⟩ := eval_then_ok hpublish
  have hreturned : manifestJson modelId revision license now files total = manifest :=
    Except.ok.inj (congrArg Prod.fst hpublish)
  have hnow : env.isoClock s₃.tick = now := Except.ok.inj (congrArg Prod.fst hclock)
  have hsame := hmanifest.symm.trans hreturned.symm
  simp only [manifestJson, Json.obj.injEq, List.cons.injEq, Prod.mk.injEq, Json.str.injEq,
    Json.int.injEq, true_and, Nat.cast_inj] at hsame
  have hstamp : s₃ = atStamp u env repr sha vault staging target s := by
    rw [atStamp, hsame.2.1]
    change s₃ = (eval (handle u env) (requireCapacity repr vault total) (eval (handle u env)
      (inventory sha staging) (eval (handle u env) (pathExists target : Weight Bool) s).2).2).2
    rw [hinventory, hcapacity]
  rw [hmanifest, stampedManifest, hsame.1, ← hnow, hstamp]

omit [FloatText F] in
/-- What `status` reports, whatever fails. -/
theorem status_reports {found : VaultStatus F}
    (h : eval (handle u env) (status repr vault) s = (.ok found, s₁)) :
    found.usedBytes = usedBytes s.tree ∧
      configInt repr vault "quota_bytes" = .ok found.quotaBytes := by
  let post : Except WeightError (VaultStatus F) → TreeHost ι → Prop := fun result _ =>
    ∀ found, result = .ok found → found.usedBytes = usedBytes s.tree ∧
      configInt repr vault "quota_bytes" = .ok found.quotaBytes
  have hpost : post (eval (handle u env) (status repr vault) s).1
      (eval (handle u env) (status repr vault) s).2 := by
    apply @eval_safe _ _ _ _ (handle u env) SameTree (fun _ _ => True) (fun _ _ => True) _ post _ s
      (fun _ _ => trivial)
    apply safe_status allows_same
    · intro found s' _ hused hquota other hother
      obtain rfl := Except.ok.inj hother
      exact ⟨hused (fun s'' hsame rest => by rw [hsame]), hquota⟩
    · exact fun e s' _ found hfound => nomatch hfound
  rw [h] at hpost
  exact hpost found rfl

end Calls

section Runs

structure CommitCall where
  staging : Path
  modelId : String
  revision : String
  license : String

variable (u : ι) (env : TreeEnv) (repr : String → String) (sha : Sha256) (vault : WeightVault F)

def commit (call : CommitCall) (s : TreeHost ι) : Except WeightError (Json F) × TreeHost ι :=
  eval (handle u env) (commitSnapshot repr sha vault call.staging call.modelId call.revision
    call.license) s

/-- The call returns and there was no snapshot at its path. -/
def Publishes (call : CommitCall) (target : Path) (s : TreeHost ι) : Prop :=
  snapshotPath call.modelId call.revision = .ok target ∧ nodeExists s.tree target = false ∧
    ∃ manifest, (commit u env repr sha vault call s).1 = .ok manifest

/-- Beside what is stored there is room for all staged files and for the manifest. -/
def Fits (quota : ℤ) (call : CommitCall) (target : Path) (s : TreeHost ι) : Prop :=
  (usedBytes s.tree : ℤ) + stagedBytes s.tree call.staging + (manifestText (stampedManifest u env
    repr sha vault call.staging target call.modelId call.revision call.license s)).length ≤ quota

variable {u env repr sha vault} {s₀ s : TreeHost ι} {call : CommitCall} {target : Path} {quota : ℤ}

theorem used_le_iff_fits (hstaging : IsStaging env call.staging)
    (h : Publishes u env repr sha vault call target s) :
    (usedBytes (commit u env repr sha vault call s).2.tree : ℤ) ≤ quota ↔
      Fits u env repr sha vault quota call target s := by
  obtain ⟨htarget, habsent, manifest, hreturned⟩ := h
  have hcommit : commit u env repr sha vault call s =
      (.ok manifest, (commit u env repr sha vault call s).2) := Prod.ext hreturned rfl
  rw [usedBytes_of_commit repr sha vault hstaging htarget habsent hcommit, Fits,
    ← manifest_of_commit repr sha vault hstaging htarget habsent hcommit]
  push_cast
  rw [add_assoc]

/-- A call that does not publish stores nothing. -/
theorem used_of_not_publishes (hstaging : IsStaging env call.staging)
    (h : ∀ target, ¬ Publishes u env repr sha vault call target s) :
    usedBytes (commit u env repr sha vault call s).2.tree = usedBytes s.tree := by
  apply usedBytes_of_sizes
  intro rest
  refine sizes_of_commit repr sha vault rfl (models_off hstaging rest) ?_
  exact fun target manifest htarget habsent hreturned =>
    absurd ⟨htarget, habsent, manifest, hreturned⟩ (h target)

variable (u env repr sha vault) in
/-- The states of a vault between calls. What is staged in between is arbitrary, and the calls
that publish meet the condition. -/
inductive CommitRun (quota : ℤ) (s₀ : TreeHost ι) : TreeHost ι → Prop
  | start : CommitRun quota s₀ s₀
  | stage {s s' : TreeHost ι} (hrun : CommitRun quota s₀ s)
      (hmodels : ∀ rest, s'.tree.node (["models"] ++ rest) = s.tree.node (["models"] ++ rest)) :
      CommitRun quota s₀ s'
  | commit {s : TreeHost ι} (call : CommitCall) (hrun : CommitRun quota s₀ s)
      (hstaging : IsStaging env call.staging)
      (hfits : ∀ target, Publishes u env repr sha vault call target s →
        Fits u env repr sha vault quota call target s) :
      CommitRun quota s₀ (commit u env repr sha vault call s).2

theorem used_of_run (hstart : (usedBytes s₀.tree : ℤ) ≤ quota)
    (hrun : CommitRun u env repr sha vault quota s₀ s) : (usedBytes s.tree : ℤ) ≤ quota := by
  induction hrun with
  | start => exact hstart
  | stage _ hmodels ih => rwa [usedBytes_congr hmodels]
  | @commit s call _ hstaging hfits ih =>
    by_cases hpublishes : ∃ target, Publishes u env repr sha vault call target s
    · obtain ⟨target, hpublishes⟩ := hpublishes
      exact (used_le_iff_fits hstaging hpublishes).mpr (hfits target hpublishes)
    · rwa [used_of_not_publishes hstaging (not_exists.mp hpublishes)]

/-- In a run whose calls publish what fits with its manifest the reported use stays within the
quota. -/
theorem status_within_quota {u' : ι} {env' : TreeEnv} {found : VaultStatus F} {s' : TreeHost ι}
    (hquota : configInt repr vault "quota_bytes" = .ok quota)
    (hstart : (usedBytes s₀.tree : ℤ) ≤ quota)
    (hrun : CommitRun u env repr sha vault quota s₀ s)
    (hstatus : eval (handle u' env') (status repr vault) s = (.ok found, s')) :
    (found.usedBytes : ℤ) ≤ found.quotaBytes := by
  obtain ⟨hused, hfound⟩ := status_reports repr vault hstatus
  rw [hused, ← Except.ok.inj (hquota.symm.trans hfound)]
  exact used_of_run hstart hrun

end Runs

section Samples

def quotaVault (quota : ℕ) : WeightVault WholeFloat :=
  ⟨[("format_version", .int 1), ("vault_id", .str "v"), ("quota_bytes", .int quota)]⟩

/-- One file of one byte is listed, and another one is staged that is not. -/
def stagedCall : CommitCall := ⟨nestedStaging, "o/n", "r", "mit"⟩

def afterCall (quota : ℕ) : TreeHost Unit :=
  (commit () nestedEnv id Sha256.sample (quotaVault quota) stagedCall nestedHost).2

theorem staged_publishes (quota : ℕ)
    (h : (commit () nestedEnv id Sha256.sample (quotaVault quota) stagedCall nestedHost).1.isOk =
      true) : Publishes () nestedEnv id Sha256.sample (quotaVault quota) stagedCall committedTarget
        nestedHost := by
  refine ⟨committedTarget_ok, by decide, ?_⟩
  cases hreturned : (commit () nestedEnv id Sha256.sample (quotaVault quota) stagedCall
      nestedHost).1 with
  | ok manifest => exact ⟨manifest, rfl⟩
  | error e =>
    rw [hreturned] at h
    cases h

/-- The vault has a quota of one byte, and at least two bytes are in it after the call. -/
theorem quota_exceeded : ∃ found s',
    (usedBytes nestedHost.tree : ℤ) ≤ found.quotaBytes ∧
    Publishes () nestedEnv id Sha256.sample (quotaVault 1) stagedCall committedTarget nestedHost ∧
    eval (handle () nestedEnv) (status id (quotaVault 1)) (afterCall 1) = (.ok found, s') ∧
    found.quotaBytes < found.usedBytes := by
  have hpublishes := staged_publishes 1 (by decide +kernel)
  have hempty : usedBytes nestedHost.tree = 0 := by decide
  have hstaged : stagedBytes nestedHost.tree stagedCall.staging = 2 := by decide
  have hexceeded : (1 : ℤ) < usedBytes (afterCall 1).tree := by
    rw [← not_le, afterCall, used_le_iff_fits ⟨"a-", 0, rfl⟩ hpublishes, Fits, hempty, hstaged]
    omega
  obtain ⟨n, snapshots, hstatus⟩ := eval_status nestedEnv_quiet (afterCall 1) id (quotaVault 1)
    (u := ())
  refine ⟨⟨.str "v", 1, 0, _, _, snapshots⟩, _, ?_, hpublishes, hstatus, hexceeded⟩
  rw [hempty]
  exact Int.natCast_zero.trans_le Int.one_nonneg

theorem thousand_fits : Fits () nestedEnv id Sha256.sample (quotaVault 1000) 1000 stagedCall
    committedTarget nestedHost := by
  unfold Fits
  decide +kernel

theorem thousand_run : CommitRun () nestedEnv id Sha256.sample (quotaVault 1000) 1000 nestedHost
    (afterCall 1000) := by
  refine .commit stagedCall .start ⟨"a-", 0, rfl⟩ fun target hpublishes => ?_
  obtain rfl := Except.ok.inj (committedTarget_ok.symm.trans hpublishes.1)
  exact thousand_fits

theorem status_within_quota_sample : ∃ found s',
    eval (handle () nestedEnv) (status id (quotaVault 1000)) (afterCall 1000) = (.ok found, s') ∧
      (found.usedBytes : ℤ) ≤ found.quotaBytes := by
  obtain ⟨n, snapshots, hstatus⟩ := eval_status nestedEnv_quiet (afterCall 1000) id
    (quotaVault 1000) (u := ())
  exact ⟨⟨.str "v", 1000, 0, _, _, snapshots⟩, _, hstatus,
    status_within_quota rfl (by decide) thousand_run hstatus⟩

end Samples

end Decillion.VaultQuotas
