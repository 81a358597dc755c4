import Decillion.FailedMirrors
import Decillion.SnapshotFiles

/-!
A snapshot that is edited after it has been committed. Its manifest lists every regular file
that is not named like a manifest, so an edit of such a file is found out, as is a link. The
inventory passes over a file with the name of the manifest at any depth, so a file of that name
in a subdirectory is neither listed nor missed.
-/
namespace Decillion.EditedSnapshots

open ByteText Evaluations FailedMirrors JsonStrings JsonText JsonValues MirrorRules MirrorSteps
  Primitives Programs PyErrors PyValues RepeatedMirrors SnapshotFiles SnapshotManifests TextFiles
  TreeRules TreeSystem Trees WeightEvaluations WeightRules WeightVaults

variable {ι F : Type} [DecidableEq ι] [FloatText F] [FloatNumber F]

section Names

theorem asPosix_injective {path path' : Path} (hne : path ≠ []) (hne' : path' ≠ [])
    (hproper : ∀ name ∈ path, Proper name) (hproper' : ∀ name ∈ path', Proper name)
    (h : asPosix path = asPosix path') : path = path' := by
  have hsplit : ∀ p : Path, p ≠ [] → (∀ name ∈ p, Proper name) →
      (['/'].intercalate (p.map String.toList)).splitOn '/' = p.map String.toList := by
    intro p hp hnames
    apply List.splitOn_intercalate
    · intro l hl
      obtain ⟨name, hname, rfl⟩ := List.mem_map.mp hl
      exact (hnames name hname).2.2.2
    · exact fun hnil => hp (List.map_eq_nil_iff.mp hnil)
  have hchars := congrArg String.toList h
  rw [asPosix, asPosix, String.toList_ofList, String.toList_ofList] at hchars
  have hlists := congrArg (List.splitOn '/') hchars
  rw [hsplit path hne hproper, hsplit path' hne' hproper'] at hlists
  exact List.map_injective_iff.mpr (fun _ _ h => String.toList_injective h) hlists

theorem proper_below {t : Tree} {dir rest : Path} {content : Bytes}
    (h : t.node (dir ++ rest) = some (.file content)) : ∀ name ∈ rest, Proper name := by
  intro name hname
  refine t.proper_of_mem (dir ++ rest) ?_ name (List.mem_append_right dir hname)
  rw [h]
  exact Option.some_ne_none _

end Names

section Records

variable (sha : Sha256) {t t' : Tree} {dir dir' : Path}

/-- The contents of the files that two inventories list. -/
def contents (t t' : Tree) (dir dir' : Path) : Set Bytes :=
  {content | ∃ rest, isManifest rest = false ∧ (t.node (dir ++ rest) = some (.file content) ∨
    t'.node (dir' ++ rest) = some (.file content))}

/-- A file that is listed in one directory is in the other one when the lists are the same. -/
theorem file_of_filesOf (hcollision : sha.NoCollision (contents t t' dir dir'))
    (h : filesOf sha t' dir' = filesOf sha t dir) {rest : Path} {content : Bytes}
    (hne : rest ≠ []) (hmanifest : isManifest rest = false)
    (hnode : t'.node (dir' ++ rest) = some (.file content)) :
    t.node (dir ++ rest) = some (.file content) := by
  have hrecord : recordOf sha rest content ∈ filesOf sha t dir := by
    rw [← h, mem_filesOf]
    exact ⟨rest, content, hne, hnode, hmanifest, rfl⟩
  obtain ⟨other, found, hother, hfound, hmanifest', hsame⟩ := (mem_filesOf sha _).mp hrecord
  obtain rfl := asPosix_injective hne hother (proper_below hnode) (proper_below hfound)
    (congrArg FileRecord.path hsame)
  obtain rfl := hcollision.eq_of_hexdigest ⟨rest, hmanifest, Or.inr hnode⟩
    ⟨rest, hmanifest, Or.inl hfound⟩ (congrArg FileRecord.sha256 hsame)
  exact hfound

theorem contents_comm (t t' : Tree) (dir dir' : Path) :
    contents t t' dir dir' = contents t' t dir' dir := by
  ext content
  exact exists_congr fun rest => and_congr_right fun _ => or_comm

/-- Two directories have one list exactly when the files that are listed are the same. -/
theorem filesOf_eq_iff (hcollision : sha.NoCollision (contents t t' dir dir')) :
    filesOf sha t' dir' = filesOf sha t dir ↔ SameFiles t t' dir dir' := by
  refine ⟨fun h rest hne hmanifest content => ⟨?_, ?_⟩, filesOf_congr sha⟩
  · exact file_of_filesOf sha hcollision h hne hmanifest
  · rw [contents_comm] at hcollision
    exact file_of_filesOf sha hcollision h.symm hne hmanifest

omit [FloatText F] in
theorem eq_of_sameRecord {record other : FileRecord}
    (h : sameRecord record (sortKeys (other.toJson (F := F))) = true) : record = other := by
  rw [sortKeys_record] at h
  unfold sameRecord at h
  simp only [Bool.and_eq_true] at h
  have hpath : equalsStr (.str other.path : Json F) record.path = true := h.1.1.2
  have hsize : equalsInt (.int other.size : Json F) record.size = true := h.1.2
  have hsha : equalsStr (.str other.sha256 : Json F) record.sha256 = true := h.2
  rw [equalsStr_str] at hpath hsha
  rw [equalsInt_int] at hsize
  cases record
  cases other
  rw [FileRecord.mk.injEq]
  exact ⟨(of_decide_eq_true hpath).symm, Int.ofNat_inj.mp (of_decide_eq_true hsize).symm,
    (of_decide_eq_true hsha).symm⟩

omit [FloatText F] in
theorem eq_of_sameItems {records others : List FileRecord}
    (h : sameItems records (sortItems (others.map (FileRecord.toJson (F := F)))) = true) :
    records = others := by
  induction records generalizing others with
  | nil =>
    cases others with
    | nil => rfl
    | cons other others => cases h
  | cons record records ih =>
    cases others with
    | nil => cases h
    | cons other others =>
      rw [List.map_cons, sortItems, sameItems, Bool.and_eq_true] at h
      rw [eq_of_sameRecord h.1, ih h.2]

variable {modelId revision license createdAt : String}

omit [FloatText F] in
/-- The inventory that a manifest agrees with is the one that it was made of. -/
theorem files_of_checkManifest {files : List FileRecord} {total : ℕ}
    {found : List FileRecord × ℕ} {manifest : Json F}
    (h : checkManifest (sortKeys (manifestJson (F := F) modelId revision license createdAt files
      total)) modelId revision found.1 found.2 = .ok manifest) : found.1 = files := by
  rw [sortKeys_manifestJson] at h
  unfold checkManifest at h
  dsimp only at h
  split at h
  · cases h
  · rename_i hmatches
    have hsame := (not_or.mp hmatches).1
    rw [Bool.not_eq_false] at hsame
    exact eq_of_sameItems hsame

/-- A directory with the manifest of another one is verified when it has no link and the same
list of files. -/
theorem verified_iff {manifest : Json F}
    (hmanifest : t'.node (dir' ++ [MANIFEST]) = some (.file (manifestText (manifestJson (F := F)
      modelId revision license createdAt (filesOf sha t dir) (totalOf (filesOf sha t dir)))))) :
    Verified sha t' modelId revision dir' manifest ↔
      manifest = sortKeys (manifestJson modelId revision license createdAt (filesOf sha t dir)
        (totalOf (filesOf sha t dir))) ∧
      Plain t' dir' ∧ filesOf sha t' dir' = filesOf sha t dir := by
  have hload := loadManifest_manifestText (manifestJson (F := F) modelId revision license createdAt
    (filesOf sha t dir) (totalOf (filesOf sha t dir))) (distinctKeys_manifestJson ..)
  have hcontent : nodeContent t' (dir' ++ [MANIFEST]) = some (manifestText (manifestJson (F := F)
      modelId revision license createdAt (filesOf sha t dir) (totalOf (filesOf sha t dir)))) := by
    rw [nodeContent, hmanifest]
    rfl
  constructor
  · rintro ⟨content, found, hfile, hloaded, hfound, hcheck⟩
    obtain rfl := Option.some.inj (hcontent.symm.trans hfile)
    obtain rfl := Except.ok.inj (hload.symm.trans hloaded)
    have hfiles := files_of_checkManifest hcheck
    obtain ⟨hplain, rfl⟩ := (inventoryOf_ok_iff sha found).mp hfound
    exact ⟨rfl, hplain, hfiles⟩
  · rintro ⟨rfl, hplain, hfiles⟩
    refine ⟨_, _, hcontent, hload, (inventoryOf_ok_iff sha _).mpr ⟨hplain, rfl⟩, ?_⟩
    rw [hfiles]
    exact checkManifest_sorted ..

end Records

section Commits

variable {me : ι} {env : TreeEnv} {repr : String → String} (sha : Sha256) {vault : WeightVault F}
  {staging target : Path} {modelId revision license : String} {s s₁ : TreeHost ι}
  {manifest : Json F}

omit [FloatText F] [FloatNumber F] in
theorem pathExists_ok {there : Bool} (h : eval (handle me env) (pathExists target : Weight Bool) s =
    (.ok there, s₁)) : there = nodeExists s.tree target ∧ s₁.tree = s.tree := by
  refine ⟨?_, same_pathExists h⟩
  let post : Except WeightError Bool → TreeHost ι → Prop := fun result _ =>
    ∀ b, result = .ok b → b = nodeExists s.tree target
  have hpost : post (eval (handle me env) (pathExists target : Weight Bool) s).1
      (eval (handle me env) (pathExists target : Weight Bool) s).2 := by
    apply @eval_safe _ _ _ _ (handle me env) SameTree (fun _ _ => True) (fun _ _ => True) _ post _ s
      (fun _ _ => trivial)
    apply safe_pathExists allows_same
    · intro s₂ s' h₂ _ b hb
      rw [← Except.ok.inj hb, h₂]
    · exact fun e s' _ _ b hb => nomatch hb
  exact hpost there (congrArg Prod.fst h)

variable (repr vault) in
/-- A call that returns where no snapshot is there has published one. -/
theorem publish_of_commit (htarget : snapshotPath modelId revision = .ok target)
    (habsent : nodeExists s.tree target = false)
    (hcommit : eval (handle me env)
      (commitSnapshot repr sha vault staging modelId revision license) s = (.ok manifest, s₁)) :
    (eval (handle me env) (pathExists target : Weight Bool) s).2.tree = s.tree ∧
      eval (handle me env) (publish sha repr vault staging target modelId revision license)
        (eval (handle me env) (pathExists target : Weight Bool) s).2 = (.ok manifest, s₁) := by
  rw [commitSnapshot_eq] at hcommit
  obtain ⟨found, s₂, hpath, hcommit⟩ := eval_then_ok hcommit
  rw [htarget] at hpath
  obtain ⟨hfound, rfl⟩ := Prod.mk.inj hpath
  obtain rfl := Except.ok.inj hfound
  obtain ⟨there, s₃, hexists, hcommit⟩ := eval_then_ok hcommit
  obtain ⟨hthere, htree⟩ := pathExists_ok hexists
  rw [hthere, habsent, if_neg Bool.false_ne_true] at hcommit
  rw [hexists]
  exact ⟨htree, hcommit⟩

/-- What `commit_snapshot` publishes is made of the staged files. -/
theorem staged_of_commit (hstaging : IsStaging env staging)
    (htarget : snapshotPath modelId revision = .ok target)
    (habsent : nodeExists s.tree target = false)
    (hcommit : eval (handle me env)
      (commitSnapshot repr sha vault staging modelId revision license) s = (.ok manifest, s₁)) :
    Staged sha s s₁ staging target modelId revision license manifest := by
  obtain ⟨htree, hpublish⟩ := publish_of_commit repr sha vault htarget habsent hcommit
  let s₃ := (eval (handle me env) (pathExists target : Weight Bool) s).2
  let post : Except WeightError (Json F) → TreeHost ι → Prop := fun result s' =>
    ∀ manifest, result = .ok manifest →
      Staged sha s₃ s' staging target modelId revision license manifest
  have hpost : post
      (eval (handle me env) (publish sha repr vault staging target modelId revision license) s₃).1
      (eval (handle me env) (publish sha repr vault staging target modelId revision license)
        s₃).2 := by
    apply @eval_safe _ _ _ _ (handle me env) (Spared me env) (fun _ _ => True)
      (May F sha me env) _ post _ s₃ (fun _ _ => trivial)
    apply safe_publish sha repr vault hstaging htarget
    · exact fun found s' _ hstaged other hother => Except.ok.inj hother ▸ hstaged
    · exact fun e s' _ other hother => nomatch hother
  rw [hpublish] at hpost
  obtain ⟨found, createdAt, hfound, hne, hmanifest, hview⟩ := hpost manifest rfl
  rw [htree] at hfound hview
  exact ⟨found, createdAt, hfound, hne, hmanifest, hview⟩

variable {env' : TreeEnv}

/-- Without a failing operation `verify` returns what is verified, and raises otherwise. -/
theorem eval_verify_cases (me' : ι) (s₂ : TreeHost ι)
    (hquiet : ∀ tick, env'.fault tick = false)
    (htarget : snapshotPath modelId revision = .ok target) :
    (∃ found : Json F, Verified sha s₂.tree modelId revision target found ∧ ∃ s',
      eval (handle me' env') (verify sha modelId revision) s₂ = (.ok found, s')) ∨
    (∀ found : Json F, ¬ Verified sha s₂.tree modelId revision target found) ∧ ∃ e s',
      eval (handle me' env') (verify sha modelId revision : Weight (Json F)) s₂ =
        (.error e, s') := by
  by_cases hverified : ∃ found : Json F, Verified sha s₂.tree modelId revision target found
  · obtain ⟨found, hverified⟩ := hverified
    obtain ⟨n, hrun⟩ := eval_verify (u := me') hquiet sha htarget hverified
    exact Or.inl ⟨found, hverified, _, hrun⟩
  · have hnone : ∀ found : Json F, ¬ Verified sha s₂.tree modelId revision target found :=
      fun found h => hverified ⟨found, h⟩
    refine Or.inr ⟨hnone, ?_⟩
    let post : Except WeightError (Json F) → TreeHost ι → Prop := fun result _ =>
      ∀ found, result ≠ .ok found
    have hpost : post (eval (handle me' env') (verify sha modelId revision) s₂).1
        (eval (handle me' env') (verify sha modelId revision : Weight (Json F)) s₂).2 := by
      apply @eval_safe _ _ _ _ (handle me' env') SameTree (fun _ _ => True) (fun _ _ => True) _ post
        _ s₂ (fun _ _ => trivial)
      apply safe_verify sha allows_same keeps_same
      · intro target' manifest s₃ s' h₃ _ htarget' hfound other _
        obtain rfl := Except.ok.inj (htarget'.symm.trans htarget)
        rw [h₃] at hfound
        exact hnone manifest hfound
      · exact fun e s₃ s' _ _ _ found herror => nomatch herror
    cases hresult :
      (eval (handle me' env') (verify sha modelId revision : Weight (Json F)) s₂).1 with
    | ok found => exact absurd hresult (hpost found)
    | error e => exact ⟨e, _, Prod.ext hresult rfl⟩

omit [DecidableEq ι] in
/-- A snapshot with the manifest and the listed files of what was staged is verified. -/
theorem verified_of_staged {t₂ : Tree}
    (h : Staged sha s s₁ staging target modelId revision license manifest)
    (huntouched : t₂.node (target ++ [MANIFEST]) = s₁.tree.node (target ++ [MANIFEST]))
    (hplain : Plain t₂ target) (hsame : SameFiles s.tree t₂ staging target) :
    Verified sha t₂ modelId revision target (sortKeys manifest) := by
  obtain ⟨found, createdAt, hfound, -, rfl, hview⟩ := h
  obtain ⟨-, rfl⟩ := (inventoryOf_ok_iff sha found).mp hfound
  have hmanifest := congrFun hview [MANIFEST]
  rw [Function.update_self, Tree.view, ← huntouched] at hmanifest
  exact (verified_iff sha hmanifest).mpr ⟨rfl, hplain, filesOf_congr sha hsame⟩

end Commits

section Detection

/-- Below the snapshot are the regular files that were staged, beside the manifest at its root. -/
def Intact (t t' : Tree) (staging target : Path) : Prop :=
  ∀ rest, rest ≠ [MANIFEST] → ∀ content,
    t'.node (target ++ rest) = some (.file content) ↔
      t.node (staging ++ rest) = some (.file content)

/-- The files in subdirectories that are named like the manifest are those that were staged. -/
def SameNested (t t' : Tree) (staging target : Path) : Prop :=
  ∀ rest, rest ≠ [MANIFEST] → isManifest rest = true → ∀ content,
    t'.node (target ++ rest) = some (.file content) ↔
      t.node (staging ++ rest) = some (.file content)

theorem intact_iff {t t' : Tree} {staging target : Path} (hdir : t.node staging = some .dir)
    (hdir' : t'.node target = some .dir) : Intact t t' staging target ↔
      SameFiles t t' staging target ∧ SameNested t t' staging target := by
  constructor
  · intro hsame
    refine ⟨fun rest hne hmanifest => ?_, fun rest hne _ => hsame rest hne⟩
    apply hsame
    rintro rfl
    rw [isManifest_root] at hmanifest
    cases hmanifest
  · rintro ⟨hfiles, hnested⟩ rest hne content
    by_cases hnil : rest = []
    · rw [hnil, List.append_nil, List.append_nil, hdir, hdir']
    · cases hmanifest : isManifest rest with
      | true => exact hnested rest hne hmanifest content
      | false => exact hfiles rest hnil hmanifest content

variable {me me' : ι} {env env' : TreeEnv} {repr : String → String} (sha : Sha256)
  {vault : WeightVault F} {staging target : Path} {modelId revision license : String}
  {s s₁ s₂ : TreeHost ι} {manifest : Json F}

/-- `verify` returns the manifest of an intact snapshot and raises for every other one. -/
def Detects (me' : ι) (env' : TreeEnv) (modelId revision : String) (manifest : Json F)
    (t : Tree) (staging target : Path) (s₂ : TreeHost ι) : Prop :=
  (Intact t s₂.tree staging target →
    ∃ s', eval (handle me' env') (verify sha modelId revision) s₂ = (.ok (sortKeys manifest), s')) ∧
  (¬ Intact t s₂.tree staging target → ∃ e s',
    eval (handle me' env') (verify sha modelId revision : Weight (Json F)) s₂ = (.error e, s'))

/-- An edited snapshot whose other files are as they were is judged rightly exactly when a link has
been added to it or else the nested files with the name of the manifest are as they were too, and
not both. -/
theorem detects_iff (hstaging : IsStaging env staging)
    (htarget : snapshotPath modelId revision = .ok target)
    (habsent : nodeExists s.tree target = false)
    (hcommit : eval (handle me env)
      (commitSnapshot repr sha vault staging modelId revision license) s = (.ok manifest, s₁))
    (hquiet : ∀ tick, env'.fault tick = false)
    (huntouched : s₂.tree.node (target ++ [MANIFEST]) = s₁.tree.node (target ++ [MANIFEST]))
    (hcollision : sha.NoCollision (contents s.tree s₂.tree staging target)) :
    Detects sha me' env' modelId revision manifest s.tree staging target s₂ ↔
      (SameFiles s.tree s₂.tree staging target →
        (Plain s₂.tree target ↔ SameNested s.tree s₂.tree staging target)) := by
  obtain ⟨found, createdAt, hfound, hne, rfl, hview⟩ :=
    staged_of_commit sha hstaging htarget habsent hcommit
  have hdir := dir_of_inventory sha hfound hne
  obtain ⟨-, rfl⟩ := (inventoryOf_ok_iff sha found).mp hfound
  have hmanifest := congrFun hview [MANIFEST]
  rw [Function.update_self, Tree.view, ← huntouched] at hmanifest
  have hdir' : s₂.tree.node target = some .dir := by
    apply s₂.tree.closed target MANIFEST
    rw [hmanifest]
    exact Option.some_ne_none _
  have hverified : ∀ found : Json F, Verified sha s₂.tree modelId revision target found ↔
      found = sortKeys (manifestJson modelId revision license createdAt (filesOf sha s.tree staging)
        (totalOf (filesOf sha s.tree staging))) ∧
      Plain s₂.tree target ∧ SameFiles s.tree s₂.tree staging target := by
    intro found
    rw [verified_iff sha hmanifest, filesOf_eq_iff sha hcollision]
  rw [Detects, intact_iff hdir hdir']
  constructor
  · rintro ⟨hreturns, hraises⟩ hsame
    rcases eval_verify_cases (F := F) sha me' s₂ hquiet htarget with
      ⟨other, hother, s', hrun⟩ | ⟨hnone, e, s', herror⟩
    · obtain ⟨rfl, hplain, -⟩ := (hverified other).mp hother
      refine iff_of_true hplain (by_contra fun hnested => ?_)
      obtain ⟨e, s'', herror⟩ := hraises fun hintact => hnested hintact.2
      cases congrArg Prod.fst (herror.symm.trans hrun)
    · refine iff_of_false (fun hplain => hnone _ ((hverified _).mpr ⟨rfl, hplain, hsame⟩))
        fun hnested => ?_
      obtain ⟨s'', hrun⟩ := hreturns ⟨hsame, hnested⟩
      cases congrArg Prod.fst (herror.symm.trans hrun)
  · intro hlinks
    rcases eval_verify_cases (F := F) sha me' s₂ hquiet htarget with
      ⟨other, hother, s', hrun⟩ | ⟨hnone, hraises⟩
    · obtain ⟨rfl, hplain, hsame⟩ := (hverified other).mp hother
      exact ⟨fun _ => ⟨s', hrun⟩, fun hnot => absurd ⟨hsame, (hlinks hsame).mp hplain⟩ hnot⟩
    · refine ⟨fun hintact => ?_, fun _ => hraises⟩
      have hplain := (hlinks hintact.1).mpr hintact.2
      exact absurd ((hverified _).mpr ⟨rfl, hplain, hintact.1⟩) (hnone _)

end Detection

section Samples

def nestedStaging : Path := [".staging", "a-x"]

/-- A vault with one staged file, and one staged in a subdirectory with the manifest's name. -/
def nestedNodes : List (Path × Node) :=
  [([], .dir), (["models"], .dir), ([".staging"], .dir), (nestedStaging, .dir),
    (nestedStaging ++ ["w"], .file [0]), (nestedStaging ++ ["sub"], .dir),
    (nestedStaging ++ ["sub", MANIFEST], .file [1])]

theorem nestedNodes_placed : CapacityChecks.placed nestedNodes = true := by decide

def nestedTree : Tree := CapacityChecks.treeOf nestedNodes nestedNodes_placed

def nestedHost : TreeHost Unit := ⟨nestedTree, fun _ => [], 0⟩

def nestedEnv : TreeEnv := RepeatedMirrors.sampleEnv 10

theorem nestedEnv_quiet : ∀ tick, nestedEnv.fault tick = false := fun _ => rfl

def committed : Except WeightError (Json WholeFloat) × TreeHost Unit :=
  eval (handle () nestedEnv) (commitSnapshot id Sha256.sample ⟨RepeatedMirrors.sampleConfig⟩
    nestedStaging "o/n" "r" "mit") nestedHost

theorem exists_committed : ∃ manifest, committed = (.ok manifest, committed.2) := by
  have hok : committed.1.isOk = true := by decide +kernel
  cases hcommit : committed.1 with
  | ok manifest => exact ⟨manifest, Prod.ext hcommit rfl⟩
  | error e => rw [hcommit] at hok; cases hok

def committedTarget : Path := ["models", "o", "n", "r"]

theorem committedTarget_ok : snapshotPath "o/n" "r" = .ok committedTarget := by decide

/-- The snapshot with other bytes in the nested file. -/
def editedTree : Tree :=
  (committed.2.tree.put (committedTarget ++ ["sub", MANIFEST]) (.file [2])).getD committed.2.tree

def editedHost : TreeHost Unit := ⟨editedTree, fun _ => [], 0⟩

theorem put_edited : committed.2.tree.put (committedTarget ++ ["sub", MANIFEST]) (.file [2]) =
    some editedTree := by
  have hsome : (committed.2.tree.put (committedTarget ++ ["sub", MANIFEST])
      (.file [2])).isSome = true := by decide +kernel
  obtain ⟨t, ht⟩ := Option.isSome_iff_exists.mp hsome
  rw [editedTree, ht, Option.getD_some]

theorem edited_untouched :
    editedTree.node (committedTarget ++ [MANIFEST]) =
      committed.2.tree.node (committedTarget ++ [MANIFEST]) := by
  rw [put_node put_edited]
  exact Function.update_of_ne (by decide) _ _

theorem nested_staged {manifest : Json WholeFloat} (h : committed = (.ok manifest, committed.2)) :
    Staged Sha256.sample nestedHost committed.2 nestedStaging committedTarget "o/n" "r" "mit"
      manifest :=
  staged_of_commit Sha256.sample ⟨"a-", 0, rfl⟩ committedTarget_ok (by decide) h

theorem nested_listed {rest : Path} {content : Bytes} (hmanifest : isManifest rest = false)
    (hnode : nestedTree.node (nestedStaging ++ rest) = some (.file content)) : content = [0] := by
  have hplaces : ∀ e ∈ nestedNodes, e.1 = nestedStaging ++ rest →
      e.2 = .file content → content = [0] := by
    intro e he hpath hvalue
    simp only [nestedNodes, List.mem_cons, List.not_mem_nil, or_false] at he
    rcases he with rfl | rfl | rfl | rfl | rfl | rfl | rfl
    all_goals cases hvalue
    · rfl
    · obtain rfl := List.append_cancel_left hpath
      cases hmanifest
  obtain ⟨e, he, hvalue⟩ := Option.map_eq_some_iff.mp hnode
  exact hplaces e (List.mem_of_find?_eq_some he) (by simpa using List.find?_some he) hvalue

theorem edited_view {manifest : Json WholeFloat} (h : committed = (.ok manifest, committed.2)) :
    editedTree.view committedTarget = Function.update (Function.update
      (nestedTree.view nestedStaging) [MANIFEST] (some (.file (manifestText manifest))))
        ["sub", MANIFEST] (some (.file [2])) := by
  obtain ⟨found, createdAt, -, -, -, hview⟩ := nested_staged h
  rw [put_view put_edited, hview]
  rfl

theorem nested_plain (rest : Path) (target : Link) :
    nestedTree.node (nestedStaging ++ rest) ≠ some (.link target) := by
  intro hnode
  have hnolink : ∀ e ∈ nestedNodes, e.2 ≠ .link target := by simp [nestedNodes]
  obtain ⟨e, he, hvalue⟩ := Option.map_eq_some_iff.mp hnode
  exact hnolink e (List.mem_of_find?_eq_some he) hvalue

theorem edited_plain {manifest : Json WholeFloat} (h : committed = (.ok manifest, committed.2)) :
    Plain editedTree committedTarget := by
  intro rest _ target hnode
  have hview := congrFun (edited_view h) rest
  rw [Tree.view, hnode] at hview
  by_cases hnested : rest = ["sub", MANIFEST]
  · rw [hnested, Function.update_self] at hview
    cases hview
  by_cases hroot : rest = [MANIFEST]
  · rw [hroot, Function.update_of_ne (by decide), Function.update_self] at hview
    cases hview
  rw [Function.update_of_ne hnested, Function.update_of_ne hroot] at hview
  exact nested_plain rest target hview.symm

theorem edited_node {manifest : Json WholeFloat} (h : committed = (.ok manifest, committed.2))
    {rest : Path} (hmanifest : isManifest rest = false) :
    editedTree.node (committedTarget ++ rest) = nestedTree.node (nestedStaging ++ rest) := by
  have hview := congrFun (edited_view h) rest
  have hnested : rest ≠ ["sub", MANIFEST] := by
    rintro rfl
    cases hmanifest
  have hroot : rest ≠ [MANIFEST] := by
    rintro rfl
    cases hmanifest
  rw [Function.update_of_ne hnested, Function.update_of_ne hroot] at hview
  exact hview

theorem edited_sameFiles {manifest : Json WholeFloat}
    (h : committed = (.ok manifest, committed.2)) :
    SameFiles nestedTree editedTree nestedStaging committedTarget :=
  fun rest _ hmanifest content => by rw [edited_node h hmanifest]

theorem not_intact_edited : ¬ Intact nestedTree editedTree nestedStaging committedTarget := by
  intro hintact
  have hedited : editedTree.node (committedTarget ++ ["sub", MANIFEST]) = some (.file [2]) := by
    rw [put_node put_edited, Function.update_self]
  exact absurd ((hintact ["sub", MANIFEST] (by decide) [2]).mp hedited) (by decide)

/-- The edit of the nested file is not found out. -/
theorem nested_edit_passes : ∃ manifest, committed = (.ok manifest, committed.2) ∧
    editedTree.node (committedTarget ++ [MANIFEST]) =
      committed.2.tree.node (committedTarget ++ [MANIFEST]) ∧
    ¬ Detects Sha256.sample () nestedEnv "o/n" "r" manifest nestedTree nestedStaging
      committedTarget editedHost := by
  obtain ⟨manifest, hcommit⟩ := exists_committed
  refine ⟨manifest, hcommit, edited_untouched, fun hdetects => ?_⟩
  have hverified := verified_of_staged Sha256.sample (nested_staged hcommit) edited_untouched
    (edited_plain hcommit) (edited_sameFiles hcommit)
  obtain ⟨n, hrun⟩ := eval_verify (u := ()) (s := editedHost) nestedEnv_quiet Sha256.sample
    committedTarget_ok hverified
  obtain ⟨e, s', hraises⟩ := hdetects.2 not_intact_edited
  cases congrArg Prod.fst (hrun.symm.trans hraises)

/-- The snapshot with other bytes in a file that is listed. -/
def changedTree : Tree :=
  (committed.2.tree.put (committedTarget ++ ["w"]) (.file [7])).getD committed.2.tree

def changedHost : TreeHost Unit := ⟨changedTree, fun _ => [], 0⟩

theorem put_changed :
    committed.2.tree.put (committedTarget ++ ["w"]) (.file [7]) = some changedTree := by
  have hsome : (committed.2.tree.put (committedTarget ++ ["w"]) (.file [7])).isSome = true := by
    decide +kernel
  obtain ⟨t, ht⟩ := Option.isSome_iff_exists.mp hsome
  rw [changedTree, ht, Option.getD_some]

theorem changed_untouched :
    changedTree.node (committedTarget ++ [MANIFEST]) =
      committed.2.tree.node (committedTarget ++ [MANIFEST]) := by
  rw [put_node put_changed]
  exact Function.update_of_ne (by decide) _ _

theorem changed_file : changedTree.node (committedTarget ++ ["w"]) = some (.file [7]) := by
  rw [put_node put_changed, Function.update_self]

theorem changed_node {manifest : Json WholeFloat} (h : committed = (.ok manifest, committed.2))
    {rest : Path} (hmanifest : isManifest rest = false) (hother : rest ≠ ["w"]) :
    changedTree.node (committedTarget ++ rest) = nestedTree.node (nestedStaging ++ rest) := by
  obtain ⟨found, createdAt, -, -, -, hview⟩ := nested_staged h
  have hpath : committedTarget ++ rest ≠ committedTarget ++ ["w"] :=
    fun hsame => hother (List.append_cancel_left hsame)
  have hroot : rest ≠ [MANIFEST] := by
    rintro rfl
    cases hmanifest
  rw [put_node put_changed, Function.update_of_ne hpath]
  exact (congrFun hview rest).trans (Function.update_of_ne hroot _ _)

theorem not_sameFiles_changed :
    ¬ SameFiles nestedTree changedTree nestedStaging committedTarget := by
  intro hsame
  exact absurd ((hsame ["w"] (by decide) (by decide) [7]).mp changed_file) (by decide)

theorem not_intact_changed : ¬ Intact nestedTree changedTree nestedStaging committedTarget := by
  intro hintact
  exact absurd ((hintact ["w"] (by decide) [7]).mp changed_file) (by decide)

theorem edited_collision {manifest : Json WholeFloat}
    (h : committed = (.ok manifest, committed.2)) :
    Sha256.sample.NoCollision (contents nestedTree editedTree nestedStaging committedTarget) := by
  have hzero : ∀ content ∈ contents nestedTree editedTree nestedStaging committedTarget,
      content = [0] := by
    rintro content ⟨rest, hmanifest, hnode | hnode⟩
    · exact nested_listed hmanifest hnode
    · exact nested_listed hmanifest (edited_node h hmanifest ▸ hnode)
  intro content hcontent other hother _
  rw [hzero content hcontent, hzero other hother]

theorem changed_collision {manifest : Json WholeFloat}
    (h : committed = (.ok manifest, committed.2)) :
    Sha256.sample.NoCollision (contents nestedTree changedTree nestedStaging committedTarget) := by
  have hvalues : ∀ content ∈ contents nestedTree changedTree nestedStaging committedTarget,
      content = [0] ∨ content = [7] := by
    rintro content ⟨rest, hmanifest, hnode | hnode⟩
    · exact Or.inl (nested_listed hmanifest hnode)
    · by_cases hrest : rest = ["w"]
      · rw [hrest, changed_file] at hnode
        exact Or.inr (Node.file.inj (Option.some.inj hnode)).symm
      · exact Or.inl (nested_listed hmanifest (changed_node h hmanifest hrest ▸ hnode))
  have hdiffer : Sha256.sample.digest [0] ≠ Sha256.sample.digest [7] := by decide +kernel
  intro content hcontent other hother hsame
  rcases hvalues content hcontent with rfl | rfl <;> rcases hvalues other hother with rfl | rfl
  · rfl
  · exact absurd hsame hdiffer
  · exact absurd hsame.symm hdiffer
  · rfl

/-- The edit of a nested file does not meet the condition. That of a listed file does, and it is
found out. -/
theorem detects_iff_sample : ∃ manifest, committed = (.ok manifest, committed.2) ∧
    (Detects Sha256.sample () nestedEnv "o/n" "r" manifest nestedTree nestedStaging
      committedTarget editedHost ↔ (SameFiles nestedTree editedTree nestedStaging committedTarget →
        (Plain editedTree committedTarget ↔
          SameNested nestedTree editedTree nestedStaging committedTarget))) ∧
    ∃ e s', eval (handle () nestedEnv)
      (verify Sha256.sample "o/n" "r" : Weight (Json WholeFloat)) changedHost = (.error e, s') := by
  obtain ⟨manifest, hcommit⟩ := exists_committed
  have huntouched : editedHost.tree.node (committedTarget ++ [MANIFEST]) =
      committed.2.tree.node (committedTarget ++ [MANIFEST]) := edited_untouched
  have hchanged : changedHost.tree.node (committedTarget ++ [MANIFEST]) =
      committed.2.tree.node (committedTarget ++ [MANIFEST]) := changed_untouched
  have hdetects : Detects Sha256.sample () nestedEnv "o/n" "r" manifest nestedTree nestedStaging
      committedTarget changedHost := by
    apply (detects_iff Sha256.sample (s := nestedHost) ⟨"a-", 0, rfl⟩ committedTarget_ok (by decide)
      hcommit nestedEnv_quiet hchanged (changed_collision hcommit)).mpr
    exact fun hsame => absurd hsame not_sameFiles_changed
  refine ⟨manifest, hcommit, ?_, hdetects.2 not_intact_changed⟩
  exact detects_iff Sha256.sample (s := nestedHost) ⟨"a-", 0, rfl⟩ committedTarget_ok (by decide)
    hcommit nestedEnv_quiet huntouched (edited_collision hcommit)

end Samples

end Decillion.EditedSnapshots
