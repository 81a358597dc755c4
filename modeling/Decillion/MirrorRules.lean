import Decillion.MirrorSteps

/-!
The rules for the calls of a mirror that runs beside others. The staging directory is private,
so what is written there is what is renamed; every call keeps the locks that the process has
made, and every published or verified manifest stays that of the snapshot at its place.
-/
namespace Decillion.MirrorRules

open ByteText Interleavings JsonText JsonValues MirrorSteps Primitives Programs PyErrors PyValues
  SnapshotManifests TreeFrames TreeRules TreeSystem Trees WeightRules WeightVaults

variable {ι F : Type} [FloatText F] [FloatNumber F] (sha : Sha256) [DecidableEq ι] {me : ι}
  {env : TreeEnv}

omit [FloatText F] [FloatNumber F] in
/-- Only the unlinking of a lock file lets go of a lock. -/
theorem holding_handle (me : ι) (env : TreeEnv) (s : TreeHost ι) (op : TreeOp)
    (h : ∀ path, IsLock path → op ≠ .unlink path) : Holding me s (handle me env s op).2 := by
  intro path hlock hin
  by_cases hmarks : Marks op path
  · cases op with
    | createExclusive other =>
      obtain rfl : path = other := hmarks
      rcases createExclusive_cases me env s path with ⟨e, hmade⟩ | ⟨t, -, -, hmade⟩
      · rw [hmade]
        exact hin
      · rw [hmade]
        change me ∈ Function.update s.inside path (me :: s.inside path) path
        rw [Function.update_self]
        exact List.mem_cons_self ..
    | unlink other =>
      obtain rfl : path = other := hmarks
      exact absurd rfl (h path hlock)
    | _ => exact hmarks.elim
  · rw [handle_inside me env s op path hmarks]
    exact hin

omit [FloatText F] [FloatNumber F] in
theorem holding_unlink (me : ι) (s : TreeHost ι) {path : Path} (h : Owned env path) :
    Holding me s (handle me env s (.unlink path)).2 :=
  holding_handle me env s _ fun _ hlock heq => h.not_lock (TreeOp.unlink.inj heq ▸ hlock)

/-- What touches nothing below a snapshot keeps the snapshots. -/
theorem kept_handle (s : TreeHost ι) (op : TreeOp)
    (h : ∀ target, IsSnapshot target → ∀ rest, ¬ Touches env op (target ++ rest)) :
    KeptSnapshots s (handle me env s op).2 :=
  fun target htarget _ rest => handle_node me env s op _ (h target htarget rest)

omit [DecidableEq ι] in
theorem allows : Allows (Spared me env) (May F sha me env) where
  next s := ⟨fun _ _ => rfl, .refl s, .refl me s⟩
  read s op h := by
    cases op with
    | mkdir _ => exact h.elim
    | createExclusive _ => exact h.elim
    | mkdtemp _ _ => exact h.elim
    | mkstemp _ _ => exact h.elim
    | write _ _ => exact h.elim
    | replace _ _ => exact h.elim
    | unlink _ => exact h.elim
    | remove _ => exact h.elim
    | edit _ _ => exact h.elim
    | _ => trivial

omit [DecidableEq ι] in
theorem keepsSnapshots : KeepsSnapshots (Spared me env) :=
  fun _ _ modelId revision target h htarget => h.snapshots target ⟨modelId, revision, htarget⟩

omit [DecidableEq ι] in
theorem spared_next (s : TreeHost ι) : Spared me env s s.next :=
  ⟨fun _ _ => rfl, .refl s, .refl me s⟩

omit [DecidableEq ι] in
/-- The nodes of a private directory are seen as they have been left. -/
theorem spared_view {dir : Path} {s s' : TreeHost ι} (hdir : IsStaging env dir)
    (h : Spared me env s s') : s'.tree.view dir = s.tree.view dir :=
  funext fun rest => h.owned _ (hdir.owned rest)

section Directories

/-- The private directory is left as it is, as long as it is there. -/
def Unmade (me : ι) (dir : Path) (s s' : TreeHost ι) : Prop :=
  Holding me s s' ∧ (s.tree.node dir = some .dir → SameBelow dir s s')

instance (dir : Path) : IsPreorder (TreeHost ι) (Unmade me dir) where
  refl s := ⟨.refl me s, fun _ _ => rfl⟩
  trans s s' s'' h h' := by
    refine ⟨h.1.trans h'.1, fun hdir => ?_⟩
    have hsame := h.2 hdir
    exact hsame.trans (h'.2 (by rwa [node_of_sameBelow hsame]))

/-- The operations of making the directories of a path. -/
def MakesOn (path : Path) (op : TreeOp) : Prop :=
  IsRead op ∨ ∃ p, p <+: path ∧ p ≠ [] ∧ op = .mkdir p

variable {dir : Path} (hdir : IsStaging env dir)
include hdir

omit [DecidableEq ι] in
theorem unmade_of_spared {s s' : TreeHost ι} (h : Spared me env s s') : Unmade me dir s s' :=
  ⟨h.held, fun _ rest => h.owned _ (hdir.owned rest)⟩

theorem unmade_mkdir_prefix (s : TreeHost ι) {path : Path} (h : path <+: dir) :
    Unmade me dir s (handle me env s (.mkdir path)).2 := by
  refine ⟨holding_handle me env s _ (fun _ _ h => by cases h), fun hthere => ?_⟩
  have hpath : s.tree.node path ≠ none := by
    intro hnone
    obtain ⟨rest, rfl⟩ := h
    have hbelow := s.tree.none_of_prefix path rest hnone
    rw [hthere] at hbelow
    cases hbelow
  rw [handle_mkdir_present me env s hpath]
  exact fun _ => rfl

theorem unmade_mkdir_above (s : TreeHost ι) {path target : Path} (htarget : IsSnapshot target)
    (h : path <+: target.dropLast) (hne : path ≠ []) :
    Unmade me dir s (handle me env s (.mkdir path)).2 := by
  refine ⟨holding_handle me env s _ (fun _ _ h => by cases h), fun _ rest => ?_⟩
  apply handle_node
  intro htouch
  obtain rfl : dir ++ rest = path := htouch
  obtain ⟨organization, name, revision, rfl⟩ := htarget.cases
  obtain ⟨more, hmore⟩ := (hdir.owned rest).head
  rw [hmore] at h
  exact absurd (List.cons_prefix_cons.mp h).1 (by decide)

/-- Making directories that lead somewhere else, or that are there, leaves the private
directory alone. -/
theorem safe_makeDirs {post : Except WeightError Unit → TreeHost ι → Prop} (path : Path)
    (hpath : path = dir ∨ ∃ target, IsSnapshot target ∧ path = target.dropLast) (s : TreeHost ι)
    (h : ∀ result s', Unmade me dir s s' → post result s') :
    SafeTree me env (Spared me env) (May F sha me env) post (makeDirs path) s := by
  have hmay : ∀ s₁ op, MakesOn path op → May F sha me env s₁ op := by
    rintro s₁ op (hread | ⟨p, hp, hne, rfl⟩)
    · exact (allows sha).read s₁ op hread
    · rcases hpath with rfl | ⟨target, htarget, rfl⟩
      · obtain ⟨start, tick, rfl⟩ := hdir
        have hlong : p <+: [".staging"] ++ [start ++ env.tempName tick] := hp
        rcases List.prefix_concat_iff.mp hlong with rfl | hshort
        · exact Or.inl ⟨_, ⟨start, tick, rfl⟩, List.prefix_rfl⟩
        · have hroot : p <+: [] ++ [".staging"] := hshort
          rcases List.prefix_concat_iff.mp hroot with rfl | hnil
          · exact Or.inr (Or.inl rfl)
          · exact absurd (List.prefix_nil.mp hnil) hne
      · exact Or.inr (Or.inr ⟨target, htarget, hp⟩)
  have hstep : ∀ s₁ op, MakesOn path op → Unmade me dir s₁ (handle me env s₁ op).2 := by
    rintro s₁ op (hread | ⟨p, hp, hne, rfl⟩)
    · rw [handle_read s₁ op hread]
      exact unmade_of_spared hdir (spared_next s₁)
    · rcases hpath with rfl | ⟨target, htarget, rfl⟩
      · exact unmade_mkdir_prefix hdir s₁ hp
      · exact unmade_mkdir_above hdir s₁ htarget hp hne
  have honly : Only (MakesOn path) (makeDirs path : Weight Unit) :=
    only_makeDirs path (fun _ _ => Or.inl trivial) (fun p hp hne => Or.inr ⟨p, hp, hne, rfl⟩)
  exact safe_only (fun _ _ => unmade_of_spared hdir) hmay hstep _ s honly h

end Directories

section Manifests

variable {dir : Path} (hdir : IsStaging env dir)
include hdir

/-- The temporary file is gone when it has been renamed and may be gone otherwise. -/
theorem safe_finish {α : Type} {post : Except WeightError α → TreeHost ι → Prop} (name : String)
    (result : Except WeightError α) (s : TreeHost ι)
    (hpost : ∀ s', Holding me s s' →
      (s.tree.node (dir ++ [name]) = none → s'.tree.view dir = s.tree.view dir) → post result s')
    (herror : ∀ e s', Holding me s s' → s.tree.node (dir ++ [name]) ≠ none →
      post (.error e) s') :
    SafeTree me env (Spared me env) (May F sha me env)
      (Ended (Spared me env) post result)
      (do
        if ← osPathExists (dir ++ [name]) then unlink (dir ++ [name]) : Weight Unit) s := by
  have hname : Owned env (dir ++ [name]) := hdir.owned [name]
  apply safe_then
  apply safe_read (allows sha) (.osPathExists (dir ++ [name])) trivial
  intro s₁ s₂ h₁ h₂
  have hs₂ := trans_of (Spared me env) h₁ h₂
  cases hthere : (handle me env s₁ (.osPathExists (dir ++ [name]))).1 with
  | false =>
    intro s₃ h₃ s' h
    have hs' := trans_of (Spared me env) hs₂ (trans_of (Spared me env) h₃ h)
    exact hpost s' hs'.held (fun _ => spared_view hdir hs')
  | true =>
    have hsome : s.tree.node (dir ++ [name]) ≠ none := by
      intro hnone
      have hfound : (if env.fault s₁.tick then false else nodeExists s₁.tree (dir ++ [name])) =
          true := hthere
      rw [nodeExists, h₁.owned _ hname, hnone] at hfound
      simp at hfound
    apply safe_effect (.unlink (dir ++ [name]))
      (fun s₃ => (handle me env s₃ (.unlink (dir ++ [name]))).1)
      (fun _ h => safe_perform (.unlink (dir ++ [name])) s₂ (fun _ _ => Or.inl hname) h)
    · intro a s₃ s₄ h₃ _ h₄ s' h
      have hheld := holding_unlink me s₃ hname
      refine hpost s' ((hs₂.held.trans h₃.held).trans (hheld.trans (h₄.held.trans h.held))) ?_
      exact fun hnone => absurd hnone hsome
    · intro e s₃ s₄ h₃ h₄ s' h
      have hheld := holding_unlink me s₃ hname
      exact herror e s' ((hs₂.held.trans h₃.held).trans (hheld.trans (h₄.held.trans h.held))) hsome

/-- A manifest that is written is in the private directory, and nothing else has changed. -/
theorem safe_atomicJson {post : Except WeightError Unit → TreeHost ι → Prop} (value : Json F)
    (s : TreeHost ι) (hthere : s.tree.node dir = some .dir)
    (hok : ∀ s', Holding me s s' → s'.tree.view dir =
      Function.update (s.tree.view dir) [MANIFEST] (some (.file (manifestText value))) →
        post (.ok ()) s')
    (herror : ∀ e s', Holding me s s' → post (.error e) s') :
    SafeTree me env (Spared me env) (May F sha me env) post
      (atomicJson (dir ++ [MANIFEST]) value) s := by
  unfold atomicJson
  rw [List.dropLast_concat]
  apply safe_then
  apply safe_makeDirs sha hdir dir (Or.inl rfl) s
  intro result s₁ hunmade
  cases result with
  | error e => exact fun s' h => herror e s' (hunmade.1.trans h.held)
  | ok _ =>
    have hview₁ : s₁.tree.view dir = s.tree.view dir := funext (hunmade.2 hthere)
    apply safe_then
    apply safe_mkstemp dir ".json-" s₁ (fun _ _ => hdir)
    · intro s₂ t₂ s₃ h₂ hnone hput₂ hnext₂ h₃
      let name := ".json-" ++ env.tempName s₂.tick
      have hheld₃ : Holding me s s₃ := by
        have hheld := holding_handle me env s₂ (.mkstemp dir ".json-")
          (fun _ _ h => by cases h)
        rw [hnext₂] at hheld
        exact hunmade.1.trans (h₂.held.trans (hheld.trans h₃.held))
      have hname : s.tree.view dir [name] = none := by
        rw [← hview₁, ← spared_view hdir h₂]
        exact hnone
      have hview₃ :
          s₃.tree.view dir = Function.update (s.tree.view dir) [name] (some (.file [])) := by
        rw [spared_view hdir h₃, ← hview₁, ← spared_view hdir h₂]
        exact put_view hput₂
      have hfinish : ∀ (result : Except WeightError Unit) s₄, Holding me s₃ s₄ →
          (result = .ok () → s₄.tree.view dir =
            Function.update (s.tree.view dir) [MANIFEST] (some (.file (manifestText value)))) →
          SafeTree me env (Spared me env) (May F sha me env) (Ended (Spared me env) post result)
            (do
              if ← osPathExists (dir ++ [name]) then unlink (dir ++ [name]) : Weight Unit) s₄ := by
        intro result s₄ hheld₄ hview₄
        apply safe_finish sha hdir
        · intro s' hheld hview
          have hheld' := hheld₃.trans (hheld₄.trans hheld)
          cases result with
          | error e => exact herror e s' hheld'
          | ok _ =>
            apply hok s' hheld'
            rw [hview, hview₄ rfl]
            change s₄.tree.view dir [name] = none
            rw [hview₄ rfl, Function.update_of_ne (by simpa using temporary_ne_manifest _), hname]
        · exact fun e s' hheld _ => herror e s' (hheld₃.trans (hheld₄.trans hheld))
      apply safe_tryFinally
      apply safe_then
      apply safe_write (dir ++ [name]) (manifestText value) s₃ (fun _ _ => hdir.owned _)
      · intro s₄ t₄ s₅ h₄ hput₄ hnext₄ h₅
        have hheld₅ : Holding me s₃ s₅ := by
          have hheld := holding_handle me env s₄
            (.write (dir ++ [name]) (manifestText value)) (fun _ _ h => by cases h)
          rw [hnext₄] at hheld
          exact h₄.held.trans (hheld.trans h₅.held)
        have hview₅ : s₅.tree.view dir =
            Function.update (s.tree.view dir) [name] (some (.file (manifestText value))) := by
          rw [spared_view hdir h₅]
          change t₄.view dir = _
          rw [put_view hput₄, spared_view hdir h₄, hview₃, Function.update_idem]
        apply safe_then
        apply safe_orRaise
        apply safe_read (allows sha) (.chmod (dir ++ [name])) trivial
        intro s₆ s₇ h₆ h₇
        have hs₇ := trans_of (Spared me env) h₆ h₇
        cases (handle me env s₆ (.chmod (dir ++ [name]))).1 with
        | error e =>
          intro s₈ h₈ s₉ h₉
          have hs₉ := trans_of (Spared me env) hs₇ (trans_of (Spared me env) h₈ h₉)
          exact hfinish _ s₉ (hheld₅.trans hs₉.held) nofun
        | ok _ =>
          intro s₈ h₈
          have hs₈ := trans_of (Spared me env) hs₇ h₈
          apply safe_replace (dir ++ [name]) (dir ++ [MANIFEST]) s₈
            (fun _ _ => Or.inl ⟨hdir.owned _, hdir.owned _⟩)
          · intro s₉ t₉ s₁₀ h₉ hmove hnext₉ h₁₀
            have hheld₁₀ : Holding me s₃ s₁₀ := by
              have hheld := holding_handle me env s₉
                (.replace (dir ++ [name]) (dir ++ [MANIFEST])) (fun _ _ h => by cases h)
              rw [hnext₉] at hheld
              exact hheld₅.trans (hs₈.held.trans (h₉.held.trans (hheld.trans h₁₀.held)))
            apply hfinish _ s₁₀ hheld₁₀
            intro _
            have hview₉ : s₉.tree.view dir =
                Function.update (s.tree.view dir) [name] (some (.file (manifestText value))) := by
              rw [spared_view hdir h₉, spared_view hdir hs₈, hview₅]
            have hfile : s₉.tree.node (dir ++ [name]) = some (.file (manifestText value)) := by
              change s₉.tree.view dir [name] = _
              rw [hview₉, Function.update_self]
            rw [spared_view hdir h₁₀]
            change t₉.view dir = _
            rw [move_file (temporary_ne_manifest _) hfile hmove, hview₉, Function.update_idem,
              ← hname, Function.update_eq_self]
          · intro e s₉ s₁₀ h₉ h₁₀
            have hheld := holding_handle me env s₉
              (.replace (dir ++ [name]) (dir ++ [MANIFEST])) (fun _ _ h => by cases h)
            exact hfinish _ s₁₀
              (hheld₅.trans (hs₈.held.trans (h₉.held.trans (hheld.trans h₁₀.held)))) nofun
      · intro e s₄ s₅ h₄ h₅ s₆ h₆
        have hheld := holding_handle me env s₄
          (.write (dir ++ [name]) (manifestText value)) (fun _ _ h => by cases h)
        exact hfinish _ s₆ (h₄.held.trans (hheld.trans (h₅.held.trans h₆.held))) nofun
    · intro e s₂ s₃ h₂ h₃ s' h
      have hheld := holding_handle me env s₂ (.mkstemp dir ".json-")
        (fun _ _ h => by cases h)
      exact herror e s' (hunmade.1.trans (h₂.held.trans (hheld.trans (h₃.held.trans h.held))))

end Manifests

omit [DecidableEq ι] [FloatText F] [FloatNumber F] in
/-- A directory with files is there. -/
theorem dir_of_inventory {t : Tree} {dir : Path} {found : List FileRecord × ℕ}
    (h : inventoryOf sha t dir = .ok found) (hfiles : found.1 ≠ []) : t.node dir = some .dir := by
  cases hnames : sortPaths (t.below dir) with
  | nil =>
    rw [inventoryOf, hnames] at h
    obtain rfl := Except.ok.inj h
    exact absurd rfl hfiles
  | cons rest more =>
    have hrest : rest ∈ t.below dir := by
      rw [← mem_sortPaths, hnames]
      exact List.mem_cons_self ..
    obtain ⟨hne, hsome⟩ := (mem_below t dir rest).mp hrest
    exact t.dir_of_prefix dir rest hne hsome

section Commits

variable (repr : String → String) (vault : WeightVault F) {modelId revision license : String}

omit [DecidableEq ι] [FloatText F] [FloatNumber F] in
theorem sameReport_sorted (createdAt : String) (files : List FileRecord) (total : ℕ) :
    SameReport (manifestJson (F := F) modelId revision license createdAt files total)
      (sortKeys (manifestJson modelId revision license createdAt files total)) := by
  rw [sortKeys_manifestJson]
  constructor
  · simp [manifestJson, Json.get?, List.lookup_cons]
  · simp [manifestJson, Json.get?, List.lookup_cons, jsonLength, length_sortItems]

omit [DecidableEq ι] [FloatText F] [FloatNumber F] in
theorem SameReport.refl (manifest : Json F) : SameReport manifest manifest := ⟨rfl, rfl⟩

/-- `commit_snapshot` where the snapshot is not there yet. -/
def publish (staging target : Path) (modelId revision license : String) : Weight (Json F) := do
  let (files, total) ← inventory sha staging
  if files = [] then throw (.vaultError "refusing to commit an empty model snapshot")
  requireCapacity repr vault total
  let now ← utcNow
  let manifest := manifestJson modelId revision license now files total
  atomicJson (staging ++ [MANIFEST]) manifest
  makeDirs target.dropLast
  replace staging target
  return manifest

theorem commitSnapshot_eq (staging : Path) :
    commitSnapshot repr sha vault staging modelId revision license = (do
      let target ← fromExcept (snapshotPath modelId revision)
      if ← pathExists target then verify sha modelId revision
      else publish sha repr vault staging target modelId revision license) := rfl

/-- The staged files are at the place of the snapshot, with the manifest that lists them. -/
def Staged (s s' : TreeHost ι) (staging target : Path) (modelId revision license : String)
    (manifest : Json F) : Prop :=
  ∃ found createdAt, inventoryOf sha s.tree staging = .ok found ∧ found.1 ≠ [] ∧
    manifest = manifestJson modelId revision license createdAt found.1 found.2 ∧
    s'.tree.view target = Function.update (s.tree.view staging) [MANIFEST]
      (some (.file (manifestText manifest)))

omit [DecidableEq ι] in
/-- What is staged is verified at its place. -/
theorem Staged.verified {s s' : TreeHost ι} {staging target : Path} {manifest : Json F}
    (h : Staged sha s s' staging target modelId revision license manifest) :
    Verified sha s'.tree modelId revision target (sortKeys manifest) := by
  obtain ⟨found, createdAt, hfound, -, rfl, hview⟩ := h
  apply verified_stored sha hfound
  · intro rest hrest
    have hnode := congrFun hview rest
    rwa [Function.update_of_ne hrest] at hnode
  · have hnode := congrFun hview [MANIFEST]
    rwa [Function.update_self] at hnode

omit [DecidableEq ι] in
theorem Staged.published {s s' : TreeHost ι} {staging target : Path} {manifest : Json F}
    (h : Staged sha s s' staging target modelId revision license manifest)
    (htarget : snapshotPath modelId revision = .ok target) :
    Published sha s' modelId revision manifest := by
  have hverified := Staged.verified sha h
  obtain ⟨found, createdAt, -, -, rfl, -⟩ := h
  exact ⟨target, _, htarget, hverified, sameReport_sorted createdAt found.1 found.2⟩

/-- A snapshot that is published is made of the staged files. -/
theorem safe_publish {post : Except WeightError (Json F) → TreeHost ι → Prop}
    {staging target : Path} (hstaging : IsStaging env staging)
    (htarget : snapshotPath modelId revision = .ok target) (s : TreeHost ι)
    (hok : ∀ manifest s', Holding me s s' →
      Staged sha s s' staging target modelId revision license manifest → post (.ok manifest) s')
    (herror : ∀ e s', Holding me s s' → post (.error e) s') :
    SafeTree me env (Spared me env) (May F sha me env) post
      (publish sha repr vault staging target modelId revision license) s := by
  have hfail : ∀ e s₁ s₂ s', Holding me s s₁ → Holding me s₁ s₂ → Spared me env s₂ s' →
      post (.error e) s' :=
    fun e s₁ s₂ s' h₁ h₂ h => herror e s' (h₁.trans (h₂.trans h.held))
  unfold publish
  apply safe_then
  apply safe_inventory sha (allows sha) staging s
    (fun s' h rest => h.owned _ (hstaging.owned rest))
  · intro found s₃ h₃ hfound
    obtain ⟨files, total⟩ := found
    dsimp only
    split
    · exact safe_then _ _ _ (fun s₄ h₄ s' h => hfail _ s₃ s₄ s' h₃.held h₄.held h)
    · rename_i hfiles
      have hdir : s.tree.node staging = some .dir := dir_of_inventory sha hfound hfiles
      apply safe_then
      apply safe_requireCapacity (allows sha)
      · intro s₄ h₄ _
        apply safe_then
        apply safe_utcNow (allows sha)
        intro now s₅ h₅
        have hs₅ := trans_of (Spared me env) h₃ (trans_of (Spared me env) h₄ h₅)
        apply safe_then
        apply safe_atomicJson sha hstaging
        · rw [node_of_sameBelow fun rest => hs₅.owned _ (hstaging.owned rest), hdir]
        · intro s₆ hheld₆ hview₆
          rw [spared_view hstaging hs₅] at hview₆
          have hthere₆ : s₆.tree.node staging = some .dir := by
            have hnode := congrFun hview₆ []
            rw [Function.update_of_ne (by simp), Tree.view, Tree.view, List.append_nil,
              hdir] at hnode
            exact hnode
          apply safe_then
          apply safe_makeDirs sha hstaging target.dropLast
            (Or.inr ⟨target, ⟨modelId, revision, htarget⟩, rfl⟩)
          intro result s₇ hunmade
          have hheld₇ := hs₅.held.trans (hheld₆.trans hunmade.1)
          cases result with
          | error e => exact fun s' h => hfail e s₇ s₇ s' hheld₇ (.refl me s₇) h
          | ok _ =>
            have hview₇ : s₇.tree.view staging = s₆.tree.view staging :=
              funext (hunmade.2 hthere₆)
            have hstaged : ∀ s', Spared me env s₇ s' →
                Staged sha s s' staging staging modelId revision license
                  (manifestJson (F := F) modelId revision license now files total) := by
              intro s' h
              refine ⟨(files, total), now, hfound, hfiles, rfl, ?_⟩
              rw [spared_view hstaging h, hview₇, hview₆]
            apply safe_then
            apply safe_replace staging target s₇
            · intro s' h
              exact Or.inr ⟨hstaging, modelId, revision, _, htarget,
                Staged.verified sha (hstaged s' h)⟩
            · intro s₈ t₈ s₉ h₈ hmove hnext₈ h₉ s' h
              have hheld₈ : Holding me s₈ (s₈.become t₈) := by
                rw [← hnext₈]
                exact holding_handle me env s₈ _ (fun _ _ h => by cases h)
              have hs' := trans_of (Spared me env) h₉ h
              have hmoved : t₈.view target = s₈.tree.view staging := by
                funext rest
                rw [Tree.view, Tree.view, move_node hmove, movedNode_below]
              obtain ⟨found, createdAt, hfound, hne, hmanifest, hview₈⟩ := hstaged s₈ h₈
              apply hok _ s' (hheld₇.trans (h₈.held.trans (hheld₈.trans hs'.held)))
              refine ⟨found, createdAt, hfound, hne, hmanifest, ?_⟩
              rw [← hview₈, ← hmoved]
              have hthere : (s₈.become t₈).tree.node target ≠ none := by
                have hnode : t₈.node target = s₈.tree.node staging := by
                  have hroot := congrFun hmoved []
                  rwa [Tree.view, Tree.view, List.append_nil, List.append_nil] at hroot
                change t₈.node target ≠ none
                rw [hnode, node_of_sameBelow fun rest => h₈.owned _ (hstaging.owned rest)]
                have hroot := congrFun hview₇ []
                rw [Tree.view, Tree.view, List.append_nil, hthere₆] at hroot
                rw [hroot]
                exact Option.some_ne_none _
              funext rest
              exact hs'.snapshots target ⟨modelId, revision, htarget⟩ hthere rest
            · intro e s₈ s₉ h₈ h₉ s' h
              have hheld := holding_handle me env s₈
                (.replace staging target) (fun _ _ h => by cases h)
              exact hfail e s₇ s₉ s' hheld₇
                (h₈.held.trans (hheld.trans h₉.held)) h
        · exact fun e s₆ hheld₆ s' h => hfail e s₅ s₆ s' hs₅.held hheld₆ h
      · exact fun e s₄ h₄ s' h => hfail e s₃ s₄ s' h₃.held h₄.held h
  · exact fun e s₃ h₃ _ s' h => hfail e s s₃ s' (.refl me s) h₃.held h

/-- What is committed is the manifest of the snapshot at its place. -/
theorem safe_commitSnapshot {post : Except WeightError (Json F) → TreeHost ι → Prop}
    {staging : Path} (hstaging : IsStaging env staging) (s : TreeHost ι)
    (hok : ∀ manifest s', Holding me s s' → Published sha s' modelId revision manifest →
      post (.ok manifest) s')
    (herror : ∀ e s', Holding me s s' → post (.error e) s') :
    SafeTree me env (Spared me env) (May F sha me env) post
      (commitSnapshot repr sha vault staging modelId revision license) s := by
  rw [commitSnapshot_eq]
  apply safe_then
  intro s₀ h₀
  cases htarget : snapshotPath modelId revision with
  | error e => exact fun s' h => herror e s' (h₀.held.trans h.held)
  | ok target =>
    apply safe_then
    apply safe_pathExists (allows sha)
    · intro s₁ s₂ h₁ h₂
      have hheld₂ := h₀.held.trans (h₁.held.trans h₂.held)
      dsimp only
      split
      · apply safe_verify sha (allows sha) keepsSnapshots
        · intro target' manifest s₃ s' h₃ h htarget' hverified
          apply hok manifest s' (hheld₂.trans (h₃.held.trans h.held))
          exact ⟨target', manifest, htarget', Verified.kept sha hverified htarget' h.snapshots,
            SameReport.refl manifest⟩
        · exact fun e s₃ s' h₃ h _ => herror e s' (hheld₂.trans (h₃.held.trans h.held))
      · apply safe_publish sha repr vault hstaging htarget
        · exact fun manifest s' hheld hstaged =>
            hok manifest s' (hheld₂.trans hheld) (Staged.published sha hstaged htarget)
        · exact fun e s' hheld => herror e s' (hheld₂.trans hheld)
    · exact fun e s₁ h₁ _ s' h => herror e s' (h₀.held.trans (h₁.held.trans h.held))

end Commits

section Mirrors

/-- The locks and the snapshots are kept. -/
def Stays (me : ι) (s s' : TreeHost ι) : Prop := Holding me s s' ∧ KeptSnapshots s s'

instance : IsPreorder (TreeHost ι) (Stays me) where
  refl s := ⟨.refl me s, .refl s⟩
  trans _ _ _ h h' := ⟨h.1.trans h'.1, h.2.trans h'.2⟩

/-- What is done to private files keeps the locks and the snapshots. -/
theorem safe_private {α : Type} {post : α → TreeHost ι → Prop} {ok : TreeOp → Prop}
    (p : Prog TreeOp Resp α) (s : TreeHost ι) (honly : Only ok p)
    (hok : ∀ op, ok op → IsRead op ∨ ∃ path, Owned env path ∧
      (op = .remove path ∨ ∃ value, op = .edit path value))
    (h : ∀ a s', Holding me s s' → KeptSnapshots s s' → post a s') :
    SafeTree me env (Spared me env) (May F sha me env) post p s := by
  have hmay : ∀ s₁ op, ok op → May F sha me env s₁ op := by
    intro s₁ op hop
    rcases hok op hop with hread | ⟨path, howned, rfl | ⟨value, rfl⟩⟩
    · exact (allows sha).read s₁ op hread
    · exact howned
    · exact howned
  have hstep : ∀ s₁ op, ok op → Stays me s₁ (handle me env s₁ op).2 := by
    intro s₁ op hop
    rcases hok op hop with hread | ⟨path, howned, rfl | ⟨value, rfl⟩⟩
    · rw [handle_read s₁ op hread]
      exact ⟨.refl me s₁, .refl s₁⟩
    · exact ⟨holding_handle me env s₁ _ (fun _ _ h => by cases h), kept_handle s₁ _
        (fun _ htarget rest htouch => howned.not_below htarget rest htouch.symm)⟩
    · exact ⟨holding_handle me env s₁ _ (fun _ _ h => by cases h), kept_handle s₁ _
        (fun _ htarget rest htouch => howned.not_below htarget rest htouch.symm)⟩
  have hrely : ∀ s s', Spared me env s s' → Stays me s s' := fun _ _ h => ⟨h.held, h.snapshots⟩
  exact safe_only hrely hmay hstep p s honly (fun a s' hstays => h a s' hstays.1 hstays.2)

omit [DecidableEq ι] [FloatText F] [FloatNumber F] in
/-- A download edits what is in the staging directory. -/
theorem only_snapshotDownload (staging : Path) (call : MirrorCall) :
    Only (fun op => ∃ rest value, op = .edit (staging ++ rest) value)
      (snapshotDownload staging call) := by
  apply only_then
  · induction call.download with
    | nil => trivial
    | cons change more ih =>
      obtain ⟨rest, value⟩ := change
      exact only_then _ _ (only_perform ⟨rest, value, rfl⟩) (fun _ => ih)
  · intro _
    cases call.failure with
    | none => trivial
    | some e => trivial

theorem safe_snapshotDownload {post : Except WeightError Unit → TreeHost ι → Prop}
    {staging : Path} (hstaging : IsStaging env staging) (call : MirrorCall) (s : TreeHost ι)
    (h : ∀ result s', Holding me s s' → post result s') :
    SafeTree me env (Spared me env) (May F sha me env) post (snapshotDownload staging call) s := by
  apply safe_private sha _ s (only_snapshotDownload staging call)
  · rintro op ⟨rest, value, rfl⟩
    exact Or.inr ⟨_, hstaging.owned rest, Or.inr ⟨value, rfl⟩⟩
  · exact fun result s' hheld _ => h result s' hheld

theorem safe_mkdtemp {post : Except WeightError Path → TreeHost ι → Prop} (start : String)
    (s : TreeHost ι)
    (hok : ∀ staging s', IsStaging env staging → Holding me s s' → post (.ok staging) s')
    (herror : ∀ e s', post (.error e) s') :
    SafeTree me env (Spared me env) (May F sha me env) post (mkdtemp [".staging"] start) s := by
  have hmay : ∀ s', Spared me env s s' → May F sha me env s' (.mkdtemp [".staging"] start) :=
    fun _ _ => rfl
  apply safe_effect (.mkdtemp [".staging"] start)
    (fun s₁ => (made env s₁ [".staging"] start .dir).1)
    (fun _ h => safe_perform (.mkdtemp [".staging"] start) s hmay h) _
    (fun e _ s' _ _ => herror e s')
  intro staging s₁ s' h₁ hanswer h'
  have hheld := holding_handle me env s₁ (.mkdtemp [".staging"] start)
    (fun _ _ h => by cases h)
  refine hok staging s' ?_ (h₁.held.trans (hheld.trans h'.held))
  rcases made_cases env s₁ [".staging"] start .dir with ⟨e, hmade⟩ | ⟨t, -, -, hmade⟩
  · rw [hmade] at hanswer
    cases hanswer
  · rw [hmade] at hanswer
    exact ⟨start, s₁.tick, (Except.ok.inj hanswer).symm⟩

/-- The slot is left with the lock file that it was entered with. -/
theorem safe_leave {modelId revision : String} {staging : Path} (hstaging : IsStaging env staging)
    {post : Except WeightError (Json F) → TreeHost ι → Prop}
    (result : Except WeightError (Json F)) (s : TreeHost ι)
    (hlock : me ∈ s.inside (lockPath sha modelId revision))
    (hpost : ∀ s', KeptSnapshots s s' → post result s') (herror : ∀ e s', post (.error e) s') :
    SafeTree me env (Spared me env) (May F sha me env) (Ended (Spared me env) post result)
      (do
        removeTree staging
        unlinkMissing (lockPath sha modelId revision) : Weight Unit) s := by
  have hislock : IsLock (lockPath sha modelId revision) := ⟨_, rfl⟩
  apply safe_then
  have honly : Only (fun op => IsRead op ∨ ∃ rest, op = .remove (staging ++ rest))
      (removeTree staging : Weight Unit) :=
    only_removeTree staging (Or.inl trivial) (fun rest => Or.inr ⟨rest, rfl⟩)
  apply safe_private sha _ s honly
  · rintro op (hread | ⟨rest, rfl⟩)
    · exact Or.inl hread
    · exact Or.inr ⟨_, hstaging.owned rest, Or.inl rfl⟩
  · intro removed s₁ hheld₁ hkept₁
    cases removed with
    | error e => exact fun s₂ _ s' _ => herror e s'
    | ok _ =>
      apply safe_then
      apply safe_perform (.unlink (lockPath sha modelId revision)) s₁
      · exact fun s₂ h₂ => Or.inr ⟨hislock, h₂.held _ hislock (hheld₁ _ hislock hlock)⟩
      · intro s₂ s₃ h₂ h₃
        have hunlink : KeptSnapshots s₂
            (handle me env s₂ (.unlink (lockPath sha modelId revision))).2 :=
          kept_handle s₂ (.unlink (lockPath sha modelId revision)) (fun _ htarget rest htouch =>
            hislock.not_below htarget rest (Eq.symm htouch))
        have hkept₃ : KeptSnapshots s s₃ :=
          hkept₁.trans (h₂.snapshots.trans (hunlink.trans h₃.snapshots))
        have hdone : ∀ s₄ s', Spared me env s₃ s₄ → Spared me env s₄ s' → post result s' :=
          fun s₄ s' h₄ h => hpost s' (hkept₃.trans (h₄.snapshots.trans h.snapshots))
        generalize (handle me env s₂ (.unlink (lockPath sha modelId revision))).1 = answer
        cases answer with
        | ok _ => exact fun s₄ h₄ s' h => hdone s₄ s' h₄ h
        | error e =>
          dsimp only
          split
          · exact fun s₄ h₄ s' h => hdone s₄ s' h₄ h
          · exact fun s₄ h₄ s' h => hdone s₄ s' h₄ h
          · exact fun s₄ _ s' _ => herror _ s'

variable (repr : String → String) (call : MirrorCall)

/-- What the download slot gives back is published. -/
theorem safe_slot {post : Except WeightError (Json F) → TreeHost ι → Prop}
    (vault : WeightVault F) (s : TreeHost ι)
    (hok : ∀ manifest s', Published sha s' call.modelId call.revision manifest →
      post (.ok manifest) s')
    (herror : ∀ e s', post (.error e) s') :
    SafeTree me env (Spared me env) (May F sha me env) post
      (downloadSlot sha call.modelId call.revision (fun staging => do
        snapshotDownload staging call
        commitSnapshot repr sha vault staging call.modelId call.revision call.license)) s := by
  let lock := lockPath sha call.modelId call.revision
  have hislock : IsLock lock := ⟨_, rfl⟩
  unfold downloadSlot
  apply safe_then
  apply safe_perform (.createExclusive lock) s (fun _ _ => hislock)
  intro s₁ s₂ h₁ h₂
  rcases createExclusive_cases me env s₁ lock with ⟨e, hmade⟩ | ⟨t, -, -, hmade⟩
  · rw [hmade]
    dsimp only
    split
    · exact fun s' _ => herror _ s'
    · exact fun s' _ => herror _ s'
    · rename_i heq
      cases heq
  · rw [hmade] at h₂ ⊢
    have hlock₂ : me ∈ s₂.inside lock := by
      apply h₂.held lock hislock
      change me ∈ Function.update s₁.inside lock (me :: s₁.inside lock) lock
      rw [Function.update_self]
      exact List.mem_cons_self ..
    apply safe_then
    apply safe_mkdtemp sha _ s₂
    · intro staging s₃ hstaging hheld₃
      have hleave : ∀ (result : Except WeightError (Json F)) s₄, Holding me s₃ s₄ →
          (∀ manifest, result = .ok manifest →
            Published sha s₄ call.modelId call.revision manifest) →
          SafeTree me env (Spared me env) (May F sha me env) (Ended (Spared me env) post result)
            (do
              removeTree staging
              unlinkMissing lock : Weight Unit) s₄ := by
        intro result s₄ hheld₄ hpublished
        apply safe_leave sha hstaging result s₄
          (hheld₄ lock hislock (hheld₃ lock hislock hlock₂))
        · intro s' hkept
          cases result with
          | error e => exact herror e s'
          | ok manifest =>
            exact hok manifest s' (Published.kept sha (hpublished manifest rfl) hkept)
        · exact herror
      apply safe_tryFinally
      apply safe_then
      apply safe_snapshotDownload sha hstaging call
      intro result s₄ hheld₄
      cases result with
      | error e => exact fun s₅ h₅ => hleave _ s₅ (hheld₄.trans h₅.held) nofun
      | ok _ =>
        apply safe_commitSnapshot sha repr vault hstaging
        · intro manifest s₅ hheld₅ hpublished
          refine hleave _ s₅ (hheld₄.trans hheld₅) (fun other hother => ?_)
          exact Except.ok.inj hother ▸ hpublished
        · exact fun e s₅ hheld₅ => hleave _ s₅ (hheld₄.trans hheld₅) nofun
    · exact fun e s₃ s' _ => herror e s'

omit [DecidableEq ι] [FloatNumber F] in
theorem only_openVault [FloatNumber F] : Only IsRead (openVault (F := F)) := by
  apply only_then
  · exact only_orRaise _ (only_perform trivial)
  · intro present
    cases present with
    | false => trivial
    | true =>
      apply only_then _ _ (only_perform trivial)
      intro answer
      split
      · trivial
      · split
        · trivial
        · split
          · trivial
          · split
            · trivial
            · trivial
          · trivial

omit [DecidableEq ι] [FloatText F] [FloatNumber F] in
/-- The record is made of what the two manifests have in common. -/
theorem mirrorRecord_same {target : Path} {manifest stored : Json F}
    (h : SameReport manifest stored) :
    mirrorRecord call target manifest = mirrorRecord call target stored := by
  unfold mirrorRecord
  have hfiles := h.files
  rw [h.total]
  revert hfiles
  cases manifest.get? "files" with
  | none =>
    cases stored.get? "files" with
    | none => exact fun _ => rfl
    | some files => exact fun hfiles => nomatch hfiles
  | some files =>
    cases stored.get? "files" with
    | none => exact fun hfiles => nomatch hfiles
    | some files' =>
      intro hfiles
      cases stored.get? "total_bytes" with
      | none => rfl
      | some total =>
        dsimp only
        rw [Option.some.inj hfiles]

/-- A mirror that returns reports a snapshot that is verified at its place. -/
theorem safe_mirror {post : Except WeightError (MirrorRecord F) → TreeHost ι → Prop}
    (s : TreeHost ι)
    (hok : ∀ record s', Reported sha s' call record → post (.ok record) s')
    (herror : ∀ e s', post (.error e) s') :
    SafeTree me env (Spared me env) (May F sha me env) post (mirror F repr sha call) s := by
  unfold mirror
  apply safe_then
  have hstep : ∀ s₁ op, IsRead op → Spared me env s₁ (handle me env s₁ op).2 := by
    intro s₁ op h
    rw [handle_read s₁ op h]
    exact spared_next s₁
  apply safe_only (fun _ _ h => h) (fun s op h => (allows sha).read s op h) hstep _ s
    only_openVault
  intro opened s₁ h₁
  cases opened with
  | error e => exact fun s' _ => herror e s'
  | ok vault =>
    apply safe_then
    apply safe_requireCapacity (allows sha)
    · intro s₂ h₂ _
      apply safe_then
      intro s₃ h₃
      cases htarget : snapshotPath call.modelId call.revision with
      | error e => exact fun s' _ => herror _ s'
      | ok target =>
        have hrecord : ∀ manifest s₄ s₅ s', Published sha s₄ call.modelId call.revision manifest →
            Spared me env s₄ s₅ → Spared me env s₅ s' →
            post (mirrorRecord call target manifest) s' := by
          intro manifest s₄ s₅ s' hpublished h₅ h
          cases hresult : mirrorRecord call target manifest with
          | error e => exact herror e s'
          | ok record =>
            obtain ⟨target', stored, htarget', hverified, hsame⟩ := Published.kept sha
              (Published.kept sha hpublished h₅.snapshots) h.snapshots
            apply hok record s'
            refine ⟨target', stored, htarget', hverified, ?_⟩
            rw [htarget] at htarget'
            rw [← Except.ok.inj htarget', ← mirrorRecord_same call hsame, hresult]
        apply safe_then
        apply safe_pathExists (allows sha)
        · intro s₄ s₅ h₄ h₅
          dsimp only
          split
          · apply safe_then
            apply safe_verify sha (allows sha) keepsSnapshots
            · intro target' manifest s₆ s₇ h₆ h₇ htarget' hverified s' h
              refine hrecord manifest s₇ s₇ s' ?_ (refl_of (Spared me env) s₇) h
              exact ⟨target', manifest, htarget', Verified.kept sha hverified htarget' h₇.snapshots,
                SameReport.refl manifest⟩
            · exact fun e s₆ s₇ _ _ _ s' _ => herror e s'
          · apply safe_then
            apply safe_slot sha repr call vault
            · intro manifest s₆ hpublished s' h
              exact hrecord manifest s₆ s₆ s' hpublished (refl_of (Spared me env) s₆) h
            · exact fun e s₆ s' _ => herror e s'
        · exact fun e s₄ _ _ s' _ => herror e s'
    · exact fun e s₂ _ s' _ => herror e s'

end Mirrors

end Decillion.MirrorRules
