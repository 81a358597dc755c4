import Decillion.TreeRules
import Decillion.WeightVaults

/-!
What the calls of the weight vault find and do on a tree that others use at the same time.
An inventory that is taken of a directory which the others leave alone is the inventory of
one tree, and a snapshot that is published has been checked against one.
-/
namespace Decillion.WeightRules

open ByteText JsonValues JsonText Primitives Programs PyErrors PyValues Interleavings
  Trees TreeSystem
  TreeRules WeightVaults

variable {ι F : Type} [FloatNumber F] (sha : Sha256)

/-- What the inventory lists for a name, read from the nodes. -/
def entryOf (dir : Path) (view : Path → Option Node) (rest : Path) :
    Except WeightError (Option FileRecord) :=
  match view rest with
  | some (.link _) => .error (.symbolicLink (dir ++ rest))
  | some (.file content) =>
      .ok (if isManifest rest then none
        else some ⟨asPosix rest, content.length, sha.hexdigest content⟩)
  | _ => .ok none

def recordsOf (dir : Path) (view : Path → Option Node) :
    List Path → Except WeightError (List FileRecord × ℕ)
  | [] => .ok ([], 0)
  | rest :: more => do
      let entry ← entryOf sha dir view rest
      let found ← recordsOf dir view more
      return addRecord entry found

/-- The inventory of a directory of a tree. -/
def inventoryOf (t : Tree) (dir : Path) : Except WeightError (List FileRecord × ℕ) :=
  recordsOf sha dir (fun rest => t.node (dir ++ rest)) (sortPaths (t.below dir))

theorem inventoryOf_congr (t t' : Tree) (dir : Path)
    (h : ∀ rest, t'.node (dir ++ rest) = t.node (dir ++ rest)) :
    inventoryOf sha t' dir = inventoryOf sha t dir := by
  have hview : (fun rest => t'.node (dir ++ rest)) = fun rest => t.node (dir ++ rest) :=
    funext h
  rw [inventoryOf, inventoryOf, hview, sortPaths_below t' t dir dir]
  intro rest
  rw [h]

variable [DecidableEq ι] {me : ι} {env : TreeEnv} {rely : TreeHost ι → TreeHost ι → Prop}
  [IsPreorder (TreeHost ι) rely] {may : TreeHost ι → TreeOp → Prop}

/-- The others leave a directory alone from some state on. -/
def Steady (rely : TreeHost ι → TreeHost ι → Prop) (dir : Path) (s : TreeHost ι) : Prop :=
  ∀ s', rely s s' → SameBelow dir s s'

omit [DecidableEq ι] in
theorem Steady.later {dir : Path} {s s' : TreeHost ι} (h : Steady rely dir s)
    (hrely : rely s s') : Steady rely dir s' :=
  fun s'' h' => (h s' hrely).symm.trans (h s'' (trans_of rely hrely h'))

section Inventories

variable (ha : Allows rely may)
include ha

theorem safe_inventoryEntry {post : Except WeightError (Option FileRecord) → TreeHost ι → Prop}
    (dir rest : Path) (s : TreeHost ι) (hsteady : Steady rely dir s)
    (hok : ∀ entry s', rely s s' → entryOf sha dir (fun rest => s.tree.node (dir ++ rest)) rest =
      .ok entry → post (.ok entry) s')
    (herror : ∀ e s', rely s s' → (Faulty env ∨ ∃ e', entryOf sha dir
      (fun rest => s.tree.node (dir ++ rest)) rest = .error e') → post (.error e) s') :
    SafeTree me env rely may post (inventoryEntry sha dir rest) s := by
  have hview : ∀ s', rely s s' → s'.tree.node (dir ++ rest) = s.tree.node (dir ++ rest) :=
    fun s' h => hsteady s' h rest
  have hcontent : ∀ s', rely s s' → nodeContent s'.tree (dir ++ rest) =
      (s.tree.node (dir ++ rest)).bind Node.content? := by
    intro s' h
    rw [nodeContent, hview s' h]
  have hfault : ∀ e s', rely s s' → Faulty env → post (.error e) s' :=
    fun e s' h hfaulty => herror e s' h (Or.inl hfaulty)
  apply safe_then
  apply safe_isSymlink ha
  · intro s₁ s₂ h₁ h₂
    have hs₂ := trans_of rely h₁ h₂
    dsimp only
    split
    · rename_i hlink
      apply safe_then
      intro s₃ h₃ s₄ h₄
      refine herror _ s₄ (trans_of rely hs₂ (trans_of rely h₃ h₄)) (Or.inr ?_)
      rw [isLink, hview s₁ h₁] at hlink
      rw [entryOf]
      split at hlink
      · rename_i target hnode
        rw [hnode]
        exact ⟨_, rfl⟩
      · simp at hlink
    · rename_i hlink
      have hnolink : ∀ target, s.tree.node (dir ++ rest) ≠ some (.link target) := by
        intro target hnode
        rw [isLink, hview s₁ h₁, hnode] at hlink
        exact hlink rfl
      apply safe_then
      apply safe_isFile ha
      · intro s₃ s₄ h₃ h₄
        have hs₃ := trans_of rely hs₂ h₃
        have hs₄ := trans_of rely hs₃ h₄
        dsimp only
        rw [hcontent s₃ hs₃]
        split
        · rename_i hfile
          obtain ⟨content, hnode⟩ : ∃ content, s.tree.node (dir ++ rest) =
              some (.file content) := by
            match hnode : s.tree.node (dir ++ rest), hfile with
            | some (.file content), _ => exact ⟨content, rfl⟩
            | some (.link target), _ => exact absurd hnode (hnolink target)
          have hentry : entryOf sha dir (fun rest => s.tree.node (dir ++ rest)) rest =
              .ok (if isManifest rest then none
                else some ⟨asPosix rest, content.length, sha.hexdigest content⟩) := by
            rw [entryOf, hnode]
          have hread : ∀ s', rely s s' → nodeContent s'.tree (dir ++ rest) = some content := by
            intro s' h
            rw [hcontent s' h, hnode]
            rfl
          split
          · rename_i hmanifest
            rw [if_pos hmanifest] at hentry
            exact fun s' h => hok none s' (trans_of rely hs₄ h) hentry
          · rename_i hmanifest
            rw [if_neg hmanifest] at hentry
            apply safe_then
            apply safe_readFile ha
            · intro found s₅ s₆ h₅ h₆ hfound
              have hs₅ := trans_of rely hs₄ h₅
              have hs₆ := trans_of rely hs₅ h₆
              rw [hread s₅ hs₅, Option.some.injEq] at hfound
              subst hfound
              apply safe_then
              apply safe_fileSize ha
              · intro found s₇ s₈ h₇ h₈ hfound s' h
                have hs₇ := trans_of rely hs₆ h₇
                rw [hread s₇ hs₇, Option.some.injEq] at hfound
                subst hfound
                exact hok _ s' (trans_of rely hs₇ (trans_of rely h₈ h)) hentry
              · intro e s₇ s₈ h₇ h₈ hfaulty s' h
                have hs₇ := trans_of rely hs₆ h₇
                rw [hread s₇ hs₇, or_iff_left (by simp)] at hfaulty
                exact hfault e s' (trans_of rely hs₇ (trans_of rely h₈ h)) hfaulty
            · intro e s₅ s₆ h₅ h₆ hfaulty s' h
              have hs₅ := trans_of rely hs₄ h₅
              rw [hread s₅ hs₅, or_iff_left (by simp)] at hfaulty
              exact hfault e s' (trans_of rely hs₅ (trans_of rely h₆ h)) hfaulty
        · rename_i hfile
          refine fun s' h => hok none s' (trans_of rely hs₄ h) ?_
          rw [entryOf]
          match hnode : s.tree.node (dir ++ rest) with
          | none => rfl
          | some .dir => rfl
          | some (.file content) =>
            rw [hnode] at hfile
            exact absurd rfl hfile
          | some (.link target) => exact absurd hnode (hnolink target)
      · exact fun e s' h hfaulty s'' h' => hfault e s'' (trans_of rely hs₂ (trans_of rely h h'))
          hfaulty
  · exact fun e s' h hfaulty s'' h' => hfault e s'' (trans_of rely h h') hfaulty

theorem safe_inventoryFrom {post : Except WeightError (List FileRecord × ℕ) → TreeHost ι → Prop}
    (dir : Path) (names : List Path) (s : TreeHost ι) (hsteady : Steady rely dir s)
    (hok : ∀ found s', rely s s' → recordsOf sha dir (fun rest => s.tree.node (dir ++ rest))
      names = .ok found → post (.ok found) s')
    (herror : ∀ e s', rely s s' → (Faulty env ∨ ∃ e', recordsOf sha dir
      (fun rest => s.tree.node (dir ++ rest)) names = .error e') → post (.error e) s') :
    SafeTree me env rely may post (inventoryFrom sha dir names) s := by
  induction names generalizing s post with
  | nil => exact fun s' h => hok _ s' h rfl
  | cons rest more ih =>
    have hsame : ∀ s', rely s s' → (fun rest => s'.tree.node (dir ++ rest)) =
        fun rest => s.tree.node (dir ++ rest) := fun s' h => funext (hsteady s' h)
    apply safe_then
    apply safe_inventoryEntry sha ha dir rest s hsteady
    · intro entry s₁ h₁ hentry
      apply safe_then
      apply ih s₁ (hsteady.later h₁)
      · intro found s₂ h₂ hfound s' h
        rw [hsame s₁ h₁] at hfound
        apply hok _ s' (trans_of rely h₁ (trans_of rely h₂ h))
        rw [recordsOf, hentry, ok_bind, hfound]
        rfl
      · intro e s₂ h₂ hfaulty s' h
        rw [hsame s₁ h₁] at hfaulty
        refine herror e s' (trans_of rely h₁ (trans_of rely h₂ h)) (hfaulty.imp_right ?_)
        rintro ⟨e', he⟩
        refine ⟨e', ?_⟩
        rw [recordsOf, hentry, ok_bind, he]
        rfl
    · intro e s₁ h₁ hfaulty s' h
      refine herror e s' (trans_of rely h₁ h) (hfaulty.imp_right ?_)
      rintro ⟨e', he⟩
      refine ⟨e', ?_⟩
      rw [recordsOf, he]
      rfl

theorem safe_inventory {post : Except WeightError (List FileRecord × ℕ) → TreeHost ι → Prop}
    (dir : Path) (s : TreeHost ι) (hsteady : Steady rely dir s)
    (hok : ∀ found s', rely s s' → inventoryOf sha s.tree dir = .ok found → post (.ok found) s')
    (herror : ∀ e s', rely s s' → (Faulty env ∨ ∃ e', inventoryOf sha s.tree dir = .error e') →
      post (.error e) s') :
    SafeTree me env rely may post (inventory sha dir) s := by
  apply safe_then
  apply safe_scan ha
  · intro s₁ s₂ h₁ h₂
    have hs₂ := trans_of rely h₁ h₂
    have hview : (fun rest => s₂.tree.node (dir ++ rest)) = fun rest => s.tree.node (dir ++ rest) :=
      funext (hsteady s₂ hs₂)
    have hnames : sortPaths (s₁.tree.below dir) = sortPaths (s.tree.below dir) := by
      apply sortPaths_below
      intro rest
      rw [hsteady s₁ h₁]
    apply safe_inventoryFrom sha ha dir _ s₂ (hsteady.later hs₂)
    · intro found s' h hfound
      rw [hview, hnames] at hfound
      exact hok found s' (trans_of rely hs₂ h) hfound
    · intro e s' h hfaulty
      rw [hview, hnames] at hfaulty
      exact herror e s' (trans_of rely hs₂ h) hfaulty
  · exact fun e s' h hfaulty s'' h' => herror e s'' (trans_of rely h h') (Or.inl hfaulty)

end Inventories

variable [FloatText F]

omit [FloatText F] in
theorem checkManifest_eq {manifest manifest' : Json F} {modelId revision : String}
    {files : List FileRecord} {total : ℕ}
    (h : checkManifest manifest modelId revision files total = .ok manifest') :
    manifest' = manifest := by
  unfold checkManifest at h
  split at h
  · split at h
    · simp at h
    · split at h
      · simp at h
      · exact (Except.ok.inj h).symm
  · simp at h

/-- A snapshot of a tree that `verify` accepts, and the manifest that it returns. -/
def Verified (t : Tree) (modelId revision : String) (target : Path) (manifest : Json F) : Prop :=
  ∃ content found, nodeContent t (target ++ [MANIFEST]) = some content ∧
    loadManifest content = .ok manifest ∧ inventoryOf sha t target = .ok found ∧
    checkManifest manifest modelId revision found.1 found.2 = .ok manifest

theorem verified_congr {t t' : Tree} {modelId revision : String} {target : Path}
    {manifest : Json F} (h : ∀ rest, t'.node (target ++ rest) = t.node (target ++ rest)) :
    Verified sha t' modelId revision target manifest ↔
      Verified sha t modelId revision target manifest := by
  rw [Verified, Verified, nodeContent, nodeContent, h, inventoryOf_congr sha t t' target h]

/-- The others leave a snapshot alone that is there. -/
def KeepsSnapshots (rely : TreeHost ι → TreeHost ι → Prop) : Prop :=
  ∀ s s' modelId revision target, rely s s' → snapshotPath modelId revision = .ok target →
    s.tree.node target ≠ none → SameBelow target s s'

theorem safe_verify {post : Except WeightError (Json F) → TreeHost ι → Prop}
    (ha : Allows rely may) (hkeeps : KeepsSnapshots rely) (modelId revision : String)
    (s : TreeHost ι)
    (hok : ∀ target manifest s₁ s', rely s s₁ → rely s₁ s' →
      snapshotPath modelId revision = .ok target →
      Verified sha s₁.tree modelId revision target manifest → post (.ok manifest) s')
    (herror : ∀ e s₁ s', rely s s₁ → rely s₁ s' → (Faulty env ∨ ∀ target (manifest : Json F),
      snapshotPath modelId revision = .ok target →
        ¬ Verified sha s₁.tree modelId revision target manifest) → post (.error e) s') :
    SafeTree me env rely may post (verify sha modelId revision) s := by
  have hfault : ∀ e s', rely s s' → Faulty env → post (.error e) s' :=
    fun e s' h hfaulty => herror e s' s' h (refl_of rely _) (Or.inl hfaulty)
  apply safe_then
  intro s₀ h₀
  cases htarget : snapshotPath modelId revision with
  | error e =>
    refine fun s' h => herror e s₀ s' h₀ h (Or.inr ?_)
    intro target manifest htarget'
    rw [htarget] at htarget'
    simp at htarget'
  | ok target =>
    have hmissing : ∀ s₁ : TreeHost ι, nodeContent s₁.tree (target ++ [MANIFEST]) = none →
        ∀ target' (manifest : Json F), snapshotPath modelId revision = .ok target' →
          ¬ Verified sha s₁.tree modelId revision target' manifest := by
      rintro s₁ hnone target' manifest htarget' ⟨content, found, hcontent, -⟩
      rw [htarget, Except.ok.injEq] at htarget'
      rw [← htarget', hnone] at hcontent
      simp at hcontent
    apply safe_then
    apply safe_isFile ha
    · intro s₁ s₂ h₁ h₂
      have hs₁ := trans_of rely h₀ h₁
      have hs₂ := trans_of rely hs₁ h₂
      dsimp only
      split
      · rename_i hfile
        apply safe_then
        refine fun s₃ h₃ s' h => herror _ s₁ s' hs₁ (trans_of rely h₂ (trans_of rely h₃ h))
          (Or.inr (hmissing s₁ ?_))
        simpa using hfile
      · rename_i hfile
        have hthere : s₁.tree.node target ≠ none := by
          intro hnone
          have hbelow := s₁.tree.none_of_prefix target [MANIFEST] hnone
          simp [nodeContent, hbelow] at hfile
        have hsteady : Steady rely target s₁ := fun s' h =>
          hkeeps s₁ s' modelId revision target h htarget hthere
        apply safe_then
        apply safe_read ha (.readFile (target ++ [MANIFEST])) trivial
        intro s₃ s₄ h₃ h₄
        have hs₃ := trans_of rely h₂ h₃
        have hs₄ := trans_of rely hs₃ h₄
        have hcontent : nodeContent s₃.tree (target ++ [MANIFEST]) =
            nodeContent s₁.tree (target ++ [MANIFEST]) := by
          rw [nodeContent, nodeContent, hsteady s₃ hs₃]
        have hunverified : ∀ e s', rely s₄ s' → (Faulty env ∨ ∀ manifest : Json F,
            ¬ Verified sha s₁.tree modelId revision target manifest) → post (.error e) s' := by
          intro e s' h hfaulty
          refine herror e s₁ s' hs₁ (trans_of rely hs₄ h) (hfaulty.imp_right ?_)
          intro hnot target' manifest htarget'
          rw [htarget, Except.ok.injEq] at htarget'
          exact htarget' ▸ hnot manifest
        rcases readFile_cases me env s₃ (target ++ [MANIFEST]) with
          ⟨content, hanswer, hfound⟩ | ⟨e, hanswer, hfaulty⟩
        · rw [hanswer]
          rw [hcontent] at hfound
          dsimp only
          apply safe_then
          intro s₅ h₅
          have hs₅ := trans_of rely hs₄ h₅
          have hinventory := inventoryOf_congr sha s₁.tree s₅.tree target (hsteady s₅ hs₅)
          cases hload : loadManifest (F := F) content with
          | error e =>
            refine fun s' h => hunverified _ s' (trans_of rely h₅ h) (Or.inr ?_)
            rintro manifest ⟨content', found, hfound', hload', -⟩
            rw [hfound, Option.some.injEq] at hfound'
            rw [← hfound', hload] at hload'
            simp at hload'
          | ok manifest =>
            apply safe_then
            apply safe_inventory sha ha target s₅ (hsteady.later hs₅)
            · intro found s₆ h₆ hlisted s' h
              have hs' := trans_of rely h₅ (trans_of rely h₆ h)
              rw [hinventory] at hlisted
              cases hcheck : checkManifest manifest modelId revision found.1 found.2 with
              | error e =>
                refine hunverified _ s' hs' (Or.inr ?_)
                rintro manifest' ⟨content', found', hfound', hload', hlisted', hcheck'⟩
                rw [hfound, Option.some.injEq] at hfound'
                rw [← hfound', hload, Except.ok.injEq] at hload'
                rw [hlisted, Except.ok.injEq] at hlisted'
                rw [← hload', ← hlisted', hcheck] at hcheck'
                simp at hcheck'
              | ok manifest' =>
                obtain rfl := checkManifest_eq hcheck
                exact hok target _ s₁ s' hs₁ (trans_of rely hs₄ hs') htarget
                  ⟨content, found, hfound, hload, hlisted, hcheck⟩
            · intro e s₆ h₆ hfaulty s' h
              refine hunverified _ s' (trans_of rely h₅ (trans_of rely h₆ h))
                (hfaulty.imp_right ?_)
              rintro ⟨e', he⟩ manifest' ⟨content', found', -, -, hlisted', -⟩
              rw [hinventory, hlisted'] at he
              simp at he
        · rw [hanswer]
          rw [hcontent] at hfaulty
          dsimp only
          refine fun s' h => hunverified _ s' h (hfaulty.imp_right ?_)
          rintro hnone manifest ⟨content, found, hfound, -⟩
          rw [hnone] at hfound
          simp at hfound
    · exact fun e s' h hfaulty s'' h' => hfault e s'' (trans_of rely h₀ (trans_of rely h h'))
        hfaulty

def sizeAt (t : Tree) (path : Path) : ℕ := ((nodeContent t path).getD []).length

def sizesOf (t : Tree) (dir : Path) (names : List Path) : ℕ :=
  (names.map (fun rest => sizeAt t (dir ++ rest))).sum

/-- The bytes of the regular files below `models`. -/
def usedBytes (t : Tree) : ℕ := sizesOf t ["models"] (t.below ["models"])

theorem sizesOf_congr {t t' : Tree} {dir : Path}
    (h : ∀ rest, t'.node (dir ++ rest) = t.node (dir ++ rest)) (names : List Path) :
    sizesOf t' dir names = sizesOf t dir names := by
  simp only [sizesOf, sizeAt, nodeContent, h]

/-- The sum does not depend on the order in which the tree lists the names. -/
theorem usedBytes_congr {t t' : Tree}
    (h : ∀ rest, t'.node (["models"] ++ rest) = t.node (["models"] ++ rest)) :
    usedBytes t' = usedBytes t := by
  have hperm : (t'.below ["models"]).Perm (t.below ["models"]) := by
    rw [List.perm_ext_iff_of_nodup (nodup_below _ _) (nodup_below _ _)]
    intro rest
    rw [mem_below, mem_below, h]
  rw [usedBytes, usedBytes, sizesOf_congr h]
  exact (hperm.map _).sum_eq

section Capacity

variable (ha : Allows rely may)
include ha

theorem safe_regularSize {post : Except WeightError ℕ → TreeHost ι → Prop} (path : Path)
    (s : TreeHost ι)
    (hok : ∀ size s', rely s s' →
      ((∀ s', rely s s' → s'.tree.node path = s.tree.node path) → size = sizeAt s.tree path) →
      post (.ok size) s')
    (herror : ∀ e s', rely s s' → post (.error e) s') :
    SafeTree me env rely may post (regularSize path) s := by
  apply safe_then
  apply safe_isFile ha
  · intro s₁ s₂ h₁ h₂
    have hs₂ := trans_of rely h₁ h₂
    dsimp only
    split
    · apply safe_fileSize ha
      · intro content s₃ s₄ h₃ h₄ hcontent
        have hs₃ := trans_of rely hs₂ h₃
        apply hok _ s₄ (trans_of rely hs₃ h₄)
        intro hsteady
        rw [nodeContent, hsteady s₃ hs₃] at hcontent
        rw [sizeAt, nodeContent, hcontent]
        rfl
      · exact fun e s₃ s₄ h₃ h₄ _ => herror e s₄ (trans_of rely hs₂ (trans_of rely h₃ h₄))
    · rename_i hfile
      intro s₃ h₃
      apply hok 0 s₃ (trans_of rely hs₂ h₃)
      intro hsteady
      rw [nodeContent, hsteady s₁ h₁] at hfile
      rw [sizeAt, nodeContent, Option.not_isSome_iff_eq_none.mp hfile]
      rfl
  · exact fun e s₁ h₁ _ s₂ h₂ => herror e s₂ (trans_of rely h₁ h₂)

theorem safe_sumSizes {post : Except WeightError ℕ → TreeHost ι → Prop} (dir : Path)
    (names : List Path) (s : TreeHost ι)
    (hok : ∀ total s', rely s s' → (Steady rely dir s → total = sizesOf s.tree dir names) →
      post (.ok total) s')
    (herror : ∀ e s', rely s s' → post (.error e) s') :
    SafeTree me env rely may post (sumSizes dir names) s := by
  induction names generalizing s post with
  | nil => exact fun s' h => hok 0 s' h (fun _ => rfl)
  | cons rest more ih =>
    apply safe_then
    apply safe_regularSize ha
    · intro here s₁ h₁ hhere
      apply safe_then
      apply ih s₁
      · intro total s₂ h₂ htotal s' h
        apply hok _ s' (trans_of rely h₁ (trans_of rely h₂ h))
        intro hsteady
        rw [hhere (fun s' h => hsteady s' h rest), htotal (hsteady.later h₁),
          sizesOf_congr (hsteady s₁ h₁)]
        rfl
      · exact fun e s₂ h₂ s' h => herror e s' (trans_of rely h₁ (trans_of rely h₂ h))
    · exact fun e s₁ h₁ s' h => herror e s' (trans_of rely h₁ h)

omit [FloatText F] in
theorem safe_status {post : Except WeightError (VaultStatus F) → TreeHost ι → Prop}
    (repr : String → String) (vault : WeightVault F) (s : TreeHost ι)
    (hok : ∀ found s', rely s s' →
      (Steady rely ["models"] s → found.usedBytes = usedBytes s.tree) →
      configInt repr vault "quota_bytes" = .ok found.quotaBytes → post (.ok found) s')
    (herror : ∀ e s', rely s s' → post (.error e) s') :
    SafeTree me env rely may post (status repr vault) s := by
  apply safe_then
  apply safe_diskFree ha
  · intro free s₁ h₁
    apply safe_then
    apply safe_scan ha
    · intro s₂ s₃ h₂ h₃
      have hs₂ := trans_of rely h₁ h₂
      have hs₃ := trans_of rely hs₂ h₃
      apply safe_then
      apply safe_sumSizes ha
      · intro used s₄ h₄ hused
        have hs₄ := trans_of rely hs₃ h₄
        have htotal : Steady rely ["models"] s → used = usedBytes s.tree := by
          intro hsteady
          have hsame := hsteady s₂ hs₂
          rw [hused (hsteady.later hs₃), sizesOf_congr (hsteady s₃ hs₃), ← sizesOf_congr hsame,
            ← usedBytes_congr hsame, usedBytes]
        apply safe_then
        apply safe_scan ha
        · intro s₅ s₆ h₅ h₆
          have hs₆ := trans_of rely hs₄ (trans_of rely h₅ h₆)
          dsimp only
          split
          · exact fun s' h => herror _ s' (trans_of rely hs₆ h)
          · rename_i vaultId _
            apply safe_then
            intro s₇ h₇
            have hs₇ := trans_of rely hs₆ h₇
            cases hquota : configInt repr vault "quota_bytes" with
            | error e => exact fun s' h => herror _ s' (trans_of rely hs₇ h)
            | ok quota =>
              apply safe_then
              intro s₈ h₈
              have hs₈ := trans_of rely hs₇ h₈
              cases hreserve : configInt repr vault "reserve_bytes" with
              | error e => exact fun s' h => herror _ s' (trans_of rely hs₈ h)
              | ok reserve =>
                exact fun s' h => hok ⟨vaultId, quota, reserve, used, free, _⟩ s'
                  (trans_of rely hs₈ h) htotal hquota
        · exact fun e s₅ h₅ _ s' h => herror e s' (trans_of rely hs₄ (trans_of rely h₅ h))
      · exact fun e s₄ h₄ s' h => herror e s' (trans_of rely hs₃ (trans_of rely h₄ h))
    · exact fun e s₂ h₂ _ s' h => herror e s' (trans_of rely h₁ (trans_of rely h₂ h))
  · exact fun e s₁ h₁ _ s' h => herror e s' (trans_of rely h₁ h)

omit [FloatText F] in
theorem safe_requireCapacity {post : Except WeightError Unit → TreeHost ι → Prop}
    (repr : String → String) (vault : WeightVault F) (expected : ℤ) (s : TreeHost ι)
    (hok : ∀ s', rely s s' → (Steady rely ["models"] s → ∃ quota,
      configInt repr vault "quota_bytes" = .ok quota ∧
        (quota = 0 ∨ usedBytes s.tree + expected ≤ quota)) → post (.ok ()) s')
    (herror : ∀ e s', rely s s' → post (.error e) s') :
    SafeTree me env rely may post (requireCapacity repr vault expected) s := by
  unfold requireCapacity
  split
  · exact safe_then _ _ _ (fun s' h s'' h' => herror _ s'' (trans_of rely h h'))
  apply safe_then
  apply safe_status ha
  · intro found s₁ h₁ hused hquota
    dsimp only
    split
    · exact safe_then _ _ _ (fun s₂ h₂ s' h =>
        herror _ s' (trans_of rely h₁ (trans_of rely h₂ h)))
    · rename_i hfits
      split
      · exact fun s' h => herror _ s' (trans_of rely h₁ h)
      · refine fun s' h => hok s' (trans_of rely h₁ h) (fun hsteady => ⟨_, hquota, ?_⟩)
        rw [hused hsteady] at hfits
        omega
  · exact fun e s₁ h₁ s' h => herror e s' (trans_of rely h₁ h)

end Capacity

end Decillion.WeightRules
