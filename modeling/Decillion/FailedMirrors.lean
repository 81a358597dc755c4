import Decillion.RepeatedMirrors

/-!
A mirror that raises. The download slot removes its staging directory and its lock file in the
`finally` of a `try` that begins after both have been made, so what is made first stays when
the second one cannot be made. From every other failure nothing of the run remains.
-/
namespace Decillion.FailedMirrors

open ByteText Evaluations Interleavings JsonStrings JsonText JsonValues MirrorRules MirrorSteps
  Primitives Programs PyErrors PyValues RepeatedMirrors SnapshotPaths TreeFrames
    TreeRules TreeSystem
  Trees WeightEvaluations WeightRules WeightVaults

variable {ι F : Type} [DecidableEq ι] [FloatText F] [FloatNumber F] {u : ι} {env : TreeEnv}

section Quiet

/-- From some tick on nothing fails. -/
def QuietFrom (env : TreeEnv) (n : ℕ) : Prop := ∀ tick, n ≤ tick → env.fault tick = false

theorem eval_quietly {α : Type} (p : Prog TreeOp Resp α) (s : TreeHost ι) {n : ℕ}
    (h : QuietFrom env n) (hn : n ≤ s.tick) :
    eval (handle u env) p s = eval (handle u (quietly env)) p s := by
  induction p generalizing s with
  | done a => rfl
  | call op next ih =>
    have hlater : n ≤ (handle u env s op).2.tick := by
      rw [handle_tick]
      exact Nat.le_succ_of_le hn
    rw [eval, ih _ _ hlater, handle_quietly u env s op (h s.tick hn)]
    rfl

end Quiet

section Removal

/-- No name comes before what is below it. -/
def ChildrenFirst (names : List Path) : Prop := names.Pairwise (fun a b => ¬ a <+: b)

theorem le_append (path rest : Path) : path ≤ path ++ rest := by
  induction path with
  | nil => exact not_lt.mp (List.not_lt_nil _)
  | cons name path ih => exact List.cons_le_cons name ih

theorem childrenFirst_names (t : Tree) (dir : Path) :
    ChildrenFirst ((sortPaths (t.below dir)).reverse ++ [[]]) := by
  refine List.pairwise_append.mpr ⟨?_, List.pairwise_singleton _ _, ?_⟩
  · rw [List.pairwise_reverse]
    have hsorted : (sortPaths (t.below dir)).Pairwise (· ≤ ·) := List.pairwise_insertionSort _ _
    have hnodup := nodup_sortPaths _ (nodup_below t dir)
    refine (hsorted.and hnodup).imp ?_
    rintro a b ⟨hle, hne⟩ ⟨rest, rfl⟩
    exact hne (le_antisymm hle (le_append b rest))
  · intro a ha b hb hprefix
    obtain rfl := List.mem_singleton.mp hb
    obtain rfl := List.prefix_nil.mp hprefix
    rw [List.mem_reverse, mem_sortPaths, mem_below] at ha
    exact ha.1 rfl

/-- The removals are over when nothing is left below the directory. -/
theorem eval_removeAll {ε : Type} [PythonErrors ε] (hquiet : ∀ tick, env.fault tick = false)
    {dir : Path} (hdir : dir ≠ []) (names : List Path) (s : TreeHost ι)
    (hnames : ChildrenFirst names)
    (hall : ∀ rest, s.tree.node (dir ++ rest) ≠ none → rest ∈ names) :
    ∃ s', eval (handle u env) (removeTree.removeAll dir names : Act ε Unit) s = (.ok (), s') ∧
      (∀ rest, s'.tree.node (dir ++ rest) = none) ∧
      ∀ p, ¬ dir <+: p → s'.tree.node p = s.tree.node p := by
  induction names generalizing s with
  | nil =>
    refine ⟨s, rfl, fun rest => ?_, fun _ _ => rfl⟩
    by_contra hsome
    exact absurd (hall rest hsome) List.not_mem_nil
  | cons rest more ih =>
    obtain ⟨hfirst, hmore⟩ := List.pairwise_cons.mp hnames
    let next := (handle u env s (.remove (dir ++ rest))).2
    have hkept : ∀ p, p ≠ dir ++ rest → next.tree.node p = s.tree.node p := fun p hp =>
      handle_node u env s (TreeOp.remove (dir ++ rest)) p hp
    have hgone : next.tree.node (dir ++ rest) = none := by
      by_cases hsome : s.tree.node (dir ++ rest) = none
      · have herase : s.tree.erase (dir ++ rest) = none := by
          rw [Tree.erase, dif_neg (fun h => h.2.1 hsome)]
        have hnext : next = s.next := by
          simp only [next, handle, hquiet, herase]
          rfl
        rw [hnext]
        exact hsome
      · have hchild : s.tree.hasChild (dir ++ rest) = false := by
          rw [Tree.hasChild_eq_false]
          intro name
          by_contra hthere
          rw [List.append_assoc] at hthere
          rcases List.mem_cons.mp (hall _ hthere) with heq | hin
          · simp at heq
          · exact hfirst _ hin (List.prefix_append _ _)
        have herase : ∃ t, s.tree.erase (dir ++ rest) = some t := by
          rw [Tree.erase, dif_pos ⟨by simp [hdir], hsome, hchild⟩]
          exact ⟨_, rfl⟩
        obtain ⟨t, herase⟩ := herase
        have hnext : next = s.become t := by
          simp only [next, handle, hquiet, herase]
          rfl
        rw [hnext]
        change t.node _ = none
        rw [erase_node herase, Function.update_self]
    obtain ⟨s', hrun, hempty, helsewhere⟩ := ih next hmore (by
      intro other hother
      by_cases heq : other = rest
      · rw [heq] at hother
        exact absurd hgone hother
      · rw [hkept _ (by simpa using heq)] at hother
        exact (List.mem_cons.mp (hall other hother)).resolve_left heq)
    refine ⟨s', ?_, hempty, fun p hp => ?_⟩
    · exact (eval_then (eval_perform (TreeOp.remove (dir ++ rest)) s)).trans hrun
    · rw [helsewhere p hp, hkept]
      rintro rfl
      exact hp (List.prefix_append _ _)

/-- What is removed is gone with everything below it. -/
theorem eval_removeTree {ε : Type} [PythonErrors ε] (hquiet : ∀ tick, env.fault tick = false)
    {dir : Path} (hdir : dir ≠ []) (s : TreeHost ι) :
    ∃ s', eval (handle u env) (removeTree dir : Act ε Unit) s = (.ok (), s') ∧
      (∀ rest, s'.tree.node (dir ++ rest) = none) ∧
      ∀ p, ¬ dir <+: p → s'.tree.node p = s.tree.node p := by
  obtain ⟨s', hrun, hempty, helsewhere⟩ := eval_removeAll (u := u) (ε := ε) hquiet hdir
    ((sortPaths (s.tree.below dir)).reverse ++ [[]]) s.next (childrenFirst_names s.tree dir) (by
      intro rest hrest
      by_cases hnil : rest = []
      · exact List.mem_append_right _ (List.mem_singleton.mpr hnil)
      · refine List.mem_append_left _ ?_
        rw [List.mem_reverse, mem_sortPaths, mem_below]
        exact ⟨hnil, hrest⟩)
  refine ⟨s', ?_, hempty, helsewhere⟩
  have hscan : eval (handle u env) (perform (.scan dir) : Act ε (Resp _)) s =
      (.ok (.ok (s.tree.below dir) : Except PyError (List Path)), s.next) := by
    simp only [perform, eval, handle, hquiet]
    rfl
  exact (eval_then hscan).trans hrun

/-- The file of a lock is removed. -/
theorem eval_unlinkMissing {ε : Type} [PythonErrors ε] (hquiet : ∀ tick, env.fault tick = false)
    {path : Path} (hpath : path ≠ []) {content : Bytes} {s : TreeHost ι}
    (h : s.tree.node path = some (.file content)) :
    ∃ s', eval (handle u env) (unlinkMissing path : Act ε Unit) s = (.ok (), s') ∧
      s'.tree.node path = none ∧ ∀ p, p ≠ path → s'.tree.node p = s.tree.node p := by
  have hchild : s.tree.hasChild path = false := by
    rw [Tree.hasChild_eq_false]
    intro name
    by_contra hthere
    have hdir := s.tree.closed path name hthere
    rw [h] at hdir
    cases hdir
  have herase : ∃ t, s.tree.erase path = some t := by
    rw [Tree.erase, dif_pos ⟨hpath, by rw [h]; simp, hchild⟩]
    exact ⟨_, rfl⟩
  obtain ⟨t, herase⟩ := herase
  let s' : TreeHost ι := ⟨t, Function.update s.inside path ((s.inside path).erase u), s.tick + 1⟩
  have hunlink : eval (handle u env) (perform (.unlink path) : Act ε (Resp _)) s =
      (.ok (.ok () : Except PyError Unit), s') := by
    simp only [perform, eval, handle, hquiet, h, herase]
    rfl
  refine ⟨s', (eval_then hunlink).trans rfl, ?_, fun p hp => erase_elsewhere herase hp⟩
  change t.node path = none
  rw [erase_node herase, Function.update_self]

end Removal

section Frames

/-- The others do nothing. -/
def SameTree (s s' : TreeHost ι) : Prop := s'.tree = s.tree

instance : IsPreorder (TreeHost ι) SameTree where
  refl _ := rfl
  trans _ _ _ h h' := Eq.trans h' h

/-- Only what is in the area has changed. -/
def Outside (area : Path → Prop) (s s' : TreeHost ι) : Prop :=
  ∀ p, ¬ area p → s'.tree.node p = s.tree.node p

instance (area : Path → Prop) : IsPreorder (TreeHost ι) (Outside area) where
  refl _ := fun _ _ => rfl
  trans _ _ _ h h' := fun p hp => (h' p hp).trans (h p hp)

/-- The staging directory of a run, what is below it, and the directories that lead there and
to the places of snapshots. -/
def Area (staging p : Path) : Prop :=
  staging <+: p ∨ p <+: staging ∨ ∃ target, IsSnapshot target ∧ p <+: target.dropLast

/-- The area of a run that publishes, with the places of snapshots. -/
def Wide (staging p : Path) : Prop :=
  Area staging p ∨ ∃ target, IsSnapshot target ∧ target <+: p

def Within (env : TreeEnv) (area : Path → Prop) (op : TreeOp) : Prop :=
  ∀ p, Touches env op p → area p

theorem within_read {area : Path → Prop} {op : TreeOp} (h : IsRead op) : Within env area op := by
  intro p htouch
  cases op <;> first | exact htouch.elim | exact h.elim

omit [DecidableEq ι] in
theorem outside_of_same {area : Path → Prop} {s s' : TreeHost ι} (h : SameTree s s') :
    Outside area s s' := by
  intro p _
  rw [h]

omit [DecidableEq ι] in
theorem outside_wide {staging : Path} {s s' : TreeHost ι} (h : Outside (Area staging) s s') :
    Outside (Wide staging) s s' := fun p hp => h p (fun harea => hp (Or.inl harea))

omit [DecidableEq ι] in
theorem allows_same : Allows (SameTree (ι := ι)) (fun _ _ => True) where
  next _ := rfl
  read _ _ _ := trivial

omit [DecidableEq ι] in
theorem keeps_same : KeepsSnapshots (SameTree (ι := ι)) := by
  intro s s' modelId revision target h _ _ rest
  rw [h]

/-- What is done within an area is done nowhere else. -/
theorem safe_within {α : Type} {area : Path → Prop} (p : Prog TreeOp Resp α) (s : TreeHost ι)
    (h : Only (Within env area) p) {post : α → TreeHost ι → Prop}
    (hpost : ∀ a s', Outside area s s' → post a s') :
    SafeTree u env SameTree (fun _ _ => True) post p s :=
  safe_only (fun _ _ => outside_of_same) (fun _ _ _ => trivial)
    (fun s op hop p hp => handle_node u env s op p (fun htouch => hp (hop p htouch))) p s h hpost

theorem only_tryFinally {ε α : Type} {ok : TreeOp → Prop} {body : Act ε α} {finish : Act ε Unit}
    (h : Only ok body) (h' : Only ok finish) : Only ok (tryFinally body finish) := by
  apply only_bind _ _ h
  intro result
  apply only_bind _ _ h'
  intro ended
  cases ended with
  | ok _ => trivial
  | error e => trivial

variable {staging : Path}

theorem area_below (rest : Path) : Area staging (staging ++ rest) :=
  Or.inl (List.prefix_append _ _)

variable (u env) in
/-- A relation that holds after everything that is done in a staging directory, and after the
directories that lead there or to the place of a snapshot are made. -/
structure Confines (R : TreeHost ι → TreeHost ι → Prop) (staging target : Path) : Prop where
  same : ∀ s s', SameTree s s' → R s s'
  staged : ∀ op, Within env (fun p => staging <+: p) op → ∀ s, R s (handle u env s op).2
  parent : ∀ p, p <+: staging ∨ p <+: target.dropLast → ∀ s, R s (handle u env s (.mkdir p)).2

section Confined

variable {R : TreeHost ι → TreeHost ι → Prop} {target : Path}

theorem Confines.makes (h : Confines u env R staging target) (path : Path)
    (hpath : path = staging ∨ path = target.dropLast) :
    Only (fun op => ∀ s, R s (handle u env s op).2) (makeDirs path : Weight Unit) := by
  apply only_makeDirs path (fun p _ => h.staged (.isDir p) (within_read trivial))
  intro p hp _
  rcases hpath with rfl | rfl
  · exact h.parent p (Or.inl hp)
  · exact h.parent p (Or.inr hp)

variable [IsPreorder (TreeHost ι) R]

theorem Confines.safe {α : Type} (h : Confines u env R staging target) (p : Prog TreeOp Resp α)
    (s : TreeHost ι) (honly : Only (fun op => ∀ s, R s (handle u env s op).2) p)
    {post : α → TreeHost ι → Prop} (hpost : ∀ a s', R s s' → post a s') :
    SafeTree u env SameTree (fun _ _ => True) post p s :=
  safe_only h.same (fun _ _ _ => trivial) (fun s _ hop => hop s) p s honly hpost

omit [FloatNumber F] in
/-- Everything that is done for the manifest is done in the staging directory. -/
theorem Confines.safe_atomicJson (h : Confines u env R staging target)
    {post : Except WeightError Unit → TreeHost ι → Prop} (value : Json F) (s : TreeHost ι)
    (hpost : ∀ result s', R s s' → post result s') :
    SafeTree u env SameTree (fun _ _ => True) post
      (atomicJson (staging ++ [MANIFEST]) value) s := by
  have htemporary : ∀ s, R s (handle u env s (.mkstemp staging ".json-")).2 := by
    apply h.staged
    rintro p ⟨tick, rfl⟩
    exact List.prefix_append _ _
  unfold atomicJson
  rw [List.dropLast_concat]
  apply safe_then
  apply h.safe _ s (h.makes staging (Or.inl rfl))
  intro result s₁ h₁
  cases result with
  | error e => exact fun s' h' => hpost _ s' (trans_of R h₁ (h.same _ _ h'))
  | ok _ =>
    apply safe_then
    apply safe_mkstemp staging ".json-" s₁ (fun _ _ => trivial)
    · intro s₂ t s₃ h₂ _ _ hnext h₃
      have hmade := htemporary s₂
      rw [hnext] at hmade
      have hs₃ : R s s₃ :=
        trans_of R h₁ (trans_of R (h.same _ _ h₂) (trans_of R hmade (h.same _ _ h₃)))
      apply h.safe
      · apply only_tryFinally
        · apply only_then
          · refine only_orRaise _ (only_perform (h.staged _ (fun p htouch => ?_)))
            obtain rfl : p = _ := htouch
            exact List.prefix_append _ _
          · intro _
            apply only_then
            · exact only_orRaise _ (only_perform (h.staged _ (within_read trivial)))
            · intro _
              refine only_orRaise _ (only_perform (h.staged _ ?_))
              rintro p (hle | hle)
              · exact (List.prefix_append _ _).trans hle
              · exact (List.prefix_append _ _).trans hle
        · apply only_then
          · exact only_perform (h.staged _ (within_read trivial))
          · intro present
            cases present with
            | false => trivial
            | true =>
              refine only_orRaise _ (only_perform (h.staged _ (fun p htouch => ?_)))
              obtain rfl : p = _ := htouch
              exact List.prefix_append _ _
      · exact fun result s' h' => hpost result s' (trans_of R hs₃ h')
    · intro e s₂ s₃ h₂ h₃ s' h'
      have hs₃ : R s₂ s' := trans_of R (htemporary s₂) (h.same _ _ (trans_of SameTree h₃ h'))
      exact hpost _ s' (trans_of R h₁ (trans_of R (h.same _ _ h₂) hs₃))

variable (repr : String → String) (sha : Sha256) (vault : WeightVault F)

/-- The renaming is the last thing that is done, and the only one outside. -/
theorem Confines.safe_publish (h : Confines u env R staging target)
    {post : Except WeightError (Json F) → TreeHost ι → Prop} (modelId revision license : String)
    (s : TreeHost ι)
    (hok : ∀ manifest s₁ s', R s s₁ → SameTree (handle u env s₁ (.replace staging target)).2 s' →
      post (.ok manifest) s')
    (herror : ∀ e s', R s s' → post (.error e) s') :
    SafeTree u env SameTree (fun _ _ => True) post
      (publish sha repr vault staging target modelId revision license) s := by
  have hread : ∀ e s', SameTree s s' → post (.error e) s' :=
    fun e s' h' => herror e s' (h.same _ _ h')
  unfold publish
  apply safe_then
  apply safe_inventory sha allows_same staging s (fun s' h rest => by rw [h])
  · intro found s₃ h₃ _
    dsimp only
    split
    · exact safe_then _ _ _ (fun s₄ h₄ s' h =>
        hread _ s' (trans_of SameTree h₃ (trans_of SameTree h₄ h)))
    · apply safe_then
      apply safe_requireCapacity allows_same
      · intro s₄ h₄ _
        apply safe_then
        apply safe_utcNow allows_same
        intro now s₅ h₅
        have hs₅ := trans_of SameTree h₃ (trans_of SameTree h₄ h₅)
        apply safe_then
        apply h.safe_atomicJson
        intro written s₆ h₆
        have hs₆ := trans_of R (h.same _ _ hs₅) h₆
        cases written with
        | error e => exact fun s' h' => herror e s' (trans_of R hs₆ (h.same _ _ h'))
        | ok _ =>
          apply safe_then
          apply h.safe _ s₆ (h.makes target.dropLast (Or.inr rfl))
          intro result s₇ h₇
          have hs₇ := trans_of R hs₆ h₇
          cases result with
          | error e => exact fun s' h' => herror e s' (trans_of R hs₇ (h.same _ _ h'))
          | ok _ =>
            apply safe_then
            apply safe_orRaise
            apply safe_perform (.replace staging target) s₇ (fun _ _ => trivial)
            intro s₈ s₉ h₈ h₉
            rcases replace_cases u env s₈ staging target with ⟨e, hmoved⟩ | ⟨t, hmoved⟩
            · rw [hmoved] at h₉ ⊢
              intro s₁₀ h₁₀ s' h'
              have hs' : SameTree s₇ s' := trans_of SameTree h₈
                (trans_of SameTree h₉ (trans_of SameTree h₁₀ h'))
              exact herror _ s' (trans_of R hs₇ (h.same _ _ hs'))
            · rw [hmoved]
              intro s₁₀ h₁₀ s' h'
              exact hok _ s₈ s' (trans_of R hs₇ (h.same _ _ h₈))
                (trans_of SameTree h₉ (trans_of SameTree h₁₀ h'))
      · exact fun e s₄ h₄ s' h =>
          hread e s' (trans_of SameTree h₃ (trans_of SameTree h₄ h))
  · exact fun e s₃ h₃ _ s' h => hread e s' (trans_of SameTree h₃ h)

/-- A snapshot that is there already is only read. -/
theorem safe_commit_reads {post : Except WeightError (Json F) → TreeHost ι → Prop}
    (modelId revision license : String) (s : TreeHost ι)
    (hread : ∀ result s', SameTree s s' → post result s')
    (hpublish : ∀ target s₁, SameTree s s₁ → snapshotPath modelId revision = .ok target →
      nodeExists s.tree target = false → SafeTree u env SameTree (fun _ _ => True) post
        (publish sha repr vault staging target modelId revision license) s₁) :
    SafeTree u env SameTree (fun _ _ => True) post
      (commitSnapshot repr sha vault staging modelId revision license) s := by
  rw [commitSnapshot_eq]
  apply safe_then
  intro s₀ h₀
  cases htarget : snapshotPath modelId revision with
  | error e => exact fun s' h => hread _ s' (trans_of SameTree h₀ h)
  | ok target =>
    apply safe_then
    apply safe_pathExists allows_same
    · intro s₁ s₂ h₁ h₂
      have hs₂ := trans_of SameTree h₀ (trans_of SameTree h₁ h₂)
      dsimp only
      split
      · apply safe_verify sha allows_same keeps_same
        · intro _ manifest s₃ s' h₃ h _ _
          exact hread _ s' (trans_of SameTree hs₂ (trans_of SameTree h₃ h))
        · exact fun e s₃ s' h₃ h _ => hread _ s' (trans_of SameTree hs₂ (trans_of SameTree h₃ h))
      · rename_i habsent
        apply hpublish target s₂ hs₂ htarget
        rw [← Bool.not_eq_true]
        rwa [trans_of SameTree h₀ h₁] at habsent
    · exact fun e s₁ h₁ _ s' h => hread _ s' (trans_of SameTree h₀ (trans_of SameTree h₁ h))

end Confined

theorem confines_area {target : Path} (htarget : IsSnapshot target) :
    Confines u env (Outside (Area staging)) staging target where
  same _ _ := outside_of_same
  staged op hop s p hp := handle_node u env s op p (fun htouch => hp (Or.inl (hop p htouch)))
  parent path hpath s p hp := by
    apply handle_node
    intro htouch
    obtain rfl : p = path := htouch
    rcases hpath with hpath | hpath
    · exact hp (Or.inr (Or.inl hpath))
    · exact hp (Or.inr (Or.inr ⟨target, htarget, hpath⟩))

variable (repr : String → String) (sha : Sha256) (vault : WeightVault F)

/-- What has been committed when `commit_snapshot` raises is only in the staging directory. -/
theorem safe_outside_commit {post : Except WeightError (Json F) → TreeHost ι → Prop}
    (modelId revision license : String) (s : TreeHost ι)
    (hok : ∀ manifest s', Outside (Wide staging) s s' → post (.ok manifest) s')
    (herror : ∀ e s', Outside (Area staging) s s' → post (.error e) s') :
    SafeTree u env SameTree (fun _ _ => True) post
      (commitSnapshot repr sha vault staging modelId revision license) s := by
  apply safe_commit_reads
  · intro result s' h
    cases result with
    | ok manifest => exact hok manifest s' (outside_of_same h)
    | error e => exact herror e s' (outside_of_same h)
  · intro target s₁ h₁ htarget _
    have hsnapshot : IsSnapshot target := ⟨modelId, revision, htarget⟩
    apply (confines_area hsnapshot).safe_publish
    · intro manifest s₂ s' h₂ h
      refine hok manifest s' (trans_of (Outside _) (outside_wide (trans_of (Outside _)
        (outside_of_same h₁) h₂)) (trans_of (Outside _) ?_ (outside_of_same h)))
      intro p hp
      apply handle_node
      rintro (hle | hle)
      · exact hp (Or.inl (Or.inl hle))
      · exact hp (Or.inr ⟨target, hsnapshot, hle⟩)
    · exact fun e s' h => herror e s' (trans_of (Outside _) (outside_of_same h₁) h)

/-- What `mirror` does in the download slot. -/
def body (call : MirrorCall) (staging : Path) : Weight (Json F) := do
  snapshotDownload staging call
  commitSnapshot repr sha vault staging call.modelId call.revision call.license

variable (staging u env) in
/-- What the body has changed, and what it has changed when it raises. -/
theorem body_outside (call : MirrorCall) (s : TreeHost ι) :
    Outside (Wide staging) s (eval (handle u env) (body repr sha vault call staging) s).2 ∧
      ∀ e, (eval (handle u env) (body repr sha vault call staging) s).1 = .error e →
        Outside (Area staging) s (eval (handle u env) (body repr sha vault call staging) s).2 := by
  let post : Except WeightError (Json F) → TreeHost ι → Prop := fun result s' =>
    Outside (Wide staging) s s' ∧ ∀ e, result = .error e → Outside (Area staging) s s'
  have hdownload : Only (Within env (Area staging)) (snapshotDownload staging call) := by
    apply only_mono (only_snapshotDownload staging call)
    rintro op ⟨rest, value, rfl⟩ p htouch
    obtain rfl : p = _ := htouch
    exact area_below rest
  have herror : ∀ e s', Outside (Area staging) s s' → post (.error e) s' :=
    fun _ s' h => ⟨outside_wide h, fun _ _ => h⟩
  apply @eval_safe _ _ _ _ (handle u env) SameTree (fun _ _ => True) (fun _ _ => True) _ post _ s
    (fun _ _ => trivial)
  apply safe_then
  apply safe_within _ s hdownload
  intro result s₁ h₁
  cases result with
  | error e => exact fun s' h' => herror e s' (trans_of (Outside _) h₁ (outside_of_same h'))
  | ok _ =>
    apply safe_outside_commit
    · intro manifest s' h'
      exact ⟨trans_of (Outside _) (outside_wide h₁) h', fun e herror => nomatch herror⟩
    · exact fun e s' h' => herror e s' (trans_of (Outside _) h₁ h')

end Frames

section Slots

variable (repr : String → String) (sha : Sha256) (vault : WeightVault F) (call : MirrorCall)

/-- Nothing of a run remains: neither its lock file nor its staging directory, and every
snapshot is unchanged. -/
structure Clean (s s' : TreeHost ι) : Prop where
  lock : s'.tree.node (lockPath sha call.modelId call.revision) =
    s.tree.node (lockPath sha call.modelId call.revision)
  staging : ∀ name rest,
    s'.tree.node (".staging" :: name :: rest) = s.tree.node (".staging" :: name :: rest)
  snapshots : KeptSnapshots s s'

def stagingStart : String := slice (slotKey sha call.modelId call.revision) 0 12 ++ "-"

/-- The lock file is made. -/
def Locks (u : ι) (env : TreeEnv) (s s₁ : TreeHost ι) : Prop :=
  eval (handle u env)
    (perform (.createExclusive (lockPath sha call.modelId call.revision)) : Weight (Resp _)) s =
      (.ok (.ok () : Except PyError Unit), s₁)

/-- The staging directory cannot be made after the lock file has been. -/
def StagingFails (u : ι) (env : TreeEnv) (s : TreeHost ι) : Prop :=
  ∃ s₁ e s₂, Locks sha call u env s s₁ ∧
    eval (handle u env) (mkdtemp [".staging"] (stagingStart sha call) : Weight Path) s₁ =
      (.error e, s₂)

/-- Nothing fails from the end of the body on, so that the cleanup succeeds. -/
def CleanupSucceeds (u : ι) (env : TreeEnv) (s : TreeHost ι) : Prop :=
  ∀ s₁ staging s₂, Locks sha call u env s s₁ →
    eval (handle u env) (mkdtemp [".staging"] (stagingStart sha call) : Weight Path) s₁ =
      (.ok staging, s₂) →
    QuietFrom env (eval (handle u env) (body repr sha vault call staging) s₂).2.tick

omit [DecidableEq ι] in
theorem clean_of_tree {s s' : TreeHost ι} (h : s'.tree = s.tree) : Clean sha call s s' := by
  refine ⟨by rw [h], fun _ _ => by rw [h], fun _ _ _ rest => by rw [h]⟩

theorem locks_cases (u : ι) (env : TreeEnv) (s : TreeHost ι) :
    (∃ e, eval (handle u env) (perform (.createExclusive
        (lockPath sha call.modelId call.revision)) : Weight (Resp _)) s =
      (.ok (.error e : Except PyError Unit), s.next)) ∨
    ∃ s₁, Locks sha call u env s s₁ ∧
      s.tree.node (lockPath sha call.modelId call.revision) = none ∧
      s₁.tree.node (lockPath sha call.modelId call.revision) = some (.file []) ∧
      ∀ p, p ≠ lockPath sha call.modelId call.revision → s₁.tree.node p = s.tree.node p := by
  rcases createExclusive_cases u env s (lockPath sha call.modelId call.revision) with
    ⟨e, hmade⟩ | ⟨t, hnone, hput, hmade⟩
  · refine Or.inl ⟨e, ?_⟩
    rw [eval_perform, hmade]
  · refine Or.inr ⟨(handle u env s
      (.createExclusive (lockPath sha call.modelId call.revision))).2, ?_, hnone, ?_, ?_⟩
    · rw [Locks, eval_perform, hmade]
    · rw [hmade]
      change t.node _ = _
      rw [put_node hput, Function.update_self]
    · intro p hp
      rw [hmade]
      exact put_elsewhere hput hp

theorem mkdtemp_cases (u : ι) (env : TreeEnv) (start : String) (s : TreeHost ι) :
    (∃ e, eval (handle u env) (mkdtemp [".staging"] start : Weight Path) s =
      (.error e, s.next)) ∨
    ∃ name s', eval (handle u env) (mkdtemp [".staging"] start : Weight Path) s =
        (.ok [".staging", name], s') ∧ s.tree.node [".staging"] = some .dir ∧
      s.tree.node [".staging", name] = none ∧
      ∀ p, p ≠ [".staging", name] → s'.tree.node p = s.tree.node p := by
  rcases made_cases env s [".staging"] start .dir with ⟨e, hmade⟩ | ⟨t, hnone, hput, hmade⟩
  · refine Or.inl ⟨.python e, ?_⟩
    have hrun : eval (handle u env) (perform (.mkdtemp [".staging"] start) : Weight (Resp _)) s =
        (.ok (.error e : Except PyError Path), s.next) :=
      congrArg (fun pair => (Except.ok pair.1, pair.2)) hmade
    exact (eval_then hrun).trans rfl
  · refine Or.inr ⟨start ++ env.tempName s.tick, s.become t, ?_, put_parent hput, hnone,
      fun p hp => put_elsewhere hput hp⟩
    have hrun : eval (handle u env) (perform (.mkdtemp [".staging"] start) : Weight (Resp _)) s =
        (.ok (.ok [".staging", start ++ env.tempName s.tick] : Except PyError Path),
          s.become t) :=
      congrArg (fun pair => (Except.ok pair.1, pair.2)) hmade
    exact (eval_then hrun).trans rfl

theorem eval_mkdtemp (hquiet : ∀ tick, env.fault tick = false) {start : String} {s : TreeHost ι}
    (hdir : s.tree.node [".staging"] = some .dir)
    (hfree : s.tree.node [".staging", start ++ env.tempName s.tick] = none)
    (hproper : Proper (start ++ env.tempName s.tick)) :
    ∃ s', eval (handle u env) (mkdtemp [".staging"] start : Weight Path) s =
      (.ok [".staging", start ++ env.tempName s.tick], s') := by
  obtain ⟨t, hput⟩ := exists_put [".staging"] _ .dir hdir (by simp [hfree]) hproper
  have hmade : handle u env s (.mkdtemp [".staging"] start) =
      ((.ok [".staging", start ++ env.tempName s.tick], s.become t) :
        Except PyError Path × TreeHost ι) := by
    have hput' : s.tree.put [".staging", start ++ env.tempName s.tick] .dir = some t := hput
    simp only [handle, made, hquiet, List.cons_append, List.nil_append, hfree, hput']
    rfl
  have hrun : eval (handle u env) (perform (.mkdtemp [".staging"] start) : Weight (Resp _)) s =
      (.ok (.ok [".staging", start ++ env.tempName s.tick] : Except PyError Path), s.become t) :=
    congrArg (fun pair => (Except.ok pair.1, pair.2)) hmade
  exact ⟨s.become t, (eval_then hrun).trans rfl⟩

/-- The staging directory is made where nothing fails and its name is free. -/
theorem staging_made (hquiet : ∀ tick, env.fault tick = false) {s : TreeHost ι}
    (hdir : s.tree.node [".staging"] = some .dir)
    (hfree : ∀ tick, s.tree.node [".staging", stagingStart sha call ++ env.tempName tick] = none)
    (hproper : ∀ tick, Proper (stagingStart sha call ++ env.tempName tick)) :
    ¬ StagingFails sha call u env s := by
  rintro ⟨s₁, e, s₂, hlocks, hfails⟩
  have hkept : ∀ p, p ≠ lockPath sha call.modelId call.revision →
      s₁.tree.node p = s.tree.node p := by
    rcases locks_cases sha call u env s with ⟨e', hrefused⟩ | ⟨s₁', hlocks', -, -, hkept⟩
    · cases Except.ok.inj (congrArg (fun pair => pair.1) (hrefused.symm.trans hlocks))
    · obtain rfl : s₁' = s₁ := congrArg (fun pair => pair.2) (hlocks'.symm.trans hlocks)
      exact hkept
  have hne : ∀ rest, ".staging" :: rest ≠ lockPath sha call.modelId call.revision :=
    fun rest h => absurd (List.cons.inj h).1 (by decide)
  obtain ⟨s', hmade⟩ := eval_mkdtemp (u := u) hquiet (s := s₁)
    ((hkept _ (hne _)).trans hdir) ((hkept _ (hne _)).trans (hfree s₁.tick)) (hproper s₁.tick)
  cases congrArg (fun pair => pair.1) (hmade.symm.trans hfails)

/-- A lock file that is there refuses the slot to everyone. -/
theorem eval_slot_refused {α : Type} (hquiet : ∀ tick, env.fault tick = false)
    {modelId revision : String} {s : TreeHost ι}
    (h : s.tree.node (lockPath sha modelId revision) ≠ none) (work : Path → Weight α) :
    eval (handle u env) (downloadSlot sha modelId revision work) s =
      (.error (.vaultError "this model revision is already being downloaded"), s.next) := by
  have hrefused : eval (handle u env)
      (perform (.createExclusive (lockPath sha modelId revision)) : Weight (Resp _)) s =
        (.ok (.error (.fileExists "") : Except PyError Unit), s.next) := by
    simp only [perform, eval, handle, hquiet, if_pos h]
    rfl
  unfold downloadSlot
  exact (eval_then hrefused).trans rfl

/-- Only a lock file that is there refuses the slot as already being downloaded. -/
theorem lock_of_refused {modelId revision message : String} {s s' : TreeHost ι}
    (h : eval (handle u env)
      (perform (.createExclusive (lockPath sha modelId revision)) : Weight (Resp _)) s =
        (.ok (.error (.fileExists message) : Except PyError Unit), s')) :
    s.tree.node (lockPath sha modelId revision) ≠ none := by
  intro hnone
  have hanswer : (handle u env s (.createExclusive (lockPath sha modelId revision))).1 =
      (.error (.fileExists message) : Except PyError Unit) :=
    Except.ok.inj (congrArg Prod.fst ((eval_perform _ s).symm.trans h))
  dsimp only [handle] at hanswer
  rw [if_neg (not_not_intro hnone)] at hanswer
  split at hanswer
  · cases hanswer
  · split at hanswer
    · cases hanswer
    · cases hanswer

/-- After a clean failure no later attempt is refused that finds nobody in the slot before. -/
theorem retried_of_clean {s s' later : TreeHost ι} {message : String} (h : Clean sha call s s')
    (hfree : s.tree.node (lockPath sha call.modelId call.revision) = none) :
    eval (handle u env)
      (perform (.createExclusive (lockPath sha call.modelId call.revision)) : Weight (Resp _)) s' ≠
        (.ok (.error (.fileExists message) : Except PyError Unit), later) :=
  fun hrefused => lock_of_refused sha hrefused (h.lock.trans hfree)

/-- After the cleanup the staging directory and the lock file are gone. -/
theorem eval_leave (name : String) {s : TreeHost ι} (hquiet : QuietFrom env s.tick)
    (hlock : s.tree.node (lockPath sha call.modelId call.revision) = some (.file [])) :
    ∃ s', eval (handle u env) (do
        removeTree [".staging", name]
        unlinkMissing (lockPath sha call.modelId call.revision) : Weight Unit) s = (.ok (), s') ∧
      s'.tree.node (lockPath sha call.modelId call.revision) = none ∧
      (∀ rest, s'.tree.node ([".staging", name] ++ rest) = none) ∧
      ∀ p, ¬ [".staging", name] <+: p → p ≠ lockPath sha call.modelId call.revision →
        s'.tree.node p = s.tree.node p := by
  have hapart : ∀ rest, [".staging", name] ++ rest ≠ lockPath sha call.modelId call.revision := by
    intro rest heq
    exact absurd (List.cons.inj heq).1 (by decide)
  have hnone : ∀ tick, (quietly env).fault tick = false := fun _ => rfl
  obtain ⟨s₁, hremove, hempty, helsewhere⟩ := eval_removeTree (ε := WeightError) (u := u) hnone
    (by simp : ([".staging", name] : Path) ≠ []) s
  have hlock₁ : s₁.tree.node (lockPath sha call.modelId call.revision) = some (.file []) := by
    rw [helsewhere, hlock]
    rintro ⟨rest, hrest⟩
    exact hapart rest hrest
  obtain ⟨s₂, hunlink, hgone, hkept⟩ := eval_unlinkMissing (ε := WeightError) (u := u) hnone
    (by simp [lockPath]) hlock₁
  refine ⟨s₂, ?_, hgone, fun rest => ?_, fun p hp hne => ?_⟩
  · rw [eval_quietly _ s hquiet le_rfl]
    exact (eval_then hremove).trans hunlink
  · rw [hkept _ (hapart rest), hempty]
  · rw [hkept p hne, helsewhere p hp]

variable {sha vault call}

omit [DecidableEq ι] in
/-- What the run has changed before it raises is removed again. -/
theorem clean_of_leave {name : String} {s s₁ s₂ s₃ s' : TreeHost ι}
    (hnone : s.tree.node (lockPath sha call.modelId call.revision) = none)
    (hmade : ∀ p, p ≠ lockPath sha call.modelId call.revision → s₁.tree.node p = s.tree.node p)
    (hfresh : s₁.tree.node [".staging", name] = none)
    (hstaging : ∀ p, p ≠ [".staging", name] → s₂.tree.node p = s₁.tree.node p)
    (hbody : Outside (Area [".staging", name]) s₂ s₃)
    (hgone : s'.tree.node (lockPath sha call.modelId call.revision) = none)
    (hempty : ∀ rest, s'.tree.node ([".staging", name] ++ rest) = none)
    (hkept : ∀ p, ¬ [".staging", name] <+: p → p ≠ lockPath sha call.modelId call.revision →
      s'.tree.node p = s₃.tree.node p) : Clean sha call s s' := by
  have helsewhere : ∀ p, ¬ Area [".staging", name] p →
      p ≠ lockPath sha call.modelId call.revision → s'.tree.node p = s.tree.node p := by
    intro p hp hlock
    have hnot : ¬ [".staging", name] <+: p := fun hle => hp (Or.inl hle)
    rw [hkept p hnot hlock, hbody p hp, hstaging, hmade p hlock]
    rintro rfl
    exact hnot List.prefix_rfl
  have hmodels : ∀ target, IsSnapshot target → ∃ rest, target.dropLast = "models" :: rest := by
    intro target htarget
    obtain ⟨organization, model, revision, rfl⟩ := htarget.cases
    exact ⟨_, rfl⟩
  refine ⟨by rw [hgone, hnone], fun other rest => ?_, fun target htarget hthere rest => ?_⟩
  · by_cases hother : other = name
    · subst hother
      have hbelow := s₁.tree.none_of_prefix [".staging", other] rest hfresh
      have hlock : [".staging", other] ++ rest ≠ lockPath sha call.modelId call.revision :=
        fun heq => absurd (List.cons.inj heq).1 (by decide)
      have hbefore := hmade _ hlock
      rw [hbelow] at hbefore
      exact (hempty rest).trans hbefore
    · apply helsewhere
      · rintro (hle | hle | ⟨target, htarget, hle⟩)
        · exact hother (List.cons_prefix_cons.mp (List.cons_prefix_cons.mp hle).2).1.symm
        · exact hother (List.cons_prefix_cons.mp (List.cons_prefix_cons.mp hle).2).1
        · obtain ⟨more, hmore⟩ := hmodels target htarget
          rw [hmore] at hle
          exact absurd (List.cons_prefix_cons.mp hle).1 (by decide)
      · exact fun heq => absurd (List.cons.inj heq).1 (by decide)
  · apply helsewhere
    · obtain ⟨organization, model, revision, rfl⟩ := htarget.cases
      rintro (hle | hle | ⟨target', htarget', hle⟩)
      · exact absurd (List.cons_prefix_cons.mp hle).1 (by decide)
      · exact absurd (List.cons_prefix_cons.mp hle).1 (by decide)
      · obtain ⟨organization', model', revision', rfl⟩ := htarget'.cases
        have hlength : (["models", organization, model, revision] ++ rest).length ≤ 3 :=
          hle.length_le
        rw [List.length_append] at hlength
        simp only [List.length_cons, List.length_nil] at hlength
        omega
    · intro heq
      exact IsLock.not_below ⟨_, rfl⟩ htarget rest heq.symm

theorem lock_not_wide (name : String) :
    ¬ Wide [".staging", name] (lockPath sha call.modelId call.revision) := by
  rintro ((hle | hle | ⟨target, htarget, hle⟩) | ⟨target, htarget, hle⟩)
  · exact absurd (List.cons_prefix_cons.mp hle).1 (by decide)
  · exact absurd (List.cons_prefix_cons.mp hle).1 (by decide)
  · obtain ⟨organization, model, revision, rfl⟩ := htarget.cases
    exact absurd (List.cons_prefix_cons.mp hle).1 (by decide)
  · obtain ⟨organization, model, revision, rfl⟩ := htarget.cases
    exact absurd (List.cons_prefix_cons.mp hle).1 (by decide)

/-- A download slot that raises has left nothing behind, unless its staging directory could not
be made. -/
theorem slot_cleaned_iff {s s' : TreeHost ι} {e : WeightError}
    (h : eval (handle u env)
      (downloadSlot sha call.modelId call.revision (body repr sha vault call)) s =
        (.error e, s'))
    (hcleanup : CleanupSucceeds repr sha vault call u env s) :
    Clean sha call s s' ↔ ¬ StagingFails sha call u env s := by
  unfold downloadSlot at h
  rcases locks_cases sha call u env s with ⟨e', hrefused⟩ | ⟨s₁, hlocks, hnone, hlock, hmade⟩
  · have hsame : s'.tree = s.tree := by
      have hrun := (eval_then hrefused).symm.trans h
      split at hrun
      · exact congrArg (fun pair => pair.2.tree) hrun.symm
      · exact congrArg (fun pair => pair.2.tree) hrun.symm
      · rename_i heq
        cases heq
    refine iff_of_true (clean_of_tree sha call hsame) ?_
    rintro ⟨s₁, e₁, s₂, hlocks, -⟩
    have hanswer := congrArg (fun pair => pair.1) (hrefused.symm.trans hlocks)
    cases Except.ok.inj hanswer
  · have hrun := (eval_then hlocks).symm.trans h
    rcases mkdtemp_cases u env (stagingStart sha call) s₁ with
      ⟨e', hfails⟩ | ⟨name, s₂, hstarted, -, hfresh, hstaging⟩
    · have hend := (eval_then_error hfails).symm.trans hrun
      have hsame : s'.tree = s₁.tree := congrArg (fun pair => pair.2.tree) hend.symm
      refine iff_of_false (fun hclean => ?_) (not_not.mpr ⟨s₁, e', _, hlocks, hfails⟩)
      have hleft := hclean.lock
      rw [hsame, hlock, hnone] at hleft
      cases hleft
    · have hend := (eval_then hstarted).symm.trans hrun
      obtain ⟨result, s₃, hbody⟩ : ∃ result s₃, eval (handle u env)
          (body repr sha vault call [".staging", name]) s₂ = (result, s₃) := ⟨_, _, rfl⟩
      have hquiet : QuietFrom env s₃.tick := by
        have hquiet := hcleanup s₁ _ s₂ hlocks hstarted
        rwa [hbody] at hquiet
      obtain ⟨hwide, harea⟩ := body_outside u env [".staging", name] repr sha vault call s₂
      rw [hbody] at hwide harea
      have hlock₃ : s₃.tree.node (lockPath sha call.modelId call.revision) = some (.file []) := by
        rw [hwide _ (lock_not_wide name), hstaging, hlock]
        intro heq
        exact absurd (List.cons.inj heq).1 (by decide)
      obtain ⟨s₄, hleave, hgone, hempty, hkept⟩ := eval_leave (u := u) sha call name hquiet hlock₃
      have hresult := (eval_tryFinally hbody hleave).symm.trans hend
      obtain rfl : s₄ = s' := congrArg (fun pair => pair.2) hresult
      obtain rfl : result = .error e := congrArg (fun pair => pair.1) hresult
      refine iff_of_true (clean_of_leave hnone hmade hfresh hstaging
        (harea e rfl) hgone hempty hkept) ?_
      rintro ⟨s₁', e₁, s₂', hlocks', hfails⟩
      obtain rfl : s₁ = s₁' := congrArg (fun pair => pair.2) (hlocks.symm.trans hlocks')
      rw [hstarted] at hfails
      cases congrArg (fun pair => pair.1) hfails

end Slots

section Mirrors

variable (repr : String → String) (sha : Sha256) (call : MirrorCall)

/-- A call that only reads leaves the tree as it is. -/
theorem eval_same {α : Type} {p : Prog TreeOp Resp α} {s s' : TreeHost ι} {a : α}
    (h : ∀ post : α → TreeHost ι → Prop, (∀ a s', SameTree s s' → post a s') →
      SafeTree u env SameTree (fun _ _ => True) post p s)
    (hrun : eval (handle u env) p s = (a, s')) : s'.tree = s.tree := by
  have hpost : SameTree s (eval (handle u env) p s).2 :=
    @eval_safe _ _ _ _ (handle u env) SameTree (fun _ _ => True) (fun _ _ => True) _
      (fun _ s' => SameTree s s') p s (fun _ _ => trivial) (h _ (fun _ _ hsame => hsame))
  rwa [hrun] at hpost

omit [DecidableEq ι] in
/-- What is verified has what the record of a mirror is made of. -/
theorem mirrorRecord_verified {t : Tree} {target : Path} {manifest : Json F}
    (h : Verified sha t call.modelId call.revision target manifest) :
    ∃ record, mirrorRecord call target manifest = .ok record := by
  obtain ⟨content, found, -, -, -, hcheck⟩ := h
  unfold checkManifest at hcheck
  split at hcheck
  · rename_i members
    split at hcheck
    · cases hcheck
    · rename_i hmatch
      rw [not_or, Bool.not_eq_false, Bool.not_eq_false] at hmatch
      cases htotal : members.lookup "total_bytes" with
      | none =>
        rw [htotal] at hmatch
        exact absurd hmatch.2 (by simp)
      | some total =>
        have hfiles := hmatch.1
        unfold sameRecords at hfiles
        split at hfiles
        · rename_i items hitems
          have htotal' : (Json.obj members).get? "total_bytes" = some total := htotal
          have hitems' : (Json.obj members).get? "files" = some (.list items) := hitems
          rw [mirrorRecord, htotal', hitems']
          exact ⟨_, rfl⟩
        · cases hfiles
  · cases hcheck

/-- The run reaches the download slot with the vault that it has opened. -/
def Entered (u : ι) (env : TreeEnv) (s : TreeHost ι) (vault : WeightVault F) (s₀ : TreeHost ι) :
    Prop :=
  ∃ s₁ s₂ target, eval (handle u env) (openVault (F := F)) s = (.ok vault, s₁) ∧
    eval (handle u env) (requireCapacity repr vault (expectedSize call.siblings)) s₁ =
      (.ok (), s₂) ∧
    snapshotPath call.modelId call.revision = .ok target ∧
    eval (handle u env) (pathExists target : Weight Bool) s₂ = (.ok false, s₀)

theorem same_openVault {s s' : TreeHost ι} {result : Except WeightError (WeightVault F)}
    (h : eval (handle u env) (openVault (F := F)) s = (result, s')) : s'.tree = s.tree := by
  have hstep : ∀ (s₁ : TreeHost ι) op, IsRead op → SameTree s₁ (handle u env s₁ op).2 := by
    intro s₁ op hop
    rw [handle_read s₁ op hop]
    exact refl_of SameTree s₁
  have hsame := eval_only hstep _ s (only_openVault (F := F))
  rwa [h] at hsame

omit [FloatText F] in
theorem same_requireCapacity {s s' : TreeHost ι} {vault : WeightVault F} {expected : ℤ}
    {result : Except WeightError Unit}
    (h : eval (handle u env) (requireCapacity repr vault expected) s = (result, s')) :
    s'.tree = s.tree :=
  eval_same (fun _ hpost => safe_requireCapacity allows_same repr vault expected s
    (fun s' hsame _ => hpost _ s' hsame) (fun _ s' hsame => hpost _ s' hsame)) h

theorem same_pathExists {s s' : TreeHost ι} {path : Path} {result : Except WeightError Bool}
    (h : eval (handle u env) (pathExists path) s = (result, s')) : s'.tree = s.tree :=
  eval_same (fun _ hpost => safe_pathExists allows_same path s
    (fun _ s' h₁ h' => hpost _ s' (trans_of SameTree h₁ h'))
    (fun _ s' hsame _ => hpost _ s' hsame)) h

theorem same_verify {s s' : TreeHost ι} {modelId revision : String}
    {result : Except WeightError (Json F)}
    (h : eval (handle u env) (verify sha modelId revision) s = (result, s')) : s'.tree = s.tree :=
  eval_same (fun _ hpost => safe_verify sha allows_same keeps_same modelId revision s
    (fun _ _ _ s' h₁ h' _ _ => hpost _ s' (trans_of SameTree h₁ h'))
    (fun _ _ s' h₁ h' _ => hpost _ s' (trans_of SameTree h₁ h'))) h

omit [DecidableEq ι] in
theorem clean_congr {s s₀ s' : TreeHost ι} (h : s₀.tree = s.tree) :
    Clean sha call s s' ↔ Clean sha call s₀ s' := by
  constructor
  · rintro ⟨hlock, hstaging, hsnapshots⟩
    exact ⟨h ▸ hlock, h ▸ hstaging, fun target htarget hthere rest => by
      rw [h] at hthere ⊢
      exact hsnapshots target htarget hthere rest⟩
  · rintro ⟨hlock, hstaging, hsnapshots⟩
    exact ⟨h ▸ hlock, h ▸ hstaging, fun target htarget hthere rest => by
      rw [← h] at hthere ⊢
      exact hsnapshots target htarget hthere rest⟩

/-- What is returned from the download slot makes a record. -/
theorem slot_returns {vault : WeightVault F} {s s' : TreeHost ι} {manifest : Json F} {target : Path}
    (htarget : snapshotPath call.modelId call.revision = .ok target)
    (h : eval (handle u env)
      (downloadSlot sha call.modelId call.revision (body repr sha vault call)) s =
        (.ok manifest, s')) : ∃ record, mirrorRecord call target manifest = .ok record := by
  let post : Except WeightError (Json F) → TreeHost ι → Prop := fun result s' =>
    ∀ manifest, result = .ok manifest → Published sha s' call.modelId call.revision manifest
  have hpost := @eval_safe _ _ _ _ (handle u env) (Spared u env) (fun _ _ => True)
    (May F sha u env) _ post _ s (fun _ _ => trivial)
    (safe_slot sha repr call vault s
      (fun manifest s' hpublished other hother => Except.ok.inj hother ▸ hpublished)
      (fun _ _ _ herror => nomatch herror))
  obtain ⟨target', stored, htarget', hverified, hsame⟩ :=
    hpost manifest (congrArg (fun pair => pair.1) h)
  obtain rfl : target = target' := Except.ok.inj (htarget.symm.trans htarget')
  rw [mirrorRecord_same call hsame]
  exact mirrorRecord_verified sha call hverified

theorem same_entered {s s₀ : TreeHost ι} {vault : WeightVault F}
    (h : Entered repr call u env s vault s₀) : s₀.tree = s.tree := by
  obtain ⟨s₁, s₂, target, hopen, hcapacity, -, hexists⟩ := h
  exact (same_pathExists hexists).trans
    ((same_requireCapacity repr hcapacity).trans (same_openVault hopen))

/-- A mirror that raises has left nothing behind, unless the staging directory could not be made
after the lock file had been. -/
theorem mirror_cleaned_iff {s s' : TreeHost ι} {e : WeightError}
    (h : eval (handle u env) (WeightVaults.mirror F repr sha call) s = (.error e, s'))
    (hcleanup : ∀ (vault : WeightVault F) s₀, Entered repr call u env s vault s₀ →
      CleanupSucceeds repr sha vault call u env s₀) :
    Clean sha call s s' ↔
      ∀ (vault : WeightVault F) s₀, Entered repr call u env s vault s₀ →
        ¬ StagingFails sha call u env s₀ := by
  unfold WeightVaults.mirror at h
  rcases eval_then_raises h with hopen | ⟨vault, s₁, hopen, h⟩
  · refine iff_of_true (clean_of_tree sha call (same_openVault hopen)) ?_
    rintro vault s₀ ⟨s₁, s₂, target, hopened, -⟩
    cases congrArg (fun pair => pair.1) (hopen.symm.trans hopened)
  have hsame₁ := same_openVault hopen
  have hvault : ∀ (vault' : WeightVault F) s₀, Entered repr call u env s vault' s₀ →
      vault' = vault ∧ ∃ s₂ target,
        eval (handle u env) (requireCapacity repr vault (expectedSize call.siblings)) s₁ =
          (.ok (), s₂) ∧ snapshotPath call.modelId call.revision = .ok target ∧
        eval (handle u env) (pathExists target : Weight Bool) s₂ = (.ok false, s₀) := by
    rintro vault' s₀ ⟨s₁', s₂, target, hopened, hrest⟩
    have hpair := hopen.symm.trans hopened
    obtain rfl : vault = vault' := Except.ok.inj (congrArg (fun pair => pair.1) hpair)
    obtain rfl : s₁ = s₁' := congrArg (fun pair => pair.2) hpair
    exact ⟨rfl, s₂, target, hrest⟩
  rcases eval_then_raises h with hcapacity | ⟨⟨⟩, s₂, hcapacity, h⟩
  · refine iff_of_true (clean_of_tree sha call
      ((same_requireCapacity repr hcapacity).trans hsame₁)) ?_
    rintro vault' s₀ hentered
    obtain ⟨-, s₂, target, haccepted, -⟩ := hvault vault' s₀ hentered
    cases congrArg (fun pair => pair.1) (hcapacity.symm.trans haccepted)
  have hsame₂ := (same_requireCapacity repr hcapacity).trans hsame₁
  rcases eval_then_raises h with hpath | ⟨target, s₃, hpath, h⟩
  · refine iff_of_true (clean_of_tree sha call
      ((congrArg (fun pair => pair.2.tree) hpath.symm).trans hsame₂)) ?_
    rintro vault' s₀ hentered
    obtain ⟨-, s₂', target, haccepted, htarget, -⟩ := hvault vault' s₀ hentered
    rw [htarget] at hpath
    cases congrArg (fun pair => pair.1) hpath
  obtain rfl : s₂ = s₃ := congrArg (fun pair => pair.2) hpath
  have htarget : snapshotPath call.modelId call.revision = .ok target :=
    congrArg (fun pair => pair.1) hpath
  rcases eval_then_raises h with hexists | ⟨present, s₃, hexists, h⟩
  · refine iff_of_true (clean_of_tree sha call ((same_pathExists hexists).trans hsame₂)) ?_
    rintro vault' s₀ hentered
    obtain ⟨-, s₂', target', haccepted, htarget', habsent⟩ := hvault vault' s₀ hentered
    obtain rfl : s₂ = s₂' := congrArg (fun pair => pair.2) (hcapacity.symm.trans haccepted)
    obtain rfl : target = target' := Except.ok.inj (htarget.symm.trans htarget')
    cases congrArg (fun pair => pair.1) (hexists.symm.trans habsent)
  have hsame₃ := (same_pathExists hexists).trans hsame₂
  have hentry : ∀ (vault' : WeightVault F) s₀, Entered repr call u env s vault' s₀ →
      vault' = vault ∧ s₀ = s₃ ∧ present = false := by
    intro vault' s₀ hentered
    obtain ⟨rfl, s₂', target', haccepted, htarget', habsent⟩ := hvault vault' s₀ hentered
    obtain rfl : s₂ = s₂' := congrArg (fun pair => pair.2) (hcapacity.symm.trans haccepted)
    obtain rfl : target = target' := Except.ok.inj (htarget.symm.trans htarget')
    have hpair := hexists.symm.trans habsent
    exact ⟨rfl, (congrArg (fun pair => pair.2) hpair).symm,
      Except.ok.inj (congrArg (fun pair => pair.1) hpair)⟩
  cases present with
  | true =>
    have hsame : s'.tree = s.tree := by
      rcases eval_then_raises h with hverify | ⟨manifest, s₄, hverify, h⟩
      · exact (same_verify sha hverify).trans hsame₃
      · exact (congrArg (fun pair => pair.2.tree) h.symm).trans
          ((same_verify sha hverify).trans hsame₃)
    refine iff_of_true (clean_of_tree sha call hsame) (fun vault' s₀ hentered => ?_)
    cases (hentry vault' s₀ hentered).2.2
  | false =>
    have hentered : Entered repr call u env s vault s₃ :=
      ⟨s₁, s₂, target, hopen, hcapacity, htarget, hexists⟩
    have hslot : eval (handle u env)
        (downloadSlot sha call.modelId call.revision (body repr sha vault call)) s₃ =
          (.error e, s') := by
      rcases eval_then_raises h with hslot | ⟨manifest, s₄, hslot, h⟩
      · exact hslot
      · obtain ⟨record, hrecord⟩ := slot_returns repr sha call htarget hslot
        have hresult : mirrorRecord call target manifest = .error e :=
          congrArg (fun pair => pair.1) h
        rw [hrecord] at hresult
        cases hresult
    rw [clean_congr sha call hsame₃, slot_cleaned_iff repr hslot (hcleanup vault s₃ hentered)]
    constructor
    · intro hnot vault' s₀ hother
      obtain ⟨-, rfl, -⟩ := hentry vault' s₀ hother
      exact hnot
    · exact fun hall => hall vault s₃ hentered

/-- A staging directory that cannot be made is an exception of the mirror, and the lock file is
still there after it. -/
theorem raises_of_stagingFails {vault : WeightVault F} {s s₀ : TreeHost ι}
    (hentered : Entered repr call u env s vault s₀) (hfails : StagingFails sha call u env s₀) :
    ∃ e s', eval (handle u env) (WeightVaults.mirror F repr sha call) s = (.error e, s') ∧
      s'.tree.node (lockPath sha call.modelId call.revision) = some (.file []) := by
  obtain ⟨s₁, s₂, target, hopen, hcapacity, htarget, hexists⟩ := hentered
  obtain ⟨s₃, e, s₄, hlocks, hstaging⟩ := hfails
  have hlock : s₄.tree.node (lockPath sha call.modelId call.revision) = some (.file []) := by
    rcases locks_cases sha call u env s₀ with ⟨e', hrefused⟩ | ⟨s₃', hlocks', -, hlock, -⟩
    · have hanswer := congrArg (fun pair => pair.1) (hrefused.symm.trans hlocks)
      cases Except.ok.inj hanswer
    · obtain rfl : s₃' = s₃ := congrArg (fun pair => pair.2) (hlocks'.symm.trans hlocks)
      rcases mkdtemp_cases u env (stagingStart sha call) s₃' with
        ⟨e', hfails⟩ | ⟨name, s₅, hmade, -⟩
      · obtain rfl : s₃'.next = s₄ := congrArg (fun pair => pair.2) (hfails.symm.trans hstaging)
        exact hlock
      · cases congrArg (fun pair => pair.1) (hmade.symm.trans hstaging)
  have hpath : eval (handle u env) (fromExcept (snapshotPath call.modelId call.revision) :
      Weight Path) s₂ = (.ok target, s₂) := by
    rw [htarget]
    rfl
  have hslot : eval (handle u env)
      (downloadSlot sha call.modelId call.revision (body repr sha vault call)) s₀ =
        (.error e, s₄) := by
    unfold downloadSlot
    exact (eval_then hlocks).trans (eval_then_error hstaging)
  refine ⟨e, s₄, ?_, hlock⟩
  unfold WeightVaults.mirror
  rw [eval_then hopen, eval_then hcapacity, eval_then hpath, eval_then hexists]
  exact eval_then_error hslot

end Mirrors

section Samples

/-- The nodes of a vault whose directory for staging has been removed. -/
def sampleNodes : List (Path × Node) :=
  [([], .dir), (["models"], .dir), ([".locks"], .dir),
    ([MARKER], .file (encode (dumps (indented 2) (.obj sampleConfig) ++ "\n")))]

theorem sampleNodes_placed : CapacityChecks.placed sampleNodes = true := by decide

def sampleTree : Tree := CapacityChecks.treeOf sampleNodes sampleNodes_placed

def sampleHost : TreeHost Unit := ⟨sampleTree, fun _ => [], 0⟩

def sampleCall : MirrorCall := ⟨"o/n", "r", "mit", [⟨some 1, none⟩], [], none⟩

theorem sample_opens : Opens sampleTree ⟨sampleConfig⟩ := by
  obtain ⟨content, text, hcontent, htext, hloads, hversion⟩ := RepeatedMirrors.sample_opens
  obtain rfl := Option.some.inj hcontent
  exact ⟨_, text, rfl, htext, hloads, hversion⟩

theorem sample_accepts : Accepts id (⟨sampleConfig⟩ : WeightVault WholeFloat)
    (usedBytes sampleTree) 1 (expectedSize sampleCall.siblings) := by
  have hexpected : expectedSize sampleCall.siblings = 1 := rfl
  rw [hexpected]
  exact ⟨by decide, by decide, ⟨0, rfl, Or.inl rfl⟩, 0, rfl, by decide⟩

theorem sample_lock_proper :
    Proper (slotKey Sha256.sample sampleCall.modelId sampleCall.revision ++ ".lock") := by
  decide

def sampleEnv : TreeEnv := RepeatedMirrors.sampleEnv 1

theorem sampleEnv_quiet : ∀ tick, sampleEnv.fault tick = false := fun _ => rfl

theorem sample_entered : ∃ n, Entered id sampleCall () sampleEnv sampleHost
    (⟨sampleConfig⟩ : WeightVault WholeFloat) (later sampleHost n) := by
  have hopen := eval_openVault (u := ()) sampleEnv_quiet (s := sampleHost) sample_opens
  obtain ⟨n, result, hcheck, hiff⟩ := eval_requireCapacity sampleEnv_quiet (later sampleHost 2) id
    (⟨sampleConfig⟩ : WeightVault WholeFloat) (expectedSize sampleCall.siblings) (u := ())
  rw [hiff.mpr sample_accepts, later_later] at hcheck
  have hexists := eval_pathExists (ε := WeightError) (u := ()) sampleEnv_quiet
    ["models", "o", "n", "r"] (later sampleHost (2 + n))
  rw [later_later] at hexists
  exact ⟨2 + n + 1, later sampleHost 2, later sampleHost (2 + n), ["models", "o", "n", "r"], hopen,
    hcheck, by decide, hexists⟩

theorem sample_locks (n : ℕ) : ∃ s₁,
    Locks Sha256.sample sampleCall () sampleEnv (later sampleHost n) s₁ ∧
      s₁.tree.node [".staging"] = none := by
  let lock := lockPath Sha256.sample sampleCall.modelId sampleCall.revision
  have hnone : sampleTree.node lock = none := by decide
  obtain ⟨t, hput⟩ : ∃ t, sampleTree.put lock (.file []) = some t :=
    exists_put [".locks"] _ (.file []) (by decide) (by decide) sample_lock_proper
  have hstaging : sampleTree.node [".staging"] = none := by decide
  refine ⟨(handle () sampleEnv (later sampleHost n) (.createExclusive lock)).2, ?_, ?_⟩
  · have hmade : (handle () sampleEnv (later sampleHost n) (.createExclusive lock)).1 =
        (.ok () : Except PyError Unit) := by
      have hnone' : (later sampleHost n).tree.node lock = none := hnone
      have hput' : (later sampleHost n).tree.put lock (.file []) = some t := hput
      simp only [handle, sampleEnv_quiet, hnone', hput']
      rfl
    rw [Locks, eval_perform]
    exact congrArg (fun answer => (Except.ok answer, _)) hmade
  · rw [handle_node]
    · exact hstaging
    · exact fun htouch => absurd (List.cons.inj htouch).1 (by decide)

theorem sample_stagingFails (n : ℕ) :
    StagingFails Sha256.sample sampleCall () sampleEnv (later sampleHost n) := by
  obtain ⟨s₁, hlocks, hnone⟩ := sample_locks n
  rcases mkdtemp_cases () sampleEnv (stagingStart Sha256.sample sampleCall) s₁ with
    ⟨e, hfails⟩ | ⟨name, s₂, -, hdir, -⟩
  · exact ⟨s₁, e, _, hlocks, hfails⟩
  · rw [hnone] at hdir
    cases hdir

theorem sample_cleanup (vault : WeightVault WholeFloat) (s₀ : TreeHost Unit) :
    CleanupSucceeds id Sha256.sample vault sampleCall () sampleEnv s₀ :=
  fun _ _ _ _ _ tick _ => sampleEnv_quiet tick

/-- A vault whose directory for staging is there. -/
def stagedNodes : List (Path × Node) := ([".staging"], .dir) :: sampleNodes

theorem stagedNodes_placed : CapacityChecks.placed stagedNodes = true := by decide

def stagedHost : TreeHost Unit :=
  ⟨CapacityChecks.treeOf stagedNodes stagedNodes_placed, fun _ => [], 0⟩

/-- The download makes a file and raises an exception. -/
def failingCall : MirrorCall :=
  { sampleCall with download := [(["w"], some (.file [7]))], failure := some .osError }

theorem staged_raises : (eval (handle () sampleEnv)
    (WeightVaults.mirror WholeFloat id Sha256.sample failingCall) stagedHost).1.toOption.isNone =
      true := by
  decide +kernel

theorem staged_made {vault : WeightVault WholeFloat} {s₀ : TreeHost Unit}
    (h : Entered id failingCall () sampleEnv stagedHost vault s₀) :
    ¬ StagingFails Sha256.sample failingCall () sampleEnv s₀ := by
  have hsame := same_entered id failingCall h
  apply staging_made Sha256.sample failingCall sampleEnv_quiet
  · rw [hsame]
    decide
  · intro tick
    rw [hsame]
    exact (by decide : stagedHost.tree.node
      [".staging", stagingStart Sha256.sample failingCall ++ "x"] = none)
  · exact fun tick => (by decide : Proper (stagingStart Sha256.sample failingCall ++ "x"))

/-- The directory for staging is missing in the first vault; in the second one the download
raises. -/
theorem mirror_cleaned_iff_sample :
    (∃ e s', ¬ Clean Sha256.sample sampleCall sampleHost s' ∧
      eval (handle () sampleEnv) (WeightVaults.mirror WholeFloat id Sha256.sample sampleCall)
        sampleHost = (.error e, s')) ∧
    ∃ e s', Clean Sha256.sample failingCall stagedHost s' ∧
      eval (handle () sampleEnv) (WeightVaults.mirror WholeFloat id Sha256.sample failingCall)
        stagedHost = (.error e, s') := by
  constructor
  · obtain ⟨n, hentered⟩ := sample_entered
    have hfails := sample_stagingFails n
    obtain ⟨e, s', hraises, -⟩ :=
      raises_of_stagingFails id Sha256.sample sampleCall hentered hfails
    refine ⟨e, s', fun hclean => ?_, hraises⟩
    have hiff := mirror_cleaned_iff id Sha256.sample sampleCall hraises
      (fun vault s₀ _ => sample_cleanup vault s₀)
    exact hiff.mp hclean _ _ hentered hfails
  · have hnone := staged_raises
    cases hresult : eval (handle () sampleEnv)
      (WeightVaults.mirror WholeFloat id Sha256.sample failingCall) stagedHost with
    | mk result s' =>
      rw [hresult] at hnone
      cases result with
      | ok record => cases hnone
      | error e =>
        refine ⟨e, s', ?_, rfl⟩
        have hiff := mirror_cleaned_iff id Sha256.sample failingCall hresult
          (fun vault s₀ _ => fun _ _ _ _ _ tick _ => sampleEnv_quiet tick)
        exact hiff.mpr fun vault s₀ hentered => staged_made hentered

/-- No run held the lock of the revision before the mirror that raises, and the next attempt is
refused as already being downloaded. -/
theorem refused_after_failure : ∃ e s',
    sampleHost.tree.node (lockPath Sha256.sample "o/n" "r") = none ∧
    eval (handle () sampleEnv) (WeightVaults.mirror WholeFloat id Sha256.sample sampleCall)
      sampleHost = (.error e, s') ∧
    eval (handle () sampleEnv) (downloadSlot Sha256.sample "o/n" "r"
      (body id Sha256.sample (⟨sampleConfig⟩ : WeightVault WholeFloat) sampleCall)) s' =
        (.error (.vaultError "this model revision is already being downloaded"), s'.next) := by
  obtain ⟨n, hentered⟩ := sample_entered
  obtain ⟨e, s', hraises, hlock⟩ := raises_of_stagingFails id Sha256.sample sampleCall hentered
    (sample_stagingFails n)
  refine ⟨e, s', by decide, hraises, eval_slot_refused Sha256.sample sampleEnv_quiet ?_ _⟩
  have hthere : s'.tree.node (lockPath Sha256.sample "o/n" "r") = some (.file []) := hlock
  rw [hthere]
  exact Option.some_ne_none _

end Samples

end Decillion.FailedMirrors
