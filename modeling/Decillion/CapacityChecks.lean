import Decillion.WeightEvaluations

/-!
The two capacity checks of a mirror. The first one is made before the download, the second
one by `commit_snapshot` when the bytes are on the disk already. What is used counts the files
below `models` only, so bytes that have left the free space are asked for once more.
-/
namespace Decillion.CapacityChecks

open ByteText JsonValues JsonText JsonStrings Primitives Programs PyErrors PyValues Trees TreeSystem
  WeightVaults WeightRules WeightEvaluations Evaluations

variable {ι F : Type} [DecidableEq ι] {u : ι} {env : TreeEnv}

/-- A file that is renamed within its directory leaves its old name. -/
theorem move_file_elsewhere {t t' : Tree} {dir path : Path} {a b : String} {content : Bytes}
    (hab : a ≠ b) (hfile : t.node (dir ++ [a]) = some (.file content))
    (h : t.move (dir ++ [a]) (dir ++ [b]) = some t') (hpath : path ≠ dir ++ [b]) :
    t'.node path = if path = dir ++ [a] then none else t.node path := by
  by_cases hprefix : dir <+: path
  · obtain ⟨rest, rfl⟩ := hprefix
    have hview := congrFun (move_file hab hfile h) rest
    have hb : rest ≠ [b] := by
      rintro rfl
      exact hpath rfl
    rw [Function.update_of_ne hb] at hview
    by_cases ha : rest = [a]
    · subst ha
      rw [Function.update_self] at hview
      rw [if_pos rfl]
      exact hview
    · rw [Function.update_of_ne ha] at hview
      rw [if_neg (by simpa using ha)]
      exact hview
  · have hnot : ∀ name, ¬ dir ++ [name] <+: path := fun name hle =>
      hprefix ((List.prefix_append _ _).trans hle)
    rw [move_node h, movedNode_of_not (hnot b) (hnot a), if_neg]
    rintro rfl
    exact hprefix (List.prefix_append _ _)

variable [FloatText F]

section Writing

variable (hquiet : ∀ tick, env.fault tick = false)
include hquiet

/-- Making a directory that is there changes no node. -/
theorem eval_makeDirs_present {path : Path} {s : TreeHost ι} (h : s.tree.node path = some .dir) :
    ∃ s', eval (handle u env) (makeDirs path : Weight Unit) s = (.ok (), s') ∧
      s'.tree.node = s.tree.node := by
  have hdirs : ∀ p, p <+: path → s.tree.node p = some .dir := by
    rintro p ⟨rest, rfl⟩
    by_cases hrest : rest = []
    · rwa [hrest, List.append_nil] at h
    · exact s.tree.dir_of_prefix p rest hrest (by rw [h]; simp)
  obtain ⟨s', hmade, hnode⟩ := eval_makeDirs (ε := WeightError) (u := u) hquiet path
    (hdirs [] List.nil_prefix) (fun p hp => Or.inr (hdirs p hp))
    (s.tree.proper_of_mem path (by rw [h]; simp))
  refine ⟨s', hmade, funext fun p => ?_⟩
  rw [hnode]
  split
  · rename_i hp
    exact (hdirs p hp).symm
  · rfl

/-- A text that is stored in a new file changes nothing else. -/
theorem eval_atomicJson {dir : Path} {s : TreeHost ι} (value : Json F)
    (hdir : s.tree.node dir = some .dir)
    (habsent : s.tree.node (dir ++ [MANIFEST]) = none)
    (hfresh : ∀ tick, s.tree.node (dir ++ [".json-" ++ env.tempName tick]) = none)
    (hnames : ∀ tick, '/' ∉ (env.tempName tick).toList) :
    ∃ s', eval (handle u env) (atomicJson (dir ++ [MANIFEST]) value) s = (.ok (), s') ∧
      ∀ path, path ≠ dir ++ [MANIFEST] → s'.tree.node path = s.tree.node path := by
  obtain ⟨s₁, hmade, hnode₁⟩ := eval_makeDirs_present (u := u) hquiet hdir
  let temporary := ".json-" ++ env.tempName s₁.tick
  have htemporary : Proper temporary := temporary_proper (hnames _)
  have hother : temporary ≠ MANIFEST := temporary_ne_manifest _
  have hnone : s₁.tree.node (dir ++ [temporary]) = none := by
    rw [hnode₁]
    exact hfresh _
  obtain ⟨t₂, hput₂⟩ :=
    exists_put (t := s₁.tree) dir temporary (.file []) (by rw [hnode₁]; exact hdir)
    (by rw [hnone]; simp) htemporary
  have hnode₂ := put_node hput₂
  obtain ⟨t₃, hput₃⟩ := exists_put (t := t₂) dir temporary
    (.file (manifestText value))
    (by rw [hnode₂, Function.update_of_ne (by simp), hnode₁]; exact hdir)
    (by rw [hnode₂, Function.update_self]; simp) htemporary
  have hnode₃ := put_node hput₃
  have hfile : t₃.node (dir ++ [temporary]) = some (.file (manifestText value)) := by
    rw [hnode₃, Function.update_self]
  have habsent₃ : t₃.node (dir ++ [MANIFEST]) = none := by
    rw [hnode₃, Function.update_of_ne (by simpa using hother.symm), hnode₂,
      Function.update_of_ne (by simpa using hother.symm), hnode₁, habsent]
  obtain ⟨t₅, hmove⟩ := exists_move (t := t₃) (dir ++ [temporary]) dir MANIFEST
    (by simpa using hother)
    (by rw [hnode₃, Function.update_of_ne (by simp), hnode₂, Function.update_of_ne (by simp),
      hnode₁]; exact hdir)
    (by rw [Tree.replaceable, hfile, habsent₃]) manifest_proper
  have hnode₅ := fun (path : Path) (hpath : path ≠ dir ++ [MANIFEST]) =>
    move_file_elsewhere hother hfile hmove hpath
  let s₅ := (later ((s₁.become t₂).become t₃) 1).become t₅
  refine ⟨later s₅ 1, ?_, ?_⟩
  · unfold atomicJson
    rw [List.dropLast_concat, eval_then hmade, eval_then (eval_mkstemp hquiet hnone hput₂)]
    apply eval_tryFinally (t := s₅)
    · rw [eval_then (eval_write hquiet (s := s₁.become t₂) hput₃),
        eval_then (eval_chmod hquiet _ _)]
      exact eval_replace hquiet (s := later ((s₁.become t₂).become t₃) 1) hmove
    · rw [eval_then (eval_osPathExists hquiet _ _)]
      have hgone : nodeExists s₅.tree (dir ++ [temporary]) = false := by
        have hnone₅ := hnode₅ (dir ++ [temporary]) (by simpa using hother)
        rw [if_pos rfl] at hnone₅
        change nodeExists t₅ (dir ++ [temporary]) = false
        rw [nodeExists, hnone₅]
      rw [hgone]
      rfl
  · intro path hpath
    change t₅.node path = _
    rw [hnode₅ path hpath]
    split
    · rename_i heq
      rw [heq]
      exact (hfresh _).symm
    · rename_i hne
      rw [hnode₃, Function.update_of_ne hne, hnode₂, Function.update_of_ne hne, hnode₁]

end Writing

variable (sha : Sha256)

omit [DecidableEq ι] [FloatText F] in
/-- The inventory of names that are no links and no manifests. -/
theorem recordsOf_plain (t : Tree) (dir : Path) (names : List Path)
    (hplain : ∀ rest target, t.node (dir ++ rest) ≠ some (.link target))
    (hunnamed : ∀ rest, isManifest rest = true → t.node (dir ++ rest) = none) :
    ∃ files, recordsOf sha dir (fun rest => t.node (dir ++ rest)) names =
        .ok (files, sizesOf t dir names) ∧
      (files ≠ [] ↔ ∃ rest ∈ names, ∃ content, t.node (dir ++ rest) = some (.file content)) := by
  induction names with
  | nil => exact ⟨[], rfl, by simp⟩
  | cons rest more ih =>
    obtain ⟨files, hfound, hfiles⟩ := ih
    have hsizes : sizesOf t dir (rest :: more) = sizeAt t (dir ++ rest) + sizesOf t dir more := rfl
    rw [recordsOf, hsizes, sizeAt, nodeContent]
    simp only [List.exists_mem_cons_iff]
    rw [← hfiles]
    cases hnode : t.node (dir ++ rest) with
    | none =>
      have hentry : entryOf sha dir (fun rest => t.node (dir ++ rest)) rest = .ok none := by
        rw [entryOf, hnode]
      rw [hentry, ok_bind, hfound]
      exact ⟨files, by simp [addRecord], by simp⟩
    | some node =>
      cases node with
      | link target => exact absurd hnode (hplain rest target)
      | dir =>
        have hentry : entryOf sha dir (fun rest => t.node (dir ++ rest)) rest = .ok none := by
          rw [entryOf, hnode]
        rw [hentry, ok_bind, hfound]
        exact ⟨files, by simp [addRecord, Node.content?], by simp⟩
      | file content =>
        have hmanifest : isManifest rest = false := by
          by_contra htrue
          have hnone := hunnamed rest (by simpa using htrue)
          rw [hnode] at hnone
          simp at hnone
        have hentry : entryOf sha dir (fun rest => t.node (dir ++ rest)) rest =
            .ok (some ⟨asPosix rest, content.length, sha.hexdigest content⟩) := by
          rw [entryOf, hnode]
          simp only [hmanifest]
          rfl
        rw [hentry, ok_bind, hfound]
        exact ⟨_, rfl, by simp⟩

/-- A download of so many bytes has filled the staging directory and changed nothing else. -/
structure Downloaded (s s' : TreeHost ι) (staging : Path) (n : ℕ) : Prop where
  elsewhere : ∀ path, ¬ staging <+: path → s'.tree.node path = s.tree.node path
  directory : s'.tree.node staging = some .dir
  plain : ∀ rest target, s'.tree.node (staging ++ rest) ≠ some (.link target)
  unnamed : ∀ rest, isManifest rest = true → s'.tree.node (staging ++ rest) = none
  total : sizesOf s'.tree staging (s'.tree.below staging) = n

def HasFile (t : Tree) (dir : Path) : Prop :=
  ∃ rest content, t.node (dir ++ rest) = some (.file content)

omit [DecidableEq ι] [FloatText F] in
theorem Downloaded.inventory {s s' : TreeHost ι} {staging : Path} {n : ℕ}
    (h : Downloaded s s' staging n) :
    ∃ files, inventoryOf sha s'.tree staging = .ok (files, n) ∧
      (files ≠ [] ↔ HasFile s'.tree staging) := by
  have hperm : (sortPaths (s'.tree.below staging)).Perm (s'.tree.below staging) :=
    List.perm_insertionSort _ _
  obtain ⟨files, hfound, hfiles⟩ := recordsOf_plain sha s'.tree staging
    (sortPaths (s'.tree.below staging)) h.plain h.unnamed
  have htotal : sizesOf s'.tree staging (sortPaths (s'.tree.below staging)) = n := by
    rw [← h.total]
    exact (hperm.map _).sum_eq
  rw [htotal] at hfound
  refine ⟨files, hfound, hfiles.trans ?_⟩
  constructor
  · rintro ⟨rest, -, content, hnode⟩
    exact ⟨rest, content, hnode⟩
  · rintro ⟨rest, content, hnode⟩
    refine ⟨rest, ?_, content, hnode⟩
    rw [mem_sortPaths, mem_below]
    refine ⟨?_, by rw [hnode]; simp⟩
    rintro rfl
    rw [List.append_nil, h.directory] at hnode
    simp at hnode

theorem safeComponent_ok {value part : String} (h : safeComponent value = .ok part) :
    part = value ∧ Proper part := by
  unfold safeComponent at h
  split at h
  · rename_i hcomponent
    obtain rfl := Except.ok.inj h
    refine ⟨rfl, ?_⟩
    unfold isComponent at hcomponent
    split at hcomponent
    · simp at hcomponent
    · rename_i c rest hlist
      simp only [Bool.and_eq_true, List.all_eq_true] at hcomponent
      obtain ⟨⟨hfirst, -⟩, hrest⟩ := hcomponent
      have hne : ∀ other : String, chars other = [] ∨ (∃ more, chars other = '.' :: more) →
          value ≠ other := by
        rintro other hother rfl
        rw [hlist] at hother
        rcases hother with hother | ⟨more, hother⟩
        · simp at hother
        · obtain ⟨rfl, -⟩ := List.cons.inj hother
          exact absurd hfirst (by decide)
      refine ⟨hne _ (Or.inl rfl), hne _ (Or.inr ⟨_, rfl⟩), hne _ (Or.inr ⟨_, rfl⟩), ?_⟩
      intro hslash
      rw [← chars_eq, hlist, List.mem_cons] at hslash
      rcases hslash with rfl | hslash
      · exact absurd hfirst (by decide)
      · exact absurd (hrest _ hslash) (by decide)
  · simp at h

theorem snapshotPath_cases {modelId revision : String} {target : Path}
    (h : snapshotPath modelId revision = .ok target) :
    ∃ organization name, target = ["models", organization, name, revision] ∧
      ∀ part ∈ target, Proper part := by
  unfold snapshotPath at h
  split at h
  · rename_i first second hsplit
    cases hfirst : safeComponent (String.ofList first) with
    | error e =>
      rw [hfirst] at h
      simp [Bind.bind, Except.bind] at h
    | ok organization =>
      rw [hfirst, ok_bind] at h
      cases hsecond : safeComponent (String.ofList second) with
      | error e =>
        rw [hsecond] at h
        simp [Bind.bind, Except.bind] at h
      | ok name =>
        rw [hsecond, ok_bind] at h
        cases hthird : safeComponent revision with
        | error e =>
          rw [hthird] at h
          simp [Bind.bind, Except.bind] at h
        | ok part =>
          rw [hthird, ok_bind] at h
          obtain rfl := Except.ok.inj h
          obtain ⟨rfl, hproper⟩ := safeComponent_ok hthird
          refine ⟨organization, name, rfl, ?_⟩
          simp only [List.mem_cons, List.not_mem_nil, or_false]
          rintro other (rfl | rfl | rfl | rfl)
          · decide
          · exact (safeComponent_ok hfirst).2
          · exact (safeComponent_ok hsecond).2
          · exact hproper
  · simp at h

/-- What the vault has to have for the snapshot to be published. -/
structure Ready (env : TreeEnv) (s s' : TreeHost ι) (staging target : Path) : Prop where
  absent : s.tree.node target = none
  parents : ∀ p, p <+: target.dropLast → s.tree.node p = none ∨ s.tree.node p = some .dir
  fresh : ∀ tick, s'.tree.node (staging ++ [".json-" ++ env.tempName tick]) = none
  names : ∀ tick, '/' ∉ (env.tempName tick).toList

variable [FloatNumber F] (repr : String → String) (vault : WeightVault F)

/-- The host when `commit_snapshot` checks the capacity. -/
def atCheck (u : ι) (env : TreeEnv) (staging target : Path) (s : TreeHost ι) : TreeHost ι :=
  (eval (handle u env) (inventory sha staging)
    (eval (handle u env) (pathExists target : Weight Bool) s).2).2

/-- The check accepts, and the call returns with every file at its place. -/
def Kept (u : ι) (env : TreeEnv) (staging target : Path) (modelId revision license : String)
    (n : ℕ) (s : TreeHost ι) : Prop :=
  (eval (handle u env) (requireCapacity repr vault n)
      (atCheck sha u env staging target s)).1 = .ok () ∧
    ∃ manifest s', eval (handle u env)
        (commitSnapshot repr sha vault staging modelId revision license) s =
          (.ok manifest, s') ∧
      ∀ rest, rest ≠ [MANIFEST] →
        s'.tree.node (target ++ rest) = s.tree.node (staging ++ rest)

section Checks

variable (hquiet : ∀ tick, env.fault tick = false) {s s' : TreeHost ι} {folder : String}
  {target : Path} {modelId revision : String} {n : ℕ}
include hquiet

theorem atCheck_later (s' : TreeHost ι) (target staging : Path) :
    ∃ k, eval (handle u env) (inventory sha staging) (later s' 1) =
        (inventoryOf sha s'.tree staging, later s' k) ∧
      atCheck sha u env staging target s' = later s' k := by
  obtain ⟨k, hinventory⟩ := eval_inventory hquiet sha (later s' 1) staging (u := u)
  rw [later_later, later_tree] at hinventory
  refine ⟨1 + k, hinventory, ?_⟩
  rw [atCheck, eval_pathExists hquiet, hinventory]

omit [FloatText F] in
/-- The second check accepts when the bytes fit twice. -/
theorem second_check (hdownload : Downloaded s s' [".staging", folder] n)
    (hfree : env.free (atCheck sha u env [".staging", folder] target s').tick + n =
      env.free s.tick)
    (haccepted : (eval (handle u env) (requireCapacity repr vault n) s).1 = .ok ()) :
    (eval (handle u env) (requireCapacity repr vault n)
        (atCheck sha u env [".staging", folder] target s')).1 = .ok () ↔
      ∃ reserve, configInt repr vault "reserve_bytes" = .ok reserve ∧
        2 * n + reserve ≤ env.free s.tick := by
  obtain ⟨k, -, hcheck⟩ := atCheck_later sha hquiet (u := u) s' target
    [".staging", folder]
  rw [hcheck] at hfree ⊢
  obtain ⟨i, first, hfirst, hiff⟩ := eval_requireCapacity hquiet s repr vault n (u := u)
  obtain ⟨j, second, hsecond, hiff'⟩ :=
    eval_requireCapacity hquiet (later s' k) repr vault n (u := u)
  rw [hfirst] at haccepted
  rw [hsecond]
  have hused : usedBytes s'.tree = usedBytes s.tree := by
    apply usedBytes_congr
    intro rest
    apply hdownload.elsewhere
    simp
  rw [later_tree, hused] at hiff'
  obtain ⟨hnonneg, hnamed, hquota, reserve, hreserve, -⟩ := hiff.mp haccepted
  rw [hiff']
  constructor
  · rintro ⟨-, -, -, reserve', hreserve', hfits⟩
    exact ⟨reserve', hreserve', by omega⟩
  · rintro ⟨reserve', hreserve', hfits⟩
    exact ⟨hnonneg, hnamed, hquota, reserve', hreserve', by omega⟩

/-- Once the check has accepted, nothing else stops the publication. -/
theorem published (htarget : snapshotPath modelId revision = .ok target)
    (hdownload : Downloaded s s' [".staging", folder] n)
    (hready : Ready env s s' [".staging", folder] target)
    (hfile : HasFile s'.tree [".staging", folder]) (license : String)
    (hcheck : (eval (handle u env) (requireCapacity repr vault n)
      (atCheck sha u env [".staging", folder] target s')).1 = .ok ()) :
    Kept sha repr vault u env [".staging", folder] target modelId revision license n s' := by
  obtain ⟨organization, name, rfl, hproper⟩ := snapshotPath_cases htarget
  obtain ⟨k, hinventory, hlater⟩ := atCheck_later sha hquiet (u := u) s'
    ["models", organization, name, revision] [".staging", folder]
  obtain ⟨files, hfound, hfiles⟩ := hdownload.inventory sha
  rw [hfound] at hinventory
  obtain ⟨j, result, hresult, -⟩ := eval_requireCapacity hquiet (later s' k) repr vault n (u := u)
  have haccepts := hcheck
  rw [hlater, hresult] at haccepts
  change result = .ok () at haccepts
  rw [haccepts, later_later] at hresult
  refine ⟨hcheck, ?_⟩
  have helsewhere : ∀ rest : Path,
      s'.tree.node ("models" :: rest) = s.tree.node ("models" :: rest) :=
    fun rest => hdownload.elsewhere _ (by simp)
  have hroot : s'.tree.node [] = some .dir :=
    s'.tree.dir_of_prefix [] [".staging", folder] (by simp) (by
      rw [List.nil_append, hdownload.directory]
      simp)
  let manifest : Json F := manifestJson modelId revision license (env.isoClock (s'.tick + (k + j)))
    files n
  obtain ⟨s₁, hwritten, hnode₁⟩ := eval_atomicJson (u := u) hquiet
    (s := later s' (k + j + 1)) manifest hdownload.directory
    (hdownload.unnamed [MANIFEST] (by decide)) hready.fresh hready.names
  have houtside : ∀ p : Path, p ≠ [".staging", folder, MANIFEST] →
      s₁.tree.node p = s'.tree.node p := fun p hp => hnode₁ p hp
  have hmodels : ∀ rest : Path, s₁.tree.node ("models" :: rest) = s.tree.node ("models" :: rest) :=
    fun rest => (houtside _ (by simp)).trans (helsewhere rest)
  obtain ⟨s₂, hmade, hnode₂⟩ := eval_makeDirs (ε := WeightError) (u := u) hquiet
    ["models", organization, name] (s := s₁)
    ((houtside _ (by simp)).trans hroot)
    (by
      rintro p hp
      cases p with
      | nil => exact Or.inr ((houtside _ (by simp)).trans hroot)
      | cons first rest =>
        obtain rfl := (List.cons_prefix_cons.mp hp).1
        rw [hmodels]
        exact hready.parents _ hp)
    (fun other hother => hproper other (by
      simp only [List.mem_cons, List.not_mem_nil, or_false] at hother ⊢
      tauto))
  have hstaging : ∀ rest : Path, s₂.tree.node (".staging" :: rest) =
      s₁.tree.node (".staging" :: rest) := by
    intro rest
    rw [hnode₂, if_neg (by simp)]
  have htargetNone : s₂.tree.node ["models", organization, name, revision] = none := by
    rw [hnode₂, if_neg (by simp), hmodels]
    exact hready.absent
  have hsource : s₂.tree.node [".staging", folder] = some .dir := by
    rw [hstaging, houtside _ (by simp)]
    exact hdownload.directory
  obtain ⟨t, hmove⟩ := exists_move (t := s₂.tree) [".staging", folder]
    ["models", organization, name] revision (by simp)
    (by rw [hnode₂, if_pos List.prefix_rfl])
    (by
      change s₂.tree.replaceable [".staging", folder] ["models", organization, name, revision] =
        true
      rw [Tree.replaceable, hsource, htargetNone])
    (hproper revision (by simp))
  refine ⟨manifest, s₂.become t, ?_, ?_⟩
  · have hpath : eval (handle u env) (fromExcept (snapshotPath modelId revision) : Weight Path) s' =
        (.ok ["models", organization, name, revision], s') := by
      rw [htarget]
      rfl
    have habsent : nodeExists s'.tree ["models", organization, name, revision] = false := by
      rw [nodeExists, helsewhere, hready.absent]
    unfold commitSnapshot
    rw [eval_then hpath, eval_then (eval_pathExists hquiet _ _), habsent]
    refine (eval_then hinventory).trans ?_
    dsimp only
    rw [if_neg (hfiles.mpr hfile), eval_then hresult, eval_then (eval_utcNow _), later_later]
    refine (eval_then hwritten).trans ?_
    refine (eval_then hmade).trans ?_
    exact (eval_then (eval_replace hquiet hmove)).trans rfl
  · intro rest hrest
    change t.node _ = _
    rw [move_node hmove]
    have hmoved : movedNode s₂.tree [".staging", folder] ["models", organization, name, revision]
        (["models", organization, name, revision] ++ rest) =
          s₂.tree.node ([".staging", folder] ++ rest) := movedNode_below rest
    refine hmoved.trans ((hstaging (folder :: rest)).trans (houtside _ ?_))
    simpa using hrest

theorem empty_refused (htarget : snapshotPath modelId revision = .ok target)
    (hdownload : Downloaded s s' [".staging", folder] n)
    (hready : Ready env s s' [".staging", folder] target)
    (hempty : ¬ HasFile s'.tree [".staging", folder]) (license : String) :
    ¬ Kept sha repr vault u env [".staging", folder] target modelId revision license n s' := by
  rintro ⟨-, manifest, s'', hreturns, -⟩
  obtain ⟨organization, name, rfl, -⟩ := snapshotPath_cases htarget
  obtain ⟨k, hinventory, -⟩ := atCheck_later sha hquiet (u := u) s'
    ["models", organization, name, revision] [".staging", folder]
  obtain ⟨files, hfound, hfiles⟩ := hdownload.inventory sha
  rw [hfound] at hinventory
  have hnone : files = [] := by
    by_contra hne
    exact hempty (hfiles.mp hne)
  have hpath : eval (handle u env) (fromExcept (snapshotPath modelId revision) : Weight Path) s' =
      (.ok ["models", organization, name, revision], s') := by
    rw [htarget]
    rfl
  have habsent : nodeExists s'.tree ["models", organization, name, revision] = false := by
    rw [nodeExists, hdownload.elsewhere _ (by simp), hready.absent]
  have hfails : eval (handle u env)
      (commitSnapshot repr sha vault [".staging", folder] modelId revision license) s' =
        (.error (.vaultError "refusing to commit an empty model snapshot"), later s' k) := by
    unfold commitSnapshot
    rw [eval_then hpath, eval_then (eval_pathExists hquiet _ _), habsent]
    refine (eval_then hinventory).trans ?_
    dsimp only
    rw [if_pos hnone]
    exact eval_then_error rfl
  rw [hfails] at hreturns
  simp at hreturns

/-- After an accepted first check the download is kept exactly if it has a file and the free
space had room for it twice, beside the reserve. -/
theorem kept_iff (htarget : snapshotPath modelId revision = .ok target)
    (hdownload : Downloaded s s' [".staging", folder] n)
    (hready : Ready env s s' [".staging", folder] target)
    (hfree : env.free (atCheck sha u env [".staging", folder] target s').tick + n =
      env.free s.tick)
    (haccepted : (eval (handle u env) (requireCapacity repr vault n) s).1 = .ok ())
    (license : String) :
    Kept sha repr vault u env [".staging", folder] target modelId revision license n s' ↔
      HasFile s'.tree [".staging", folder] ∧
        ∃ reserve, configInt repr vault "reserve_bytes" = .ok reserve ∧
          2 * n + reserve ≤ env.free s.tick := by
  have hsecond := second_check sha repr vault hquiet hdownload hfree haccepted
  constructor
  · intro hkept
    refine ⟨?_, hsecond.mp hkept.1⟩
    by_contra hempty
    exact empty_refused sha repr vault hquiet htarget hdownload hready hempty license hkept
  · rintro ⟨hfile, hfits⟩
    exact published sha repr vault hquiet htarget hdownload hready hfile license
      (hsecond.mpr hfits)

end Checks

section Samples

def nodeIn (entries : List (Path × Node)) (path : Path) : Option Node :=
  (entries.find? (fun e => decide (e.1 = path))).map Prod.snd

theorem mem_of_nodeIn {entries : List (Path × Node)} {path : Path}
    (h : nodeIn entries path ≠ none) : path ∈ entries.map Prod.fst := by
  rw [nodeIn, Ne, Option.map_eq_none_iff] at h
  obtain ⟨e, he⟩ := Option.ne_none_iff_exists'.mp h
  have hpath : e.1 = path := by simpa using List.find?_some he
  exact hpath ▸ List.mem_map_of_mem (List.mem_of_find?_eq_some he)

/-- Every entry is the root or has a proper name in a directory. -/
def placed (entries : List (Path × Node)) : Bool :=
  entries.all (fun e => decide (e.1 = [] ∨ nodeIn entries e.1.dropLast = some .dir ∧
    ∀ name ∈ e.1.getLast?, Proper name))

theorem placed_of_nodeIn {entries : List (Path × Node)} (h : placed entries = true)
    {path : Path} {name : String} (hnode : nodeIn entries (path ++ [name]) ≠ none) :
    nodeIn entries path = some .dir ∧ Proper name := by
  obtain ⟨e, he, hpath⟩ := List.mem_map.mp (mem_of_nodeIn hnode)
  have hplaced := of_decide_eq_true (List.all_eq_true.mp h e he)
  rw [hpath, List.dropLast_concat, List.getLast?_concat] at hplaced
  rcases hplaced with hnil | ⟨hdir, hname⟩
  · simp at hnil
  · exact ⟨hdir, hname name rfl⟩

def treeOf (entries : List (Path × Node)) (h : placed entries = true) : Tree where
  node := nodeIn entries
  names := entries.map Prod.fst
  named _ := mem_of_nodeIn
  closed _ _ hnode := (placed_of_nodeIn h hnode).1
  proper _ _ hnode := (placed_of_nodeIn h hnode).2

def directories : List (Path × Node) :=
  [([], .dir), (["models"], .dir), ([".staging"], .dir), ([".staging", "a"], .dir)]

def emptyStaging : Tree := treeOf directories (by decide)

def filledStaging : Tree :=
  treeOf (([".staging", "a", "w"], .file [0]) :: directories) (by decide)

/-- The free space loses one byte before the tenth operation. -/
def sampleEnv (free : ℕ) : TreeEnv :=
  ⟨fun _ => false, fun _ => 0, fun _ => "x", fun _ => "", fun tick =>
    if tick < 10 then free + 1 else free⟩

def sampleHost (t : Tree) (tick : ℕ) : TreeHost Unit := ⟨t, fun _ => [], tick⟩

def sampleVault : WeightVault WholeFloat := ⟨[("vault_id", .str "v")]⟩

theorem sample_downloaded :
    Downloaded (sampleHost emptyStaging 0) (sampleHost filledStaging 10) [".staging", "a"] 1 where
  elsewhere := by
    intro path hpath
    have hne : ([".staging", "a", "w"] : Path) ≠ path := by
      rintro rfl
      exact hpath (List.prefix_append [".staging", "a"] ["w"])
    change nodeIn (_ :: directories) path = nodeIn directories path
    rw [nodeIn, List.find?_cons_of_neg (by simpa using hne)]
    rfl
  directory := by decide
  plain := by
    intro rest target hlink
    have hmem : (([".staging", "a"] ++ rest, .link target) : Path × Node) ∈
        ((([".staging", "a", "w"], .file [0]) : Path × Node) :: directories) := by
      obtain ⟨e, he, hvalue⟩ := Option.map_eq_some_iff.mp hlink
      have hpath : e.1 = [".staging", "a"] ++ rest := by simpa using List.find?_some he
      rw [← hpath, ← hvalue]
      exact List.mem_of_find?_eq_some he
    simp [directories] at hmem
  unnamed := by
    intro rest hrest
    by_contra hsome
    have hmem := mem_of_nodeIn hsome
    simp [directories] at hmem
    rcases hmem with rfl | rfl
    · exact absurd hrest (by decide)
    · exact absurd hrest (by decide)
  total := by decide

theorem sample_ready (free : ℕ) :
    Ready (sampleEnv free) (sampleHost emptyStaging 0) (sampleHost filledStaging 10)
      [".staging", "a"] ["models", "o", "n", "r"] where
  absent := by decide
  parents := by
    intro p hp
    have hmem : p ∈ ([[], ["models"], ["models", "o"], ["models", "o", "n"]] : List Path) :=
      (List.mem_inits _ _).mpr hp
    simp only [List.mem_cons, List.not_mem_nil, or_false] at hmem
    rcases hmem with rfl | rfl | rfl | rfl
    · exact Or.inr (by decide)
    · exact Or.inr (by decide)
    · exact Or.inl (by decide)
    · exact Or.inl (by decide)
  fresh _ := by
    change filledStaging.node [".staging", "a", ".json-" ++ "x"] = none
    decide
  names _ := by
    change '/' ∉ "x".toList
    decide

theorem sample_free (free : ℕ) :
    (sampleEnv free).free (atCheck Sha256.sample () (sampleEnv free) [".staging", "a"]
        ["models", "o", "n", "r"] (sampleHost filledStaging 10)).tick + 1 =
      (sampleEnv free).free (sampleHost emptyStaging 0).tick := by
  obtain ⟨k, -, hlater⟩ := atCheck_later Sha256.sample (u := ())
    (fun _ => rfl : ∀ tick, (sampleEnv free).fault tick = false) (sampleHost filledStaging 10)
    ["models", "o", "n", "r"] [".staging", "a"]
  rw [hlater]
  have hlate : ¬ 10 + k < 10 := by omega
  change (if 10 + k < 10 then free + 1 else free) + 1 = free + 1
  rw [if_neg hlate]

theorem sample_target : snapshotPath "o/n" "r" = .ok ["models", "o", "n", "r"] := by decide

theorem sample_accepted (free : ℕ) :
    (eval (handle () (sampleEnv free)) (requireCapacity id sampleVault ((1 : ℕ) : ℤ))
      (sampleHost emptyStaging 0)).1 = .ok () := by
  obtain ⟨n, result, hcheck, hiff⟩ := eval_requireCapacity (u := ())
    (fun _ => rfl : ∀ tick, (sampleEnv free).fault tick = false) (sampleHost emptyStaging 0) id
    sampleVault ((1 : ℕ) : ℤ)
  rw [hcheck]
  refine hiff.mpr ⟨by simp, by decide, ⟨0, rfl, Or.inl rfl⟩, 0, rfl, ?_⟩
  change ((1 : ℕ) : ℤ) + 0 ≤ ((free + 1 : ℕ) : ℤ)
  omega

/-- Two bytes are enough for a download of one byte. -/
theorem kept_iff_sample :
    Kept Sha256.sample id sampleVault () (sampleEnv 1) [".staging", "a"] ["models", "o", "n", "r"]
        "o/n" "r" "mit" 1 (sampleHost filledStaging 10) ↔
      HasFile filledStaging [".staging", "a"] ∧
        ∃ reserve, configInt id sampleVault "reserve_bytes" = .ok reserve ∧
          2 * ((1 : ℕ) : ℤ) + reserve ≤ ((sampleEnv 1).free 0 : ℕ) :=
  kept_iff Sha256.sample id sampleVault (fun _ => rfl) sample_target sample_downloaded
    (sample_ready 1) (sample_free 1) (sample_accepted 1) "mit"

/-- The only free byte is enough for the first check and not for the second one. -/
theorem download_thrown_away :
    (eval (handle () (sampleEnv 0)) (requireCapacity id sampleVault ((1 : ℕ) : ℤ))
        (sampleHost emptyStaging 0)).1 = .ok () ∧
      Downloaded (sampleHost emptyStaging 0) (sampleHost filledStaging 10) [".staging", "a"] 1 ∧
      (sampleEnv 0).free (atCheck Sha256.sample () (sampleEnv 0) [".staging", "a"]
          ["models", "o", "n", "r"] (sampleHost filledStaging 10)).tick + 1 =
        (sampleEnv 0).free (sampleHost emptyStaging 0).tick ∧
      HasFile filledStaging [".staging", "a"] ∧
      ¬ Kept Sha256.sample id sampleVault () (sampleEnv 0) [".staging", "a"]
        ["models", "o", "n", "r"] "o/n" "r" "mit" 1 (sampleHost filledStaging 10) := by
  refine ⟨sample_accepted 0, sample_downloaded, sample_free 0, ⟨["w"], [0], by decide⟩, ?_⟩
  intro hkept
  obtain ⟨reserve, hreserve, hfits⟩ := (second_check Sha256.sample id sampleVault (fun _ => rfl)
    sample_downloaded (sample_free 0) (sample_accepted 0)).mp hkept.1
  obtain rfl : (0 : ℤ) = reserve := Except.ok.inj hreserve
  change 2 * ((1 : ℕ) : ℤ) + 0 ≤ ((0 + 1 : ℕ) : ℤ) at hfits
  omega

end Samples

end Decillion.CapacityChecks
