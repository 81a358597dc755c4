import Decillion.Evaluations
import Decillion.WeightRules

/-!
What the calls of the weight vault do on a tree that no one else changes and on which no
operation fails. Reading takes time and leaves the tree as it is; the capacity check answers
from the bytes that are used and the bytes that are free at its first operation.
-/
namespace Decillion.WeightEvaluations

open ByteText JsonValues Primitives Programs PyErrors PyValues Trees TreeSystem WeightVaults
  WeightRules Evaluations

variable {ι α ε F : Type} [DecidableEq ι] [PythonErrors ε] {u : ι} {env : TreeEnv}

/-- The same tree some operations later. -/
def later (s : TreeHost ι) (n : ℕ) : TreeHost ι := { s with tick := s.tick + n }

omit [DecidableEq ι] in
@[simp] theorem later_tree (s : TreeHost ι) (n : ℕ) : (later s n).tree = s.tree := rfl

omit [DecidableEq ι] in
@[simp] theorem later_tick (s : TreeHost ι) (n : ℕ) : (later s n).tick = s.tick + n := rfl

omit [DecidableEq ι] in
theorem later_later (s : TreeHost ι) (n m : ℕ) : later (later s n) m = later s (n + m) := by
  rw [later, later, later, Nat.add_assoc]

theorem eval_orRaise {x : Act ε (Except PyError α)} {s s' : TreeHost ι} {a : α}
    (h : eval (handle u env) x s = (.ok (.ok a), s')) :
    eval (handle u env) (orRaise x : Act ε α) s = (.ok a, s') := (eval_then h).trans rfl

section Operations

variable (hquiet : ∀ tick, env.fault tick = false)
include hquiet

theorem eval_pathExists (path : Path) (s : TreeHost ι) :
    eval (handle u env) (pathExists path : Act ε Bool) s =
      (.ok (nodeExists s.tree path), later s 1) := by
  apply eval_orRaise
  simp only [perform, eval, handle, hquiet]
  rfl

omit [PythonErrors ε] in
theorem eval_osPathExists (path : Path) (s : TreeHost ι) :
    eval (handle u env) (osPathExists path : Act ε Bool) s =
      (.ok (nodeExists s.tree path), later s 1) := by
  simp only [osPathExists, perform, eval, handle, hquiet]
  rfl

theorem eval_isFile (path : Path) (s : TreeHost ι) :
    eval (handle u env) (isFile path : Act ε Bool) s =
      (.ok (nodeContent s.tree path).isSome, later s 1) := by
  apply eval_orRaise
  simp only [perform, eval, handle, hquiet]
  rfl

theorem eval_isSymlink (path : Path) (s : TreeHost ι) :
    eval (handle u env) (isSymlink path : Act ε Bool) s =
      (.ok (isLink s.tree path), later s 1) := by
  apply eval_orRaise
  simp only [perform, eval, handle, hquiet]
  rfl

theorem eval_readFile {path : Path} {content : Bytes} {s : TreeHost ι}
    (h : nodeContent s.tree path = some content) :
    eval (handle u env) (readFile path : Act ε Bytes) s = (.ok content, later s 1) := by
  apply eval_orRaise
  simp only [perform, eval, handle, hquiet, fileContent, h]
  rfl

theorem eval_fileSize {path : Path} {content : Bytes} {s : TreeHost ι}
    (h : nodeContent s.tree path = some content) :
    eval (handle u env) (fileSize path : Act ε ℕ) s = (.ok content.length, later s 1) := by
  apply eval_orRaise
  simp only [perform, eval, handle, hquiet, fileContent, h]
  rfl

theorem eval_scan (dir : Path) (s : TreeHost ι) :
    eval (handle u env) (scan dir : Act ε (List Path)) s =
      (.ok (s.tree.below dir), later s 1) := by
  apply eval_orRaise
  simp only [perform, eval, handle, hquiet]
  rfl

theorem eval_diskFree (s : TreeHost ι) :
    eval (handle u env) (diskFree : Act ε ℕ) s = (.ok (env.free s.tick), later s 1) := by
  apply eval_orRaise
  simp only [perform, eval, handle, hquiet]
  rfl

theorem eval_chmod (path : Path) (s : TreeHost ι) :
    eval (handle u env) (chmod path : Act ε Unit) s = (.ok (), later s 1) := by
  apply eval_orRaise
  simp only [perform, eval, handle, hquiet]
  rfl

omit [PythonErrors ε] hquiet in
theorem eval_utcNow (s : TreeHost ι) :
    eval (handle u env) (utcNow : Act ε String) s = (.ok (env.isoClock s.tick), later s 1) := rfl

theorem eval_write {path : Path} {value : Bytes} {s : TreeHost ι} {t : Tree}
    (h : s.tree.put path (.file value) = some t) :
    eval (handle u env) (write path value : Act ε Unit) s = (.ok (), s.become t) := by
  apply eval_orRaise
  simp only [perform, eval, handle, hquiet, h]
  rfl

theorem eval_replace {source target : Path} {s : TreeHost ι} {t : Tree}
    (h : s.tree.move source target = some t) :
    eval (handle u env) (replace source target : Act ε Unit) s = (.ok (), s.become t) := by
  apply eval_orRaise
  simp only [perform, eval, handle, hquiet, h]
  rfl

theorem eval_mkstemp {dir : Path} {start : String} {s : TreeHost ι} {t : Tree}
    (habsent : s.tree.node (dir ++ [start ++ env.tempName s.tick]) = none)
    (h : s.tree.put (dir ++ [start ++ env.tempName s.tick]) (.file []) = some t) :
    eval (handle u env) (mkstemp dir start : Act ε Path) s =
      (.ok (dir ++ [start ++ env.tempName s.tick]), s.become t) := by
  apply eval_orRaise
  simp only [perform, eval, handle, made, hquiet, habsent, h]
  rfl

omit [PythonErrors ε] in
theorem eval_mkdir {dir : Path} {name : String} {s : TreeHost ι}
    (hdir : s.tree.node dir = some .dir) (h : s.tree.node (dir ++ [name]) = none)
    (hproper : Proper name) :
    ∃ t, eval (handle u env) (perform (.mkdir (dir ++ [name])) : Act ε (Resp _)) s =
        (.ok (.ok () : Except PyError Unit), s.become t) ∧
      t.node = Function.update s.tree.node (dir ++ [name]) (some .dir) := by
  obtain ⟨t, hput⟩ := exists_put _ _ .dir hdir (by rw [h]; simp) hproper
  refine ⟨t, ?_, put_node hput⟩
  simp only [perform, eval, handle, hquiet, h, List.dropLast_concat, hdir, hput]
  rfl

omit [PythonErrors ε] in
theorem eval_mkdir_missing {dir : Path} {name : String} {s : TreeHost ι}
    (hdir : s.tree.node dir = none) (h : s.tree.node (dir ++ [name]) = none) :
    eval (handle u env) (perform (.mkdir (dir ++ [name])) : Act ε (Resp _)) s =
      (.ok (.error .fileNotFound : Except PyError Unit), later s 1) := by
  simp only [perform, eval, handle, hquiet, h, List.dropLast_concat, hdir]
  rfl

omit [PythonErrors ε] in
theorem eval_mkdir_present {path : Path} {s : TreeHost ι}
    (h : s.tree.node path = some .dir) :
    eval (handle u env) (perform (.mkdir path) : Act ε (Resp _)) s =
      (.ok (.error (.fileExists "") : Except PyError Unit), later s 1) := by
  simp only [perform, eval, handle, hquiet, h]
  rfl

theorem eval_existing {path : Path} {s : TreeHost ι} (e : PyError)
    (h : s.tree.node path = some .dir) :
    eval (handle u env) (existing path e : Act ε Unit) s = (.ok (), later s 1) := by
  have hthere : eval (handle u env) (perform (.isDir path) : Act ε (Resp _)) s =
      (.ok (.ok true : Except PyError Bool), later s 1) := by
    simp only [perform, eval, handle, hquiet, nodeIsDir, h]
    rfl
  exact eval_then hthere

/-- The directories on the way are made as far as they are missing. -/
theorem eval_makeDirs (path : Path) {s : TreeHost ι} (hroot : s.tree.node [] = some .dir)
    (hfree : ∀ p, p <+: path → s.tree.node p = none ∨ s.tree.node p = some .dir)
    (hproper : ∀ name ∈ path, Proper name) :
    ∃ s', eval (handle u env) (makeDirs path : Act ε Unit) s = (.ok (), s') ∧
      ∀ p, s'.tree.node p = if p <+: path then some .dir else s.tree.node p := by
  unfold makeDirs
  induction path using List.reverseRecOn generalizing s with
  | nil =>
    refine ⟨s, rfl, ?_⟩
    intro p
    split
    · rename_i hnil
      rw [List.prefix_nil.mp hnil, hroot]
    · rfl
  | append_singleton dir name ih =>
    have hup : (name :: dir.reverse).reverse = dir ++ [name] := by simp
    rw [List.reverse_append, List.reverse_singleton, List.singleton_append, makeDirsUp, hup]
    have hshort : ∀ p, p <+: dir → p <+: dir ++ [name] := fun p hp =>
      hp.trans (List.prefix_append _ _)
    have hsplit : ∀ p, p <+: dir ++ [name] ↔ p = dir ++ [name] ∨ p <+: dir :=
      fun p => List.prefix_concat_iff
    have hname : Proper name := hproper name (by simp)
    have hdirs : s.tree.node dir = some .dir → ∀ p, p <+: dir → s.tree.node p = some .dir := by
      rintro hdir p ⟨rest, rfl⟩
      by_cases hrest : rest = []
      · rwa [hrest, List.append_nil] at hdir
      · exact s.tree.dir_of_prefix p rest hrest (by rw [hdir]; simp)
    rcases hfree _ List.prefix_rfl with hnone | hthere
    · rcases hfree dir (List.prefix_append _ _) with hmissing | hdir
      · obtain ⟨s₁, hmade, hnode⟩ := ih (s := later s 1) hroot (fun p hp => hfree p (hshort p hp))
          (fun other hother => hproper other (List.mem_append_left _ hother))
        have hdir₁ : s₁.tree.node dir = some .dir := by rw [hnode, if_pos List.prefix_rfl]
        have hnone₁ : s₁.tree.node (dir ++ [name]) = none := by
          rw [hnode, if_neg, later_tree, hnone]
          intro hle
          have := hle.length_le
          simp at this
        obtain ⟨t, hlast, hnode₂⟩ := eval_mkdir (ε := ε) (u := u) hquiet hdir₁ hnone₁ hname
        refine ⟨s₁.become t, ?_, ?_⟩
        · refine (eval_then (eval_mkdir_missing hquiet hmissing hnone)).trans ?_
          refine (eval_then hmade).trans ?_
          exact eval_then hlast
        · intro p
          change t.node p = _
          rw [hnode₂]
          by_cases hp : p = dir ++ [name]
          · rw [hp, Function.update_self, if_pos List.prefix_rfl]
          · rw [Function.update_of_ne hp, hnode, later_tree]
            simp only [hsplit, hp, false_or]
      · obtain ⟨t, hmade, hnode⟩ := eval_mkdir (ε := ε) (u := u) hquiet hdir hnone hname
        refine ⟨s.become t, eval_then hmade, ?_⟩
        intro p
        change t.node p = _
        rw [hnode]
        by_cases hp : p = dir ++ [name]
        · rw [hp, Function.update_self, if_pos List.prefix_rfl]
        · rw [Function.update_of_ne hp]
          simp only [hsplit, hp, false_or]
          split
          · rename_i hle
            exact hdirs hdir p hle
          · rfl
    · refine ⟨later s 2, ?_, ?_⟩
      · refine (eval_then (eval_mkdir_present hquiet hthere)).trans ?_
        exact eval_existing hquiet (s := later s 1) _ hthere
      · intro p
        rw [later_tree]
        split
        · rename_i hle
          rcases (hsplit p).mp hle with rfl | hle
          · exact hthere
          · exact hdirs (s.tree.closed dir name (by rw [hthere]; simp)) p hle
        · rfl

end Operations

section Reading

variable (hquiet : ∀ tick, env.fault tick = false) (sha : Sha256) (s : TreeHost ι)
include hquiet

theorem eval_inventoryEntry (dir rest : Path) :
    ∃ n, eval (handle u env) (inventoryEntry sha dir rest) s =
      (entryOf sha dir (fun rest => s.tree.node (dir ++ rest)) rest, later s n) := by
  unfold inventoryEntry
  rw [eval_then (eval_isSymlink hquiet (dir ++ rest) s), entryOf, isLink]
  cases hnode : s.tree.node (dir ++ rest) with
  | none =>
    dsimp only
    rw [if_neg (by simp), eval_then (eval_isFile hquiet (dir ++ rest) (later s 1)), later_tree,
      nodeContent, hnode]
    exact ⟨2, rfl⟩
  | some node =>
    cases node with
    | link target => exact ⟨1, rfl⟩
    | dir =>
      dsimp only
      rw [if_neg (by simp), eval_then (eval_isFile hquiet (dir ++ rest) (later s 1)), later_tree,
        nodeContent, hnode]
      exact ⟨2, rfl⟩
    | file content =>
      have hcontent : nodeContent s.tree (dir ++ rest) = some content := by
        rw [nodeContent, hnode]
        rfl
      dsimp only
      rw [if_neg (by simp), eval_then (eval_isFile hquiet (dir ++ rest) (later s 1)), later_tree,
        hcontent, Option.isSome_some, if_pos rfl]
      by_cases hmanifest : isManifest rest = true
      · rw [if_pos hmanifest, if_pos hmanifest]
        exact ⟨2, rfl⟩
      · rw [if_neg hmanifest, if_neg hmanifest]
        rw [eval_then (eval_readFile hquiet (s := later (later s 1) 1) hcontent),
          eval_then (eval_fileSize hquiet (s := later (later (later s 1) 1) 1) hcontent)]
        exact ⟨4, rfl⟩

theorem eval_inventoryFrom (dir : Path) (names : List Path) :
    ∃ n, eval (handle u env) (inventoryFrom sha dir names) s =
      (recordsOf sha dir (fun rest => s.tree.node (dir ++ rest)) names, later s n) := by
  induction names generalizing s with
  | nil => exact ⟨0, rfl⟩
  | cons rest more ih =>
    unfold inventoryFrom recordsOf
    obtain ⟨n, hentry⟩ := eval_inventoryEntry hquiet sha s dir rest (u := u)
    cases hvalue : entryOf sha dir (fun rest => s.tree.node (dir ++ rest)) rest with
    | error e =>
      rw [hvalue] at hentry
      exact ⟨n, eval_then_error hentry⟩
    | ok entry =>
      rw [hvalue] at hentry
      obtain ⟨m, hfound⟩ := ih (later s n)
      rw [later_later, later_tree] at hfound
      rw [eval_then hentry, ok_bind]
      cases hrecords : recordsOf sha dir (fun rest => s.tree.node (dir ++ rest)) more with
      | error e =>
        rw [hrecords] at hfound
        exact ⟨n + m, eval_then_error hfound⟩
      | ok found =>
        rw [hrecords] at hfound
        exact ⟨n + m, eval_then hfound⟩

theorem eval_inventory (dir : Path) :
    ∃ n, eval (handle u env) (inventory sha dir) s =
      (inventoryOf sha s.tree dir, later s n) := by
  unfold inventory
  rw [eval_then (eval_scan hquiet dir s)]
  obtain ⟨n, hfound⟩ := eval_inventoryFrom hquiet sha (later s 1) dir
    (sortPaths (s.tree.below dir)) (u := u)
  rw [later_later] at hfound
  exact ⟨1 + n, hfound⟩

theorem eval_regularSize (path : Path) :
    ∃ n, eval (handle u env) (regularSize path) s = (.ok (sizeAt s.tree path), later s n) := by
  unfold regularSize
  rw [eval_then (eval_isFile hquiet path s), sizeAt]
  cases hcontent : nodeContent s.tree path with
  | none => exact ⟨1, rfl⟩
  | some content => exact ⟨2, eval_fileSize hquiet hcontent⟩

theorem eval_sumSizes (dir : Path) (names : List Path) :
    ∃ n, eval (handle u env) (sumSizes dir names) s =
      (.ok (sizesOf s.tree dir names), later s n) := by
  induction names generalizing s with
  | nil => exact ⟨0, rfl⟩
  | cons rest more ih =>
    unfold sumSizes
    obtain ⟨n, hhere⟩ := eval_regularSize hquiet s (dir ++ rest) (u := u)
    obtain ⟨m, htotal⟩ := ih (later s n)
    rw [later_later, later_tree] at htotal
    rw [eval_then hhere, eval_then htotal]
    exact ⟨n + m, rfl⟩

variable [FloatNumber F] (repr : String → String) (vault : WeightVault F)

/-- What `status` reports of the numbers that it has read. -/
def statusOf (used free snapshots : ℕ) : Except WeightError (VaultStatus F) :=
  match vault.config.lookup "vault_id" with
  | none => .error (.python .keyError)
  | some vaultId => do
      let quota ← raisePython (configInt repr vault "quota_bytes")
      let reserve ← raisePython (configInt repr vault "reserve_bytes")
      return ⟨vaultId, quota, reserve, used, free, snapshots⟩

theorem eval_status :
    ∃ n snapshots, eval (handle u env) (status repr vault) s =
      (statusOf repr vault (usedBytes s.tree) (env.free s.tick) snapshots, later s n) := by
  unfold status
  rw [eval_then (eval_diskFree hquiet s), eval_then (eval_scan hquiet _ _)]
  obtain ⟨n, hused⟩ := eval_sumSizes hquiet (later (later s 1) 1) ["models"]
    (s.tree.below ["models"]) (u := u)
  rw [later_tree, eval_then hused, eval_then (eval_scan hquiet _ _)]
  simp only [later_later, later_tree]
  refine ⟨1 + 1 + n + 1, (s.tree.below ["models"]).filter isManifest |>.length, ?_⟩
  unfold statusOf
  cases vault.config.lookup "vault_id" with
  | none => rfl
  | some vaultId =>
    dsimp only
    cases configInt repr vault "quota_bytes" with
    | error e => rfl
    | ok quota =>
      cases configInt repr vault "reserve_bytes" with
      | error e => rfl
      | ok reserve => rfl

/-- What the capacity check asks for when so many bytes are used and free. -/
structure Accepts (used free : ℕ) (expected : ℤ) : Prop where
  nonneg : 0 ≤ expected
  named : vault.config.lookup "vault_id" ≠ none
  quota : ∃ quota, configInt repr vault "quota_bytes" = .ok quota ∧
    (quota = 0 ∨ used + expected ≤ quota)
  reserve : ∃ reserve, configInt repr vault "reserve_bytes" = .ok reserve ∧
    expected + reserve ≤ free

theorem eval_requireCapacity (expected : ℤ) :
    ∃ n result, eval (handle u env) (requireCapacity repr vault expected) s =
        (result, later s n) ∧
      (result = .ok () ↔
        Accepts repr vault (usedBytes s.tree) (env.free s.tick) expected) := by
  unfold requireCapacity
  split
  · rename_i hnegative
    refine ⟨0, _, eval_then_error rfl, ?_⟩
    simp only [reduceCtorEq, false_iff]
    exact fun h => absurd h.nonneg (by omega)
  · rename_i hnonneg
    obtain ⟨n, snapshots, hstatus⟩ := eval_status hquiet s repr vault (u := u)
    unfold statusOf at hstatus
    match hname : vault.config.lookup "vault_id" with
    | none =>
      simp only [hname] at hstatus
      refine ⟨n, _, eval_then_error hstatus, ?_⟩
      simp only [reduceCtorEq, false_iff]
      exact fun h => h.named hname
    | some vaultId =>
      simp only [hname] at hstatus
      match hquota : configInt repr vault "quota_bytes" with
      | .error e =>
        rw [hquota] at hstatus
        refine ⟨n, _, eval_then_error hstatus, ?_⟩
        simp only [reduceCtorEq, false_iff]
        rintro ⟨-, -, ⟨quota, hfound, -⟩, -⟩
        rw [hquota] at hfound
        simp at hfound
      | .ok quota =>
        match hreserve : configInt repr vault "reserve_bytes" with
        | .error e =>
          rw [hquota, hreserve] at hstatus
          refine ⟨n, _, eval_then_error hstatus, ?_⟩
          simp only [reduceCtorEq, false_iff]
          rintro ⟨-, -, -, reserve, hfound, -⟩
          rw [hreserve] at hfound
          simp at hfound
        | .ok reserve =>
          rw [hquota, hreserve] at hstatus
          rw [eval_then hstatus]
          have haccepts : Accepts repr vault (usedBytes s.tree) (env.free s.tick) expected ↔
              ¬ (quota ≠ 0 ∧ quota < usedBytes s.tree + expected) ∧
                ¬ (env.free s.tick : ℤ) < expected + reserve := by
            constructor
            · rintro ⟨-, -, ⟨quota', hquota', hfits⟩, reserve', hreserve', hfree⟩
              rw [hquota, Except.ok.injEq] at hquota'
              rw [hreserve, Except.ok.injEq] at hreserve'
              omega
            · rintro ⟨hfits, hfree⟩
              exact ⟨by omega, by rw [hname]; simp, ⟨quota, hquota, by omega⟩, reserve, hreserve,
                by omega⟩
          rw [haccepts]
          dsimp only
          split
          · rename_i hexceeds
            refine ⟨n, _, eval_then_error rfl, ?_⟩
            simp only [reduceCtorEq, false_iff]
            exact fun h => h.1 hexceeds
          · rename_i hfits
            split
            · rename_i hshort
              refine ⟨n, _, rfl, ?_⟩
              simp only [reduceCtorEq, false_iff]
              exact fun h => h.2 hshort
            · rename_i hfree
              exact ⟨n, .ok (), rfl, fun _ => ⟨hfits, hfree⟩, fun _ => rfl⟩

end Reading

end Decillion.WeightEvaluations
