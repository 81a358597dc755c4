import Decillion.TreeSystem
import Decillion.Interleavings

/-!
Rules for calls on a directory tree that other processes use at the same time. The relation
within which the others stay is left open. Reading changes nothing but the tick; what is
read below a directory is known as long as the others leave that directory alone.
-/
namespace Decillion.TreeRules

open ByteText Programs PyErrors Interleavings Trees TreeSystem

variable {ι α β ε : Type}

/-- Operations that change no file. -/
def IsRead : TreeOp → Prop
  | .pathExists _ => True
  | .osPathExists _ => True
  | .isFile _ => True
  | .isDir _ => True
  | .isSymlink _ => True
  | .readFile _ => True
  | .fileSize _ => True
  | .scan _ => True
  | .diskFree => True
  | .utcNow => True
  | .chmod _ => True
  | _ => False

def Faulty (env : TreeEnv) : Prop := ∃ tick, env.fault tick = true

/-- The nodes at a path and below it are the same. -/
def SameBelow (dir : Path) (s s' : TreeHost ι) : Prop :=
  ∀ rest, s'.tree.node (dir ++ rest) = s.tree.node (dir ++ rest)

theorem SameBelow.symm {dir : Path} {s s' : TreeHost ι} (h : SameBelow dir s s') :
    SameBelow dir s' s := fun rest => (h rest).symm

theorem SameBelow.trans {dir : Path} {s s' s'' : TreeHost ι} (h : SameBelow dir s s')
    (h' : SameBelow dir s' s'') : SameBelow dir s s'' := fun rest => (h' rest).trans (h rest)

variable [DecidableEq ι] {me : ι} {env : TreeEnv}

theorem handle_read (s : TreeHost ι) (op : TreeOp) (h : IsRead op) :
    (handle me env s op).2 = s.next := by
  cases op <;> first | rfl | exact h.elim

/-- A safe call on the tree. -/
abbrev SafeTree (me : ι) (env : TreeEnv) (rely : TreeHost ι → TreeHost ι → Prop)
    (may : TreeHost ι → TreeOp → Prop) (post : α → TreeHost ι → Prop)
    (p : Prog TreeOp Resp α) (s : TreeHost ι) : Prop :=
  Safe (handle me env) rely (fun _ _ => True) may post p s

/-- What the rules assume of the relation and of the operations that are allowed. -/
structure Allows (rely : TreeHost ι → TreeHost ι → Prop) (may : TreeHost ι → TreeOp → Prop) :
    Prop where
  next : ∀ s, rely s s.next
  read : ∀ s op, IsRead op → may s op

variable {rely : TreeHost ι → TreeHost ι → Prop} [IsPreorder (TreeHost ι) rely]
  {may : TreeHost ι → TreeOp → Prop} (ha : Allows rely may)

omit [IsPreorder (TreeHost ι) rely] in
/-- An operation and what it does. -/
theorem safe_perform (op : TreeOp) {post : Except ε (Resp op) → TreeHost ι → Prop}
    (s : TreeHost ι) (hmay : ∀ s', rely s s' → may s' op)
    (h : ∀ s₁ s', rely s s₁ → rely (handle me env s₁ op).2 s' →
      post (.ok (handle me env s₁ op).1) s') :
    SafeTree me env rely may post (perform op : Act ε (Resp op)) s :=
  fun s₁ h₁ => ⟨hmay s₁ h₁, fun _ s' h' => h s₁ s' h₁ h'⟩

include ha in
theorem safe_read (op : TreeOp) (hop : IsRead op) {post : Except ε (Resp op) → TreeHost ι → Prop}
    (s : TreeHost ι) (h : ∀ s₁ s', rely s s₁ → rely s₁ s' →
      post (.ok (handle me env s₁ op).1) s') :
    SafeTree me env rely may post (perform op : Act ε (Resp op)) s := by
  apply safe_perform op s (fun s' _ => ha.read s' op hop)
  intro s₁ s' h₁ h'
  rw [handle_read _ _ hop] at h'
  exact h s₁ s' h₁ (trans_of rely (ha.next s₁) h')

variable [PythonErrors ε]

theorem safe_orRaise {post : Except ε α → TreeHost ι → Prop} (x : Act ε (Except PyError α))
    (s : TreeHost ι)
    (h : SafeTree me env rely may (fun result s =>
      match result with
      | .ok (.ok a) => ∀ s', rely s s' → post (.ok a) s'
      | .ok (.error e) => ∀ s', rely s s' → post (.error (PythonErrors.python e)) s'
      | .error e => ∀ s', rely s s' → post (.error e) s') x s) :
    SafeTree me env rely may post (orRaise x) s := by
  apply safe_then
  apply safe_mono x s h
  intro result s' hs'
  match result, hs' with
  | .ok (.ok a), hs' => exact hs'
  | .ok (.error e), hs' => exact hs'
  | .error e, hs' => exact hs'

/-- A read that may fail. -/
theorem safe_answer {post : Except ε α → TreeHost ι → Prop} {x : Act ε (Except PyError α)}
    {s : TreeHost ι} (value : TreeHost ι → Except PyError α)
    (hx : ∀ post' : Except ε (Except PyError α) → TreeHost ι → Prop,
      (∀ s₁ s', rely s s₁ → rely s₁ s' → post' (.ok (if env.fault s₁.tick then .error .osError
        else value s₁)) s') → SafeTree me env rely may post' x s)
    (hok : ∀ a s₁ s', rely s s₁ → rely s₁ s' → value s₁ = .ok a → post (.ok a) s')
    (herror : ∀ e s₁ s', rely s s₁ → rely s₁ s' →
      (Faulty env ∨ ∃ e', value s₁ = .error e') → post (.error e) s') :
    SafeTree me env rely may post (orRaise x) s := by
  apply safe_orRaise
  apply hx
  intro s₁ s' h₁ h'
  by_cases hfault : env.fault s₁.tick = true
  · rw [if_pos hfault]
    exact fun s'' h'' => herror _ s₁ s'' h₁ (trans_of rely h' h'') (Or.inl ⟨_, hfault⟩)
  · rw [if_neg hfault]
    cases hvalue : value s₁ with
    | ok a => exact fun s'' h'' => hok a s₁ s'' h₁ (trans_of rely h' h'') hvalue
    | error e =>
      exact fun s'' h'' => herror _ s₁ s'' h₁ (trans_of rely h' h'') (Or.inr ⟨e, hvalue⟩)

/-- A read that fails only when the tree cannot be read. -/
theorem safe_value {post : Except ε α → TreeHost ι → Prop} {x : Act ε (Except PyError α)}
    {s : TreeHost ι} (value : TreeHost ι → α)
    (hx : ∀ post' : Except ε (Except PyError α) → TreeHost ι → Prop,
      (∀ s₁ s', rely s s₁ → rely s₁ s' → post' (.ok (if env.fault s₁.tick then .error .osError
        else .ok (value s₁))) s') → SafeTree me env rely may post' x s)
    (hok : ∀ s₁ s', rely s s₁ → rely s₁ s' → post (.ok (value s₁)) s')
    (herror : ∀ e s', rely s s' → Faulty env → post (.error e) s') :
    SafeTree me env rely may post (orRaise x) s := by
  apply safe_answer (fun s₁ => .ok (value s₁)) hx
  · intro a s₁ s' h₁ h' hvalue
    exact Except.ok.inj hvalue ▸ hok s₁ s' h₁ h'
  · intro e s₁ s' h₁ h' hfaulty
    rcases hfaulty with hfaulty | ⟨e', he⟩
    · exact herror e s' (trans_of rely h₁ h') hfaulty
    · simp at he

section Reads

include ha

theorem safe_pathExists {post : Except ε Bool → TreeHost ι → Prop} (path : Path) (s : TreeHost ι)
    (hok : ∀ s₁ s', rely s s₁ → rely s₁ s' → post (.ok (nodeExists s₁.tree path)) s')
    (herror : ∀ e s', rely s s' → Faulty env → post (.error e) s') :
    SafeTree me env rely may post (pathExists path) s :=
  safe_value (fun s₁ => nodeExists s₁.tree path)
    (fun _ h => safe_read ha (.pathExists path) trivial s h) hok herror

theorem safe_isFile {post : Except ε Bool → TreeHost ι → Prop} (path : Path) (s : TreeHost ι)
    (hok : ∀ s₁ s', rely s s₁ → rely s₁ s' → post (.ok (nodeContent s₁.tree path).isSome) s')
    (herror : ∀ e s', rely s s' → Faulty env → post (.error e) s') :
    SafeTree me env rely may post (isFile path) s :=
  safe_value (fun s₁ => (nodeContent s₁.tree path).isSome)
    (fun _ h => safe_read ha (.isFile path) trivial s h) hok herror

theorem safe_scan {post : Except ε (List Path) → TreeHost ι → Prop} (dir : Path) (s : TreeHost ι)
    (hok : ∀ s₁ s', rely s s₁ → rely s₁ s' → post (.ok (s₁.tree.below dir)) s')
    (herror : ∀ e s', rely s s' → Faulty env → post (.error e) s') :
    SafeTree me env rely may post (scan dir) s :=
  safe_value (fun s₁ => s₁.tree.below dir)
    (fun _ h => safe_read ha (.scan dir) trivial s h) hok herror

theorem safe_diskFree {post : Except ε ℕ → TreeHost ι → Prop} (s : TreeHost ι)
    (hok : ∀ free s', rely s s' → post (.ok free) s')
    (herror : ∀ e s', rely s s' → Faulty env → post (.error e) s') :
    SafeTree me env rely may post diskFree s :=
  safe_value (fun s₁ => env.free s₁.tick) (fun _ h => safe_read ha .diskFree trivial s h)
    (fun _ s' h₁ h' => hok _ s' (trans_of rely h₁ h')) herror

theorem safe_isSymlink {post : Except ε Bool → TreeHost ι → Prop} (path : Path) (s : TreeHost ι)
    (hok : ∀ s₁ s', rely s s₁ → rely s₁ s' → post (.ok (isLink s₁.tree path)) s')
    (herror : ∀ e s', rely s s' → Faulty env → post (.error e) s') :
    SafeTree me env rely may post (isSymlink path) s :=
  safe_value (fun s₁ => isLink s₁.tree path)
    (fun _ h => safe_read ha (.isSymlink path) trivial s h) hok herror

theorem safe_readFile {post : Except ε Bytes → TreeHost ι → Prop} (path : Path) (s : TreeHost ι)
    (hok : ∀ content s₁ s', rely s s₁ → rely s₁ s' → nodeContent s₁.tree path = some content →
      post (.ok content) s')
    (herror : ∀ e s₁ s', rely s s₁ → rely s₁ s' →
      (Faulty env ∨ nodeContent s₁.tree path = none) → post (.error e) s') :
    SafeTree me env rely may post (readFile path) s := by
  apply safe_answer (fun s₁ => fileContent s₁.tree path)
    (fun _ h => safe_read ha (.readFile path) trivial s h)
  · intro content s₁ s' h₁ h' hcontent
    exact hok content s₁ s' h₁ h' ((fileContent_eq_ok _ _ _).mp hcontent)
  · intro e s₁ s' h₁ h' hcontent
    refine herror e s₁ s' h₁ h' (hcontent.imp_right ?_)
    rintro ⟨e', he⟩
    by_contra hsome
    obtain ⟨content, hcontent⟩ := Option.ne_none_iff_exists'.mp hsome
    rw [(fileContent_eq_ok _ _ _).mpr hcontent] at he
    simp at he

theorem safe_fileSize {post : Except ε ℕ → TreeHost ι → Prop} (path : Path) (s : TreeHost ι)
    (hok : ∀ content s₁ s', rely s s₁ → rely s₁ s' → nodeContent s₁.tree path = some content →
      post (.ok content.length) s')
    (herror : ∀ e s₁ s', rely s s₁ → rely s₁ s' →
      (Faulty env ∨ nodeContent s₁.tree path = none) → post (.error e) s') :
    SafeTree me env rely may post (fileSize path) s := by
  apply safe_answer (fun s₁ => (fileContent s₁.tree path).map List.length)
    (fun _ h => safe_read ha (.fileSize path) trivial s h)
  · intro size s₁ s' h₁ h' hsize
    cases hcontent : fileContent s₁.tree path with
    | error e => simp [hcontent, Except.map] at hsize
    | ok content =>
      rw [hcontent] at hsize
      exact Except.ok.inj hsize ▸ hok content s₁ s' h₁ h' ((fileContent_eq_ok _ _ _).mp hcontent)
  · intro e s₁ s' h₁ h' hsize
    refine herror e s₁ s' h₁ h' (hsize.imp_right ?_)
    rintro ⟨e', he⟩
    by_contra hsome
    obtain ⟨content, hcontent⟩ := Option.ne_none_iff_exists'.mp hsome
    rw [(fileContent_eq_ok _ _ _).mpr hcontent] at he
    simp [Except.map] at he

omit [IsPreorder (TreeHost ι) rely] ha [PythonErrors ε] in
/-- What reading a file answers. -/
theorem readFile_cases (me : ι) (env : TreeEnv) (s : TreeHost ι) (path : Path) :
    (∃ content, (handle me env s (.readFile path)).1 = (.ok content : Except PyError Bytes) ∧
      nodeContent s.tree path = some content) ∨
    (∃ e, (handle me env s (.readFile path)).1 = (.error e : Except PyError Bytes) ∧
      (Faulty env ∨ nodeContent s.tree path = none)) := by
  by_cases hfault : env.fault s.tick = true
  · exact Or.inr ⟨_, if_pos hfault, Or.inl ⟨_, hfault⟩⟩
  · cases hcontent : nodeContent s.tree path with
    | none =>
      refine Or.inr ⟨.fileNotFound, (if_neg hfault).trans ?_, Or.inr rfl⟩
      rw [fileContent, hcontent]
    | some content =>
      exact Or.inl ⟨content, (if_neg hfault).trans ((fileContent_eq_ok _ _ _).mpr hcontent), rfl⟩

omit [PythonErrors ε] in
theorem safe_utcNow {post : Except ε String → TreeHost ι → Prop} (s : TreeHost ι)
    (hok : ∀ now s', rely s s' → post (.ok now) s') :
    SafeTree me env rely may post utcNow s :=
  safe_read ha .utcNow trivial s (fun _ s' h₁ h' => hok _ s' (trans_of rely h₁ h'))

end Reads

section Effects

/-- An operation that may fail and changes the tree. -/
theorem safe_effect {post : Except ε α → TreeHost ι → Prop} {x : Act ε (Except PyError α)}
    {s : TreeHost ι} (op : TreeOp) (answer : TreeHost ι → Except PyError α)
    (hx : ∀ post' : Except ε (Except PyError α) → TreeHost ι → Prop,
      (∀ s₁ s', rely s s₁ → rely (handle me env s₁ op).2 s' → post' (.ok (answer s₁)) s') →
        SafeTree me env rely may post' x s)
    (hok : ∀ a s₁ s', rely s s₁ → answer s₁ = .ok a → rely (handle me env s₁ op).2 s' →
      post (.ok a) s')
    (herror : ∀ e s₁ s', rely s s₁ → rely (handle me env s₁ op).2 s' → post (.error e) s') :
    SafeTree me env rely may post (orRaise x) s := by
  apply safe_orRaise
  apply hx
  intro s₁ s' h₁ h'
  cases hanswer : answer s₁ with
  | ok a => exact fun s'' h'' => hok a s₁ s'' h₁ hanswer (trans_of rely h' h'')
  | error e => exact fun s'' h'' => herror _ s₁ s'' h₁ (trans_of rely h' h'')

omit [DecidableEq ι] in
theorem changed_ok {s : TreeHost ι} {tree : Option Tree} (h : (changed s tree).1 = .ok ()) :
    ∃ t, tree = some t ∧ (changed s tree).2 = s.become t := by
  cases tree with
  | none => simp [changed] at h
  | some t => exact ⟨t, rfl, rfl⟩

omit [DecidableEq ι] in
theorem made_cases (env : TreeEnv) (s : TreeHost ι) (dir : Path) (start : String) (value : Node) :
    (∃ e, made env s dir start value = (.error e, s.next)) ∨
    ∃ t, s.tree.node (dir ++ [start ++ env.tempName s.tick]) = none ∧
      s.tree.put (dir ++ [start ++ env.tempName s.tick]) value = some t ∧
      made env s dir start value = (.ok (dir ++ [start ++ env.tempName s.tick]), s.become t) := by
  unfold made
  dsimp only
  split
  · exact Or.inl ⟨_, rfl⟩
  · split
    · exact Or.inl ⟨_, rfl⟩
    · rename_i hnone
      split
      · exact Or.inl ⟨_, rfl⟩
      · rename_i t hput
        exact Or.inr ⟨t, not_not.mp hnone, hput, rfl⟩

theorem safe_mkstemp {post : Except ε Path → TreeHost ι → Prop} (dir : Path) (start : String)
    (s : TreeHost ι) (hmay : ∀ s', rely s s' → may s' (.mkstemp dir start))
    (hok : ∀ s₁ t s', rely s s₁ → s₁.tree.node (dir ++ [start ++ env.tempName s₁.tick]) = none →
      s₁.tree.put (dir ++ [start ++ env.tempName s₁.tick]) (.file []) = some t →
      (handle me env s₁ (.mkstemp dir start)).2 = s₁.become t → rely (s₁.become t) s' →
      post (.ok (dir ++ [start ++ env.tempName s₁.tick])) s')
    (herror : ∀ e s₁ s', rely s s₁ → rely (handle me env s₁ (.mkstemp dir start)).2 s' →
      post (.error e) s') :
    SafeTree me env rely may post (mkstemp dir start) s := by
  apply safe_effect (.mkstemp dir start) (fun s₁ => (made env s₁ dir start (.file [])).1)
    (fun _ h => safe_perform (.mkstemp dir start) s hmay h) _ herror
  intro path s₁ s' h₁ hanswer h'
  rcases made_cases env s₁ dir start (.file []) with ⟨e, hmade⟩ | ⟨t, hnone, hput, hmade⟩
  · rw [hmade] at hanswer
    simp at hanswer
  · rw [hmade] at hanswer
    have hnext : (handle me env s₁ (.mkstemp dir start)).2 = s₁.become t := by
      change (made env s₁ dir start (.file [])).2 = _
      rw [hmade]
    rw [hnext] at h'
    exact Except.ok.inj hanswer ▸ hok s₁ t s' h₁ hnone hput hnext h'

/-- What a write does that does not fail. -/
theorem handle_write_ok {s : TreeHost ι} {path : Path} {value : Bytes}
    (h : (handle me env s (.write path value)).1 = (.ok () : Except PyError Unit)) :
    ∃ t, s.tree.put path (.file value) = some t ∧
      (handle me env s (.write path value)).2 = s.become t := by
  by_cases hfault : env.fault s.tick = true
  · cases hput : s.tree.put path (.file (value.take (env.written s.tick))) with
    | none => simp [handle, hfault, hput] at h
    | some t => simp [handle, hfault, hput] at h
  · have heq : handle me env s (.write path value) =
        (changed s (s.tree.put path (.file value)) : Except PyError Unit × TreeHost ι) :=
      if_neg hfault
    rw [heq] at h ⊢
    exact changed_ok h

/-- What a renaming does that does not fail. -/
theorem handle_replace_ok {s : TreeHost ι} {source target : Path}
    (h : (handle me env s (.replace source target)).1 = (.ok () : Except PyError Unit)) :
    ∃ t, s.tree.move source target = some t ∧
      (handle me env s (.replace source target)).2 = s.become t := by
  by_cases hfault : env.fault s.tick = true
  · have heq : handle me env s (.replace source target) =
        ((.error .osError, s.next) : Except PyError Unit × TreeHost ι) := if_pos hfault
    rw [heq] at h
    simp at h
  · have heq : handle me env s (.replace source target) =
        (changed s (s.tree.move source target) : Except PyError Unit × TreeHost ι) :=
      if_neg hfault
    rw [heq] at h ⊢
    exact changed_ok h

theorem safe_write {post : Except ε Unit → TreeHost ι → Prop} (path : Path) (value : Bytes)
    (s : TreeHost ι) (hmay : ∀ s', rely s s' → may s' (.write path value))
    (hok : ∀ s₁ t s', rely s s₁ → s₁.tree.put path (.file value) = some t →
      (handle me env s₁ (.write path value)).2 = s₁.become t → rely (s₁.become t) s' →
      post (.ok ()) s')
    (herror : ∀ e s₁ s', rely s s₁ → rely (handle me env s₁ (.write path value)).2 s' →
      post (.error e) s') :
    SafeTree me env rely may post (write path value) s := by
  apply safe_effect (.write path value) (fun s₁ => (handle me env s₁ (.write path value)).1)
    (fun _ h => safe_perform (.write path value) s hmay h) _ herror
  intro result s₁ s' h₁ hanswer h'
  obtain ⟨t, hput, hnext⟩ := handle_write_ok hanswer
  rw [hnext] at h'
  exact hok s₁ t s' h₁ hput hnext h'

theorem safe_replace {post : Except ε Unit → TreeHost ι → Prop} (source target : Path)
    (s : TreeHost ι) (hmay : ∀ s', rely s s' → may s' (.replace source target))
    (hok : ∀ s₁ t s', rely s s₁ → s₁.tree.move source target = some t →
      (handle me env s₁ (.replace source target)).2 = s₁.become t → rely (s₁.become t) s' →
      post (.ok ()) s')
    (herror : ∀ e s₁ s', rely s s₁ → rely (handle me env s₁ (.replace source target)).2 s' →
      post (.error e) s') :
    SafeTree me env rely may post (replace source target) s := by
  apply safe_effect (.replace source target)
    (fun s₁ => (handle me env s₁ (.replace source target)).1)
    (fun _ h => safe_perform (.replace source target) s hmay h) _ herror
  intro result s₁ s' h₁ hanswer h'
  obtain ⟨t, hmove, hnext⟩ := handle_replace_ok hanswer
  rw [hnext] at h'
  exact hok s₁ t s' h₁ hmove hnext h'

end Effects

section Only

omit [DecidableEq ι]

theorem only_existing {ok : TreeOp → Prop} (path : Path) (e : PyError) (h : ok (.isDir path)) :
    Only ok (existing path e : Act ε Unit) := by
  apply only_then _ _ (only_perform h)
  intro result
  match result with
  | .ok true => trivial
  | .ok false => trivial
  | .error e' => trivial

theorem only_makeDir {ok : TreeOp → Prop} (path : Path) (hdir : ok (.isDir path))
    (h : ok (.mkdir path)) : Only ok (makeDir path : Act ε Unit) := by
  apply only_then _ _ (only_perform h)
  intro result
  split
  · trivial
  · trivial
  · exact only_existing path _ hdir

/-- Making a directory and its parents touches no other paths. -/
theorem only_makeDirs {ok : TreeOp → Prop} (path : Path) (hdir : ∀ p, p <+: path → ok (.isDir p))
    (h : ∀ p, p <+: path → p ≠ [] → ok (.mkdir p)) : Only ok (makeDirs path : Act ε Unit) := by
  have hup : ∀ up : Path, up.reverse <+: path → Only ok (makeDirsUp up : Act ε Unit) := by
    intro up
    induction up with
    | nil => exact fun _ => trivial
    | cons name up ih =>
      intro hprefix
      apply only_then _ _ (only_perform (h _ hprefix (by simp)))
      intro result
      split
      · trivial
      · apply only_then _ _ (ih _)
        · exact fun _ => only_makeDir _ (hdir _ hprefix) (h _ hprefix (by simp))
        · rw [List.reverse_cons] at hprefix
          exact (List.prefix_append _ _).trans hprefix
      · exact only_existing _ _ (hdir _ hprefix)
  apply hup
  rw [List.reverse_reverse]

omit [PythonErrors ε] in
theorem only_removeTree {ok : TreeOp → Prop} (dir : Path) (hscan : ok (.scan dir))
    (h : ∀ rest, ok (.remove (dir ++ rest))) : Only ok (removeTree dir : Act ε Unit) := by
  apply only_then _ _ (only_perform hscan)
  intro result
  cases result with
  | error e => trivial
  | ok names =>
    change Only ok (removeTree.removeAll dir ((sortPaths names).reverse ++ [[]]) : Act ε Unit)
    induction (sortPaths names).reverse ++ [[]] with
    | nil => trivial
    | cons rest more ih => exact only_then _ _ (only_perform (h rest)) (fun _ => ih)

end Only

end Decillion.TreeRules
