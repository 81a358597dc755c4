import Decillion.TreeRules

/-!
The paths that an operation on a directory tree can touch. All other nodes stay, whether the
operation fails or not, and only the making and the unlinking of a file change who is inside.
A program that touches nothing at a path leaves the node there.
-/
namespace Decillion.TreeFrames

open ByteText Interleavings Programs PyErrors TreeRules TreeSystem Trees

variable {ι : Type}

def Touches (env : TreeEnv) : TreeOp → Path → Prop
  | .mkdir path, p => p = path
  | .createExclusive path, p => p = path
  | .mkdtemp dir start, p => ∃ tick, p = dir ++ [start ++ env.tempName tick]
  | .mkstemp dir start, p => ∃ tick, p = dir ++ [start ++ env.tempName tick]
  | .write path _, p => p = path
  | .replace source target, p => source <+: p ∨ target <+: p
  | .unlink path, p => p = path
  | .remove path, p => p = path
  | .edit path _, p => p = path
  | _, _ => False

/-- Operations that make or unlink a file under the eyes of the others. -/
def Marks : TreeOp → Path → Prop
  | .createExclusive path, p => p = path
  | .unlink path, p => p = path
  | _, _ => False

variable {t t' : Tree} {path p : Path}

/-- What is put somewhere is put into a directory. -/
theorem put_parent {value : Node} (h : t.put path value = some t') :
    t.node path.dropLast = some .dir := by
  unfold Tree.put at h
  split at h
  · rename_i hput
    exact hput.2.1
  · cases h

theorem put_elsewhere {value : Node} (h : t.put path value = some t') (hp : p ≠ path) :
    t'.node p = t.node p := by
  rw [put_node h, Function.update_of_ne hp]

theorem erase_elsewhere (h : t.erase path = some t') (hp : p ≠ path) :
    t'.node p = t.node p := by
  rw [erase_node h, Function.update_of_ne hp]

theorem move_elsewhere {source target : Path} (h : t.move source target = some t')
    (hp : ¬ (source <+: p ∨ target <+: p)) : t'.node p = t.node p := by
  rw [not_or] at hp
  rw [move_node h, movedNode_of_not hp.2 hp.1]

/-- A change keeps the nodes that the new tree keeps. -/
theorem changed_elsewhere {s : TreeHost ι} {tree : Option Tree}
    (h : ∀ t, tree = some t → t.node p = s.tree.node p) :
    (changed s tree).2.tree.node p = s.tree.node p := by
  cases tree with
  | none => rfl
  | some t => exact h t rfl

theorem changed_inside {s : TreeHost ι} {tree : Option Tree} :
    (changed s tree).2.inside = s.inside := by
  cases tree with
  | none => rfl
  | some t => rfl

theorem made_elsewhere {env : TreeEnv} {s : TreeHost ι} {dir : Path} {start : String}
    {value : Node} (hp : ¬ ∃ tick, p = dir ++ [start ++ env.tempName tick]) :
    (made env s dir start value).2.tree.node p = s.tree.node p := by
  rcases made_cases env s dir start value with ⟨e, hmade⟩ | ⟨t, -, hput, hmade⟩
  · rw [hmade]
    rfl
  · rw [hmade]
    exact put_elsewhere hput (fun hpath => hp ⟨s.tick, hpath⟩)

theorem made_inside {env : TreeEnv} {s : TreeHost ι} {dir : Path} {start : String}
    {value : Node} : (made env s dir start value).2.inside = s.inside := by
  rcases made_cases env s dir start value with ⟨e, hmade⟩ | ⟨t, -, -, hmade⟩
  · rw [hmade]
    rfl
  · rw [hmade]
    rfl

theorem ite_node {α : Type} {s : TreeHost ι} {c : Prop} [Decidable c] {x y : α × TreeHost ι}
    (hx : x.2.tree.node p = s.tree.node p) (hy : y.2.tree.node p = s.tree.node p) :
    (if c then x else y).2.tree.node p = s.tree.node p := by
  split
  · exact hx
  · exact hy

theorem ite_inside {α : Type} {s : TreeHost ι} {c : Prop} [Decidable c] {x y : α × TreeHost ι}
    (hx : x.2.inside p = s.inside p) (hy : y.2.inside p = s.inside p) :
    (if c then x else y).2.inside p = s.inside p := by
  split
  · exact hx
  · exact hy

variable [DecidableEq ι] (me : ι) (env : TreeEnv) (s : TreeHost ι)

/-- The new lock file is the first node at its path. -/
theorem createExclusive_cases (path : Path) :
    (∃ e, handle me env s (.createExclusive path) =
      ((.error e, s.next) : Except PyError Unit × TreeHost ι)) ∨
    ∃ t, s.tree.node path = none ∧ s.tree.put path (.file []) = some t ∧
      handle me env s (.createExclusive path) = ((.ok (), { s with
        tree := t
        inside := Function.update s.inside path (me :: s.inside path)
        tick := s.tick + 1 }) : Except PyError Unit × TreeHost ι) := by
  dsimp only [handle]
  split
  · exact Or.inl ⟨_, rfl⟩
  · split
    · exact Or.inl ⟨_, rfl⟩
    · rename_i hnone
      split
      · exact Or.inl ⟨_, rfl⟩
      · rename_i t hput
        exact Or.inr ⟨t, not_not.mp hnone, hput, rfl⟩

theorem unlink_cases (path : Path) :
    (∃ e, handle me env s (.unlink path) =
      ((.error e, s.next) : Except PyError Unit × TreeHost ι)) ∨
    ∃ t, s.tree.erase path = some t ∧
      handle me env s (.unlink path) = ((.ok (), { s with
        tree := t
        inside := Function.update s.inside path ((s.inside path).erase me)
        tick := s.tick + 1 }) : Except PyError Unit × TreeHost ι) := by
  dsimp only [handle]
  split
  · exact Or.inl ⟨_, rfl⟩
  · split
    · exact Or.inl ⟨_, rfl⟩
    · exact Or.inl ⟨_, rfl⟩
    · split
      · exact Or.inl ⟨_, rfl⟩
      · rename_i t herase
        exact Or.inr ⟨t, herase, rfl⟩

theorem replace_cases (source target : Path) :
    (∃ e, handle me env s (.replace source target) =
      ((.error e, s.next) : Except PyError Unit × TreeHost ι)) ∨
    ∃ t, handle me env s (.replace source target) =
      ((.ok (), s.become t) : Except PyError Unit × TreeHost ι) := by
  by_cases hfault : env.fault s.tick = true
  · exact Or.inl ⟨_, if_pos hfault⟩
  · have heq : handle me env s (.replace source target) =
        (changed s (s.tree.move source target) : Except PyError Unit × TreeHost ι) :=
      if_neg hfault
    rw [heq]
    cases s.tree.move source target with
    | none => exact Or.inl ⟨_, rfl⟩
    | some t => exact Or.inr ⟨t, rfl⟩

theorem write_cases (path : Path) (value : Bytes) :
    (handle me env s (.write path value)).2 = s.next ∨
    ∃ t value', s.tree.put path (.file value') = some t ∧
      (handle me env s (.write path value)).2 = s.become t := by
  by_cases hfault : env.fault s.tick = true
  · cases hput : s.tree.put path (.file (value.take (env.written s.tick))) with
    | none => simp [handle, hfault, hput]
    | some t => exact Or.inr ⟨t, _, hput, by simp [handle, hfault, hput]⟩
  · have heq : handle me env s (.write path value) =
        (changed s (s.tree.put path (.file value)) : Except PyError Unit × TreeHost ι) :=
      if_neg hfault
    rw [heq]
    cases hput : s.tree.put path (.file value) with
    | none => exact Or.inl rfl
    | some t => exact Or.inr ⟨t, _, hput, rfl⟩

/-- What an operation does not touch stays. -/
theorem handle_node (op : TreeOp) (p : Path) (h : ¬ Touches env op p) :
    (handle me env s op).2.tree.node p = s.tree.node p := by
  cases op with
  | mkdir path =>
    refine ite_node rfl (ite_node rfl (ite_node rfl ?_))
    exact changed_elsewhere (fun t ht => put_elsewhere ht h)
  | createExclusive path =>
    rcases createExclusive_cases me env s path with ⟨e, hmade⟩ | ⟨t, -, hput, hmade⟩
    · rw [hmade]
      rfl
    · rw [hmade]
      exact put_elsewhere hput h
  | mkdtemp dir start => exact made_elsewhere h
  | mkstemp dir start => exact made_elsewhere h
  | write path value =>
    rcases write_cases me env s path value with hnext | ⟨t, value', hput, hnext⟩
    · rw [hnext]
      rfl
    · rw [hnext]
      exact put_elsewhere hput h
  | replace source target =>
    exact ite_node rfl (changed_elsewhere (fun t ht => move_elsewhere ht h))
  | unlink path =>
    rcases unlink_cases me env s path with ⟨e, hdone⟩ | ⟨t, herase, hdone⟩
    · rw [hdone]
      rfl
    · rw [hdone]
      exact erase_elsewhere herase h
  | remove path => exact ite_node rfl (changed_elsewhere (fun t ht => erase_elsewhere ht h))
  | edit path value =>
    refine ite_node rfl ?_
    cases value with
    | none => exact changed_elsewhere (fun t ht => erase_elsewhere ht h)
    | some node => exact changed_elsewhere (fun t ht => put_elsewhere ht h)
  | _ => rfl

theorem handle_inside (op : TreeOp) (p : Path) (h : ¬ Marks op p) :
    (handle me env s op).2.inside p = s.inside p := by
  cases op with
  | mkdir path =>
    exact ite_inside rfl (ite_inside rfl (ite_inside rfl (congrFun changed_inside p)))
  | createExclusive path =>
    rcases createExclusive_cases me env s path with ⟨e, hmade⟩ | ⟨t, -, -, hmade⟩
    · rw [hmade]
      rfl
    · rw [hmade]
      exact Function.update_of_ne h _ _
  | mkdtemp dir start => exact congrFun made_inside p
  | mkstemp dir start => exact congrFun made_inside p
  | write path value =>
    rcases write_cases me env s path value with hnext | ⟨t, value', -, hnext⟩
    · rw [hnext]
      rfl
    · rw [hnext]
      rfl
  | replace source target => exact ite_inside rfl (congrFun changed_inside p)
  | unlink path =>
    rcases unlink_cases me env s path with ⟨e, hdone⟩ | ⟨t, -, hdone⟩
    · rw [hdone]
      rfl
    · rw [hdone]
      exact Function.update_of_ne h _ _
  | remove path => exact ite_inside rfl (congrFun changed_inside p)
  | edit path value =>
    refine ite_inside rfl ?_
    cases value with
    | none => exact congrFun changed_inside p
    | some node => exact congrFun changed_inside p
  | _ => rfl

omit [DecidableEq ι] in
theorem ite_tick {α : Type} {c : Prop} [Decidable c] {x y : α × TreeHost ι} {n : ℕ}
    (hx : x.2.tick = n) (hy : y.2.tick = n) : (if c then x else y).2.tick = n := by
  split
  · exact hx
  · exact hy

omit [DecidableEq ι] in
theorem changed_tick (tree : Option Tree) : (changed s tree).2.tick = s.tick + 1 := by
  cases tree with
  | none => rfl
  | some t => rfl

omit [DecidableEq ι] in
theorem made_tick (dir : Path) (start : String) (value : Node) :
    (made env s dir start value).2.tick = s.tick + 1 := by
  rcases made_cases env s dir start value with ⟨e, hmade⟩ | ⟨t, -, -, hmade⟩
  · rw [hmade]
    rfl
  · rw [hmade]
    rfl

/-- Every operation takes one tick. -/
theorem handle_tick (op : TreeOp) : (handle me env s op).2.tick = s.tick + 1 := by
  cases op with
  | mkdir path => exact ite_tick rfl (ite_tick rfl (ite_tick rfl (changed_tick s _)))
  | createExclusive path =>
    rcases createExclusive_cases me env s path with ⟨e, hmade⟩ | ⟨t, -, -, hmade⟩
    · rw [hmade]
      rfl
    · rw [hmade]
  | mkdtemp dir start => exact made_tick env s dir start .dir
  | mkstemp dir start => exact made_tick env s dir start (.file [])
  | write path value =>
    rcases write_cases me env s path value with hnext | ⟨t, value', -, hnext⟩
    · rw [hnext]
      rfl
    · rw [hnext]
      rfl
  | replace source target => exact ite_tick rfl (changed_tick s _)
  | unlink path =>
    rcases unlink_cases me env s path with ⟨e, hdone⟩ | ⟨t, -, hdone⟩
    · rw [hdone]
      rfl
    · rw [hdone]
  | remove path => exact ite_tick rfl (changed_tick s _)
  | edit path value =>
    refine ite_tick rfl ?_
    cases value with
    | none => exact changed_tick s _
    | some node => exact changed_tick s _
  | _ => rfl

/-- The same names and clocks, and no failures. -/
def quietly (env : TreeEnv) : TreeEnv := { env with fault := fun _ => false }

theorem handle_quietly (op : TreeOp) (h : env.fault s.tick = false) :
    handle me env s op = handle me (quietly env) s op := by
  cases op <;> simp only [handle, made, quietly, h] <;> rfl

theorem mkdir_cases (path : Path) : (handle me env s (.mkdir path)).2 = s.next ∨
    ∃ t, s.tree.node path = none ∧ s.tree.put path .dir = some t ∧
      (handle me env s (.mkdir path)).2 = s.become t := by
  by_cases hfault : env.fault s.tick = true
  · exact Or.inl (congrArg Prod.snd (if_pos hfault))
  by_cases hthere : s.tree.node path ≠ none
  · exact Or.inl (congrArg Prod.snd ((if_neg hfault).trans (if_pos hthere)))
  by_cases hparent : s.tree.node path.dropLast = none
  · exact Or.inl (congrArg Prod.snd
      ((if_neg hfault).trans ((if_neg hthere).trans (if_pos hparent))))
  have heq : handle me env s (.mkdir path) =
      (changed s (s.tree.put path .dir) : Except PyError Unit × TreeHost ι) :=
    (if_neg hfault).trans ((if_neg hthere).trans (if_neg hparent))
  rw [heq]
  cases hput : s.tree.put path .dir with
  | none => exact Or.inl rfl
  | some t => exact Or.inr ⟨t, not_not.mp hthere, rfl, rfl⟩

/-- A directory that is there is not made once more. -/
theorem handle_mkdir_present {path : Path} (h : s.tree.node path ≠ none) :
    (handle me env s (.mkdir path)).2 = s.next := by
  dsimp only [handle]
  split
  · rfl
  · rfl

end Decillion.TreeFrames
