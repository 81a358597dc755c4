import Decillion.Executions
import Decillion.HostRules

/-!
Executions on a host on which nothing fails. Every operation answers what the files hold,
and a file is replaced in five operations that leave no temporary file behind.
-/
namespace Decillion.HostExecutions

open ByteText Primitives Programs PyErrors HostSystem HostRules Executions

variable {F α : Type} {env : Env F}

/-- The host some operations later. -/
def after (s : Host) (n : ℕ) : Host := { s with tick := s.tick + n }

/-- The host some operations later, with one more file. -/
def stored (s : Host) (n : ℕ) (path : Path) (value : Bytes) : Host :=
  { s with files := Function.update s.files path (some value), tick := s.tick + n }

@[simp] theorem stored_files (s : Host) (n : ℕ) (path : Path) (value : Bytes) :
    (stored s n path value).files = Function.update s.files path (some value) := rfl

theorem stored_self (s : Host) (n : ℕ) (path : Path) (value : Bytes) :
    (stored s n path value).files path = some value := by
  rw [stored_files, Function.update_self]

@[simp] theorem after_files (s : Host) (n : ℕ) : (after s n).files = s.files := rfl

theorem reaches_orRaise {n : ℕ} (x : Act F PyError (Except PyError α)) (a : α) {s s' : Host}
    (h : Reaches (handle env) n x s (.done (.ok (.ok a))) s') :
    Reaches (handle env) n (orRaise x) s (.done (.ok a)) s' :=
  Reaches.trans (m := 0) (h.bind _) ⟨rfl, rfl⟩

variable (hfault : ∀ tick, env.fault tick = false)
include hfault

theorem reaches_pathExists (path : Path) (s : Host) :
    Reaches (handle env) 1 (pathExists path : Act F PyError Bool) s
      (.done (.ok (s.files path).isSome)) (after s 1) := by
  apply reaches_orRaise
  refine ⟨?_, rfl⟩
  simp only [handle, hfault]
  rfl

theorem reaches_readBytes (path : Path) (value : Bytes) (s : Host)
    (hvalue : s.files path = some value) :
    Reaches (handle env) 1 (readBytes path : Act F PyError Bytes) s
      (.done (.ok value)) (after s 1) := by
  apply reaches_orRaise
  refine ⟨?_, rfl⟩
  simp only [handle, hfault, hvalue]
  rfl

theorem reaches_urandom (count : ℕ) (s : Host) :
    Reaches (handle env) 1 (urandom count : Act F PyError Bytes) s
      (.done (.ok (env.random s.tick count))) (after s 1) := by
  apply reaches_orRaise
  refine ⟨?_, rfl⟩
  simp only [handle, hfault]
  rfl

theorem reaches_readBlock (block : Bytes) (s : Host) :
    Reaches (handle env) 1 (readBlock block : Act F PyError Bytes) s
      (.done (.ok block)) (after s 1) := by
  apply reaches_orRaise
  refine ⟨?_, rfl⟩
  simp only [handle, hfault]
  rfl

/-- A replacement takes five operations. -/
theorem reaches_replaceFile (start : String) (target : Path) (value : Bytes) (s : Host)
    (hstart : start.toList.head? = some '.') (htarget : isTemporary target = false)
    (habsent : s.files (target.dropLast ++ [start ++ env.tempName s.tick]) = none) :
    Reaches (handle env) 5 (replaceFile start target value : Act F PyError Unit) s
      (.done (.ok ())) (stored s 5 target value) := by
  let temporary := target.dropLast ++ [start ++ env.tempName s.tick]
  have htemp : isTemporary temporary = true := isTemporary_mkstemp _ _ _ hstart
  have hne : target ≠ temporary := by
    rintro h
    rw [h, htemp] at htarget
    simp at htarget
  have hmade : Reaches (handle env) 1 (mkstemp target.dropLast start : Act F PyError Path) s
      (.done (.ok temporary)) (s.put temporary (some [])) := by
    apply reaches_orRaise
    change _ = _ ∧ _ = _
    simp [handle, hfault, habsent, temporary]
    rfl
  have hwritten : ∀ s', Reaches (handle env) 1 (writeTemp temporary value : Act F PyError Unit) s'
      (.done (.ok ())) (s'.put temporary (some value)) := by
    intro s'
    apply reaches_orRaise
    change _ = _ ∧ _ = _
    simp [handle, hfault]
    rfl
  have hchmod : ∀ s', Reaches (handle env) 1 (chmod temporary : Act F PyError Unit) s'
      (.done (.ok ())) s'.next := by
    intro s'
    apply reaches_orRaise
    change _ = _ ∧ _ = _
    simp [handle, hfault]
    rfl
  have hreplaced : ∀ s', s'.files temporary = some value →
      Reaches (handle env) 1 (replace temporary target : Act F PyError Unit) s'
        (.done (.ok ())) (moved s' temporary target value) := by
    intro s' hvalue
    apply reaches_orRaise
    change _ = _ ∧ _ = _
    simp [handle, hfault, hvalue, moved]
    rfl
  have hremoved : ∀ s', s'.files temporary = none →
      Reaches (handle env) 1 (removeTemporary temporary : Act F PyError Unit) s'
        (.done (.ok ())) (after s' 1) := by
    intro s' hnone
    change Reaches (handle env) 0 _ _ _ _
    simp only [handle, hfault, hnone]
    exact ⟨rfl, rfl⟩
  have hfiles : Function.update (Function.update (Function.update (Function.update s.files temporary
      (some [])) temporary (some value)) temporary none) target (some value) =
        Function.update s.files target (some value) := by
    have hback : Function.update s.files temporary none = s.files := by
      rw [← habsent]
      exact Function.update_eq_self _ _
    rw [Function.update_idem, Function.update_idem, hback]
  have hstored : stored s 5 target value = after (moved (((s.put temporary (some [])).put temporary
      (some value)).next) temporary target value) 1 := by
    rw [stored, ← hfiles]
    rfl
  have hlast : (moved (((s.put temporary (some [])).put temporary (some value)).next) temporary
      target value).files temporary = none := by
    exact (Function.update_of_ne hne.symm _ _).trans (Function.update_self _ _ _)
  rw [hstored]
  apply reaches_then _ _ temporary hmade
  apply reaches_tryFinally _ _ () _ (hremoved _ hlast)
  apply reaches_then _ _ () (hwritten _)
  apply reaches_then _ _ () (hchmod _)
  exact hreplaced _ (Function.update_self _ _ _)

end Decillion.HostExecutions
