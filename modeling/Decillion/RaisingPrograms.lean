import Mathlib.Tactic.Common

/-!
Computations that change a state and may raise an exception. The state keeps what has been
changed before the exception. A computation returns if both of its parts do, and a property
that every part maintains is maintained by the whole.
-/
namespace Decillion.RaisingPrograms

abbrev Raising (ε σ : Type) := ExceptT ε (StateM σ)

variable {ε σ α β : Type} {x : Raising ε σ α} {f : α → Raising ε σ β} {s s' : σ}

/-- A computation that changes the state and returns a value. -/
def change (g : σ → α × σ) : Raising ε σ α := fun s => (.ok (g s).1, (g s).2)

theorem bind_ok {a : α} (h : x s = (.ok a, s')) : (x >>= f) s = f a s' := by
  simp only [bind, ExceptT.bind, ExceptT.mk, ExceptT.bindCont, StateT.bind, h]

theorem bind_error {e : ε} (h : x s = (.error e, s')) : (x >>= f) s = (.error e, s') := by
  simp only [bind, ExceptT.bind, ExceptT.mk, ExceptT.bindCont, StateT.bind, h]
  rfl

theorem bind_change (g : σ → α × σ) :
    ((change g : Raising ε σ α) >>= f) s = f (g s).1 (g s).2 :=
  bind_ok rfl

theorem bind_lift_ok (a : α) :
    ((liftM (Except.ok a : Except ε α) : Raising ε σ α) >>= f) s = f a s :=
  bind_ok rfl

theorem bind_lift_error (e : ε) :
    ((liftM (Except.error e : Except ε α) : Raising ε σ α) >>= f) s = (.error e, s) :=
  bind_error rfl

theorem bind_get {f : σ → Raising ε σ β} : ((get : Raising ε σ σ) >>= f) s = f s s :=
  bind_ok rfl

/-- Both parts of a computation that returns have returned. -/
theorem returned_bind {b : β} {s'' : σ} (h : (x >>= f) s = (.ok b, s'')) :
    ∃ a s', x s = (.ok a, s') ∧ f a s' = (.ok b, s'') := by
  rcases hrun : x s with ⟨e | a, s'⟩
  · rw [bind_error hrun] at h
    cases h
  · rw [bind_ok hrun] at h
    exact ⟨a, s', rfl, h⟩

theorem returned_bind_lift {result : Except ε α} {b : β} {s'' : σ}
    (h : ((liftM result : Raising ε σ α) >>= f) s = (.ok b, s'')) :
    ∃ a, result = .ok a ∧ f a s = (.ok b, s'') := by
  cases result with
  | error e =>
    rw [bind_lift_error] at h
    cases h
  | ok a =>
    rw [bind_lift_ok] at h
    exact ⟨a, rfl, h⟩

/-- A property of the state still holds after a computation, however it ends. -/
def Maintains (p : σ → Prop) (x : Raising ε σ α) : Prop := ∀ s, p s → p (x s).2

section Maintains

variable {p : σ → Prop}

theorem maintains_of_run {result : Except ε α} (h : x s = (result, s')) (hx : Maintains p x)
    (hs : p s) : p s' := by
  have hkept := hx s hs
  rwa [h] at hkept

theorem maintains_bind (hx : Maintains p x) (hf : ∀ a, Maintains p (f a)) :
    Maintains p (x >>= f) := by
  intro s hs
  rcases hrun : x s with ⟨e | a, s'⟩
  · rw [bind_error hrun]
    exact maintains_of_run hrun hx hs
  · rw [bind_ok hrun]
    exact hf a s' (maintains_of_run hrun hx hs)

theorem maintains_get {f : σ → Raising ε σ β} (hf : ∀ s, p s → p (f s s).2) :
    Maintains p ((get : Raising ε σ σ) >>= f) := by
  intro s hs
  rw [bind_get]
  exact hf s hs

theorem maintains_pure (a : α) : Maintains p (pure a : Raising ε σ α) := fun _ hs => hs

theorem maintains_throw (e : ε) : Maintains p (throw e : Raising ε σ α) := fun _ hs => hs

theorem maintains_lift (result : Except ε α) :
    Maintains p (liftM result : Raising ε σ α) := by
  intro s hs
  cases result with
  | ok a => exact hs
  | error e => exact hs

theorem maintains_change {g : σ → α × σ} (hg : ∀ s, p s → p (g s).2) :
    Maintains p (change g : Raising ε σ α) := fun s hs => hg s hs

end Maintains

/-- What a computation returns has a property. -/
def Yields (q : α → Prop) (x : Raising ε σ α) : Prop := ∀ s a, (x s).1 = .ok a → q a

theorem yields_bind {q : β → Prop} (hf : ∀ a, Yields q (f a)) : Yields q (x >>= f) := by
  intro s b h
  rcases hrun : x s with ⟨e | a, s'⟩
  · rw [bind_error hrun] at h
    cases h
  · rw [bind_ok hrun] at h
    exact hf a s' b h

theorem yields_throw {q : α → Prop} (e : ε) : Yields q (throw e : Raising ε σ α) := by
  intro s a h
  cases h

end Decillion.RaisingPrograms
