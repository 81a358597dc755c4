import Decillion.Interleavings

/-!
The evaluation of a program that nothing interrupts: what it returns and the state in which
it ends. A handler is a function, so there is one result. Sequencing evaluates the first
action and then the second one in the state that is left.
-/
namespace Decillion.Evaluations

open Interleavings Programs

variable {Op α β ε σ : Type} {Resp : Op → Type} (handler : Handler Op Resp σ)

def eval : Prog Op Resp α → σ → α × σ
  | .done a, s => (a, s)
  | .call op next, s => eval (next (handler s op).1) (handler s op).2

variable {handler}

theorem eval_bind (p : Prog Op Resp α) (f : α → Prog Op Resp β) (s : σ) :
    eval handler (p.bind f) s = eval handler (f (eval handler p s).1) (eval handler p s).2 := by
  induction p generalizing s with
  | done a => rfl
  | call op next ih => exact ih _ _

theorem eval_then {x : Action Op Resp ε α} {f : α → Action Op Resp ε β} {s s' : σ} {a : α}
    (h : eval handler x s = (.ok a, s')) :
    eval handler (x >>= f : Action Op Resp ε β) s = eval handler (f a) s' := by
  refine (eval_bind _ _ s).trans ?_
  rw [h]
  rfl

/-- An exception of the first action is the result of both. -/
theorem eval_then_error {x : Action Op Resp ε α} {f : α → Action Op Resp ε β} {s s' : σ} {e : ε}
    (h : eval handler x s = (.error e, s')) :
    eval handler (x >>= f : Action Op Resp ε β) s = (.error e, s') := by
  refine (eval_bind _ _ s).trans ?_
  rw [h]
  rfl

/-- Both actions return when the sequence does. -/
theorem eval_then_ok {x : Action Op Resp ε α} {f : α → Action Op Resp ε β} {s s' : σ} {b : β}
    (h : eval handler (x >>= f : Action Op Resp ε β) s = (.ok b, s')) :
    ∃ a s₁, eval handler x s = (.ok a, s₁) ∧ eval handler (f a) s₁ = (.ok b, s') := by
  have heval := (eval_bind _ _ s).symm.trans h
  cases hresult : (eval handler x s).1 with
  | error e =>
    rw [hresult] at heval
    cases congrArg Prod.fst heval
  | ok a =>
    rw [hresult] at heval
    exact ⟨a, _, Prod.ext hresult rfl, heval⟩

/-- One of the two actions raises when the sequence does. -/
theorem eval_then_raises {x : Action Op Resp ε α} {f : α → Action Op Resp ε β} {s s' : σ} {e : ε}
    (h : eval handler (x >>= f : Action Op Resp ε β) s = (.error e, s')) :
    eval handler x s = (.error e, s') ∨
      ∃ a s₁, eval handler x s = (.ok a, s₁) ∧ eval handler (f a) s₁ = (.error e, s') := by
  have heval := (eval_bind _ _ s).symm.trans h
  cases hresult : (eval handler x s).1 with
  | error e' =>
    rw [hresult] at heval
    obtain rfl : e' = e := Except.error.inj (congrArg Prod.fst heval)
    have hstate : (eval handler x s).2 = s' := congrArg (fun pair => pair.2) heval
    exact Or.inl (Prod.ext hresult hstate)
  | ok a =>
    rw [hresult] at heval
    exact Or.inr ⟨a, _, Prod.ext hresult rfl, heval⟩

/-- What every operation keeps that a program may make is kept by the program. -/
theorem eval_only {step : σ → σ → Prop} [IsPreorder σ step] {ok : Op → Prop}
    (hstep : ∀ s op, ok op → step s (handler s op).2) (p : Prog Op Resp α) (s : σ)
    (h : Only ok p) : step s (eval handler p s).2 := by
  induction p generalizing s with
  | done a => exact refl_of step s
  | call op next ih => exact trans_of step (hstep s op h.1) (ih _ _ (h.2 _))

theorem eval_tryFinally {body : Action Op Resp ε α} {finish : Action Op Resp ε Unit}
    {s t s'' : σ} {result : Except ε α} (h : eval handler body s = (result, t))
    (hfinish : eval handler finish t = (.ok (), s'')) :
    eval handler (tryFinally body finish) s = (result, s'') := by
  refine (eval_bind _ _ s).trans ?_
  rw [h]
  refine (eval_bind _ _ t).trans ?_
  rw [hfinish]
  rfl

theorem eval_perform (op : Op) (s : σ) :
    eval handler (perform op : Action Op Resp ε (Resp op)) s =
      (.ok (handler s op).1, (handler s op).2) := rfl

/-- What holds at the end of a safe call holds when nothing interrupts it. -/
theorem eval_safe {rely keeps : σ → σ → Prop} {may : σ → Op → Prop} [Std.Refl rely]
    {post : α → σ → Prop} (p : Prog Op Resp α) (s : σ) (hkeeps : ∀ s s', keeps s s')
    (h : Safe handler rely keeps may post p s) :
    post (eval handler p s).1 (eval handler p s).2 := by
  induction p generalizing s with
  | done a => exact h s (Std.Refl.refl s)
  | call op next ih => exact ih _ _ ((h s (Std.Refl.refl s)).2 (hkeeps _ _))

end Decillion.Evaluations
