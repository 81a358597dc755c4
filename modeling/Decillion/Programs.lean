import Mathlib.Order.Basic
import Mathlib.Tactic.Common

/-!
Programs that call the operations of a system one after another. A handler answers every
operation and changes the state; a run may be cut off between any two operations. The
rule `Holds` gives the weakest precondition of a program: a crash condition in every
state in which the run can be cut off and a postcondition on its result.
-/
namespace Decillion.Programs

inductive Prog (Op : Type) (Resp : Op → Type) (α : Type) where
  | done (a : α)
  | call (op : Op) (next : Resp op → Prog Op Resp α)

variable {Op : Type} {Resp : Op → Type} {α β ε σ : Type}

def Prog.bind (p : Prog Op Resp α) (f : α → Prog Op Resp β) : Prog Op Resp β :=
  match p with
  | .done a => f a
  | .call op next => .call op (fun resp => (next resp).bind f)

instance : Monad (Prog Op Resp) where
  pure := Prog.done
  bind := Prog.bind

/-- Programs that may end with an exception. -/
abbrev Action (Op : Type) (Resp : Op → Type) (ε α : Type) := ExceptT ε (Prog Op Resp) α

/-- An operation that raises no exception. -/
def perform (op : Op) : Action Op Resp ε (Resp op) :=
  Prog.call op (fun resp => Prog.done (.ok resp))

/-- The result of an operation that may raise one. -/
def fromExcept (result : Except ε α) : Action Op Resp ε α := Prog.done result

/-- `try: body finally: finish`; an exception of `finish` replaces the one of the body. -/
def tryFinally (body : Action Op Resp ε α) (finish : Action Op Resp ε Unit) :
    Action Op Resp ε α :=
  Prog.bind body (fun result => Prog.bind finish (fun
    | .ok () => Prog.done result
    | .error e => Prog.done (.error e)))

/-- Every exception of an action is turned into another one. -/
def mapError {ε' : Type} (f : ε → ε') (x : Action Op Resp ε α) : Action Op Resp ε' α :=
  Prog.bind x (fun result => Prog.done (result.mapError f))

abbrev Handler (Op : Type) (Resp : Op → Type) (σ : Type) := σ → (op : Op) → Resp op × σ

/-- Every operation that a program can make satisfies a condition. -/
def Only (ok : Op → Prop) : Prog Op Resp α → Prop
  | .done _ => True
  | .call op next => ok op ∧ ∀ resp, Only ok (next resp)

section Only

variable {ok : Op → Prop}

theorem only_bind (p : Prog Op Resp α) (f : α → Prog Op Resp β) (h : Only ok p)
    (h' : ∀ a, Only ok (f a)) : Only ok (p.bind f) := by
  induction p with
  | done a => exact h' a
  | call op next ih => exact ⟨h.1, fun resp => ih resp (h.2 resp)⟩

theorem only_then (x : Action Op Resp ε α) (f : α → Action Op Resp ε β) (h : Only ok x)
    (h' : ∀ a, Only ok (f a)) : Only ok (x >>= f : Action Op Resp ε β) := by
  apply only_bind _ _ h
  intro result
  cases result with
  | ok a => exact h' a
  | error e => trivial

theorem only_mono {ok' : Op → Prop} {p : Prog Op Resp α} (h : Only ok p)
    (hmono : ∀ op, ok op → ok' op) : Only ok' p := by
  induction p with
  | done a => trivial
  | call op next ih => exact ⟨hmono op h.1, fun resp => ih resp (h.2 resp)⟩

theorem only_perform {op : Op} (h : ok op) :
    Only ok (perform op : Action Op Resp ε (Resp op)) := ⟨h, fun _ => trivial⟩

end Only

variable (handler : Handler Op Resp σ)

/-- A run that is cut off once `budget` operations have been made; no result then. -/
def run : ℕ → Prog Op Resp α → σ → Option α × σ
  | _, .done a, s => (some a, s)
  | 0, .call _ _, s => (none, s)
  | budget + 1, .call op next, s => run budget (next (handler s op).1) (handler s op).2

/-- The crash condition holds at every cut and the postcondition at the end. -/
def Holds (crash : σ → Prop) (post : α → σ → Prop) : Prog Op Resp α → σ → Prop
  | .done a, s => post a s
  | .call op next, s =>
      crash s ∧ Holds crash post (next (handler s op).1) (handler s op).2

variable {handler} {crash : σ → Prop}

theorem run_holds (post : α → σ → Prop) (p : Prog Op Resp α) (s : σ) (budget : ℕ)
    (h : Holds handler crash post p s) :
    (∃ a, (run handler budget p s).1 = some a ∧ post a (run handler budget p s).2) ∨
      ((run handler budget p s).1 = none ∧ crash (run handler budget p s).2) := by
  induction p generalizing s budget with
  | done a =>
    cases budget <;> exact Or.inl ⟨a, rfl, h⟩
  | call op next ih =>
    cases budget with
    | zero => exact Or.inr ⟨rfl, h.1⟩
    | succ budget => exact ih _ _ budget h.2

/-- Weaker conditions, at the cuts and at the end. -/
theorem holds_imp {crash' : σ → Prop} {post post' : α → σ → Prop} (p : Prog Op Resp α) (s : σ)
    (h : Holds handler crash post p s) (hcrash : ∀ s, crash s → crash' s)
    (hpost : ∀ a s, post a s → post' a s) : Holds handler crash' post' p s := by
  induction p generalizing s with
  | done a => exact hpost a s h
  | call op next ih => exact ⟨hcrash s h.1, ih _ _ h.2⟩

theorem holds_mono {post post' : α → σ → Prop} (p : Prog Op Resp α) (s : σ)
    (h : Holds handler crash post p s) (hpost : ∀ a s, post a s → post' a s) :
    Holds handler crash post' p s := holds_imp p s h (fun _ hs => hs) hpost

theorem holds_bind {post : β → σ → Prop} (p : Prog Op Resp α) (f : α → Prog Op Resp β) (s : σ)
    (h : Holds handler crash (fun a s => Holds handler crash post (f a) s) p s) :
    Holds handler crash post (p.bind f) s := by
  induction p generalizing s with
  | done a => exact h
  | call op next ih => exact ⟨h.1, ih _ _ h.2⟩

/-- Sequencing: an exception of the first action is the result of both. -/
theorem holds_then {post : Except ε β → σ → Prop} (x : Action Op Resp ε α)
    (f : α → Action Op Resp ε β) (s : σ)
    (h : Holds handler crash (fun result s =>
      match result with
      | .ok a => Holds handler crash post (f a) s
      | .error e => post (.error e) s) x s) :
    Holds handler crash post (x >>= f : Action Op Resp ε β) s := by
  apply holds_bind
  apply holds_mono x s h
  intro result s hs
  cases result with
  | ok a => exact hs
  | error e => exact hs

theorem holds_pure {post : Except ε α → σ → Prop} (a : α) (s : σ) (h : post (.ok a) s) :
    Holds handler crash post (pure a : Action Op Resp ε α) s := h

theorem holds_throw {post : Except ε α → σ → Prop} (e : ε) (s : σ) (h : post (.error e) s) :
    Holds handler crash post (throw e : Action Op Resp ε α) s := h

theorem holds_perform {op : Op} {post : Except ε (Resp op) → σ → Prop} (s : σ) (hcrash : crash s)
    (h : post (.ok (handler s op).1) (handler s op).2) :
    Holds handler crash post (perform op : Action Op Resp ε (Resp op)) s := ⟨hcrash, h⟩

theorem holds_fromExcept {post : Except ε α → σ → Prop} (result : Except ε α) (s : σ)
    (h : post result s) : Holds handler crash post (fromExcept result : Action Op Resp ε α) s := h

theorem holds_mapError {ε' : Type} {post : Except ε' α → σ → Prop} (f : ε → ε')
    (x : Action Op Resp ε α) (s : σ)
    (h : Holds handler crash (fun result s => post (result.mapError f) s) x s) :
    Holds handler crash post (mapError f x) s := holds_bind x _ s h

/-- What holds at the end of a `finally` if it is to hold of the result of the body. -/
def AfterFinally (post : Except ε α → σ → Prop) (result : Except ε α) (ended : Except ε Unit)
    (s : σ) : Prop :=
  match ended with
  | .ok () => post result s
  | .error e => post (.error e) s

theorem holds_tryFinally {post : Except ε α → σ → Prop} (body : Action Op Resp ε α)
    (finish : Action Op Resp ε Unit) (s : σ)
    (h : Holds handler crash (fun result s =>
      Holds handler crash (AfterFinally post result) finish s) body s) :
    Holds handler crash post (tryFinally body finish) s := by
  apply holds_bind
  apply holds_mono body s h
  intro result s hs
  apply holds_bind
  apply holds_mono finish s hs
  intro ended s hended
  cases ended with
  | ok _ => exact hended
  | error e => exact hended

end Decillion.Programs
