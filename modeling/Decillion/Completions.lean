import Decillion.Executions

/-!
Programs that run to their end without another process in between. `finish` is the result of
such a run and the state that it leaves; what holds at every cut and at the end of a program
holds there, and a program all of whose operations keep a relation keeps it.
-/
namespace Decillion.Completions

open Programs Interleavings Executions

variable {Op α β ε σ : Type} {Resp : Op → Type} {handler : Handler Op Resp σ}

def finish (handler : Handler Op Resp σ) : Prog Op Resp α → σ → α × σ
  | .done a, s => (a, s)
  | .call op next, s => finish handler (next (handler s op).1) (handler s op).2

theorem finish_bind (p : Prog Op Resp α) (f : α → Prog Op Resp β) (s : σ) :
    finish handler (p.bind f) s = finish handler (f (finish handler p s).1)
      (finish handler p s).2 := by
  induction p generalizing s with
  | done a => rfl
  | call op next ih => exact ih _ _

theorem finish_perform (op : Op) (s : σ) :
    finish handler (perform op : Action Op Resp ε (Resp op)) s =
      (.ok (handler s op).1, (handler s op).2) := rfl

theorem finish_then (x : Action Op Resp ε α) (f : α → Action Op Resp ε β) {a : α} {s s' : σ}
    (h : finish handler x s = (.ok a, s')) :
    finish handler (x >>= f : Action Op Resp ε β) s = finish handler (f a) s' := by
  change finish handler (Prog.bind x _) s = _
  rw [finish_bind, h]
  rfl

theorem finish_then_error (x : Action Op Resp ε α) (f : α → Action Op Resp ε β) {e : ε} {s s' : σ}
    (h : finish handler x s = (.error e, s')) :
    finish handler (x >>= f : Action Op Resp ε β) s = (.error e, s') := by
  change finish handler (Prog.bind x _) s = _
  rw [finish_bind, h]
  rfl

variable (handler) in
theorem reaches_finish (p : Prog Op Resp α) (s : σ) :
    ∃ n, Reaches handler n p s (.done (finish handler p s).1) (finish handler p s).2 := by
  induction p generalizing s with
  | done a => exact ⟨0, rfl, rfl⟩
  | call op next ih =>
    obtain ⟨n, hn⟩ := ih (handler s op).1 (handler s op).2
    exact ⟨n + 1, hn⟩

theorem holds_finish {crash : σ → Prop} {post : α → σ → Prop} (p : Prog Op Resp α) (s : σ)
    (h : Holds handler crash post p s) :
    post (finish handler p s).1 (finish handler p s).2 := by
  induction p generalizing s with
  | done a => exact h
  | call op next ih => exact ih _ _ h.2

theorem only_fromExcept {ok : Op → Prop} (result : Except ε α) :
    Only ok (fromExcept result : Action Op Resp ε α) := trivial

/-- A program all of whose operations keep a relation. -/
theorem holds_only {step : σ → σ → Prop} [IsPreorder σ step] {ok : Op → Prop} {crash : σ → Prop}
    {post : α → σ → Prop} (hstep : ∀ s op, ok op → step s (handler s op).2) (p : Prog Op Resp α)
    (s : σ) (honly : Only ok p) (hcrash : ∀ s', step s s' → crash s')
    (hpost : ∀ a s', step s s' → post a s') : Holds handler crash post p s := by
  induction p generalizing s with
  | done a => exact hpost a s (refl_of step s)
  | call op next ih =>
    refine ⟨hcrash s (refl_of step s), ih _ _ (honly.2 _) ?_ ?_⟩
    · exact fun s' hs' => hcrash s' (trans_of step (hstep s op honly.1) hs')
    · exact fun a s' hs' => hpost a s' (trans_of step (hstep s op honly.1) hs')

variable {ι Call : Type} [DecidableEq ι] (handlers : ι → Handler Op Resp σ)
  (program : Call → Prog Op Resp α) (choose : ι → List (Finished Call α σ) → Option Call) (i : ι)
  (y : System ι Op Resp Call α σ) (finished : List (Finished Call α σ)) (call : Call)

/-- An idle process may begin its next call and stop there. -/
theorem runAll_begun {n : ℕ} {p : Prog Op Resp α} {s : σ} (hidle : y.process i = ⟨finished, none⟩)
    (hcall : choose i finished = some call)
    (h : Reaches (handlers i) n (program call) y.shared p s) :
    ∃ schedule, runAll handlers program choose y schedule =
      y.become i s ⟨finished, some ⟨call, y.shared, p⟩⟩ := by
  exact ⟨_, phase_started y finished call hidle hcall h⟩

/-- A process may run the call it is in to the end. -/
theorem runAll_resumed {p : Prog Op Resp α} {began : σ}
    (hrunning : y.process i = ⟨finished, some ⟨call, began, p⟩⟩) :
    ∃ schedule, runAll handlers program choose y schedule =
      y.become i (finish (handlers i) p y.shared).2
        ⟨finished ++ [⟨call, began, (finish (handlers i) p y.shared).1⟩], none⟩ := by
  obtain ⟨n, hn⟩ := reaches_finish (handlers i) p y.shared
  exact ⟨_, phase_end _ y finished call began hrunning hn⟩

/-- An idle process may run its next call to the end. -/
theorem runAll_finish (hidle : y.process i = ⟨finished, none⟩)
    (hcall : choose i finished = some call) :
    ∃ schedule, runAll handlers program choose y schedule =
      y.become i (finish (handlers i) (program call) y.shared).2
        ⟨finished ++ [⟨call, y.shared, (finish (handlers i) (program call) y.shared).1⟩],
          none⟩ := by
  obtain ⟨n, hn⟩ := reaches_finish (handlers i) (program call) y.shared
  have hnone : Reaches (handlers i) 0 (program call) y.shared (program call) y.shared := ⟨rfl, rfl⟩
  exact ⟨_, phase_call _ y finished call hidle hcall hnone hn⟩

end Decillion.Completions
