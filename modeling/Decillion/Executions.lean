import Decillion.Interleavings

/-!
Executions of programs and of processes, operation by operation. `Reaches` says what is left
of a program after a number of operations; a process that is scheduled that often reaches the
same, whatever the other processes are doing.
-/
namespace Decillion.Executions

open Programs Interleavings

variable {ι Op Call α β ε σ : Type} {Resp : Op → Type}

/-- After `n` operations this is left of the program. -/
def Reaches (handler : Handler Op Resp σ) :
    ℕ → Prog Op Resp α → σ → Prog Op Resp α → σ → Prop
  | 0, p, s, p', s' => p' = p ∧ s' = s
  | _ + 1, .done _, _, _, _ => False
  | n + 1, .call op next, s, p', s' =>
      Reaches handler n (next (handler s op).1) (handler s op).2 p' s'

variable {handler : Handler Op Resp σ}

theorem Reaches.trans {n m : ℕ} {p p' p'' : Prog Op Resp α} {s s' s'' : σ}
    (h : Reaches handler n p s p' s') (h' : Reaches handler m p' s' p'' s'') :
    Reaches handler (n + m) p s p'' s'' := by
  induction n generalizing p s with
  | zero =>
    obtain ⟨rfl, rfl⟩ := h
    rwa [Nat.zero_add]
  | succ n ih =>
    cases p with
    | done a => exact h.elim
    | call op next =>
      rw [Nat.add_right_comm]
      exact ih h

theorem Reaches.bind {n : ℕ} {p p' : Prog Op Resp α} {s s' : σ} (f : α → Prog Op Resp β)
    (h : Reaches handler n p s p' s') :
    Reaches handler n (p.bind f) s (p'.bind f) s' := by
  induction n generalizing p s with
  | zero =>
    obtain ⟨rfl, rfl⟩ := h
    exact ⟨rfl, rfl⟩
  | succ n ih =>
    cases p with
    | done a => exact h.elim
    | call op next => exact ih h

/-- Sequencing after an action that raises no exception. -/
theorem reaches_then {n m : ℕ} (x : Action Op Resp ε α) (f : α → Action Op Resp ε β) (a : α)
    {p : Action Op Resp ε β} {s s' s'' : σ}
    (h : Reaches handler n x s (.done (.ok a)) s')
    (h' : Reaches handler m (f a) s' p s'') :
    Reaches handler (m + n) (x >>= f : Action Op Resp ε β) s p s'' := by
  rw [Nat.add_comm]
  exact (h.bind _).trans h'

theorem reaches_tryFinally {n m : ℕ} (body : Action Op Resp ε α) (finish : Action Op Resp ε Unit)
    (a : α) {s s' s'' : σ} (h : Reaches handler n body s (.done (.ok a)) s')
    (h' : Reaches handler m finish s' (.done (.ok ())) s'') :
    Reaches handler (n + m) (tryFinally body finish) s (.done (.ok a)) s'' :=
  (h.bind _).trans (h'.bind _)

theorem reaches_perform (op : Op) (s : σ) :
    Reaches handler 1 (perform op : Action Op Resp ε (Resp op)) s
      (.done (.ok (handler s op).1)) (handler s op).2 := ⟨rfl, rfl⟩

section Processes

variable [DecidableEq ι] (handlers : ι → Handler Op Resp σ) (program : Call → Prog Op Resp α)
  (choose : ι → List (Finished Call α σ) → Option Call)

/-- A part of a run. -/
def Phase (y : System ι Op Resp Call α σ) (schedule : List ι) (y' : System ι Op Resp Call α σ) :
    Prop :=
  runAll handlers program choose y schedule = y'

variable {handlers program choose}

theorem Phase.append {y y' y'' : System ι Op Resp Call α σ} {first rest : List ι}
    (h : Phase handlers program choose y first y')
    (h' : Phase handlers program choose y' rest y'') :
    Phase handlers program choose y (first ++ rest) y'' := by
  subst h
  exact (runAll_append y first rest).trans h'

theorem Phase.obeys {allowed : System ι Op Resp Call α σ → ι → Prop}
    {y y' : System ι Op Resp Call α σ} {first rest : List ι}
    (h : Phase handlers program choose y first y')
    (hfirst : Obeys handlers program choose allowed y first)
    (hrest : Obeys handlers program choose allowed y' rest) :
    Obeys handlers program choose allowed y (first ++ rest) := by
  subst h
  exact (obeys_append y first rest).mpr ⟨hfirst, hrest⟩

theorem phase_begin {i : ι} (y : System ι Op Resp Call α σ)
    (finished : List (Finished Call α σ)) (call : Call)
    (hidle : y.process i = ⟨finished, none⟩) (hcall : choose i finished = some call) :
    Phase handlers program choose y [i]
      (y.become i y.shared ⟨finished, some ⟨call, y.shared, program call⟩⟩) := by
  rw [Phase, runAll, runAll, step]
  simp only [hidle, hcall]

theorem phase_return {i : ι} (y : System ι Op Resp Call α σ)
    (finished : List (Finished Call α σ)) (call : Call) (began : σ) (a : α)
    (hrunning : y.process i = ⟨finished, some ⟨call, began, .done a⟩⟩) :
    Phase handlers program choose y [i]
      (y.become i y.shared ⟨finished ++ [⟨call, began, a⟩], none⟩) := by
  rw [Phase, runAll, runAll, step]
  simp only [hrunning]

/-- A process that is scheduled `n` times reaches what its program reaches. -/
theorem phase_reaches {i : ι} {n : ℕ} {p p' : Prog Op Resp α} {s' : σ}
    (y : System ι Op Resp Call α σ) (finished : List (Finished Call α σ)) (call : Call) (began : σ)
    (hrunning : y.process i = ⟨finished, some ⟨call, began, p⟩⟩)
    (h : Reaches (handlers i) n p y.shared p' s') :
    Phase handlers program choose y (List.replicate n i)
      (y.become i s' ⟨finished, some ⟨call, began, p'⟩⟩) := by
  induction n generalizing p y with
  | zero =>
    obtain ⟨rfl, rfl⟩ := h
    rw [System.become, ← hrunning, Function.update_eq_self]
    rfl
  | succ n ih =>
    cases p with
    | done a => exact h.elim
    | call op next =>
      have hfirst : Phase handlers program choose y [i] (y.become i (handlers i y.shared op).2
          ⟨finished, some ⟨call, began, next (handlers i y.shared op).1⟩⟩) := by
        rw [Phase, runAll, runAll, step]
        simp only [hrunning]
      have hrest := ih (y.become i (handlers i y.shared op).2
        ⟨finished, some ⟨call, began, next (handlers i y.shared op).1⟩⟩)
        (become_process_self y i _ _) h
      rw [become_become] at hrest
      exact hfirst.append hrest

/-- A call that has been begun runs to its end and returns. -/
theorem phase_end {i : ι} {n : ℕ} {p : Prog Op Resp α} {s' : σ} (a : α)
    (y : System ι Op Resp Call α σ) (finished : List (Finished Call α σ)) (call : Call) (began : σ)
    (hrunning : y.process i = ⟨finished, some ⟨call, began, p⟩⟩)
    (h : Reaches (handlers i) n p y.shared (.done a) s') :
    Phase handlers program choose y (List.replicate n i ++ [i])
      (y.become i s' ⟨finished ++ [⟨call, began, a⟩], none⟩) := by
  have hreach : Phase handlers program choose y (List.replicate n i)
      (y.become i s' ⟨finished, some ⟨call, began, .done a⟩⟩) :=
    phase_reaches y finished call began hrunning h
  have hreturn : Phase handlers program choose
      (y.become i s' ⟨finished, some ⟨call, began, .done a⟩⟩) [i]
      ((y.become i s' ⟨finished, some ⟨call, began, .done a⟩⟩).become i s'
        ⟨finished ++ [⟨call, began, a⟩], none⟩) :=
    phase_return _ finished call began a (become_process_self y i _ _)
  rw [become_become] at hreturn
  exact hreach.append hreturn

/-- A call is begun and runs for `n` operations. -/
theorem phase_started {i : ι} {n : ℕ} {p : Prog Op Resp α} {s' : σ}
    (y : System ι Op Resp Call α σ) (finished : List (Finished Call α σ)) (call : Call)
    (hidle : y.process i = ⟨finished, none⟩) (hcall : choose i finished = some call)
    (h : Reaches (handlers i) n (program call) y.shared p s') :
    Phase handlers program choose y ([i] ++ List.replicate n i)
      (y.become i s' ⟨finished, some ⟨call, y.shared, p⟩⟩) := by
  have hbegin : Phase handlers program choose y [i]
      (y.become i y.shared ⟨finished, some ⟨call, y.shared, program call⟩⟩) :=
    phase_begin y finished call hidle hcall
  have hreach : Phase handlers program choose
      (y.become i y.shared ⟨finished, some ⟨call, y.shared, program call⟩⟩) (List.replicate n i)
      ((y.become i y.shared ⟨finished, some ⟨call, y.shared, program call⟩⟩).become i s'
        ⟨finished, some ⟨call, y.shared, p⟩⟩) :=
    phase_reaches _ finished call y.shared (become_process_self y i _ _) h
  rw [become_become] at hreach
  exact hbegin.append hreach

/-- A whole call. -/
theorem phase_call {i : ι} {n m : ℕ} {p : Prog Op Resp α} {s s' : σ} (a : α)
    (y : System ι Op Resp Call α σ) (finished : List (Finished Call α σ)) (call : Call)
    (hidle : y.process i = ⟨finished, none⟩) (hcall : choose i finished = some call)
    (h : Reaches (handlers i) n (program call) y.shared p s)
    (h' : Reaches (handlers i) m p s (.done a) s') :
    Phase handlers program choose y (([i] ++ List.replicate n i) ++ (List.replicate m i ++ [i]))
      (y.become i s' ⟨finished ++ [⟨call, y.shared, a⟩], none⟩) := by
  have hended : Phase handlers program choose
      (y.become i s ⟨finished, some ⟨call, y.shared, p⟩⟩) (List.replicate m i ++ [i])
      ((y.become i s ⟨finished, some ⟨call, y.shared, p⟩⟩).become i s'
        ⟨finished ++ [⟨call, y.shared, a⟩], none⟩) :=
    phase_end a _ finished call y.shared (become_process_self y i _ _) h'
  rw [become_become] at hended
  exact (phase_started y finished call hidle hcall h).append hended

end Processes

end Decillion.Executions
