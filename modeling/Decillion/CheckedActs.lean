import Decillion.Interleavings

/-!
Programs that look before they act. A program is pending when it may act without looking again,
and it is careful when only a look that lets it act makes it pending and the act ends that. While
one process acts no careful process that is not pending will act on what it has seen before.
-/
namespace Decillion.CheckedActs

open Programs Interleavings

variable {ι Op Call α β ε σ : Type} {Resp : Op → Type}

/-- The operations that look, those that act, and the answers that let a program act. -/
structure Guard (Op : Type) (Resp : Op → Type) where
  looks : Op → Prop
  acts : Op → Prop
  passes : (op : Op) → Resp op → Prop

namespace Guard

variable (g : Guard Op Resp)

/-- The program may act before it looks again. -/
def Pending : Prog Op Resp α → Prop
  | .done _ => False
  | .call op next => g.acts op ∨ ¬ g.looks op ∧ ∃ resp, Pending (next resp)

/-- Only a look that lets the program act makes it pending, and the act ends that. -/
def Careful : Prog Op Resp α → Prop
  | .done _ => True
  | .call op next => ∀ resp, Careful (next resp) ∧
      (g.acts op ∨ g.looks op ∧ ¬ g.passes op resp → ¬ g.Pending (next resp))

def Idle (op : Op) : Prop := ¬ g.acts op

/-- The operation neither looks nor acts. -/
def Apart (op : Op) : Prop := ¬ g.looks op ∧ ¬ g.acts op

variable {g}

theorem not_pending_of_only {p : Prog Op Resp α} (h : Only g.Idle p) : ¬ g.Pending p := by
  induction p with
  | done a => exact fun hpending => hpending
  | call op next ih =>
    rintro (hacts | ⟨-, resp, hpending⟩)
    · exact h.1 hacts
    · exact ih resp (h.2 resp) hpending

theorem careful_of_only {p : Prog Op Resp α} (h : Only g.Idle p) : g.Careful p := by
  induction p with
  | done a => trivial
  | call op next ih =>
    exact fun resp => ⟨ih resp (h.2 resp), fun _ => not_pending_of_only (h.2 resp)⟩

theorem not_pending_bind {p : Prog Op Resp α} {f : α → Prog Op Resp β} (h : ¬ g.Pending p)
    (h' : ∀ a, Only g.Idle (f a)) : ¬ g.Pending (p.bind f) := by
  induction p with
  | done a => exact not_pending_of_only (h' a)
  | call op next ih =>
    rintro (hacts | ⟨hlooks, resp, hpending⟩)
    · exact h (Or.inl hacts)
    · exact ih resp (fun hnext => h (Or.inr ⟨hlooks, resp, hnext⟩)) hpending

theorem not_pending_then {x : Action Op Resp ε α} {f : α → Action Op Resp ε β}
    (h : ¬ g.Pending x) (h' : ∀ a, Only g.Idle (f a)) :
    ¬ g.Pending (x >>= f : Action Op Resp ε β) := by
  apply not_pending_bind h
  intro result
  cases result with
  | ok a => exact h' a
  | error e => trivial

/-- A program that goes on without acting. -/
theorem careful_bind {p : Prog Op Resp α} {f : α → Prog Op Resp β} (h : g.Careful p)
    (h' : ∀ a, Only g.Idle (f a)) : g.Careful (p.bind f) := by
  induction p with
  | done a => exact careful_of_only (h' a)
  | call op next ih =>
    exact fun resp => ⟨ih resp (h resp).1, fun hop => not_pending_bind ((h resp).2 hop) h'⟩

theorem careful_then {x : Action Op Resp ε α} {f : α → Action Op Resp ε β} (h : g.Careful x)
    (h' : ∀ a, Only g.Idle (f a)) : g.Careful (x >>= f : Action Op Resp ε β) := by
  apply careful_bind h
  intro result
  cases result with
  | ok a => exact h' a
  | error e => trivial

/-- A program that begins with operations which neither look nor act. -/
theorem careful_after {x : Action Op Resp ε α} {f : α → Action Op Resp ε β} (h : Only g.Apart x)
    (h' : ∀ a, g.Careful (f a)) : g.Careful (x >>= f : Action Op Resp ε β) := by
  change g.Careful (Prog.bind x _)
  induction x with
  | done result =>
    cases result with
    | ok a => exact h' a
    | error e => trivial
  | call op next ih =>
    refine fun resp => ⟨ih resp (h.2 resp), ?_⟩
    rintro (hacts | ⟨hlooks, -⟩)
    · exact absurd hacts h.1.2
    · exact absurd hlooks h.1.1

variable (g) in
/-- No call in progress may act before it looks again. -/
def Settled (y : System ι Op Resp Call α σ) : Prop :=
  ∀ i r, (y.process i).running = some r → ¬ g.Pending r.rest

variable (g) in
/-- No call in progress of another process may act before it looks again. -/
def SettledBeside (y : System ι Op Resp Call α σ) (i : ι) : Prop :=
  ∀ j, j ≠ i → ∀ r, (y.process j).running = some r → ¬ g.Pending r.rest

variable (g) in
def AllCareful (y : System ι Op Resp Call α σ) : Prop :=
  ∀ i r, (y.process i).running = some r → g.Careful r.rest

theorem Settled.beside {y : System ι Op Resp Call α σ} (h : g.Settled y) (i : ι) :
    g.SettledBeside y i := fun j _ => h j

theorem settled_start (s : σ) : g.Settled (System.start s : System ι Op Resp Call α σ) :=
  fun _ r hr => by cases hr

theorem allCareful_start (s : σ) : g.AllCareful (System.start s : System ι Op Resp Call α σ) :=
  fun _ r hr => by cases hr

section Steps

variable [DecidableEq ι] {handler : ι → Handler Op Resp σ} {program : Call → Prog Op Resp α}
  {choose : ι → List (Finished Call α σ) → Option Call}

theorem settled_become {y : System ι Op Resp Call α σ} {i : ι} (h : g.SettledBeside y i) (s : σ)
    (p : Process Op Resp Call α σ) (hp : ∀ r, p.running = some r → ¬ g.Pending r.rest) :
    g.Settled (y.become i s p) := by
  intro j r hr
  by_cases hj : j = i
  · subst hj
    rw [become_process_self] at hr
    exact hp r hr
  · rw [become_process_of_ne y hj] at hr
    exact h j hj r hr

theorem allCareful_step (hbegin : ∀ call, g.Careful (program call)) (i : ι)
    (y : System ι Op Resp Call α σ) (h : g.AllCareful y) :
    g.AllCareful (step handler program choose i y) := by
  have hbecome : ∀ (s : σ) (p : Process Op Resp Call α σ),
      (∀ r, p.running = some r → g.Careful r.rest) → g.AllCareful (y.become i s p) := by
    intro s p hp j r hr
    by_cases hj : j = i
    · subst hj
      rw [become_process_self] at hr
      exact hp r hr
    · rw [become_process_of_ne y hj] at hr
      exact h j r hr
  rcases step_cases handler program choose i y with hstep | ⟨call, -, -, hstep⟩ |
    ⟨call, began, a, -, hstep⟩ | ⟨call, began, op, next, hrunning, hstep⟩
  · rw [hstep]
    exact h
  · rw [hstep]
    refine hbecome _ _ fun r hr => ?_
    obtain rfl := Option.some.inj hr
    exact hbegin call
  · rw [hstep]
    exact hbecome _ _ fun r hr => by cases hr
  · rw [hstep]
    refine hbecome _ _ fun r hr => ?_
    obtain rfl := Option.some.inj hr
    exact (h i _ hrunning _).1

/-- Nothing is pending after a step before which no other process was, if the step is an act or
else its process was not pending either and no look lets it act. -/
theorem settled_step (hbegin : ∀ call, ¬ g.Pending (program call)) (i : ι)
    (y : System ι Op Resp Call α σ) (hcareful : g.AllCareful y) (h : g.SettledBeside y i)
    (hown : ∀ op, y.operation i = some op → g.acts op ∨
      (∀ r, (y.process i).running = some r → ¬ g.Pending r.rest) ∧
        (g.looks op → ¬ g.passes op (handler i y.shared op).1)) :
    g.Settled (step handler program choose i y) := by
  unfold step
  split
  · rename_i hidle
    split
    · intro j r hr
      by_cases hj : j = i
      · rw [hj, hidle] at hr
        cases hr
      · exact h j hj r hr
    · refine settled_become h _ _ fun r hr => ?_
      obtain rfl := Option.some.inj hr
      exact hbegin _
  · exact settled_become h _ _ fun r hr => by cases hr
  · rename_i call began op next hrunning
    refine settled_become h _ _ fun r hr => ?_
    obtain rfl := Option.some.inj hr
    have hnext := (hcareful i _ hrunning (handler i y.shared op).1).2
    rcases hown op (operation_of_running hrunning) with hacts | ⟨hpending, hpasses⟩
    · exact hnext (Or.inl hacts)
    · by_cases hlooks : g.looks op
      · exact hnext (Or.inr ⟨hlooks, hpasses hlooks⟩)
      · exact fun hthen => hpending _ hrunning (Or.inr ⟨hlooks, _, hthen⟩)

end Steps

end Guard

end Decillion.CheckedActs
