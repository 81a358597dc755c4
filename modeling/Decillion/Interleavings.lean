import Decillion.Programs
import Mathlib.Logic.Function.Basic
import Mathlib.Data.List.Infix

/-!
Processes that share one system. Each makes calls one after another, chosen from what its
earlier calls have returned, and between any two operations of one process the others may
run; a process that is never scheduled again has been killed. A call is safe when it does
only what it may do and ends in its postcondition, as long as the others change no more
than it relies on. Safe calls keep their postconditions in every run.
-/
namespace Decillion.Interleavings

open Programs

variable {ι Op Call α β ε σ : Type} {Resp : Op → Type}

structure Finished (Call α σ : Type) where
  call : Call
  began : σ
  result : α

structure Running (Op : Type) (Resp : Op → Type) (Call α σ : Type) where
  call : Call
  began : σ
  rest : Prog Op Resp α

structure Process (Op : Type) (Resp : Op → Type) (Call α σ : Type) where
  finished : List (Finished Call α σ)
  running : Option (Running Op Resp Call α σ)

structure System (ι Op : Type) (Resp : Op → Type) (Call α σ : Type) where
  shared : σ
  process : ι → Process Op Resp Call α σ

def System.start (s : σ) : System ι Op Resp Call α σ := ⟨s, fun _ => ⟨[], none⟩⟩

/-- The operation that a process makes in its next step. -/
def System.operation (y : System ι Op Resp Call α σ) (i : ι) : Option Op :=
  match (y.process i).running with
  | some ⟨_, _, .call op _⟩ => some op
  | _ => none

theorem operation_of_running {y : System ι Op Resp Call α σ} {i : ι} {call : Call} {began : σ}
    {op : Op} {next : Resp op → Prog Op Resp α}
    (h : (y.process i).running = some ⟨call, began, .call op next⟩) :
    y.operation i = some op := by
  simp only [System.operation, h]

theorem running_of_operation {y : System ι Op Resp Call α σ} {i : ι} {op : Op}
    (h : y.operation i = some op) :
    ∃ call began next, (y.process i).running = some ⟨call, began, .call op next⟩ := by
  unfold System.operation at h
  split at h
  · rename_i call began op' next hrunning
    obtain rfl := Option.some.inj h
    exact ⟨call, began, next, hrunning⟩
  · cases h

section Runs

variable [DecidableEq ι]

/-- The system after a step of one process. -/
def System.become (y : System ι Op Resp Call α σ) (i : ι) (s : σ)
    (process : Process Op Resp Call α σ) : System ι Op Resp Call α σ :=
  ⟨s, Function.update y.process i process⟩

theorem become_become (y : System ι Op Resp Call α σ) (i : ι) (s s' : σ)
    (p p' : Process Op Resp Call α σ) : (y.become i s p).become i s' p' = y.become i s' p' := by
  simp only [System.become, Function.update_idem]

theorem become_shared (y : System ι Op Resp Call α σ) (i : ι) (s : σ)
    (p : Process Op Resp Call α σ) : (y.become i s p).shared = s := rfl

theorem become_process_self (y : System ι Op Resp Call α σ) (i : ι) (s : σ)
    (p : Process Op Resp Call α σ) : (y.become i s p).process i = p := Function.update_self _ _ _

theorem become_process_of_ne (y : System ι Op Resp Call α σ) {i j : ι} (h : j ≠ i) (s : σ)
    (p : Process Op Resp Call α σ) : (y.become i s p).process j = y.process j :=
  Function.update_of_ne h _ _

variable (handler : ι → Handler Op Resp σ) (program : Call → Prog Op Resp α)
  (choose : ι → List (Finished Call α σ) → Option Call)

/-- A process begins its next call, makes one operation of the call it is in or returns. -/
def step (i : ι) (y : System ι Op Resp Call α σ) : System ι Op Resp Call α σ :=
  match (y.process i).running with
  | none =>
      match choose i (y.process i).finished with
      | none => y
      | some call => y.become i y.shared
          ⟨(y.process i).finished, some ⟨call, y.shared, program call⟩⟩
  | some ⟨call, began, .done a⟩ => y.become i y.shared
      ⟨(y.process i).finished ++ [⟨call, began, a⟩], none⟩
  | some ⟨call, began, .call op next⟩ => y.become i (handler i y.shared op).2
      ⟨(y.process i).finished, some ⟨call, began, next (handler i y.shared op).1⟩⟩

def runAll (y : System ι Op Resp Call α σ) : List ι → System ι Op Resp Call α σ
  | [] => y
  | i :: rest => runAll (step handler program choose i y) rest

/-- A condition on the steps of a run, on the system before each of them. -/
def Obeys (allowed : System ι Op Resp Call α σ → ι → Prop) :
    System ι Op Resp Call α σ → List ι → Prop
  | _, [] => True
  | y, i :: rest => allowed y i ∧ Obeys allowed (step handler program choose i y) rest

variable {handler program choose}

variable (handler program choose) in
theorem step_cases (i : ι) (y : System ι Op Resp Call α σ) :
    step handler program choose i y = y ∨
    (∃ call, (y.process i).running = none ∧ choose i (y.process i).finished = some call ∧
      step handler program choose i y = y.become i y.shared
        ⟨(y.process i).finished, some ⟨call, y.shared, program call⟩⟩) ∨
    (∃ call began a, (y.process i).running = some ⟨call, began, .done a⟩ ∧
      step handler program choose i y = y.become i y.shared
        ⟨(y.process i).finished ++ [⟨call, began, a⟩], none⟩) ∨
    (∃ call began op next, (y.process i).running = some ⟨call, began, .call op next⟩ ∧
      step handler program choose i y = y.become i (handler i y.shared op).2
        ⟨(y.process i).finished, some ⟨call, began, next (handler i y.shared op).1⟩⟩) := by
  unfold step
  split
  · rename_i hrunning
    split
    · exact Or.inl rfl
    · rename_i call hcall
      exact Or.inr (Or.inl ⟨call, hrunning, hcall, rfl⟩)
  · rename_i call began a hrunning
    exact Or.inr (Or.inr (Or.inl ⟨call, began, a, hrunning, rfl⟩))
  · rename_i call began op next hrunning
    exact Or.inr (Or.inr (Or.inr ⟨call, began, op, next, hrunning, rfl⟩))

/-- A step of one process leaves the others as they are. -/
theorem process_step {i j : ι} (h : j ≠ i) (y : System ι Op Resp Call α σ) :
    (step handler program choose i y).process j = y.process j := by
  rcases step_cases handler program choose i y with
    hstep | ⟨call, -, -, hstep⟩ | ⟨call, began, a, -, hstep⟩ | ⟨call, began, op, next, -, hstep⟩
  · rw [hstep]
  all_goals rw [hstep, become_process_of_ne y h]

/-- A process only ever adds to what it has finished. -/
theorem finished_step (i j : ι) (y : System ι Op Resp Call α σ) :
    (y.process j).finished <+: ((step handler program choose i y).process j).finished := by
  have hown : (y.process i).finished <+:
      ((step handler program choose i y).process i).finished := by
    rcases step_cases handler program choose i y with
      hstep | ⟨call, -, -, hstep⟩ | ⟨call, began, a, -, hstep⟩ | ⟨call, began, op, next, -, hstep⟩
    · rw [hstep]
    · rw [hstep, become_process_self]
    · rw [hstep, become_process_self]
      exact List.prefix_append _ _
    · rw [hstep, become_process_self]
  by_cases hj : j = i
  · exact hj ▸ hown
  · rw [process_step hj y]

theorem runAll_append (y : System ι Op Resp Call α σ) (first rest : List ι) :
    runAll handler program choose y (first ++ rest) =
      runAll handler program choose (runAll handler program choose y first) rest := by
  induction first generalizing y with
  | nil => rfl
  | cons i first ih => exact ih _

theorem finished_runAll (y : System ι Op Resp Call α σ) (schedule : List ι) (j : ι) :
    (y.process j).finished <+:
      ((runAll handler program choose y schedule).process j).finished := by
  induction schedule generalizing y with
  | nil => exact List.prefix_rfl
  | cons i rest ih => exact (finished_step i j y).trans (ih _)

theorem obeys_append {allowed : System ι Op Resp Call α σ → ι → Prop}
    (y : System ι Op Resp Call α σ) (first rest : List ι) :
    Obeys handler program choose allowed y (first ++ rest) ↔
      Obeys handler program choose allowed y first ∧
        Obeys handler program choose allowed (runAll handler program choose y first) rest := by
  induction first generalizing y with
  | nil => exact ⟨fun h => ⟨trivial, h⟩, And.right⟩
  | cons i first ih =>
    simp only [List.cons_append, Obeys, ih, and_assoc]
    rfl

theorem obeys_mono {allowed allowed' : System ι Op Resp Call α σ → ι → Prop}
    (hmono : ∀ y i, allowed y i → allowed' y i) (y : System ι Op Resp Call α σ)
    (schedule : List ι) (h : Obeys handler program choose allowed y schedule) :
    Obeys handler program choose allowed' y schedule := by
  induction schedule generalizing y with
  | nil => trivial
  | cons i rest ih => exact ⟨hmono y i h.1, ih _ h.2⟩

/-- While one process is scheduled the others stay as they are. -/
theorem obeys_alone (y : System ι Op Resp Call α σ) (i : ι) (n : ℕ) :
    Obeys handler program choose (fun z k => k = i ∧ ∀ j, j ≠ i → z.process j = y.process j) y
      (List.replicate n i) := by
  induction n generalizing y with
  | zero => trivial
  | succ n ih =>
    refine ⟨⟨rfl, fun _ _ => rfl⟩, obeys_mono ?_ _ _ (ih (step handler program choose i y))⟩
    rintro z k ⟨hk, hsame⟩
    exact ⟨hk, fun j hj => (hsame j hj).trans (process_step hj y)⟩

/-- What every step keeps that meets the condition holds after every run of such steps. -/
theorem runAll_invariant {allowed : System ι Op Resp Call α σ → ι → Prop}
    {inv : System ι Op Resp Call α σ → Prop}
    (hstep : ∀ y i, inv y → allowed y i → inv (step handler program choose i y))
    (y : System ι Op Resp Call α σ) (schedule : List ι) (hy : inv y)
    (hobeys : Obeys handler program choose allowed y schedule) :
    inv (runAll handler program choose y schedule) := by
  induction schedule generalizing y with
  | nil => exact hy
  | cons i rest ih => exact ih _ (hstep y i hy hobeys.1) hobeys.2

/-- A condition that follows from another one in the states that satisfy an invariant. -/
theorem obeys_of_invariant {allowed allowed' : System ι Op Resp Call α σ → ι → Prop}
    {inv : System ι Op Resp Call α σ → Prop}
    (hstep : ∀ y i, inv y → allowed y i → allowed' y i ∧ inv (step handler program choose i y))
    (y : System ι Op Resp Call α σ) (schedule : List ι) (hy : inv y)
    (hobeys : Obeys handler program choose allowed y schedule) :
    Obeys handler program choose allowed' y schedule := by
  induction schedule generalizing y with
  | nil => trivial
  | cons i rest ih =>
    obtain ⟨hallowed, hinv⟩ := hstep y i hy hobeys.1
    exact ⟨hallowed, ih _ hinv hobeys.2⟩

end Runs

section Calls

/-- A call that does only what it may do and ends in its postcondition, while the others
change the system within `rely` and its own steps stay within `keeps`. -/
def Safe (handler : Handler Op Resp σ) (rely keeps : σ → σ → Prop) (may : σ → Op → Prop)
    (post : α → σ → Prop) : Prog Op Resp α → σ → Prop
  | .done a, s => ∀ s', rely s s' → post a s'
  | .call op next, s => ∀ s', rely s s' → may s' op ∧
      (keeps s' (handler s' op).2 →
        Safe handler rely keeps may post (next (handler s' op).1) (handler s' op).2)

variable {handler : Handler Op Resp σ} {rely keeps : σ → σ → Prop} {may : σ → Op → Prop}

theorem safe_rely [IsTrans σ rely] {post : α → σ → Prop} (p : Prog Op Resp α) (s s' : σ)
    (h : Safe handler rely keeps may post p s) (hrely : rely s s') :
    Safe handler rely keeps may post p s' := by
  cases p with
  | done a => exact fun s'' h' => h s'' (IsTrans.trans _ _ _ hrely h')
  | call op next => exact fun s'' h' => h s'' (IsTrans.trans _ _ _ hrely h')

theorem safe_mono {post post' : α → σ → Prop} (p : Prog Op Resp α) (s : σ)
    (h : Safe handler rely keeps may post p s) (hpost : ∀ a s, post a s → post' a s) :
    Safe handler rely keeps may post' p s := by
  induction p generalizing s with
  | done a => exact fun s' hrely => hpost a s' (h s' hrely)
  | call op next ih =>
    intro s' hrely
    obtain ⟨hmay, hnext⟩ := h s' hrely
    exact ⟨hmay, fun hkeeps => ih _ _ (hnext hkeeps)⟩

/-- A program that is safe is so when the others change less and more is kept. -/
theorem safe_weaken {rely' keeps' : σ → σ → Prop} {post : α → σ → Prop}
    (hrely : ∀ s s', rely' s s' → rely s s') (hkeeps : ∀ s s', keeps' s s' → keeps s s')
    (p : Prog Op Resp α) (s : σ) (h : Safe handler rely keeps may post p s) :
    Safe handler rely' keeps' may post p s := by
  induction p generalizing s with
  | done a => exact fun s' hs => h s' (hrely s s' hs)
  | call op next ih =>
    intro s' hs
    obtain ⟨hmay, hnext⟩ := h s' (hrely s s' hs)
    exact ⟨hmay, fun hkept => ih _ _ (hnext (hkeeps s' _ hkept))⟩

theorem safe_bind [Std.Refl rely] {post : β → σ → Prop} (p : Prog Op Resp α)
    (f : α → Prog Op Resp β) (s : σ)
    (h : Safe handler rely keeps may (fun a s => Safe handler rely keeps may post (f a) s) p s) :
    Safe handler rely keeps may post (p.bind f) s := by
  induction p generalizing s with
  | done a => exact h s (Std.Refl.refl s)
  | call op next ih =>
    intro s' hrely
    obtain ⟨hmay, hnext⟩ := h s' hrely
    exact ⟨hmay, fun hkeeps => ih _ _ (hnext hkeeps)⟩

/-- A program all of whose operations keep a relation, as the others do. -/
theorem safe_only {step : σ → σ → Prop} [IsPreorder σ step] {ok : Op → Prop}
    {post : α → σ → Prop} (hrely : ∀ s s', rely s s' → step s s')
    (hmay : ∀ s op, ok op → may s op) (hstep : ∀ s op, ok op → step s (handler s op).2)
    (p : Prog Op Resp α) (s : σ) (honly : Only ok p) (h : ∀ a s', step s s' → post a s') :
    Safe handler rely keeps may post p s := by
  induction p generalizing s with
  | done a => exact fun s' hs => h a s' (hrely s s' hs)
  | call op next ih =>
    intro s' hs
    refine ⟨hmay s' op honly.1, fun _ => ih _ _ (honly.2 _) ?_⟩
    intro a s'' hs''
    exact h a s'' (trans_of step (hrely s s' hs) (trans_of step (hstep s' op honly.1) hs''))

/-- Sequencing: an exception of the first action is the result of both. -/
theorem safe_then [Std.Refl rely] {post : Except ε β → σ → Prop} (x : Action Op Resp ε α)
    (f : α → Action Op Resp ε β) (s : σ)
    (h : Safe handler rely keeps may (fun result s =>
      match result with
      | .ok a => Safe handler rely keeps may post (f a) s
      | .error e => ∀ s', rely s s' → post (.error e) s') x s) :
    Safe handler rely keeps may post (x >>= f : Action Op Resp ε β) s := by
  apply safe_bind
  apply safe_mono x s h
  intro result s hs
  cases result with
  | ok a => exact hs
  | error e => exact hs

/-- The postcondition after the last part of `tryFinally`. -/
def Ended (rely : σ → σ → Prop) (post : Except ε α → σ → Prop) (result : Except ε α)
    (ended : Except ε Unit) (s : σ) : Prop :=
  match ended with
  | .ok () => ∀ s', rely s s' → post result s'
  | .error e => ∀ s', rely s s' → post (.error e) s'

theorem safe_tryFinally [Std.Refl rely] {post : Except ε α → σ → Prop}
    (body : Action Op Resp ε α) (finish : Action Op Resp ε Unit) (s : σ)
    (h : Safe handler rely keeps may (fun result s =>
      Safe handler rely keeps may (Ended rely post result) finish s) body s) :
    Safe handler rely keeps may post (tryFinally body finish) s := by
  apply safe_bind
  apply safe_mono body s h
  intro result s hs
  apply safe_bind
  apply safe_mono finish s hs
  intro ended s hended
  cases ended with
  | ok _ => exact hended
  | error e => exact hended

end Calls

section Operations

/-- The operations of the calls in progress satisfy a condition on the call. -/
def AllOnly (ok : ι → Call → Op → Prop) (y : System ι Op Resp Call α σ) : Prop :=
  ∀ i r, (y.process i).running = some r → Only (ok i r.call) r.rest

variable {handler : ι → Handler Op Resp σ} {program : Call → Prog Op Resp α}
  {choose : ι → List (Finished Call α σ) → Option Call} {ok : ι → Call → Op → Prop}

theorem allOnly_start (s : σ) : AllOnly ok (System.start s : System ι Op Resp Call α σ) :=
  fun _ _ hr => nomatch hr

variable [DecidableEq ι]

theorem allOnly_become {y : System ι Op Resp Call α σ} (h : AllOnly ok y) (i : ι) (s : σ)
    (p : Process Op Resp Call α σ) (hp : ∀ r, p.running = some r → Only (ok i r.call) r.rest) :
    AllOnly ok (y.become i s p) := by
  intro j r hr
  by_cases hj : j = i
  · subst hj
    rw [become_process_self] at hr
    exact hp r hr
  · rw [become_process_of_ne y hj] at hr
    exact h j r hr

/-- A step keeps the condition when every call satisfies it that is begun. -/
theorem allOnly_step
    (hbegin : ∀ i finished call, choose i finished = some call → Only (ok i call) (program call))
    (i : ι) (y : System ι Op Resp Call α σ) (h : AllOnly ok y) :
    AllOnly ok (step handler program choose i y) := by
  rcases step_cases handler program choose i y with hstep | ⟨call, -, hcall, hstep⟩ |
    ⟨call, began, a, -, hstep⟩ | ⟨call, began, op, next, hrunning, hstep⟩
  · rw [hstep]
    exact h
  · rw [hstep]
    refine allOnly_become h i _ _ fun r hr => ?_
    obtain rfl := Option.some.inj hr
    exact hbegin i _ call hcall
  · rw [hstep]
    exact allOnly_become h i _ _ fun r hr => nomatch hr
  · rw [hstep]
    refine allOnly_become h i _ _ fun r hr => ?_
    obtain rfl := Option.some.inj hr
    exact (h i _ hrunning).2 _

end Operations

section Soundness

variable (handler : ι → Handler Op Resp σ) (program : Call → Prog Op Resp α)
  (choose : ι → List (Finished Call α σ) → Option Call) (rely : ι → Call → σ → σ → Prop)
  (keeps : Call → σ → σ → Prop) (may : ι → σ → Op → Prop)
  (post : ι → Call → σ → α → σ → Prop)

/-- The call in progress is safe, and what has been returned satisfies its postcondition now and
did so when the later calls of the process began. -/
structure Sound (i : ι) (p : Process Op Resp Call α σ) (s : σ) : Prop where
  running : ∀ r, p.running = some r → Safe (handler i) (rely i r.call) (keeps r.call) (may i)
    (post i r.call r.began) r.rest s
  chosen : ∀ r, p.running = some r → choose i p.finished = some r.call
  before : ∀ r, p.running = some r → ∀ f ∈ p.finished, post i f.call f.began f.result r.began
  finished : ∀ f ∈ p.finished, post i f.call f.began f.result s
  called : ∀ f ∈ p.finished, ∃ earlier, earlier <+: p.finished ∧ choose i earlier = some f.call
  ordered : p.finished.Pairwise (fun f g => post i f.call f.began f.result g.began)

def AllSound (y : System ι Op Resp Call α σ) : Prop :=
  ∀ i, Sound handler choose rely keeps may post i (y.process i) y.shared

theorem allSound_start (s : σ) : AllSound handler choose rely keeps may post
    (System.start s : System ι Op Resp Call α σ) := by
  intro i
  constructor <;> simp [System.start]

variable {handler program choose rely keeps may post} {i : ι}

theorem sound_begin (finished : List (Finished Call α σ)) (s : σ) (call : Call)
    (h : Sound handler choose rely keeps may post i
      (⟨finished, none⟩ : Process Op Resp Call α σ) s)
    (hcall : choose i finished = some call)
    (hsafe : Safe (handler i) (rely i call) (keeps call) (may i) (post i call s)
      (program call) s) :
    Sound handler choose rely keeps may post i ⟨finished, some ⟨call, s, program call⟩⟩ s where
  running r hr := by
    obtain rfl := Option.some.inj hr
    exact hsafe
  chosen r hr := by
    obtain rfl := Option.some.inj hr
    exact hcall
  before r hr f hf := by
    obtain rfl := Option.some.inj hr
    exact h.finished f hf
  finished := h.finished
  called := h.called
  ordered := h.ordered

theorem sound_return (finished : List (Finished Call α σ)) (s began : σ) (call : Call) (a : α)
    (hrefl : rely i call s s)
    (h : Sound handler choose rely keeps may post i
      (⟨finished, some ⟨call, began, .done a⟩⟩ : Process Op Resp Call α σ) s) :
    Sound handler choose rely keeps may post i
      (⟨finished ++ [⟨call, began, a⟩], none⟩ : Process Op Resp Call α σ) s where
  running r hr := by simp at hr
  chosen r hr := by simp at hr
  before r hr := by simp at hr
  finished f hf := by
    rcases List.mem_append.mp hf with hf | hf
    · exact h.finished f hf
    · obtain rfl := List.mem_singleton.mp hf
      exact h.running _ rfl s hrefl
  called f hf := by
    rcases List.mem_append.mp hf with hf | hf
    · obtain ⟨earlier, hprefix, hchoose⟩ := h.called f hf
      exact ⟨earlier, hprefix.trans (List.prefix_append _ _), hchoose⟩
    · obtain rfl := List.mem_singleton.mp hf
      exact ⟨finished, List.prefix_append _ _, h.chosen _ rfl⟩
  ordered := by
    rw [List.pairwise_append]
    refine ⟨h.ordered, List.pairwise_singleton _ _, ?_⟩
    intro f hf g hg
    obtain rfl := List.mem_singleton.mp hg
    exact h.before _ rfl f hf

/-- An operation of the process itself. -/
theorem sound_operation (finished : List (Finished Call α σ)) (s s' began : σ) (call : Call)
    (p p' : Prog Op Resp α)
    (h : Sound handler choose rely keeps may post i
      (⟨finished, some ⟨call, began, p⟩⟩ : Process Op Resp Call α σ) s)
    (hsafe : Safe (handler i) (rely i call) (keeps call) (may i) (post i call began) p' s')
    (hstable : ∀ f ∈ finished, post i f.call f.began f.result s') :
    Sound handler choose rely keeps may post i
      (⟨finished, some ⟨call, began, p'⟩⟩ : Process Op Resp Call α σ) s' where
  running r hr := by
    obtain rfl := Option.some.inj hr
    exact hsafe
  chosen r hr := by
    obtain rfl := Option.some.inj hr
    exact h.chosen ⟨call, began, p⟩ rfl
  before r hr f hf := by
    obtain rfl := Option.some.inj hr
    exact h.before ⟨call, began, p⟩ rfl f hf
  finished := hstable
  called := h.called
  ordered := h.ordered

/-- An operation of another process. -/
theorem sound_other (p : Process Op Resp Call α σ) (s s' : σ)
    (h : Sound handler choose rely keeps may post i p s)
    (htrans : ∀ call, IsTrans σ (rely i call))
    (hrely : ∀ r, p.running = some r → rely i r.call s s')
    (hstable : ∀ f ∈ p.finished, post i f.call f.began f.result s') :
    Sound handler choose rely keeps may post i p s' where
  running r hr := by
    have htrans := htrans r.call
    exact safe_rely r.rest s s' (h.running r hr) (hrely r hr)
  chosen := h.chosen
  before := h.before
  finished := hstable
  called := h.called
  ordered := h.ordered

variable (rely keeps post) in
/-- What an operation of a call owes to its own guarantee, to the calls of the other processes
and to what has been returned. -/
structure Harmless (y : System ι Op Resp Call α σ) (i : ι) (call : Call) (s' : σ) : Prop where
  own : keeps call y.shared s'
  others : ∀ j, j ≠ i → ∀ r, (y.process j).running = some r → rely j r.call y.shared s'
  returned : ∀ j, ∀ f ∈ (y.process j).finished, post j f.call f.began f.result s'

variable [DecidableEq ι]

theorem allSound_become (y : System ι Op Resp Call α σ) (i : ι) (s' : σ)
    (p : Process Op Resp Call α σ) (hi : Sound handler choose rely keeps may post i p s')
    (hothers : ∀ j, j ≠ i → Sound handler choose rely keeps may post j (y.process j) s') :
    AllSound handler choose rely keeps may post (y.become i s' p) := by
  intro j
  by_cases hj : j = i
  · subst hj
    rw [become_process_self]
    exact hi
  · rw [become_process_of_ne y hj]
    exact hothers j hj

/-- A step is sound when calls are safe from their beginning and operations are harmless. -/
theorem allSound_step (hrely : ∀ i call, IsPreorder σ (rely i call))
    (y : System ι Op Resp Call α σ) (i : ι)
    (h : AllSound handler choose rely keeps may post y)
    (hbegin : ∀ call, choose i (y.process i).finished = some call → Safe (handler i) (rely i call)
      (keeps call) (may i) (post i call y.shared) (program call) y.shared)
    (hop : ∀ call began op next, (y.process i).running = some ⟨call, began, .call op next⟩ →
      may i y.shared op → Harmless rely keeps post y i call
        (handler i y.shared op).2) :
    AllSound handler choose rely keeps may post (step handler program choose i y) := by
  have hi := h i
  rcases step_cases handler program choose i y with hstep | ⟨call, hidle, hcall, hstep⟩ |
    ⟨call, began, a, hrunning, hstep⟩ | ⟨call, began, op, next, hrunning, hstep⟩
  · rw [hstep]
    exact h
  · have hprocess : y.process i = ⟨(y.process i).finished, none⟩ := by rw [← hidle]
    rw [hprocess] at hi
    rw [hstep]
    exact allSound_become y i _ _ (sound_begin _ _ call hi hcall (hbegin call hcall))
      (fun j _ => h j)
  · have hprocess : y.process i = ⟨(y.process i).finished, some ⟨call, began, .done a⟩⟩ := by
      rw [← hrunning]
    rw [hprocess] at hi
    rw [hstep]
    exact allSound_become y i _ _ (sound_return _ _ began call a ((hrely i call).refl _) hi)
      (fun j _ => h j)
  · have hprocess : y.process i =
        ⟨(y.process i).finished, some ⟨call, began, .call op next⟩⟩ := by rw [← hrunning]
    obtain ⟨hmay, hnext⟩ := hi.running _ hrunning y.shared ((hrely i call).refl _)
    have hharmless := hop call began op next hrunning hmay
    rw [hprocess] at hi
    rw [hstep]
    refine allSound_become y i _ _ ?_ ?_
    · exact sound_operation _ _ _ began call _ _ hi (hnext hharmless.own) (hharmless.returned i)
    · exact fun j hj => sound_other _ _ _ (h j) (fun call => (hrely j call).toIsTrans)
        (hharmless.others j hj) (hharmless.returned j)

/-- What the operations keep that the calls may make is kept by every step. -/
theorem shared_step (hrely : ∀ i call, IsPreorder σ (rely i call))
    (y : System ι Op Resp Call α σ) (i : ι) (inv : σ → Prop)
    (h : AllSound handler choose rely keeps may post y) (hinv : inv y.shared)
    (hop : ∀ call began op next, (y.process i).running = some ⟨call, began, .call op next⟩ →
      may i y.shared op → inv (handler i y.shared op).2) :
    inv (step handler program choose i y).shared := by
  rcases step_cases handler program choose i y with hstep | ⟨call, hidle, hcall, hstep⟩ |
    ⟨call, began, a, hrunning, hstep⟩ | ⟨call, began, op, next, hrunning, hstep⟩
  · rw [hstep]
    exact hinv
  · rw [hstep]
    exact hinv
  · rw [hstep]
    exact hinv
  · rw [hstep]
    obtain ⟨hmay, -⟩ := (h i).running _ hrunning y.shared ((hrely i call).refl _)
    exact hop call began op next hrunning hmay

end Soundness

section Kills

/-- A step of a process, or the end of one in the middle of its call. -/
inductive Event (ι : Type) where
  | step (i : ι)
  | kill (i : ι)

variable [DecidableEq ι] (handler : ι → Handler Op Resp σ) (program : Call → Prog Op Resp α)
  (choose : ι → List (Finished Call α σ) → Option Call) (release : ι → σ → σ)

/-- A process is killed, and the system releases what it held; it may begin anew. -/
def System.kill (i : ι) (y : System ι Op Resp Call α σ) : System ι Op Resp Call α σ :=
  y.become i (release i y.shared) ⟨(y.process i).finished, none⟩

def runEvents (y : System ι Op Resp Call α σ) : List (Event ι) → System ι Op Resp Call α σ
  | [] => y
  | .step i :: rest => runEvents (step handler program choose i y) rest
  | .kill i :: rest => runEvents (y.kill release i) rest

variable {handler program choose release} {rely : ι → Call → σ → σ → Prop}
  {keeps : Call → σ → σ → Prop} {may : ι → σ → Op → Prop} {post : ι → Call → σ → α → σ → Prop}

/-- What every step and every kill keeps holds after every run. -/
theorem runEvents_invariant {inv : System ι Op Resp Call α σ → Prop}
    (hstep : ∀ y i, inv y → inv (step handler program choose i y))
    (hkill : ∀ y i, inv y → inv (y.kill release i))
    (y : System ι Op Resp Call α σ) (events : List (Event ι)) (hy : inv y) :
    inv (runEvents handler program choose release y events) := by
  induction events generalizing y with
  | nil => exact hy
  | cons event rest ih =>
    cases event with
    | step i => exact ih _ (hstep y i hy)
    | kill i => exact ih _ (hkill y i hy)

theorem allOnly_kill {ok : ι → Call → Op → Prop} (i : ι) (y : System ι Op Resp Call α σ)
    (h : AllOnly ok y) : AllOnly ok (y.kill release i) :=
  allOnly_become h i _ _ (fun _ hr => nomatch hr)

/-- A kill is sound when what is released disturbs neither the others nor what was returned. -/
theorem allSound_kill (hrely : ∀ i call, IsTrans σ (rely i call))
    (y : System ι Op Resp Call α σ) (i : ι)
    (h : AllSound handler choose rely keeps may post y)
    (hothers : ∀ j, j ≠ i → ∀ r, (y.process j).running = some r →
      rely j r.call y.shared (release i y.shared))
    (hreturned : ∀ j, ∀ f ∈ (y.process j).finished,
      post j f.call f.began f.result (release i y.shared)) :
    AllSound handler choose rely keeps may post (y.kill release i) := by
  apply allSound_become
  · exact ⟨fun _ hr => (nomatch hr), fun _ hr => (nomatch hr), fun _ hr => (nomatch hr),
      hreturned i, (h i).called, (h i).ordered⟩
  · exact fun j hj => sound_other _ _ _ (h j) (hrely j) (hothers j hj) (hreturned j)

end Kills

end Decillion.Interleavings
