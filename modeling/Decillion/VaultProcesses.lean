import Decillion.SharedVaults

/-!
Any number of processes on one vault directory. Every process constructs stores and calls
`add_file` on stores that it has constructed; the operations of all of them on the files
come in any order. Temporary names and identifiers are random and taken to be different.
-/
namespace Decillion.VaultProcesses

open ByteText JsonText Primitives PyErrors Programs HostSystem HostRules Interleavings SharedHosts
  SharedVaults ShardManifests ShardVault VaultReads VaultWrites VaultRuns

inductive Outcome (F : Type) where
  | store (store : VaultStore)
  | manifest (manifest : ModelManifest F)

abbrev Done (F : Type) := Finished (VaultCall F) (Except PyError (Outcome F)) Host

abbrev Processes (ι F : Type) :=
  System ι SysOp (Resp F) (VaultCall F) (Except PyError (Outcome F)) Host

def Constructed {F : Type} (f : Done F) : Prop := ∃ store, f.result = .ok (.store store)

/-- How a process goes on after the calls it has made. -/
structure Caller (F : Type) (root : Path) where
  choose : List (Done F) → Option (VaultCall F)
  constructed : ∀ earlier size positive call, choose earlier = some (.add size positive call) →
    ∃ f ∈ earlier, f.result = .ok (.store ⟨root, size, positive⟩)

variable {F ι : Type} [FloatText F] (crypto : Crypto) (root : Path)

def program : VaultCall F → Act F PyError (Outcome F)
  | .construct shardSize => do
      let store ← openStore root shardSize
      return .store store
  | .add size positive call => do
      let manifest ← addFile crypto ⟨root, size, positive⟩ call
      return .manifest manifest

/-- No random name is drawn twice up to this tick, by one process or by two. -/
structure DistinctNames (env : ι → Env F) (limit : ℕ) : Prop where
  tempName : ∀ i j, ∀ k, k < limit → ∀ l, l < limit →
    (env i).tempName k = (env j).tempName l → i = j
  uuid : ∀ i j, ∀ k, k < limit → ∀ l, l < limit → (env i).uuid k = (env j).uuid l → i = j ∧ k = l

/-- The wrapped keys that are still to be named are not there yet. -/
def FreshKeys (env : ι → Env F) (limit : ℕ) (s : Host) : Prop :=
  ∀ i tick, s.tick ≤ tick → tick < limit →
    s.files (keyPath root ("k_" ++ (env i).uuid tick)) = none

variable [DecidableEq ι]

def stepVault (env : ι → Env F) (callers : ι → Caller F root) (i : ι) (y : Processes ι F) :
    Processes ι F :=
  step (fun i => handle (env i)) (program crypto root) (fun i => (callers i).choose) i y

def runVault (env : ι → Env F) (callers : ι → Caller F root) (s : Host) (schedule : List ι) :
    Processes ι F :=
  runAll (fun i => handle (env i)) (program crypto root) (fun i => (callers i).choose)
    (System.start s) schedule

/-- A condition on every step of a run of the processes. -/
def ObeysVault (env : ι → Env F) (callers : ι → Caller F root)
    (allowed : Processes ι F → ι → Prop) (s : Host) (schedule : List ι) : Prop :=
  Obeys (fun i => handle (env i)) (program crypto root) (fun i => (callers i).choose) allowed
    (System.start s) schedule

variable {root} {env : ι → Env F} {limit : ℕ}

omit [FloatText F] [DecidableEq ι] in
theorem tempPath_ne {i j : ι} (hnames : DistinctNames env limit) (hij : i ≠ j) (dir dir' : Path)
    (k l : ℕ) (hk : k < limit) (hl : l < limit) :
    tempPath (env i) dir k ≠ tempPath (env j) dir' l := by
  intro h
  have hlast := (List.append_inj' h rfl).2
  simp only [List.cons.injEq, and_true] at hlast
  have hchars := congrArg String.toList hlast
  rw [String.toList_append, String.toList_append, List.append_cancel_left_eq] at hchars
  exact hij (hnames.tempName i j k hk l hl (String.toList_inj.mp hchars))

omit [FloatText F] [DecidableEq ι] in
/-- The wrapped keys of a process can only be published by itself. -/
theorem publishes_key {i j : ι} (hnames : DistinctNames env limit) {s : Host} {path : Path}
    {value : Bytes} {tick : ℕ} (htick : tick < limit)
    (h : Publishes crypto root (env i) limit s path value)
    (hpath : keyPath root ("k_" ++ (env j).uuid tick) = path) : i = j ∧ tick < s.tick := by
  cases h with
  | config vaultId salt shardSize hsalt => exact absurd hpath (keyPath_ne_configPath _)
  | shard hash value => exact absurd hpath (keyPath_ne_shardPath _ _)
  | key tick' value hdrawn hlimit hfresh =>
    obtain ⟨hij, rfl⟩ := hnames.uuid j i tick htick tick' hlimit (keyPath_injective _ _ hpath)
    exact ⟨hij.symm, hdrawn⟩
  | manifest modelId value => exact absurd hpath (keyPath_ne_manifestPath crypto _ _)

abbrev MayVault (root : Path) (env : ι → Env F) (limit : ℕ) (i : ι) : Host → SysOp → Prop :=
  May (env i) limit (Publishes crypto root (env i) limit)

omit [FloatText F] [DecidableEq ι] in
/-- What an operation of one process leaves to another. -/
theorem later_of_may {i j : ι} (hnames : DistinctNames env limit) (hij : i ≠ j)
    {shared : Host → Host → Prop} {s : Host} {op : SysOp} (htick : s.tick < limit)
    (hmay : MayVault crypto root env limit i s op) (hshared : shared s (handle (env i) s op).2) :
    Undisturbed (env j) limit (Later root (env j) limit shared) s (handle (env i) s op).2 where
  temporary dir tick hlt := handle_may_temporary hmay htick _ (isTemporary_tempPath _ _ _)
    (fun dir' tick' hlt' => tempPath_ne hnames hij.symm dir dir' tick tick' hlt hlt')
  later := by
    refine ⟨?_, ?_, hshared⟩
    · rw [handle_tick]
      omega
    · intro tick hlt
      rcases handle_may_cases hmay with h | ⟨source, target, value, -, -, hpublish, hreplaced⟩
      · exact h _ (isTemporary_keyPath root _)
      · apply hreplaced.2.1 _ (isTemporary_keyPath root _)
        exact fun htarget => hij (publishes_key crypto hnames hlt hpublish htarget).1

omit [FloatText F] [DecidableEq ι] in
theorem freshKeys_of_may {i : ι} (hnames : DistinctNames env limit) {s : Host} {op : SysOp}
    (hmay : MayVault crypto root env limit i s op) (hfresh : FreshKeys root env limit s) :
    FreshKeys root env limit (handle (env i) s op).2 := by
  intro j tick hle hlt
  rw [handle_tick] at hle
  have hbefore := hfresh j tick (by omega) hlt
  rcases handle_may_cases hmay with h | ⟨source, target, value, -, -, hpublish, hreplaced⟩
  · rw [h _ (isTemporary_keyPath root _), hbefore]
  · rw [hreplaced.2.1 _ (isTemporary_keyPath root _), hbefore]
    intro htarget
    have hdrawn := (publishes_key crypto hnames hlt hpublish htarget).2
    omega

omit [DecidableEq ι] in
/-- What a call of a process ends with, whatever the others do within its reliance. -/
theorem safe_program {i : ι} {shared : Host → Host → Prop} [IsPreorder Host shared]
    {post : Except PyError (Outcome F) → Host → Prop} (call : VaultCall F) (s : Host)
    (hfresh : FreshKeys root env limit s) (herror : ∀ e s', post (.error e) s')
    (hstore : ∀ store s₁ s' salt, (∃ shardSize, call = .construct shardSize) →
      ValidConfig F root s₁.files salt → shared s₁ s' → post (.ok (.store store)) s')
    (hmanifest : ∀ size positive add manifest s', call = .add size positive add →
      Returned crypto root (env i) limit shared add s s' manifest →
        post (.ok (.manifest manifest)) s') :
    SafeVault crypto root (env i) limit shared post (program crypto root call) s := by
  cases call with
  | construct shardSize =>
    apply safe_then
    apply safe_openStore crypto
    · exact fun e s' s'' _ => herror e s''
    · exact fun store s₁ s' salt hvalid hshared s'' h => hstore store s₁ s'' salt ⟨_, rfl⟩ hvalid
        (trans_of shared hshared h.later.shared)
  | add size positive add =>
    apply safe_then
    apply safe_addFile crypto size positive add s (hfresh i)
    · exact fun e s' s'' _ => herror e s''
    · intro manifest s' h s'' h'
      exact hmanifest size positive add manifest s'' rfl (h.later crypto h'.later.shared)

variable (env) in
theorem stepVault_tick (callers : ι → Caller F root) (i : ι) (y : Processes ι F) :
    y.shared.tick ≤ (stepVault crypto root env callers i y).shared.tick ∧
      (stepVault crypto root env callers i y).shared.tick ≤ y.shared.tick + 1 := by
  unfold stepVault
  rcases step_cases (fun i => handle (env i)) (program crypto root)
    (fun i => (callers i).choose) i y with
    hstep | ⟨call, -, -, hstep⟩ | ⟨call, began, a, -, hstep⟩ | ⟨call, began, op, next, -, hstep⟩
  · rw [hstep]
    omega
  · rw [hstep]
    exact ⟨le_rfl, Nat.le_succ _⟩
  · rw [hstep]
    exact ⟨le_rfl, Nat.le_succ _⟩
  · rw [hstep]
    change y.shared.tick ≤ (handle (env i) y.shared op).2.tick ∧
      (handle (env i) y.shared op).2.tick ≤ y.shared.tick + 1
    rw [handle_tick]
    omega

theorem runAll_tick (callers : ι → Caller F root) (y : Processes ι F) (schedule : List ι) :
    (runAll (fun i => handle (env i)) (program crypto root) (fun i => (callers i).choose)
      y schedule).shared.tick ≤ y.shared.tick + schedule.length := by
  induction schedule generalizing y with
  | nil => exact le_rfl
  | cons i rest ih =>
    have htick := (stepVault_tick crypto env callers i y).2
    have hrest := ih (stepVault crypto root env callers i y)
    rw [List.length_cons]
    exact hrest.trans (by omega)

/-- In a run of a given length the ticks stay below a limit. -/
theorem obeys_limit (callers : ι → Caller F root) {allowed : Processes ι F → ι → Prop}
    (y : Processes ι F) (schedule : List ι) (hlimit : y.shared.tick + schedule.length ≤ limit)
    (h : Obeys (fun i => handle (env i)) (program crypto root) (fun i => (callers i).choose)
      allowed y schedule) :
    Obeys (fun i => handle (env i)) (program crypto root) (fun i => (callers i).choose)
      (fun y i => allowed y i ∧ y.shared.tick < limit) y schedule := by
  induction schedule generalizing y with
  | nil => trivial
  | cons i rest ih =>
    rw [List.length_cons] at hlimit
    have htick := (stepVault_tick crypto env callers i y).2
    refine ⟨⟨h.1, by omega⟩, ih _ ?_ h.2⟩
    unfold stepVault at htick
    omega

end Decillion.VaultProcesses
