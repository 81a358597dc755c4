import Decillion.VaultChecks

/-!
Constructors of one vault at the same time. A constructor that finds no configuration writes
one with a salt of its own, and the replacement puts it over the one of another constructor.
As long as no constructor returns while another one has looked for the configuration, found none
and not yet replaced it, the salt stays as it is once a constructor has returned, and the data key
of every manifest that was returned can be unwrapped.
-/
namespace Decillion.ConfigRaces

open ByteText JsonText JsonStrings Primitives PyErrors Programs HostSystem HostRules
  Interleavings Executions HostExecutions CheckedActs SharedHosts SharedVaults ShardManifests
  ShardVault VaultReads VaultWrites VaultRuns VaultProcesses VaultExecutions VaultChecks

variable {F ι : Type} [FloatText F] (crypto : Crypto) (root : Path)

/-- A vault with a valid configuration keeps one. -/
def KeepsValid (F : Type) [FloatText F] (root : Path) (s s' : Host) : Prop :=
  ∀ salt, ValidConfig F root s.files salt → ∃ salt', ValidConfig F root s'.files salt'

/-- The configuration and the wrapped keys stay as they are. -/
structure KeepsKeys (s s' : Host) : Prop where
  config : s'.files (configPath root) = s.files (configPath root)
  keys : ∀ id value, s.files (keyPath root ("k_" ++ id)) = some value →
    s'.files (keyPath root ("k_" ++ id)) = some value

/-- What a call leaves to the calls of other processes. -/
def sharedBy : VaultCall F → Host → Host → Prop
  | .construct _ => KeepsValid F root
  | .add _ _ _ => KeepsKeys root

instance (call : VaultCall F) : IsPreorder Host (sharedBy root call) where
  refl s := by
    cases call with
    | construct shardSize => exact fun salt h => ⟨salt, h⟩
    | add size positive add => exact ⟨rfl, fun _ _ h => h⟩
  trans s s' s'' h h' := by
    cases call with
    | construct shardSize =>
      intro salt hvalid
      obtain ⟨salt', hvalid'⟩ := h salt hvalid
      exact h' salt' hvalid'
    | add size positive add =>
      exact ⟨h'.config.trans h.config, fun id value hvalue =>
        h'.keys id value (h.keys id value hvalue)⟩

/-- A configuration is written only as long as no constructor has returned. -/
def ConfiguresFirst (env : ι → Env F) (y : Processes ι F) (i : ι) : Prop :=
  ∀ source, y.operation i = some (.replace source (configPath root)) →
    (env i).fault y.shared.tick = false →
      ∀ j, ∀ f ∈ (y.process j).finished, ¬ Constructed f

/-- A constructor returns only when no call of another process is between its look for the
configuration and the replacement. -/
def ReturnsApart (y : Processes ι F) (i : ι) : Prop :=
  ∀ call began store, (y.process i).running = some ⟨call, began, .done (.ok (.store store))⟩ →
    (lookFirst F (configPath root)).SettledBeside y i

/-- What a call has achieved that has ended. -/
def post (env : ι → Env F) (i : ι) (call : VaultCall F) (_began : Host)
    (result : Except PyError (Outcome F)) (s : Host) : Prop :=
  match call, result with
  | .construct _, .ok _ => ∃ salt, ValidConfig F root s.files salt
  | .add _ _ _, .ok (.manifest manifest) => (∃ id, manifest.keyId = "k_" ++ id) ∧
      ∃ dataKey, dataKey.length = 32 ∧
        KeyStored F crypto root (passphrase (env i)) s.files manifest.keyId dataKey
  | .add _ _ _, .ok (.store _) => False
  | _, .error _ => True

variable {root} {env : ι → Env F} {limit : ℕ}

theorem keyStored_kept {passphrase : Option String} {s s' : Host} (h : KeepsKeys root s s')
    (id : String) (dataKey : Bytes)
    (hstored : KeyStored F crypto root passphrase s.files ("k_" ++ id) dataKey) :
    KeyStored F crypto root passphrase s'.files ("k_" ++ id) dataKey := by
  obtain ⟨text, content, master, nonce, htext, hconfig, hderive, hmaster, hnonce, hfile⟩ := hstored
  exact ⟨text, content, master, nonce, htext, h.config.trans hconfig, hderive, hmaster, hnonce,
    h.keys id _ hfile⟩

theorem post_kept {i : ι} {call : VaultCall F} {began : Host}
    {result : Except PyError (Outcome F)} {s s' : Host}
    (h : post crypto root env i call began result s) (hkept : sharedBy root call s s') :
    post crypto root env i call began result s' := by
  cases call with
  | construct shardSize =>
    cases result with
    | error e => trivial
    | ok outcome =>
      obtain ⟨salt, hvalid⟩ := h
      exact hkept salt hvalid
  | add size positive add =>
    match result, h with
    | .error e, _ => trivial
    | .ok (.store store), h => exact h.elim
    | .ok (.manifest manifest), ⟨⟨id, hid⟩, dataKey, hlength, hstored⟩ =>
      rw [hid] at hstored
      refine ⟨⟨id, hid⟩, dataKey, hlength, ?_⟩
      rw [hid]
      exact keyStored_kept crypto hkept id dataKey hstored

/-- A key that was wrapped under a configuration that has stayed can be unwrapped. -/
theorem keyStored_of_wrapped {env : Env F} {id : String} {s : Host}
    (h : Wrapped crypto root env (KeepsKeys root) ("k_" ++ id) s) :
    ∃ dataKey, dataKey.length = 32 ∧
      KeyStored F crypto root (passphrase env) s.files ("k_" ++ id) dataKey := by
  obtain ⟨text, s₁, content, master, nonce, dataKey, s₂, htext, hcontent, hmaster, hnonce, hdata,
    h₁, hkey, h₂⟩ := h
  exact ⟨dataKey, hdata, text, content, master, nonce, htext,
    h₂.config.trans (h₁.config.trans hcontent), hmaster,
    deriveKey_length crypto.scrypt text content master hmaster, hnonce, h₂.keys id _ hkey⟩

theorem safe_post (i : ι) (call : VaultCall F) (s : Host) (hfresh : FreshKeys root env limit s) :
    SafeVault crypto root (env i) limit (sharedBy root call)
      (post crypto root env i call s) (program crypto root call) s := by
  apply safe_program crypto call s hfresh
  · intro e s'
    cases call <;> trivial
  · rintro store s₁ s' salt ⟨shardSize, rfl⟩ hvalid hshared
    exact hshared salt hvalid
  · rintro size positive add manifest s' rfl h
    obtain ⟨tick, -, hkey⟩ := h.key
    have hwrapped := h.wrapped
    rw [hkey] at hwrapped
    refine ⟨⟨_, hkey⟩, ?_⟩
    rw [hkey]
    exact keyStored_of_wrapped crypto hwrapped

theorem valid_of_may {i : ι} {s : Host} {op : SysOp}
    (hmay : MayVault crypto root env limit i s op) :
    KeepsValid F root s (handle (env i) s op).2 := by
  intro salt hvalid
  have htemp := isTemporary_configPath root
  rcases handle_may_cases hmay with h | ⟨source, target, value, -, -, hpublish, hreplaced⟩
  · obtain ⟨content, config, hfile, hrest⟩ := hvalid
    exact ⟨salt, content, config, (h _ htemp).trans hfile, hrest⟩
  by_cases htarget : configPath root = target
  · cases hpublish with
    | config vaultId salt' shardSize hsalt =>
      exact ⟨salt', validConfig_of_written _ vaultId salt' shardSize hsalt hreplaced.1⟩
    | shard hash value => exact absurd htarget (configPath_ne_shardPath hash)
    | key tick value => exact absurd htarget.symm (keyPath_ne_configPath _)
    | manifest modelId value => exact absurd htarget (configPath_ne_manifestPath crypto modelId)
  · obtain ⟨content, config, hfile, hrest⟩ := hvalid
    exact ⟨salt, content, config, (hreplaced.2.1 _ htemp htarget).trans hfile, hrest⟩

omit [FloatText F] in
/-- A key is published under a name that is not there. -/
theorem publishes_absent {env : Env F} {s : Host} {path : Path} {value : Bytes} (keyId : String)
    (h : Publishes crypto root env limit s path value) (hpath : keyPath root keyId = path) :
    s.files path = none := by
  cases h with
  | config vaultId salt shardSize hsalt => exact absurd hpath (keyPath_ne_configPath _)
  | shard hash value => exact absurd hpath (keyPath_ne_shardPath _ _)
  | key tick value htick hlimit hfresh => exact hfresh
  | manifest modelId value => exact absurd hpath (keyPath_ne_manifestPath crypto _ _)

omit [FloatText F] in
theorem keys_of_may {i : ι} {s : Host} {op : SysOp} (hmay : MayVault crypto root env limit i s op)
    (hnot : ∀ source, op = .replace source (configPath root) → (env i).fault s.tick = false →
      False) : KeepsKeys root s (handle (env i) s op).2 := by
  rcases handle_may_cases hmay with h | ⟨source, target, value, hop, hfault, hpublish, hreplaced⟩
  · refine ⟨h _ (isTemporary_configPath root), fun id value hvalue => ?_⟩
    rw [h _ (isTemporary_keyPath root id), hvalue]
  · refine ⟨hreplaced.2.1 _ (isTemporary_configPath root) ?_, fun id value' hvalue => ?_⟩
    · rintro rfl
      exact hnot source hop hfault
    · rw [hreplaced.2.1 _ (isTemporary_keyPath root id), hvalue]
      intro htarget
      rw [htarget, publishes_absent crypto _ hpublish htarget] at hvalue
      simp at hvalue

variable (root env limit) in
/-- The invariant of the processes. -/
def Inv (callers : ι → Caller F root) (y : Processes ι F) : Prop :=
  AllSound (fun i => handle (env i)) (fun i => (callers i).choose)
    (fun i call => Undisturbed (env i) limit (Later root (env i) limit (sharedBy root call)))
    (fun call => Keeps limit (sharedBy root call)) (MayVault crypto root env limit)
    (post crypto root env) y ∧ FreshKeys root env limit y.shared

/-- Stores are made by constructors. -/
def Configured (y : Processes ι F) : Prop :=
  ∃ j, ∃ f ∈ (y.process j).finished, Constructed f

theorem configured_of_running (callers : ι → Caller F root) (y : Processes ι F)
    (hy : Inv crypto root env limit callers y) {j : ι} {size : ℕ} {positive : 0 < size}
    {add : AddFile F} {began : Host} {rest : Act F PyError (Outcome F)}
    (hrunning : (y.process j).running = some ⟨.add size positive add, began, rest⟩) :
    Configured y := by
  have hchosen := (hy.1 j).chosen _ hrunning
  obtain ⟨f, hf, hresult⟩ := (callers j).constructed _ _ _ _ hchosen
  exact ⟨j, f, hf, _, hresult⟩

theorem configured_of_finished (callers : ι → Caller F root) (y : Processes ι F)
    (hy : Inv crypto root env limit callers y) {j : ι} {f : Done F}
    (hf : f ∈ (y.process j).finished) {size : ℕ} {positive : 0 < size} {add : AddFile F}
    (hcall : f.call = .add size positive add) : Configured y := by
  obtain ⟨earlier, hprefix, hchoose⟩ := (hy.1 j).called f hf
  rw [hcall] at hchoose
  obtain ⟨g, hg, hresult⟩ := (callers j).constructed _ _ _ _ hchoose
  exact ⟨j, g, hprefix.subset hg, _, hresult⟩

/-- What an operation of a call leaves to a call that is running or has ended. -/
theorem shared_of_may (y : Processes ι F) {i : ι} {op : SysOp}
    (hmay : MayVault crypto root env limit i y.shared op) (hop : y.operation i = some op)
    (hfirst : ConfiguresFirst root env y i) (call : VaultCall F)
    (hconfigured : ∀ size positive add, call = .add size positive add → Configured y) :
    sharedBy root call y.shared (handle (env i) y.shared op).2 := by
  cases call with
  | construct shardSize => exact valid_of_may crypto hmay
  | add size positive add =>
    obtain ⟨j, f, hf, hstore⟩ := hconfigured size positive add rfl
    apply keys_of_may crypto hmay
    rintro source rfl hfault
    exact hfirst source hop hfault j f hf hstore

variable [DecidableEq ι]

theorem inv_step (hnames : DistinctNames env limit) (callers : ι → Caller F root)
    (y : Processes ι F) (i : ι) (hy : Inv crypto root env limit callers y)
    (hfirst : ConfiguresFirst root env y i) (htick : y.shared.tick < limit) :
    Inv crypto root env limit callers (stepVault crypto root env callers i y) := by
  obtain ⟨hsound, hfresh⟩ := hy
  constructor
  · apply allSound_step (fun _ _ => inferInstance) y i hsound
    · exact fun call _ => safe_post crypto i call y.shared hfresh
    · intro call began op next hrunning hmay
      have hshared := shared_of_may crypto y hmay (operation_of_running hrunning) hfirst
      refine ⟨⟨hshared call ?_, ?_⟩, ?_, ?_⟩
      · rintro size positive add rfl
        exact configured_of_running crypto callers y ⟨hsound, hfresh⟩ hrunning
      · rw [handle_tick]
        exact htick
      · intro j hj r hr
        apply later_of_may crypto hnames hj.symm htick hmay
        apply hshared
        rintro size positive add hcall
        obtain ⟨call', began', rest'⟩ := r
        cases hcall
        exact configured_of_running crypto callers y ⟨hsound, hfresh⟩ hr
      · intro j f hf
        apply post_kept crypto ((hsound j).finished f hf)
        apply hshared
        intro size positive add hcall
        exact configured_of_finished crypto callers y ⟨hsound, hfresh⟩ hf hcall
  · apply shared_step (fun _ _ => inferInstance) y i _ hsound hfresh
    exact fun call began op next _ hmay => freshKeys_of_may crypto hnames hmay hfresh

theorem configured_step (callers : ι → Caller F root) (y : Processes ι F) (i : ι)
    (h : Configured y) : Configured (stepVault crypto root env callers i y) := by
  obtain ⟨j, f, hf, hstore⟩ := h
  exact ⟨j, f, (finished_step i j y).subset hf, hstore⟩

theorem keys_step (callers : ι → Caller F root) (y : Processes ι F) (i : ι)
    (hy : Inv crypto root env limit callers y) (hfirst : ConfiguresFirst root env y i)
    (hconfigured : Configured y) :
    KeepsKeys root y.shared (stepVault crypto root env callers i y).shared := by
  apply shared_step (fun _ _ => inferInstance) y i (KeepsKeys root y.shared) hy.1
    ⟨rfl, fun _ _ h => h⟩
  intro call began op next hrunning hmay
  apply keys_of_may crypto hmay
  rintro source rfl hfault
  obtain ⟨j, f, hf, hstore⟩ := hconfigured
  exact hfirst source (operation_of_running hrunning) hfault j f hf hstore

theorem inv_run (hnames : DistinctNames env limit) (callers : ι → Caller F root)
    (y : Processes ι F) (schedule : List ι) (hlimit : y.shared.tick + schedule.length ≤ limit)
    (hy : Inv crypto root env limit callers y)
    (hfirst : Obeys (fun i => handle (env i)) (program crypto root) (fun i => (callers i).choose)
      (ConfiguresFirst root env) y schedule) :
    Inv crypto root env limit callers (runAll (fun i => handle (env i)) (program crypto root)
      (fun i => (callers i).choose) y schedule) :=
  runAll_invariant (fun z i hz h => inv_step crypto hnames callers z i hz h.1 h.2) y schedule hy
    (obeys_limit crypto callers y schedule hlimit hfirst)

/-- After a constructor has returned the configuration and the wrapped keys stay. -/
theorem keys_run (hnames : DistinctNames env limit) (callers : ι → Caller F root)
    (y : Processes ι F) (schedule : List ι) (hlimit : y.shared.tick + schedule.length ≤ limit)
    (hy : Inv crypto root env limit callers y) (hconfigured : Configured y)
    (hfirst : Obeys (fun i => handle (env i)) (program crypto root) (fun i => (callers i).choose)
      (ConfiguresFirst root env) y schedule) :
    KeepsKeys root y.shared (runAll (fun i => handle (env i)) (program crypto root)
      (fun i => (callers i).choose) y schedule).shared := by
  let inv : Processes ι F → Prop := fun z => Inv crypto root env limit callers z ∧
    Configured z ∧ KeepsKeys root y.shared z.shared
  have hstep : ∀ z i, inv z → ConfiguresFirst root env z i ∧ z.shared.tick < limit →
      inv (stepVault crypto root env callers i z) := by
    rintro z i ⟨hz, hconfigured, hkept⟩ ⟨hallowed, htick⟩
    have hkept' := keys_step crypto callers z i hz hallowed hconfigured
    exact ⟨inv_step crypto hnames callers z i hz hallowed htick,
      configured_step crypto callers z i hconfigured, hkept'.config.trans hkept.config,
      fun id value hvalue => hkept'.keys id value (hkept.keys id value hvalue)⟩
  exact (runAll_invariant hstep y schedule ⟨hy, hconfigured, rfl, fun _ _ h => h⟩
    (obeys_limit crypto callers y schedule hlimit hfirst)).2.2

omit [DecidableEq ι] in
theorem valid_of_configured (callers : ι → Caller F root) (y : Processes ι F)
    (hy : Inv crypto root env limit callers y) (hconfigured : Configured y) :
    ∃ salt, ValidConfig F root y.shared.files salt := by
  obtain ⟨j, f, hf, store, hstore⟩ := hconfigured
  have hpost := (hy.1 j).finished f hf
  cases hcall : f.call with
  | construct shardSize =>
    simp only [post, hcall, hstore] at hpost
    exact hpost
  | add size positive add =>
    simp only [post, hcall, hstore] at hpost

omit [DecidableEq ι] in
theorem inv_start (callers : ι → Caller F root) (s : Host) (hfresh : FreshKeys root env limit s) :
    Inv crypto root env limit callers (System.start s) :=
  ⟨allSound_start _ _ _ _ _ _ s, hfresh⟩

section Schedules

theorem configPath_apart (root : Path) :
    (∀ hash, shardPath root hash ≠ configPath root) ∧ ∀ keyId,
      keyPath root keyId ≠ configPath root :=
  ⟨fun _ => (configPath_ne_shardPath _).symm, fun _ => keyPath_ne_configPath _⟩

omit [DecidableEq ι] [FloatText F] in
theorem first_of_settled {y : Processes ι F} (i : ι)
    (h : Configured y → (lookFirst F (configPath root)).Settled y) :
    ConfiguresFirst root env y i := by
  intro source hop _ j f hf hstore
  obtain ⟨call, began, next, hrunning⟩ := running_of_operation hop
  exact h ⟨j, f, hf, hstore⟩ i _ hrunning (Or.inl ⟨source, rfl⟩)

/-- The step after which a constructor has returned for the first time is its return. -/
theorem returns_of_configured {callers : ι → Caller F root} {y : Processes ι F} {i : ι}
    (hbefore : ¬ Configured y) (h : Configured (stepVault crypto root env callers i y)) :
    ∃ call began store, (y.process i).running = some ⟨call, began, .done (.ok (.store store))⟩ := by
  obtain ⟨j, f, hf, store, hstore⟩ := h
  by_cases hj : j = i
  · subst hj
    unfold stepVault at hf
    rcases step_cases (fun i => handle (env i)) (program crypto root)
      (fun i => (callers i).choose) j y with
      hstep | ⟨call, -, -, hstep⟩ | ⟨call, began, a, hrunning, hstep⟩ | ⟨call, began, op,
        next, -, hstep⟩
    · rw [hstep] at hf
      exact absurd ⟨j, f, hf, store, hstore⟩ hbefore
    · rw [hstep, become_process_self] at hf
      exact absurd ⟨j, f, hf, store, hstore⟩ hbefore
    · rw [hstep, become_process_self] at hf
      rcases List.mem_append.mp hf with hf | hf
      · exact absurd ⟨j, f, hf, store, hstore⟩ hbefore
      · obtain rfl := List.mem_singleton.mp hf
        obtain rfl : a = .ok (.store store) := hstore
        exact ⟨call, began, store, hrunning⟩
    · rw [hstep, become_process_self] at hf
      exact absurd ⟨j, f, hf, store, hstore⟩ hbefore
  · rw [stepVault, process_step hj y] at hf
    exact absurd ⟨j, f, hf, store, hstore⟩ hbefore

/-- Once a constructor has returned no call replaces the configuration. -/
theorem settled_step {callers : ι → Caller F root} {y : Processes ι F} {i : ι}
    (hy : Inv crypto root env limit callers y)
    (hcareful : (lookFirst F (configPath root)).AllCareful y)
    (hsettled : Configured y → (lookFirst F (configPath root)).Settled y)
    (hreturns : ReturnsApart root y i)
    (h : Configured (stepVault crypto root env callers i y)) :
    (lookFirst F (configPath root)).Settled (stepVault crypto root env callers i y) := by
  have hbegin : ∀ call, ¬ (lookFirst F (configPath root)).Pending (program crypto root call) :=
    fun call => not_pending_program call (configPath_apart root).1 (configPath_apart root).2
  by_cases hbefore : Configured y
  · refine Guard.settled_step hbegin i y hcareful ((hsettled hbefore).beside i) fun op hop => ?_
    obtain ⟨salt, content, config, hfile, -⟩ := valid_of_configured crypto callers y hy hbefore
    exact Or.inr ⟨fun r => hsettled hbefore i r,
      not_passes_of_there (env i) (by rw [hfile]; exact Option.some_ne_none _) op⟩
  · obtain ⟨call, began, store, hrunning⟩ := returns_of_configured crypto hbefore h
    refine Guard.settled_step hbegin i y hcareful (hreturns call began store hrunning)
      fun op hop => ?_
    obtain ⟨call', began', next, hcall⟩ := running_of_operation hop
    rw [hrunning] at hcall
    cases hcall

/-- No configuration is written in such a run after a constructor has returned. -/
theorem obeys_first (hnames : DistinctNames env limit) (callers : ι → Caller F root) (start : Host)
    (schedule : List ι) (hlimit : start.tick + schedule.length ≤ limit)
    (hfresh : FreshKeys root env limit start)
    (h : ObeysVault crypto root env callers (ReturnsApart root) start schedule) :
    ObeysVault crypto root env callers (ConfiguresFirst root env) start schedule := by
  let inv : Processes ι F → Prop := fun z => Inv crypto root env limit callers z ∧
    (lookFirst F (configPath root)).AllCareful z ∧
      (Configured z → (lookFirst F (configPath root)).Settled z)
  have hstart : inv (System.start start) := ⟨inv_start crypto callers start hfresh,
    Guard.allCareful_start start, fun _ => Guard.settled_start start⟩
  apply obeys_of_invariant _ (System.start start) schedule hstart
    (obeys_limit crypto callers (System.start start) schedule hlimit h)
  rintro z i ⟨hz, hcareful, hsettled⟩ ⟨hreturns, htick⟩
  have hfirst : ConfiguresFirst root env z i := first_of_settled i hsettled
  refine ⟨hfirst, inv_step crypto hnames callers z i hz hfirst htick, ?_,
    settled_step crypto hz hcareful hsettled hreturns⟩
  exact Guard.allCareful_step
    (fun call => careful_program call (configPath_apart root).1 (configPath_apart root).2)
      i z hcareful

end Schedules

/-- In a run in which no constructor returns while another one has found no configuration and not
yet replaced it, the configuration stays as it is once a constructor has returned, and the data key
of a manifest that a call of `add_file` has returned is unwrapped with the passphrase of that
call. -/
theorem config_agreed (env : ι → Env F) (callers : ι → Caller F root) (start : Host)
    (first rest : List ι) (limit : ℕ) (hlimit : start.tick + (first ++ rest).length ≤ limit)
    (hnames : DistinctNames env limit) (hfresh : FreshKeys root env limit start)
    (hreturns : ObeysVault crypto root env callers (ReturnsApart root) start (first ++ rest)) :
    (Configured (runVault crypto root env callers start first) →
      (∃ salt, ValidConfig F root (runVault crypto root env callers start first).shared.files
        salt) ∧
      (runVault crypto root env callers start (first ++ rest)).shared.files (configPath root) =
        (runVault crypto root env callers start first).shared.files (configPath root)) ∧
    ∀ i, ∀ f ∈ ((runVault crypto root env callers start first).process i).finished,
      ∀ size positive call manifest, f.call = .add size positive call →
        f.result = .ok (.manifest manifest) → ∃ dataKey, ∀ j,
          passphrase (env j) = passphrase (env i) → ∀ s ∈ [runVault crypto root env callers start
            first, runVault crypto root env callers start (first ++ rest)],
            unwrapKey F crypto root (passphrase (env j)) s.shared.files manifest.keyId =
              .ok dataKey := by
  have hfirst := obeys_first crypto hnames callers start (first ++ rest) hlimit hfresh hreturns
  obtain ⟨hbefore, hafter⟩ := (obeys_append _ first rest).mp hfirst
  rw [List.length_append] at hlimit
  have hreach : (runVault crypto root env callers start first).shared.tick ≤
      start.tick + first.length := runAll_tick crypto callers (System.start start) first
  have hy : Inv crypto root env limit callers (runVault crypto root env callers start first) :=
    inv_run crypto hnames callers (System.start start) first (by
      change start.tick + first.length ≤ limit
      omega) (inv_start crypto callers start hfresh) hbefore
  have hkept := fun hconfigured => keys_run crypto hnames callers _ rest (by omega) hy hconfigured
    hafter
  have hsplit : runVault crypto root env callers start (first ++ rest) =
      runAll (fun i => handle (env i)) (program crypto root) (fun i => (callers i).choose)
        (runVault crypto root env callers start first) rest := runAll_append _ first rest
  rw [hsplit]
  constructor
  · exact fun hconfigured => ⟨valid_of_configured crypto callers _ hy hconfigured,
      (hkept hconfigured).config⟩
  · intro i f hf size positive call manifest hcall hresult
    have hpost := (hy.1 i).finished f hf
    simp only [post, hcall, hresult] at hpost
    obtain ⟨⟨id, hid⟩, dataKey, hlength, hstored⟩ := hpost
    rw [hid] at hstored ⊢
    have hlater := keyStored_kept crypto
      (hkept (configured_of_finished crypto callers _ hy hf hcall)) id dataKey hstored
    refine ⟨dataKey, fun j hj s hs => ?_⟩
    rw [hj]
    simp only [List.mem_cons, List.not_mem_nil, or_false] at hs
    rcases hs with rfl | rfl
    · exact unwrapKey_stored F crypto root _ _ _ dataKey hlength hstored
    · exact unwrapKey_stored F crypto root _ _ _ dataKey hlength hlater

section Samples

/-- The first constructor returns, and its process adds a file. -/
def addingSchedule : List Bool := List.replicate 29 false

theorem phase_adding : ∃ s, SamplePhase oneOpened addingSchedule (bothOpened.become false s
    ⟨added false Host.empty bothOpened.shared 11, none⟩) := by
  obtain ⟨rest, hcheck, hpublish⟩ := phase_add false bothOpened Host.empty
    (become_process_self _ _ _ _)
      (sampleHost_of_ne _ (configPath_ne_manifestPath Crypto.sample "m").symm)
  let checked := bothOpened.become false (after bothOpened.shared 1) ⟨opened Host.empty,
    some ⟨.add 4 (by decide) (sampleCall false), bothOpened.shared, rest⟩⟩
  have hshard : checked.shared.files (sampleShard false 11) = none :=
    sampleHost_of_ne _ (sampleShard_ne_configPath false 11)
  obtain ⟨s, hpublished, -⟩ := hpublish checked false 1 11 rfl (become_process_self _ _ _ _)
    noTemporary_sample sampleHost_config hshard
  have hadded := phase_add_ended false hpublished
  rw [become_become] at hadded
  exact ⟨s, phase_both.append (hcheck.append hadded)⟩

/-- A process that is scheduled alone meets the condition if the other one is not pending. -/
theorem obeys_block (y : Processes Bool WholeFloat) (i : Bool) (n : ℕ)
    (h : ∀ r, (y.process (!i)).running = some r →
      ¬ (lookFirst WholeFloat (configPath ["vault"])).Pending r.rest) :
    Obeys (fun i => handle (sampleEnvs i)) (program Crypto.sample ["vault"])
      (fun i => (sampleCallers i).choose) (ReturnsApart ["vault"]) y (List.replicate n i) := by
  apply obeys_mono _ _ _ (obeys_alone y i n)
  rintro z _ ⟨rfl, hsame⟩ call began store - j hj r hr
  rw [hsame j hj, Bool.eq_not.mpr hj] at hr
  exact h r hr

theorem obeys_sample : ObeysVault Crypto.sample ["vault"] sampleEnvs sampleCallers
    (ReturnsApart ["vault"]) Host.empty (openingSchedule ++ addingSchedule) := by
  refine phase_openings.obeys (phase_written.obeys ?_ ?_) ?_
  · exact obeys_block _ false 9 fun r hr => by cases hr
  · refine obeys_block _ true 4 fun r hr => ?_
    rw [oneWritten, Bool.not_true, become_process_self] at hr
    obtain rfl := Option.some.inj hr
    exact fun hpending => hpending
  · refine obeys_block _ false 29 fun r hr => ?_
    rw [oneOpened, Bool.not_false, become_process_self] at hr
    cases hr

/-- `config_agreed` for two constructors at the same time and a call of `add_file`. -/
theorem config_agreed_sample :
    (runVault Crypto.sample ["vault"] sampleEnvs sampleCallers Host.empty
        (openingSchedule ++ addingSchedule)).shared.files (configPath ["vault"]) =
      (runVault Crypto.sample ["vault"] sampleEnvs sampleCallers Host.empty
        openingSchedule).shared.files (configPath ["vault"]) ∧
    ∃ dataKey, unwrapKey WholeFloat Crypto.sample ["vault"] (some "correct horse")
      (runVault Crypto.sample ["vault"] sampleEnvs sampleCallers Host.empty
        ((openingSchedule ++ addingSchedule) ++ [])).shared.files (sampleManifest false 11).keyId =
          .ok dataKey := by
  have hfirst := config_agreed Crypto.sample sampleEnvs sampleCallers Host.empty openingSchedule
    addingSchedule 100 (by decide) distinctNames_sample (fun _ _ _ _ => rfl) obeys_sample
  have hall := config_agreed Crypto.sample sampleEnvs sampleCallers Host.empty
    (openingSchedule ++ addingSchedule) [] 100 (by decide) distinctNames_sample
    (fun _ _ _ _ => rfl) (by rw [List.append_nil]; exact obeys_sample)
  obtain ⟨s, hadding⟩ := phase_adding
  have hrun : runVault Crypto.sample ["vault"] sampleEnvs sampleCallers Host.empty
      (openingSchedule ++ addingSchedule) = bothOpened.become false s
        ⟨added false Host.empty bothOpened.shared 11, none⟩ := phase_openings.append hadding
  constructor
  · apply (hfirst.1 ⟨true, ⟨.construct 4, sampleHost, .ok sampleStore⟩, ?_, _, rfl⟩).2
    rw [runVault, phase_openings, oneOpened, become_process_self]
    exact List.mem_singleton_self _
  · obtain ⟨dataKey, hkey⟩ := hall.2 false ⟨.add 4 four_positive (sampleCall false),
      bothOpened.shared, .ok (.manifest (sampleManifest false 11))⟩ (by
        rw [hrun, become_process_self]
        exact List.mem_append_right _ (List.mem_singleton_self _)) 4 four_positive
      (sampleCall false) (sampleManifest false 11) rfl rfl
    exact ⟨dataKey, hkey false rfl _ (List.mem_cons_of_mem _ (List.mem_singleton_self _))⟩

end Samples

def firstSchedule : List Bool :=
  ([false] ++ List.replicate 1 false) ++ (([true] ++ List.replicate 1 true) ++
    (List.replicate 7 false ++ [false]))

def restSchedule : List Bool := List.replicate 7 true

theorem validConfig_unique {files : Files} {vaultId : String} {salt salt' : Bytes} {size : ℕ}
    (hfile : files (configPath root) = some (configText vaultId salt size))
    (h : ValidConfig F root files salt') : salt' = salt := by
  obtain ⟨content, config, hcontent, hload, hsalt, -⟩ := h
  rw [hfile, Option.some.injEq] at hcontent
  rw [← hcontent, configText, loadConfig_configJson] at hload
  rw [← Except.ok.inj hload, configSalt_configMembers] at hsalt
  exact (Except.ok.inj hsalt).symm

/-- Both constructors look for the configuration before either of them writes one. -/
theorem phase_race : ∃ y y', SamplePhase (System.start Host.empty) firstSchedule y ∧
    SamplePhase y restSchedule y' ∧ Configured y ∧
    y.shared.files (configPath ["vault"]) = some (sampleConfig false 2) ∧
    y'.shared.files (configPath ["vault"]) = some (sampleConfig true 9) := by
  obtain ⟨rest, hcheck, hwrite⟩ := phase_construct false (System.start Host.empty) rfl rfl
  let checked : Processes Bool WholeFloat :=
    (System.start Host.empty).become false (after Host.empty 1)
      ⟨[], some ⟨.construct 4, Host.empty, rest⟩⟩
  obtain ⟨rest', hcheck', hwrite'⟩ := phase_construct true checked
    (become_process_of_ne _ (by decide) _ _) rfl
  let racing := checked.become true (after checked.shared 1)
    ⟨[], some ⟨.construct 4, checked.shared, rest'⟩⟩
  have hwritten := hwrite racing
    ((become_process_of_ne _ (by decide) _ _).trans (become_process_self _ _ _ _))
    (fun _ _ => rfl)
  let written := racing.become false (stored racing.shared 7 (configPath ["vault"])
    (sampleConfig false racing.shared.tick)) ⟨opened Host.empty, none⟩
  have hreturned : SamplePhase racing (List.replicate 7 false ++ [false]) written := by
    have hreturn := phase_constructed false (racing.become false (stored racing.shared 7
      (configPath ["vault"]) (sampleConfig false racing.shared.tick)) (constructing Host.empty))
      Host.empty (become_process_self _ _ _ _)
    rw [become_become] at hreturn
    exact hwritten.append hreturn
  have hwritten' := hwrite' written
    ((become_process_of_ne _ (by decide) _ _).trans (become_process_self _ _ _ _))
    (noTemporary_stored (fun _ _ => rfl) 7 _ _ (isTemporary_configPath _))
  refine ⟨written, _, hcheck.append (hcheck'.append hreturned), hwritten', ?_, ?_, ?_⟩
  · refine ⟨false, ⟨.construct 4, Host.empty, .ok sampleStore⟩, ?_, _, rfl⟩
    rw [become_process_self]
    exact List.mem_singleton_self _
  · exact stored_self racing.shared 7 _ _
  · exact stored_self written.shared 7 _ _

/-- A constructor has returned, and the salt it has written is replaced by another one. -/
theorem config_replaced : ¬ ∀ first rest salt,
    Configured (runVault Crypto.sample ["vault"] sampleEnvs sampleCallers Host.empty first) →
    ValidConfig WholeFloat ["vault"] (runVault Crypto.sample ["vault"] sampleEnvs sampleCallers
      Host.empty first).shared.files salt →
    ValidConfig WholeFloat ["vault"] (runVault Crypto.sample ["vault"] sampleEnvs sampleCallers
      Host.empty (first ++ rest)).shared.files salt := by
  intro hclaim
  obtain ⟨y, y', hrun, hrun', hconfigured, hfile, hfile'⟩ := phase_race
  have hfirst : runVault Crypto.sample ["vault"] sampleEnvs sampleCallers Host.empty
      firstSchedule = y := hrun
  have hsplit : runVault Crypto.sample ["vault"] sampleEnvs sampleCallers Host.empty
      (firstSchedule ++ restSchedule) = y' := by
    rw [runVault, runAll_append]
    exact (congrArg (runAll _ _ _ · restSchedule) hrun).trans hrun'
  have hsalt := hclaim firstSchedule restSchedule ((sampleEnvs false).random 3 16)
    (by rw [hfirst]; exact hconfigured) (by
      rw [hfirst]
      exact validConfig_of_written _ _ _ _ ((sampleEnvs false).random_length _ _) hfile)
  rw [hsplit] at hsalt
  have hsame := validConfig_unique hfile' hsalt
  revert hsame
  decide

end Decillion.ConfigRaces
