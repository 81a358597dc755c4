import Decillion.VaultChecks

/-!
Calls of `add_file` for the same model at the same time. The check for the manifest and the
replacement that publishes it are two operations far apart, so two calls can both return.
As long as no call publishes between the check of another one for the model and its publication,
at most one call for each model returns, and `get_manifest` keeps returning its manifest.
-/
namespace Decillion.ManifestRaces

open ByteText JsonValues JsonText JsonStrings Primitives PyErrors Programs HostSystem HostRules
  Interleavings Executions HostExecutions CheckedActs SharedHosts SharedVaults ShardManifests
  ShardVault VaultReads VaultWrites VaultRuns VaultProcesses VaultExecutions VaultChecks

variable {F ι : Type} [FloatText F] (crypto : Crypto) (root : Path)

/-- The manifests that are there stay as they are. -/
def KeepsManifests (s s' : Host) : Prop :=
  ∀ modelId value, s.files (manifestPath crypto.sha root modelId) = some value →
    s'.files (manifestPath crypto.sha root modelId) = some value

instance : IsPreorder Host (KeepsManifests crypto root) where
  refl _ := fun _ _ h => h
  trans _ _ _ h h' := fun modelId value hvalue => h' modelId value (h modelId value hvalue)

/-- A step that publishes a manifest finds none under its name. -/
def PublishesNew (env : ι → Env F) (y : Processes ι F) (i : ι) : Prop :=
  ∀ source modelId,
    y.operation i = some (.replace source (manifestPath crypto.sha root modelId)) →
      (env i).fault y.shared.tick = false →
        y.shared.files (manifestPath crypto.sha root modelId) = none

/-- A step publishes a manifest only when no call of another process is between its check for it
and its publication. -/
def PublishesApart (env : ι → Env F) (y : Processes ι F) (i : ι) : Prop :=
  ∀ source modelId,
    y.operation i = some (.replace source (manifestPath crypto.sha root modelId)) →
      (env i).fault y.shared.tick = false →
        (lookFirst F (manifestPath crypto.sha root modelId)).SettledBeside y i

/-- What a call of `add_file` has done that has ended. -/
def Ended (env : ι → Env F) (limit : ℕ) (i : ι) (call : AddFile F) (began : Host)
    (result : Except PyError (Outcome F)) (s : Host) : Prop :=
  (∃ e, result = .error e) ∨ ∃ manifest, result = .ok (.manifest manifest) ∧
    manifest.modelId = call.modelId ∧ DistinctKeys (.obj manifest.metadata) ∧
    began.files (manifestPath crypto.sha root call.modelId) = none ∧
    (∃ tick, tick < limit ∧ manifest.keyId = "k_" ++ (env i).uuid tick) ∧
    s.files (manifestPath crypto.sha root call.modelId) = some (encode manifest.toJson)

def post (env : ι → Env F) (limit : ℕ) (i : ι) (call : VaultCall F) (began : Host)
    (result : Except PyError (Outcome F)) (s : Host) : Prop :=
  match call with
  | .construct _ => True
  | .add _ _ add => Ended crypto root env limit i add began result s

variable {root} {env : ι → Env F} {limit : ℕ}

theorem post_kept {i : ι} {call : VaultCall F} {began : Host}
    {result : Except PyError (Outcome F)} {s s' : Host}
    (h : post crypto root env limit i call began result s)
    (hkept : KeepsManifests crypto root s s') :
    post crypto root env limit i call began result s' := by
  cases call with
  | construct shardSize => trivial
  | add size positive add =>
    rcases h with h | ⟨manifest, hresult, hid, hmetadata, habsent, hkey, hfile⟩
    · exact Or.inl h
    · exact Or.inr ⟨manifest, hresult, hid, hmetadata, habsent, hkey, hkept _ _ hfile⟩

theorem safe_post (i : ι) (call : VaultCall F) (s : Host) (hfresh : FreshKeys root env limit s) :
    SafeVault crypto root (env i) limit (KeepsManifests crypto root)
      (post crypto root env limit i call s) (program crypto root call) s := by
  apply safe_program crypto call s hfresh
  · intro e s'
    cases call with
    | construct shardSize => trivial
    | add size positive add => exact Or.inl ⟨e, rfl⟩
  · rintro store s₁ s' salt ⟨shardSize, rfl⟩ - -
    trivial
  · rintro size positive add manifest s' rfl h
    obtain ⟨s₁, hbegan, hnone⟩ := h.absent
    obtain ⟨s₂, hfile, hkept⟩ := h.published
    have habsent : s.files (manifestPath crypto.sha root add.modelId) = none := by
      cases hthere : s.files (manifestPath crypto.sha root add.modelId) with
      | none => rfl
      | some value =>
        rw [hbegan _ _ hthere] at hnone
        simp at hnone
    exact Or.inr ⟨manifest, rfl, h.modelId, h.metadata, habsent, h.key, hkept _ _ hfile⟩

omit [FloatText F] in
theorem kept_of_may {i : ι} {s : Host} {op : SysOp} (hmay : MayVault crypto root env limit i s op)
    (hnew : ∀ source modelId, op = .replace source (manifestPath crypto.sha root modelId) →
      (env i).fault s.tick = false → s.files (manifestPath crypto.sha root modelId) = none) :
    KeepsManifests crypto root s (handle (env i) s op).2 := by
  intro modelId value hvalue
  have htemp := isTemporary_manifestPath crypto root modelId
  rcases handle_may_cases hmay with h | ⟨source, target, published, hop, hfault, -, hreplaced⟩
  · rw [h _ htemp, hvalue]
  · have hne : manifestPath crypto.sha root modelId ≠ target := by
      rintro rfl
      rw [hnew source modelId hop hfault] at hvalue
      simp at hvalue
    rw [hreplaced.2.1 _ htemp hne, hvalue]

variable (root env limit) in
/-- The invariant of the processes. -/
def Inv (callers : ι → Caller F root) (y : Processes ι F) : Prop :=
  AllSound (fun i => handle (env i)) (fun i => (callers i).choose)
    (fun i _ => Undisturbed (env i) limit (Later root (env i) limit (KeepsManifests crypto root)))
    (fun _ => Keeps limit (KeepsManifests crypto root)) (MayVault crypto root env limit)
    (post crypto root env limit) y ∧ FreshKeys root env limit y.shared

variable [DecidableEq ι]

theorem inv_step (hnames : DistinctNames env limit) (callers : ι → Caller F root)
    (y : Processes ι F) (i : ι) (hy : Inv crypto root env limit callers y)
    (hnew : PublishesNew crypto root env y i) (htick : y.shared.tick < limit) :
    Inv crypto root env limit callers (stepVault crypto root env callers i y) := by
  obtain ⟨hsound, hfresh⟩ := hy
  have hkept : ∀ call began op next, (y.process i).running = some ⟨call, began, .call op next⟩ →
      MayVault crypto root env limit i y.shared op →
        KeepsManifests crypto root y.shared (handle (env i) y.shared op).2 := by
    intro call began op next hrunning hmay
    apply kept_of_may crypto hmay
    intro source modelId hop hfault
    exact hnew source modelId (by rw [operation_of_running hrunning, hop]) hfault
  constructor
  · apply allSound_step (fun _ _ => inferInstance) y i hsound
    · exact fun call _ => safe_post crypto i call y.shared hfresh
    · intro call began op next hrunning hmay
      have hshared := hkept call began op next hrunning hmay
      refine ⟨⟨hshared, ?_⟩, ?_, ?_⟩
      · rw [handle_tick]
        exact htick
      · exact fun j hj _ _ => later_of_may crypto hnames hj.symm htick hmay hshared
      · exact fun j f hf => post_kept crypto ((hsound j).finished f hf) hshared
  · apply shared_step (fun _ _ => inferInstance) y i _ hsound hfresh
    exact fun call began op next _ hmay => freshKeys_of_may crypto hnames hmay hfresh

theorem kept_step (callers : ι → Caller F root) (y : Processes ι F) (i : ι)
    (hy : Inv crypto root env limit callers y) (hnew : PublishesNew crypto root env y i) :
    KeepsManifests crypto root y.shared (stepVault crypto root env callers i y).shared := by
  apply shared_step (fun _ _ => inferInstance) y i _ hy.1 (refl_of _ y.shared)
  intro call began op next hrunning hmay
  apply kept_of_may crypto hmay
  intro source modelId hop hfault
  exact hnew source modelId (by rw [operation_of_running hrunning, hop]) hfault

/-- The invariant holds in every state that is reached, and manifests stay on the way. -/
theorem inv_run (hnames : DistinctNames env limit) (callers : ι → Caller F root)
    (y : Processes ι F) (schedule : List ι) (hlimit : y.shared.tick + schedule.length ≤ limit)
    (hy : Inv crypto root env limit callers y)
    (hnew : Obeys (fun i => handle (env i)) (program crypto root) (fun i => (callers i).choose)
      (PublishesNew crypto root env) y schedule) :
    Inv crypto root env limit callers (runAll (fun i => handle (env i)) (program crypto root)
        (fun i => (callers i).choose) y schedule) ∧
      KeepsManifests crypto root y.shared (runAll (fun i => handle (env i)) (program crypto root)
        (fun i => (callers i).choose) y schedule).shared := by
  let inv : Processes ι F → Prop := fun z => Inv crypto root env limit callers z ∧
    KeepsManifests crypto root y.shared z.shared
  have hstep : ∀ z i, inv z → PublishesNew crypto root env z i ∧ z.shared.tick < limit →
      inv (stepVault crypto root env callers i z) := by
    rintro z i ⟨hz, hkept⟩ ⟨hallowed, htick⟩
    exact ⟨inv_step crypto hnames callers z i hz hallowed htick,
      trans_of _ hkept (kept_step crypto callers z i hz hallowed)⟩
  exact runAll_invariant hstep y schedule ⟨hy, refl_of _ _⟩
    (obeys_limit crypto callers y schedule hlimit hnew)

omit [DecidableEq ι] in
theorem keyId_of_toJson (m m' : ModelManifest F) (hm : DistinctKeys (.obj m.metadata))
    (hm' : DistinctKeys (.obj m'.metadata)) (h : encode m.toJson = encode m'.toJson) :
    m.keyId = m'.keyId := by
  have hload := load_toJson m.createdAt m hm
  rw [h, load_toJson m.createdAt m' hm'] at hload
  exact (congrArg ModelManifest.keyId (Option.some.inj hload)).symm

/-- A call of `add_file` for a model. -/
def ForModel (modelId : String) (f : Done F) : Prop :=
  ∃ size positive call, f.call = .add size positive call ∧ call.modelId = modelId

omit [DecidableEq ι] in
/-- A call for a model under which the process has published before ends with an exception. -/
theorem ended_after (callers : ι → Caller F root) (y : Processes ι F)
    (hy : Inv crypto root env limit callers y) (i : ι) (k l : ℕ) (hkl : k < l) (f g : Done F)
    (hf : (y.process i).finished[k]? = some f) (hg : (y.process i).finished[l]? = some g)
    (call call' : AddFile F) (hid : call'.modelId = call.modelId)
    (hfcall : ∃ size positive, f.call = .add size positive call)
    (hgcall : ∃ size positive, g.call = .add size positive call') (manifest : ModelManifest F)
    (hmanifest : f.result = .ok (.manifest manifest)) : ∃ e, g.result = .error e := by
  obtain ⟨size, positive, hcall⟩ := hfcall
  obtain ⟨size', positive', hcall'⟩ := hgcall
  obtain ⟨hk, rfl⟩ := List.getElem?_eq_some_iff.mp hf
  obtain ⟨hl, rfl⟩ := List.getElem?_eq_some_iff.mp hg
  have hbefore := List.pairwise_iff_getElem.mp (hy.1 i).ordered k l hk hl hkl
  have hended := (hy.1 i).finished _ (List.getElem_mem hl)
  simp only [post, hcall] at hbefore
  simp only [post, hcall'] at hended
  rcases hended with herror | ⟨manifest', -, -, -, habsent, -, -⟩
  · exact herror
  rcases hbefore with ⟨e, herror⟩ | ⟨_, -, -, -, -, -, hfile⟩
  · rw [hmanifest] at herror
    simp at herror
  · rw [hid, hfile] at habsent
    simp at habsent

omit [DecidableEq ι] in
/-- Of two calls for one model that have ended, one has raised an exception. -/
theorem ended_twice (hnames : DistinctNames env limit) (callers : ι → Caller F root)
    (y : Processes ι F) (hy : Inv crypto root env limit callers y) (modelId : String)
    (i j : ι) (k l : ℕ) (hne : (i, k) ≠ (j, l)) (f g : Done F)
    (hf : (y.process i).finished[k]? = some f) (hg : (y.process j).finished[l]? = some g)
    (hfm : ForModel modelId f) (hgm : ForModel modelId g) :
    (∃ e, f.result = .error e) ∨ ∃ e, g.result = .error e := by
  obtain ⟨size, positive, call, hcall, rfl⟩ := hfm
  obtain ⟨size', positive', call', hcall', hid⟩ := hgm
  have hpost := (hy.1 i).finished f (List.mem_of_getElem? hf)
  have hpost' := (hy.1 j).finished g (List.mem_of_getElem? hg)
  simp only [post, hcall] at hpost
  simp only [post, hcall'] at hpost'
  rcases hpost with herror | ⟨m, hm, -, hmetadata, -, ⟨tick, htick, hkey⟩, hfile⟩
  · exact Or.inl herror
  rcases hpost' with herror | ⟨m', hm', -, hmetadata', -, ⟨tick', htick', hkey'⟩, hfile'⟩
  · exact Or.inr herror
  rw [hid, hfile, Option.some.injEq] at hfile'
  have hsame := keyId_of_toJson m m' hmetadata hmetadata' hfile'
  rw [hkey, hkey'] at hsame
  have huuid : (env i).uuid tick = (env j).uuid tick' := by
    have hchars := congrArg String.toList hsame
    rw [String.toList_append, String.toList_append, List.append_cancel_left_eq] at hchars
    exact String.toList_inj.mp hchars
  obtain ⟨rfl, -⟩ := hnames.uuid i j tick htick tick' htick' huuid
  have hkl : k ≠ l := fun h => hne (by rw [h])
  rcases Nat.lt_or_gt_of_ne hkl with hlt | hlt
  · exact Or.inr (ended_after crypto callers y hy i k l hlt f g hf hg call call' hid
      ⟨size, positive, hcall⟩ ⟨size', positive', hcall'⟩ m hm)
  · exact Or.inl (ended_after crypto callers y hy i l k hlt g f hg hf call' call hid.symm
      ⟨size', positive', hcall'⟩ ⟨size, positive, hcall⟩ m' hm')

omit [DecidableEq ι] in
theorem inv_start (callers : ι → Caller F root) (s : Host) (hfresh : FreshKeys root env limit s) :
    Inv crypto root env limit callers (System.start s) :=
  ⟨allSound_start _ _ _ _ _ _ s, hfresh⟩

section Schedules

variable (root) in
/-- A manifest that is there is replaced by no call in progress. -/
def Kept (y : Processes ι F) : Prop :=
  ∀ modelId, (lookFirst F (manifestPath crypto.sha root modelId)).AllCareful y ∧
    (y.shared.files (manifestPath crypto.sha root modelId) ≠ none →
      (lookFirst F (manifestPath crypto.sha root modelId)).Settled y)

variable (root) in
omit [FloatText F] in
theorem manifestPath_apart (modelId : String) :
    (∀ hash, shardPath root hash ≠ manifestPath crypto.sha root modelId) ∧
      ∀ keyId, keyPath root keyId ≠ manifestPath crypto.sha root modelId :=
  ⟨fun _ => (manifestPath_ne_shardPath crypto _ _).symm,
    fun _ => keyPath_ne_manifestPath crypto _ _⟩

omit [DecidableEq ι] [FloatText F] in
theorem new_of_kept {y : Processes ι F} (i : ι) (h : Kept crypto root y) :
    PublishesNew crypto root env y i := by
  intro source modelId hop _
  obtain ⟨call, began, next, hrunning⟩ := running_of_operation hop
  by_contra hthere
  exact (h modelId).2 hthere i _ hrunning (Or.inl ⟨source, rfl⟩)

/-- A manifest that is there after a step was there before or is published by the step. -/
theorem published_step (callers : ι → Caller F root) {y : Processes ι F} {i : ι}
    (hy : Inv crypto root env limit callers y) (modelId : String)
    (h : (stepVault crypto root env callers i y).shared.files
      (manifestPath crypto.sha root modelId) ≠ none) :
    y.shared.files (manifestPath crypto.sha root modelId) ≠ none ∨
      ∃ source, y.operation i = some (.replace source (manifestPath crypto.sha root modelId)) ∧
        (env i).fault y.shared.tick = false := by
  let inv : Host → Prop := fun s => s.files (manifestPath crypto.sha root modelId) ≠ none →
    y.shared.files (manifestPath crypto.sha root modelId) ≠ none ∨
      ∃ source, y.operation i = some (.replace source (manifestPath crypto.sha root modelId)) ∧
        (env i).fault y.shared.tick = false
  have hinv : inv (stepVault crypto root env callers i y).shared := by
    apply shared_step (fun _ _ => inferInstance) y i inv hy.1 Or.inl
    intro call began op next hrunning hmay hthere
    have htemp := isTemporary_manifestPath crypto root modelId
    rcases handle_may_cases hmay with hsame | ⟨source, target, value, hop, hfault, -, hreplaced⟩
    · exact Or.inl (hsame _ htemp ▸ hthere)
    · by_cases htarget : manifestPath crypto.sha root modelId = target
      · refine Or.inr ⟨source, ?_, hfault⟩
        rw [operation_of_running hrunning, hop, htarget]
      · exact Or.inl (hreplaced.2.1 _ htemp htarget ▸ hthere)
  exact hinv h

theorem kept_of_apart (callers : ι → Caller F root) {y : Processes ι F} {i : ι}
    (hy : Inv crypto root env limit callers y) (hkept : Kept crypto root y)
    (hpublishes : PublishesApart crypto root env y i) :
    Kept crypto root (stepVault crypto root env callers i y) := by
  intro modelId
  obtain ⟨hshard, hkey⟩ := manifestPath_apart crypto root modelId
  obtain ⟨hcareful, hsettled⟩ := hkept modelId
  refine ⟨Guard.allCareful_step (fun call => careful_program call hshard hkey) i y hcareful, ?_⟩
  intro hthere
  have hbegin : ∀ call : VaultCall F, ¬ (lookFirst F (manifestPath crypto.sha root modelId)).Pending
      (program crypto root call) := fun call => not_pending_program call hshard hkey
  rcases published_step crypto callers hy modelId hthere with hbefore | ⟨source, hop, hfault⟩
  · refine Guard.settled_step hbegin i y hcareful ((hsettled hbefore).beside i) fun op _ => ?_
    exact Or.inr ⟨fun r => hsettled hbefore i r, not_passes_of_there (env i) hbefore op⟩
  · refine Guard.settled_step hbegin i y hcareful (hpublishes source modelId hop hfault) ?_
    intro op hop'
    rw [hop, Option.some.injEq] at hop'
    exact Or.inl ⟨source, hop'.symm⟩

/-- No manifest is moved over another one in such a run. -/
theorem obeys_new (hnames : DistinctNames env limit) (callers : ι → Caller F root) (start : Host)
    (schedule : List ι) (hlimit : start.tick + schedule.length ≤ limit)
    (hfresh : FreshKeys root env limit start)
    (h : ObeysVault crypto root env callers (PublishesApart crypto root env) start schedule) :
    ObeysVault crypto root env callers (PublishesNew crypto root env) start schedule := by
  let inv : Processes ι F → Prop :=
    fun z => Inv crypto root env limit callers z ∧ Kept crypto root z
  have hstart : inv (System.start start) := ⟨inv_start crypto callers start hfresh,
    fun _ => ⟨Guard.allCareful_start start, fun _ => Guard.settled_start start⟩⟩
  apply obeys_of_invariant _ (System.start start) schedule hstart
    (obeys_limit crypto callers (System.start start) schedule hlimit h)
  rintro z i ⟨hz, hkept⟩ ⟨hpublishes, htick⟩
  have hnew : PublishesNew crypto root env z i := new_of_kept crypto i hkept
  exact ⟨hnew, inv_step crypto hnames callers z i hz hnew htick,
    kept_of_apart crypto callers hz hkept hpublishes⟩

end Schedules

/-- In a run in which no call publishes between the check of another one for the model and its
publication, a published manifest stays as it is, what a call of `add_file` has returned is what
`get_manifest` returns from then on, and of the calls for one model that end all but one raise an
exception. -/
theorem addFile_exclusive (env : ι → Env F) (callers : ι → Caller F root) (start : Host)
    (first rest : List ι) (limit : ℕ) (hlimit : start.tick + (first ++ rest).length ≤ limit)
    (hnames : DistinctNames env limit) (hfresh : FreshKeys root env limit start)
    (hpublishes : ObeysVault crypto root env callers (PublishesApart crypto root env) start
      (first ++ rest)) :
    (∀ modelId value, (runVault crypto root env callers start first).shared.files
        (manifestPath crypto.sha root modelId) = some value →
      (runVault crypto root env callers start (first ++ rest)).shared.files
        (manifestPath crypto.sha root modelId) = some value) ∧
    (∀ i, ∀ f ∈ ((runVault crypto root env callers start first).process i).finished,
      ∀ size positive call manifest, f.call = .add size positive call →
        f.result = .ok (.manifest manifest) → ∀ now, ∃ manifest', manifest'.Same manifest ∧
          getManifest F crypto root (runVault crypto root env callers start
            (first ++ rest)).shared.files now call.modelId = .ok (some manifest')) ∧
    (∀ modelId i j, ∀ k l : ℕ, (i, k) ≠ (j, l) → ∀ f g : Done F,
      ((runVault crypto root env callers start first).process i).finished[k]? = some f →
      ((runVault crypto root env callers start first).process j).finished[l]? = some g →
      ForModel modelId f → ForModel modelId g →
        (∃ e, f.result = .error e) ∨ ∃ e, g.result = .error e) := by
  have hnew := obeys_new crypto hnames callers start (first ++ rest) hlimit hfresh hpublishes
  obtain ⟨hfirst, hrest⟩ := (obeys_append _ first rest).mp hnew
  rw [List.length_append] at hlimit
  have hreach : (runVault crypto root env callers start first).shared.tick ≤
      start.tick + first.length := runAll_tick crypto callers (System.start start) first
  have hy := (inv_run crypto hnames callers (System.start start) first (by
    change start.tick + first.length ≤ limit
    omega) (inv_start crypto callers start hfresh) hfirst).1
  have hkept := (inv_run crypto hnames callers _ rest (by
    change (runVault crypto root env callers start first).shared.tick + rest.length ≤ limit
    omega) hy hrest).2
  have hsplit : runVault crypto root env callers start (first ++ rest) =
      runAll (fun i => handle (env i)) (program crypto root) (fun i => (callers i).choose)
        (runVault crypto root env callers start first) rest := runAll_append _ first rest
  rw [hsplit]
  refine ⟨hkept, ?_, ?_⟩
  · intro i f hf size positive call manifest hcall hresult now
    have hpost := (hy.1 i).finished f hf
    simp only [post, hcall] at hpost
    rcases hpost with ⟨e, herror⟩ | ⟨m, hm, hid, hmetadata, -, -, hfile⟩
    · rw [herror] at hresult
      simp at hresult
    · have heq : m = manifest := by
        rw [hm] at hresult
        simpa using hresult
      subst heq
      refine ⟨m.sorted, same_sorted m, ?_⟩
      rw [← hid]
      apply getManifest_of_file crypto root _ now m _ hmetadata
      rw [hid]
      exact hkept _ _ hfile
  · exact fun modelId i j k l hne f g hf hg hfm hgm =>
      ended_twice crypto hnames callers _ hy modelId i j k l hne f g hf hg hfm hgm

section Samples

/-- The first process publishes its manifest after the second one has begun its call and before it
looks for the manifest. -/
def sampleSchedule : List Bool :=
  openingSchedule ++ (List.replicate 3 false ++ ([true] ++ (List.replicate 25 false ++
    ([true] ++ ([false] ++ [true])))))

/-- A process that is scheduled alone meets the condition if the other one is not pending. -/
theorem obeys_block (y : Processes Bool WholeFloat) (i : Bool) (n : ℕ)
    (h : ∀ modelId r, (y.process (!i)).running = some r →
      ¬ (lookFirst WholeFloat (manifestPath Sha256.sample ["vault"] modelId)).Pending r.rest) :
    Obeys (fun i => handle (sampleEnvs i)) (program Crypto.sample ["vault"])
      (fun i => (sampleCallers i).choose) (PublishesApart Crypto.sample ["vault"] sampleEnvs) y
      (List.replicate n i) := by
  apply obeys_mono _ _ _ (obeys_alone y i n)
  rintro z _ ⟨rfl, hsame⟩ source modelId - - j hj r hr
  rw [hsame j hj, Bool.eq_not.mpr hj] at hr
  exact h modelId r hr

/-- A process meets the condition that is about to begin a call. -/
theorem obeys_idle (y : Processes Bool WholeFloat) (i : Bool) (finished : List (Done WholeFloat))
    (hidle : y.process i = ⟨finished, none⟩) :
    Obeys (fun i => handle (sampleEnvs i)) (program Crypto.sample ["vault"])
      (fun i => (sampleCallers i).choose)
        (PublishesApart Crypto.sample ["vault"] sampleEnvs) y [i] := by
  refine ⟨fun source modelId hop => ?_, trivial⟩
  obtain ⟨call, began, next, hrunning⟩ := running_of_operation hop
  rw [hidle] at hrunning
  cases hrunning

/-- Two calls for one model at the same time, of which one raises an exception. -/
theorem phase_published : ∃ y, SamplePhase (System.start Host.empty) sampleSchedule y ∧
    ObeysVault Crypto.sample ["vault"] sampleEnvs sampleCallers
      (PublishesApart Crypto.sample ["vault"] sampleEnvs) Host.empty sampleSchedule ∧
    (y.process false).finished[1]? = some ⟨.add 4 four_positive (sampleCall false),
      bothOpened.shared, .ok (.manifest (sampleManifest false 11))⟩ ∧
    ∃ began e, (y.process true).finished[1]? =
      some ⟨.add 4 four_positive (sampleCall true), began, .error e⟩ := by
  have habsent : ∀ path, path ≠ configPath ["vault"] → bothOpened.shared.files path = none :=
    sampleHost_of_ne
  obtain ⟨rest, hcheck, hpublish⟩ := phase_add false bothOpened Host.empty
    (become_process_self _ _ _ _) (habsent _ (configPath_ne_manifestPath Crypto.sample "m").symm)
  let checked := bothOpened.become false (after bothOpened.shared 1) ⟨opened Host.empty,
    some ⟨.add 4 (by decide) (sampleCall false), bothOpened.shared, rest⟩⟩
  have hchecked : SamplePhase oneOpened (List.replicate 3 false) checked :=
    phase_both.append hcheck
  have hidle : checked.process true = ⟨opened sampleHost, none⟩ := by
    rw [become_process_of_ne _ (by decide), bothOpened, become_process_of_ne _ (by decide),
      oneOpened,
      become_process_self]
  let begun := checked.become true checked.shared ⟨opened sampleHost,
    some ⟨.add 4 four_positive (sampleCall true), checked.shared,
      program Crypto.sample ["vault"] (.add 4 four_positive (sampleCall true))⟩⟩
  have hbegun : SamplePhase checked [true] begun := phase_begin checked _ _ hidle rfl
  obtain ⟨s, hpublished, -, hfile, -⟩ := hpublish begun false 1 11 rfl
    ((become_process_of_ne _ (by decide) _ _).trans (become_process_self _ _ _ _))
    noTemporary_sample sampleHost_config (habsent _ (sampleShard_ne_configPath false 11))
  let published := begun.become false s (adding false Host.empty bothOpened.shared 11)
  have htrue : published.process true = begun.process true := become_process_of_ne _ (by decide) _ _
  have hfound : SamplePhase published [true] _ := phase_add_found true published sampleHost
    checked.shared (htrue.trans (become_process_self _ _ _ _)) (by
      rw [become_shared, hfile]
      rfl)
  let found := published.become true (after published.shared 1) ⟨opened sampleHost,
    some ⟨.add 4 four_positive (sampleCall true), checked.shared,
      .done (.error (.fileExists "model already exists: m"))⟩⟩
  have hreturned : SamplePhase found [false] _ := phase_return found _ _ _ _
    ((become_process_of_ne _ (by decide) _ _).trans (become_process_self _ _ _ _))
  let returned :=
    found.become false found.shared ⟨added false Host.empty bothOpened.shared 11, none⟩
  have hraised : SamplePhase returned [true] _ := phase_return returned _ _ _ _
    ((become_process_of_ne _ (by decide) _ _).trans (become_process_self _ _ _ _))
  have hphase := phase_openings.append (hchecked.append (hbegun.append (hpublished.append
    (hfound.append (hreturned.append hraised)))))
  refine ⟨_, hphase, ?_, ?_, ?_⟩
  · refine phase_openings.obeys (phase_written.obeys ?_ ?_) (hchecked.obeys ?_ (hbegun.obeys ?_
      (hpublished.obeys ?_ (hfound.obeys ?_ (hreturned.obeys ?_ ?_)))))
    · exact obeys_block _ false 9 fun _ r hr => by cases hr
    · refine obeys_block _ true 4 fun _ r hr => ?_
      rw [oneWritten, Bool.not_true, become_process_self] at hr
      obtain rfl := Option.some.inj hr
      exact fun hpending => hpending
    · refine obeys_block _ false 3 fun _ r hr => ?_
      rw [oneOpened, Bool.not_false, become_process_self] at hr
      cases hr
    · exact obeys_idle checked true _ hidle
    · refine obeys_block _ false 25 fun modelId r hr => ?_
      rw [Bool.not_false, become_process_self] at hr
      obtain rfl := Option.some.inj hr
      obtain ⟨hshard, hkey⟩ := manifestPath_apart Crypto.sample ["vault"] modelId
      exact not_pending_program (F := WholeFloat) (.add 4 four_positive (sampleCall true)) hshard
        hkey
    · refine obeys_block _ true 1 fun _ r hr => ?_
      rw [Bool.not_true, become_process_self] at hr
      obtain rfl := Option.some.inj hr
      exact fun hpending => hpending
    · refine obeys_block _ false 1 fun _ r hr => ?_
      rw [Bool.not_false, become_process_self] at hr
      obtain rfl := Option.some.inj hr
      exact fun hpending => hpending
    · refine obeys_block _ true 1 fun _ r hr => ?_
      rw [Bool.not_true, become_process_self] at hr
      cases hr
  · rw [become_process_of_ne _ (by decide), become_process_self]
    rfl
  · refine ⟨checked.shared, .fileExists "model already exists: m", ?_⟩
    rw [become_process_self]
    rfl

/-- `addFile_exclusive` for two calls at the same time. -/
theorem addFile_exclusive_sample :
    (∃ manifest', manifest'.Same (sampleManifest false 11) ∧ getManifest WholeFloat Crypto.sample
      ["vault"] (runVault Crypto.sample ["vault"] sampleEnvs sampleCallers Host.empty
        (sampleSchedule ++ [])).shared.files ⟨0⟩ "m" = .ok (some manifest')) ∧
    ∀ g, ((runVault Crypto.sample ["vault"] sampleEnvs sampleCallers Host.empty
      sampleSchedule).process true).finished[1]? = some g → ForModel "m" g →
        ∃ e, g.result = .error e := by
  obtain ⟨y, hrun, hobeys, hfalse, -⟩ := phase_published
  have hrun' : runVault Crypto.sample ["vault"] sampleEnvs sampleCallers Host.empty
      sampleSchedule = y := hrun
  obtain ⟨-, hget, htwice⟩ := addFile_exclusive Crypto.sample sampleEnvs sampleCallers Host.empty
    sampleSchedule [] 100 (by decide) distinctNames_sample (fun _ _ _ _ => rfl)
    (by rw [List.append_nil]; exact hobeys)
  rw [hrun'] at hget htwice ⊢
  refine ⟨hget false _ (List.mem_of_getElem? hfalse) 4 four_positive (sampleCall false) _
    rfl rfl ⟨0⟩,
    fun g hg hmodel => ?_⟩
  rcases htwice "m" false true 1 1 (by decide) _ g hfalse hg
    ⟨4, four_positive, sampleCall false, rfl, rfl⟩ hmodel with ⟨e, he⟩ | hraised
  · cases he
  · exact hraised

end Samples

def raceSchedule : List Bool :=
  openingSchedule ++ ([false] ++ (([false] ++ List.replicate 1 false) ++
    (([true] ++ List.replicate 1 true) ++ ((List.replicate 25 false ++ [false]) ++
      (List.replicate 25 true ++ [true])))))

theorem sampleShard_notMem_targets : sampleShard true 37 ∉ sampleTargets false 12 := by
  decide +kernel

/-- Both processes look for the manifest before either of them publishes one. -/
theorem phase_race : ∃ y, SamplePhase (System.start Host.empty) raceSchedule y ∧
    ∀ i, ∃ began, (y.process i).finished[1]? = some ⟨.add 4 (by decide) (sampleCall i), began,
      .ok (.manifest (sampleManifest i (if i then 37 else 12)))⟩ := by
  have habsent : ∀ path, path ≠ configPath ["vault"] → bothOpened.shared.files path = none :=
    sampleHost_of_ne
  obtain ⟨rest, hcheck, hpublish⟩ := phase_add false bothOpened Host.empty
    (become_process_self _ _ _ _)
    (habsent _ (configPath_ne_manifestPath Crypto.sample "m").symm)
  let checked := bothOpened.become false (after bothOpened.shared 1) ⟨opened Host.empty,
    some ⟨.add 4 (by decide) (sampleCall false), bothOpened.shared, rest⟩⟩
  obtain ⟨rest', hcheck', hpublish'⟩ := phase_add true checked sampleHost (by
    rw [become_process_of_ne _ (by decide), bothOpened, become_process_of_ne _ (by decide),
      oneOpened,
      become_process_self])
    (habsent _ (configPath_ne_manifestPath Crypto.sample "m").symm)
  let racing := checked.become true (after checked.shared 1) ⟨opened sampleHost,
    some ⟨.add 4 (by decide) (sampleCall true), checked.shared, rest'⟩⟩
  obtain ⟨s, hpublished, htick, -, hkept⟩ := hpublish racing false 1 12 rfl
    ((become_process_of_ne _ (by decide) _ _).trans (become_process_self _ _ _ _))
    noTemporary_sample sampleHost_config (habsent _ (sampleShard_ne_configPath false 12))
  have hclean : NoTemporary s := by
    intro path hpath
    rw [hkept path (fun htarget => by simp [isTemporary_targets _ _ _ htarget] at hpath)]
    exact noTemporary_sample path hpath
  have hshard : s.files (sampleShard true 37) = none := by
    rw [hkept _ sampleShard_notMem_targets]
    exact habsent _ (sampleShard_ne_configPath true 37)
  obtain ⟨s', hpublished', -⟩ := hpublish' (racing.become false s
      ⟨added false Host.empty bothOpened.shared 12, none⟩) false 1 37 htick
    ((become_process_of_ne _ (by decide) _ _).trans (become_process_self _ _ _ _)) hclean
    ((hkept _ (configPath_notMem_targets _ _)).trans sampleHost_config) hshard
  refine ⟨_, phase_openings.append (phase_both.append (hcheck.append (hcheck'.append
    ((phase_add_ended false hpublished).append (phase_add_ended true hpublished'))))), ?_⟩
  rintro (_ | _)
  · refine ⟨bothOpened.shared, ?_⟩
    rw [become_process_of_ne _ (by decide), become_process_self]
    rfl
  · refine ⟨checked.shared, ?_⟩
    rw [become_process_self]
    rfl

/-- Two calls for one model both return when both look for the manifest first. -/
theorem addFile_twice : ¬ ∀ schedule : List Bool, ∀ modelId i j, ∀ k l : ℕ, (i, k) ≠ (j, l) →
    ∀ f g : Done WholeFloat,
      ((runVault Crypto.sample ["vault"] sampleEnvs sampleCallers Host.empty
        schedule).process i).finished[k]? = some f →
      ((runVault Crypto.sample ["vault"] sampleEnvs sampleCallers Host.empty
        schedule).process j).finished[l]? = some g →
      ForModel modelId f → ForModel modelId g →
        (∃ e, f.result = .error e) ∨ ∃ e, g.result = .error e := by
  intro hclaim
  obtain ⟨y, hrun, hreturned⟩ := phase_race
  have hrun' : runVault Crypto.sample ["vault"] sampleEnvs sampleCallers Host.empty
      raceSchedule = y := hrun
  obtain ⟨began, hfalse⟩ := hreturned false
  obtain ⟨began', htrue⟩ := hreturned true
  have htwo := hclaim raceSchedule "m" false true 1 1 (by decide) _ _
    (by rw [hrun']; exact hfalse) (by rw [hrun']; exact htrue)
    ⟨4, by decide, sampleCall false, rfl, rfl⟩ ⟨4, by decide, sampleCall true, rfl, rfl⟩
  rcases htwo with ⟨e, he⟩ | ⟨e, he⟩
  · simp at he
  · simp at he

end Decillion.ManifestRaces
