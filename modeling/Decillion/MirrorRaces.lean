import Decillion.RepeatedMirrors
import Decillion.SnapshotFiles

/-!
Mirrors that race on one vault. The exclusive creation of the lock file admits one run to a
slot, and only the run that has made a lock file unlinks it. A staging directory becomes a
snapshot by one renaming, which does not replace a snapshot that is there, so a snapshot is
complete from the moment at which it exists and stays as it is.
-/
namespace Decillion.MirrorRaces

open ByteText Interleavings JsonStrings JsonText JsonValues MirrorRules MirrorSteps Primitives
  Programs PyErrors
  PyValues SnapshotFiles SnapshotManifests TreeFrames TreeRules TreeSystem Trees WeightRules
  WeightVaults

variable {ι F : Type} [FloatText F] [FloatNumber F]

/-- `tempfile` makes names of one length, and no two processes make the same one. -/
structure Fresh (env : ι → TreeEnv) : Prop where
  length : ∀ i j tick tick',
    ((env i).tempName tick).toList.length = ((env j).tempName tick').toList.length
  distinct : ∀ i j tick tick', (env i).tempName tick = (env j).tempName tick' → i = j

/-- The staging directories of two processes are apart. -/
theorem Fresh.apart {env : ι → TreeEnv} (h : Fresh env) {i j : ι} {path : Path}
    (hi : Owned (env i) path) (hj : Owned (env j) path) : i = j := by
  obtain ⟨-, ⟨start, tick, rfl⟩, rest, rfl⟩ := hi
  obtain ⟨-, ⟨start', tick', rfl⟩, rest', heq⟩ := hj
  have hname : start' ++ (env j).tempName tick' = start ++ (env i).tempName tick :=
    (List.cons.inj (List.cons.inj heq).2).1
  have hlists := congrArg String.toList hname
  rw [String.toList_append, String.toList_append] at hlists
  obtain ⟨-, hends⟩ := List.append_inj' hlists (h.length j i tick' tick)
  exact (h.distinct j i tick' tick (String.toList_injective hends)).symm

variable (sha : Sha256)

variable (F) in
/-- Every snapshot that is there has been verified for its place. -/
def Complete (s : TreeHost ι) : Prop :=
  ∀ target, IsSnapshot target → s.tree.node target ≠ none → ∃ modelId revision,
    ∃ manifest : Json F, snapshotPath modelId revision = .ok target ∧
      Verified sha s.tree modelId revision target manifest

/-- At most one run is inside for a lock file, and the file is there as long as it is. -/
def Locked (s : TreeHost ι) : Prop :=
  ∀ path, IsLock path → (s.inside path).length ≤ 1 ∧
    (s.inside path ≠ [] → s.tree.node path ≠ none)

section Steps

variable [DecidableEq ι] {env : ι → TreeEnv} {s : TreeHost ι} {i : ι} {op : TreeOp}

omit [DecidableEq ι] in
/-- What an operation of a mirror can touch. -/
theorem touches_cases {path : Path} (hmay : May F sha i (env i) s op)
    (h : Touches (env i) op path) :
    Owned (env i) path ∨ Above path ∨
      (IsLock path ∧ (op = .createExclusive path ∨ op = .unlink path ∧ i ∈ s.inside path)) ∨
      ∃ source target, op = .replace source target ∧ Publishes F sha (env i) s source target ∧
        target <+: path := by
  cases op with
  | mkdir other =>
    obtain rfl : path = other := h
    exact hmay.imp id Or.inl
  | createExclusive other =>
    obtain rfl : path = other := h
    exact Or.inr (Or.inr (Or.inl ⟨hmay, Or.inl rfl⟩))
  | mkdtemp dir start =>
    obtain ⟨tick, rfl⟩ := h
    obtain rfl : dir = [".staging"] := hmay
    exact Or.inl ⟨_, ⟨start, tick, rfl⟩, List.prefix_rfl⟩
  | mkstemp dir start =>
    obtain ⟨tick, rfl⟩ := h
    have hdir : IsStaging (env i) dir := hmay
    exact Or.inl (hdir.owned _)
  | write other value =>
    obtain rfl : path = other := h
    exact Or.inl hmay
  | replace source target =>
    rcases hmay with ⟨hsource, htarget⟩ | hpublishes
    · exact Or.inl (h.elim hsource.mono htarget.mono)
    · rcases h with hsource | htarget
      · exact Or.inl ⟨source, hpublishes.1, hsource⟩
      · exact Or.inr (Or.inr (Or.inr ⟨source, target, rfl, hpublishes, htarget⟩))
  | unlink other =>
    obtain rfl : path = other := h
    rcases hmay with howned | ⟨hlock, hin⟩
    · exact Or.inl howned
    · exact Or.inr (Or.inr (Or.inl ⟨hlock, Or.inr ⟨rfl, hin⟩⟩))
  | remove other =>
    obtain rfl : path = other := h
    exact Or.inl hmay
  | edit other value =>
    obtain rfl : path = other := h
    exact Or.inl hmay
  | _ => exact h.elim

omit [DecidableEq ι] in
theorem Publishes.isSnapshot {source target : Path}
    (h : Publishes F sha (env i) s source target) : IsSnapshot target := by
  obtain ⟨-, modelId, revision, -, htarget, -⟩ := h
  exact ⟨modelId, revision, htarget⟩

theorem dir_of_verified {t : Tree} {modelId revision : String} {dir : Path} {manifest : Json F}
    (h : Verified sha t modelId revision dir manifest) :
    t.node dir = some .dir ∧ t.hasChild dir = true := by
  obtain ⟨content, -, hcontent, -⟩ := h
  have hthere : t.node (dir ++ [MANIFEST]) ≠ none := by
    intro hnone
    rw [nodeContent, hnone] at hcontent
    cases hcontent
  refine ⟨t.closed dir MANIFEST hthere, ?_⟩
  by_contra hchild
  exact hthere ((t.hasChild_eq_false dir).mp (Bool.eq_false_of_not_eq_true hchild) MANIFEST)

/-- A snapshot is not replaced. -/
theorem move_refused {t : Tree} {modelId revision modelId' revision' : String}
    {source target : Path}
    {manifest manifest' : Json F} (hsource : Verified sha t modelId revision source manifest)
    (htarget : Verified sha t modelId' revision' target manifest') :
    t.move source target = none := by
  cases hmove : t.move source target with
  | none => rfl
  | some t' =>
    have hreplaceable := replaceable_of_move hmove
    rw [Tree.replaceable, (dir_of_verified sha hsource).1, (dir_of_verified sha htarget).1,
      (dir_of_verified sha htarget).2] at hreplaceable
    cases hreplaceable

variable (hcomplete : Complete F sha s) (hmay : May F sha i (env i) s op)
include hcomplete hmay

/-- Nothing is done to a snapshot that is there. -/
theorem kept_of_may : KeptSnapshots s (handle i (env i) s op).2 := by
  intro target htarget hthere rest
  by_cases htouch : Touches (env i) op (target ++ rest)
  · rcases touches_cases sha hmay htouch with
      howned | habove | ⟨hlock, -⟩ | ⟨source, target', rfl, hpublishes, hle⟩
    · exact absurd rfl (howned.not_below htarget rest)
    · exact absurd rfl (habove.not_below htarget rest)
    · exact absurd rfl (hlock.not_below htarget rest)
    · obtain rfl := htarget.eq_of_below (Publishes.isSnapshot sha hpublishes)
        (List.prefix_append _ _) hle
      obtain ⟨-, modelId, revision, manifest, -, hsource⟩ := hpublishes
      obtain ⟨modelId', revision', manifest', -, hverified⟩ := hcomplete target htarget hthere
      have hmove := move_refused sha hsource hverified
      rcases replace_cases i (env i) s source target with ⟨e, hfails⟩ | ⟨t, hdone⟩
      · rw [hfails]
        rfl
      · have hok : (handle i (env i) s (.replace source target)).1 =
            (.ok () : Except PyError Unit) := by rw [hdone]
        obtain ⟨t', hmoved, -⟩ := handle_replace_ok hok
        cases hmove.symm.trans hmoved
  · exact handle_node i (env i) s op _ htouch

omit [FloatText F] [FloatNumber F] hcomplete hmay in
/-- A process unlinks no lock file on behalf of another one. -/
theorem holding_other {j : ι} (hj : j ≠ i) : Holding j s (handle i (env i) s op).2 := by
  intro path _ hin
  by_cases hmarks : Marks op path
  · cases op with
    | createExclusive other =>
      obtain rfl : path = other := hmarks
      rcases createExclusive_cases i (env i) s path with ⟨e, hmade⟩ | ⟨t, -, -, hmade⟩
      · rw [hmade]
        exact hin
      · rw [hmade]
        change j ∈ Function.update s.inside path (i :: s.inside path) path
        rw [Function.update_self]
        exact List.mem_cons_of_mem _ hin
    | unlink other =>
      obtain rfl : path = other := hmarks
      rcases unlink_cases i (env i) s path with ⟨e, hfails⟩ | ⟨t, -, hdone⟩
      · rw [hfails]
        exact hin
      · rw [hdone]
        change j ∈ Function.update s.inside path ((s.inside path).erase i) path
        rw [Function.update_self]
        exact (List.mem_erase_of_ne hj).mpr hin
    | _ => exact hmarks.elim
  · rw [handle_inside i (env i) s op path hmarks]
    exact hin

/-- What one run does is what the others rely on. -/
theorem spared_of_may (hfresh : Fresh env) {j : ι} (hj : j ≠ i) :
    Spared j (env j) s (handle i (env i) s op).2 where
  owned := by
    intro path howned
    apply handle_node
    intro htouch
    rcases touches_cases sha hmay htouch with
      hmine | habove | ⟨hlock, -⟩ | ⟨source, target, -, hpublishes, rest, rfl⟩
    · exact hj (hfresh.apart howned hmine)
    · exact habove.not_owned howned
    · exact howned.not_lock hlock
    · exact howned.not_below (Publishes.isSnapshot sha hpublishes) rest rfl
  snapshots := kept_of_may sha hcomplete hmay
  held := holding_other hj

/-- A snapshot that appears has been verified. -/
theorem complete_of_may : Complete F sha (handle i (env i) s op).2 := by
  intro target htarget hthere
  by_cases hbefore : s.tree.node target = none
  · have htouch : Touches (env i) op target := by
      by_contra hnot
      exact hthere ((handle_node i (env i) s op target hnot).trans hbefore)
    have hself : target = target ++ [] := (List.append_nil target).symm
    rcases touches_cases sha hmay htouch with
      howned | habove | ⟨hlock, -⟩ | ⟨source, target', rfl, hpublishes, hle⟩
    · exact absurd hself (howned.not_below htarget [])
    · exact absurd hself (habove.not_below htarget [])
    · exact absurd hself (hlock.not_below htarget [])
    · obtain rfl := htarget.eq_of_below (Publishes.isSnapshot sha hpublishes)
        List.prefix_rfl hle
      obtain ⟨-, modelId, revision, manifest, hpath, hverified⟩ := hpublishes
      rcases replace_cases i (env i) s source target with ⟨e, hfails⟩ | ⟨t, hdone⟩
      · rw [hfails] at hthere
        exact absurd hbefore hthere
      · have hok : (handle i (env i) s (.replace source target)).1 =
            (.ok () : Except PyError Unit) := by rw [hdone]
        obtain ⟨t', hmoved, hnext⟩ := handle_replace_ok hok
        refine ⟨modelId, revision, manifest, hpath, ?_⟩
        rw [hnext]
        apply verified_moved sha hverified
        intro rest
        change t'.node _ = _
        rw [move_node hmoved, movedNode_below]
  · obtain ⟨modelId, revision, manifest, hpath, hverified⟩ := hcomplete target htarget hbefore
    exact ⟨modelId, revision, manifest, hpath,
      Verified.kept sha hverified hpath (kept_of_may sha hcomplete hmay)⟩

omit hcomplete in
/-- The lock file admits one run, and only that run unlinks it. -/
theorem locked_of_may (hlocked : Locked s) : Locked (handle i (env i) s op).2 := by
  intro path hlock
  obtain ⟨hone, hthere⟩ := hlocked path hlock
  by_cases htouch : Touches (env i) op path
  · rcases touches_cases sha hmay htouch with
      howned | habove | ⟨-, rfl | ⟨rfl, hin⟩⟩ | ⟨source, target, -, hpublishes, rest, rfl⟩
    · exact absurd hlock howned.not_lock
    · exact absurd hlock habove.not_lock
    · rcases createExclusive_cases i (env i) s path with ⟨e, hfails⟩ | ⟨t, hnone, hput, hdone⟩
      · rw [hfails]
        exact ⟨hone, hthere⟩
      · have hnobody : s.inside path = [] := by_contra fun hsome => hthere hsome hnone
        rw [hdone]
        change (Function.update s.inside path (i :: s.inside path) path).length ≤ 1 ∧
          (_ → t.node path ≠ none)
        rw [Function.update_self, hnobody, put_node hput, Function.update_self]
        exact ⟨le_rfl, fun _ => Option.some_ne_none _⟩
    · rcases unlink_cases i (env i) s path with ⟨e, hfails⟩ | ⟨t, -, hdone⟩
      · rw [hfails]
        exact ⟨hone, hthere⟩
      · have hleft : (s.inside path).erase i = [] := by
          rw [← List.length_eq_zero_iff, List.length_erase_of_mem hin]
          omega
        rw [hdone]
        change (Function.update s.inside path ((s.inside path).erase i) path).length ≤ 1 ∧
          (Function.update s.inside path ((s.inside path).erase i) path ≠ [] → _)
        rw [Function.update_self, hleft]
        exact ⟨Nat.zero_le 1, fun hne => absurd rfl hne⟩
    · exact absurd rfl (hlock.not_below (Publishes.isSnapshot sha hpublishes) rest)
  · have hmarks : ¬ Marks op path := by
      intro hmarks
      apply htouch
      cases op with
      | createExclusive other => exact hmarks
      | unlink other => exact hmarks
      | _ => exact hmarks.elim
    rw [handle_inside i (env i) s op path hmarks, handle_node i (env i) s op path htouch]
    exact ⟨hone, hthere⟩

end Steps

section Listings

/-- No file below the directory but the manifest at its root is named like a manifest. -/
def Unnested (t : Tree) (dir : Path) : Prop :=
  ∀ rest content, t.node (dir ++ rest) = some (.file content) → isManifest rest = true →
    rest = [MANIFEST]

/-- Below the directory are the files that the manifest lists, itself, and no link. -/
structure Lists (t : Tree) (dir : Path) (items : List (Json F)) : Prop where
  plain : Plain t dir
  listed : ∀ rest content, rest ≠ [MANIFEST] → t.node (dir ++ rest) = some (.file content) →
    ∃ item ∈ items, sameRecord (recordOf sha rest content) item = true
  present : ∀ item ∈ items, ∃ rest content, rest ≠ [MANIFEST] ∧
    t.node (dir ++ rest) = some (.file content) ∧
      sameRecord (recordOf sha rest content) item = true

omit [FloatText F] in
theorem sameItems_mem {records : List FileRecord} {items : List (Json F)}
    (h : sameItems records items = true) :
    (∀ record ∈ records, ∃ item ∈ items, sameRecord record item = true) ∧
      ∀ item ∈ items, ∃ record ∈ records, sameRecord record item = true := by
  induction records generalizing items with
  | nil =>
    cases items with
    | nil => exact ⟨fun _ hin => absurd hin List.not_mem_nil,
        fun _ hin => absurd hin List.not_mem_nil⟩
    | cons item items => cases h
  | cons record records ih =>
    cases items with
    | nil => cases h
    | cons item items =>
      rw [sameItems, Bool.and_eq_true] at h
      obtain ⟨hleft, hright⟩ := ih h.2
      constructor
      · intro other hother
        rcases List.mem_cons.mp hother with rfl | hin
        · exact ⟨item, List.mem_cons_self, h.1⟩
        · obtain ⟨found, hfound, hsame⟩ := hleft other hin
          exact ⟨found, List.mem_cons_of_mem _ hfound, hsame⟩
      · intro other hother
        rcases List.mem_cons.mp hother with rfl | hin
        · exact ⟨record, List.mem_cons_self, h.1⟩
        · obtain ⟨found, hfound, hsame⟩ := hright other hin
          exact ⟨found, List.mem_cons_of_mem _ hfound, hsame⟩

omit [FloatText F] in
theorem files_of_check {manifest : Json F} {modelId revision : String} {files : List FileRecord}
    {total : ℕ} (h : checkManifest manifest modelId revision files total = .ok manifest) :
    ∃ items, manifest.get? "files" = some (.list items) ∧ sameItems files items = true := by
  unfold checkManifest at h
  split at h
  · rename_i members
    split at h
    · cases h
    · rename_i hmatches
      have hsame := (not_or.mp hmatches).1
      rw [Bool.not_eq_false] at hsame
      unfold sameRecords at hsame
      split at hsame
      · rename_i items hitems
        exact ⟨items, hitems, hsame⟩
      · cases hsame
  · cases h

/-- A snapshot that has been verified holds what its manifest lists. -/
theorem lists_of_verified {t : Tree} {modelId revision : String} {dir : Path} {manifest : Json F}
    (h : Verified sha t modelId revision dir manifest) (hunnested : Unnested t dir) :
    ∃ items, manifest.get? "files" = some (.list items) ∧ Lists sha t dir items := by
  have hdir := (dir_of_verified sha h).1
  obtain ⟨-, found, -, -, hfound, hcheck⟩ := h
  obtain ⟨hplain, rfl⟩ := (inventoryOf_ok_iff sha found).mp hfound
  obtain ⟨items, hitems, hsame⟩ := files_of_check hcheck
  obtain ⟨hlisted, hpresent⟩ := sameItems_mem hsame
  refine ⟨items, hitems, hplain, fun rest content hne hnode => ?_, fun item hitem => ?_⟩
  · apply hlisted
    rw [mem_filesOf]
    refine ⟨rest, content, ?_, hnode, ?_, rfl⟩
    · rintro rfl
      rw [List.append_nil, hdir] at hnode
      cases hnode
    · exact Bool.eq_false_of_not_eq_true fun hmanifest =>
        hne (hunnested rest content hnode hmanifest)
  · obtain ⟨record, hrecord, hsame⟩ := hpresent item hitem
    obtain ⟨rest, content, -, hnode, hmanifest, rfl⟩ := (mem_filesOf sha record).mp hrecord
    refine ⟨rest, content, ?_, hnode, hsame⟩
    rintro rfl
    rw [isManifest_root] at hmanifest
    cases hmanifest

theorem verified_unique {t : Tree} {modelId revision : String} {dir : Path}
    {manifest manifest' : Json F} (h : Verified sha t modelId revision dir manifest)
    (h' : Verified sha t modelId revision dir manifest') : manifest = manifest' := by
  obtain ⟨content, -, hcontent, hload, -⟩ := h
  obtain ⟨content', -, hcontent', hload', -⟩ := h'
  obtain rfl := Option.some.inj (hcontent.symm.trans hcontent')
  exact Except.ok.inj (hload.symm.trans hload')

end Listings

section Runs

variable [DecidableEq ι] (repr : String → String) (env : ι → TreeEnv)
  (choose : ι → List (Finished MirrorCall (Except WeightError (MirrorRecord F)) (TreeHost ι)) →
    Option MirrorCall)

/-- Processes that mirror into one vault. -/
abbrev Mirrors (ι F : Type) :=
  System ι TreeOp Resp MirrorCall (Except WeightError (MirrorRecord F)) (TreeHost ι)

def runMirrors (y : Mirrors ι F) (schedule : List ι) : Mirrors ι F :=
  runAll (fun i => handle i (env i)) (mirror F repr sha) choose y schedule

/-- The invariant of the processes. -/
def Inv (y : Mirrors ι F) : Prop :=
  AllSound (fun i => handle i (env i)) choose (fun i _ => Spared i (env i)) (fun _ _ _ => True)
    (fun i => May F sha i (env i))
    (fun _ call _ result s => ∀ record, result = .ok record → Reported sha s call record) y ∧
    Complete F sha y.shared ∧ Locked y.shared

variable {repr env choose}

theorem inv_step (hfresh : Fresh env) (y : Mirrors ι F) (i : ι) (hy : Inv sha env choose y) :
    Inv sha env choose
      (step (fun i => handle i (env i)) (mirror F repr sha) choose i y) := by
  obtain ⟨hsound, hcomplete, hlocked⟩ := hy
  refine ⟨?_, ?_, ?_⟩
  · apply allSound_step (fun _ _ => inferInstance) y i hsound
    · intro call _
      apply safe_mirror sha repr call y.shared
      · exact fun found s' hreported other hother => Except.ok.inj hother ▸ hreported
      · exact fun e s' other hother => nomatch hother
    · intro call began op next _ hmay
      refine ⟨trivial, ?_, ?_⟩
      · exact fun j hj _ _ => spared_of_may sha hcomplete hmay hfresh hj
      · exact fun j f hf record hrecord => Reported.kept sha
          ((hsound j).finished f hf record hrecord) (kept_of_may sha hcomplete hmay)
  · apply shared_step (fun _ _ => inferInstance) y i _ hsound hcomplete
    exact fun _ _ _ _ _ hmay => complete_of_may sha hcomplete hmay
  · apply shared_step (fun _ _ => inferInstance) y i _ hsound hlocked
    exact fun _ _ _ _ _ hmay => locked_of_may sha hmay hlocked

theorem kept_step (y : Mirrors ι F) (i : ι) (hy : Inv sha env choose y) :
    KeptSnapshots y.shared
      (step (fun i => handle i (env i)) (mirror F repr sha) choose i y).shared := by
  apply shared_step (fun _ _ => inferInstance) y i (KeptSnapshots y.shared) hy.1 (.refl y.shared)
  exact fun _ _ _ _ _ hmay => kept_of_may sha hy.2.1 hmay

/-- The invariant holds in every state that is reached, and snapshots stay on the way. -/
theorem inv_run (hfresh : Fresh env) (y : Mirrors ι F) (schedule : List ι)
    (hy : Inv sha env choose y) :
    Inv sha env choose (runMirrors sha repr env choose y schedule) ∧
      KeptSnapshots y.shared (runMirrors sha repr env choose y schedule).shared := by
  induction schedule generalizing y with
  | nil => exact ⟨hy, .refl y.shared⟩
  | cons i rest ih =>
    obtain ⟨hinv, hkept⟩ := ih _ (inv_step sha hfresh y i hy)
    exact ⟨hinv, (kept_step sha y i hy).trans hkept⟩

theorem inv_start {s : TreeHost ι} (hinside : ∀ path, s.inside path = [])
    (hcomplete : Complete F sha s) : Inv sha env choose (System.start s) := by
  refine ⟨allSound_start _ _ _ _ _ _ _, hcomplete, fun path _ => ?_⟩
  change (s.inside path).length ≤ 1 ∧ (s.inside path ≠ [] → s.tree.node path ≠ none)
  rw [hinside]
  exact ⟨Nat.zero_le 1, fun hne => absurd rfl hne⟩

/-- What holds at every moment of a race: one run at most is inside a download slot, a snapshot
that exists is complete, and the runs of a revision that have returned report one manifest. -/
structure Agreed (y : Mirrors ι F) : Prop where
  exclusive : ∀ modelId revision, (y.shared.inside (lockPath sha modelId revision)).length ≤ 1
  complete : ∀ target, IsSnapshot target → y.shared.tree.node target ≠ none →
    ∃ modelId revision, ∃ manifest : Json F, snapshotPath modelId revision = .ok target ∧
      Verified sha y.shared.tree modelId revision target manifest ∧
      (Unnested y.shared.tree target → ∃ items, manifest.get? "files" = some (.list items) ∧
        Lists sha y.shared.tree target items)
  reported : ∀ modelId revision target, snapshotPath modelId revision = .ok target →
    ∃ manifest : Json F, ∀ i, ∀ f ∈ (y.process i).finished, f.call.modelId = modelId →
      f.call.revision = revision → ∀ record, f.result = .ok record →
        Verified sha y.shared.tree modelId revision target manifest ∧
          mirrorRecord f.call target manifest = .ok record

theorem agreed_of_inv {y : Mirrors ι F} (hy : Inv sha env choose y) : Agreed sha y where
  exclusive modelId revision := (hy.2.2 (lockPath sha modelId revision) ⟨_, rfl⟩).1
  complete := by
    intro target htarget hthere
    obtain ⟨modelId, revision, manifest, hpath, hverified⟩ := hy.2.1 target htarget hthere
    exact ⟨modelId, revision, manifest, hpath, hverified, lists_of_verified sha hverified⟩
  reported := by
    intro modelId revision target htarget
    have hall : ∀ i, ∀ f ∈ (y.process i).finished, f.call.modelId = modelId →
        f.call.revision = revision → ∀ record, f.result = .ok record → ∃ manifest : Json F,
          Verified sha y.shared.tree modelId revision target manifest ∧
            mirrorRecord f.call target manifest = .ok record := by
      rintro i f hf rfl rfl record hrecord
      obtain ⟨target', manifest, htarget', hverified, hmade⟩ :=
        (hy.1 i).finished f hf record hrecord
      obtain rfl := Except.ok.inj (htarget'.symm.trans htarget)
      exact ⟨manifest, hverified, hmade⟩
    by_cases hstored : ∃ manifest : Json F,
        Verified sha y.shared.tree modelId revision target manifest
    · obtain ⟨stored, hstored⟩ := hstored
      refine ⟨stored, fun i f hf hid hrevision record hrecord => ?_⟩
      obtain ⟨manifest, hverified, hmade⟩ := hall i f hf hid hrevision record hrecord
      rw [verified_unique sha hstored hverified]
      exact ⟨hverified, hmade⟩
    · refine ⟨.null, fun i f hf hid hrevision record hrecord => ?_⟩
      obtain ⟨manifest, hverified, -⟩ := hall i f hf hid hrevision record hrecord
      exact absurd ⟨manifest, hverified⟩ hstored

/-- Whatever the order of the steps and wherever runs fail or are killed, the processes agree at
every moment, and no snapshot that exists is altered, replaced or removed later. -/
theorem mirrors_agree (hfresh : Fresh env) {s : TreeHost ι} (hinside : ∀ path, s.inside path = [])
    (hcomplete : Complete F sha s) (first rest : List ι) :
    Agreed sha (runMirrors sha repr env choose (System.start s) first) ∧
      KeptSnapshots (runMirrors sha repr env choose (System.start s) first).shared
        (runMirrors sha repr env choose (System.start s) (first ++ rest)).shared := by
  have hinv : Inv sha env choose (runMirrors sha repr env choose (System.start s) first) :=
    (inv_run sha hfresh _ first (inv_start sha hinside hcomplete)).1
  refine ⟨agreed_of_inv sha hinv, ?_⟩
  have hrun : runMirrors sha repr env choose (System.start s) (first ++ rest) =
      runMirrors sha repr env choose (runMirrors sha repr env choose (System.start s) first) rest :=
    runAll_append _ first rest
  rw [hrun]
  exact (inv_run sha hfresh _ rest hinv).2

end Runs

section Sample

def sampleName (first : Bool) : String := if first then "a7x0k_2q" else "m3v9c1zt"

def sampleEnvs (first : Bool) : TreeEnv :=
  { RepeatedMirrors.sampleEnv 2 with tempName := fun _ => sampleName first }

theorem sample_fresh : Fresh sampleEnvs where
  length i j _ _ := by
    have hlength : ∀ i j, (sampleName i).toList.length = (sampleName j).toList.length := by decide
    exact hlength i j
  distinct i j _ _ h := by
    have hinjective : ∀ i j, sampleName i = sampleName j → i = j := by decide
    exact hinjective i j h

def sampleHost : TreeHost Bool := ⟨RepeatedMirrors.sampleTree, fun _ => [], 0⟩

/-- The only snapshot of the sample is verified. -/
theorem sample_complete : Complete WholeFloat Sha256.sample sampleHost := by
  intro target htarget hthere
  have hplaces : ∀ path ∈ RepeatedMirrors.sampleNodes.map Prod.fst, path.length = 4 →
      path = RepeatedMirrors.sampleTarget := by decide
  obtain rfl := hplaces target (CapacityChecks.mem_of_nodeIn hthere) htarget.length
  exact ⟨"o/n", "r", _, by decide, RepeatedMirrors.sample_verified⟩

def sampleCall (revision : String) : MirrorCall := ⟨"o/n", revision, "mit", [⟨some 1, none⟩],
  [(["w"], some (.file [7]))], none⟩

/-- Both processes mirror one revision, and then another one that is there already. -/
def sampleChoose (_ : Bool)
    (finished : List (Finished MirrorCall (Except WeightError (MirrorRecord WholeFloat))
      (TreeHost Bool))) : Option MirrorCall :=
  match finished with
  | [] => some (sampleCall "s")
  | [_] => some (sampleCall "r")
  | _ => none

def sampleSchedule : List Bool := (List.range 40).map (fun n => n % 3 = 0)

theorem mirrors_agree_sample :
    Agreed Sha256.sample (runMirrors (F := WholeFloat) Sha256.sample id sampleEnvs sampleChoose
        (System.start sampleHost) sampleSchedule) ∧
      KeptSnapshots (runMirrors (F := WholeFloat) Sha256.sample id sampleEnvs sampleChoose
          (System.start sampleHost) sampleSchedule).shared
        (runMirrors (F := WholeFloat) Sha256.sample id sampleEnvs sampleChoose
          (System.start sampleHost) (sampleSchedule ++ sampleSchedule)).shared :=
  mirrors_agree Sha256.sample sample_fresh (fun _ => rfl) sample_complete sampleSchedule
    sampleSchedule

end Sample

end Decillion.MirrorRaces
