import Decillion.SnapshotManifests
import Decillion.SnapshotPaths
import Decillion.TreeFrames

/-!
A mirror that runs beside others. Every process has staging directories of its own; what it
may do touches these, the lock files that it has made, missing directories on the way to a
snapshot and, by one renaming, the place of a snapshot that its staging directory is verified
for. As long as the others keep to that, a mirror that returns reports a snapshot that is
verified at its place.
-/
namespace Decillion.MirrorSteps

open ByteText Interleavings JsonText JsonValues Primitives Programs PyErrors PyValues
  SnapshotManifests SnapshotPaths TreeFrames TreeRules TreeSystem Trees WeightRules WeightVaults

def IsStaging (env : TreeEnv) (dir : Path) : Prop :=
  ∃ start tick, dir = [".staging", start ++ env.tempName tick]

/-- The paths of the staging directories of a process and below them. -/
def Owned (env : TreeEnv) (path : Path) : Prop := ∃ dir, IsStaging env dir ∧ dir <+: path

def IsLock (path : Path) : Prop := ∃ name, path = [".locks", name]

def IsSnapshot (path : Path) : Prop :=
  ∃ modelId revision, snapshotPath modelId revision = .ok path

/-- The directories that lead to staging directories and snapshots. -/
def Above (path : Path) : Prop :=
  path = [".staging"] ∨ ∃ target, IsSnapshot target ∧ path <+: target.dropLast

variable {ι : Type}

/-- No snapshot that is there is altered. -/
def KeptSnapshots (s s' : TreeHost ι) : Prop :=
  ∀ target, IsSnapshot target → s.tree.node target ≠ none → SameBelow target s s'

/-- The process keeps the locks that it has made. -/
def Holding (me : ι) (s s' : TreeHost ι) : Prop :=
  ∀ path, IsLock path → me ∈ s.inside path → me ∈ s'.inside path

/-- What the others leave alone. -/
structure Spared (me : ι) (env : TreeEnv) (s s' : TreeHost ι) : Prop where
  owned : ∀ path, Owned env path → s'.tree.node path = s.tree.node path
  snapshots : KeptSnapshots s s'
  held : Holding me s s'

theorem KeptSnapshots.refl (s : TreeHost ι) : KeptSnapshots s s := fun _ _ _ _ => rfl

theorem node_of_sameBelow {dir : Path} {s s' : TreeHost ι} (h : SameBelow dir s s') :
    s'.tree.node dir = s.tree.node dir := by
  have hdir := h []
  rwa [List.append_nil] at hdir

theorem KeptSnapshots.trans {s s' s'' : TreeHost ι} (h : KeptSnapshots s s')
    (h' : KeptSnapshots s' s'') : KeptSnapshots s s'' := by
  intro target htarget hthere
  have hsame := h target htarget hthere
  exact hsame.trans (h' target htarget (by rwa [node_of_sameBelow hsame]))

theorem Holding.refl (me : ι) (s : TreeHost ι) : Holding me s s := fun _ _ h => h

theorem Holding.trans {me : ι} {s s' s'' : TreeHost ι} (h : Holding me s s')
    (h' : Holding me s' s'') : Holding me s s'' :=
  fun path hlock hin => h' path hlock (h path hlock hin)

instance (me : ι) : IsPreorder (TreeHost ι) (Holding me) where
  refl := Holding.refl me
  trans _ _ _ h h' := h.trans h'

instance (me : ι) (env : TreeEnv) : IsPreorder (TreeHost ι) (Spared me env) where
  refl s := ⟨fun _ _ => rfl, .refl s, .refl me s⟩
  trans _ _ _ h h' := ⟨fun path hpath => (h'.owned path hpath).trans (h.owned path hpath),
    h.snapshots.trans h'.snapshots, h.held.trans h'.held⟩

section Paths

variable {env : TreeEnv} {path target : Path}

theorem IsStaging.owned {dir : Path} (h : IsStaging env dir) (rest : Path) :
    Owned env (dir ++ rest) := ⟨dir, h, List.prefix_append _ _⟩

theorem Owned.head (h : Owned env path) : ∃ rest, path = ".staging" :: rest := by
  obtain ⟨-, ⟨start, tick, rfl⟩, more, rfl⟩ := h
  exact ⟨_, rfl⟩

theorem Owned.not_lock (h : Owned env path) : ¬ IsLock path := by
  rintro ⟨name, rfl⟩
  obtain ⟨rest, hrest⟩ := h.head
  exact absurd (List.cons.inj hrest).1 (by decide)

theorem IsSnapshot.cases (h : IsSnapshot target) :
    ∃ organization name revision, target = ["models", organization, name, revision] := by
  obtain ⟨modelId, revision, h⟩ := h
  obtain ⟨organization, name, htarget, -⟩ := snapshotPath_accepted h
  exact ⟨organization, name, revision, htarget⟩

/-- Below a snapshot are only paths that begin with `models`. -/
theorem IsSnapshot.head (h : IsSnapshot target) (rest : Path) :
    ∃ more, target ++ rest = "models" :: more := by
  obtain ⟨organization, name, revision, rfl⟩ := h.cases
  exact ⟨_, rfl⟩

theorem Owned.not_below (h : Owned env path) (htarget : IsSnapshot target) (rest : Path) :
    path ≠ target ++ rest := by
  rintro rfl
  obtain ⟨more, hmore⟩ := htarget.head rest
  obtain ⟨others, hothers⟩ := h.head
  rw [hmore] at hothers
  exact absurd (List.cons.inj hothers).1 (by decide)

theorem IsLock.not_below (h : IsLock path) (htarget : IsSnapshot target) (rest : Path) :
    path ≠ target ++ rest := by
  rintro rfl
  obtain ⟨name, hname⟩ := h
  obtain ⟨more, hmore⟩ := htarget.head rest
  rw [hmore] at hname
  exact absurd (List.cons.inj hname).1 (by decide)

theorem Owned.mono {path' : Path} (h : Owned env path) (hle : path <+: path') :
    Owned env path' := by
  obtain ⟨dir, hdir, hbelow⟩ := h
  exact ⟨dir, hdir, hbelow.trans hle⟩

theorem IsSnapshot.length (h : IsSnapshot target) : target.length = 4 := by
  obtain ⟨organization, name, revision, rfl⟩ := h.cases
  rfl

/-- No snapshot is below another one. -/
theorem IsSnapshot.eq_of_below {target' : Path} (h : IsSnapshot target)
    (h' : IsSnapshot target') (hle : target <+: path) (hle' : target' <+: path) :
    target = target' := by
  have hlength : target.length = target'.length := h.length.trans h'.length.symm
  exact (List.prefix_of_prefix_length_le hle hle' hlength.le).eq_of_length hlength

theorem Above.not_below (h : Above path) (htarget : IsSnapshot target)
    (rest : Path) : path ≠ target ++ rest := by
  rintro rfl
  have hlong := htarget.length
  rcases h with heq | ⟨other, hother, hle⟩
  · have hlength := congrArg List.length heq
    rw [List.length_append, List.length_singleton] at hlength
    omega
  · have hlength := hle.length_le
    rw [List.length_append, List.length_dropLast, hother.length] at hlength
    omega

theorem Above.not_owned (h : Above path) : ¬ Owned env path := by
  intro howned
  obtain ⟨-, ⟨start, tick, rfl⟩, rest, rfl⟩ := howned
  rcases h with heq | ⟨target, htarget, hle⟩
  · have hlength := congrArg List.length heq
    rw [List.length_append, List.length_singleton, List.length_cons,
      List.length_singleton] at hlength
    omega
  · obtain ⟨organization, name, revision, rfl⟩ := htarget.cases
    exact absurd (List.cons_prefix_cons.mp hle).1 (by decide)

theorem Above.not_lock (h : Above path) : ¬ IsLock path := by
  rintro ⟨name, rfl⟩
  rcases h with heq | ⟨target, htarget, hle⟩
  · exact absurd (List.cons.inj heq).1 (by decide)
  · obtain ⟨organization, more, revision, rfl⟩ := htarget.cases
    exact absurd (List.cons_prefix_cons.mp hle).1 (by decide)

end Paths

variable {F : Type} [FloatText F] [FloatNumber F] (sha : Sha256)

variable (F) in
/-- A staging directory that is verified for the place where it is renamed to. -/
def Publishes (env : TreeEnv) (s : TreeHost ι) (source target : Path) : Prop :=
  IsStaging env source ∧ ∃ modelId revision, ∃ manifest : Json F,
    snapshotPath modelId revision = .ok target ∧
      Verified sha s.tree modelId revision source manifest

variable (F) in
/-- What a mirror may do. -/
def May (me : ι) (env : TreeEnv) (s : TreeHost ι) : TreeOp → Prop
  | .mkdir path => Owned env path ∨ Above path
  | .createExclusive path => IsLock path
  | .mkdtemp dir _ => dir = [".staging"]
  | .mkstemp dir _ => IsStaging env dir
  | .write path _ => Owned env path
  | .replace source target => Owned env source ∧ Owned env target ∨
      Publishes F sha env s source target
  | .unlink path => Owned env path ∨ IsLock path ∧ me ∈ s.inside path
  | .remove path => Owned env path
  | .edit path _ => Owned env path
  | _ => True

/-- The snapshot that a manifest reports, up to the order of keys. -/
structure SameReport (manifest stored : Json F) : Prop where
  total : manifest.get? "total_bytes" = stored.get? "total_bytes"
  files : (manifest.get? "files").map jsonLength = (stored.get? "files").map jsonLength

/-- The manifest is that of a snapshot at its place. -/
def Published (s : TreeHost ι) (modelId revision : String) (manifest : Json F) : Prop :=
  ∃ target stored, snapshotPath modelId revision = .ok target ∧
    Verified sha s.tree modelId revision target stored ∧ SameReport manifest stored

/-- What a mirror has returned is what the manifest at the place of the snapshot says. -/
def Reported (s : TreeHost ι) (call : MirrorCall) (record : MirrorRecord F) : Prop :=
  ∃ target manifest, snapshotPath call.modelId call.revision = .ok target ∧
    Verified sha s.tree call.modelId call.revision target manifest ∧
    mirrorRecord call target manifest = .ok record

theorem Verified.there {t : Tree} {modelId revision : String} {target : Path} {manifest : Json F}
    (h : Verified sha t modelId revision target manifest) : t.node target ≠ none := by
  obtain ⟨content, -, hcontent, -⟩ := h
  intro hnone
  have hbelow := t.none_of_prefix target [MANIFEST] hnone
  rw [nodeContent, hbelow] at hcontent
  cases hcontent

theorem Verified.kept {s s' : TreeHost ι} {modelId revision : String} {target : Path}
    {manifest : Json F} (h : Verified sha s.tree modelId revision target manifest)
    (htarget : snapshotPath modelId revision = .ok target) (hkept : KeptSnapshots s s') :
    Verified sha s'.tree modelId revision target manifest :=
  (verified_congr sha (hkept target ⟨modelId, revision, htarget⟩ (Verified.there sha h))).mpr h

theorem Published.kept {s s' : TreeHost ι} {modelId revision : String} {manifest : Json F}
    (h : Published sha s modelId revision manifest) (hkept : KeptSnapshots s s') :
    Published sha s' modelId revision manifest := by
  obtain ⟨target, stored, htarget, hverified, hsame⟩ := h
  exact ⟨target, stored, htarget, Verified.kept sha hverified htarget hkept, hsame⟩

theorem Reported.kept {s s' : TreeHost ι} {call : MirrorCall} {record : MirrorRecord F}
    (h : Reported sha s call record) (hkept : KeptSnapshots s s') :
    Reported sha s' call record := by
  obtain ⟨target, manifest, htarget, hverified, hrecord⟩ := h
  exact ⟨target, manifest, htarget, Verified.kept sha hverified htarget hkept, hrecord⟩

end Decillion.MirrorSteps
