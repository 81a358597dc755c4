import Decillion.SnapshotManifests

/-!
The files that an inventory lists. It succeeds when there is no symbolic link below the
directory, and lists the regular files below it with the exception of those that are named like
a manifest, at whatever depth; empty directories leave no trace in it.
-/
namespace Decillion.SnapshotFiles

open ByteText JsonValues Primitives PyErrors PyValues SnapshotManifests Trees TreeSystem WeightRules
  WeightVaults

variable (sha : Sha256)

def recordOf (rest : Path) (content : Bytes) : FileRecord :=
  ⟨asPosix rest, content.length, sha.hexdigest content⟩

/-- The record of a regular file that is not named like a manifest. -/
def listed (view : Path → Option Node) (rest : Path) : Option FileRecord :=
  match view rest with
  | some (.file content) => if isManifest rest then none else some (recordOf sha rest content)
  | _ => none

/-- The records of the regular files below a directory. -/
def filesOf (t : Tree) (dir : Path) : List FileRecord :=
  (sortPaths (t.below dir)).filterMap (listed sha (t.view dir))

def totalOf (files : List FileRecord) : ℕ := (files.map FileRecord.size).sum

/-- Nothing below the directory is a symbolic link. -/
def Plain (t : Tree) (dir : Path) : Prop :=
  ∀ rest, rest ≠ [] → ∀ target, t.node (dir ++ rest) ≠ some (.link target)

section Records

variable {dir : Path} {view : Path → Option Node} {names : List Path}

theorem entryOf_plain {rest : Path} (h : ∀ target, view rest ≠ some (.link target)) :
    entryOf sha dir view rest = .ok (listed sha view rest) := by
  unfold entryOf listed
  cases hnode : view rest with
  | none => rfl
  | some node =>
    cases node with
    | dir => rfl
    | file content => rfl
    | link target => exact absurd hnode (h target)

theorem totalOf_cons (record : FileRecord) (files : List FileRecord) :
    totalOf (record :: files) = record.size + totalOf files := by
  rw [totalOf, totalOf, List.map_cons, List.sum_cons]

theorem recordsOf_listed (h : ∀ rest ∈ names, ∀ target, view rest ≠ some (.link target)) :
    recordsOf sha dir view names = .ok (names.filterMap (listed sha view),
      totalOf (names.filterMap (listed sha view))) := by
  induction names with
  | nil => rfl
  | cons rest more ih =>
    have hmore := ih fun other hother => h other (List.mem_cons_of_mem _ hother)
    rw [recordsOf, entryOf_plain sha (h rest List.mem_cons_self), ok_bind, hmore, ok_bind]
    cases hlisted : listed sha view rest with
    | none =>
      rw [List.filterMap_cons_none hlisted]
      rfl
    | some record =>
      rw [List.filterMap_cons_some hlisted, totalOf_cons]
      rfl

theorem plain_of_recordsOf {found : List FileRecord × ℕ}
    (h : recordsOf sha dir view names = .ok found) :
    ∀ rest ∈ names, ∀ target, view rest ≠ some (.link target) := by
  intro rest hrest target hnode
  obtain ⟨entry, hentry⟩ := entryOf_of_recordsOf sha h hrest
  rw [entryOf, hnode] at hentry
  cases hentry

end Records

section Inventories

variable {t t' : Tree} {dir dir' : Path}

/-- An inventory succeeds without links, and lists the regular files. -/
theorem inventoryOf_ok_iff (found : List FileRecord × ℕ) : inventoryOf sha t dir = .ok found ↔
    Plain t dir ∧ found = (filesOf sha t dir, totalOf (filesOf sha t dir)) := by
  constructor
  · intro h
    have hplain := plain_of_recordsOf sha h
    have hlisted : inventoryOf sha t dir = .ok (filesOf sha t dir, totalOf (filesOf sha t dir)) :=
      recordsOf_listed sha hplain
    refine ⟨fun rest hne target hnode => ?_, Except.ok.inj (h.symm.trans hlisted)⟩
    refine hplain rest ?_ target hnode
    rw [mem_sortPaths, mem_below, hnode]
    exact ⟨hne, Option.some_ne_none _⟩
  · rintro ⟨hplain, rfl⟩
    apply recordsOf_listed
    intro rest hrest
    rw [mem_sortPaths, mem_below] at hrest
    exact hplain rest hrest.1

theorem listed_eq_some {view : Path → Option Node} {rest : Path} {record : FileRecord} :
    listed sha view rest = some record ↔ ∃ content, view rest = some (.file content) ∧
      isManifest rest = false ∧ record = recordOf sha rest content := by
  unfold listed
  constructor
  · intro h
    split at h
    · rename_i content hnode
      split at h
      · cases h
      · rename_i hmanifest
        exact ⟨content, hnode, Bool.eq_false_of_not_eq_true hmanifest, (Option.some.inj h).symm⟩
    · cases h
  · rintro ⟨content, hnode, hmanifest, rfl⟩
    rw [hnode]
    exact if_neg (hmanifest ▸ Bool.false_ne_true)

theorem mem_filesOf (record : FileRecord) : record ∈ filesOf sha t dir ↔
    ∃ rest content, rest ≠ [] ∧ t.node (dir ++ rest) = some (.file content) ∧
      isManifest rest = false ∧ record = recordOf sha rest content := by
  rw [filesOf, List.mem_filterMap]
  constructor
  · rintro ⟨rest, hrest, hlisted⟩
    obtain ⟨content, hnode, hmanifest, hrecord⟩ := (listed_eq_some sha).mp hlisted
    rw [mem_sortPaths, mem_below] at hrest
    exact ⟨rest, content, hrest.1, hnode, hmanifest, hrecord⟩
  · rintro ⟨rest, content, hne, hnode, hmanifest, hrecord⟩
    refine ⟨rest, ?_, (listed_eq_some sha).mpr ⟨content, hnode, hmanifest, hrecord⟩⟩
    rw [mem_sortPaths, mem_below, hnode]
    exact ⟨hne, Option.some_ne_none _⟩

/-- The regular files that an inventory lists are the same in both directories. -/
def SameFiles (t t' : Tree) (dir dir' : Path) : Prop :=
  ∀ rest, rest ≠ [] → isManifest rest = false → ∀ content,
    t'.node (dir' ++ rest) = some (.file content) ↔ t.node (dir ++ rest) = some (.file content)

def isListed (view : Path → Option Node) (rest : Path) : Bool := (listed sha view rest).isSome

theorem filterMap_isListed (view : Path → Option Node) (names : List Path) :
    (names.filter (isListed sha view)).filterMap (listed sha view) =
      names.filterMap (listed sha view) := by
  rw [List.filterMap_filter]
  refine List.filterMap_congr fun rest _ => ?_
  unfold isListed
  cases listed sha view rest with
  | none => rfl
  | some record => rfl

theorem listed_congr (h : SameFiles t t' dir dir') {rest : Path} (hne : rest ≠ []) :
    listed sha (t'.view dir') rest = listed sha (t.view dir) rest := by
  refine Option.ext fun record => ?_
  rw [listed_eq_some, listed_eq_some]
  refine exists_congr fun content => ?_
  constructor
  · rintro ⟨hnode, hmanifest, hrecord⟩
    exact ⟨(h rest hne hmanifest content).mp hnode, hmanifest, hrecord⟩
  · rintro ⟨hnode, hmanifest, hrecord⟩
    exact ⟨(h rest hne hmanifest content).mpr hnode, hmanifest, hrecord⟩

/-- Only the regular files count. -/
theorem filesOf_congr (h : SameFiles t t' dir dir') :
    filesOf sha t' dir' = filesOf sha t dir := by
  have hmem : ∀ (t : Tree) (dir rest : Path), rest ∈
      (t.below dir).filter (isListed sha (t.view dir)) ↔
        rest ≠ [] ∧ isListed sha (t.view dir) rest = true := by
    intro t dir rest
    rw [List.mem_filter, mem_below]
    refine ⟨fun hrest => ⟨hrest.1.1, hrest.2⟩, fun hrest => ⟨⟨hrest.1, fun hnone => ?_⟩, hrest.2⟩⟩
    obtain ⟨record, hrecord⟩ := Option.isSome_iff_exists.mp hrest.2
    obtain ⟨content, hnode, -⟩ := (listed_eq_some sha).mp hrecord
    cases hnone.symm.trans hnode
  have hnames : sortPaths ((t'.below dir').filter (isListed sha (t'.view dir'))) =
      sortPaths ((t.below dir).filter (isListed sha (t.view dir))) := by
    apply sortPaths_congr _ _ ((nodup_below _ _).filter _) ((nodup_below _ _).filter _)
    intro rest
    rw [hmem, hmem]
    refine and_congr_right fun hne => ?_
    rw [isListed, isListed, listed_congr sha h hne]
  rw [filesOf, filesOf, ← filterMap_isListed, ← filterMap_isListed sha (t.view dir),
    filter_sortPaths _ _ (nodup_below _ _), filter_sortPaths _ _ (nodup_below _ _), hnames]
  refine List.filterMap_congr fun rest hrest => ?_
  rw [mem_sortPaths, hmem] at hrest
  exact listed_congr sha h hrest.1

end Inventories

end Decillion.SnapshotFiles
