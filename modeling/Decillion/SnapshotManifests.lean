import Decillion.WeightRules

/-!
The manifest of a snapshot that is read back. The inventory of a directory does not see the
manifest at its root and does not change when the directory is renamed, so a staging
directory with the manifest of its own inventory is verified at its final place.
-/
namespace Decillion.SnapshotManifests

open ByteText JsonText JsonValues Primitives PyErrors PyValues TextFiles Trees TreeRules TreeSystem
  WeightRules WeightVaults

variable {F : Type} [FloatNumber F] (sha : Sha256)

section Inventories

variable {dir dir' : Path} {view view' : Path → Option Node} {names : List Path}

theorem entryOf_ok {rest : Path} {entry : Option FileRecord}
    (h : entryOf sha dir view rest = .ok entry) (hview : view' rest = view rest) :
    entryOf sha dir' view' rest = .ok entry := by
  unfold entryOf at h ⊢
  rw [hview]
  split at h
  · cases h
  · exact h
  · exact h

/-- What an inventory finds does not depend on where the directory is. -/
theorem recordsOf_ok {found : List FileRecord × ℕ}
    (h : recordsOf sha dir view names = .ok found)
    (hview : ∀ rest ∈ names, view' rest = view rest) :
    recordsOf sha dir' view' names = .ok found := by
  induction names generalizing found with
  | nil => exact h
  | cons rest more ih =>
    obtain ⟨entry, hentry, h⟩ := bind_eq_ok h
    obtain ⟨others, hothers, h⟩ := bind_eq_ok h
    rw [recordsOf, entryOf_ok sha hentry (hview rest (List.mem_cons_self ..)), ok_bind,
      ih hothers (fun other hother => hview other (List.mem_cons_of_mem _ hother)), ok_bind]
    exact h

/-- Names that the inventory does not list can be left out. -/
theorem recordsOf_filter (keep : Path → Bool)
    (h : ∀ rest ∈ names, keep rest = false → entryOf sha dir view rest = .ok none) :
    recordsOf sha dir view (names.filter keep) = recordsOf sha dir view names := by
  induction names with
  | nil => rfl
  | cons rest more ih =>
    have hmore := ih (fun other hother => h other (List.mem_cons_of_mem _ hother))
    cases hkeep : keep rest with
    | true =>
      rw [List.filter_cons_of_pos hkeep, recordsOf, recordsOf, hmore]
    | false =>
      rw [List.filter_cons_of_neg (by rw [hkeep]; exact Bool.false_ne_true), hmore, recordsOf,
        h rest (List.mem_cons_self ..) hkeep, ok_bind]
      cases recordsOf sha dir view more with
      | error e => rfl
      | ok found => rfl

theorem entryOf_of_recordsOf {found : List FileRecord × ℕ} {rest : Path}
    (h : recordsOf sha dir view names = .ok found) (hrest : rest ∈ names) :
    ∃ entry, entryOf sha dir view rest = .ok entry := by
  induction names generalizing found with
  | nil => cases hrest
  | cons first more ih =>
    obtain ⟨entry, hentry, h⟩ := bind_eq_ok h
    obtain ⟨others, hothers, -⟩ := bind_eq_ok h
    rcases List.mem_cons.mp hrest with rfl | hrest
    · exact ⟨entry, hentry⟩
    · exact ih hothers hrest

end Inventories

theorem filter_sortPaths (keep : Path → Bool) (paths : List Path) (h : paths.Nodup) :
    (sortPaths paths).filter keep = sortPaths (paths.filter keep) := by
  have hperm : ((sortPaths paths).filter keep).Perm (sortPaths (paths.filter keep)) := by
    rw [List.perm_ext_iff_of_nodup ((nodup_sortPaths _ h).filter _)
      (nodup_sortPaths _ (h.filter _))]
    intro path
    rw [mem_sortPaths, List.mem_filter, List.mem_filter, mem_sortPaths]
  exact hperm.eq_of_pairwise' ((List.pairwise_insertionSort _ _).filter _)
    (List.pairwise_insertionSort _ _)

def isRootManifest (rest : Path) : Bool := decide (rest = [MANIFEST])

theorem isManifest_root : isManifest [MANIFEST] = true := by decide

/-- A manifest that is written into the directory and a renaming do not change what the
inventory lists. -/
theorem inventoryOf_stored {t t' : Tree} {dir dir' : Path} {found : List FileRecord × ℕ}
    {content : Bytes} (h : inventoryOf sha t dir = .ok found)
    (hsame : ∀ rest, rest ≠ [MANIFEST] → t'.node (dir' ++ rest) = t.node (dir ++ rest))
    (hmanifest : t'.node (dir' ++ [MANIFEST]) = some (.file content)) :
    inventoryOf sha t' dir' = .ok found := by
  let keep : Path → Bool := fun rest => !isRootManifest rest
  have hkeep : ∀ rest, keep rest = false → rest = [MANIFEST] := by
    intro rest hfalse
    simpa [keep, isRootManifest] using hfalse
  have hfilter : recordsOf sha dir (fun rest => t.node (dir ++ rest))
      ((sortPaths (t.below dir)).filter keep) = .ok found := by
    rw [recordsOf_filter, ← inventoryOf, h]
    intro rest hrest hfalse
    obtain rfl := hkeep rest hfalse
    obtain ⟨entry, hentry⟩ := entryOf_of_recordsOf sha h hrest
    rw [hentry]
    unfold entryOf at hentry
    split at hentry
    · cases hentry
    · rw [isManifest_root, if_pos rfl] at hentry
      exact hentry.symm
    · exact hentry.symm
  have hnames : (sortPaths (t'.below dir')).filter keep =
      (sortPaths (t.below dir)).filter keep := by
    rw [filter_sortPaths _ _ (nodup_below _ _), filter_sortPaths _ _ (nodup_below _ _)]
    apply sortPaths_congr _ _ ((nodup_below _ _).filter _) ((nodup_below _ _).filter _)
    intro rest
    rw [List.mem_filter, List.mem_filter, mem_below, mem_below]
    by_cases hrest : rest = [MANIFEST]
    · subst hrest
      simp [keep, isRootManifest]
    · rw [hsame rest hrest]
  rw [inventoryOf, ← recordsOf_filter sha keep, hnames]
  · apply recordsOf_ok sha hfilter
    intro rest hrest
    apply hsame
    rintro rfl
    simp [keep, isRootManifest] at hrest
  · intro rest _ hfalse
    obtain rfl := hkeep rest hfalse
    rw [entryOf, hmanifest, isManifest_root]
    rfl

section Manifests

variable (modelId revision license createdAt : String) (files : List FileRecord) (total : ℕ)

omit [FloatNumber F] in
theorem sortKeys_record (record : FileRecord) : sortKeys (record.toJson (F := F)) =
    .obj [("path", .str record.path), ("sha256", .str record.sha256),
      ("size", .int record.size)] := by
  simp [FileRecord.toJson, sortKeys, sortMembers, List.insertionSort, List.orderedInsert, keyLe]

omit [FloatNumber F] in
theorem sortKeys_manifestJson :
    sortKeys (manifestJson (F := F) modelId revision license createdAt files total) =
      .obj [("created_at", .str createdAt),
        ("files", .list (sortItems (files.map FileRecord.toJson))),
        ("format_version", .int FORMAT_VERSION), ("license", .str license),
        ("model_id", .str modelId), ("revision", .str revision), ("total_bytes", .int total)] := by
  simp [manifestJson, sortKeys, sortMembers, List.insertionSort, List.orderedInsert, keyLe]

theorem sameRecord_sorted (record : FileRecord) :
    sameRecord record (sortKeys (record.toJson (F := F))) = true := by
  rw [sortKeys_record]
  simp [sameRecord, List.lookup_cons, equalsStr]

theorem sameItems_sorted :
    sameItems files (sortItems (files.map (FileRecord.toJson (F := F)))) = true := by
  induction files with
  | nil => rfl
  | cons record rest ih =>
    rw [List.map_cons, sortItems, sameItems, sameRecord_sorted, ih]
    rfl

omit [FloatNumber F] in
theorem length_sortItems (items : List (Json F)) : (sortItems items).length = items.length := by
  induction items with
  | nil => rfl
  | cons item rest ih => rw [sortItems, List.length_cons, List.length_cons, ih]

omit [FloatNumber F] in
theorem distinctKeys_records :
    DistinctKeysItems (files.map (FileRecord.toJson (F := F))) := by
  induction files with
  | nil => trivial
  | cons record rest ih =>
    refine ⟨⟨?_, ?_⟩, ih⟩
    · simp
    · simp [DistinctKeysMembers, DistinctKeys]

omit [FloatNumber F] in
theorem distinctKeys_manifestJson : DistinctKeys
    (manifestJson (F := F) modelId revision license createdAt files total) := by
  refine ⟨?_, ?_⟩
  · simp
  · simp [DistinctKeysMembers, DistinctKeys, distinctKeys_records]

theorem checkManifest_sorted : checkManifest
    (sortKeys (manifestJson (F := F) modelId revision license createdAt files total)) modelId
      revision files total =
        .ok (sortKeys (manifestJson modelId revision license createdAt files total)) := by
  rw [sortKeys_manifestJson]
  simp [checkManifest, List.lookup_cons, sameRecords, sameItems_sorted, equalsStr]

variable [FloatText F]

omit [FloatNumber F] in
theorem loadManifest_manifestText (manifest : Json F) (h : DistinctKeys manifest) :
    loadManifest (manifestText manifest) = .ok (sortKeys manifest) := by
  have hread := loads_readText (indented 2) (sortKeys manifest) (sortKeys_distinctKeys _ h)
  obtain ⟨text, htext, hloads⟩ := Option.bind_eq_some_iff.mp hread
  rw [loadManifest, manifestText, htext]
  dsimp only
  rw [hloads]

end Manifests

variable [FloatText F] {modelId revision license createdAt : String}

/-- A directory with the manifest of its inventory is verified wherever it is. -/
theorem verified_stored {t t' : Tree} {dir dir' : Path} {found : List FileRecord × ℕ}
    (h : inventoryOf sha t dir = .ok found)
    (hsame : ∀ rest, rest ≠ [MANIFEST] → t'.node (dir' ++ rest) = t.node (dir ++ rest))
    (hmanifest : t'.node (dir' ++ [MANIFEST]) = some (.file (manifestText (manifestJson (F := F)
      modelId revision license createdAt found.1 found.2)))) :
    Verified sha t' modelId revision dir'
      (sortKeys (manifestJson (F := F) modelId revision license createdAt found.1 found.2)) := by
  refine ⟨_, found, ?_, loadManifest_manifestText _ (distinctKeys_manifestJson ..),
    inventoryOf_stored sha h hsame hmanifest, checkManifest_sorted ..⟩
  rw [nodeContent, hmanifest]
  rfl

theorem verified_moved {t t' : Tree} {dir dir' : Path} {manifest : Json F}
    (h : Verified sha t modelId revision dir manifest)
    (hsame : ∀ rest, t'.node (dir' ++ rest) = t.node (dir ++ rest)) :
    Verified sha t' modelId revision dir' manifest := by
  obtain ⟨content, found, hcontent, hload, hfound, hcheck⟩ := h
  refine ⟨content, found, ?_, hload, ?_, hcheck⟩
  · rwa [nodeContent, hsame]
  · have hnames : sortPaths (t'.below dir') = sortPaths (t.below dir) := by
      apply sortPaths_below
      intro rest
      rw [hsame]
    rw [inventoryOf, hnames]
    exact recordsOf_ok sha hfound (fun rest _ => hsame rest)

end Decillion.SnapshotManifests
