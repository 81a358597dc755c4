import Decillion.CapacityChecks
import Decillion.PathJoins

/-!
Where the snapshots of the weight vault live. An accepted model id and revision lead to one
directory three levels below `models`, no other accepted pair leads to it or into it, and
the names of the lock files differ as the snapshots do.
-/
namespace Decillion.SnapshotPaths

open ByteText CapacityChecks PathJoins Primitives Trees WeightVaults

/-- The failures that are reported as `VaultError`. -/
def isVaultError : WeightError → Bool
  | .vaultError _ | .notInitialized | .unsafeComponent _ | .symbolicLink _ => true
  | .integrityError _ | .python _ => false

theorem safeComponent_error {value : String} {e : WeightError}
    (h : safeComponent value = .error e) : isVaultError e = true := by
  unfold safeComponent at h
  split at h
  · cases h
  · cases h
    rfl

theorem safeComponent_isComponent {value part : String} (h : safeComponent value = .ok part) :
    isComponent value.toList = true := by
  unfold safeComponent at h
  split at h
  · rwa [← chars_eq]
  · cases h

theorem at_not_mem {cs : List Char} (h : isComponent cs = true) : '@' ∉ cs := by
  unfold isComponent at h
  split at h
  · cases h
  · simp only [Bool.and_eq_true, List.all_eq_true] at h
    obtain ⟨⟨hfirst, -⟩, hrest⟩ := h
    intro hat
    rcases List.mem_cons.mp hat with rfl | hat
    · exact absurd hfirst (by decide)
    · exact absurd (hrest _ hat) (by decide)

/-- A call either raises `VaultError` or finds three components that the pattern accepts. -/
theorem snapshotPath_total (modelId revision : String) :
    (∃ e, snapshotPath modelId revision = .error e ∧ isVaultError e = true) ∨
      ∃ organization name, snapshotPath modelId revision =
          .ok ["models", organization, name, revision] ∧
        safeComponent organization = .ok organization ∧ safeComponent name = .ok name ∧
        safeComponent revision = .ok revision ∧
        modelId.toList = organization.toList ++ '/' :: name.toList := by
  unfold snapshotPath
  split
  · rename_i first second hsplit
    cases hfirst : safeComponent (String.ofList first) with
    | error e => exact Or.inl ⟨e, rfl, safeComponent_error hfirst⟩
    | ok organization =>
      cases hsecond : safeComponent (String.ofList second) with
      | error e => exact Or.inl ⟨e, rfl, safeComponent_error hsecond⟩
      | ok name =>
        cases hthird : safeComponent revision with
        | error e => exact Or.inl ⟨e, rfl, safeComponent_error hthird⟩
        | ok part =>
          obtain rfl := (safeComponent_ok hfirst).1
          obtain rfl := (safeComponent_ok hsecond).1
          obtain rfl := (safeComponent_ok hthird).1
          refine Or.inr ⟨_, _, rfl, hfirst, hsecond, rfl, ?_⟩
          have hjoin : ['/'].intercalate ((chars modelId).splitOn '/') = chars modelId :=
            List.intercalate_splitOn '/'
          rw [hsplit, chars_eq] at hjoin
          simpa [List.intercalate] using hjoin.symm
  · exact Or.inl ⟨_, rfl, rfl⟩

/-- What the two accepted texts are made of. -/
theorem snapshotPath_accepted {modelId revision : String} {target : Path}
    (h : snapshotPath modelId revision = .ok target) :
    ∃ organization name, target = ["models", organization, name, revision] ∧
      safeComponent organization = .ok organization ∧ safeComponent name = .ok name ∧
      safeComponent revision = .ok revision ∧
      modelId.toList = organization.toList ++ '/' :: name.toList := by
  rcases snapshotPath_total modelId revision with
    ⟨e, herror, -⟩ | ⟨organization, name, hok, hparts⟩
  · rw [herror] at h
    cases h
  · rw [hok] at h
    obtain rfl := Except.ok.inj h
    exact ⟨organization, name, rfl, hparts⟩

theorem snapshotPath_length {modelId revision : String} {target : Path}
    (h : snapshotPath modelId revision = .ok target) : target.length = 4 := by
  obtain ⟨organization, name, rfl, -⟩ := snapshotPath_accepted h
  rfl

/-- The path says which model and revision it is of. -/
theorem snapshotPath_injective {modelId modelId' revision revision' : String} {target : Path}
    (h : snapshotPath modelId revision = .ok target)
    (h' : snapshotPath modelId' revision' = .ok target) :
    modelId = modelId' ∧ revision = revision' := by
  obtain ⟨organization, name, rfl, -, -, -, hmodel⟩ := snapshotPath_accepted h
  obtain ⟨organization', name', htarget, -, -, -, hmodel'⟩ := snapshotPath_accepted h'
  simp only [List.cons.injEq, true_and, and_true] at htarget
  obtain ⟨rfl, rfl, rfl⟩ := htarget
  exact ⟨String.toList_injective (hmodel.trans hmodel'.symm), rfl⟩

/-- The text of the lock's key is read back as the model and the revision. -/
theorem at_injective {modelId modelId' revision revision' : String} {target : Path}
    (h : snapshotPath modelId revision = .ok target)
    (htext : modelId ++ "@" ++ revision = modelId' ++ "@" ++ revision') :
    modelId = modelId' ∧ revision = revision' := by
  obtain ⟨organization, name, -, horganization, hname, hrevision, hmodel⟩ :=
    snapshotPath_accepted h
  have hat : '@' ∉ modelId.toList := by
    rw [hmodel, List.mem_append, List.mem_cons]
    rintro (hmem | hmem | hmem)
    · exact at_not_mem (safeComponent_isComponent horganization) hmem
    · exact absurd hmem (by decide)
    · exact at_not_mem (safeComponent_isComponent hname) hmem
  have hlist : modelId.toList ++ '@' :: revision.toList =
      modelId'.toList ++ '@' :: revision'.toList := by
    simpa using congrArg String.toList htext
  obtain ⟨hfront, -, hback⟩ := (List.append_cons_inj_of_notMem hat
    (at_not_mem (safeComponent_isComponent hrevision))).mp hlist
  exact ⟨String.toList_injective hfront, String.toList_injective hback⟩

/-- For all texts, `snapshot_path` raises `VaultError` or returns the path three proper
components below `models`, and no two accepted pairs share a directory or a lock. -/
theorem snapshots_isolated (sha : Sha256) (modelId revision : String) :
    ((∃ e, snapshotPath modelId revision = .error e ∧ isVaultError e = true) ∨
      ∃ organization name, snapshotPath modelId revision =
          .ok ["models", organization, name, revision] ∧
        Proper organization ∧ Proper name ∧ Proper revision ∧
        modelId = organization ++ "/" ++ name ∧
        locate (locate (locate (locate [] "models") organization) name) revision =
          ["models", organization, name, revision]) ∧
    ∀ modelId' revision' target target',
      snapshotPath modelId revision = .ok target →
      snapshotPath modelId' revision' = .ok target' →
      (modelId, revision) ≠ (modelId', revision') →
      sha.NoCollision {message | message ∈ [encode (modelId ++ "@" ++ revision),
        encode (modelId' ++ "@" ++ revision')]} →
      target ≠ target' ∧ ¬ target <+: target' ∧ ¬ target' <+: target ∧
        lockPath sha modelId revision ≠ lockPath sha modelId' revision' := by
  constructor
  · rcases snapshotPath_total modelId revision with
      herror | ⟨organization, name, hok, horganization, hname, hrevision, hmodel⟩
    · exact Or.inl herror
    · obtain ⟨-, ho⟩ := safeComponent_ok horganization
      obtain ⟨-, hn⟩ := safeComponent_ok hname
      obtain ⟨-, hr⟩ := safeComponent_ok hrevision
      refine Or.inr ⟨organization, name, hok, ho, hn, hr, ?_, ?_⟩
      · exact String.toList_injective (by simp [hmodel])
      · rw [locate_name [] "models" (by decide) (by decide) (by decide) (by decide),
          locate_name _ organization ho.2.2.2 ho.1 ho.2.1 ho.2.2.1,
          locate_name _ name hn.2.2.2 hn.1 hn.2.1 hn.2.2.1,
          locate_name _ revision hr.2.2.2 hr.1 hr.2.1 hr.2.2.1]
        rfl
  · intro modelId' revision' target target' h h' hne hcollision
    have hpaths : target ≠ target' := by
      rintro rfl
      obtain ⟨rfl, rfl⟩ := snapshotPath_injective h h'
      exact hne rfl
    have hlength := (snapshotPath_length h).trans (snapshotPath_length h').symm
    refine ⟨hpaths, fun hle => hpaths (hle.eq_of_length hlength),
      fun hle => hpaths (hle.eq_of_length hlength.symm).symm, fun hlock => hne ?_⟩
    have hkeys : slotKey sha modelId revision = slotKey sha modelId' revision' := by
      have hnames := (List.cons.inj (List.cons.inj hlock).2).1
      have hlists := congrArg String.toList hnames
      simp only [String.toList_append] at hlists
      exact String.toList_injective (List.append_cancel_right hlists)
    have htext := encode_injective (hcollision.eq_of_hexdigest (by simp) (by simp) hkeys)
    obtain ⟨rfl, rfl⟩ := at_injective h htext
    rfl

/-- Two revisions whose names begin alike. -/
theorem snapshots_isolated_sample :
    (["models", "o", "n", "r"] : Path) ≠ ["models", "o", "n", "r.1"] ∧
      ¬ (["models", "o", "n", "r"] : Path) <+: ["models", "o", "n", "r.1"] ∧
      ¬ (["models", "o", "n", "r.1"] : Path) <+: ["models", "o", "n", "r"] ∧
      lockPath Sha256.sample "o/n" "r" ≠ lockPath Sha256.sample "o/n" "r.1" :=
  (snapshots_isolated Sha256.sample "o/n" "r").2 "o/n" "r.1" _ _ (by decide) (by decide)
    (by decide) (Sha256.noCollision_of_list _ _ (by decide))

end Decillion.SnapshotPaths
