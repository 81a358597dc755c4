import Decillion.BuddyCommits

/-!
Workers of the proof service that are killed. A transaction whose process is gone is rolled back:
what it had written is lost, the others may write again, and what had been committed stays. What
every statement keeps is therefore kept when workers are killed in the middle of their requests.
-/
namespace Decillion.BuddyKills

open BuddyBundles BuddyCommits BuddyDatabase BuddyGates BuddyProofs BuddyRaces BuddyRecords
  ByteText Interleavings JsonStrings JsonText JsonValues Primitives Programs PyCollections PyErrors
  PyValues

variable {ι F : Type} [DecidableEq ι]

section Hosts

/-- The transaction of a process that is gone is rolled back. -/
def DbHost.abandon (i : ι) (s : DbHost ι) : DbHost ι :=
  match s.writer with
  | some (holder, _) => if holder.1 = i then s.release holder else s.next
  | none => s.next

variable {s : DbHost ι}

/-- Nothing happens, or the transaction of the process is released. -/
theorem abandon_cases (i : ι) (s : DbHost ι) : DbHost.abandon i s = s.next ∨
    ∃ db view, db.1 = i ∧ s.writer = some (db, view) ∧
      DbHost.abandon i s = ⟨s.committed, none, s.tick + 1⟩ := by
  unfold DbHost.abandon
  split
  · rename_i holder view hwriter
    split
    · rename_i hholder
      rcases release_cases s holder with hnext | ⟨found, hfound, hreleased⟩
      · exact Or.inl hnext
      · exact Or.inr ⟨holder, found, hholder, hwriter ▸ hfound, hreleased⟩
    · exact Or.inl rfl
  · exact Or.inl rfl

theorem abandon_committed (i : ι) (s : DbHost ι) :
    (DbHost.abandon i s).committed = s.committed := by
  rcases abandon_cases i s with hnext | ⟨db, view, -, -, hreleased⟩
  · rw [hnext]
    rfl
  · rw [hreleased]

/-- The transactions of the others go on. -/
theorem grown_abandon {i j : ι} (hj : j ≠ i) (s : DbHost ι) : Grown j s (DbHost.abandon i s) := by
  refine ⟨?_, (abandon_committed i s).symm ▸ List.prefix_rfl⟩
  rcases abandon_cases i s with hnext | ⟨db, view, hdb, hwriter, hreleased⟩
  · rw [hnext]
    exact ⟨Nat.le_succ _, fun _ _ => Iff.rfl⟩
  · rw [hreleased, Untouched, hwriter]
    refine ⟨Nat.le_succ _, fun n found => iff_of_false (fun hother => ?_) (fun hother => ?_)⟩
    · cases hother
    · obtain ⟨rfl, -⟩ := Prod.mk.inj (Option.some.inj hother)
      exact hj hdb

theorem extends_abandon (i : ι) (h : Extends s) : Extends (DbHost.abandon i s) := by
  rcases abandon_cases i s with hnext | ⟨db, view, -, -, hreleased⟩
  · rw [hnext]
    exact h
  · rw [hreleased]
    exact fun _ _ hother => nomatch hother

theorem rows_abandon {i : ι} {row : IssuedRow} (h : row ∈ DbHost.rows (DbHost.abandon i s)) :
    row ∈ DbHost.rows s := by
  rcases abandon_cases i s with hnext | ⟨db, view, -, -, hreleased⟩
  · rwa [hnext] at h
  · rw [hreleased] at h
    rcases h with h | ⟨_, _, hwriter, -⟩
    · exact Or.inl h
    · cases hwriter

variable [FloatText F] [FloatNumber F] {service : Service F}

theorem inv_abandon (i : ι) (h : Inv service s) : Inv service (DbHost.abandon i s) := by
  refine ⟨(abandon_committed i s).symm ▸ h.reached, ?_⟩
  rcases abandon_cases i s with hnext | ⟨db, view, -, -, hreleased⟩
  · rw [hnext]
    exact fun other found hother => Nat.lt_succ_of_lt (h.opened other found hother)
  · rw [hreleased]
    exact fun _ _ hother => nomatch hother

end Hosts

section Runs

variable [FloatText F] [FloatNumber F] (service : Service F) (fault : ι → ℕ → Bool)
  (choose : ι → List (Finished (Request F) (Except SubmitError (Bundle F)) (DbHost ι)) →
    Option (Request F))

/-- A run in which workers may be killed, and may take up requests again. -/
def runKilled (y : Workers ι F) (events : List (Event ι)) : Workers ι F :=
  runEvents (fun i => handle i (fault i)) (handleRequest service) choose DbHost.abandon y events

variable {service fault choose}

theorem standing_kill (y : Workers ι F) (i : ι) (hy : Standing service fault choose y) :
    Standing service fault choose (y.kill DbHost.abandon i) := by
  have hcommitted : y.shared.committed.issued <+: (DbHost.abandon i y.shared).committed.issued :=
    (abandon_committed i y.shared).symm ▸ List.prefix_rfl
  refine ⟨⟨?_, inv_abandon i hy.invariant.reached, extends_abandon i hy.invariant.extending⟩,
    allOnly_kill i y hy.own, fun row hrow => hy.provided row (rows_abandon hrow)⟩
  apply allSound_kill (fun _ _ => inferInstance) y i hy.invariant.sound
  · exact fun j hj _ _ => grown_abandon hj y.shared
  · exact fun j f hf => answered_grown ((hy.invariant.sound j).finished f hf) hcommitted

theorem standing_killed (events : List (Event ι)) : Standing service fault choose
    (runKilled service fault choose (System.start emptyHost) events) :=
  runEvents_invariant standing_step standing_kill _ events standing_start

end Runs

end Decillion.BuddyKills
