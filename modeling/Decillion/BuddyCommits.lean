import Decillion.BuddyRaces

/-!
What is behind an answer of the proof service. Whoever writes, the certificates that have been
committed are never taken back. A submission that is answered with a bundle has been committed by
then, and its claim had no certificate in the version when it began; the rows of the table are
those of submissions that workers were given and that have passed the gates.
-/
namespace Decillion.BuddyCommits

open BuddyBundles BuddyDatabase BuddyGates BuddyProofs BuddyRaces BuddyRecords ByteText
  Interleavings JsonStrings JsonText JsonValues Primitives Programs PyCollections PyErrors PyValues

variable {ι F α : Type}

section Statements

variable [DecidableEq ι] {s : DbHost ι} {db : Connection ι} {view : Database}

/-- The rows that have been committed or entered by the transaction in progress. -/
def DbHost.rows (s : DbHost ι) : Set IssuedRow :=
  {row | row ∈ s.committed.issued ∨ ∃ db view, s.writer = some (db, view) ∧ row ∈ view.issued}

theorem rows_of_view {row : IssuedRow} (hview : s.writable db = some view)
    (h : row ∈ view.issued) : row ∈ DbHost.rows s := by
  rcases writable_some hview with ⟨-, rfl⟩ | hwriter
  · exact Or.inl h
  · exact Or.inr ⟨db, view, hwriter, h⟩

omit [DecidableEq ι] in
theorem rows_write {row : IssuedRow} (h : row ∈ DbHost.rows (s.write db view)) :
    row ∈ s.committed.issued ∨ row ∈ view.issued := by
  rcases h with h | ⟨other, found, hwriter, h⟩
  · exact Or.inl h
  · obtain ⟨-, rfl⟩ := Prod.mk.inj (Option.some.inj hwriter)
    exact Or.inr h

theorem rows_release {row : IssuedRow} (db : Connection ι) (h : row ∈ DbHost.rows (s.release db)) :
    row ∈ DbHost.rows s := by
  rcases release_cases s db with hnext | ⟨view, -, hreleased⟩
  · rwa [hnext] at h
  · rw [hreleased] at h
    rcases h with h | ⟨_, _, hwriter, -⟩
    · exact Or.inl h
    · cases hwriter

theorem rows_commit {row : IssuedRow} (db : Connection ι) (h : row ∈ DbHost.rows (s.commit db)) :
    row ∈ DbHost.rows s := by
  rcases commit_cases s db with hnext | ⟨view, hwriter, hcommitted⟩
  · rwa [hnext] at h
  · rw [hcommitted] at h
    rcases h with h | ⟨_, _, hnone, -⟩
    · exact Or.inr ⟨db, view, hwriter, h⟩
    · cases hnone

/-- A row is entered by its insertion only. -/
theorem rows_handle {i : ι} {fault : ℕ → Bool} {op : SqlOp ι} {row : IssuedRow}
    (h : row ∈ DbHost.rows (handle i fault s op).2) :
    row ∈ DbHost.rows s ∨ ∃ db, op = .insertIssued db row := by
  cases op with
  | connect => exact Or.inl h
  | selectDigest db => exact Or.inl h
  | insertIssued db inserted =>
    rw [handle] at h
    split at h
    · exact Or.inl h
    · split at h
      · exact Or.inl h
      · rename_i view hview
        split at h
        · exact Or.inl ((rows_write h).elim Or.inl (rows_of_view hview))
        · rename_i after hafter
          obtain ⟨-, rfl⟩ := insertIssued_some hafter
          rcases rows_write h with hrow | hrow
          · exact Or.inl (Or.inl hrow)
          · rcases List.mem_append.mp hrow with hrow | hrow
            · exact Or.inl (rows_of_view hview hrow)
            · exact Or.inr ⟨db, by rw [List.mem_singleton.mp hrow]⟩
  | insertEvent db inserted =>
    rw [handle] at h
    split at h
    · exact Or.inl h
    · split at h
      · exact Or.inl h
      · rename_i view hview
        have hold : row ∈ view.issued → row ∈ DbHost.rows s := rows_of_view hview
        exact Or.inl ((rows_write h).elim Or.inl hold)
  | commit db =>
    rw [handle] at h
    split at h
    · exact Or.inl h
    · exact Or.inl (rows_commit db h)
  | rollback db =>
    rw [handle] at h
    split at h
    · exact Or.inl h
    · exact Or.inl (rows_release db h)
  | close db => exact Or.inl (rows_release db h)

end Statements

variable [FloatText F] [FloatNumber F]

section Insertions

variable {service : Service F} {request : Request F}

/-- A request enters its own row and no other one. -/
def EntersOwn (service : Service F) (request : Request F) : SqlOp ι → Prop
  | .insertIssued _ row => ∃ bundle, Entry service request bundle row
  | _ => True

theorem only_raising {ok : SqlOp ι → Prop} (x : Submit ι (Except SqlError α)) (h : Only ok x) :
    Only ok (raising x) := by
  apply only_then x _ h
  intro result
  cases result with
  | ok a => trivial
  | error e => trivial

theorem only_raise {ok : SqlOp ι → Prop} {β : Type} (result : Except BuddyError α)
    (f : α → Submit ι β) (h : ∀ a, result = .ok a → Only ok (f a)) :
    Only ok (raiseBuddy result >>= f : Submit ι β) := by
  cases result with
  | ok a => exact h a rfl
  | error e => trivial

theorem only_record {data : Submission F} {cert : Members F} {ok : SqlOp ι → Prop}
    (db : Connection ι) (hrow : ∀ row, issuedRow service data cert = .ok row →
      ok (.insertIssued db row)) (hselect : ok (.selectDigest db))
    (hevent : ∀ row, ok (.insertEvent db row)) :
    Only ok (record service db data cert) := by
  apply only_raise
  intro row h
  apply only_then _ _ (only_raising _ (only_perform (hrow row (python_ok h))))
  intro _
  apply only_then
  · apply only_then _ _ (only_raising _ (only_perform hselect))
    intro head
    apply only_raise
    intro event _
    exact only_then _ _ (only_raising _ (only_perform (hevent event))) (fun _ => trivial)
  · exact fun _ => trivial

theorem only_withDatabase {ok : SqlOp ι → Prop} (db : Connection ι) (body : Submit ι Unit)
    (h : Only ok body) (hcommit : ok (.commit db)) (hrollback : ok (.rollback db)) :
    Only ok (withDatabase db body) := by
  apply only_bind _ _ h
  intro result
  cases result with
  | ok a =>
    refine ⟨hcommit, fun answer => ?_⟩
    cases answer with
    | ok a => trivial
    | error e => exact ⟨hrollback, fun _ => trivial⟩
  | error e => exact only_then _ _ (only_raising _ (only_perform hrollback)) (fun _ => trivial)

theorem only_handleRequest (request : Request F) :
    Only (EntersOwn (ι := ι) service request) (handleRequest service request) := by
  apply only_raise
  intro _ hgates
  dsimp only
  split
  · trivial
  · rename_i secret hsigner
    apply only_then
    · exact ⟨trivial, fun answer => by cases answer <;> trivial⟩
    · intro db
      apply only_bind
      · apply only_raise
        intro cert hcert
        apply only_then
        · apply only_bind
          · apply only_withDatabase db _ _ trivial trivial
            refine only_record db (fun row hrow => ?_) trivial (fun _ => trivial)
            exact ⟨⟨_, _, cert⟩, hgates, ⟨secret, hsigner, python_ok hcert⟩, rfl, rfl, hrow⟩
          · exact fun _ => trivial
        · exact fun _ => trivial
      · intro result
        exact ⟨trivial, fun _ => trivial⟩

end Insertions

section Runs

variable [DecidableEq ι] (service : Service F) (fault : ι → ℕ → Bool)
  (choose : ι → List (Finished (Request F) (Except SubmitError (Bundle F)) (DbHost ι)) →
    Option (Request F))

/-- The row is that of a request that a worker was given. -/
def Provided (row : IssuedRow) : Prop :=
  ∃ i finished request bundle, choose i finished = some request ∧
    Entry service request bundle row

/-- What every step of the workers keeps. -/
structure Standing (y : Workers ι F) : Prop where
  invariant : Invariant service fault choose y
  own : AllOnly (fun _ => EntersOwn service) y
  provided : ∀ row ∈ DbHost.rows y.shared, Provided service choose row

variable {service fault choose}

theorem standing_start : Standing service fault choose (System.start emptyHost) where
  invariant := invariant_start
  own := allOnly_start _
  provided row hrow := by
    rcases hrow with hrow | ⟨_, _, hwriter, -⟩
    · cases hrow
    · cases hwriter

theorem standing_step (y : Workers ι F) (i : ι) (hy : Standing service fault choose y) :
    Standing service fault choose
      (step (fun i => handle i (fault i)) (handleRequest service) choose i y) := by
  refine ⟨invariant_step y i hy.invariant, ?_, ?_⟩
  · exact allOnly_step (fun _ _ call _ => only_handleRequest call) i y hy.own
  · apply shared_step (fun _ _ => inferInstance) y i
      (fun s => ∀ row ∈ DbHost.rows s, Provided service choose row) hy.invariant.sound hy.provided
    intro call began op next hrunning _ row hrow
    rcases rows_handle hrow with hold | ⟨db, rfl⟩
    · exact hy.provided row hold
    · obtain ⟨bundle, hentry⟩ := (hy.own i _ hrunning).1
      exact ⟨i, _, call, bundle, (hy.invariant.sound i).chosen _ hrunning, hentry⟩

theorem standing_of_steps (y : Workers ι F) (schedule : List ι)
    (hy : Standing service fault choose y) :
    Standing service fault choose (runWorkers service fault choose y schedule) := by
  induction schedule generalizing y with
  | nil => exact hy
  | cons i rest ih => exact ih _ (standing_step y i hy)

theorem standing_run (schedule : List ι) : Standing service fault choose
    (runWorkers service fault choose (System.start emptyHost) schedule) :=
  standing_of_steps _ schedule standing_start

end Runs

end Decillion.BuddyCommits
