import Decillion.BuddyDatabase
import Decillion.BuddyRecords
import Decillion.Interleavings

/-!
Workers that handle submissions on one database at the same time. A transaction begins with the
insertion of the certificate, and no other worker writes until it ends, so the last event that it
reads is the one its own event follows. Whatever the order of the statements and whichever of
them fail, what is committed is what submissions one after another make of the empty database, and
no certificate is taken back.
-/
namespace Decillion.BuddyRaces

open BuddyDatabase BuddyGates BuddyProofs BuddyRecords ByteText Interleavings JsonStrings JsonText
  JsonValues Primitives Programs PyCollections PyErrors PyValues

variable {ι F α : Type}

section Statements

/-- The connection of a worker that may begin a transaction. -/
def Opened (i : ι) (s : DbHost ι) (db : Connection ι) : Prop := db.1 = i ∧ db.2 < s.tick

/-- The transactions of a worker are what they were. -/
def Untouched (i : ι) (s s' : DbHost ι) : Prop :=
  s.tick ≤ s'.tick ∧ ∀ n view, s'.writer = some ((i, n), view) ↔ s.writer = some ((i, n), view)

instance (i : ι) : IsPreorder (DbHost ι) (Untouched i) where
  refl _ := ⟨le_rfl, fun _ _ => Iff.rfl⟩
  trans _ _ _ h h' := ⟨h.1.trans h'.1, fun n view => (h'.2 n view).trans (h.2 n view)⟩

/-- The transaction in progress has the certificates that have been committed. -/
def Extends (s : DbHost ι) : Prop :=
  ∀ db view, s.writer = some (db, view) → s.committed.issued <+: view.issued

/-- The transactions of a worker are what they were, and what was committed still is. -/
def Grown (i : ι) (s s' : DbHost ι) : Prop :=
  Untouched i s s' ∧ s.committed.issued <+: s'.committed.issued

instance (i : ι) : IsPreorder (DbHost ι) (Grown i) where
  refl s := ⟨refl_of (Untouched i) s, List.prefix_rfl⟩
  trans _ _ _ h h' := ⟨trans_of (Untouched i) h.1 h'.1, h.2.trans h'.2⟩

/-- The statement inserts a row. -/
def Inserts (db : Connection ι) : SqlOp ι → Prop
  | .insertIssued other _ | .insertEvent other _ => other = db
  | _ => False

/-- The statement ends the transaction of its connection. -/
def Ends (db : Connection ι) : SqlOp ι → Prop
  | .commit other | .rollback other | .close other => other = db
  | _ => False

variable [DecidableEq ι]

theorem writable_some {s : DbHost ι} {db : Connection ι} {view : Database}
    (h : s.writable db = some view) :
    (s.writer = none ∧ view = s.committed) ∨ s.writer = some (db, view) := by
  unfold DbHost.writable at h
  split at h
  · rename_i holder found hwriter
    split at h
    · rename_i hholder
      rw [hwriter, hholder, Option.some.inj h]
      exact Or.inr rfl
    · cases h
  · rename_i hwriter
    exact Or.inl ⟨hwriter, (Option.some.inj h).symm⟩

theorem release_cases (s : DbHost ι) (db : Connection ι) : s.release db = s.next ∨
    ∃ view, s.writer = some (db, view) ∧ s.release db = ⟨s.committed, none, s.tick + 1⟩ := by
  unfold DbHost.release
  split
  · rename_i holder view hwriter
    split
    · rename_i hholder
      rw [hwriter, hholder]
      exact Or.inr ⟨view, rfl, rfl⟩
    · exact Or.inl rfl
  · exact Or.inl rfl

theorem commit_cases (s : DbHost ι) (db : Connection ι) : s.commit db = s.next ∨
    ∃ view, s.writer = some (db, view) ∧ s.commit db = ⟨view, none, s.tick + 1⟩ := by
  unfold DbHost.commit
  split
  · rename_i holder view hwriter
    split
    · rename_i hholder
      rw [hwriter, hholder]
      exact Or.inr ⟨view, rfl, rfl⟩
    · exact Or.inl rfl
  · exact Or.inl rfl

/-- What a statement can do: nothing, write in the transaction of its connection, which it begins
when nobody is writing, or end it, and only a commit makes something of it stay. -/
theorem handle_cases (i : ι) (fault : ℕ → Bool) (s : DbHost ι) (op : SqlOp ι) :
    (handle i fault s op).2 = s.next ∨
    (∃ db view, Inserts db op ∧ (s.writer = none ∨ ∃ old, s.writer = some (db, old)) ∧
      (handle i fault s op).2 = s.write db view) ∨
    ∃ db view, Ends db op ∧ s.writer = some (db, view) ∧
      ((handle i fault s op).2 = ⟨s.committed, none, s.tick + 1⟩ ∨
        op = .commit db ∧ (handle i fault s op).2 = ⟨view, none, s.tick + 1⟩) := by
  have hwritable : ∀ {db : Connection ι} {view : Database}, s.writable db = some view →
      s.writer = none ∨ ∃ old, s.writer = some (db, old) := by
    intro db view h
    rcases writable_some h with ⟨hnone, -⟩ | hsome
    · exact Or.inl hnone
    · exact Or.inr ⟨view, hsome⟩
  cases op with
  | connect => exact Or.inl rfl
  | selectDigest db => exact Or.inl rfl
  | insertIssued db row =>
    rw [handle]
    split
    · exact Or.inl rfl
    · split
      · exact Or.inl rfl
      · rename_i view hview
        split
        · exact Or.inr (Or.inl ⟨db, _, rfl, hwritable hview, rfl⟩)
        · exact Or.inr (Or.inl ⟨db, _, rfl, hwritable hview, rfl⟩)
  | insertEvent db row =>
    rw [handle]
    split
    · exact Or.inl rfl
    · split
      · exact Or.inl rfl
      · rename_i view hview
        exact Or.inr (Or.inl ⟨db, _, rfl, hwritable hview, rfl⟩)
  | commit db =>
    rw [handle]
    split
    · exact Or.inl rfl
    · rcases commit_cases s db with hnext | ⟨view, hwriter, hdone⟩
      · exact Or.inl hnext
      · exact Or.inr (Or.inr ⟨db, view, rfl, hwriter, Or.inr ⟨rfl, hdone⟩⟩)
  | rollback db =>
    rw [handle]
    split
    · exact Or.inl rfl
    · rcases release_cases s db with hnext | ⟨view, hwriter, hdone⟩
      · exact Or.inl hnext
      · exact Or.inr (Or.inr ⟨db, view, rfl, hwriter, Or.inl hdone⟩)
  | close db =>
    rcases release_cases s db with hnext | ⟨view, hwriter, hdone⟩
    · exact Or.inl hnext
    · exact Or.inr (Or.inr ⟨db, view, rfl, hwriter, Or.inl hdone⟩)

/-- A statement that fails answers with an error; otherwise the row is in the transaction. -/
theorem handle_insertIssued (i : ι) (fault : ℕ → Bool) (s : DbHost ι) (db : Connection ι)
    (row : IssuedRow) : (∃ e s', handle i fault s (.insertIssued db row) = (.error e, s')) ∨
      ∃ view inserted, s.writable db = some view ∧ insertIssued view row = some inserted ∧
        handle i fault s (.insertIssued db row) = (.ok (), s.write db inserted) := by
  rw [handle]
  split
  · exact Or.inl ⟨_, _, rfl⟩
  · split
    · exact Or.inl ⟨_, _, rfl⟩
    · rename_i view hview
      split
      · exact Or.inl ⟨_, _, rfl⟩
      · rename_i inserted hinserted
        exact Or.inr ⟨view, inserted, hview, hinserted, rfl⟩

theorem handle_selectDigest (i : ι) (fault : ℕ → Bool) (s : DbHost ι) (db : Connection ι) :
    (∃ e s', handle i fault s (.selectDigest db) = (.error e, s')) ∨
      handle i fault s (.selectDigest db) =
        (.ok ((s.seen db).events.getLast?.map EventRow.digest), s.next) := by
  by_cases hfault : fault s.tick = true
  · exact Or.inl ⟨.operationalError, s.next, Prod.ext (if_pos hfault) rfl⟩
  · exact Or.inr (Prod.ext (if_neg hfault) rfl)

theorem handle_insertEvent (i : ι) (fault : ℕ → Bool) (s : DbHost ι) (db : Connection ι)
    (row : EventRow) : (∃ e s', handle i fault s (.insertEvent db row) = (.error e, s')) ∨
      ∃ view, s.writable db = some view ∧ handle i fault s (.insertEvent db row) =
        (.ok (), s.write db { view with events := view.events ++ [row] }) := by
  rw [handle]
  split
  · exact Or.inl ⟨_, _, rfl⟩
  · split
    · exact Or.inl ⟨_, _, rfl⟩
    · rename_i view hview
      exact Or.inr ⟨view, hview, rfl⟩

section Certificates

variable {s : DbHost ι} {db : Connection ι} {view : Database}

theorem extends_writable (h : Extends s) (hview : s.writable db = some view) :
    s.committed.issued <+: view.issued := by
  rcases writable_some hview with ⟨-, rfl⟩ | hwriter
  · exact List.prefix_rfl
  · exact h db view hwriter

omit [DecidableEq ι] in
theorem extends_write (h : s.committed.issued <+: view.issued) : Extends (s.write db view) := by
  intro other found hother
  obtain ⟨-, rfl⟩ := Prod.mk.inj (Option.some.inj hother)
  exact h

theorem release_committed (s : DbHost ι) (db : Connection ι) :
    (s.release db).committed = s.committed := by
  rcases release_cases s db with hnext | ⟨view, -, hreleased⟩
  · rw [hnext]
    rfl
  · rw [hreleased]

theorem extends_release (h : Extends s) (db : Connection ι) :
    Extends (s.release db) ∧ s.committed.issued <+: (s.release db).committed.issued := by
  refine ⟨?_, (release_committed s db).symm ▸ List.prefix_rfl⟩
  rcases release_cases s db with hnext | ⟨view, -, hreleased⟩
  · rw [hnext]
    exact h
  · rw [hreleased]
    exact fun _ _ hother => nomatch hother

theorem extends_commit (h : Extends s) (db : Connection ι) :
    Extends (s.commit db) ∧ s.committed.issued <+: (s.commit db).committed.issued := by
  rcases commit_cases s db with hnext | ⟨view, hwriter, hcommitted⟩
  · rw [hnext]
    exact ⟨h, List.prefix_rfl⟩
  · rw [hcommitted]
    exact ⟨fun _ _ hother => (nomatch hother), h db view hwriter⟩

/-- No statement takes back a certificate that has been committed. -/
theorem extends_handle (i : ι) (fault : ℕ → Bool) (h : Extends s) (op : SqlOp ι) :
    Extends (handle i fault s op).2 ∧
      s.committed.issued <+: (handle i fault s op).2.committed.issued := by
  have hnext : Extends s.next ∧ s.committed.issued <+: s.next.committed.issued :=
    ⟨h, List.prefix_rfl⟩
  have hwrite : ∀ {db : Connection ι} {view : Database}, s.committed.issued <+: view.issued →
      Extends (s.write db view) ∧
        s.committed.issued <+: (s.write db view).committed.issued :=
    fun hview => ⟨extends_write hview, List.prefix_rfl⟩
  cases op with
  | connect => exact hnext
  | selectDigest db => exact hnext
  | insertIssued db row =>
    rw [handle]
    split
    · exact hnext
    · split
      · exact hnext
      · rename_i view hview
        have hextends := extends_writable h hview
        split
        · exact hwrite hextends
        · rename_i inserted hinserted
          obtain ⟨-, rfl⟩ := insertIssued_some hinserted
          exact hwrite (hextends.trans (List.prefix_append _ _))
  | insertEvent db row =>
    rw [handle]
    split
    · exact hnext
    · split
      · exact hnext
      · rename_i view hview
        have hextends := extends_writable h hview
        exact hwrite hextends
  | commit db =>
    rw [handle]
    split
    · exact hnext
    · exact extends_commit h db
  | rollback db =>
    rw [handle]
    split
    · exact hnext
    · exact extends_release h db
  | close db => exact extends_release h db

end Certificates

end Statements

variable [FloatText F] [FloatNumber F]

/-- The settings of the service that a request finds, and what it submits. -/
structure Request (F : Type) where
  keysJson : Option String
  signer : Option Bytes
  data : Submission F

def handleRequest (service : Service F) (request : Request F) : Submit ι (Bundle F) :=
  submitSteps { service with keysJson := request.keysJson, signer := request.signer } request.data

section Entries

/-- A request that passes the gates, its answer and the row that it enters. -/
structure Entry (service : Service F) (request : Request F) (bundle : Bundle F)
    (row : IssuedRow) : Prop where
  gates : gates service.ed request.keysJson request.data = .ok ()
  certificate : ∃ secret, request.signer = some secret ∧
    certificate service secret request.data = .ok bundle.certification
  contract : bundle.contract = request.data.contract
  attempt : bundle.attempt = request.data.attempt
  row : issuedRow service request.data bundle.certification = .ok row

/-- The answer is a bundle whose certificate has been committed since the request began. -/
def Answered (service : Service F) (request : Request F) (began : DbHost ι)
    (result : Except SubmitError (Bundle F)) (s : DbHost ι) : Prop :=
  ∀ bundle, result = .ok bundle → ∃ row, Entry service request bundle row ∧
    row ∈ s.committed.issued ∧ rowKey row ∉ began.committed.issued.map rowKey

variable {service : Service F} {request : Request F} {s s' began : DbHost ι}

theorem answered_error (e : SubmitError) : Answered service request began (.error e) s :=
  fun _ h => nomatch h

theorem answered_grown {result : Except SubmitError (Bundle F)}
    (h : Answered service request began result s)
    (hgrown : s.committed.issued <+: s'.committed.issued) :
    Answered service request began result s' := by
  intro bundle hresult
  obtain ⟨row, hentry, hrow, hfresh⟩ := h bundle hresult
  exact ⟨row, hentry, hgrown.subset hrow, hfresh⟩

theorem transaction_cases {data : Submission F} {cert : Members F} {before after : Database}
    (h : transaction service data cert before = .ok after) :
    ∃ row, issuedRow service data cert = .ok row ∧ rowKey row ∉ before.issued.map rowKey ∧
      row ∈ after.issued := by
  obtain ⟨row, hrow, h⟩ := bind_eq_ok h
  split at h
  · cases h
  · rename_i inserted hinserted
    obtain ⟨event, -, h⟩ := bind_eq_ok h
    obtain rfl := Except.ok.inj h
    obtain ⟨hfree, rfl⟩ := insertIssued_some hinserted
    exact ⟨row, python_ok hrow, hfree, List.mem_append_right _ (List.mem_singleton.mpr rfl)⟩

end Entries

section Permitted

/-- A worker uses its own connections, and commits what submissions one after another make. -/
def May (service : Service F) (i : ι) (s : DbHost ι) : SqlOp ι → Prop
  | .connect | .selectDigest _ => True
  | .insertIssued db _ | .insertEvent db _ => Opened i s db
  | .commit db => db.1 = i ∧ ∀ view, s.writer = some (db, view) → Reached service view
  | .rollback db | .close db => db.1 = i

/-- What is committed is made by submissions, and the transaction in progress is on a connection
that has been opened. -/
structure Inv (service : Service F) (s : DbHost ι) : Prop where
  reached : Reached service s.committed
  opened : ∀ db view, s.writer = some (db, view) → db.2 < s.tick

variable {service : Service F} {i : ι} {s : DbHost ι} {op : SqlOp ι}

theorem opened_of_inserts {db : Connection ι} (h : Inserts db op) (hmay : May service i s op) :
    Opened i s db := by
  cases op with
  | insertIssued other row => exact h ▸ hmay
  | insertEvent other row => exact h ▸ hmay
  | _ => cases h

theorem own_of_ends {db : Connection ι} (h : Ends db op) (hmay : May service i s op) :
    db.1 = i := by
  cases op with
  | commit other => exact h ▸ hmay.1
  | rollback other => exact h ▸ hmay
  | close other => exact h ▸ hmay
  | _ => cases h

variable [DecidableEq ι]

theorem inv_of_may (fault : ℕ → Bool) (h : Inv service s) (hmay : May service i s op) :
    Inv service (handle i fault s op).2 := by
  rcases handle_cases i fault s op with hnext | ⟨db, view, hinserts, -, hwrite⟩ |
    ⟨db, view, -, hwriter, hrolled | ⟨rfl, hcommitted⟩⟩
  · rw [hnext]
    exact ⟨h.reached, fun db view hdb => Nat.lt_succ_of_lt (h.opened db view hdb)⟩
  · rw [hwrite]
    refine ⟨h.reached, fun other found hother => ?_⟩
    obtain ⟨rfl, -⟩ := Prod.mk.inj (Option.some.inj hother)
    exact Nat.lt_succ_of_lt (opened_of_inserts hinserts hmay).2
  · rw [hrolled]
    exact ⟨h.reached, fun db view hdb => nomatch hdb⟩
  · rw [hcommitted]
    exact ⟨hmay.2 view hwriter, fun db view hdb => nomatch hdb⟩

/-- A worker leaves the transactions of the others alone. -/
theorem untouched_of_may (fault : ℕ → Bool) {j : ι} (hj : j ≠ i) (hmay : May service i s op) :
    Untouched j s (handle i fault s op).2 := by
  rcases handle_cases i fault s op with hnext | ⟨db, view, hinserts, hfree, hwrite⟩ |
    ⟨db, view, hends, hwriter, hdone⟩
  · rw [hnext]
    exact ⟨Nat.le_succ _, fun _ _ => Iff.rfl⟩
  · have hown := (opened_of_inserts hinserts hmay).1
    rw [hwrite]
    refine ⟨Nat.le_succ _, fun n found => iff_of_false (fun hother => ?_) (fun hother => ?_)⟩
    · obtain ⟨rfl, -⟩ := Prod.mk.inj (Option.some.inj hother)
      exact hj hown
    · rcases hfree with hnone | ⟨old, hold⟩
      · rw [hnone] at hother
        cases hother
      · rw [hold] at hother
        obtain ⟨rfl, -⟩ := Prod.mk.inj (Option.some.inj hother)
        exact hj hown
  · have hown := own_of_ends hends hmay
    have hreleased : s.tick ≤ (handle i fault s op).2.tick ∧
        (handle i fault s op).2.writer = none := by
      rcases hdone with hdone | ⟨-, hdone⟩
      · rw [hdone]
        exact ⟨Nat.le_succ _, rfl⟩
      · rw [hdone]
        exact ⟨Nat.le_succ _, rfl⟩
    rw [Untouched, hreleased.2, hwriter]
    refine ⟨hreleased.1, fun n found => iff_of_false (fun hother => ?_) (fun hother => ?_)⟩
    · cases hother
    · obtain ⟨rfl, -⟩ := Prod.mk.inj (Option.some.inj hother)
      exact hj hown

end Permitted

section Requests

variable [DecidableEq ι] (service : Service F) {i : ι} {fault : ℕ → Bool} {s : DbHost ι}
  {db : Connection ι}

/-- A program of a worker that does only what it may do, while no certificate is taken back. -/
abbrev SafeWorker (i : ι) (fault : ℕ → Bool) {β : Type} (post : β → DbHost ι → Prop)
    (p : Prog (SqlOp ι) Resp β) (s : DbHost ι) : Prop :=
  Safe (handle i fault) (Grown i) (fun s _ => Inv service s) (May service i) post p s

theorem safe_raising {post : Except SubmitError α → DbHost ι → Prop}
    (x : Submit ι (Except SqlError α)) (s : DbHost ι)
    (h : SafeWorker service i fault (fun result s =>
      ∀ answer, result = .ok answer → ∀ s', Grown i s s' →
        post (answer.mapError SubmitError.sqlite) s') x s)
    (herror : ∀ e s, post (.error e) s) :
    SafeWorker service i fault post (raising x) s := by
  apply safe_then
  apply safe_mono x s h
  intro result s hs
  cases result with
  | error e => exact fun s' _ => herror e s'
  | ok answer =>
    cases answer with
    | ok a => exact fun s' h => hs _ rfl s' h
    | error e => exact fun s' h => hs _ rfl s' h

/-- The connection is open and has written nothing. -/
def Idle (i : ι) (db : Connection ι) (s : DbHost ι) : Prop :=
  Opened i s db ∧ ∀ view, s.writer ≠ some (db, view)

/-- The transaction of the connection is in progress. -/
def Writing (i : ι) (db : Connection ι) (view : Database) (s : DbHost ι) : Prop :=
  Opened i s db ∧ s.writer = some (db, view)

omit [DecidableEq ι] in
theorem idle_untouched {s' : DbHost ι} (h : Idle i db s) (hs : Untouched i s s') :
    Idle i db s' := by
  obtain ⟨⟨rfl, htick⟩, hidle⟩ := h
  exact ⟨⟨rfl, htick.trans_le hs.1⟩, fun view hview => hidle view ((hs.2 db.2 view).mp hview)⟩

omit [DecidableEq ι] in
theorem writing_untouched {view : Database} {s' : DbHost ι} (h : Writing i db view s)
    (hs : Untouched i s s') : Writing i db view s' := by
  obtain ⟨⟨rfl, htick⟩, hwriter⟩ := h
  exact ⟨⟨rfl, htick.trans_le hs.1⟩, (hs.2 db.2 view).mpr hwriter⟩

/-- A transaction begins on all that has been committed. -/
theorem safe_insertRow {post : Except SubmitError Unit → DbHost ι → Prop} {row : IssuedRow}
    (h : Idle i db s)
    (hok : ∀ before inserted s', Reached service before →
      s.committed.issued <+: before.issued → insertIssued before row = some inserted →
        Writing i db inserted s' → post (.ok ()) s')
    (herror : ∀ e s, post (.error e) s) :
    SafeWorker service i fault post (insertRow db row) s := by
  apply safe_then
  intro s₀ h₀
  have hidle := idle_untouched h h₀.1
  refine ⟨hidle.1, fun hinv s₁ h₁ => ?_⟩
  rcases handle_insertIssued i fault s₀ db row with
    ⟨e, s', hfails⟩ | ⟨view, inserted, hview, hinserted, hdone⟩
  · rw [hfails]
    exact fun s₂ _ => herror _ s₂
  · rw [hdone] at h₁ ⊢
    rcases writable_some hview with ⟨-, rfl⟩ | hwriter
    · have hwriting : Writing i db inserted (s₀.write db inserted) :=
        ⟨⟨hidle.1.1, Nat.lt_succ_of_lt hidle.1.2⟩, rfl⟩
      have hwriting₁ := writing_untouched hwriting h₁.1
      exact fun s₂ h₂ => hok _ _ s₂ hinv.reached h₀.2 hinserted (writing_untouched hwriting₁ h₂.1)
    · exact absurd hwriter (hidle.2 view)

/-- The last event that a transaction reads is the last one in it. -/
theorem safe_selectDigest {post : Except SubmitError (Option String) → DbHost ι → Prop}
    {view : Database} (h : Writing i db view s)
    (hok : ∀ s', Writing i db view s' → post (.ok (view.events.getLast?.map EventRow.digest)) s')
    (herror : ∀ e s, post (.error e) s) :
    SafeWorker service i fault post (selectDigest db) s := by
  apply safe_raising service _ _ _ herror
  intro s₀ h₀
  have hwriting := writing_untouched h h₀.1
  refine ⟨trivial, fun _ s₁ h₁ answer hanswer s₂ h₂ => ?_⟩
  have hs := trans_of (Grown i) h₁ h₂
  obtain rfl := Except.ok.inj hanswer
  rcases handle_selectDigest i fault s₀ db with ⟨e, s', hfails⟩ | hdone
  · rw [hfails]
    exact herror _ _
  · have hseen : s₀.seen db = view := by
      rw [DbHost.seen, hwriting.2]
      exact if_pos rfl
    have hnext : Writing i db view s₀.next :=
      ⟨⟨hwriting.1.1, Nat.lt_succ_of_lt hwriting.1.2⟩, hwriting.2⟩
    rw [hdone, hseen] at hs ⊢
    exact hok _ (writing_untouched hnext hs.1)

theorem safe_insertEvent {post : Except SubmitError Unit → DbHost ι → Prop} {row : EventRow}
    {view : Database} (h : Writing i db view s)
    (hok : ∀ s', Writing i db { view with events := view.events ++ [row] } s' → post (.ok ()) s')
    (herror : ∀ e s, post (.error e) s) :
    SafeWorker service i fault post (insertEvent db row) s := by
  apply safe_raising service _ _ _ herror
  intro s₀ h₀
  have hwriting := writing_untouched h h₀.1
  refine ⟨hwriting.1, fun _ s₁ h₁ answer hanswer s₂ h₂ => ?_⟩
  have hs := trans_of (Grown i) h₁ h₂
  obtain rfl := Except.ok.inj hanswer
  rcases handle_insertEvent i fault s₀ db row with ⟨e, s', hfails⟩ | ⟨found, hfound, hdone⟩
  · rw [hfails]
    exact herror _ _
  · have hwritable : s₀.writable db = some view := by
      rw [DbHost.writable, hwriting.2]
      exact if_pos rfl
    obtain rfl := Option.some.inj (hfound.symm.trans hwritable)
    have hwritten : Writing i db { found with events := found.events ++ [row] }
        (s₀.write db { found with events := found.events ++ [row] }) :=
      ⟨⟨hwriting.1.1, Nat.lt_succ_of_lt hwriting.1.2⟩, rfl⟩
    rw [hdone] at hs ⊢
    exact hok _ (writing_untouched hwritten hs.1)

variable {request : Service F} {data : Submission F} {cert : Members F} {secret : Bytes}

theorem safe_raise {β : Type} {post : Except SubmitError β → DbHost ι → Prop}
    (result : Except BuddyError α) (f : α → Submit ι β) (s : DbHost ι)
    (hok : ∀ a, result = .ok a → SafeWorker service i fault post (f a) s)
    (herror : ∀ e s, post (.error e) s) :
    SafeWorker service i fault post (raiseBuddy result >>= f : Submit ι β) s := by
  cases result with
  | ok a => exact hok a rfl
  | error e => exact fun s' _ => herror _ s'

/-- The event that is entered follows the last one of the transaction. -/
theorem safe_event {post : Except SubmitError String → DbHost ι → Prop} {view : Database}
    {kind : String} {payload : Json F} (h : Writing i db view s)
    (hok : ∀ row s', eventRow request.sha kind payload (lastDigest view) = .ok row →
      Writing i db { view with events := view.events ++ [row] } s' → post (.ok row.digest) s')
    (herror : ∀ e s, post (.error e) s) :
    SafeWorker service i fault post (event request.sha db kind payload) s := by
  apply safe_then
  apply safe_selectDigest service h _ (fun e s s' _ => herror e s')
  intro s₁ h₁
  apply safe_raise service _ _ _ _ herror
  intro row hrow
  apply safe_then
  apply safe_insertEvent service h₁ _ (fun e s s' _ => herror e s')
  intro s₂ h₂ s₃ h₃
  exact hok row s₃ (python_ok hrow) (writing_untouched h₂ h₃.1)

/-- The statements of a transaction enter a row that no certificate had been committed for. -/
theorem safe_record {post : Except SubmitError Unit → DbHost ι → Prop} (h : Idle i db s)
    (hok : ∀ before after s', Reached service before → s.committed.issued <+: before.issued →
      transaction request data cert before = .ok after → Writing i db after s' → post (.ok ()) s')
    (herror : ∀ e s, post (.error e) s) :
    SafeWorker service i fault post (record request db data cert) s := by
  apply safe_raise service _ _ _ _ herror
  intro row hrow
  apply safe_then
  apply safe_insertRow service h _ (fun e s s' _ => herror e s')
  intro before inserted s₁ hbefore hgrown hinserted h₁
  apply safe_then
  apply safe_event service h₁ _ (fun e s s' _ => herror e s')
  intro entered s₂ hentered h₂ s₃ h₃
  refine hok before _ s₃ hbefore hgrown ?_ (writing_untouched h₂ h₃.1)
  have hlogged : python (eventRow request.sha "issued" (issuedPayload cert) (lastDigest inserted)) =
      .ok entered := congrArg python hentered
  rw [transaction, hrow, ok_bind, hinserted]
  dsimp only
  rw [hlogged, ok_bind]
  rfl

/-- What has been committed stays. -/
theorem safe_commit {view : Database} (h : Writing i db view s) (hreached : Reached service view) :
    SafeWorker service i fault (fun result s => result = .ok () →
      view.issued <+: s.committed.issued) (commit db) s := by
  intro s₁ h₁
  have hwriting := writing_untouched h h₁.1
  refine ⟨⟨h.1.1, fun found hfound => ?_⟩, fun _ => ?_⟩
  · obtain ⟨-, rfl⟩ := Prod.mk.inj (Option.some.inj (hwriting.2.symm.trans hfound))
    exact hreached
  · by_cases hfault : fault s₁.tick = true
    · have hfails : handle i fault s₁ (.commit db) = (.error .operationalError, s₁.next) :=
        if_pos hfault
      rw [hfails]
      exact fun s₂ h₂ => ⟨h.1.1, fun _ s₃ h₃ hok => nomatch hok⟩
    · have hdone : handle i fault s₁ (.commit db) = (.ok (), s₁.commit db) := if_neg hfault
      have hcommitted : (s₁.commit db).committed = view := by
        rw [DbHost.commit, hwriting.2]
        dsimp only
        rw [if_pos rfl]
      rw [hdone]
      exact fun s₂ h₂ _ => hcommitted ▸ h₂.2

theorem submit_of_transaction {before after : Database}
    (hgates : gates request.ed request.keysJson data = .ok ())
    (hsigner : request.signer = some secret)
    (hcert : certificate request secret data = .ok cert)
    (h : transaction request data cert before = .ok after) :
    submit request data before = .ok (⟨data.contract, data.attempt, cert⟩, after) := by
  have hmade : python (certificate request secret data) = .ok cert := congrArg python hcert
  rw [submit, hgates, ok_bind, issue, hsigner]
  dsimp only
  rw [hmade, ok_bind, h, ok_bind]
  rfl

/-- The transaction is committed when its statements succeed, and rolled back otherwise. -/
theorem safe_withDatabase {enters : Database → Prop} (body : Submit ι Unit) (hdb : db.1 = i)
    (h : SafeWorker service i fault (fun result s => result = .ok () →
      ∃ view, Writing i db view s ∧ Reached service view ∧ enters view) body s) :
    SafeWorker service i fault (fun result s => result = .ok () →
      ∃ view, enters view ∧ view.issued <+: s.committed.issued) (withDatabase db body) s := by
  apply safe_bind
  apply safe_mono body s h
  intro result s₁ h₁
  cases result with
  | ok a =>
    obtain ⟨view, hwriting, hreached, henters⟩ := h₁ rfl
    apply safe_mono _ _ (safe_commit service hwriting hreached)
    exact fun result s₂ hcommitted hok => ⟨view, henters, hcommitted hok⟩
  | error e =>
    refine fun s₂ h₂ => ⟨hdb, fun _ => ?_⟩
    cases (handle i fault s₂ (.rollback db)).1 with
    | ok a => exact fun s₃ h₃ hok => nomatch hok
    | error e => exact fun s₃ h₃ hok => nomatch hok

variable {service}

/-- The service as a request finds it. -/
def found (service : Service F) (request : Request F) : Service F :=
  { service with keysJson := request.keysJson, signer := request.signer }

/-- The database has the row of a certificate, whose claim had none when the request began. -/
def Enters (service : Service F) (request : Request F) (began : DbHost ι) (cert : Members F)
    (view : Database) : Prop :=
  ∃ row, issuedRow service request.data cert = .ok row ∧
    rowKey row ∉ began.committed.issued.map rowKey ∧ row ∈ view.issued

theorem safe_certify {request : Request F} {began : DbHost ι} (h : Idle i db s)
    (hbegan : began.committed.issued <+: s.committed.issued)
    (hgates : gates service.ed request.keysJson request.data = .ok ())
    (hsigner : request.signer = some secret) :
    SafeWorker service i fault (Answered service request began)
      (certify (found service request) secret db request.data) s := by
  apply safe_raise service _ _ _ _ (fun e _ => answered_error e)
  intro cert hcert
  have hcert : certificate service secret request.data = .ok cert := python_ok hcert
  have hbody : SafeWorker service i fault (fun result s => result = .ok () →
      ∃ view, Enters service request began cert view ∧ view.issued <+: s.committed.issued)
      (withDatabase db (record (found service request) db request.data cert)) s := by
    apply safe_withDatabase service _ h.1.1
    apply safe_record service h _ (fun e s herror => nomatch herror)
    intro before after s₁ hbefore hgrown htransaction hwriting _
    obtain ⟨row, hrow, hfree, hentered⟩ := transaction_cases htransaction
    have hfresh : rowKey row ∉ began.committed.issued.map rowKey :=
      fun hmem => hfree (((hbegan.trans hgrown).map rowKey).subset hmem)
    exact ⟨after, hwriting, .submitted request.keysJson request.signer hbefore
      (submit_of_transaction hgates hsigner hcert htransaction), row, hrow, hfresh, hentered⟩
  apply safe_bind
  apply safe_bind
  refine safe_mono _ s hbody ?_
  intro result s₁ h₁ s₂ h₂
  cases result with
  | ok a =>
    intro s₃ h₃ bundle hbundle
    obtain ⟨view, ⟨row, hrow, hfresh, hentered⟩, hgrown⟩ := h₁ rfl
    obtain rfl := Except.ok.inj hbundle
    exact ⟨row, ⟨hgates, ⟨secret, hsigner, hcert⟩, rfl, rfl, hrow⟩,
      (hgrown.trans (h₂.2.trans h₃.2)).subset hentered, hfresh⟩
  | error e => exact fun s₃ _ => answered_error _

theorem safe_connect {post : Except SubmitError (Connection ι) → DbHost ι → Prop} (s : DbHost ι)
    (hok : ∀ db s', Idle i db s' → s.committed.issued <+: s'.committed.issued → post (.ok db) s')
    (herror : ∀ e s, post (.error e) s) :
    SafeWorker service i fault post connect s := by
  intro s₁ h₁
  refine ⟨trivial, fun hinv => ?_⟩
  by_cases hfault : fault s₁.tick = true
  · have hfails : handle i fault s₁ .connect = (.error .operationalError, s₁.next) :=
      Prod.ext (if_pos hfault) rfl
    rw [hfails]
    exact fun s₂ _ => herror _ s₂
  · have hdone : handle i fault s₁ .connect = (.ok (i, s₁.tick), s₁.next) :=
      Prod.ext (if_neg hfault) rfl
    have hidle : Idle i (i, s₁.tick) s₁.next :=
      ⟨⟨rfl, Nat.lt_succ_self _⟩, fun view hview => lt_irrefl _ (hinv.opened _ view hview)⟩
    rw [hdone]
    exact fun s₂ h₂ => hok _ s₂ (idle_untouched hidle h₂.1) (h₁.2.trans h₂.2)

/-- A submission is answered with a bundle only when it has been committed. -/
theorem safe_handleRequest (request : Request F) (s : DbHost ι) :
    SafeWorker service i fault (Answered service request s) (handleRequest service request) s := by
  apply safe_raise service _ _ _ _ (fun e _ => answered_error e)
  intro _ hgates
  dsimp only
  split
  · exact fun _ _ => answered_error _
  · rename_i secret hsigner
    apply safe_then
    apply safe_connect s _ (fun _ _ _ _ => answered_error _)
    intro db s₁ hidle hgrown
    apply safe_tryFinally
    refine safe_mono _ s₁ (safe_certify hidle hgrown hgates hsigner) ?_
    intro result s₂ hanswered s₃ h₃
    refine ⟨hidle.1.1, fun _ s₄ h₄ s₅ h₅ => answered_grown hanswered ?_⟩
    have hreleased := (release_committed s₃ db).symm ▸ h₃.2
    exact hreleased.trans (h₄.2.trans h₅.2)

end Requests

section Runs

variable [DecidableEq ι] (service : Service F) (fault : ι → ℕ → Bool)
  (choose : ι → List (Finished (Request F) (Except SubmitError (Bundle F)) (DbHost ι)) →
    Option (Request F))

/-- Workers of the proof service that share one database. -/
abbrev Workers (ι F : Type) :=
  System ι (SqlOp ι) Resp (Request F) (Except SubmitError (Bundle F)) (DbHost ι)

def runWorkers (y : Workers ι F) (schedule : List ι) : Workers ι F :=
  runAll (fun i => handle i (fault i)) (handleRequest service) choose y schedule

/-- A database into which nothing has been entered. -/
def emptyHost : DbHost ι := ⟨⟨[], []⟩, none, 0⟩

/-- What every step of the workers keeps. -/
structure Invariant (y : Workers ι F) : Prop where
  sound : AllSound (fun i => handle i (fault i)) choose (fun i _ => Grown i)
    (fun _ s _ => Inv service s) (fun i => May service i) (fun _ => Answered service) y
  reached : Inv service y.shared
  extending : Extends y.shared

variable {service fault choose}

theorem invariant_step (y : Workers ι F) (i : ι) (hy : Invariant service fault choose y) :
    Invariant service fault choose
      (step (fun i => handle i (fault i)) (handleRequest service) choose i y) := by
  refine ⟨?_, ?_, ?_⟩
  · apply allSound_step (fun _ _ => inferInstance) y i hy.sound
    · exact fun call _ => safe_handleRequest call y.shared
    · intro call began op next _ hmay
      have hgrown := (extends_handle i (fault i) hy.extending op).2
      refine ⟨hy.reached, ?_, fun j f hf => ?_⟩
      · exact fun j hj _ _ => ⟨untouched_of_may (fault i) hj hmay, hgrown⟩
      · exact answered_grown ((hy.sound j).finished f hf) hgrown
  · apply shared_step (fun _ _ => inferInstance) y i _ hy.sound hy.reached
    exact fun _ _ _ _ _ hmay => inv_of_may (fault i) hy.reached hmay
  · apply shared_step (fun _ _ => inferInstance) y i _ hy.sound hy.extending
    exact fun _ _ op _ _ _ => (extends_handle i (fault i) hy.extending op).1

theorem invariant_run (y : Workers ι F) (schedule : List ι)
    (hy : Invariant service fault choose y) :
    Invariant service fault choose (runWorkers service fault choose y schedule) := by
  induction schedule generalizing y with
  | nil => exact hy
  | cons i rest ih => exact ih _ (invariant_step y i hy)

theorem invariant_start : Invariant service fault choose (System.start emptyHost) where
  sound := allSound_start _ _ _ _ _ _ _
  reached := ⟨.empty, fun _ _ hwriter => nomatch hwriter⟩
  extending _ _ hwriter := nomatch hwriter

/-- What is committed is at every moment what submissions one after another make. -/
theorem reached_run (schedule : List ι) : Reached service
    (runWorkers service fault choose (System.start emptyHost) schedule).shared.committed :=
  (invariant_run _ schedule invariant_start).reached.reached

/-- Whatever the order of the statements and whichever of them fail, the events are one chain, a
claim has one certificate in a version, and events and certificates correspond. -/
theorem workers_consistent (hcolumn : Scalar service.column) (schedule : List ι)
    (hcollision : service.sha.NoCollision (bodies F
      (runWorkers service fault choose (System.start emptyHost) schedule).shared.committed)) :
    Consistent F service.sha
      (runWorkers service fault choose (System.start emptyHost) schedule).shared.committed :=
  consistent_of_kept hcolumn (kept_of_reached (reached_run schedule)) hcollision

end Runs

section Sample

/-- One certificate collides with no other. -/
theorem noCollision_single {sha : Sha256} {db : Database} (h : db.issued.length = 1) :
    sha.NoCollision (bodies F db) := by
  rintro message ⟨row, hrow, cert, hloads, hmessage⟩ other ⟨row', hrow', cert', hloads', hother⟩ _
  obtain ⟨only, honly⟩ := List.length_eq_one_iff.mp h
  rw [honly, List.mem_singleton] at hrow hrow'
  rw [hrow] at hloads
  rw [hrow', hloads, Option.some.injEq, Json.obj.injEq] at hloads'
  exact Except.ok.inj (hmessage.symm.trans (hloads' ▸ hother))

theorem sampleColumn_scalar : Scalar sampleColumn := by
  constructor
  · intro items text h
    cases h
  · intro members text h
    cases h

/-- Both workers submit one claim. -/
def sampleChoose (_ : Bool)
    (finished : List (Finished (Request WholeFloat) (Except SubmitError (Bundle WholeFloat))
      (DbHost Bool))) : Option (Request WholeFloat) :=
  match finished with
  | [] => some ⟨sampleService.keysJson, sampleService.signer, sampleSubmission ""⟩
  | _ => none

def sampleSchedule : List Bool := (List.range 20).map (fun n => n % 3 = 0)

theorem sample_issued : (runWorkers sampleService (fun _ _ => false) sampleChoose
    (System.start emptyHost) sampleSchedule).shared.committed.issued.length = 1 := by
  decide +kernel

/-- The second worker is refused, and one certificate is stored with its event. -/
theorem workers_consistent_sample :
    (runWorkers sampleService (fun _ _ => false) sampleChoose (System.start emptyHost)
      sampleSchedule).shared.committed.issued.length = 1 ∧
    Consistent WholeFloat sampleService.sha (runWorkers sampleService (fun _ _ => false)
      sampleChoose (System.start emptyHost) sampleSchedule).shared.committed :=
  ⟨sample_issued, workers_consistent sampleColumn_scalar sampleSchedule
    (noCollision_single sample_issued)⟩

end Sample

end Decillion.BuddyRaces
