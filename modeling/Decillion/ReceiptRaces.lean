import Decillion.ReceiptChains

/-!
Calls of `emit` that run at the same time on one table. Each call takes two steps, the
read of the newest tag and the insert of its row, and a schedule is any order of the
steps of all calls. The log that is left verifies exactly when no call inserted its row
while another one stood between its two steps.
-/
namespace Decillion.ReceiptRaces

open LinkedLogs Primitives ByteText JsonText JsonStrings VaultReceipts ReceiptChains

/-- Where a call stands. -/
inductive Phase (F : Type) where
  | idle
  | read (previous : SqlValue F)
  | done
  | failed (error : ReceiptError)
deriving DecidableEq

structure System (ι F : Type) where
  table : Table F
  phase : ι → Phase F

variable {ι F : Type} [DecidableEq ι] [DecidableEq F] [FloatText F]
variable (hmac : HmacSha256) (key : Bytes) (calls : ι → Emission F)

/-- The next statement of call `i`. -/
def step (s : System ι F) (i : ι) : System ι F :=
  match s.phase i with
  | .idle => { s with phase := Function.update s.phase i (.read s.table.newestSig) }
  | .read previous =>
      match insertReceipt hmac key s.table (calls i) previous with
      | .ok t => ⟨t, Function.update s.phase i .done⟩
      | .error e => { s with phase := Function.update s.phase i (.failed e) }
  | _ => s

def run (s : System ι F) (schedule : List ι) : System ι F :=
  schedule.foldl (step hmac key calls) s

def start (t : Table F) : System ι F := ⟨t, fun _ => .idle⟩

/-- No call inserts its row, its second step, while another call has taken one step only. -/
def Serial (schedule : List ι) : Prop :=
  ∀ before i after, schedule = before ++ i :: after → before.count i = 1 →
    ∀ j, j ≠ i → before.count j ≠ 1

/-- The receipt of the call is in the table once, with the columns the call gave it. -/
def Recorded (t : Table F) (e : Emission F) : Prop :=
  ∃ row, t.columns.filter (fun r => r.receiptId = .text e.receiptId) = [row] ∧
    ∃ previous, e.row hmac key previous = some row

/-- What one step of a call does: a read, an insert, a failed insert or nothing. -/
theorem step_cases (s : System ι F) (i : ι) :
    (s.phase i = .idle ∧ step hmac key calls s i =
      { s with phase := Function.update s.phase i (.read s.table.newestSig) }) ∨
    (∃ previous row t, s.phase i = .read previous ∧
      step hmac key calls s i = ⟨t, Function.update s.phase i .done⟩ ∧
      (calls i).row hmac key previous = some row ∧ t.columns = s.table.columns ++ [row] ∧
      row.prevSig = previous ∧ Signed hmac key row) ∨
    (∃ previous e, s.phase i = .read previous ∧ step hmac key calls s i =
      { s with phase := Function.update s.phase i (.failed e) }) ∨
    ((s.phase i = .done ∨ ∃ e, s.phase i = .failed e) ∧ step hmac key calls s i = s) := by
  unfold step
  cases hphase : s.phase i with
  | idle => exact Or.inl ⟨rfl, rfl⟩
  | read previous =>
    cases hinsert : insertReceipt hmac key s.table (calls i) previous with
    | ok t =>
      obtain ⟨row, hrow, hcolumns, hprev, hsigned⟩ :=
        insertReceipt_columns hmac key s.table t (calls i) previous hinsert
      exact Or.inr (Or.inl ⟨previous, row, t, rfl, by simp only [hinsert], hrow, hcolumns, hprev,
        hsigned⟩)
    | error e => exact Or.inr (Or.inr (Or.inl ⟨previous, e, rfl, by simp only [hinsert]⟩))
  | done => exact Or.inr (Or.inr (Or.inr ⟨Or.inl rfl, rfl⟩))
  | failed e => exact Or.inr (Or.inr (Or.inr ⟨Or.inr ⟨e, rfl⟩, rfl⟩))

theorem step_phase_other (s : System ι F) (i j : ι) (hne : j ≠ i) :
    (step hmac key calls s i).phase j = s.phase j := by
  rcases step_cases hmac key calls s i with ⟨-, h⟩ | ⟨_, _, _, -, h, -⟩ | ⟨_, _, -, h⟩ | ⟨-, h⟩ <;>
    rw [h] <;> simp [Function.update_of_ne hne]

theorem step_columns (s : System ι F) (i : ι) :
    s.table.columns <+: (step hmac key calls s i).table.columns := by
  rcases step_cases hmac key calls s i with
    ⟨-, h⟩ | ⟨_, row, t, -, h, -, hcolumns, -⟩ | ⟨_, _, -, h⟩ | ⟨-, h⟩ <;> rw [h]
  exact ⟨[row], hcolumns.symm⟩

theorem run_columns (s : System ι F) (schedule : List ι) :
    s.table.columns <+: (run hmac key calls s schedule).table.columns := by
  induction schedule generalizing s with
  | nil => exact List.prefix_rfl
  | cons i rest ih => exact (step_columns hmac key calls s i).trans (ih _)

theorem run_concat (s : System ι F) (before : List ι) (i : ι) :
    run hmac key calls s (before ++ [i]) =
      step hmac key calls (run hmac key calls s before) i := by
  simp [run]

theorem run_append (s : System ι F) (before after : List ι) :
    run hmac key calls s (before ++ after) =
      run hmac key calls (run hmac key calls s before) after := by
  simp [run]

/-- A call that has failed never completes. -/
theorem run_failed (s : System ι F) (schedule : List ι) (i : ι) (e : ReceiptError)
    (h : s.phase i = .failed e) : (run hmac key calls s schedule).phase i = .failed e := by
  induction schedule generalizing s with
  | nil => exact h
  | cons j rest ih =>
    apply ih
    by_cases hne : i = j
    · subst hne
      simp [step, h]
    · rw [step_phase_other hmac key calls s j i hne, h]

/-- The number of steps a call has taken tells where it stands. -/
theorem phase_of_count (t : Table F) (before : List ι) (i : ι) :
    (before.count i = 0 ∧ (run hmac key calls (start t) before).phase i = .idle) ∨
    (before.count i = 1 ∧ ∃ p, (run hmac key calls (start t) before).phase i = .read p) ∨
    (1 < before.count i ∧ ((run hmac key calls (start t) before).phase i = .done ∨
      ∃ e, (run hmac key calls (start t) before).phase i = .failed e)) := by
  induction before using List.reverseRecOn with
  | nil => exact Or.inl ⟨rfl, rfl⟩
  | append_singleton before j ih =>
    rw [run_concat]
    by_cases hne : i = j
    · subst hne
      rw [List.count_append, List.count_singleton_self]
      rcases step_cases hmac key calls (run hmac key calls (start t) before) i with
        ⟨hphase, h⟩ | ⟨p, row, t', hphase, h, -⟩ | ⟨p, e, hphase, h⟩ | ⟨hphase, h⟩
      · simp only [hphase, reduceCtorEq, exists_false, and_false, or_self, or_false, and_true] at ih
        simp [h, ih]
      · simp only [hphase, reduceCtorEq, exists_false, and_false, or_self, or_false,
          false_or] at ih
        simp [h, ih.1]
      · simp only [hphase, reduceCtorEq, exists_false, and_false, or_self, or_false,
          false_or] at ih
        simp [h, ih.1]
      · have hcount : 1 < before.count i := by
          rcases ih with ⟨-, hidle⟩ | ⟨-, p, hread⟩ | ⟨hcount, -⟩
          · simp [hidle] at hphase
          · simp [hread] at hphase
          · exact hcount
        exact Or.inr (Or.inr ⟨by omega, by rw [h]; exact hphase⟩)
    · rw [List.count_append, List.count_singleton, if_neg (by simpa using Ne.symm hne), add_zero,
        step_phase_other hmac key calls _ j i hne]
      exact ih

theorem count_of_read (t : Table F) (before : List ι) (i : ι) (p : SqlValue F)
    (h : (run hmac key calls (start t) before).phase i = .read p) : before.count i = 1 := by
  rcases phase_of_count hmac key calls t before i with ⟨-, hi⟩ | ⟨hi, -⟩ | ⟨-, hi | ⟨e, hi⟩⟩
  · simp [hi] at h
  · exact hi
  · simp [hi] at h
  · simp [hi] at h

theorem read_of_count (t : Table F) (before : List ι) (i : ι) (h : before.count i = 1) :
    ∃ p, (run hmac key calls (start t) before).phase i = .read p := by
  rcases phase_of_count hmac key calls t before i with ⟨hi, -⟩ | ⟨-, hi⟩ | ⟨hi, -⟩
  · omega
  · exact hi
  · omega

/-- Every completed call has its row in the table. -/
theorem exists_row_of_done (t : Table F) (before : List ι) (i : ι)
    (h : (run hmac key calls (start t) before).phase i = .done) :
    ∃ row ∈ (run hmac key calls (start t) before).table.columns,
      ∃ previous, (calls i).row hmac key previous = some row := by
  induction before using List.reverseRecOn with
  | nil => simp [run, start] at h
  | append_singleton before j ih =>
    rw [run_concat] at h ⊢
    by_cases hne : i = j
    · subst hne
      rcases step_cases hmac key calls (run hmac key calls (start t) before) i with
        ⟨-, hstep⟩ | ⟨p, row, t', -, hstep, hrow, hcolumns, -⟩ | ⟨p, e, -, hstep⟩ | ⟨-, hstep⟩
      · simp [hstep] at h
      · exact ⟨row, by simp [hstep, hcolumns], p, hrow⟩
      · simp [hstep] at h
      · rw [hstep] at h ⊢
        exact ih h
    · rw [step_phase_other hmac key calls _ j i hne] at h
      obtain ⟨row, hrow, hcall⟩ := ih h
      exact ⟨row, (step_columns hmac key calls _ j).subset hrow, hcall⟩

/-- A call between its steps names the tag after a beginning of the table. -/
theorem exists_prefix_of_read (t : Table F) (before : List ι) (i : ι) (p : SqlValue F)
    (h : (run hmac key calls (start t) before).phase i = .read p) :
    ∃ rows, rows <+: (run hmac key calls (start t) before).table.columns ∧
      p = headAfter Row.sig (.text genesis) rows := by
  induction before using List.reverseRecOn with
  | nil => simp [run, start] at h
  | append_singleton before j ih =>
    rw [run_concat] at h ⊢
    by_cases hne : i = j
    · subst hne
      rcases step_cases hmac key calls (run hmac key calls (start t) before) i with
        ⟨-, hstep⟩ | ⟨q, row, t', -, hstep, -⟩ | ⟨q, e, -, hstep⟩ | ⟨hphase, hstep⟩
      · simp only [hstep, Function.update_self, Phase.read.injEq] at h ⊢
        exact ⟨_, List.prefix_rfl, by rw [← h, newestSig_eq]⟩
      · simp [hstep] at h
      · simp [hstep] at h
      · rw [hstep] at h
        rcases hphase with hphase | ⟨e, hphase⟩ <;> simp [hphase] at h
    · rw [step_phase_other hmac key calls _ j i hne] at h
      obtain ⟨rows, hrows, hp⟩ := ih h
      exact ⟨rows, hrows.trans (step_columns hmac key calls _ j), hp⟩

/-- A call that has read and completes later inserts a row naming the tag it has read. -/
theorem insert_later (s : System ι F) (schedule : List ι) (i : ι) (p : SqlValue F)
    (hread : s.phase i = .read p) (hdone : (run hmac key calls s schedule).phase i = .done) :
    ∃ between row, row.prevSig = p ∧ s.table.columns ++ between ++ [row] <+:
      (run hmac key calls s schedule).table.columns := by
  induction schedule generalizing s with
  | nil =>
    rw [run, List.foldl_nil, hread] at hdone
    exact absurd hdone (by simp)
  | cons j rest ih =>
    have hrun : run hmac key calls s (j :: rest) =
        run hmac key calls (step hmac key calls s j) rest := rfl
    rw [hrun] at hdone ⊢
    by_cases hne : i = j
    · subst hne
      rcases step_cases hmac key calls s i with
        ⟨hphase, -⟩ | ⟨q, row, t', hphase, hstep, -, hcolumns, hprev, -⟩ | ⟨q, e, -, hstep⟩ |
          ⟨hphase, -⟩
      · simp [hread] at hphase
      · rw [hread, Phase.read.injEq] at hphase
        have hrest := run_columns hmac key calls (step hmac key calls s i) rest
        refine ⟨[], row, hprev.trans hphase.symm, ?_⟩
        rw [hstep] at hrest ⊢
        simpa [hcolumns] using hrest
      · have hfailed := run_failed hmac key calls (step hmac key calls s i) rest i e
          (by simp [hstep])
        rw [hfailed] at hdone
        exact absurd hdone (by simp)
      · simp [hread] at hphase
    · obtain ⟨between, row, hprev, hprefix⟩ := ih (step hmac key calls s j)
        (by rw [step_phase_other hmac key calls s j i hne, hread]) hdone
      obtain ⟨more, hmore⟩ := step_columns hmac key calls s j
      exact ⟨more ++ between, row, hprev, by simpa [← hmore] using hprefix⟩

theorem recorded_of_done (t : Table F) (schedule : List ι) (i : ι)
    (h : (run hmac key calls (start t) schedule).phase i = .done) :
    Recorded hmac key (run hmac key calls (start t) schedule).table (calls i) := by
  obtain ⟨row, hrow, previous, hcall⟩ := exists_row_of_done hmac key calls t schedule i h
  refine ⟨row, ?_, previous, hcall⟩
  have hid : row.receiptId = .text (calls i).receiptId := by
    obtain ⟨text, -, rfl⟩ := Option.map_eq_some_iff.mp hcall
    rfl
  have hunique := (run hmac key calls (start t) schedule).table.unique
  generalize (run hmac key calls (start t) schedule).table = final at hrow hunique ⊢
  have hnodup : (final.columns.map Row.receiptId).Nodup := by
    rwa [Table.columns, List.map_map]
  have hsame : ∀ r ∈ final.columns,
      decide (r.receiptId = .text (calls i).receiptId) = decide (r = row) := by
    intro r hr
    rw [decide_eq_decide, ← hid]
    exact ⟨fun heq => List.inj_on_of_nodup_map hnodup hr hrow heq, fun heq => by rw [heq]⟩
  rw [List.filter_congr hsame, List.filter_eq,
    List.count_eq_one_of_mem (List.Nodup.of_map _ hnodup) hrow]
  rfl

/-- Under a serial schedule every step keeps the log chained and what was read current. -/
theorem chained_of_serial (t : Table F) (schedule before after : List ι)
    (hsplit : schedule = before ++ after) (hserial : Serial schedule)
    (hstart : Chained hmac key t.columns) :
    Chained hmac key (run hmac key calls (start t) before).table.columns ∧
      ∀ i p, (run hmac key calls (start t) before).phase i = .read p →
        p = (run hmac key calls (start t) before).table.newestSig := by
  induction before using List.reverseRecOn generalizing after with
  | nil => exact ⟨hstart, by simp [run, start]⟩
  | append_singleton before i ih =>
    obtain ⟨hchained, hcurrent⟩ := ih (i :: after) (by simp [hsplit])
    rw [run_concat]
    rcases step_cases hmac key calls (run hmac key calls (start t) before) i with
      ⟨-, hstep⟩ | ⟨p, row, t', hphase, hstep, -, hcolumns, hprev, hsigned⟩ |
        ⟨p, e, -, hstep⟩ | ⟨-, hstep⟩ <;> rw [hstep]
    · refine ⟨hchained, fun j p hread => ?_⟩
      by_cases hne : j = i
      · subst hne
        simpa using hread.symm
      · simp only [Function.update_of_ne hne] at hread
        exact hcurrent j p hread
    · have hcount := count_of_read hmac key calls t before i p hphase
      constructor
      · rw [hcolumns, chained_concat, ← newestSig_eq, hprev]
        exact ⟨hchained, hcurrent i p hphase, hsigned⟩
      · intro j q hread
        by_cases hne : j = i
        · subst hne
          simp at hread
        · simp only [Function.update_of_ne hne] at hread
          exact absurd (count_of_read hmac key calls t before j q hread)
            (hserial before i after (by simp [hsplit]) hcount j hne)
    · refine ⟨hchained, fun j q hread => ?_⟩
      by_cases hne : j = i
      · subst hne
        simp at hread
      · simp only [Function.update_of_ne hne] at hread
        exact hcurrent j q hread
    · exact ⟨hchained, hcurrent⟩

/-- A chained log has no insert between the two steps of another call. -/
theorem serial_of_chained (t : Table F) (schedule : List ι)
    (hcomplete : ∀ i, (run hmac key calls (start t) schedule).phase i = .done)
    (hcollision : hmac.NoCollision key
      {message | message ∈ bodies (run hmac key calls (start t) schedule).table.columns})
    (hchained : Chained hmac key (run hmac key calls (start t) schedule).table.columns) :
    Serial schedule := by
  intro before i after hsplit hcount j hne hcountj
  have hlabels := labels_nodup hmac key _ hcollision hchained.2
  obtain ⟨q, hq⟩ := read_of_count hmac key calls t before i hcount
  obtain ⟨p, hp⟩ := read_of_count hmac key calls t before j hcountj
  obtain ⟨rows, hrows, hpeq⟩ := exists_prefix_of_read hmac key calls t before j p hp
  have hrun : run hmac key calls (start t) schedule = run hmac key calls
      (step hmac key calls (run hmac key calls (start t) before) i) after := by
    rw [hsplit, run_append]
    rfl
  rw [hrun] at hcomplete hchained hlabels
  have hinserted :
      ∃ row, (step hmac key calls (run hmac key calls (start t) before) i).table.columns
      = (run hmac key calls (start t) before).table.columns ++ [row] := by
    rcases step_cases hmac key calls (run hmac key calls (start t) before) i with
      ⟨h, -⟩ | ⟨_, row, t', -, hstep, -, hcolumns, -⟩ | ⟨_, e, -, hstep⟩ | ⟨h, -⟩
    · simp [hq] at h
    · exact ⟨row, by rw [hstep, hcolumns]⟩
    · have hfailed := run_failed hmac key calls _ after i e (show (step hmac key calls
        (run hmac key calls (start t) before) i).phase i = .failed e by simp [hstep])
      rw [hcomplete i] at hfailed
      exact absurd hfailed (by simp)
    · simp [hq] at h
  obtain ⟨row, hrow⟩ := hinserted
  obtain ⟨between, later, hprev, hlater⟩ := insert_later hmac key calls _ after j p
    (by rw [step_phase_other hmac key calls _ i j hne, hp]) (hcomplete j)
  obtain ⟨more, hmore⟩ := hlater
  have hlinked := hchained.1
  rw [← hmore, linked_append, linked_concat] at hlinked
  have hbefore : (step hmac key calls (run hmac key calls (start t) before) i).table.columns ++
      between <+: (run hmac key calls
        (step hmac key calls (run hmac key calls (start t) before) i) after).table.columns :=
    ⟨later :: more, by rw [← hmore]; simp⟩
  have hshort : rows <+: (run hmac key calls
      (step hmac key calls (run hmac key calls (start t) before) i) after).table.columns :=
    (hrows.trans (step_columns hmac key calls _ i)).trans (run_columns hmac key calls _ after)
  have heq := prefix_eq_of_headAfter Row.sig (.text genesis) _ rows _ hlabels hshort hbefore
    (by rw [← hpeq, ← hprev]; exact hlinked.1.2)
  have hlength := hrows.length_le
  rw [heq, hrow] at hlength
  simp at hlength

/-- The log of concurrent calls verifies exactly when no insert came between two steps. -/
theorem verifyChain_iff_serial (t : Table F) (schedule : List ι)
    (hstart : ∃ head, verifyChain hmac key t.rows = .ok (true, head))
    (hcomplete : ∀ i, (run hmac key calls (start t) schedule).phase i = .done)
    (hcollision : hmac.NoCollision key
      {message | message ∈ bodies (run hmac key calls (start t) schedule).table.columns}) :
    ((∃ head, verifyChain hmac key (run hmac key calls (start t) schedule).table.rows =
          .ok (true, head) ∧
        (run hmac key calls (start t) schedule).table.newestSig = .text head) ∧
      (∀ i, Recorded hmac key (run hmac key calls (start t) schedule).table (calls i))) ↔
    Serial schedule := by
  obtain ⟨first, hfirst⟩ := hstart
  rw [verifyChain_iff, inOrder_rows] at hfirst
  constructor
  · rintro ⟨⟨head, hverify, -⟩, -⟩
    rw [verifyChain_iff, inOrder_rows] at hverify
    exact serial_of_chained hmac key calls t schedule hcomplete hcollision hverify.1
  · intro hserial
    have hchained := (chained_of_serial hmac key calls t schedule schedule [] (by simp) hserial
      hfirst.1).1
    obtain ⟨head, hhead⟩ := headAfter_of_chained hmac key _ hchained
    refine ⟨⟨head, ?_, (newestSig_eq _).trans hhead⟩, ?_⟩
    · rw [verifyChain_iff, inOrder_rows]
      exact ⟨hchained, hhead⟩
    · exact fun i => recorded_of_done hmac key calls t schedule i (hcomplete i)

def sampleCalls (i : Fin 2) : Emission WholeFloat := sampleEmission i

def sampleRun (schedule : List (Fin 2)) : System (Fin 2) WholeFloat :=
  run HmacSha256.sample sampleKey sampleCalls (start Table.empty) schedule

theorem verifyChain_iff_serial_sample :
    ((∃ head, verifyChain HmacSha256.sample sampleKey (sampleRun [0, 0, 1, 1]).table.rows =
          .ok (true, head) ∧ (sampleRun [0, 0, 1, 1]).table.newestSig = .text head) ∧
      (∀ i, Recorded HmacSha256.sample sampleKey (sampleRun [0, 0, 1, 1]).table
        (sampleCalls i))) ↔
    Serial ([0, 0, 1, 1] : List (Fin 2)) := by
  apply verifyChain_iff_serial
  · exact ⟨genesis, rfl⟩
  · decide +kernel
  · exact HmacSha256.noCollision_of_list _ _ _ (by decide +kernel)

/-- Two calls read the same newest tag; both complete and the log is broken. -/
theorem verifyChain_race :
    (∀ i, (sampleRun [0, 1, 0, 1]).phase i = .done) ∧
      verifyChain HmacSha256.sample sampleKey (sampleRun [0, 1, 0, 1]).table.rows =
        .ok (false, "chain break at 01") := by
  refine ⟨by decide +kernel, by decide +kernel⟩

end Decillion.ReceiptRaces
