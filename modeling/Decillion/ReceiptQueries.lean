import Decillion.PyErrors
import Decillion.ReceiptChains
import Mathlib.Data.List.Forall2

/-!
The questions that the audit log answers. The receipts of a model come newest first, as many as
the limit allows, with their payloads read back. Whatever was done to the table, if the walk over
it accepts, the answers are those of a beginning of the log: no receipt is made up or changed, and
none is left out between two others.
-/
namespace Decillion.ReceiptQueries

open ByteText JsonRoundTrip JsonStrings JsonText JsonValues LinkedLogs Primitives PyErrors
  ReceiptChains VaultReceipts

variable {F : Type} [FloatText F]

/-- A receipt as `for_model` returns it. -/
structure Entry (F : Type) where
  receiptId : SqlValue F
  ts : SqlValue F
  kind : SqlValue F
  actor : SqlValue F
  payload : Json F

/-- `json.loads` of a column; `loadsBytes` is what it makes of octets. -/
def loadsColumn (loadsBytes : Bytes → Option (Json F)) : SqlValue F → Except PyError (Json F)
  | .text text => parsed (loads text)
  | .blob bytes => parsed (loadsBytes bytes)
  | _ => .error .typeError
where
  parsed : Option (Json F) → Except PyError (Json F)
    | none => .error (.valueError "invalid JSON")
    | some value => .ok value

def readEntry (loadsBytes : Bytes → Option (Json F)) (row : Row F) : Except PyError (Entry F) := do
  let payload ← loadsColumn loadsBytes row.payloadJson
  return ⟨row.receiptId, row.ts, row.kind, row.actor, payload⟩

/-- `min(max(limit, 1), 1000)` -/
def atMost (limit : ℤ) : ℕ := (min (max limit 1) 1000).toNat

/-- `for_model`, of whatever is in the table. -/
def forModel (loadsBytes : Bytes → Option (Json F)) (content : List (ℤ × Row F))
    (modelId : String) (limit : ℤ) : Except PyError (List (Entry F)) :=
  (((inOrder content).filter (fun row => isText modelId row.modelId)).reverse.take
    (atMost limit)).mapM (readEntry loadsBytes)

/-- `SELECT COUNT(*) FROM receipts` -/
def count (content : List (ℤ × Row F)) : ℕ := content.length

section Answers

/-- What `for_model` says of a call of `emit`. -/
def entryOf (e : Emission F) : Entry F :=
  ⟨.text e.receiptId, .real e.timestamp, .text e.kind, .text e.actor, sortKeys e.payload⟩

/-- The last receipts of a model, newest first. -/
def newest (emitted : List (Emission F)) (modelId : String) (limit : ℤ) : List (Entry F) :=
  ((emitted.filter (fun e => e.modelId = modelId)).reverse.take (atMost limit)).map entryOf

variable [DecidableEq F] (hmac : HmacSha256) (key : Bytes)

/-- The calls that have entered their receipts. -/
def accepted (t : Table F) : List (Emission F) → List (Emission F)
  | [] => []
  | e :: rest =>
      match emit hmac key t e with
      | .ok (t', _) => e :: accepted t' rest
      | .error _ => accepted t rest

end Answers

variable {loadsBytes : Bytes → Option (Json F)}

/-- The row is read as what the call has emitted. -/
def Reads (loadsBytes : Bytes → Option (Json F)) (e : Emission F) (row : Row F) : Prop :=
  row.modelId = .text e.modelId ∧ readEntry loadsBytes row = .ok (entryOf e)

/-- The payload of a row is read back up to the order of its keys. -/
theorem reads_of_row {hmac : HmacSha256} {key : Bytes} {e : Emission F} {previous : SqlValue F}
    {row : Row F} (hkeys : DistinctKeys e.payload) (h : e.row hmac key previous = some row) :
    Reads loadsBytes e row := by
  obtain ⟨text, -, rfl⟩ := Option.map_eq_some_iff.mp h
  have hloads : loads (dumpsSorted compact e.payload) = some (sortKeys e.payload) := by
    have hsorted := loads_dumps compact (sortKeys e.payload) (sortKeys_distinctKeys _ hkeys) [] rfl
    rwa [List.append_nil] at hsorted
  refine ⟨rfl, ?_⟩
  rw [readEntry, loadsColumn, hloads]
  rfl

theorem mapM_readEntry {emitted : List (Emission F)} {rows : List (Row F)}
    (h : List.Forall₂ (Reads loadsBytes) emitted rows) :
    rows.mapM (readEntry loadsBytes) = .ok (emitted.map entryOf) := by
  induction h with
  | nil => rfl
  | cons hread _ ih =>
    rw [List.mapM_cons, hread.2, ok_bind, ih, ok_bind]
    rfl

/-- The rows of a model in the order of the log, newest first, are those of its calls. -/
theorem forModel_reads {emitted : List (Emission F)} {content : List (ℤ × Row F)}
    (h : List.Forall₂ (Reads loadsBytes) emitted (inOrder content)) (modelId : String)
    (limit : ℤ) : forModel loadsBytes content modelId limit = .ok
      (newest emitted modelId limit) := by
  have hfilter : List.Forall₂ (Reads loadsBytes) (emitted.filter (fun e => e.modelId = modelId))
      ((inOrder content).filter (fun row => isText modelId row.modelId)) := by
    refine List.rel_filter (fun e row hread => ?_) h
    dsimp only
    rw [hread.1]
    exact Iff.rfl
  exact mapM_readEntry (List.forall₂_take _ (List.rel_reverse hfilter))

section Logs

variable [DecidableEq F] {hmac : HmacSha256} {key : Bytes}

theorem emit_reads {t t' : Table F} {e : Emission F} {id : String}
    (hkeys : DistinctKeys e.payload) (h : emit hmac key t e = .ok (t', id)) :
    ∃ row, t'.columns = t.columns ++ [row] ∧ Reads loadsBytes e row := by
  obtain ⟨entered, hentered, hpair⟩ := map_eq_ok h
  obtain ⟨rfl, -⟩ := Prod.mk.inj hpair
  obtain ⟨row, hrow, hcolumns, -⟩ := insertReceipt_columns hmac key t _ e _ hentered
  exact ⟨row, hcolumns, reads_of_row hkeys hrow⟩

variable (hmac key loadsBytes) in
/-- The rows that a history enters are those of the calls that have entered their receipts. -/
theorem emitAll_reads (history : List (Emission F))
    (hkeys : ∀ e ∈ history, DistinctKeys e.payload) (t : Table F) :
    ∃ rows, (emitAll hmac key t history).columns = t.columns ++ rows ∧
      List.Forall₂ (Reads loadsBytes) (accepted hmac key t history) rows := by
  induction history generalizing t with
  | nil => exact ⟨[], (List.append_nil _).symm, .nil⟩
  | cons e rest ih =>
    have hrest : ∀ other ∈ rest, DistinctKeys other.payload :=
      fun other hother => hkeys other (List.mem_cons_of_mem _ hother)
    rw [emitAll, List.foldl_cons, accepted]
    cases hemit : emit hmac key t e with
    | error err => exact ih hrest t
    | ok result =>
      obtain ⟨t', id⟩ := result
      obtain ⟨row, hcolumns, hread⟩ := emit_reads (hkeys e List.mem_cons_self) hemit
      obtain ⟨rows, hrows, hreads⟩ := ih hrest t'
      refine ⟨row :: rows, ?_, .cons hread hreads⟩
      rw [List.append_cons, ← hcolumns]
      exact hrows

/-- A beginning of the rows of a log has been emitted by a beginning of the calls. -/
theorem emitted_of_prefix {history : List (Emission F)}
    (hkeys : ∀ e ∈ history, DistinctKeys e.payload) {rows : List (Row F)}
    (h : rows <+: (emitAll hmac key Table.empty history).columns) :
    ∃ emitted, emitted <+: accepted hmac key Table.empty history ∧
      List.Forall₂ (Reads loadsBytes) emitted rows := by
  obtain ⟨all, hall, hreads⟩ := emitAll_reads loadsBytes hmac key history hkeys Table.empty
  have hcolumns : (emitAll hmac key Table.empty history).columns = all := hall
  rw [hcolumns] at h
  have htaken := List.forall₂_take rows.length hreads
  rw [← List.prefix_iff_eq_take.mp h] at htaken
  exact ⟨_, List.take_prefix _ _, htaken⟩

omit [DecidableEq F] in
theorem count_of_reads {emitted : List (Emission F)} {content : List (ℤ × Row F)}
    (h : List.Forall₂ (Reads loadsBytes) emitted (inOrder content)) :
    count content = emitted.length := by
  rw [h.length_eq, inOrder, List.length_map, List.length_insertionSort, count]

/-- The log answers with the last receipts of a model, newest first, and counts them all. If the
walk over a table that was changed accepts, it answers as the log did at some earlier moment. -/
theorem queries_audited (hmac : HmacSha256) (key : Bytes) (loadsBytes : Bytes → Option (Json F))
    (history : List (Emission F)) (hkeys : ∀ e ∈ history, DistinctKeys e.payload) :
    (count (emitAll hmac key Table.empty history).rows =
        (accepted hmac key Table.empty history).length ∧
      ∀ modelId limit,
        forModel loadsBytes (emitAll hmac key Table.empty history).rows modelId limit =
          .ok (newest (accepted hmac key Table.empty history) modelId limit)) ∧
    ∀ content head,
      NoForgery hmac key (emitAll hmac key Table.empty history).columns (inOrder content) →
      hmac.NoCollision key
        {message | message ∈ bodies (emitAll hmac key Table.empty history).columns} →
      verifyChain hmac key content = .ok (true, head) →
      ∃ emitted, emitted <+: accepted hmac key Table.empty history ∧
        count content = emitted.length ∧
        ∀ modelId limit,
          forModel loadsBytes content modelId limit = .ok (newest emitted modelId limit) := by
  constructor
  · obtain ⟨rows, hrows, hreads⟩ := emitAll_reads loadsBytes hmac key history hkeys Table.empty
    have hcolumns : (emitAll hmac key Table.empty history).columns = rows := hrows
    rw [← hcolumns, ← inOrder_rows] at hreads
    exact ⟨count_of_reads hreads, forModel_reads hreads⟩
  · intro content head hforgery hcollision hverify
    have hlog : Chained hmac key (emitAll hmac key Table.empty history).columns :=
      chained_emitAll hmac key Table.empty history ⟨trivial, fun row hrow => by cases hrow⟩
    have hcontent := ((verifyChain_iff hmac key content head).mp hverify).1
    have hprefix := prefix_of_chained hlog hcontent hforgery hcollision
    obtain ⟨emitted, hemitted, hreads⟩ := emitted_of_prefix hkeys hprefix
    exact ⟨emitted, hemitted, count_of_reads hreads, forModel_reads hreads⟩

end Logs

section Sample

def sampleHistory : List (Emission WholeFloat) := [sampleEmission 1, sampleEmission 2]

theorem sampleHistory_distinct : ∀ e ∈ sampleHistory, DistinctKeys e.payload := by
  intro e he
  simp only [sampleHistory, List.mem_cons, List.not_mem_nil, or_false] at he
  rcases he with rfl | rfl
  · exact ⟨List.nodup_singleton _, trivial, trivial⟩
  · exact ⟨List.nodup_singleton _, trivial, trivial⟩

/-- The second receipt is gone, and the log answers as it did before it was emitted. -/
theorem queries_audited_sample : ∃ emitted,
    emitted <+: accepted HmacSha256.sample sampleKey Table.empty sampleHistory ∧
      count truncatedLog = emitted.length ∧
      forModel (fun _ => none) truncatedLog "m" 50 = .ok (newest emitted "m" 50) := by
  obtain ⟨head, hverify⟩ := truncatedLog_accepted
  have hcollision := HmacSha256.noCollision_of_list HmacSha256.sample sampleKey
    (bodies sampleLog.columns) (by decide +kernel)
  obtain ⟨emitted, hemitted, hcount, hanswers⟩ :=
    (queries_audited HmacSha256.sample sampleKey (fun _ => none) sampleHistory
      sampleHistory_distinct).2 truncatedLog head truncatedLog_genuine hcollision hverify
  exact ⟨emitted, hemitted, hcount, hanswers "m" 50⟩

end Sample

end Decillion.ReceiptQueries
