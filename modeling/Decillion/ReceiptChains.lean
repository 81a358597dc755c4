import Decillion.VaultReceipts

/-!
What the audit log proves to a reader who holds the key. A log written by calls one
after another is linked and signed; every content of the table that the walk accepts is
a beginning of it, as long as no tag was forged and no two of its bodies share a tag.
-/
namespace Decillion.ReceiptChains

open ByteText JsonValues JsonText JsonStrings JsonRoundTrip LinkedLogs Primitives VaultReceipts

variable {F : Type}

theorem mapM_toJson_injective (a b : List (SqlValue F)) (items : List (Json F))
    (ha : a.mapM SqlValue.toJson = some items) (hb : b.mapM SqlValue.toJson = some items) :
    a = b := by
  induction a generalizing b items with
  | nil =>
    cases b with
    | nil => rfl
    | cons w ws =>
      simp only [List.mapM_nil, Option.pure_def, Option.some.injEq] at ha
      subst ha
      simp [List.mapM_cons, Option.bind_eq_some_iff] at hb
  | cons v vs ih =>
    simp only [List.mapM_cons, Option.bind_eq_bind, Option.bind_eq_some_iff, Option.pure_def,
      Option.some.injEq] at ha
    obtain ⟨j, hj, js, hjs, rfl⟩ := ha
    cases b with
    | nil => simp at hb
    | cons w ws =>
      simp only [List.mapM_cons, Option.bind_eq_bind, Option.bind_eq_some_iff, Option.pure_def,
        Option.some.injEq, List.cons.injEq] at hb
      obtain ⟨k, hk, ks, hks, rfl, rfl⟩ := hb
      rw [toJson_injective v w k hj hk, ih ws ks hjs hks]

theorem distinctKeys_items (values : List (SqlValue F)) (items : List (Json F))
    (h : values.mapM SqlValue.toJson = some items) : DistinctKeys (.list items) := by
  induction values generalizing items with
  | nil =>
    simp only [List.mapM_nil, Option.pure_def, Option.some.injEq] at h
    subst h
    trivial
  | cons v vs ih =>
    simp only [List.mapM_cons, Option.bind_eq_bind, Option.bind_eq_some_iff, Option.pure_def,
      Option.some.injEq] at h
    obtain ⟨j, hj, js, hjs, rfl⟩ := h
    exact ⟨distinctKeys_toJson v j hj, ih js hjs⟩

theorem columns_insert [DecidableEq F] (t t' : Table F) (row : Row F)
    (h : t.insert row = some t') : t'.columns = t.columns ++ [row] := by
  unfold Table.insert at h
  split at h
  · cases h
    simp [Table.columns]
  · simp at h

theorem inOrder_rows (t : Table F) : inOrder t.rows = t.columns := by
  have hsorted : t.rows.Pairwise (fun a b => a.1 ≤ b.1) := t.increasing.imp le_of_lt
  rw [inOrder, hsorted.insertionSort_eq]
  rfl

theorem mem_inOrder (content : List (ℤ × Row F)) (row : Row F) :
    row ∈ inOrder content ↔ row ∈ content.map Prod.snd :=
  ((List.perm_insertionSort _ content).map Prod.snd).mem_iff

theorem newestSig_eq (t : Table F) :
    t.newestSig = headAfter Row.sig (.text genesis) t.columns := by
  unfold Table.newestSig
  induction t.columns using List.reverseRecOn with
  | nil => rfl
  | append_singleton rows row _ => simp [headAfter_concat]

variable [FloatText F]

/-- The body names every column except the tag itself. -/
theorem bodyText_injective (a b : Row F) (text : String) (ha : a.bodyText = some text)
    (hb : b.bodyText = some text) : a = { b with sig := a.sig } := by
  obtain ⟨items, hitems, rfl⟩ := Option.map_eq_some_iff.mp ha
  obtain ⟨others, hothers, htext⟩ := Option.map_eq_some_iff.mp hb
  have hsame := dumps_injective compact (distinctKeys_items _ _ hothers)
    (distinctKeys_items _ _ hitems) htext
  rw [Json.list.injEq] at hsame
  subst hsame
  have hcolumns := mapM_toJson_injective _ _ _ hitems hothers
  simp only [List.cons.injEq, and_true] at hcolumns
  obtain ⟨h1, h2, h3, h4, h5, h6, h7⟩ := hcolumns
  cases a
  cases b
  dsimp only at h1 h2 h3 h4 h5 h6 h7
  subst h1 h2 h3 h4 h5 h6 h7
  rfl

theorem eq_of_bodyText (a b : Row F) (text : String) (ha : a.bodyText = some text)
    (hb : b.bodyText = some text) (hsig : a.sig = b.sig) : a = b := by
  rw [bodyText_injective a b text ha hb, hsig]

/-- A row that is inserted is signed and names the tag that was read. -/
theorem insertReceipt_columns [DecidableEq F] (hmac : HmacSha256) (key : Bytes)
    (t t' : Table F) (e : Emission F) (previous : SqlValue F)
    (h : insertReceipt hmac key t e previous = .ok t') :
    ∃ row, e.row hmac key previous = some row ∧ t'.columns = t.columns ++ [row] ∧
      row.prevSig = previous ∧ Signed hmac key row := by
  unfold insertReceipt at h
  split at h
  · simp at h
  · rename_i row hrow
    split at h
    · simp at h
    · rename_i t'' hinsert
      cases h
      refine ⟨row, hrow, columns_insert t t' row hinsert, ?_⟩
      obtain ⟨text, htext, rfl⟩ := Option.map_eq_some_iff.mp hrow
      exact ⟨rfl, text, htext, rfl⟩

/-- A log whose walk accepts: linked from the initial label, every row signed. -/
def Chained (hmac : HmacSha256) (key : Bytes) (rows : List (Row F)) : Prop :=
  Linked Row.prevSig Row.sig (.text genesis) rows ∧ ∀ row ∈ rows, Signed hmac key row

theorem chained_concat (hmac : HmacSha256) (key : Bytes) (rows : List (Row F)) (row : Row F) :
    Chained hmac key (rows ++ [row]) ↔
      Chained hmac key rows ∧ row.prevSig = headAfter Row.sig (.text genesis) rows ∧
        Signed hmac key row := by
  simp only [Chained, linked_concat, List.mem_append, List.mem_singleton, or_imp, forall_and,
    forall_eq]
  tauto

theorem headAfter_of_chained (hmac : HmacSha256) (key : Bytes) (rows : List (Row F))
    (h : Chained hmac key rows) :
    ∃ head, headAfter Row.sig (.text genesis) rows = .text head := by
  induction rows using List.reverseRecOn with
  | nil => exact ⟨genesis, rfl⟩
  | append_singleton rows row _ =>
    obtain ⟨text, -, hsig⟩ := ((chained_concat hmac key rows row).mp h).2.2
    exact ⟨_, (headAfter_concat Row.sig _ rows row).trans hsig⟩

theorem verifyChain_iff (hmac : HmacSha256) (key : Bytes) (content : List (ℤ × Row F))
    (head : String) : verifyChain hmac key content = .ok (true, head) ↔
      Chained hmac key (inOrder content) ∧
        headAfter Row.sig (.text genesis) (inOrder content) = .text head := by
  rw [verifyChain, verifyRows_iff, Chained, and_assoc]

/-- One call keeps the log linked and signed. -/
theorem chained_emit [DecidableEq F] (hmac : HmacSha256) (key : Bytes) (t t' : Table F)
    (e : Emission F) (id : String) (ht : Chained hmac key t.columns)
    (h : emit hmac key t e = .ok (t', id)) : Chained hmac key t'.columns := by
  unfold emit at h
  cases hinsert : insertReceipt hmac key t e t.newestSig with
  | error err => simp [hinsert, Except.map] at h
  | ok t'' =>
    simp only [hinsert, Except.map, Except.ok.injEq, Prod.mk.injEq] at h
    obtain ⟨rfl, -⟩ := h
    obtain ⟨row, -, hcolumns, hprev, hsigned⟩ := insertReceipt_columns hmac key t _ e _ hinsert
    rw [hcolumns, chained_concat]
    exact ⟨ht, hprev.trans (newestSig_eq t), hsigned⟩

/-- The log of any history is linked and signed. -/
theorem chained_emitAll [DecidableEq F] (hmac : HmacSha256) (key : Bytes) (t : Table F)
    (history : List (Emission F)) (ht : Chained hmac key t.columns) :
    Chained hmac key (emitAll hmac key t history).columns := by
  induction history generalizing t with
  | nil => exact ht
  | cons e rest ih =>
    rw [emitAll, List.foldl_cons]
    apply ih
    split
    · rename_i t' id h
      exact chained_emit hmac key t t' e id ht h
    · exact ht

/-- The messages under the tags of the rows. -/
def bodies (rows : List (Row F)) : List Bytes :=
  rows.filterMap (fun row => row.bodyText.map encode)

theorem mem_bodies (rows : List (Row F)) (message : Bytes) : message ∈ bodies rows ↔
    ∃ row ∈ rows, ∃ text, row.bodyText = some text ∧ encode text = message := by
  simp [bodies, List.mem_filterMap, Option.map_eq_some_iff]

theorem sig_injOn (hmac : HmacSha256) (key : Bytes) (rows : List (Row F))
    (hcollision : hmac.NoCollision key {message | message ∈ bodies rows})
    (hsigned : ∀ row ∈ rows, Signed hmac key row) (a b : Row F) (ha : a ∈ rows) (hb : b ∈ rows)
    (h : a.sig = b.sig) : a = b := by
  obtain ⟨textA, hbodyA, hsigA⟩ := hsigned a ha
  obtain ⟨textB, hbodyB, hsigB⟩ := hsigned b hb
  have htags : sign hmac key textA = sign hmac key textB := by
    rwa [hsigA, hsigB, SqlValue.text.injEq] at h
  have htext := hcollision ((mem_bodies rows _).mpr ⟨a, ha, textA, hbodyA, rfl⟩)
    ((mem_bodies rows _).mpr ⟨b, hb, textB, hbodyB, rfl⟩) (hex_injective htags)
  rw [encode_injective htext] at hbodyA
  exact eq_of_bodyText a b textB hbodyA hbodyB h

/-- No label occurs twice in a table written without a collision. -/
theorem labels_nodup (hmac : HmacSha256) (key : Bytes) (t : Table F)
    (hcollision : hmac.NoCollision key {message | message ∈ bodies t.columns})
    (hsigned : ∀ row ∈ t.columns, Signed hmac key row) :
    (SqlValue.text genesis :: t.columns.map Row.sig).Nodup := by
  rw [List.nodup_cons]
  constructor
  · intro hmem
    obtain ⟨row, hrow, hsig⟩ := List.mem_map.mp hmem
    obtain ⟨text, -, htag⟩ := hsigned row hrow
    rw [htag, SqlValue.text.injEq] at hsig
    exact sign_ne_genesis hmac key text hsig
  · have hids : (t.columns.map Row.receiptId).Nodup := by
      have hunique := t.unique
      rwa [Table.columns, List.map_map]
    exact (List.Nodup.of_map _ hids).map_on
      (fun a ha b hb => sig_injOn hmac key t.columns hcollision hsigned a b ha hb)

/-- Every signed row of the content has the body of a row the log has written. -/
def NoForgery (hmac : HmacSha256) (key : Bytes) (written content : List (Row F)) : Prop :=
  ∀ row ∈ content, ∀ text, row.bodyText = some text → row.sig = .text (sign hmac key text) →
    encode text ∈ bodies written

/-- Rows that are linked and signed are a beginning of a log that has written their bodies. -/
theorem prefix_of_chained {hmac : HmacSha256} {key : Bytes} {t : Table F} {rows : List (Row F)}
    (ht : Chained hmac key t.columns) (hrows : Chained hmac key rows)
    (hforgery : NoForgery hmac key t.columns rows)
    (hcollision : hmac.NoCollision key {message | message ∈ bodies t.columns}) :
    rows <+: t.columns := by
  refine prefix_of_linked Row.prevSig Row.sig (.text genesis) _ _ ht.1
    (labels_nodup hmac key t hcollision ht.2) hrows.1 fun row hrow => ?_
  obtain ⟨text, hbody, hsig⟩ := hrows.2 row hrow
  obtain ⟨written, hwritten, text', hbody', htext⟩ :=
    (mem_bodies _ _).mp (hforgery row hrow text hbody hsig)
  obtain rfl := encode_injective htext
  obtain ⟨other, hother, hsig'⟩ := ht.2 written hwritten
  obtain rfl := Option.some.inj (hbody'.symm.trans hother)
  exact eq_of_bodyText row written text' hbody hbody' (hsig.trans hsig'.symm) ▸ hwritten

/-- Whatever is left in the table, an accepting walk has read a beginning of the log. -/
theorem verifyChain_prefix [DecidableEq F] (hmac : HmacSha256) (key : Bytes)
    (history : List (Emission F)) (content : List (ℤ × Row F)) (head : String)
    (hforgery : NoForgery hmac key (emitAll hmac key Table.empty history).columns
      (inOrder content))
    (hcollision : hmac.NoCollision key
      {message | message ∈ bodies (emitAll hmac key Table.empty history).columns})
    (h : verifyChain hmac key content = .ok (true, head)) :
    inOrder content <+: (emitAll hmac key Table.empty history).columns := by
  have hempty : Chained hmac key (Table.empty (F := F)).columns := ⟨trivial, by simp [Table.empty,
    Table.columns]⟩
  have hlog := chained_emitAll hmac key Table.empty history hempty
  have hcontent := ((verifyChain_iff hmac key content head).mp h).1
  exact prefix_of_chained hlog hcontent hforgery hcollision

def sampleKey : Bytes := List.replicate 32 7

def sampleEmission (n : ℕ) : Emission WholeFloat :=
  ⟨hex [UInt8.ofNat n], ⟨n⟩, "SHARD_READ", "m", "ann", .obj [("shard", .int n)]⟩

def sampleLog : Table WholeFloat :=
  emitAll HmacSha256.sample sampleKey Table.empty [sampleEmission 1, sampleEmission 2]

/-- The second row is gone and the first one has a new number. -/
def truncatedLog : List (ℤ × Row WholeFloat) := (sampleLog.columns.take 1).map (fun row => (7, row))

theorem truncatedLog_accepted : ∃ head,
    verifyChain HmacSha256.sample sampleKey truncatedLog = .ok (true, head) := by
  have hverify : (verifyChain HmacSha256.sample sampleKey truncatedLog).toOption.map Prod.fst =
      some true := by decide +kernel
  cases hresult : verifyChain HmacSha256.sample sampleKey truncatedLog with
  | error e =>
    rw [hresult] at hverify
    cases hverify
  | ok result =>
    rw [hresult] at hverify
    exact ⟨result.2, congrArg Except.ok (Prod.ext (Option.some.inj hverify) rfl)⟩

theorem truncatedLog_genuine :
    NoForgery HmacSha256.sample sampleKey sampleLog.columns (inOrder truncatedLog) := by
  intro row hrow text hbody _
  have hmem : row ∈ sampleLog.columns.take 1 := by
    simpa [mem_inOrder, truncatedLog] using hrow
  exact (mem_bodies _ _).mpr ⟨row, List.mem_of_mem_take hmem, text, hbody, rfl⟩

theorem verifyChain_prefix_truncated :
    (∃ head, verifyChain HmacSha256.sample sampleKey truncatedLog = .ok (true, head)) ∧
      inOrder truncatedLog <+: sampleLog.columns := by
  obtain ⟨head, hverify⟩ := truncatedLog_accepted
  exact ⟨⟨head, hverify⟩, verifyChain_prefix HmacSha256.sample sampleKey
    [sampleEmission 1, sampleEmission 2] truncatedLog head truncatedLog_genuine
    (HmacSha256.noCollision_of_list _ _ _ (by decide +kernel)) hverify⟩

end Decillion.ReceiptChains
