import Decillion.JsonRoundTrip
import Decillion.LinkedLogs
import Decillion.Primitives

/-!
The audit log of the vault: a table of receipts in which every row carries the tag of its
predecessor and a tag over its own columns. `emit` reads the newest tag and inserts one
row; `verifyChain` walks over the rows in the order of their sequence numbers. What an
accepting walk says is stated once, for any content of the table, as a linked log whose
rows carry valid tags.
-/
namespace Decillion.VaultReceipts

open ByteText JsonValues JsonText JsonRoundTrip LinkedLogs Primitives

/-- A value of a SQLite column as Python reads it. -/
inductive SqlValue (F : Type) where
  | null
  | integer (n : ℤ)
  | real (x : F)
  | text (s : String)
  | blob (b : Bytes)
deriving DecidableEq

structure Row (F : Type) where
  receiptId : SqlValue F
  ts : SqlValue F
  kind : SqlValue F
  modelId : SqlValue F
  actor : SqlValue F
  payloadJson : SqlValue F
  prevSig : SqlValue F
  sig : SqlValue F
deriving DecidableEq

/-- The exceptions of a chain operation. -/
inductive ReceiptError where
  | typeError
  | integrityError
deriving DecidableEq

variable {F : Type}

/-- The encoder refuses byte strings. -/
def SqlValue.toJson : SqlValue F → Option (Json F)
  | .null => some .null
  | .integer n => some (.int n)
  | .real x => some (.float x)
  | .text s => some (.str s)
  | .blob _ => none

def isText (previous : String) : SqlValue F → Bool
  | .text s => s = previous
  | _ => false

theorem isText_iff (previous : String) (v : SqlValue F) :
    isText previous v = true ↔ v = .text previous := by
  cases v <;> simp [isText]

theorem toJson_injective (a b : SqlValue F) (j : Json F) (ha : a.toJson = some j)
    (hb : b.toJson = some j) : a = b := by
  cases a <;> cases b <;> simp_all [SqlValue.toJson] <;> grind

theorem distinctKeys_toJson (v : SqlValue F) (j : Json F) (h : v.toJson = some j) :
    DistinctKeys j := by
  cases v <;> simp only [SqlValue.toJson, Option.some.injEq, reduceCtorEq] at h <;> subst h <;>
    trivial

variable [FloatText F]

def floatRepr (x : F) : String :=
  if FloatText.text x = "NaN".toList then "nan"
  else if FloatText.text x = "Infinity".toList then "inf"
  else if FloatText.text x = "-Infinity".toList then "-inf"
  else String.ofList (FloatText.text x)

def reprByte (quote : Char) (b : UInt8) : List Char :=
  let c := Char.ofNat b.toNat
  if c = quote ∨ c = '\\' then ['\\', c]
  else if c = '\t' then ['\\', 't']
  else if c = '\n' then ['\\', 'n']
  else if c = '\r' then ['\\', 'r']
  else if b.toNat < 32 ∨ 126 < b.toNat then '\\' :: 'x' :: hexByte b
  else [c]

/-- `repr` of a byte string; 34 and 39 are the two quotation marks. -/
def bytesRepr (b : Bytes) : String :=
  let quote := Char.ofNat (if 39 ∈ b ∧ 34 ∉ b then 34 else 39)
  String.ofList ('b' :: quote :: (b.flatMap (reprByte quote) ++ [quote]))

/-- The value inside a formatted string. -/
def SqlValue.str : SqlValue F → String
  | .null => "None"
  | .integer n => toString n
  | .real x => floatRepr x
  | .text s => s
  | .blob b => bytesRepr b

def body (receiptId timestamp kind modelId actor payloadJson previous : SqlValue F) :
    Option String :=
  ([receiptId, timestamp, kind, modelId, actor, payloadJson, previous].mapM SqlValue.toJson).map
    (fun items => dumps compact (.list items))

def sign (hmac : HmacSha256) (key : Bytes) (text : String) : String :=
  hmac.hexdigest key (encode text)

def Row.bodyText (row : Row F) : Option String :=
  body row.receiptId row.ts row.kind row.modelId row.actor row.payloadJson row.prevSig

/-- The loop of `verify_chain` over the rows that are left. -/
def verifyRows (hmac : HmacSha256) (key : Bytes) (previous : String) :
    List (Row F) → Except ReceiptError (Bool × String)
  | [] => .ok (true, previous)
  | row :: rest =>
      if isText previous row.prevSig = false then
        .ok (false, "chain break at " ++ row.receiptId.str)
      else match row.bodyText, row.sig with
        | some text, .text sig =>
            -- the comparison of digests takes texts in ASCII only
            if isAscii sig = false then .error .typeError
            else if sign hmac key text = sig then verifyRows hmac key sig rest
            else .ok (false, "bad signature at " ++ row.receiptId.str)
        | _, _ => .error .typeError

def genesis : String := "genesis"

/-- The rows of a table, whatever is in it, `ORDER BY seq`. -/
def inOrder (content : List (ℤ × Row F)) : List (Row F) :=
  (content.insertionSort (fun a b => a.1 ≤ b.1)).map Prod.snd

def verifyChain (hmac : HmacSha256) (key : Bytes) (content : List (ℤ × Row F)) :
    Except ReceiptError (Bool × String) :=
  verifyRows hmac key genesis (inOrder content)

/-- The table as only inserts leave it: growing sequence numbers and unique receipt ids. -/
structure Table (F : Type) where
  rows : List (ℤ × Row F)
  lastSeq : ℤ
  increasing : rows.Pairwise (fun a b => a.1 < b.1)
  bounded : ∀ p ∈ rows, p.1 ≤ lastSeq
  unique : (rows.map (fun p => p.2.receiptId)).Nodup

def Table.empty : Table F := ⟨[], 0, List.Pairwise.nil, by simp, by simp⟩

def Table.columns (t : Table F) : List (Row F) := t.rows.map Prod.snd

/-- `SELECT sig FROM receipts ORDER BY seq DESC LIMIT 1`, "genesis" when there is no row. -/
def Table.newestSig (t : Table F) : SqlValue F :=
  match t.columns.getLast? with
  | none => .text genesis
  | some row => row.sig

/-- The insert fails when the receipt id is taken. -/
def Table.insert [DecidableEq F] (t : Table F) (row : Row F) : Option (Table F) :=
  if hfresh : row.receiptId ∉ t.rows.map (fun p => p.2.receiptId) then
    some
      { rows := t.rows ++ [(t.lastSeq + 1, row)]
        lastSeq := t.lastSeq + 1
        increasing := by
          rw [List.pairwise_append]
          refine ⟨t.increasing, List.pairwise_singleton _ _, ?_⟩
          intro a ha b hb
          rw [List.mem_singleton.mp hb]
          exact Int.lt_add_one_of_le (t.bounded a ha)
        bounded := by
          intro p hp
          rcases List.mem_append.mp hp with hp | hp
          · exact (t.bounded p hp).trans (by omega)
          · rw [List.mem_singleton.mp hp]
        unique := by
          rw [List.map_append, List.nodup_append]
          refine ⟨t.unique, by simp, ?_⟩
          rintro a ha b hb rfl
          exact hfresh (by simpa [List.mem_singleton.mp hb] using ha) }
  else none

/-- One call of `emit` with the random id and the clock value it draws. -/
structure Emission (F : Type) where
  receiptId : String
  timestamp : F
  kind : String
  modelId : String
  actor : String
  payload : Json F

/-- The row a call inserts after it has read `previous`. -/
def Emission.row (hmac : HmacSha256) (key : Bytes) (e : Emission F) (previous : SqlValue F) :
    Option (Row F) :=
  let payloadJson := dumpsSorted compact e.payload
  (body (.text e.receiptId) (.real e.timestamp) (.text e.kind) (.text e.modelId) (.text e.actor)
    (.text payloadJson) previous).map (fun text =>
      { receiptId := .text e.receiptId
        ts := .real e.timestamp
        kind := .text e.kind
        modelId := .text e.modelId
        actor := .text e.actor
        payloadJson := .text payloadJson
        prevSig := previous
        sig := .text (sign hmac key text) })

/-- The second half of `emit`: the row over the tag read before is signed and inserted. -/
def insertReceipt [DecidableEq F] (hmac : HmacSha256) (key : Bytes) (t : Table F)
    (e : Emission F) (previous : SqlValue F) : Except ReceiptError (Table F) :=
  match e.row hmac key previous with
  | none => .error .typeError
  | some row =>
      match t.insert row with
      | none => .error .integrityError
      | some t => .ok t

def emit [DecidableEq F] (hmac : HmacSha256) (key : Bytes) (t : Table F) (e : Emission F) :
    Except ReceiptError (Table F × String) :=
  (insertReceipt hmac key t e t.newestSig).map (fun t => (t, e.receiptId))

/-- Calls made one after another; a call that raises leaves the table as it was. -/
def emitAll [DecidableEq F] (hmac : HmacSha256) (key : Bytes) (t : Table F)
    (history : List (Emission F)) : Table F :=
  history.foldl (fun t e =>
    match emit hmac key t e with
    | .ok (t', _) => t'
    | .error _ => t) t

/-- The tag of the row is the tag of its body. -/
def Signed (hmac : HmacSha256) (key : Bytes) (row : Row F) : Prop :=
  ∃ text, row.bodyText = some text ∧ row.sig = .text (sign hmac key text)

theorem isAscii_hex (bytes : Bytes) : isAscii (hex bytes) = true := by
  rw [isAscii, chars_eq, hex, String.toList_ofList, List.all_eq_true]
  intro c hc
  obtain ⟨d, hd, rfl⟩ := mem_hexChars bytes c hc
  have hsmall : ∀ d, d < 16 → (Nat.digitChar d).toNat < 128 := by decide
  exact decide_eq_true (hsmall d hd)

theorem sign_ne_genesis (hmac : HmacSha256) (key : Bytes) (text : String) :
    sign hmac key text ≠ genesis := by
  intro h
  have hlength := hmac.hexdigest_length key (encode text)
  rw [sign] at h
  rw [h] at hlength
  exact absurd hlength (by decide)

theorem verifyRows_cons (hmac : HmacSha256) (key : Bytes) (previous head : String) (row : Row F)
    (rest : List (Row F)) :
    verifyRows hmac key previous (row :: rest) = .ok (true, head) ↔
      row.prevSig = .text previous ∧ ∃ text, row.bodyText = some text ∧
        row.sig = .text (sign hmac key text) ∧
        verifyRows hmac key (sign hmac key text) rest = .ok (true, head) := by
  constructor
  · intro h
    unfold verifyRows at h
    split at h
    · simp at h
    · rename_i hprev
      have hprev := (isText_iff previous row.prevSig).mp (by simpa using hprev)
      split at h
      · rename_i text sig hbody hsig
        split at h
        · simp at h
        · split at h
          · rename_i heq
            exact ⟨hprev, text, hbody, by rw [heq, hsig], by rw [heq]; exact h⟩
          · simp at h
      · simp at h
  · rintro ⟨hprev, text, hbody, hsig, hrest⟩
    have hascii : isAscii (sign hmac key text) = true := isAscii_hex _
    have htext : isText previous row.prevSig = true := (isText_iff _ _).mpr hprev
    simp [verifyRows, htext, hbody, hsig, hascii, hrest]

/-- The walk accepts exactly the linked lists of rows with valid tags. -/
theorem verifyRows_iff (hmac : HmacSha256) (key : Bytes) (previous head : String)
    (rows : List (Row F)) :
    verifyRows hmac key previous rows = .ok (true, head) ↔
      Linked Row.prevSig Row.sig (.text previous) rows ∧ (∀ row ∈ rows, Signed hmac key row) ∧
        headAfter Row.sig (.text previous) rows = .text head := by
  induction rows generalizing previous with
  | nil => simp [verifyRows, Linked, headAfter]
  | cons row rest ih =>
    rw [verifyRows_cons]
    simp only [ih, Linked, headAfter, List.forall_mem_cons]
    constructor
    · rintro ⟨hprev, text, hbody, hsig, hlinked, hsigned, hhead⟩
      rw [hsig]
      exact ⟨⟨hprev, hlinked⟩, ⟨⟨text, hbody, hsig⟩, hsigned⟩, hhead⟩
    · rintro ⟨⟨hprev, hlinked⟩, ⟨⟨text, hbody, hsig⟩, hsigned⟩, hhead⟩
      rw [hsig] at hlinked hhead
      exact ⟨hprev, text, hbody, hsig, hlinked, hsigned, hhead⟩

end Decillion.VaultReceipts
