import Decillion.IsoTimes
import Decillion.StorageGateway
import Mathlib.Data.List.Perm.Basic

/-!
The receipts of one owner as the catalog lists them. The database orders the texts of the
times octet by octet and answers with the first rows; rows with equal texts may stand in any
order. For times in UTC the answer has the newest receipts of the owner, newest first.
-/
namespace Decillion.OwnerListings

open ByteText IsoTimes JsonStrings PyErrors StorageReceipts StorageGateway

/-- The column `owner` of a row. -/
def ownerOf (columns : List String) : String := columns.getD 1 ""

/-- The column `created_at` of a row. -/
def createdAtOf (columns : List String) : String := columns.getD 3 ""

/-- `min(max(limit, 1), 1000)` -/
def clampLimit (limit : ℤ) : ℕ := (min (max limit 1) 1000).toNat

/-- What `ORDER BY created_at DESC LIMIT ?` may answer for the rows of an owner. -/
def Selects (rows : List (List String)) (owner : String) (limit : ℕ)
    (selected : List (List String)) : Prop :=
  ∃ ordered :
    List (List String), ordered.Perm (rows.filter (fun columns => ownerOf columns = owner)) ∧
    ordered.Pairwise
      (fun a b => ¬ encode (createdAtOf a) < encode (createdAtOf b)) ∧
    selected = ordered.take limit

/-- What `ReceiptCatalog.list_owner` may return or raise. -/
def ListsOwner (rows : List (List String)) (owner : String) (limit : ℤ)
    (result : Except PyError (List Receipt)) : Prop :=
  ∃ selected, Selects rows owner (clampLimit limit) selected ∧ result = selected.mapM readRow

/-- The order of the rows in which those with equal texts stay as they are. -/
def newestFirst (rows : List (List String)) (owner : String) : List (List String) :=
  (rows.filter (fun columns => ownerOf columns = owner)).mergeSort
    (fun a b => !decide (encode (createdAtOf a) < encode (createdAtOf b)))

def listOwner (rows : List (List String)) (owner : String) (limit : ℤ) :
    Except PyError (List Receipt) :=
  ((newestFirst rows owner).take (clampLimit limit)).mapM readRow

theorem mapM_readRow (receipts : List Receipt) :
    (receipts.map row).mapM readRow = .ok receipts := by
  induction receipts with
  | nil => rfl
  | cons receipt rest ih =>
    rw [List.map_cons, List.mapM_cons, readRow_row, ok_bind, ih, ok_bind]
    rfl

/-- The order in which the receipts of one text keep their places is one of the answers. -/
theorem listsOwner_listOwner (rows : List (List String)) (owner : String) (limit : ℤ) :
    ListsOwner rows owner limit (listOwner rows owner limit) := by
  refine ⟨_, ⟨newestFirst rows owner, List.mergeSort_perm _ _, ?_, rfl⟩, rfl⟩
  let later : List String → List String → Bool :=
    fun a b => !decide (encode (createdAtOf a) < encode (createdAtOf b))
  have hsorted : ((rows.filter (fun columns => ownerOf columns = owner)).mergeSort later).Pairwise
      (fun a b => later a b = true) :=
    List.pairwise_mergeSort (fun a b c hab hbc => ?_) (fun a b => ?_) _
  · exact hsorted.imp (fun h => by simpa [later] using h)
  · simp only [later, Bool.not_eq_true', decide_eq_false_iff_not, List.not_lt] at hab hbc ⊢
    exact List.le_trans hbc hab
  · simp only [later, Bool.or_eq_true, Bool.not_eq_true', decide_eq_false_iff_not, List.not_lt]
    exact List.le_total _ _

variable {receipts : List Receipt} {owner : String} {limit : ℤ}

theorem filter_map_row (receipts : List Receipt) (owner : String) :
    (receipts.map row).filter (fun columns => ownerOf columns = owner) =
      (receipts.filter (fun receipt => receipt.owner = owner)).map row := by
  rw [List.filter_map]
  rfl

/-- The first receipt is not older than the second one. -/
def Newer (a b : Receipt) : Prop :=
  ∃ t u : Instant, a.createdAt = t.isoformat ∧ b.createdAt = u.isoformat ∧ u.micros ≤ t.micros

theorem newer_of_not_lt {a b : Receipt} (ha : ∃ t : Instant, a.createdAt = t.isoformat)
    (hb : ∃ u : Instant, b.createdAt = u.isoformat)
    (h : ¬ encode (createdAtOf (row a)) < encode (createdAtOf (row b))) : Newer a b := by
  obtain ⟨t, ht⟩ := ha
  obtain ⟨u, hu⟩ := hb
  have hlt := isoformat_lt_iff t u
  change ¬ encode a.createdAt < encode b.createdAt at h
  rw [ht, hu, hlt] at h
  exact ⟨t, u, ht, hu, by omega⟩

/-- For times in UTC the catalog lists the newest receipts of an owner, as many as the limit
allows, newest first, and leaves out none that is newer than one of them. -/
theorem listOwner_newest
    (htimes : ∀ receipt ∈ receipts, ∃ t : Instant, receipt.createdAt = t.isoformat)
    {result : Except PyError (List Receipt)}
    (h : ListsOwner (receipts.map row) owner limit result) :
    ∃ listed omitted, result = .ok listed ∧
      (listed ++ omitted).Perm (receipts.filter (fun receipt => receipt.owner = owner)) ∧
      listed.length = min (receipts.filter (fun receipt => receipt.owner = owner)).length
        (clampLimit limit) ∧
      listed.Pairwise Newer ∧ ∀ a ∈ listed, ∀ b ∈ omitted, Newer a b := by
  obtain ⟨selected, ⟨ordered, hperm, hsorted, rfl⟩, rfl⟩ := h
  rw [filter_map_row] at hperm
  have hcomp := congrFun (congrFun (List.eq_map_comp_perm row) ordered)
    (receipts.filter (fun receipt => receipt.owner = owner))
  obtain ⟨found, rfl, hfound⟩ := hcomp.mpr hperm
  have hknown : ∀ receipt ∈ found, ∃ t : Instant, receipt.createdAt = t.isoformat :=
    fun receipt hreceipt => htimes receipt (List.mem_of_mem_filter (hfound.mem_iff.mp hreceipt))
  have hnewer : found.Pairwise Newer := by
    refine ((List.pairwise_map.mp hsorted).imp_of_mem fun {a b} ha hb hab => ?_)
    exact newer_of_not_lt (hknown a ha) (hknown b hb) hab
  have hsplit := List.take_append_drop (clampLimit limit) found
  rw [← hsplit, List.pairwise_append] at hnewer
  obtain ⟨hlisted, -, hbetween⟩ := hnewer
  refine ⟨found.take (clampLimit limit), found.drop (clampLimit limit), ?_, ?_, ?_, hlisted,
    hbetween⟩
  · rw [← List.map_take, mapM_readRow]
  · rw [hsplit]
    exact hfound
  · rw [List.length_take, hfound.length_eq, min_comm]

theorem sampleYear_bounds : 1 ≤ 2025 ∧ 2025 ≤ 9999 := by decide

theorem sampleMonth_bounds : 1 ≤ 12 ∧ 12 ≤ 12 := by decide

theorem sampleDay_bounds : 1 ≤ 31 ∧ 31 ≤ daysInMonth 2025 12 := by decide

theorem sampleHour_lt : 23 < 24 := by decide

theorem sampleSecond_lt : 59 < 60 := by decide

/-- The last second of a year. -/
def lastSecond (micro : ℕ) (h : micro < 1000000) : Instant :=
  ⟨2025, 12, 31, 23, 59, 59, micro, sampleYear_bounds, sampleMonth_bounds, sampleDay_bounds,
    sampleHour_lt, sampleSecond_lt, sampleSecond_lt, h⟩

def sampleReceipt (objectId createdAt : String) : Receipt where
  version := 1
  objectId := objectId
  owner := "ann"
  originalNameHash := ""
  plaintextSize := 0
  ciphertextSize := 38
  createdAt := createdAt
  wrappedKey := ""
  signature := ""

/-- A receipt without a fraction and a newer one with a fraction. -/
def sampleCatalog : List Receipt :=
  [sampleReceipt "0" "2025-12-31T23:59:59+00:00",
    sampleReceipt "1" "2025-12-31T23:59:59.500000+00:00"]

theorem listOwner_newest_sample : ∃ listed omitted,
    listOwner (sampleCatalog.map row) "ann" 0 = .ok listed ∧
      (listed ++ omitted).Perm (sampleCatalog.filter (fun receipt => receipt.owner = "ann")) ∧
      listed.length = min (sampleCatalog.filter (fun receipt => receipt.owner = "ann")).length
        (clampLimit 0) ∧
      listed.Pairwise Newer ∧ ∀ a ∈ listed, ∀ b ∈ omitted, Newer a b := by
  refine listOwner_newest ?_ (listsOwner_listOwner _ _ _)
  intro receipt hreceipt
  simp only [sampleCatalog, List.mem_cons, List.not_mem_nil, or_false] at hreceipt
  rcases hreceipt with rfl | rfl
  · exact ⟨lastSecond 0 (by decide), by decide⟩
  · exact ⟨lastSecond 500000 (by decide), by decide⟩

end Decillion.OwnerListings
