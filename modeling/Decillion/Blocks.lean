import Mathlib.Algebra.Order.Floor.Div
import Mathlib.Data.List.Basic
import Mathlib.Tactic.Common

/-!
The blocks a file is read in. Every block but the last one is full, their concatenation is
the content and the blocks are the consecutive slices of the content.
-/
namespace Decillion.Blocks

variable {α : Type*}

/-- The blocks that repeated reads of `size` items return, until a read returns none. -/
def chunks (size : ℕ) : ℕ → List α → List (List α)
  | 0, _ => []
  | fuel + 1, content =>
      if content.isEmpty then [] else content.take size :: chunks size fuel (content.drop size)

def blocks (size : ℕ) (content : List α) : List (List α) := chunks size content.length content

theorem chunks_cons (size fuel : ℕ) (content : List α) (hne : content ≠ []) :
    chunks size (fuel + 1) content = content.take size :: chunks size fuel (content.drop size) := by
  rw [chunks, if_neg (by simpa using hne)]

theorem chunks_nil (size fuel : ℕ) : chunks size fuel ([] : List α) = [] := by
  cases fuel <;> rfl

theorem flatten_chunks (size fuel : ℕ) (content : List α) (hsize : 0 < size)
    (hfuel : content.length ≤ fuel) : (chunks size fuel content).flatten = content := by
  induction fuel generalizing content with
  | zero => rw [List.length_eq_zero_iff.mp (by omega : content.length = 0)]; rfl
  | succ fuel ih =>
    by_cases hne : content = []
    · rw [hne, chunks_nil]
      rfl
    · have hpos := List.length_pos_iff.mpr hne
      rw [chunks_cons size fuel content hne, List.flatten_cons, ih _ (by simp; omega),
        List.take_append_drop]

theorem length_chunks (size fuel : ℕ) (content : List α) (hsize : 0 < size)
    (hfuel : content.length ≤ fuel) :
    (chunks size fuel content).length = content.length ⌈/⌉ size := by
  rw [Nat.ceilDiv_eq_add_pred_div]
  induction fuel generalizing content with
  | zero =>
    rw [List.length_eq_zero_iff.mp (by omega : content.length = 0)]
    simp [chunks]
    exact (Nat.div_eq_of_lt (by omega)).symm
  | succ fuel ih =>
    by_cases hne : content = []
    · rw [hne, chunks_nil]
      simp
      exact (Nat.div_eq_of_lt (by omega)).symm
    · have hpos := List.length_pos_iff.mpr hne
      rw [chunks_cons size fuel content hne, List.length_cons, ih _ (by simp; omega),
        List.length_drop]
      by_cases hlong : size ≤ content.length
      · rw [show content.length + size - 1 = (content.length - size + size - 1) + size by omega,
          Nat.add_div_right _ hsize]
      · rw [show content.length - size + size - 1 = size - 1 by omega,
          show content.length + size - 1 = (content.length - 1) + size by omega,
          Nat.add_div_right _ hsize, Nat.div_eq_of_lt (by omega), Nat.div_eq_of_lt (by omega)]

theorem getElem?_chunks (size fuel : ℕ) (content : List α) (hsize : 0 < size)
    (hfuel : content.length ≤ fuel) (i : ℕ) (hi : i * size < content.length) :
    (chunks size fuel content)[i]? = some ((content.drop (i * size)).take size) := by
  induction fuel generalizing content i with
  | zero => omega
  | succ fuel ih =>
    have hne : content ≠ [] := List.length_pos_iff.mp (by omega)
    rw [chunks_cons size fuel content hne]
    cases i with
    | zero => simp
    | succ i =>
      rw [Nat.succ_mul] at hi
      rw [List.getElem?_cons_succ, ih _ (by simp; omega) i (by simp; omega), List.drop_drop,
        Nat.succ_mul, Nat.add_comm size]

theorem flatten_blocks (size : ℕ) (content : List α) (hsize : 0 < size) :
    (blocks size content).flatten = content :=
  flatten_chunks size _ content hsize le_rfl

/-- As many blocks as the length divided by the size, rounded up. -/
theorem length_blocks (size : ℕ) (content : List α) (hsize : 0 < size) :
    (blocks size content).length = content.length ⌈/⌉ size :=
  length_chunks size _ content hsize le_rfl

theorem getElem?_blocks (size : ℕ) (content : List α) (hsize : 0 < size) (i : ℕ)
    (hi : i < (blocks size content).length) :
    (blocks size content)[i]? = some ((content.drop (i * size)).take size) := by
  apply getElem?_chunks size _ content hsize le_rfl
  rw [length_blocks size content hsize, Nat.ceilDiv_eq_add_pred_div] at hi
  have hmul := Nat.mul_le_of_le_div _ _ _ hi
  rw [Nat.succ_mul] at hmul
  omega

theorem blocks_eq_nil (size : ℕ) (content : List α) :
    blocks size content = [] ↔ content = [] := by
  constructor
  · intro h
    by_contra hne
    obtain ⟨n, hn⟩ := Nat.exists_eq_succ_of_ne_zero (List.length_pos_iff.mpr hne).ne'
    rw [blocks, hn, chunks_cons size n content hne] at h
    exact absurd h (by simp)
  · rintro rfl
    rfl

end Decillion.Blocks
