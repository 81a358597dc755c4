import Decillion.MerkleTrees
import Mathlib.Data.Nat.Bitwise

/-!
Paths through a hash tree whose odd levels repeat their last node. A path has one step a
level: the sibling of a node and the side on which it stands. The sides spell a position
below the root, which may lie in the padding and then stands for the leaf that is repeated
there. The path of a leaf folds to the root, and if the node hash does not collide on the
pairs that are hashed, a path that folds to the root starts at the leaf of its position.
-/
namespace Decillion.MerklePaths

open MerkleTrees

variable {D : Type*} (node : D → D → D)

/-- The siblings above a place of a level; `none` when there is no sibling. -/
def siblings : ℕ → List D → ℕ → Option (List (D × String))
  | 0, _, _ => some []
  | fuel + 1, level, cursor =>
      if level.length ≤ 1 then some []
      else do
        let sibling ← (pad level)[cursor ^^^ 1]?
        let above ← siblings fuel (nextLevel node level) (cursor / 2)
        return (sibling, if cursor % 2 = 0 then "right" else "left") :: above

def joined (current : D) (step : D × String) : D :=
  if step.2 = "right" then node current step.1 else node step.1 current

def fold (current : D) (path : List (D × String)) : D := path.foldl (joined node) current

/-- The pairs that are hashed along a path. -/
def foldedPairs : D → List (D × String) → List (D × D)
  | _, [] => []
  | current, step :: path =>
      (if step.2 = "right" then (current, step.1) else (step.1, current)) ::
        foldedPairs (joined node current step) path

/-- The position that the sides spell, the lowest level first. -/
def position : List (D × String) → ℕ
  | [] => 0
  | step :: path => (if step.2 = "right" then 0 else 1) + 2 * position path

/-- The leaf of `n` leaves that stands at a position, which may lie in the padding. -/
def leafAt : ℕ → ℕ → ℕ → ℕ
  | 0, _, _ => 0
  | fuel + 1, n, place =>
      if n ≤ 1 then 0 else min (2 * leafAt fuel ((n + 1) / 2) (place / 2) + place % 2) (n - 1)

/-- The number of levels above `n` leaves. -/
def levels : ℕ → ℕ → ℕ
  | 0, _ => 0
  | fuel + 1, n => if n ≤ 1 then 0 else levels fuel ((n + 1) / 2) + 1

theorem leafAt_lt (fuel n place : ℕ) (hn : 0 < n) : leafAt fuel n place < n := by
  cases fuel with
  | zero => exact hn
  | succ fuel =>
    unfold leafAt
    split
    · exact hn
    · omega

/-- A position outside the padding stands for its own leaf. -/
theorem leafAt_of_lt (fuel n place : ℕ) (hfuel : n ≤ fuel) (hplace : place < n) :
    leafAt fuel n place = place := by
  induction fuel generalizing n place with
  | zero => omega
  | succ fuel ih =>
    unfold leafAt
    split
    · omega
    · rw [ih ((n + 1) / 2) (place / 2) (by omega) (by omega)]
      omega

theorem getElem?_adjacent (level : List D) (i : ℕ) (p : D × D) :
    (adjacent level)[i]? = some p ↔
      level[2 * i]? = some p.1 ∧ level[2 * i + 1]? = some p.2 := by
  induction level using adjacent.induct generalizing i with
  | case1 a b rest ih =>
    cases i with
    | zero => simp [adjacent, Prod.ext_iff]
    | succ i =>
      simp only [adjacent, List.getElem?_cons_succ, ih, Nat.mul_add]
  | case2 level hlevel =>
    rcases level with _ | ⟨a, _ | ⟨b, rest⟩⟩
    · simp [adjacent]
    · simp [adjacent]
    · exact absurd rfl (hlevel a b rest)

theorem getElem?_pad (level : List D) (i : ℕ) (hi : i < (pad level).length) :
    (pad level)[i]? = level[min i (level.length - 1)]? := by
  rw [pad_length] at hi
  unfold pad
  split
  · rename_i hodd
    by_cases hlast : i < level.length
    · rw [List.getElem?_append_left hlast, min_eq_left (by omega)]
    · rw [List.getElem?_append_right (by omega), min_eq_right (by omega),
        ← List.getLast?_eq_getElem?]
      have hzero : i - level.length = 0 := by omega
      rw [hzero]
      cases level.getLast? <;> rfl
  · rw [min_eq_left (by omega)]

/-- Two neighbours and the node over them. -/
theorem getElem?_nextLevel (level : List D) (i : ℕ) (d : D) :
    (nextLevel node level)[i]? = some d ↔ ∃ a b, (pad level)[2 * i]? = some a ∧
      (pad level)[2 * i + 1]? = some b ∧ node a b = d := by
  rw [nextLevel, List.getElem?_map, Option.map_eq_some_iff]
  constructor
  · rintro ⟨p, hp, rfl⟩
    obtain ⟨ha, hb⟩ := (getElem?_adjacent _ _ _).mp hp
    exact ⟨p.1, p.2, ha, hb, rfl⟩
  · rintro ⟨a, b, ha, hb, rfl⟩
    exact ⟨(a, b), (getElem?_adjacent _ _ _).mpr ⟨ha, hb⟩, rfl⟩

theorem siblings_length (fuel : ℕ) (level : List D) (cursor : ℕ) (path : List (D × String))
    (h : siblings node fuel level cursor = some path) : path.length = levels fuel level.length := by
  induction fuel generalizing level cursor path with
  | zero =>
    obtain rfl : path = [] := by simpa [siblings] using h.symm
    rfl
  | succ fuel ih =>
    unfold siblings at h
    unfold levels
    split at h
    · rename_i hshort
      obtain rfl : path = [] := by simpa using h.symm
      rw [if_pos hshort]
      rfl
    · rename_i hlong
      obtain ⟨sibling, -, h⟩ := Option.bind_eq_some_iff.mp h
      obtain ⟨above, habove, h⟩ := Option.bind_eq_some_iff.mp h
      obtain rfl := Option.some.inj h
      rw [if_neg hlong, List.length_cons, ih _ _ above habove, nextLevel_length]

/-- The path of a leaf folds to the root. -/
theorem fold_siblings (fuel : ℕ) (level : List D) (cursor : ℕ) (x : D)
    (hfuel : level.length ≤ fuel) (hx : level[cursor]? = some x) :
    ∃ path, siblings node fuel level cursor = some path ∧
      climb node fuel level = [fold node x path] := by
  obtain ⟨hcursor, -⟩ := List.getElem?_eq_some_iff.mp hx
  induction fuel generalizing level cursor x with
  | zero => omega
  | succ fuel ih =>
    unfold siblings climb
    split
    · rename_i hshort
      obtain ⟨y, rfl⟩ := List.length_eq_one_iff.mp (show level.length = 1 by omega)
      obtain rfl : cursor = 0 := by simpa using hcursor
      obtain rfl : y = x := by simpa using hx
      exact ⟨[], rfl, rfl⟩
    · rename_i hlong
      have hpadded := pad_length level
      have hx' : (pad level)[cursor]? = some x := by
        rw [getElem?_pad level cursor (by omega), min_eq_left (by omega), hx]
      have hnext := nextLevel_length node level
      rcases Nat.mod_two_eq_zero_or_one cursor with heven | hodd
      · have hsibling : (pad level)[cursor ^^^ 1]? = some (pad level)[cursor + 1] := by
          rw [Nat.xor_one_of_even (Nat.even_iff.mpr heven), List.getElem?_eq_getElem (by omega)]
        have hjoined : (nextLevel node level)[cursor / 2]? =
            some (node x (pad level)[cursor + 1]) := by
          refine (getElem?_nextLevel node level _ _).mpr ⟨x, (pad level)[cursor + 1], ?_, ?_, rfl⟩
          · rwa [show 2 * (cursor / 2) = cursor by omega]
          · rw [show 2 * (cursor / 2) + 1 = cursor + 1 by omega, List.getElem?_eq_getElem]
        obtain ⟨path, hpath, hroot⟩ := ih _ _ _ (by omega) hjoined (by omega)
        refine ⟨((pad level)[cursor + 1], "right") :: path, ?_, hroot⟩
        rw [hsibling, hpath, if_pos heven]
        rfl
      · have hsibling : (pad level)[cursor ^^^ 1]? = some (pad level)[cursor - 1] := by
          rw [Nat.xor_one_of_odd (Nat.odd_iff.mpr hodd), List.getElem?_eq_getElem (by omega)]
        have hjoined : (nextLevel node level)[cursor / 2]? =
            some (node (pad level)[cursor - 1] x) := by
          refine (getElem?_nextLevel node level _ _).mpr ⟨(pad level)[cursor - 1], x, ?_, ?_, rfl⟩
          · rw [show 2 * (cursor / 2) = cursor - 1 by omega, List.getElem?_eq_getElem]
          · rwa [show 2 * (cursor / 2) + 1 = cursor by omega]
        obtain ⟨path, hpath, hroot⟩ := ih _ _ _ (by omega) hjoined (by omega)
        refine ⟨((pad level)[cursor - 1], "left") :: path, ?_, hroot⟩
        rw [hsibling, hpath, if_neg (by omega)]
        rfl

/-- A path as long as the tree is high that folds to the root starts at the leaf of its
position. -/
theorem leaf_of_fold {P : Set (D × D)} (hinj : Set.InjOn (fun p : D × D => node p.1 p.2) P)
    (fuel : ℕ) (level : List D) (path : List (D × String)) (x : D) (hne : level ≠ [])
    (hfuel : level.length ≤ fuel) (hlength : path.length = levels fuel level.length)
    (htree : ∀ p ∈ hashedPairs node fuel level, p ∈ P)
    (hpath : ∀ p ∈ foldedPairs node x path, p ∈ P)
    (h : climb node fuel level = [fold node x path]) :
    level[leafAt fuel level.length (position path)]? = some x := by
  have hpos := List.length_pos_iff.mpr hne
  induction fuel generalizing level path x with
  | zero => omega
  | succ fuel ih =>
    unfold levels at hlength
    unfold climb at h
    unfold hashedPairs at htree
    unfold leafAt
    split
    · rename_i hshort
      rw [if_pos hshort, List.length_eq_zero_iff] at hlength
      rw [if_pos hshort, hlength] at h
      rw [h]
      rfl
    · rename_i hlong
      rw [if_neg hlong] at hlength h htree
      obtain ⟨step, path, rfl⟩ := List.exists_cons_of_length_eq_add_one hlength
      rw [List.length_cons, Nat.add_right_cancel_iff, ← nextLevel_length node level] at hlength
      have hnext := nextLevel_length node level
      have hpadded := pad_length level
      have hplace := ih (nextLevel node level) path (joined node x step)
        (nextLevel_ne_nil node level hne) (by omega) hlength
        (fun p hp => htree p (List.mem_append_right _ hp))
        (fun p hp => hpath p (List.mem_cons_of_mem _ hp)) h
        (List.length_pos_iff.mpr (nextLevel_ne_nil node level hne))
      have hlt := leafAt_lt fuel (nextLevel node level).length (position path) (by omega)
      obtain ⟨a, b, ha, hb, hjoined⟩ := (getElem?_nextLevel node level _ _).mp hplace
      have hpair : (a, b) ∈ P := htree _ (List.mem_append_left _ (List.mem_of_getElem?
        ((getElem?_adjacent _ _ _).mpr ⟨ha, hb⟩)))
      have hstep := hpath _ List.mem_cons_self
      rw [hnext] at ha hb hlt
      unfold position
      unfold joined at hjoined
      split at hjoined
      · rename_i hright
        rw [if_pos hright] at hstep ⊢
        obtain ⟨rfl, -⟩ := Prod.mk.inj (hinj hpair hstep hjoined)
        rw [getElem?_pad level _ (by omega)] at ha
        rwa [show (0 + 2 * position path) / 2 = position path by omega,
          show (0 + 2 * position path) % 2 = 0 by omega, Nat.add_zero]
      · rename_i hleft
        rw [if_neg hleft] at hstep ⊢
        obtain ⟨-, rfl⟩ := Prod.mk.inj (hinj hpair hstep hjoined)
        rw [getElem?_pad level _ (by omega)] at hb
        rwa [show (1 + 2 * position path) / 2 = position path by omega,
          show (1 + 2 * position path) % 2 = 1 by omega]

end Decillion.MerklePaths
