import Mathlib.Data.List.Nodup
import Mathlib.Tactic.Common

/-!
Dictionaries with unique keys in the order of their insertion. Setting a key keeps its
place when it is there and appends it otherwise. Every operation is described by what
looking a key up gives afterwards.
-/
namespace Decillion.Dictionaries

structure Dict (κ ν : Type) where
  entries : List (κ × ν)
  nodup : (entries.map Prod.fst).Nodup

namespace Dict

variable {κ ν : Type}

def empty : Dict κ ν := ⟨[], List.nodup_nil⟩

def size (d : Dict κ ν) : ℕ := d.entries.length

def values (d : Dict κ ν) : List ν := d.entries.map Prod.snd

/-- The entries that satisfy a condition. -/
def filter (d : Dict κ ν) (p : κ → ν → Bool) : Dict κ ν where
  entries := d.entries.filter (fun e => p e.1 e.2)
  nodup := d.nodup.sublist (List.filter_sublist.map Prod.fst)

variable [DecidableEq κ]

def get? (d : Dict κ ν) (key : κ) : Option ν :=
  (d.entries.find? (fun e => e.1 = key)).map Prod.snd

def erase (d : Dict κ ν) (key : κ) : Dict κ ν := d.filter (fun k _ => k ≠ key)

/-- The value under a key, where there is one, is replaced. -/
def modify (d : Dict κ ν) (key : κ) (f : ν → ν) : Dict κ ν where
  entries := d.entries.map (fun e => if e.1 = key then (e.1, f e.2) else e)
  nodup := by
    have hkeys : (d.entries.map (fun e => if e.1 = key then (e.1, f e.2) else e)).map Prod.fst =
        d.entries.map Prod.fst := by
      rw [List.map_map]
      apply List.map_congr_left
      intro e _
      simp only [Function.comp_apply]
      split <;> rfl
    rw [hkeys]
    exact d.nodup

theorem mem_keys (d : Dict κ ν) (key : κ) :
    key ∈ d.entries.map Prod.fst ↔ (d.get? key).isSome = true := by
  simp [get?, List.find?_isSome]

def set (d : Dict κ ν) (key : κ) (value : ν) : Dict κ ν :=
  if h : (d.get? key).isSome = true then d.modify key (fun _ => value)
  else ⟨d.entries ++ [(key, value)], by
    rw [List.map_append, List.nodup_append]
    refine ⟨d.nodup, by simp, ?_⟩
    intro a ha b hb hab
    obtain rfl : b = key := by simpa using hb
    rw [hab] at ha
    exact h ((d.mem_keys b).mp ha)⟩

theorem get?_eq_some_iff (d : Dict κ ν) (key : κ) (value : ν) :
    d.get? key = some value ↔ (key, value) ∈ d.entries := by
  constructor
  · intro h
    obtain ⟨e, he, rfl⟩ := Option.map_eq_some_iff.mp h
    have hkey : e.1 = key := by simpa using List.find?_some he
    rw [← hkey]
    exact List.mem_of_find?_eq_some he
  · intro h
    have hsome : (d.get? key).isSome = true :=
      (d.mem_keys key).mp (List.mem_map.mpr ⟨(key, value), h, rfl⟩)
    obtain ⟨other, hother⟩ := Option.isSome_iff_exists.mp hsome
    obtain ⟨e, he, rfl⟩ := Option.map_eq_some_iff.mp hother
    have hkey : e.1 = key := by simpa using List.find?_some he
    have heq : e = (key, value) :=
      List.inj_on_of_nodup_map d.nodup (List.mem_of_find?_eq_some he) h hkey
    rw [hother, heq]

@[simp]
theorem get?_empty (key : κ) : (empty : Dict κ ν).get? key = none := rfl

theorem get?_filter (d : Dict κ ν) (p : κ → ν → Bool) (key : κ) :
    (d.filter p).get? key = (d.get? key).filter (p key) := by
  apply Option.ext
  intro value
  rw [get?_eq_some_iff, Option.filter_eq_some_iff, get?_eq_some_iff, filter, List.mem_filter]

theorem get?_erase (d : Dict κ ν) (key other : κ) :
    (d.erase key).get? other = if other = key then none else d.get? other := by
  rw [erase, get?_filter]
  by_cases h : other = key
  · simp [h]
  · cases d.get? other <;> simp [h, Option.filter]

theorem get?_modify (d : Dict κ ν) (key : κ) (f : ν → ν) (other : κ) :
    (d.modify key f).get? other =
      if other = key then (d.get? other).map f else d.get? other := by
  have hfind : (d.entries.map (fun e => if e.1 = key then (e.1, f e.2) else e)).find?
      (fun e => e.1 = other) = (d.entries.find? (fun e => e.1 = other)).map
        (fun e => if e.1 = key then (e.1, f e.2) else e) := by
    rw [List.find?_map]
    congr 1
    apply congrArg (fun p => d.entries.find? p)
    funext e
    simp only [Function.comp_apply]
    split <;> rfl
  rw [get?, modify, hfind, get?]
  cases hentry : d.entries.find? (fun e => e.1 = other) with
  | none => simp
  | some e =>
    have hkey : e.1 = other := by simpa using List.find?_some hentry
    by_cases h : other = key
    · simp [h, hkey]
    · simp [h, hkey]

theorem get?_set (d : Dict κ ν) (key : κ) (value : ν) (other : κ) :
    (d.set key value).get? other = if other = key then some value else d.get? other := by
  unfold set
  split
  · rename_i h
    rw [get?_modify]
    by_cases hother : other = key
    · subst hother
      obtain ⟨old, hold⟩ := Option.isSome_iff_exists.mp h
      simp [hold]
    · simp [hother]
  · rename_i h
    by_cases hother : other = key
    · rw [if_pos hother, hother, get?_eq_some_iff]
      simp
    · simp [get?, List.find?_append, hother, Ne.symm hother]

omit [DecidableEq κ] in
theorem size_filter_le (d : Dict κ ν) (p : κ → ν → Bool) : (d.filter p).size ≤ d.size :=
  List.length_filter_le _ _

@[simp]
theorem size_modify (d : Dict κ ν) (key : κ) (f : ν → ν) : (d.modify key f).size = d.size := by
  simp [size, modify]

theorem size_set_le (d : Dict κ ν) (key : κ) (value : ν) : (d.set key value).size ≤ d.size + 1 := by
  unfold set
  split
  · rw [size_modify]
    omega
  · simp [size]

/-- A key that is set keeps its place or comes last. -/
theorem keys_set (d : Dict κ ν) (key : κ) (value : ν) :
    (d.set key value).entries.map Prod.fst =
      d.entries.map Prod.fst ++ (if (d.get? key).isSome = true then [] else [key]) := by
  unfold set
  split
  · rw [List.append_nil, modify, List.map_map]
    apply List.map_congr_left
    intro e _
    simp only [Function.comp_apply]
    split <;> rfl
  · rw [List.map_append]
    rfl

/-- A new value for a key that is there. -/
theorem size_set_of_isSome (d : Dict κ ν) (key : κ) (value : ν)
    (h : (d.get? key).isSome = true) : (d.set key value).size = d.size := by
  have hkeys := congrArg List.length (d.keys_set key value)
  rw [if_pos h, List.append_nil, List.length_map, List.length_map] at hkeys
  exact hkeys

/-- Erasing a key that is there leaves one entry less. -/
theorem size_erase_lt (d : Dict κ ν) (key : κ) (h : (d.get? key).isSome = true) :
    (d.erase key).size < d.size := by
  obtain ⟨e, he, hkey⟩ := List.mem_map.mp ((d.mem_keys key).mpr h)
  apply List.length_filter_lt_length_iff_exists.mpr
  exact ⟨e, he, by simp [hkey]⟩

end Dict

end Decillion.Dictionaries
