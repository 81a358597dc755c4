import Decillion.JsonValues
import Mathlib.Data.List.Nodup

/-!
Objects up to the order of their members. Two of them are the same value exactly when the members
are the same up to their order, with values that are the same, so what is looked up or left out
by its key does not depend on the order.
-/
namespace Decillion.JsonObjects

open JsonValues

variable {F : Type} {members others : Members F} {key : String} {value : Json F}

theorem lookup_eq_some_iff (hkeys : (members.map Prod.fst).Nodup) :
    members.lookup key = some value ↔ (key, value) ∈ members := by
  constructor
  · intro h
    obtain ⟨before, after, rfl, -⟩ := List.lookup_eq_some_iff.mp h
    exact List.mem_append_right _ List.mem_cons_self
  · intro h
    induction members with
    | nil => cases h
    | cons member rest ih =>
      rw [List.map_cons, List.nodup_cons] at hkeys
      rcases List.mem_cons.mp h with rfl | hrest
      · exact List.lookup_cons_self
      · have hne : key ≠ member.1 := by
          rintro rfl
          exact hkeys.1 (List.mem_map.mpr ⟨_, hrest, rfl⟩)
        obtain ⟨k, v⟩ := member
        rw [List.lookup_cons, beq_false_of_ne hne]
        exact ih hkeys.2 hrest

theorem distinctKeys_lookup (hkeys : DistinctKeys (.obj members))
    (h : members.lookup key = some value) : DistinctKeys value :=
  (distinctKeysMembers_iff _).mp hkeys.2 (key, value) ((lookup_eq_some_iff hkeys.1).mp h)

theorem distinctKeys_filter (p : String × Json F → Bool) (hkeys : DistinctKeys (.obj members)) :
    DistinctKeys (.obj (members.filter p)) := by
  refine ⟨hkeys.1.sublist (List.filter_sublist.map _), ?_⟩
  rw [distinctKeysMembers_iff]
  exact fun member h => (distinctKeysMembers_iff _).mp hkeys.2 member (List.mem_filter.mp h).1

/-- Two objects are the same value when their sorted members agree up to their order. -/
theorem sameValue_obj_iff (hkeys : (members.map Prod.fst).Nodup) :
    SameValue (.obj members) (.obj others) ↔
      (sortMembers members).Perm (sortMembers others) := by
  rw [SameValue, sortKeys, sortKeys, Json.obj.injEq]
  have hperm := List.perm_insertionSort keyLe (sortMembers members)
  have hperm' := List.perm_insertionSort keyLe (sortMembers others)
  constructor
  · intro h
    exact hperm.symm.trans (h ▸ hperm')
  · intro h
    refine List.Perm.eq_of_pairwise ?_ (List.pairwise_insertionSort _ _)
      (List.pairwise_insertionSort _ _) (hperm.trans (h.trans hperm'.symm))
    intro a b ha hb hle hle'
    rw [← sortMembers_keys] at hkeys
    exact List.inj_on_of_nodup_map hkeys (hperm.mem_iff.mp ha)
      (h.mem_iff.mpr (hperm'.mem_iff.mp hb)) (le_antisymm hle hle')

theorem mem_sortMembers (member : String × Json F) : member ∈ sortMembers members ↔
    ∃ value, (member.1, value) ∈ members ∧ member.2 = sortKeys value := by
  rw [sortMembers_eq_map, List.mem_map]
  constructor
  · rintro ⟨⟨k, v⟩, hmem, rfl⟩
    exact ⟨v, hmem, rfl⟩
  · rintro ⟨v, hmem, hvalue⟩
    exact ⟨_, hmem, Prod.ext rfl hvalue.symm⟩

/-- The same value is found under a key of the same object. -/
theorem lookup_sameValue (hkeys : (members.map Prod.fst).Nodup)
    (hkeys' : (others.map Prod.fst).Nodup) (hsame : SameValue (.obj members) (.obj others))
    (h : members.lookup key = some value) :
    ∃ other, others.lookup key = some other ∧ SameValue value other := by
  have hmem : (key, sortKeys value) ∈ sortMembers members :=
    (mem_sortMembers _).mpr ⟨value, (lookup_eq_some_iff hkeys).mp h, rfl⟩
  rw [((sameValue_obj_iff hkeys).mp hsame).mem_iff, mem_sortMembers] at hmem
  obtain ⟨other, hother, hvalue⟩ := hmem
  exact ⟨other, (lookup_eq_some_iff hkeys').mpr hother, hvalue⟩

/-- What is left of the same object without some keys is the same object. -/
theorem sameValue_filter (p : String → Bool) (hkeys : (members.map Prod.fst).Nodup)
    (hsame : SameValue (.obj members) (.obj others)) :
    SameValue (.obj (members.filter (fun member => p member.1)))
      (.obj (others.filter (fun member => p member.1))) := by
  have hfilter : ∀ members : Members F,
      sortMembers (members.filter (fun member => p member.1)) =
        (sortMembers members).filter (fun member => p member.1) := by
    intro members
    rw [sortMembers_eq_map, sortMembers_eq_map, List.filter_map]
    rfl
  rw [sameValue_obj_iff (hkeys.sublist (List.filter_sublist.map _)), hfilter, hfilter]
  exact ((sameValue_obj_iff hkeys).mp hsame).filter _

theorem eq_of_sameValue_str {text : String} (h : SameValue (.str text) value) :
    value = .str text := by
  cases value with
  | str found => exact h.symm
  | list items => cases h
  | obj found => cases h
  | _ => cases h

/-- A text is found under a key of the same object. -/
theorem text_sameValue (hkeys : (members.map Prod.fst).Nodup)
    (hkeys' : (others.map Prod.fst).Nodup) (hsame : SameValue (.obj members) (.obj others))
    {text : String} (h : members.lookup key = some (.str text)) :
    others.lookup key = some (.str text) := by
  obtain ⟨value, hvalue, htext⟩ := lookup_sameValue hkeys hkeys' hsame h
  rw [hvalue, eq_of_sameValue_str htext]

theorem eq_of_sameValue_int {n : ℤ} (h : SameValue (.int n) value) : value = .int n := by
  cases value with
  | int found => exact h.symm
  | list items => cases h
  | obj found => cases h
  | _ => cases h

theorem obj_of_sameValue (h : SameValue (.obj members) value) :
    ∃ others, value = .obj others := by
  cases value with
  | obj others => exact ⟨others, rfl⟩
  | list items => cases h
  | _ => cases h

/-- The same value under a key of the same value. -/
theorem get?_sameValue {payload other : Json F} (hkeys : DistinctKeys payload)
    (hkeys' : DistinctKeys other) (hsame : SameValue payload other)
    (h : payload.get? key = some value) :
    ∃ found, other.get? key = some found ∧ SameValue value found := by
  cases payload with
  | obj members =>
    obtain ⟨others, rfl⟩ := obj_of_sameValue hsame
    exact lookup_sameValue hkeys.1 hkeys'.1 hsame h
  | _ => cases h

end Decillion.JsonObjects
