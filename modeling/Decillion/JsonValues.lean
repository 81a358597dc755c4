import Mathlib.Data.List.Sort
import Mathlib.Data.List.Lemmas
import Mathlib.Data.String.Basic

/-!
JSON values over an arbitrary type of floating-point numbers. An object keeps the order
of its members; sorting the keys at every level gives the representative by which two
objects are compared when the order does not matter.
-/
namespace Decillion.JsonValues

inductive Json (F : Type) where
  | null
  | bool (b : Bool)
  | int (n : ℤ)
  | float (x : F)
  | str (s : String)
  | list (items : List (Json F))
  | obj (members : List (String × Json F))

abbrev Members (F : Type) := List (String × Json F)

variable {F : Type}

/-- Setting a key keeps its place when it is there and appends it otherwise. -/
def setMember (key : String) (value : Json F) : Members F → Members F
  | [] => [(key, value)]
  | (k, v) :: rest =>
      if k = key then (k, value) :: rest else (k, v) :: setMember key value rest

/-- A dictionary built from pairs: of two pairs with one key the later value stays. -/
def ofPairs (pairs : Members F) : Members F :=
  pairs.foldl (fun members pair => setMember pair.1 pair.2 members) []

def Json.get? (key : String) : Json F → Option (Json F)
  | .obj members => members.lookup key
  | _ => none

def intField (key : String) (members : Members F) : Option ℤ :=
  match members.lookup key with
  | some (.int n) => some n
  | _ => none

def strField (key : String) (members : Members F) : Option String :=
  match members.lookup key with
  | some (.str s) => some s
  | _ => none

/-- A data class is built from the members of an object; it accepts no other name. -/
def onlyFields (fields : List String) (members : Members F) : Bool :=
  members.all (fun p => fields.contains p.1)

theorem setMember_of_notMem (key : String) (value : Json F) (members : Members F)
    (hkey : key ∉ members.map Prod.fst) :
    setMember key value members = members ++ [(key, value)] := by
  induction members with
  | nil => rfl
  | cons member rest ih =>
    obtain ⟨k, v⟩ := member
    simp only [List.map_cons, List.mem_cons, not_or] at hkey
    rw [setMember, if_neg (Ne.symm hkey.1), ih hkey.2, List.cons_append]

private theorem foldl_setMember (pairs members : Members F)
    (hnodup : ((members ++ pairs).map Prod.fst).Nodup) :
    pairs.foldl (fun acc pair => setMember pair.1 pair.2 acc) members = members ++ pairs := by
  induction pairs generalizing members with
  | nil => simp
  | cons pair rest ih =>
    have hsplit : members ++ pair :: rest = (members ++ [pair]) ++ rest := by simp
    have hkey : pair.1 ∉ members.map Prod.fst := by
      rw [List.map_append, List.map_cons, List.nodup_append] at hnodup
      intro hmem
      exact hnodup.2.2 _ hmem _ (List.mem_cons_self ..) rfl
    rw [List.foldl_cons, setMember_of_notMem _ _ _ hkey, ih, hsplit]
    rw [← hsplit]
    exact hnodup

theorem ofPairs_of_nodup (pairs : Members F) (hnodup : (pairs.map Prod.fst).Nodup) :
    ofPairs pairs = pairs := by
  simpa [ofPairs] using foldl_setMember pairs [] (by simpa using hnodup)

mutual

/-- No object has two members with one key, at any depth. -/
def DistinctKeys : Json F → Prop
  | .list items => DistinctKeysItems items
  | .obj members => (members.map Prod.fst).Nodup ∧ DistinctKeysMembers members
  | .null => True
  | .bool _ => True
  | .int _ => True
  | .float _ => True
  | .str _ => True

def DistinctKeysItems : List (Json F) → Prop
  | [] => True
  | x :: xs => DistinctKeys x ∧ DistinctKeysItems xs

def DistinctKeysMembers : Members F → Prop
  | [] => True
  | (_, v) :: rest => DistinctKeys v ∧ DistinctKeysMembers rest

end

def keyLe (a b : String × Json F) : Prop := a.1 ≤ b.1

instance : DecidableRel (keyLe (F := F)) := fun a b => inferInstanceAs (Decidable (a.1 ≤ b.1))

mutual

def sortKeys : Json F → Json F
  | .list items => .list (sortItems items)
  | .obj members => .obj ((sortMembers members).insertionSort keyLe)
  | .null => .null
  | .bool b => .bool b
  | .int n => .int n
  | .float x => .float x
  | .str s => .str s

def sortItems : List (Json F) → List (Json F)
  | [] => []
  | x :: xs => sortKeys x :: sortItems xs

def sortMembers : Members F → Members F
  | [] => []
  | (k, v) :: rest => (k, sortKeys v) :: sortMembers rest

end

theorem sortMembers_keys (members : Members F) :
    (sortMembers members).map Prod.fst = members.map Prod.fst := by
  induction members with
  | nil => rfl
  | cons member rest ih =>
    obtain ⟨k, v⟩ := member
    simp [sortMembers, ih]

theorem distinctKeysMembers_iff (members : Members F) :
    DistinctKeysMembers members ↔ ∀ p ∈ members, DistinctKeys p.2 := by
  induction members with
  | nil => simp [DistinctKeysMembers]
  | cons member rest ih =>
    obtain ⟨k, v⟩ := member
    simp [DistinctKeysMembers, ih]

theorem mem_setMember (key : String) (value : Json F) (members : Members F) (p : String × Json F)
    (hp : p ∈ setMember key value members) : p = (key, value) ∨ p ∈ members := by
  induction members with
  | nil => simpa [setMember] using hp
  | cons member rest ih =>
    obtain ⟨k, v⟩ := member
    unfold setMember at hp
    split at hp
    · rename_i hk
      rcases List.mem_cons.mp hp with rfl | hp
      · exact Or.inl (by rw [hk])
      · exact Or.inr (List.mem_cons_of_mem _ hp)
    · rcases List.mem_cons.mp hp with rfl | hp
      · exact Or.inr (List.mem_cons_self ..)
      · exact (ih hp).imp_right (List.mem_cons_of_mem _)

theorem setMember_keys (key : String) (value : Json F) (members : Members F) :
    (setMember key value members).map Prod.fst =
      if key ∈ members.map Prod.fst then members.map Prod.fst
      else members.map Prod.fst ++ [key] := by
  induction members with
  | nil => simp [setMember]
  | cons member rest ih =>
    obtain ⟨k, v⟩ := member
    by_cases hk : k = key
    · subst hk
      simp [setMember]
    · have hne : ¬ key = k := fun h => hk h.symm
      rw [setMember, if_neg hk, List.map_cons, ih]
      simp only [List.map_cons, List.mem_cons, hne, false_or]
      split <;> simp

theorem lookup_setMember (key : String) (value : Json F) (members : Members F) :
    (setMember key value members).lookup key = some value := by
  induction members with
  | nil => simp [setMember]
  | cons member rest ih =>
    obtain ⟨k, v⟩ := member
    by_cases hk : k = key
    · rw [setMember, if_pos hk, List.lookup_cons, hk, beq_self_eq_true]
    · rw [setMember, if_neg hk, List.lookup_cons, beq_false_of_ne (Ne.symm hk), ih]

theorem distinctKeys_setMember (key : String) (value : Json F) (members : Members F)
    (hvalue : DistinctKeys value) (hmembers : DistinctKeys (.obj members)) :
    DistinctKeys (.obj (setMember key value members)) := by
  constructor
  · rw [setMember_keys]
    split
    · exact hmembers.1
    · rename_i hkey
      rw [List.nodup_append]
      refine ⟨hmembers.1, by simp, ?_⟩
      rintro a ha b hb rfl
      exact hkey (by rwa [List.mem_singleton.mp hb] at ha)
  · rw [distinctKeysMembers_iff]
    intro p hp
    rcases mem_setMember key value members p hp with rfl | hp
    · exact hvalue
    · exact (distinctKeysMembers_iff members).mp hmembers.2 p hp

mutual

theorem sortKeys_distinctKeys : (j : Json F) → DistinctKeys j → DistinctKeys (sortKeys j)
  | .list items, h => sortItems_distinctKeys items h
  | .obj members, h => by
    have hperm := List.perm_insertionSort keyLe (sortMembers members)
    have hmembers := sortMembers_distinctKeys members h.2
    rw [distinctKeysMembers_iff] at hmembers
    constructor
    · rw [(hperm.map Prod.fst).nodup_iff, sortMembers_keys]
      exact h.1
    · rw [distinctKeysMembers_iff]
      intro p hp
      exact hmembers p (hperm.mem_iff.mp hp)
  | .null, _ => trivial
  | .bool _, _ => trivial
  | .int _, _ => trivial
  | .float _, _ => trivial
  | .str _, _ => trivial

theorem sortItems_distinctKeys : (items : List (Json F)) → DistinctKeysItems items →
    DistinctKeysItems (sortItems items)
  | [], _ => trivial
  | x :: xs, h => ⟨sortKeys_distinctKeys x h.1, sortItems_distinctKeys xs h.2⟩

theorem sortMembers_distinctKeys : (members : Members F) → DistinctKeysMembers members →
    DistinctKeysMembers (sortMembers members)
  | [], _ => trivial
  | (_, v) :: rest, h => ⟨sortKeys_distinctKeys v h.1, sortMembers_distinctKeys rest h.2⟩

end

instance : Std.Total (keyLe (F := F)) := ⟨fun a b => le_total a.1 b.1⟩

instance : IsTrans (String × Json F) keyLe := ⟨fun _ _ _ => le_trans⟩

theorem sortMembers_eq_map (members : Members F) :
    sortMembers members = members.map (fun p => (p.1, sortKeys p.2)) := by
  induction members with
  | nil => rfl
  | cons member rest ih =>
    obtain ⟨k, v⟩ := member
    rw [sortMembers, ih, List.map_cons]

theorem sortMembers_insertionSort (members : Members F) :
    sortMembers (members.insertionSort keyLe) = (sortMembers members).insertionSort keyLe := by
  rw [sortMembers_eq_map, sortMembers_eq_map]
  exact List.map_insertionSort keyLe keyLe _ _ (fun _ _ _ _ => Iff.rfl)

mutual

theorem sortKeys_idem : (j : Json F) → sortKeys (sortKeys j) = sortKeys j
  | .list items => by rw [sortKeys, sortKeys, sortItems_idem items]
  | .obj members => by
    have hsorted := List.pairwise_insertionSort keyLe (sortMembers members)
    rw [sortKeys, sortKeys, sortMembers_insertionSort, sortMembers_idem members,
      hsorted.insertionSort_eq]
  | .null => rfl
  | .bool _ => rfl
  | .int _ => rfl
  | .float _ => rfl
  | .str _ => rfl

theorem sortItems_idem : (items : List (Json F)) → sortItems (sortItems items) = sortItems items
  | [] => rfl
  | x :: xs => by rw [sortItems, sortItems, sortKeys_idem x, sortItems_idem xs]

theorem sortMembers_idem : (members : Members F) →
    sortMembers (sortMembers members) = sortMembers members
  | [] => rfl
  | (k, v) :: rest => by rw [sortMembers, sortMembers, sortKeys_idem v, sortMembers_idem rest]

end

/-- Equality of two values up to the order of the members of their objects. -/
def SameValue (a b : Json F) : Prop := sortKeys a = sortKeys b

theorem sameValue_sortKeys (j : Json F) : SameValue (sortKeys j) j := sortKeys_idem j

end Decillion.JsonValues
