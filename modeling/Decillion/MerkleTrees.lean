import Mathlib.Data.List.Nodup
import Mathlib.Data.Set.Function
import Mathlib.Tactic.Common

/-!
Binary hash trees over a list of digests whose odd levels repeat their last node.
Nothing separates leaves from nodes by a tag, and two lists may differ in length, so
binding compares trees of different height: if the node hash does not collide on the
pairs that are hashed, then of two duplicate-free lists with one root the one is a level
of the tree over the other. The lists are equal as soon as no leaf is the hash of a pair.
-/
namespace Decillion.MerkleTrees

variable {D : Type*} (node : D → D → D)

/-- An odd level is completed by its last node. -/
def pad (level : List D) : List D :=
  if level.length % 2 = 1 then level ++ level.getLast?.toList else level

def adjacent : List D → List (D × D)
  | a :: b :: rest => (a, b) :: adjacent rest
  | _ => []

def nextLevel (level : List D) : List D :=
  (adjacent (pad level)).map (fun p => node p.1 p.2)

/-- Levels are replaced until one node is left; the length of the list is fuel enough. -/
def climb : ℕ → List D → List D
  | 0, level => level
  | fuel + 1, level =>
      if level.length ≤ 1 then level else climb fuel (nextLevel node level)

/-- The pairs that are hashed on the way to the root. -/
def hashedPairs : ℕ → List D → List (D × D)
  | 0, _ => []
  | fuel + 1, level =>
      if level.length ≤ 1 then []
      else adjacent (pad level) ++ hashedPairs fuel (nextLevel node level)

theorem pad_length (level : List D) : (pad level).length = 2 * ((level.length + 1) / 2) := by
  unfold pad
  split
  · rename_i hodd
    have hne : level ≠ [] := by
      rintro rfl
      simp at hodd
    rw [List.getLast?_eq_some_getLast hne]
    simp only [Option.toList_some, List.length_append, List.length_singleton]
    omega
  · omega

theorem adjacent_length (level : List D) : (adjacent level).length = level.length / 2 := by
  induction level using adjacent.induct with
  | case1 a b rest ih =>
    simp only [adjacent, List.length_cons, ih]
    omega
  | case2 level hlevel =>
    rcases level with _ | ⟨a, _ | ⟨b, rest⟩⟩
    · simp [adjacent]
    · simp [adjacent]
    · exact absurd rfl (hlevel a b rest)

theorem nextLevel_length (level : List D) :
    (nextLevel node level).length = (level.length + 1) / 2 := by
  rw [nextLevel, List.length_map, adjacent_length, pad_length]
  omega

theorem nextLevel_ne_nil (level : List D) (h : level ≠ []) : nextLevel node level ≠ [] := by
  intro hnil
  have hlen := nextLevel_length node level
  have hpos := List.length_pos_iff.mpr h
  rw [hnil, List.length_nil] at hlen
  omega

theorem climb_length (fuel : ℕ) (level : List D) (hne : level ≠ [])
    (hfuel : level.length ≤ fuel) : (climb node fuel level).length = 1 := by
  have hpos := List.length_pos_iff.mpr hne
  induction fuel generalizing level with
  | zero => omega
  | succ fuel ih =>
    unfold climb
    split
    · omega
    · have hlen := nextLevel_length node level
      exact ih _ (nextLevel_ne_nil node level hne) (by omega)
        (List.length_pos_iff.mpr (nextLevel_ne_nil node level hne))

/-- What holds of the leaves and of all inner nodes holds of the root. -/
theorem climb_forall {p : D → Prop} (hnode : ∀ a b, p (node a b)) (fuel : ℕ) (level : List D)
    (h : ∀ d ∈ level, p d) : ∀ d ∈ climb node fuel level, p d := by
  induction fuel generalizing level with
  | zero => exact h
  | succ fuel ih =>
    unfold climb
    split
    · exact h
    · refine ih _ (fun d hd => ?_)
      obtain ⟨pair, -, rfl⟩ := List.mem_map.mp hd
      exact hnode _ _

theorem adjacent_injective (a b : List D) (heven : a.length % 2 = 0)
    (hlen : a.length = b.length) (h : adjacent a = adjacent b) : a = b := by
  induction a using adjacent.induct generalizing b with
  | case1 x y rest ih =>
    rcases b with _ | ⟨z, _ | ⟨w, more⟩⟩
    · simp at hlen
    · simp at hlen
    · simp only [adjacent, List.cons.injEq, Prod.mk.injEq] at h
      simp only [List.length_cons] at hlen heven
      rw [h.1.1, h.1.2, ih more (by omega) (by omega) h.2]
  | case2 level hlevel =>
    rcases level with _ | ⟨x, _ | ⟨y, rest⟩⟩
    · exact (List.length_eq_zero_iff.mp hlen.symm).symm
    · simp at heven
    · exact absurd rfl (hlevel x y rest)

/-- A list that repeats its last element is not duplicate-free. -/
private theorem not_nodup_pad (level : List D) (hne : level ≠ []) :
    ¬ (level ++ level.getLast?.toList).Nodup := by
  intro hnodup
  rw [List.getLast?_eq_some_getLast hne, Option.toList_some, List.nodup_append] at hnodup
  exact hnodup.2.2 _ (List.getLast_mem hne) _ (List.mem_singleton_self _) rfl

theorem pad_injective (a b : List D) (ha : a.Nodup) (hb : b.Nodup) (h : pad a = pad b) :
    a = b := by
  have hne : ∀ l : List D, l.length % 2 = 1 → l ≠ [] := by
    rintro l hodd rfl
    simp at hodd
  unfold pad at h
  split at h
  · rename_i haodd
    split at h
    · rw [List.getLast?_eq_some_getLast (hne a haodd)] at h
      rw [List.getLast?_eq_some_getLast (hne b (by assumption))] at h
      exact (List.append_inj' h rfl).1
    · exact absurd (h ▸ hb) (not_nodup_pad a (hne a haodd))
  · split at h
    · rename_i hbodd
      exact absurd (h ▸ ha) (not_nodup_pad b (hne b hbodd))
    · exact h

theorem mem_of_mem_adjacent (level : List D) (p : D × D) (hp : p ∈ adjacent level) :
    p.1 ∈ level ∧ p.2 ∈ level := by
  induction level using adjacent.induct with
  | case1 a b rest ih =>
    simp only [adjacent, List.mem_cons] at hp
    rcases hp with rfl | hp
    · simp
    · obtain ⟨h1, h2⟩ := ih hp
      exact ⟨by simp [h1], by simp [h2]⟩
  | case2 level hlevel =>
    rcases level with _ | ⟨a, _ | ⟨b, rest⟩⟩
    · simp [adjacent] at hp
    · simp [adjacent] at hp
    · exact absurd rfl (hlevel a b rest)

theorem mem_of_mem_pad (level : List D) (d : D) (hd : d ∈ pad level) : d ∈ level := by
  unfold pad at hd
  split at hd
  · rcases List.mem_append.mp hd with hd | hd
    · exact hd
    · exact List.mem_of_getLast? (by simpa using hd)
  · exact hd

theorem adjacent_fst_sublist (level extra : List D) (hextra : extra.length ≤ 1) :
    ((adjacent (level ++ extra)).map Prod.fst).Sublist level := by
  have hshort : extra = [] ∨ ∃ e, extra = [e] := by
    rcases extra with _ | ⟨e, _ | ⟨f, extra⟩⟩
    · exact Or.inl rfl
    · exact Or.inr ⟨e, rfl⟩
    · simp at hextra
  induction level using adjacent.induct with
  | case1 a b rest ih => exact List.Sublist.cons_cons a (List.Sublist.cons b ih)
  | case2 level hlevel =>
    rcases level with _ | ⟨a, _ | ⟨b, rest⟩⟩
    · rcases hshort with rfl | ⟨e, rfl⟩ <;> simp [adjacent]
    · rcases hshort with rfl | ⟨e, rfl⟩ <;> simp [adjacent]
    · exact absurd rfl (hlevel a b rest)

/-- The left halves of the pairs of a level are pairwise different nodes of it. -/
theorem adjacent_pad_nodup (level : List D) (hnodup : level.Nodup) :
    (adjacent (pad level)).Nodup := by
  have hfst : ((adjacent (pad level)).map Prod.fst).Sublist level := by
    unfold pad
    split
    · apply adjacent_fst_sublist
      cases level.getLast? <;> simp
    · simpa using adjacent_fst_sublist level [] (by simp)
  exact List.Nodup.of_map _ (hnodup.sublist hfst)

theorem map_injective_on {E : Type*} (f : D → E) (P : Set D) (hinj : Set.InjOn f P)
    (a b : List D) (ha : ∀ x ∈ a, x ∈ P) (hb : ∀ x ∈ b, x ∈ P) (h : a.map f = b.map f) :
    a = b := by
  induction a generalizing b with
  | nil => simpa using h.symm
  | cons x xs ih =>
    cases b with
    | nil => simp at h
    | cons y ys =>
      simp only [List.map_cons, List.cons.injEq] at h
      simp only [List.mem_cons, forall_eq_or_imp] at ha hb
      rw [hinj ha.1 hb.1 h.1, ih ys ha.2 hb.2 h.2]

/-- `Above l u`: the level `u` is met on the way from `l` to the root. -/
inductive Above : List D → List D → Prop
  | refl (level : List D) : Above level level
  | up {level upper : List D} : 1 < level.length → Above (nextLevel node level) upper →
      Above level upper

theorem above_climb (fuel : ℕ) (level : List D) : Above node level (climb node fuel level) := by
  induction fuel generalizing level with
  | zero => exact Above.refl level
  | succ fuel ih =>
    unfold climb
    split
    · exact Above.refl level
    · exact Above.up (by omega) (ih (nextLevel node level))

/-- A level over the next level is itself a next level of a level above. -/
theorem above_next (level upper : List D) (hlevel : 1 < level.length)
    (h : Above node (nextLevel node level) upper) :
    ∃ lower, Above node level lower ∧ 1 < lower.length ∧ upper = nextLevel node lower := by
  generalize hstart : nextLevel node level = start at h
  induction h generalizing level with
  | refl => exact ⟨level, Above.refl level, hlevel, hstart.symm⟩
  | @up next upper hlen habove ih =>
    subst hstart
    obtain ⟨lower, hlower, hlong, heq⟩ := ih (nextLevel node level) hlen rfl
    exact ⟨lower, Above.up hlevel hlower, hlong, heq⟩

theorem above_hashedPairs (fuel : ℕ) (level upper : List D) (h : Above node level upper)
    (hfuel : level.length ≤ fuel) (hupper : 1 < upper.length) :
    ∀ p ∈ adjacent (pad upper), p ∈ hashedPairs node fuel level := by
  induction h generalizing fuel with
  | refl level =>
    intro p hp
    obtain ⟨fuel, rfl⟩ : ∃ n, fuel = n + 1 := ⟨fuel - 1, by omega⟩
    rw [hashedPairs, if_neg (by omega)]
    exact List.mem_append_left _ hp
  | @up level upper hlen habove ih =>
    intro p hp
    obtain ⟨fuel, rfl⟩ : ∃ n, fuel = n + 1 := ⟨fuel - 1, by omega⟩
    have hnext := nextLevel_length node level
    rw [hashedPairs, if_neg (by omega)]
    exact List.mem_append_right _ (ih fuel (by omega) hupper p hp)

theorem forall_nextLevel (good : D → Prop) (hnode : ∀ x y, good (node x y)) (level : List D) :
    ∀ d ∈ nextLevel node level, good d := by
  intro d hd
  obtain ⟨p, -, rfl⟩ := List.mem_map.mp hd
  exact hnode p.1 p.2

theorem forall_hashedPairs (good : D → Prop) (hnode : ∀ x y, good (node x y)) (fuel : ℕ)
    (level : List D) (hlevel : ∀ d ∈ level, good d) :
    ∀ p ∈ hashedPairs node fuel level, good p.1 ∧ good p.2 := by
  induction fuel generalizing level with
  | zero => simp [hashedPairs]
  | succ fuel ih =>
    intro p hp
    unfold hashedPairs at hp
    split at hp
    · simp at hp
    · rcases List.mem_append.mp hp with hp | hp
      · have hmem := mem_of_mem_adjacent _ p hp
        exact ⟨hlevel _ (mem_of_mem_pad level _ hmem.1), hlevel _ (mem_of_mem_pad level _ hmem.2)⟩
      · exact ih _ (forall_nextLevel node good hnode level) p hp

/-- The top of a tree is its only leaf or the hash of a pair. -/
theorem climb_eq_or (level : List D) (hne : level ≠ []) :
    climb node level.length level = level ∨
      ∃ p ∈ hashedPairs node level.length level,
        climb node level.length level = [node p.1 p.2] := by
  have hlength := climb_length node level.length level hne le_rfl
  obtain ⟨root, hroot⟩ := List.length_eq_one_iff.mp hlength
  have habove := above_climb node level.length level
  generalize climb node level.length level = top at hroot habove
  subst hroot
  cases habove with
  | refl => exact Or.inl rfl
  | up hlen habove =>
    obtain ⟨lower, hlower, hlong, heq⟩ := above_next node level _ hlen habove
    have hmem : root ∈ nextLevel node lower := heq ▸ List.mem_singleton_self root
    obtain ⟨p, hp, rfl⟩ := List.mem_map.mp hmem
    exact Or.inr ⟨p, above_hashedPairs node _ level lower hlower le_rfl hlong p hp, rfl⟩

section Binding

variable {node}
variable {P : Set (D × D)} (hinj : Set.InjOn (fun p : D × D => node p.1 p.2) P)
include hinj

theorem nextLevel_nodup (level : List D) (hnodup : level.Nodup)
    (hP : ∀ p ∈ adjacent (pad level), p ∈ P) : (nextLevel node level).Nodup := by
  apply List.Nodup.map_on _ (adjacent_pad_nodup level hnodup)
  intro p hp q hq h
  exact hinj (hP p hp) (hP q hq) h

theorem nextLevel_injective (a b : List D) (ha : a.Nodup) (hb : b.Nodup)
    (hPa : ∀ p ∈ adjacent (pad a), p ∈ P) (hPb : ∀ p ∈ adjacent (pad b), p ∈ P)
    (h : nextLevel node a = nextLevel node b) : a = b := by
  have hpairs : adjacent (pad a) = adjacent (pad b) :=
    map_injective_on _ P hinj _ _ hPa hPb h
  have hpa := pad_length a
  have hpb := pad_length b
  have hlen : (pad a).length = (pad b).length := by
    have hlength := congrArg List.length hpairs
    rw [adjacent_length, adjacent_length] at hlength
    omega
  exact pad_injective a b ha hb (adjacent_injective _ _ (by omega) hlen hpairs)

theorem above_nodup (fuel : ℕ) (level upper : List D) (h : Above node level upper)
    (hfuel : level.length ≤ fuel) (hnodup : level.Nodup)
    (hP : ∀ p ∈ hashedPairs node fuel level, p ∈ P) : upper.Nodup := by
  induction h generalizing fuel with
  | refl level => exact hnodup
  | @up level upper hlen habove ih =>
    obtain ⟨fuel, rfl⟩ : ∃ n, fuel = n + 1 := ⟨fuel - 1, by omega⟩
    have hnext := nextLevel_length node level
    rw [hashedPairs, if_neg (by omega)] at hP
    apply ih fuel (by omega)
    · exact nextLevel_nodup hinj level hnodup (fun p hp => hP p (List.mem_append_left _ hp))
    · exact fun p hp => hP p (List.mem_append_right _ hp)

/-- One root: one of the two duplicate-free lists is a level over the other. -/
theorem above_of_climb_eq (fuel fuel' : ℕ) (a b : List D) (hane : a ≠ []) (hbne : b ≠ [])
    (hfuel : a.length ≤ fuel) (hfuel' : b.length ≤ fuel') (ha : a.Nodup) (hb : b.Nodup)
    (hPa : ∀ p ∈ hashedPairs node fuel a, p ∈ P) (hPb : ∀ p ∈ hashedPairs node fuel' b, p ∈ P)
    (h : climb node fuel a = climb node fuel' b) : Above node a b ∨ Above node b a := by
  have hapos := List.length_pos_iff.mpr hane
  have hbpos := List.length_pos_iff.mpr hbne
  induction fuel generalizing fuel' a b with
  | zero => omega
  | succ fuel ih =>
    obtain ⟨fuel', rfl⟩ : ∃ n, fuel' = n + 1 := ⟨fuel' - 1, by omega⟩
    by_cases hashort : a.length ≤ 1
    · rw [climb, if_pos hashort] at h
      exact Or.inr (h ▸ above_climb node (fuel' + 1) b)
    · by_cases hbshort : b.length ≤ 1
      · have hclimb : climb node (fuel' + 1) b = b := by rw [climb, if_pos hbshort]
        rw [hclimb] at h
        exact Or.inl (h ▸ above_climb node (fuel + 1) a)
      · have hnexta := nextLevel_length node a
        have hnextb := nextLevel_length node b
        have hPa' := above_hashedPairs node (fuel + 1) a
        have hPb' := above_hashedPairs node (fuel' + 1) b
        have hhead : ∀ p ∈ adjacent (pad a), p ∈ P := fun p hp =>
          hPa p (hPa' a (Above.refl a) hfuel (by omega) p hp)
        have hhead' : ∀ p ∈ adjacent (pad b), p ∈ P := fun p hp =>
          hPb p (hPb' b (Above.refl b) hfuel' (by omega) p hp)
        have hrest : ∀ p ∈ hashedPairs node fuel (nextLevel node a), p ∈ P := by
          rw [hashedPairs, if_neg hashort] at hPa
          exact fun p hp => hPa p (List.mem_append_right _ hp)
        have hrest' : ∀ p ∈ hashedPairs node fuel' (nextLevel node b), p ∈ P := by
          rw [hashedPairs, if_neg hbshort] at hPb
          exact fun p hp => hPb p (List.mem_append_right _ hp)
        rw [climb, if_neg hashort, climb, if_neg hbshort] at h
        have hnext := ih fuel' (nextLevel node a) (nextLevel node b)
          (nextLevel_ne_nil node a hane) (nextLevel_ne_nil node b hbne) (by omega) (by omega)
          (nextLevel_nodup hinj a ha hhead) (nextLevel_nodup hinj b hb hhead') hrest hrest' h
          (by omega) (by omega)
        rcases hnext with habove | habove
        · obtain ⟨lower, hlower, hlong, heq⟩ := above_next node a _ (by omega) habove
          have hnodup := above_nodup hinj (fuel + 1) a lower hlower hfuel ha hPa
          have hpairs := fun p hp => hPa p (hPa' lower hlower hfuel hlong p hp)
          rw [nextLevel_injective hinj b lower hb hnodup hhead' hpairs heq]
          exact Or.inl hlower
        · obtain ⟨lower, hlower, hlong, heq⟩ := above_next node b _ (by omega) habove
          have hnodup := above_nodup hinj (fuel' + 1) b lower hlower hfuel' hb hPb
          have hpairs := fun p hp => hPb p (hPb' lower hlower hfuel' hlong p hp)
          rw [nextLevel_injective hinj a lower ha hnodup hhead hpairs heq]
          exact Or.inr hlower

omit hinj in
/-- A list of leaves none of which is the hash of a pair stands above no other list. -/
theorem eq_of_above (fuel : ℕ) (a b : List D) (hfuel : a.length ≤ fuel)
    (h : Above node a b)
    (hleaf : ∀ leaf ∈ b, ∀ p ∈ hashedPairs node fuel a, leaf ≠ node p.1 p.2) : a = b := by
  cases h with
  | refl => rfl
  | up hlen habove =>
    exfalso
    obtain ⟨lower, hlower, hlong, heq⟩ := above_next node a b hlen habove
    have hlowerne : lower ≠ [] := List.length_pos_iff.mp (by omega)
    have hbne : b ≠ [] := heq ▸ nextLevel_ne_nil node lower hlowerne
    obtain ⟨leaf, hmem⟩ := List.exists_mem_of_ne_nil b hbne
    have hnode := hmem
    rw [heq, nextLevel, List.mem_map] at hnode
    obtain ⟨p, hp, hpeq⟩ := hnode
    exact hleaf leaf hmem p (above_hashedPairs node fuel a lower hlower hfuel hlong p hp)
      hpeq.symm

/-- The root binds a duplicate-free list of leaves, its length included. -/
theorem climb_injective (a b : List D) (hane : a ≠ []) (hbne : b ≠ []) (ha : a.Nodup)
    (hb : b.Nodup) (hPa : ∀ p ∈ hashedPairs node a.length a, p ∈ P)
    (hPb : ∀ p ∈ hashedPairs node b.length b, p ∈ P)
    (hleaf : ∀ leaf, leaf ∈ a ∨ leaf ∈ b → ∀ p ∈ P, leaf ≠ node p.1 p.2)
    (h : climb node a.length a = climb node b.length b) : a = b := by
  rcases above_of_climb_eq hinj a.length b.length a b hane hbne le_rfl le_rfl ha hb hPa hPb h
    with habove | habove
  · exact eq_of_above a.length a b le_rfl habove
      (fun leaf hmem p hp => hleaf leaf (Or.inr hmem) p (hPa p hp))
  · exact (eq_of_above b.length b a le_rfl habove
      (fun leaf hmem p hp => hleaf leaf (Or.inl hmem) p (hPb p hp))).symm

end Binding

/-- One of two lists is a beginning of the other. -/
def Comparable (a b : List D) : Prop := a <+: b ∨ b <+: a

theorem Comparable.symm {a b : List D} (h : Comparable a b) : Comparable b a := Or.symm h

theorem Comparable.eq_of_length {a b : List D} (h : Comparable a b) (hlen : a.length = b.length) :
    a = b := by
  rcases h with h | h
  · exact h.eq_of_length hlen
  · exact (h.eq_of_length hlen.symm).symm

theorem prefix_pad (level : List D) : level <+: pad level := by
  unfold pad
  split
  · exact List.prefix_append _ _
  · exact List.prefix_refl _

theorem prefix_of_adjacent_prefix (a b : List D) (heven : a.length % 2 = 0)
    (h : adjacent a <+: adjacent b) : a <+: b := by
  induction a using adjacent.induct generalizing b with
  | case1 x y rest ih =>
    rcases b with _ | ⟨z, _ | ⟨w, more⟩⟩
    · simp [adjacent] at h
    · simp [adjacent] at h
    · simp only [adjacent, List.cons_prefix_cons, Prod.mk.injEq] at h
      simp only [List.length_cons] at heven
      obtain ⟨⟨rfl, rfl⟩, hrest⟩ := h
      exact List.cons_prefix_cons.mpr ⟨rfl, List.cons_prefix_cons.mpr
        ⟨rfl, ih more (by omega) hrest⟩⟩
  | case2 level hlevel =>
    rcases level with _ | ⟨x, _ | ⟨y, rest⟩⟩
    · exact List.nil_prefix
    · simp at heven
    · exact absurd rfl (hlevel x y rest)

theorem prefix_of_map_prefix {E : Type*} (f : D → E) (P : Set D) (hinj : Set.InjOn f P)
    (a b : List D) (ha : ∀ x ∈ a, x ∈ P) (hb : ∀ x ∈ b, x ∈ P) (h : a.map f <+: b.map f) :
    a <+: b := by
  have htake := List.prefix_iff_eq_take.mp h
  rw [List.length_map, ← List.map_take] at htake
  have heq := map_injective_on f P hinj a _ ha (fun x hx => hb x (List.mem_of_mem_take hx)) htake
  exact heq ▸ List.take_prefix _ b

section Prefixes

variable {node}
variable {P : Set (D × D)} (hinj : Set.InjOn (fun p : D × D => node p.1 p.2) P)
include hinj

theorem comparable_of_nextLevel (a b : List D) (hPa : ∀ p ∈ adjacent (pad a), p ∈ P)
    (hPb : ∀ p ∈ adjacent (pad b), p ∈ P)
    (h : Comparable (nextLevel node a) (nextLevel node b)) : Comparable a b := by
  have hpada := pad_length a
  have hpadb := pad_length b
  have hpads : Comparable (pad a) (pad b) := by
    rcases h with h | h
    · exact Or.inl ( prefix_of_adjacent_prefix _ _ (by omega)
        ( prefix_of_map_prefix _ P hinj _ _ hPa hPb h))
    · exact Or.inr ( prefix_of_adjacent_prefix _ _ (by omega)
        ( prefix_of_map_prefix _ P hinj _ _ hPb hPa h))
  rcases hpads with h | h
  · exact List.prefix_or_prefix_of_prefix ((prefix_pad a).trans h) (prefix_pad b)
  · exact List.prefix_or_prefix_of_prefix (prefix_pad a) ((prefix_pad b).trans h)

/-- One root: a level over one of the lists and the other list are comparable. -/
theorem above_comparable (fuel fuel' : ℕ) (a b : List D) (hane : a ≠ []) (hbne : b ≠ [])
    (hfuel : a.length ≤ fuel) (hfuel' : b.length ≤ fuel')
    (hPa : ∀ p ∈ hashedPairs node fuel a, p ∈ P) (hPb : ∀ p ∈ hashedPairs node fuel' b, p ∈ P)
    (h : climb node fuel a = climb node fuel' b) :
    (∃ upper, Above node a upper ∧ Comparable upper b) ∨
      ∃ upper, Above node b upper ∧ Comparable upper a := by
  have hapos := List.length_pos_iff.mpr hane
  have hbpos := List.length_pos_iff.mpr hbne
  induction fuel generalizing fuel' a b with
  | zero => omega
  | succ fuel ih =>
    obtain ⟨fuel', rfl⟩ : ∃ n, fuel' = n + 1 := ⟨fuel' - 1, by omega⟩
    by_cases hashort : a.length ≤ 1
    · rw [climb, if_pos hashort] at h
      exact Or.inr ⟨a, h ▸ above_climb node (fuel' + 1) b, Or.inl (List.prefix_refl a)⟩
    · by_cases hbshort : b.length ≤ 1
      · have hclimb : climb node (fuel' + 1) b = b := by rw [climb, if_pos hbshort]
        rw [hclimb] at h
        exact Or.inl ⟨b, h ▸ above_climb node (fuel + 1) a, Or.inl (List.prefix_refl b)⟩
      · have hnexta := nextLevel_length node a
        have hnextb := nextLevel_length node b
        have hPa' := above_hashedPairs node (fuel + 1) a
        have hPb' := above_hashedPairs node (fuel' + 1) b
        have hhead : ∀ p ∈ adjacent (pad a), p ∈ P := fun p hp =>
          hPa p (hPa' a (Above.refl a) hfuel (by omega) p hp)
        have hhead' : ∀ p ∈ adjacent (pad b), p ∈ P := fun p hp =>
          hPb p (hPb' b (Above.refl b) hfuel' (by omega) p hp)
        have hrest : ∀ p ∈ hashedPairs node fuel (nextLevel node a), p ∈ P := by
          rw [hashedPairs, if_neg hashort] at hPa
          exact fun p hp => hPa p (List.mem_append_right _ hp)
        have hrest' : ∀ p ∈ hashedPairs node fuel' (nextLevel node b), p ∈ P := by
          rw [hashedPairs, if_neg hbshort] at hPb
          exact fun p hp => hPb p (List.mem_append_right _ hp)
        rw [climb, if_neg hashort, climb, if_neg hbshort] at h
        have hnext := ih fuel' (nextLevel node a) (nextLevel node b)
          (nextLevel_ne_nil node a hane) (nextLevel_ne_nil node b hbne) (by omega) (by omega)
          hrest hrest' h (by omega) (by omega)
        rcases hnext with ⟨upper, habove, hcomparable⟩ | ⟨upper, habove, hcomparable⟩
        · obtain ⟨lower, hlower, hlong, rfl⟩ := above_next node a _ (by omega) habove
          exact Or.inl ⟨lower, hlower, comparable_of_nextLevel hinj lower b
            (fun p hp => hPa p (hPa' lower hlower hfuel hlong p hp)) hhead' hcomparable⟩
        · obtain ⟨lower, hlower, hlong, rfl⟩ := above_next node b _ (by omega) habove
          exact Or.inr ⟨lower, hlower, comparable_of_nextLevel hinj lower a
            (fun p hp => hPb p (hPb' lower hlower hfuel' hlong p hp)) hhead hcomparable⟩

omit hinj in
/-- A list of leaves is comparable with no level that stands strictly above another list. -/
theorem comparable_of_above (fuel : ℕ) (a b upper : List D) (hbne : b ≠ [])
    (hfuel : a.length ≤ fuel) (h : Above node a upper) (hcomparable : Comparable upper b)
    (hleaf : ∀ leaf ∈ b, ∀ p ∈ hashedPairs node fuel a, leaf ≠ node p.1 p.2) :
    Comparable a b := by
  cases h with
  | refl => exact hcomparable
  | up hlen habove =>
    exfalso
    obtain ⟨lower, hlower, hlong, rfl⟩ := above_next node a upper hlen habove
    have hupperne := nextLevel_ne_nil node lower (List.length_pos_iff.mp (by omega))
    have hshared : ∃ leaf, leaf ∈ b ∧ leaf ∈ nextLevel node lower := by
      rcases hcomparable with hprefix | hprefix
      · obtain ⟨leaf, hmem⟩ := List.exists_mem_of_ne_nil _ hupperne
        exact ⟨leaf, hprefix.subset hmem, hmem⟩
      · obtain ⟨leaf, hmem⟩ := List.exists_mem_of_ne_nil _ hbne
        exact ⟨leaf, hmem, hprefix.subset hmem⟩
    obtain ⟨leaf, hmem, hnode⟩ := hshared
    obtain ⟨p, hp, rfl⟩ := List.mem_map.mp hnode
    exact hleaf _ hmem p (above_hashedPairs node fuel a lower hlower hfuel hlong p hp) rfl

/-- The root binds a list of leaves up to copies at its end: of two lists with one root the
one is a beginning of the other. -/
theorem climb_comparable (a b : List D) (hane : a ≠ []) (hbne : b ≠ [])
    (hPa : ∀ p ∈ hashedPairs node a.length a, p ∈ P)
    (hPb : ∀ p ∈ hashedPairs node b.length b, p ∈ P)
    (hleaf : ∀ leaf, leaf ∈ a ∨ leaf ∈ b → ∀ p ∈ P, leaf ≠ node p.1 p.2)
    (h : climb node a.length a = climb node b.length b) : Comparable a b := by
  rcases above_comparable hinj a.length b.length a b hane hbne le_rfl le_rfl hPa hPb h with
    ⟨upper, habove, hcomparable⟩ | ⟨upper, habove, hcomparable⟩
  · exact comparable_of_above a.length a b upper hbne le_rfl habove hcomparable
      (fun leaf hmem p hp => hleaf leaf (Or.inr hmem) p (hPa p hp))
  · exact (comparable_of_above b.length b a upper hane le_rfl habove hcomparable
      (fun leaf hmem p hp => hleaf leaf (Or.inl hmem) p (hPb p hp))).symm

end Prefixes

end Decillion.MerkleTrees
