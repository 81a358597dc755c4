import Decillion.Dictionaries
import Decillion.PyErrors
import Mathlib.Algebra.GroupWithZero.Nat
import Mathlib.Data.List.Dedup
import Mathlib.Data.List.Induction
import Mathlib.Order.Bounds.Basic
import Mathlib.Algebra.BigOperators.Group.List.Basic

/-!
The cache of plaintext shards. Entries stand in the order of their last use. Storing a value
drops entries from the front until both limits are met. The keys in the cache are the end
of the history of uses in which every key is kept where it occurs last.
-/
namespace Decillion.ShardCaches

open ByteText Dictionaries PyErrors

structure ShardCache (κ : Type) where
  maxEntries : ℕ
  maxBytes : ℕ
  entries : Dict κ Bytes
  bytesUsed : ℤ
  hits : ℕ
  misses : ℕ
  evictions : ℕ

variable {κ : Type}

/-- `popitem(last=False)`; `none` when there is no item. -/
def popFirst (d : Dict κ Bytes) : Option ((κ × Bytes) × Dict κ Bytes) :=
  match h : d.entries with
  | [] => none
  | e :: rest => some (e, ⟨rest, by
      have hnodup := d.nodup
      rw [h, List.map_cons] at hnodup
      exact hnodup.of_cons⟩)

theorem popFirst_of_cons {d : Dict κ Bytes} {e : κ × Bytes} {rest : List (κ × Bytes)}
    (h : d.entries = e :: rest) : ∃ d', popFirst d = some (e, d') ∧ d'.entries = rest := by
  obtain ⟨entries, hnodup⟩ := d
  subst h
  exact ⟨_, rfl, rfl⟩

namespace ShardCache

def new (κ : Type) (maxEntries maxBytes : ℕ) : ShardCache κ :=
  ⟨maxEntries, maxBytes, Dict.empty, 0, 0, 0, 0⟩

def exceeds (cache : ShardCache κ) : Prop :=
  cache.maxEntries < cache.entries.size ∨ (cache.maxBytes : ℤ) < cache.bytesUsed

instance (cache : ShardCache κ) : Decidable cache.exceeds := by unfold exceeds; infer_instance

/-- The loop of `put`; one turn more than there are entries is fuel enough. -/
def evict : ℕ → ShardCache κ → Except PyError (ShardCache κ)
  | 0, cache => .ok cache
  | fuel + 1, cache =>
      if cache.exceeds then
        match popFirst cache.entries with
        | none => .error .keyError
        | some (evicted, entries) => evict fuel { cache with
            entries := entries
            bytesUsed := cache.bytesUsed - evicted.2.length
            evictions := cache.evictions + 1 }
      else .ok cache

variable [DecidableEq κ]

/-- `move_to_end(key)` -/
def moveToEnd (d : Dict κ Bytes) (key : κ) (value : Bytes) : Dict κ Bytes :=
  (d.erase key).set key value

def get (cache : ShardCache κ) (key : κ) : Option Bytes × ShardCache κ :=
  match cache.entries.get? key with
  | none => (none, { cache with misses := cache.misses + 1 })
  | some value => (some value, { cache with
      entries := moveToEnd cache.entries key value
      hits := cache.hits + 1 })

def put (cache : ShardCache κ) (key : κ) (value : Bytes) : Except PyError (ShardCache κ) :=
  if cache.maxBytes < value.length then .ok cache
  else
    let used := match cache.entries.get? key with
      | none => cache.bytesUsed
      | some previous => cache.bytesUsed - previous.length
    let entries := (cache.entries.erase key).set key value
    evict (entries.size + 1) { cache with
      entries := entries
      bytesUsed := used + value.length }

end ShardCache

inductive CacheCall (κ : Type) where
  | get (key : κ)
  | put (key : κ) (value : Bytes)

/-- A cache and the keys in the order in which they were used. -/
structure Used (κ : Type) where
  cache : ShardCache κ
  touched : List κ

variable [DecidableEq κ]

/-- A call uses its key when it finds or stores a value. -/
def Used.step (u : Used κ) : CacheCall κ → Except PyError (Used κ)
  | .get key =>
      let answer := u.cache.get key
      .ok ⟨answer.2, if answer.1.isSome then u.touched ++ [key] else u.touched⟩
  | .put key value => do
      let cache ← u.cache.put key value
      return ⟨cache, if value.length ≤ u.cache.maxBytes then u.touched ++ [key] else u.touched⟩

def run (u : Used κ) : List (CacheCall κ) → Except PyError (Used κ)
  | [] => .ok u
  | call :: rest => do
      let u ← u.step call
      run u rest

def totalBytes (entries : List (κ × Bytes)) : ℕ := (entries.map (fun e => e.2.length)).sum

/-- Both limits are met by a value once the first `count` of the entries before it are gone. -/
def Fits (maxEntries maxBytes : ℕ) (front : List (κ × Bytes)) (value : Bytes) (count : ℕ) : Prop :=
  (front.drop count).length + 1 ≤ maxEntries ∧
    totalBytes (front.drop count) + value.length ≤ maxBytes

structure Sound (maxEntries maxBytes : ℕ) (u : Used κ) : Prop where
  limits : u.cache.maxEntries = maxEntries ∧ u.cache.maxBytes = maxBytes
  bytes : u.cache.bytesUsed = totalBytes u.cache.entries.entries
  count : u.cache.entries.size ≤ maxEntries
  room : u.cache.bytesUsed ≤ maxBytes
  recency : u.cache.entries.entries.map Prod.fst <:+ u.touched.dedup

section Entries

omit [DecidableEq κ] in
theorem totalBytes_append (a b : List (κ × Bytes)) :
    totalBytes (a ++ b) = totalBytes a + totalBytes b := by
  rw [totalBytes, List.map_append, List.sum_append]
  rfl

omit [DecidableEq κ] in
theorem totalBytes_cons (e : κ × Bytes) (entries : List (κ × Bytes)) :
    totalBytes (e :: entries) = e.2.length + totalBytes entries := by
  rw [totalBytes, List.map_cons, List.sum_cons]
  rfl

/-- What is lost when the entry of a key is erased. -/
theorem totalBytes_erase (d : Dict κ Bytes) (key : κ) :
    totalBytes d.entries =
      totalBytes (d.erase key).entries + ((d.get? key).getD []).length := by
  obtain ⟨entries, hnodup⟩ := d
  change totalBytes entries = totalBytes (entries.filter (fun e => decide (e.1 ≠ key))) +
    ((((entries.find? (fun e => decide (e.1 = key))).map Prod.snd)).getD []).length
  induction entries with
  | nil => rfl
  | cons e entries ih =>
    rw [List.map_cons, List.nodup_cons] at hnodup
    by_cases hkey : e.1 = key
    · have hkept : entries.filter (fun e => decide (e.1 ≠ key)) = entries := by
        rw [List.filter_eq_self]
        intro other hother
        refine decide_eq_true fun heq => hnodup.1 ?_
        rw [hkey, ← heq]
        exact List.mem_map_of_mem hother
      rw [List.filter_cons_of_neg (by simpa using hkey), hkept,
        List.find?_cons_of_pos (by simpa using hkey), totalBytes_cons]
      exact Nat.add_comm _ _
    · rw [List.filter_cons_of_pos (by simpa using hkey),
        List.find?_cons_of_neg (by simpa using hkey), totalBytes_cons, totalBytes_cons,
        ih hnodup.2, Nat.add_assoc]

/-- A key that was erased is set at the end. -/
theorem entries_set_erase (d : Dict κ Bytes) (key : κ) (value : Bytes) :
    ((d.erase key).set key value).entries = (d.erase key).entries ++ [(key, value)] := by
  have hnone : ((d.erase key).get? key).isSome = false := by rw [Dict.get?_erase, if_pos rfl]; rfl
  unfold Dict.set
  rw [dif_neg (by simp [hnone])]

theorem keys_erase (d : Dict κ Bytes) (key : κ) :
    (d.erase key).entries.map Prod.fst =
      (d.entries.map Prod.fst).filter (fun k => decide (k ≠ key)) := by
  rw [List.filter_map]
  rfl

theorem dedup_concat (keys : List κ) (key : κ) :
    (keys ++ [key]).dedup = keys.dedup.filter (fun k => decide (k ≠ key)) ++ [key] := by
  induction keys with
  | nil => rfl
  | cons a keys ih =>
    by_cases hmem : a ∈ keys
    · rw [List.cons_append, List.dedup_cons_of_mem (List.mem_append_left _ hmem), ih,
        List.dedup_cons_of_mem hmem]
    · by_cases hkey : a = key
      · rw [List.cons_append, List.dedup_cons_of_mem (by simp [hkey]), ih,
          List.dedup_cons_of_notMem hmem, List.filter_cons_of_neg (by simpa using hkey)]
      · rw [List.cons_append, List.dedup_cons_of_notMem (by simp [hmem, hkey]), ih,
          List.dedup_cons_of_notMem hmem, List.filter_cons_of_pos (by simpa using hkey),
          List.cons_append]

/-- The key that is used last goes to the end, and others leave from the front. -/
theorem recency_concat {keys touched : List κ} (h : keys <:+ touched.dedup) (key : κ) (count : ℕ) :
    (keys.filter (fun k => decide (k ≠ key))).drop count ++ [key] <:+ (touched ++ [key]).dedup := by
  obtain ⟨before, hbefore⟩ :=
    (List.drop_suffix count _).trans (h.filter (fun k => decide (k ≠ key)))
  rw [dedup_concat]
  exact ⟨before, by rw [← List.append_assoc, hbefore]⟩

end Entries

section Eviction

omit [DecidableEq κ]

theorem fits_cons (maxEntries maxBytes : ℕ) (e : κ × Bytes) (front : List (κ × Bytes))
    (value : Bytes) (count : ℕ) :
    Fits maxEntries maxBytes (e :: front) value (count + 1) ↔
      Fits maxEntries maxBytes front value count := Iff.rfl

/-- The loop drops the shortest run of entries from the front and never an entry that is not
there. -/
theorem evict_fits (front : List (κ × Bytes)) (last : κ × Bytes) (cache : ShardCache κ) (fuel : ℕ)
    (hentries : cache.entries.entries = front ++ [last])
    (hbytes : cache.bytesUsed = totalBytes cache.entries.entries) (hmax : 1 ≤ cache.maxEntries)
    (hlast : last.2.length ≤ cache.maxBytes) (hfuel : front.length < fuel) :
    ∃ count entries, IsLeast {n | Fits cache.maxEntries cache.maxBytes front last.2 n} count ∧
      entries.entries = front.drop count ++ [last] ∧
      cache.evict fuel = .ok { cache with
        entries := entries
        bytesUsed := totalBytes entries.entries
        evictions := cache.evictions + count } := by
  induction front generalizing cache fuel with
  | nil =>
    obtain ⟨fuel, rfl⟩ := Nat.exists_eq_succ_of_ne_zero (by omega : fuel ≠ 0)
    have hsize : cache.entries.size = 1 := by rw [Dict.size, hentries]; rfl
    have hused : cache.bytesUsed = last.2.length := by
      rw [hbytes, hentries, List.nil_append, totalBytes_cons]
      rfl
    have hexceeds : ¬ cache.exceeds := by
      rintro (hcount | hroom)
      · omega
      · omega
    refine ⟨0, cache.entries, ⟨⟨hmax, ?_⟩, fun n _ => Nat.zero_le n⟩, hentries, ?_⟩
    · rw [List.drop_nil, totalBytes, List.map_nil, List.sum_nil]
      omega
    · rw [ShardCache.evict, if_neg hexceeds, ← hbytes]
      rfl
  | cons e front ih =>
    obtain ⟨fuel, rfl⟩ := Nat.exists_eq_succ_of_ne_zero (by omega : fuel ≠ 0)
    rw [List.length_cons] at hfuel
    have hsize : cache.entries.size = front.length + 2 := by
      rw [Dict.size, hentries, List.length_append, List.length_cons]
      rfl
    have hused : cache.bytesUsed = totalBytes (e :: front) + last.2.length := by
      rw [hbytes, hentries, totalBytes_append, totalBytes_cons last []]
      simp [totalBytes]
    have hfits : Fits cache.maxEntries cache.maxBytes (e :: front) last.2 0 ↔ ¬ cache.exceeds := by
      rw [Fits, ShardCache.exceeds, List.drop_zero, List.length_cons]
      omega
    by_cases hexceeds : cache.exceeds
    · obtain ⟨rest, hpop, hrest⟩ := popFirst_of_cons (hentries.trans (List.cons_append ..))
      obtain ⟨count, entries, ⟨hmem, hleast⟩, hdropped, hevict⟩ := ih { cache with
        entries := rest
        bytesUsed := cache.bytesUsed - e.2.length
        evictions := cache.evictions + 1 } fuel hrest (by
          rw [hrest, hused, totalBytes_append, totalBytes_cons, totalBytes_cons last []]
          simp [totalBytes]
          omega) hmax hlast (by omega)
      refine ⟨count + 1, entries, ⟨hmem, ?_⟩, hdropped, ?_⟩
      · rintro (_ | n) hn
        · exact absurd hexceeds (hfits.mp hn)
        · exact Nat.succ_le_succ (hleast hn)
      · rw [ShardCache.evict, if_pos hexceeds, hpop]
        refine hevict.trans ?_
        rw [Nat.add_assoc, Nat.add_comm 1 count]
    · refine ⟨0, cache.entries, ⟨hfits.mpr hexceeds, fun n _ => Nat.zero_le n⟩, hentries, ?_⟩
      rw [ShardCache.evict, if_neg hexceeds, ← hbytes]
      rfl

end Eviction

section Calls

variable {maxEntries maxBytes : ℕ} {u : Used κ}

/-- Storing a value drops the shortest run of other entries that makes room for it. -/
theorem put_stored (cache : ShardCache κ) (key : κ) (value : Bytes)
    (hbytes : cache.bytesUsed = totalBytes cache.entries.entries) (hmax : 1 ≤ cache.maxEntries)
    (hvalue : value.length ≤ cache.maxBytes) :
    ∃ count entries, IsLeast {n | Fits cache.maxEntries cache.maxBytes
        (cache.entries.erase key).entries value n} count ∧
      entries.entries = (cache.entries.erase key).entries.drop count ++ [(key, value)] ∧
      cache.put key value = .ok { cache with
        entries := entries
        bytesUsed := totalBytes entries.entries
        evictions := cache.evictions + count } := by
  have hentries := entries_set_erase cache.entries key value
  have htotal := totalBytes_erase cache.entries key
  have hused : (match cache.entries.get? key with
      | none => cache.bytesUsed
      | some previous => cache.bytesUsed - previous.length) + value.length =
        ((totalBytes ((cache.entries.erase key).set key value).entries : ℕ) : ℤ) := by
    rw [hentries, totalBytes_append, hbytes, htotal, totalBytes_cons (key, value) []]
    cases cache.entries.get? key <;> simp [totalBytes]
  obtain ⟨count, entries, hleast, hdropped, hevict⟩ := evict_fits (cache.entries.erase key).entries
    (key, value) { cache with
      entries := (cache.entries.erase key).set key value
      bytesUsed := totalBytes ((cache.entries.erase key).set key value).entries }
    (((cache.entries.erase key).set key value).size + 1) hentries rfl hmax hvalue (by
      rw [Dict.size, hentries, List.length_append]
      omega)
  refine ⟨count, entries, hleast, hdropped, ?_⟩
  rw [ShardCache.put, if_neg (by omega)]
  dsimp only
  rw [hused]
  exact hevict

theorem sound_get (h : Sound maxEntries maxBytes u) (key : κ) :
    ∃ u', u.step (.get key) = .ok u' ∧ Sound maxEntries maxBytes u' := by
  unfold Used.step ShardCache.get
  dsimp only
  cases hkey : u.cache.entries.get? key with
  | none => exact ⟨_, rfl, h.limits, h.bytes, h.count, h.room, h.recency⟩
  | some value =>
    have hentries := entries_set_erase u.cache.entries key value
    have htotal := totalBytes_erase u.cache.entries key
    rw [hkey, Option.getD_some] at htotal
    have hsame : totalBytes ((u.cache.entries.erase key).set key value).entries =
        totalBytes u.cache.entries.entries := by
      rw [hentries, totalBytes_append, htotal, totalBytes_cons (key, value) []]
      rfl
    have hsize := u.cache.entries.size_erase_lt key (by rw [hkey]; rfl)
    have hcount := h.count
    have hrecency := recency_concat h.recency key 0
    rw [List.drop_zero, ← keys_erase] at hrecency
    refine ⟨_, rfl, h.limits, ?_, ?_, h.room, ?_⟩
    · exact h.bytes.trans (congrArg Nat.cast hsame.symm)
    · have hset := (u.cache.entries.erase key).size_set_le key value
      exact hset.trans (by omega)
    · change ((u.cache.entries.erase key).set key value).entries.map Prod.fst <:+ _
      rw [hentries, List.map_append]
      exact hrecency

theorem sound_put (hmax : 1 ≤ maxEntries) (h : Sound maxEntries maxBytes u) (key : κ)
    (value : Bytes) : ∃ u', u.step (.put key value) = .ok u' ∧ Sound maxEntries maxBytes u' := by
  obtain ⟨hentries, hbytes⟩ := h.limits
  by_cases hvalue : value.length ≤ u.cache.maxBytes
  · obtain ⟨count, entries, ⟨hfits, -⟩, hstored, hput⟩ := put_stored u.cache key value h.bytes
      (by omega) hvalue
    have hrecency := recency_concat h.recency key count
    rw [← keys_erase, ← List.map_drop] at hrecency
    have htotal : totalBytes entries.entries = totalBytes
        ((u.cache.entries.erase key).entries.drop count) + value.length := by
      rw [hstored, totalBytes_append, totalBytes_cons (key, value) []]
      rfl
    have hcount := hfits.1
    have hroom := hfits.2
    rw [Used.step, hput, if_pos hvalue]
    refine ⟨_, rfl, h.limits, rfl, ?_, ?_, ?_⟩
    · rw [Dict.size, hstored, List.length_append, List.length_singleton]
      omega
    · change ((totalBytes entries.entries : ℕ) : ℤ) ≤ maxBytes
      omega
    · rw [hstored, List.map_append]
      exact hrecency
  · refine ⟨u, ?_, h⟩
    rw [Used.step, ShardCache.put, if_pos (by omega), if_neg hvalue]
    rfl

theorem sound_run (hmax : 1 ≤ maxEntries) (calls : List (CacheCall κ))
    (h : Sound maxEntries maxBytes u) :
    ∃ u', run u calls = .ok u' ∧ Sound maxEntries maxBytes u' := by
  induction calls generalizing u with
  | nil => exact ⟨u, rfl, h⟩
  | cons call rest ih =>
    have hstep : ∃ u', u.step call = .ok u' ∧ Sound maxEntries maxBytes u' := by
      cases call with
      | get key => exact sound_get h key
      | put key value => exact sound_put hmax h key value
    obtain ⟨u', hu', hsound⟩ := hstep
    obtain ⟨final, hfinal, hdone⟩ := ih hsound
    exact ⟨final, by rw [run, hu', ok_bind, hfinal], hdone⟩

end Calls

/-- No run of calls fails. The byte count is right, both limits hold, the entries stand in the
order of their last use, and a value that fits drops only what has to go. -/
theorem cache_sound (maxEntries maxBytes : ℕ) (hmax : 1 ≤ maxEntries)
    (calls : List (CacheCall κ)) :
    ∃ u, run ⟨ShardCache.new κ maxEntries maxBytes, []⟩ calls = .ok u ∧
      Sound maxEntries maxBytes u ∧
      ∀ key value, value.length ≤ maxBytes → ∃ count cache,
        u.cache.put key value = .ok cache ∧
        IsLeast {n | Fits maxEntries maxBytes (u.cache.entries.erase key).entries value n} count ∧
        cache.entries.entries =
          (u.cache.entries.erase key).entries.drop count ++ [(key, value)] ∧
        cache.evictions = u.cache.evictions + count := by
  have hstart : Sound maxEntries maxBytes ⟨ShardCache.new κ maxEntries maxBytes, []⟩ :=
    ⟨⟨rfl, rfl⟩, rfl, Nat.zero_le _, Int.natCast_nonneg _, List.suffix_rfl⟩
  obtain ⟨u, hrun, hsound⟩ := sound_run hmax calls hstart
  obtain ⟨hentries, hbytes⟩ := hsound.limits
  refine ⟨u, hrun, hsound, ?_⟩
  intro key value hvalue
  obtain ⟨count, entries, hleast, hstored, hput⟩ := put_stored u.cache key value hsound.bytes
    (by omega) (by omega)
  rw [hentries, hbytes] at hleast
  exact ⟨count, _, hput, hleast, hstored, rfl⟩

theorem cache_sound_sample :
    1 ≤ 2 ∧ ∃ u, run ⟨ShardCache.new ℕ 2 3, []⟩ [.put 1 [1, 2], .put 2 [3], .get 1] = .ok u ∧
      Sound 2 3 u ∧
      ∀ key value, value.length ≤ 3 → ∃ count cache,
        u.cache.put key value = .ok cache ∧
        IsLeast {n | Fits 2 3 (u.cache.entries.erase key).entries value n} count ∧
        cache.entries.entries =
          (u.cache.entries.erase key).entries.drop count ++ [(key, value)] ∧
        cache.evictions = u.cache.evictions + count :=
  ⟨by decide, cache_sound 2 3 (by decide) _⟩

end Decillion.ShardCaches
