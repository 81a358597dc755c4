import Decillion.ShardCaches

/-!
What a lookup in the cache of shards finds against what was stored last. The loop of `put`
only drops entries from the front, so an entry is either gone or as it was stored. A value
that is too large is not stored, and the entry that stands under its key is kept.
-/
namespace Decillion.ShardCoherence

open ByteText Dictionaries PyErrors ShardCaches

variable {κ : Type} [DecidableEq κ]

/-- The value of the most recent `put` of a key. -/
def latest (calls : List (CacheCall κ)) (key : κ) : Option Bytes :=
  calls.foldl (fun last call =>
    match call with
    | .get _ => last
    | .put other value => if key = other then some value else last) none

@[simp]
theorem latest_get (calls : List (CacheCall κ)) (key other : κ) :
    latest (calls ++ [.get other]) key = latest calls key := by
  rw [latest, List.foldl_concat]
  rfl

theorem latest_put (calls : List (CacheCall κ)) (key other : κ) (value : Bytes) :
    latest (calls ++ [.put other value]) key =
      if key = other then some value else latest calls key := by
  rw [latest, List.foldl_concat]
  rfl

/-- No lookup in a state of the run finds another value than the one stored last. -/
def Serves (maxEntries maxBytes : ℕ) (calls : List (CacheCall κ)) : Prop :=
  ∀ before, before <+: calls → ∀ u, run ⟨ShardCache.new κ maxEntries maxBytes, []⟩ before = .ok u →
    ∀ key, (u.cache.get key).1 = none ∨ (u.cache.get key).1 = latest before key

/-- A value that is too large is stored only under a key that the cache does not hold. -/
def Replaceable (maxEntries maxBytes : ℕ) (calls : List (CacheCall κ)) : Prop :=
  ∀ before key value, before ++ [.put key value] <+: calls → maxBytes < value.length →
    ∀ u, run ⟨ShardCache.new κ maxEntries maxBytes, []⟩ before = .ok u →
      u.cache.entries.get? key = none

section Steps

omit [DecidableEq κ] in
/-- What the loop leaves is the end of what was there. -/
theorem evict_suffix (fuel : ℕ) (cache cache' : ShardCache κ) (h : cache.evict fuel = .ok cache') :
    cache'.maxBytes = cache.maxBytes ∧ cache'.entries.entries <:+ cache.entries.entries := by
  induction fuel generalizing cache with
  | zero =>
    obtain rfl := Except.ok.inj h
    exact ⟨rfl, List.suffix_rfl⟩
  | succ fuel ih =>
    rw [ShardCache.evict] at h
    split at h
    · cases hentries : cache.entries.entries with
      | nil =>
        have hpop : popFirst cache.entries = none := by
          unfold popFirst
          split
          · rfl
          · rename_i hcons
            rw [hentries] at hcons
            simp at hcons
        rw [hpop] at h
        simp at h
      | cons e rest =>
        obtain ⟨d, hpop, hrest⟩ := popFirst_of_cons hentries
        rw [hpop] at h
        obtain ⟨hmax, hsuffix⟩ := ih _ h
        refine ⟨hmax, hsuffix.trans ?_⟩
        change d.entries <:+ _
        rw [hrest]
        exact List.suffix_cons e rest
    · obtain rfl := Except.ok.inj h
      exact ⟨rfl, List.suffix_rfl⟩

/-- An entry after a `put` is the stored value or was there before. -/
theorem get?_of_put {cache cache' : ShardCache κ} {key other : κ} {value found : Bytes}
    (hvalue : value.length ≤ cache.maxBytes) (h : cache.put key value = .ok cache')
    (hfound : cache'.entries.get? other = some found) :
    if other = key then found = value else cache.entries.get? other = some found := by
  rw [ShardCache.put, if_neg (not_lt.mpr hvalue)] at h
  obtain ⟨-, hsuffix⟩ := evict_suffix _ _ _ h
  have hmem := hsuffix.subset ((Dict.get?_eq_some_iff _ _ _).mp hfound)
  have hset := (Dict.get?_eq_some_iff _ _ _).mpr hmem
  rw [Dict.get?_set, Dict.get?_erase] at hset
  split
  · rename_i hkey
    rw [if_pos hkey] at hset
    exact (Option.some.inj hset).symm
  · rename_i hkey
    rwa [if_neg hkey, if_neg hkey] at hset

/-- An entry of another key was there before a `put`. -/
theorem get?_of_put_ne {cache cache' : ShardCache κ} {key other : κ} {value found : Bytes}
    (h : cache.put key value = .ok cache') (hne : other ≠ key)
    (hfound : cache'.entries.get? other = some found) :
    cache.entries.get? other = some found := by
  by_cases hvalue : value.length ≤ cache.maxBytes
  · have hput := get?_of_put hvalue h hfound
    rwa [if_neg hne] at hput
  · rw [ShardCache.put, if_pos (not_le.mp hvalue)] at h
    rwa [Except.ok.inj h]

theorem put_maxBytes {cache cache' : ShardCache κ} {key : κ} {value : Bytes}
    (h : cache.put key value = .ok cache') : cache'.maxBytes = cache.maxBytes := by
  rw [ShardCache.put] at h
  split at h
  · rw [Except.ok.inj h]
  · exact (evict_suffix _ _ _ h).1

theorem get?_of_get {cache : ShardCache κ} {key other : κ} :
    (cache.get key).2.entries.get? other = cache.entries.get? other := by
  unfold ShardCache.get
  cases hkey : cache.entries.get? key with
  | none => rfl
  | some value =>
    change ((cache.entries.erase key).set key value).get? other = _
    rw [Dict.get?_set, Dict.get?_erase]
    split
    · rename_i heq
      rw [heq, hkey]
    · rfl

theorem get_maxBytes {cache : ShardCache κ} {key : κ} :
    (cache.get key).2.maxBytes = cache.maxBytes := by
  unfold ShardCache.get
  cases cache.entries.get? key <;> rfl

theorem get_maxEntries {cache : ShardCache κ} {key : κ} :
    (cache.get key).2.maxEntries = cache.maxEntries := by
  unfold ShardCache.get
  cases cache.entries.get? key <;> rfl

theorem get_eq (cache : ShardCache κ) (key : κ) :
    (cache.get key).1 = cache.entries.get? key := by
  unfold ShardCache.get
  cases cache.entries.get? key <;> rfl

theorem get_size {cache : ShardCache κ} {key : κ} :
    (cache.get key).2.entries.size ≤ cache.entries.size ∧
      (cache.get key).2.bytesUsed = cache.bytesUsed := by
  unfold ShardCache.get
  cases hkey : cache.entries.get? key with
  | none => exact ⟨le_rfl, rfl⟩
  | some value =>
    have hless := Dict.size_erase_lt cache.entries key (by rw [hkey]; rfl)
    have hmost := Dict.size_set_le (cache.entries.erase key) key value
    exact ⟨by change ((cache.entries.erase key).set key value).size ≤ _; omega, rfl⟩

/-- As long as both limits leave room, a new value is stored and no entry is dropped. -/
theorem put_of_room {cache : ShardCache κ} {key : κ} {value : Bytes}
    (hnone : cache.entries.get? key = none) (hused : 0 ≤ cache.bytesUsed)
    (hcount : cache.entries.size < cache.maxEntries)
    (hroom : cache.bytesUsed + value.length ≤ cache.maxBytes) :
    cache.put key value = .ok { cache with
      entries := (cache.entries.erase key).set key value
      bytesUsed := cache.bytesUsed + value.length } := by
  have hsmall : ¬ cache.maxBytes < value.length := by omega
  have herase : (cache.entries.erase key).size ≤ cache.entries.size := Dict.size_filter_le _ _
  have hset := Dict.size_set_le (cache.entries.erase key) key value
  have hfew : ((cache.entries.erase key).set key value).size ≤ cache.maxEntries := by omega
  rw [ShardCache.put, if_neg hsmall, hnone, ShardCache.evict, if_neg]
  rintro (hmany | hlarge)
  · exact absurd hmany (not_lt.mpr hfew)
  · exact absurd hlarge (not_lt.mpr hroom)

end Steps

section Runs

variable {maxEntries maxBytes : ℕ} {calls : List (CacheCall κ)} {u : Used κ}

theorem run_append (u : Used κ) (front back : List (CacheCall κ)) :
    run u (front ++ back) = (run u front >>= fun u' => run u' back) := by
  induction front generalizing u with
  | nil => rfl
  | cons call rest ih =>
    rw [List.cons_append, run, run]
    cases u.step call with
    | error e => rfl
    | ok u' => exact ih u'

theorem run_concat {start : Used κ} {call : CacheCall κ}
    (h : run start (calls ++ [call]) = .ok u) :
    ∃ u', run start calls = .ok u' ∧ u'.step call = .ok u := by
  rw [run_append] at h
  obtain ⟨u', hu', hlast⟩ := bind_eq_ok h
  rw [run] at hlast
  obtain ⟨u'', hu'', hend⟩ := bind_eq_ok hlast
  obtain rfl := Except.ok.inj hend
  exact ⟨u', hu', hu''⟩

/-- The sizes of the entries are within the limit in every run. -/
theorem small_run (h : run ⟨ShardCache.new κ maxEntries maxBytes, []⟩ calls = .ok u) :
    u.cache.maxBytes = maxBytes ∧
      ∀ key value, u.cache.entries.get? key = some value → value.length ≤ maxBytes := by
  induction calls using List.reverseRecOn generalizing u with
  | nil =>
    obtain rfl := Except.ok.inj h
    exact ⟨rfl, by simp [ShardCache.new]⟩
  | append_singleton calls call ih =>
    obtain ⟨u', hu', hstep⟩ := run_concat h
    obtain ⟨hlimit, hsmall⟩ := ih hu'
    cases call with
    | get key =>
      obtain rfl := Except.ok.inj hstep
      refine ⟨get_maxBytes.trans hlimit, ?_⟩
      intro other value hother
      rw [get?_of_get] at hother
      exact hsmall other value hother
    | put key value =>
      obtain ⟨cache, hput, hend⟩ := bind_eq_ok hstep
      obtain rfl := Except.ok.inj hend
      refine ⟨(put_maxBytes hput).trans hlimit, ?_⟩
      intro other found hfound
      by_cases hvalue : value.length ≤ u'.cache.maxBytes
      · have hentry := get?_of_put hvalue hput hfound
        split at hentry
        · rw [hentry, ← hlimit]
          exact hvalue
        · exact hsmall other found hentry
      · rw [ShardCache.put, if_pos (not_le.mp hvalue)] at hput
        rw [← Except.ok.inj hput] at hfound
        exact hsmall other found hfound

/-- A run that replaces what it stores keeps the cache coherent. -/
theorem coherent_run (hcalls : Replaceable maxEntries maxBytes calls)
    (h : run ⟨ShardCache.new κ maxEntries maxBytes, []⟩ calls = .ok u) (key : κ) (found : Bytes)
    (hfound : u.cache.entries.get? key = some found) : latest calls key = some found := by
  induction calls using List.reverseRecOn generalizing u key found with
  | nil =>
    obtain rfl := Except.ok.inj h
    simp [ShardCache.new] at hfound
  | append_singleton calls call ih =>
    have hbefore : Replaceable maxEntries maxBytes calls := fun before key value hfront =>
      hcalls before key value (hfront.trans (List.prefix_append calls [call]))
    obtain ⟨u', hu', hstep⟩ := run_concat h
    cases call with
    | get other =>
      obtain rfl := Except.ok.inj hstep
      rw [get?_of_get] at hfound
      rw [latest_get]
      exact ih hbefore hu' key found hfound
    | put other value =>
      obtain ⟨cache, hput, hend⟩ := bind_eq_ok hstep
      obtain rfl := Except.ok.inj hend
      rw [latest_put]
      by_cases hvalue : value.length ≤ u'.cache.maxBytes
      · have hentry := get?_of_put hvalue hput hfound
        by_cases hkey : key = other
        · rw [if_pos hkey] at hentry ⊢
          rw [hentry]
        · rw [if_neg hkey] at hentry ⊢
          exact ih hbefore hu' key found hentry
      · -- the value is refused and the key is not in the cache
        rw [(small_run hu').1] at hvalue
        have hnone := hcalls calls other value (List.prefix_refl _) (not_le.mp hvalue) u' hu'
        rw [ShardCache.put, (small_run hu').1, if_pos (not_le.mp hvalue)] at hput
        rw [← Except.ok.inj hput] at hfound
        have hkey : key ≠ other := by
          rintro rfl
          rw [hnone] at hfound
          simp at hfound
        rw [if_neg hkey]
        exact ih hbefore hu' key found hfound

end Runs

/-- No lookup finds a value that has been superseded exactly in the runs in which a value that is
too large never comes for a key that the cache holds. -/
theorem serves_iff (maxEntries maxBytes : ℕ) (calls : List (CacheCall κ)) :
    Serves maxEntries maxBytes calls ↔ Replaceable maxEntries maxBytes calls := by
  constructor
  · intro hserves before key value hfront hvalue u hu
    cases hkey : u.cache.entries.get? key with
    | none => rfl
    | some old =>
      obtain ⟨hlimit, hsmall⟩ := small_run hu
      have hput : u.cache.put key value = .ok u.cache := by
        rw [ShardCache.put, hlimit, if_pos hvalue]
      have hrun : run ⟨ShardCache.new κ maxEntries maxBytes, []⟩ (before ++ [.put key value]) =
          .ok u := by
        rw [run_append, hu, ok_bind, run, Used.step, hput, ok_bind, hlimit,
          if_neg (not_le.mpr hvalue)]
        rfl
      have hfound := hserves _ hfront u hrun key
      rw [get_eq, hkey, latest_put, if_pos rfl] at hfound
      rcases hfound with hnone | hsome
      · simp at hnone
      · have hold := hsmall key old hkey
        rw [Option.some.inj hsome] at hold
        exact absurd hold (not_le.mpr hvalue)
  · intro hcalls before hbefore u hu key
    rw [get_eq]
    cases hkey : u.cache.entries.get? key with
    | none => exact Or.inl rfl
    | some found =>
      refine Or.inr (coherent_run ?_ hu key found hkey).symm
      exact fun front key value hfront => hcalls front key value (hfront.trans hbefore)

/-- A value that is too large leaves the one before it in the cache. -/
theorem superseded_served : ¬ ∀ (maxEntries maxBytes : ℕ) (calls : List (CacheCall ℕ)),
    Serves maxEntries maxBytes calls := by
  intro hclaim
  have hserves := hclaim 1 1 [.put 0 [7], .put 0 [8, 8]] _ (List.prefix_refl _) _ rfl 0
  rcases hserves with h | h
  · exact absurd h (by decide)
  · exact absurd h (by decide)

end Decillion.ShardCoherence
