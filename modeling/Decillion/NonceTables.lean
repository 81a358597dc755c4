import Decillion.AccessRequests
import Mathlib.Data.List.Induction

/-!
The table of nonces against an ideal one. The table keeps entries that have expired until it
is full, and an entry may be overwritten in place; an ideal table remembers every nonce it
has accepted and looks only at those that are alive. Both accept the same nonces in every
run whose times do not decrease.
-/
namespace Decillion.NonceTables

open Dictionaries JsonStrings AccessRequests

variable (F : Type) [FloatTime F]

/-- A key with a nonce, and the time at which it is presented. -/
abbrev Call := (String × String) × ℚ

structure Replayed where
  cache : NonceCache
  accepted : List Call

def Replayed.record (r : Replayed) (call : Call) : Replayed :=
  let answer := r.cache.accept F call.1 call.2
  ⟨answer.2, if answer.1 then r.accepted ++ [call] else r.accepted⟩

/-- A new table after a run of calls, and the calls that it has accepted. -/
def replay (ttl : ℚ) (maxEntries : ℕ) (calls : List Call) : Replayed :=
  calls.foldl (Replayed.record F) ⟨⟨ttl, maxEntries, Dict.empty⟩, []⟩

/-- The different pairs that have been accepted and are still alive. -/
def livePairs (ttl : ℚ) (accepted : List Call) (now : ℚ) : List (String × String) :=
  ((accepted.filter (fun call => now < FloatTime.sum F call.2 ttl)).map Prod.fst).dedup

theorem mem_livePairs (ttl : ℚ) (accepted : List Call) (now : ℚ) (key : String × String) :
    key ∈ livePairs F ttl accepted now ↔ ∃ t, (key, t) ∈ accepted ∧
      now < FloatTime.sum F t ttl := by
  rw [livePairs, List.mem_dedup, List.mem_map]
  constructor
  · rintro ⟨⟨key, t⟩, hcall, rfl⟩
    obtain ⟨hmem, hlive⟩ := List.mem_filter.mp hcall
    exact ⟨t, hmem, of_decide_eq_true hlive⟩
  · rintro ⟨t, hmem, hlive⟩
    exact ⟨(key, t), List.mem_filter.mpr ⟨hmem, decide_eq_true hlive⟩, rfl⟩

/-- The table says of every pair that was accepted until when it is barred, unless that time
has passed, and it holds nothing else. -/
structure Agrees (ttl : ℚ) (maxEntries : ℕ) (last : ℚ) (r : Replayed) : Prop where
  lifetime : r.cache.ttl = ttl
  limit : r.cache.maxEntries = maxEntries
  stored : ∀ key expiry, r.cache.seen.get? key = some expiry →
    ∃ t, (key, t) ∈ r.accepted ∧ expiry = FloatTime.sum F t ttl
  covered : ∀ key t, (key, t) ∈ r.accepted → FloatTime.sum F t ttl ≤ last ∨
    ∃ expiry, r.cache.seen.get? key = some expiry ∧ FloatTime.sum F t ttl ≤ expiry
  past : ∀ call ∈ r.accepted, call.2 ≤ last
  size : r.cache.seen.size ≤ maxEntries

section Agreement

variable {F} {ttl last now : ℚ} {maxEntries : ℕ} {r : Replayed}

theorem agrees_start (ttl last : ℚ) (maxEntries : ℕ) :
    Agrees F ttl maxEntries last ⟨⟨ttl, maxEntries, Dict.empty⟩, []⟩ := by
  constructor <;> simp [Dict.get?_empty]
  simp [Dict.size, Dict.empty]

theorem Agrees.later (h : Agrees F ttl maxEntries last r) (hle : last ≤ now) :
    Agrees F ttl maxEntries now r where
  lifetime := h.lifetime
  limit := h.limit
  stored := h.stored
  covered := fun key t hmem => (h.covered key t hmem).imp_left (fun hexpired => hexpired.trans hle)
  past := fun call hmem => (h.past call hmem).trans hle
  size := h.size

theorem Agrees.purge (h : Agrees F ttl maxEntries now r) :
    Agrees F ttl maxEntries now ⟨r.cache.purge now, r.accepted⟩ where
  lifetime := h.lifetime
  limit := h.limit
  stored := by
    intro key expiry hkey
    rw [NonceCache.purge, Dict.get?_filter, Option.filter_eq_some_iff] at hkey
    exact h.stored key expiry hkey.1
  covered := by
    intro key t hmem
    rcases h.covered key t hmem with hexpired | ⟨expiry, hkey, hle⟩
    · exact Or.inl hexpired
    · by_cases hlive : now < expiry
      · refine Or.inr ⟨expiry, ?_, hle⟩
        rw [NonceCache.purge, Dict.get?_filter, Option.filter_eq_some_iff]
        exact ⟨hkey, decide_eq_true hlive⟩
      · exact Or.inl (hle.trans (not_lt.mp hlive))
  past := h.past
  size := (Dict.size_filter_le _ _).trans h.size

/-- What the table bars is what an ideal one bars. -/
theorem Agrees.knows_iff (h : Agrees F ttl maxEntries now r) (hnow : 0 ≤ now)
    (key : String × String) :
    r.cache.knows key now = true ↔ key ∈ livePairs F ttl r.accepted now := by
  rw [mem_livePairs, NonceCache.knows, decide_eq_true_eq]
  constructor
  · intro hknown
    cases hkey : r.cache.seen.get? key with
    | none =>
      rw [hkey, Option.getD_none] at hknown
      exact absurd hnow (not_le.mpr hknown)
    | some expiry =>
      rw [hkey, Option.getD_some] at hknown
      obtain ⟨t, hmem, rfl⟩ := h.stored key expiry hkey
      exact ⟨t, hmem, hknown⟩
  · rintro ⟨t, hmem, hlive⟩
    rcases h.covered key t hmem with hexpired | ⟨expiry, hkey, hle⟩
    · exact absurd hexpired (not_le.mpr hlive)
    · rw [hkey, Option.getD_some]
      exact hlive.trans_le hle

/-- A live pair is in the table. -/
theorem Agrees.mem_keys (h : Agrees F ttl maxEntries now r) {key : String × String}
    (hkey : key ∈ livePairs F ttl r.accepted now) : key ∈ r.cache.seen.entries.map Prod.fst := by
  obtain ⟨t, hmem, hlive⟩ := (mem_livePairs _ _ _ _ _).mp hkey
  rcases h.covered key t hmem with hexpired | ⟨expiry, hstored, -⟩
  · exact absurd hexpired (not_le.mpr hlive)
  · rw [Dict.mem_keys, hstored]
    rfl

theorem Agrees.livePairs_le (h : Agrees F ttl maxEntries now r) :
    (livePairs F ttl r.accepted now).length ≤ r.cache.seen.size := by
  have hsubset : livePairs F ttl r.accepted now ⊆ r.cache.seen.entries.map Prod.fst :=
    fun _ hkey => h.mem_keys hkey
  have hlength := (List.subperm_of_subset (List.nodup_dedup _) hsubset).length_le
  rwa [List.length_map] at hlength

/-- After a purge only live pairs are left. -/
theorem Agrees.size_purge (h : Agrees F ttl maxEntries now r) :
    (r.cache.purge now).seen.size = (livePairs F ttl r.accepted now).length := by
  apply le_antisymm _ h.purge.livePairs_le
  rw [Dict.size, ← List.length_map Prod.fst]
  apply (List.subperm_of_subset (r.cache.purge now).seen.nodup _).length_le
  intro key hkey
  obtain ⟨expiry, hexpiry⟩ := Option.isSome_iff_exists.mp ((Dict.mem_keys _ _).mp hkey)
  rw [NonceCache.purge, Dict.get?_filter, Option.filter_eq_some_iff] at hexpiry
  obtain ⟨t, hmem, rfl⟩ := h.stored key expiry hexpiry.1
  exact (mem_livePairs _ _ _ _ _).mpr ⟨t, hmem, of_decide_eq_true hexpiry.2⟩

theorem Agrees.remember (h : Agrees F ttl maxEntries now r) (key : String × String)
    (hroom : r.cache.seen.size < maxEntries) :
    Agrees F ttl maxEntries now ⟨r.cache.remember F key now, r.accepted ++ [(key, now)]⟩ where
  lifetime := h.lifetime
  limit := h.limit
  stored := by
    intro other expiry hother
    rw [NonceCache.remember, Dict.get?_set, h.lifetime] at hother
    split at hother
    · rename_i hkey
      exact ⟨now, by simp [hkey], (Option.some.inj hother).symm⟩
    · obtain ⟨t, hmem, hexpiry⟩ := h.stored other expiry hother
      exact ⟨t, List.mem_append_left _ hmem, hexpiry⟩
  covered := by
    intro other t hmem
    rw [NonceCache.remember, Dict.get?_set, h.lifetime]
    rcases List.mem_append.mp hmem with hmem | hmem
    · by_cases hkey : other = key
      · have hpast := h.past _ hmem
        exact Or.inr ⟨FloatTime.sum F now ttl, if_pos hkey, FloatTime.sum_mono ttl hpast⟩
      · rw [if_neg hkey]
        exact h.covered other t hmem
    · obtain ⟨rfl, rfl⟩ := Prod.mk.inj (List.mem_singleton.mp hmem)
      exact Or.inr ⟨FloatTime.sum F t ttl, if_pos rfl, le_rfl⟩
  past := by
    intro call hmem
    rcases List.mem_append.mp hmem with hmem | hmem
    · exact h.past call hmem
    · rw [List.mem_singleton.mp hmem]
  size := (Dict.size_set_le _ _ _).trans hroom

/-- The answer to a call, and the table afterwards. -/
theorem Agrees.accept (h : Agrees F ttl maxEntries now r) (hnow : 0 ≤ now) (key : String × String) :
    ((r.cache.accept F key now).1 = true ↔ key ∉ livePairs F ttl r.accepted now ∧
      (livePairs F ttl r.accepted now).length < maxEntries) ∧
    Agrees F ttl maxEntries now (r.record F (key, now)) := by
  have hlook : ∀ r' : Replayed, Agrees F ttl maxEntries now r' → r'.accepted = r.accepted →
      r'.cache.seen.size < maxEntries →
      (r.cache.accept F key now = if r'.cache.knows key now then (false, r'.cache)
        else (true, r'.cache.remember F key now)) →
      ((r.cache.accept F key now).1 = true ↔ key ∉ livePairs F ttl r.accepted now ∧
        (livePairs F ttl r.accepted now).length < maxEntries) ∧
      Agrees F ttl maxEntries now (r.record F (key, now)) := by
    rintro ⟨cache, accepted⟩ h' rfl hroom haccept
    have hcount := h'.livePairs_le.trans_lt hroom
    have hknows := h'.knows_iff hnow key
    rw [Replayed.record, haccept]
    split
    · rename_i hknown
      refine ⟨⟨fun hfalse => absurd hfalse (by simp), ?_⟩, h'⟩
      exact fun hnot => absurd (hknows.mp hknown) hnot.1
    · rename_i hunknown
      refine ⟨⟨fun _ => ⟨fun hlive => hunknown (hknows.mpr hlive), hcount⟩, fun _ => rfl⟩, ?_⟩
      exact h'.remember key hroom
  by_cases hfull : r.cache.isFull = true
  · by_cases hpurged : (r.cache.purge now).isFull = true
    · have haccept : r.cache.accept F key now = (false, r.cache.purge now) := by
        simp only [NonceCache.accept, hfull, hpurged, if_true]
      rw [Replayed.record, haccept]
      refine ⟨⟨fun hfalse => absurd hfalse (by simp), ?_⟩, h.purge⟩
      rintro ⟨-, hcount⟩
      rw [NonceCache.isFull, decide_eq_true_eq, h.purge.limit, h.size_purge] at hpurged
      omega
    · apply hlook ⟨r.cache.purge now, r.accepted⟩ h.purge rfl
      · rw [NonceCache.isFull, decide_eq_true_eq, h.purge.limit] at hpurged
        exact not_le.mp hpurged
      · simp only [NonceCache.accept, hfull, hpurged, if_true, if_false, Bool.false_eq_true]
  · apply hlook r h rfl
    · rw [NonceCache.isFull, decide_eq_true_eq, h.limit] at hfull
      exact not_le.mp hfull
    · simp only [NonceCache.accept, hfull, if_false, Bool.false_eq_true]

end Agreement

/-- The times of a run do not decrease and none is negative. -/
def InOrder (calls : List Call) : Prop :=
  calls.Pairwise (fun a b => a.2 ≤ b.2) ∧ ∀ call ∈ calls, 0 ≤ call.2

instance (calls : List Call) : Decidable (InOrder calls) := by unfold InOrder; infer_instance

theorem agrees_replay (ttl : ℚ) (maxEntries : ℕ) (calls : List Call) (now : ℚ)
    (horder : InOrder calls) (hnow : ∀ call ∈ calls, call.2 ≤ now) :
    Agrees F ttl maxEntries now (replay F ttl maxEntries calls) := by
  induction calls using List.reverseRecOn generalizing now with
  | nil => exact agrees_start ttl now maxEntries
  | append_singleton calls call ih =>
    obtain ⟨hsorted, hpositive⟩ := horder
    obtain ⟨hcalls, -, hlast⟩ := List.pairwise_append.mp hsorted
    have hbefore := ih call.2 ⟨hcalls, fun c hc => hpositive c (List.mem_append_left _ hc)⟩
      (fun c hc => hlast c hc call (List.mem_singleton_self _))
    rw [replay, List.foldl_concat]
    exact ((hbefore.accept (hpositive call (by simp)) call.1).2).later (hnow call (by simp))

/-- The table answers every call as an ideal one does and never outgrows its limit. -/
theorem accept_ideal (ttl : ℚ) (maxEntries : ℕ) (calls : List Call) (key : String × String)
    (now : ℚ) (horder : InOrder (calls ++ [(key, now)])) :
    (((replay F ttl maxEntries calls).cache.accept F key now).1 = true ↔
      (∀ t, (key, t) ∈ (replay F ttl maxEntries calls).accepted → ¬ now < FloatTime.sum F t ttl) ∧
        (livePairs F ttl (replay F ttl maxEntries calls).accepted now).length < maxEntries) ∧
    (replay F ttl maxEntries (calls ++ [(key, now)])).cache.seen.size ≤ maxEntries := by
  have hagrees := agrees_replay F ttl maxEntries (calls ++ [(key, now)]) now horder (by
    intro call hcall
    rcases List.mem_append.mp hcall with hcall | hcall
    · exact (List.pairwise_append.mp horder.1).2.2 call hcall _ (List.mem_singleton_self _)
    · rw [List.mem_singleton.mp hcall])
  obtain ⟨hsorted, hpositive⟩ := horder
  obtain ⟨hcalls, -, hlast⟩ := List.pairwise_append.mp hsorted
  have hbefore := agrees_replay F ttl maxEntries calls now
    ⟨hcalls, fun c hc => hpositive c (List.mem_append_left _ hc)⟩
    (fun c hc => hlast c hc _ (List.mem_singleton_self _))
  refine ⟨?_, hagrees.size⟩
  rw [(hbefore.accept (hpositive (key, now) (by simp)) key).1, mem_livePairs]
  simp only [not_exists, not_and]

/-- A pair is accepted again when it has expired, although the table still holds it. -/
theorem accept_ideal_sample :
    ((replay WholeFloat 600 1 [(("k", "n"), 0)]).cache.accept WholeFloat ("k", "n") 600).1 =
      true := by
  have haccepted : (replay WholeFloat 600 1 [(("k", "n"), 0)]).accepted = [(("k", "n"), 0)] := by
    decide +kernel
  refine (accept_ideal WholeFloat 600 1 [(("k", "n"), 0)] ("k", "n") 600 (by decide +kernel)).1.mpr
    ⟨?_, by decide +kernel⟩
  rw [haccepted]
  simp

end Decillion.NonceTables
