import Decillion.ScriptedPeers
import Decillion.PullResults
import Decillion.PullRuns
import Decillion.ShardCoherence

/-!
Pulls after wrong shards. A shard enters the cache before the hash of the whole file is known
and the cache is asked before the peer, so what earlier calls have left there decides what a
pull from an honest peer puts together.
-/
namespace Decillion.PoisonedPulls

open ByteText Base64Text JsonStrings JsonValues JsonText JsonRoundTrip Primitives Dictionaries
open PyErrors PyValues HostSystem AccessRequests ShardVault ShardCaches RaisingPrograms
open TelepathMessages TelepathFrames TelepathSessions TelepathNodes TelepathAnswers
open TelepathPulls TelepathExchanges PulledFiles PullRuns PullResults ScriptedPeers ShardCoherence

variable {σ F α : Type} {p : Shards → Prop}

abbrev Shards := ShardCache (String × String × ℤ)

/-- What holds of the cache of a client. -/
def AtCache (p : Shards → Prop) (w : World σ F) : Prop := p w.cache

/-- The cache of a node after any calls. -/
def Undamaged (cache : Shards) : Prop := ∃ touched, Sound 512 (64 * 1024 ^ 2) ⟨cache, touched⟩

section Maintained

theorem maintains_onClient (y : Serving F α) :
    Maintains (AtCache p) (onClient y : Pulling σ F α) := fun _ hw => hw

theorem maintains_exchange (network : Network σ) (frame : Bytes) :
    Maintains (AtCache p) (exchange network frame : Pulling σ F Bytes) := fun _ hw => hw

theorem undamaged_get {cache : Shards} (h : Undamaged cache) (key : String × String × ℤ) :
    Undamaged (cache.get key).2 := by
  obtain ⟨touched, hsound⟩ := h
  obtain ⟨u, hstep, hsound'⟩ := sound_get hsound key
  obtain rfl := Except.ok.inj hstep
  exact ⟨_, hsound'⟩

theorem maintains_cacheGet (key : String × String × ℤ) :
    Maintains (AtCache Undamaged) (cacheGet key : Pulling σ F (Option Bytes)) := by
  intro w hw
  exact undamaged_get hw key

def stored (cache : Shards) (key : String × String × ℤ) (shard : Bytes) : Shards :=
  ((cache.put key shard).toOption).getD cache

/-- Storing a shard does not fail. -/
theorem put_stored_of_undamaged {cache : Shards} (h : Undamaged cache)
    (key : String × String × ℤ) (shard : Bytes) :
    cache.put key shard = .ok (stored cache key shard) ∧ Undamaged (stored cache key shard) := by
  obtain ⟨touched, hsound⟩ := h
  obtain ⟨u, hstep, hsound'⟩ := sound_put (by decide) hsound key shard
  obtain ⟨cache', hput, hu⟩ := bind_eq_ok hstep
  obtain rfl := Except.ok.inj hu
  have hstored : stored cache key shard = cache' := by
    rw [stored, hput]
    rfl
  rw [hstored]
  exact ⟨hput, _, hsound'⟩

theorem maintains_cachePut (key : String × String × ℤ) (data : Bytes) :
    Maintains (AtCache Undamaged) (cachePut key data : Pulling σ F Unit) := by
  intro w hw
  obtain ⟨hput, hsound⟩ := put_stored_of_undamaged hw key data
  rw [cachePut, bind_get, hput, bind_lift_ok]
  exact hsound

theorem maintains_knownPeer (peer : String) :
    Maintains (AtCache p) (knownPeer peer : Pulling σ F Unit) := by
  apply maintains_get
  intro w hw
  cases (w.client.peers.get? peer).isNone <;> exact hw

theorem maintains_attempt (machine : Machine) (path : Path) (whole : Option Bytes)
    (part : ℕ → Option Bytes) :
    Maintains (AtCache Undamaged) (attempt machine path whole part : Pulling σ F Unit) := by
  intro w hw
  rcases attempt_cases machine whole part w with h | ⟨count, h⟩
  · rw [h]
    exact hw
  · rw [h]
    exact hw

theorem maintains_withFile (machine : Machine) (path : Path) {body : Pulling σ F α}
    (hbody : Maintains (AtCache Undamaged) body) :
    Maintains (AtCache Undamaged) (withFile machine path body) := by
  refine maintains_bind (maintains_get (fun w hw => maintains_attempt machine path _ _ w hw)) ?_
  intro _ w hw
  have hclosed : AtCache Undamaged (closeFile machine path (body w).2).2 :=
    maintains_get (fun w hw => maintains_attempt machine path _ _ w hw) _ (hbody w hw)
  unfold closing
  rcases hclose : closeFile machine path (body w).2 with ⟨e | u, w'⟩
  · rw [hclose] at hclosed
    exact hclosed
  · rw [hclose] at hclosed
    exact hclosed

theorem maintains_finallyRemove (path : Path) {body : Pulling σ F α}
    (hbody : Maintains (AtCache Undamaged) body) :
    Maintains (AtCache Undamaged) (finallyRemove path body) :=
  fun w hw => hbody w hw

theorem maintains_moveFile (source target : Path) :
    Maintains (AtCache Undamaged) (moveFile source target : Pulling σ F Unit) := by
  apply maintains_get
  intro w hw
  cases w.files source with
  | none => exact hw
  | some content => exact hw

end Maintained

section Calls

variable [FloatText F] [FloatTime F] [FloatNumber F] [FloatConversion F] (node : Node F)
  (network : Network σ) (machine : Machine) (peer modelId : String)

theorem maintains_request (message : Message F) (expectedSender : Option String) :
    Maintains (AtCache p) (request node network message expectedSender) := by
  refine maintains_bind (maintains_lift _) ?_
  intro frame
  refine maintains_bind (maintains_exchange _ _) ?_
  intro stream
  exact maintains_onClient _

theorem maintains_ask (kind : String) (payload : Members F) :
    Maintains (AtCache p) (ask node network peer kind payload) := by
  refine maintains_bind (maintains_knownPeer peer) ?_
  intro _
  refine maintains_bind (maintains_onClient _) ?_
  intro message
  exact maintains_request node network _ _

theorem maintains_openSession (budgetShards ttl : ℤ) :
    Maintains (AtCache p) (openSession node network peer modelId budgetShards ttl) := by
  refine maintains_bind (maintains_ask node network peer _ _) ?_
  intro response
  split
  · exact maintains_bind (maintains_lift _) (fun _ => maintains_throw _)
  · exact maintains_pure _

theorem maintains_fetchRemote (sessionId : Json F) (index : ℤ) :
    Maintains (AtCache Undamaged) (fetchRemote node network peer modelId sessionId index) := by
  refine maintains_bind (maintains_ask node network peer _ _) ?_
  intro response
  split
  · exact maintains_bind (maintains_lift _) (fun _ => maintains_throw _)
  · refine maintains_bind (maintains_lift _) ?_
    intro payload
    refine maintains_bind (maintains_lift _) ?_
    intro data
    refine maintains_bind (maintains_lift _) ?_
    intro plaintextHash
    split
    · exact maintains_throw _
    · refine maintains_bind (maintains_cachePut _ _) ?_
      intro _
      exact maintains_bind (maintains_onClient _) (fun _ => maintains_pure _)

theorem maintains_fetchShard (sessionId : Json F) (index : ℤ) :
    Maintains (AtCache Undamaged) (fetchShard node network peer modelId sessionId index) := by
  refine maintains_bind (maintains_cacheGet _) ?_
  intro found
  split
  · exact maintains_pure _
  · exact maintains_fetchRemote node network peer modelId sessionId index

theorem maintains_fetchShards (initial : Json F) (temporary : Path) (indices : List ℕ)
    (written : Bytes) : Maintains (AtCache Undamaged)
      (fetchShards node network machine peer modelId initial temporary indices written) := by
  induction indices generalizing written with
  | nil => exact maintains_pure _
  | cons index rest ih =>
    refine maintains_bind (maintains_lift _) ?_
    intro sessionId
    refine maintains_bind (maintains_fetchShard node network peer modelId sessionId index) ?_
    intro chunk
    exact maintains_bind (maintains_attempt machine temporary _ _) (fun _ => ih _)

theorem maintains_receiveShards (initial : Json F) (temporary : Path) :
    Maintains (AtCache Undamaged)
      (receiveShards node network machine peer modelId initial temporary) := by
  refine maintains_withFile machine temporary ?_
  refine maintains_bind (maintains_lift _) ?_
  intro count
  refine maintains_bind (maintains_lift _) ?_
  intro nShards
  exact maintains_fetchShards node network machine peer modelId initial temporary _ _

theorem maintains_receiveModel (initial : Json F) (temporary target : Path) :
    Maintains (AtCache Undamaged)
      (receiveModel node network machine peer modelId initial temporary target) := by
  refine maintains_bind
    (maintains_receiveShards node network machine peer modelId initial temporary) ?_
  intro content
  refine maintains_bind (maintains_lift _) ?_
  intro expected
  split
  · exact maintains_throw _
  · exact maintains_bind (maintains_moveFile _ _) (fun _ => maintains_pure _)

theorem maintains_pullModel (destination : Path) :
    Maintains (AtCache Undamaged) (pullModel node network machine peer modelId destination) := by
  refine maintains_bind (maintains_openSession node network peer modelId _ _) ?_
  intro initial
  refine maintains_bind (maintains_lift _) ?_
  intro _
  have hreceive := maintains_receiveModel node network machine peer modelId initial
    (temporaryFile destination modelId) (targetFile destination modelId)
  refine maintains_bind (maintains_finallyRemove _ hreceive) ?_
  intro total
  exact maintains_bind (maintains_onClient _) (fun _ => maintains_lift _)

/-- The states of a client that has started with an empty cache. It has fetched shards and
pulled models by any networks and disks; what is not in the cache changes in any way. -/
inductive Reachable (node : Node F) : World σ F → Prop
  | start {w : World σ F} (h : w.cache = ShardCache.new _ 512 (64 * 1024 ^ 2)) : Reachable node w
  | fetchShard {w : World σ F} (h : Reachable node w) (network : Network σ)
      (peer modelId : String) (sessionId : Json F) (index : ℤ) :
      Reachable node (fetchShard node network peer modelId sessionId index w).2
  | pullModel {w : World σ F} (h : Reachable node w) (network : Network σ) (machine : Machine)
      (peer modelId : String) (destination : Path) :
      Reachable node (pullModel node network machine peer modelId destination w).2
  | outside {w w' : World σ F} (h : Reachable node w) (hcache : w'.cache = w.cache) :
      Reachable node w'

theorem undamaged_of_reachable {w : World σ F} (h : Reachable node w) : Undamaged w.cache := by
  induction h with
  | start h =>
    rw [h]
    exact ⟨[], ⟨rfl, rfl⟩, rfl, Nat.zero_le _, Int.natCast_nonneg _, List.suffix_rfl⟩
  | fetchShard _ network peer modelId sessionId index ih =>
    exact maintains_fetchShard node network peer modelId sessionId index _ ih
  | pullModel _ network machine peer modelId destination ih =>
    exact maintains_pullModel node network machine peer modelId destination _ ih
  | outside _ hcache ih => rwa [hcache]

end Calls

section Cached

/-- The shard that the cache hands out, or the one that takes its place. -/
def handOut (cache : Shards) (key : String × String × ℤ) (shard : Bytes) : Bytes × Shards :=
  match (cache.get key).1 with
  | some chunk => (chunk, (cache.get key).2)
  | none => (shard, stored (cache.get key).2 key shard)

/-- What stands for the shards of a model from the given index on, as the cache changes. -/
def handedOut (peer modelId : String) : ℤ → List Bytes → Shards → List Bytes
  | _, [], _ => []
  | index, shard :: rest, cache =>
      (handOut cache (peer, modelId, index) shard).1 ::
        handedOut peer modelId (index + 1) rest (handOut cache (peer, modelId, index) shard).2

/-- A cache without wrong shards hands out the right ones. -/
theorem handedOut_of_right {peer modelId : String} (shards : List Bytes) (start : ℕ)
    (cache : Shards) (hcache : Undamaged cache)
    (hright : ∀ (index : ℕ) (shard found : Bytes), shards[index]? = some shard →
      cache.entries.get? (peer, modelId, ((start + index : ℕ) : ℤ)) = some found →
        found = shard) :
    handedOut peer modelId start shards cache = shards := by
  induction shards generalizing start cache with
  | nil => rfl
  | cons shard rest ih =>
    have hget := undamaged_get hcache (peer, modelId, (start : ℤ))
    have hhanded : (handOut cache (peer, modelId, (start : ℤ)) shard).1 = shard ∧
        Undamaged (handOut cache (peer, modelId, (start : ℤ)) shard).2 ∧
        ∀ (index : ℕ) (found : Bytes), (handOut cache (peer, modelId, (start : ℤ))
          shard).2.entries.get? (peer, modelId, ((start + 1 + index : ℕ) : ℤ)) = some found →
            cache.entries.get? (peer, modelId, ((start + 1 + index : ℕ) : ℤ)) = some found := by
      unfold handOut
      cases hfound : (cache.get (peer, modelId, (start : ℤ))).1 with
      | some chunk =>
        rw [get_eq] at hfound
        refine ⟨hright 0 shard chunk rfl hfound, hget, fun index found h => ?_⟩
        rwa [get?_of_get] at h
      | none =>
        obtain ⟨hput, hstored⟩ := put_stored_of_undamaged hget (peer, modelId, (start : ℤ)) shard
        refine ⟨rfl, hstored, fun index found h => ?_⟩
        have hother : (peer, modelId, ((start + 1 + index : ℕ) : ℤ)) ≠
            (peer, modelId, (start : ℤ)) := by
          simp only [ne_eq, Prod.mk.injEq, true_and]
          omega
        have hkept := get?_of_put_ne hput hother h
        rwa [get?_of_get] at hkept
    obtain ⟨hfirst, hsound, hothers⟩ := hhanded
    rw [handedOut, hfirst, ← Nat.cast_succ, ih (start + 1) _ hsound]
    intro index other found hother hfound
    refine hright (index + 1) other found hother ?_
    rw [show start + (index + 1) = start + 1 + index by omega]
    exact hothers index found hfound

/-- No entry of the cache differs from the shard of its index. -/
def Unpoisoned (peer modelId : String) (shards : List Bytes) (cache : Shards) : Prop :=
  ∀ (index : ℕ) (shard found : Bytes), shards[index]? = some shard →
    cache.entries.get? (peer, modelId, (index : ℤ)) = some found → found = shard

/-- The entries of the cache, and the shards where there are none. -/
def held (peer modelId : String) (start : ℕ) (shards : List Bytes) (cache : Shards) : List Bytes :=
  shards.mapIdx (fun index shard =>
    (cache.entries.get? (peer, modelId, ((start + index : ℕ) : ℤ))).getD shard)

/-- The cache could take all shards and keep what it has. -/
def Roomy (shards : List Bytes) (cache : Shards) : Prop :=
  cache.entries.size + shards.length ≤ 512 ∧
    cache.bytesUsed + shards.flatten.length ≤ 64 * 1024 ^ 2

/-- With room for the next shard, the others are found as before. -/
theorem roomy_handOut {peer modelId : String} {start : ℕ} {shard : Bytes} {rest : List Bytes}
    {cache : Shards} (hcache : Undamaged cache) (hroom : Roomy (shard :: rest) cache) :
    (handOut cache (peer, modelId, (start : ℤ)) shard).1 =
        (cache.entries.get? (peer, modelId, (start : ℤ))).getD shard ∧
      Undamaged (handOut cache (peer, modelId, (start : ℤ)) shard).2 ∧
      Roomy rest (handOut cache (peer, modelId, (start : ℤ)) shard).2 ∧
      ∀ index : ℤ, index ≠ start →
        (handOut cache (peer, modelId, (start : ℤ)) shard).2.entries.get? (peer, modelId, index) =
          cache.entries.get? (peer, modelId, index) := by
  let key : String × String × ℤ := (peer, modelId, start)
  let looked := (cache.get key).2
  have hget : Undamaged looked := undamaged_get hcache key
  obtain ⟨hsize, hused⟩ : looked.entries.size ≤ cache.entries.size ∧
      looked.bytesUsed = cache.bytesUsed := get_size
  have hsame : ∀ other, looked.entries.get? other = cache.entries.get? other :=
    fun other => get?_of_get
  obtain ⟨hcount, hbytes⟩ := hroom
  rw [List.length_cons] at hcount
  rw [List.flatten_cons, List.length_append] at hbytes
  unfold handOut
  cases hfound : (cache.get key).1 with
  | some chunk =>
    refine ⟨?_, hget, ⟨?_, ?_⟩, fun index _ => hsame _⟩
    · rw [get_eq] at hfound
      rw [hfound]
      rfl
    · change looked.entries.size + _ ≤ _
      omega
    · change looked.bytesUsed + _ ≤ _
      omega
  | none =>
    rw [get_eq] at hfound
    obtain ⟨hput, hstored⟩ := put_stored_of_undamaged hget key shard
    obtain ⟨_, hsound⟩ := hget
    obtain ⟨hentries, hmax⟩ := hsound.limits
    have hnonneg : 0 ≤ looked.bytesUsed := by
      rw [hsound.bytes]
      exact Int.natCast_nonneg _
    have hroom : looked.put key shard = _ := put_of_room ((hsame key).trans hfound) hnonneg
      (by rw [hentries]; omega) (by rw [hmax]; omega)
    have hnext := Except.ok.inj (hput.symm.trans hroom)
    refine ⟨?_, hstored, ⟨?_, ?_⟩, fun index hindex => ?_⟩
    · rw [hfound]
      rfl
    · have herase : (looked.entries.erase key).size ≤ looked.entries.size :=
        Dict.size_filter_le _ _
      have hset := Dict.size_set_le (looked.entries.erase key) key shard
      change (stored looked key shard).entries.size + _ ≤ _
      rw [hnext]
      change ((looked.entries.erase key).set key shard).size + _ ≤ _
      omega
    · change (stored looked key shard).bytesUsed + _ ≤ _
      rw [hnext]
      change looked.bytesUsed + (shard.length : ℤ) + _ ≤ _
      omega
    · have hother : (peer, modelId, index) ≠ key := by simpa [key] using hindex
      change (stored looked key shard).entries.get? _ = _
      rw [hnext]
      change ((looked.entries.erase key).set key shard).get? _ = _
      rw [Dict.get?_set, if_neg hother, Dict.get?_erase, if_neg hother, hsame]

/-- A cache with room hands out what it holds. -/
theorem handedOut_of_room {peer modelId : String} (shards : List Bytes) (start : ℕ)
    (cache : Shards) (hcache : Undamaged cache) (hroom : Roomy shards cache) :
    handedOut peer modelId start shards cache = held peer modelId start shards cache := by
  induction shards generalizing start cache with
  | nil => rfl
  | cons shard rest ih =>
    obtain ⟨hfirst, hsound, hrest, hothers⟩ := roomy_handOut hcache hroom
    rw [handedOut, hfirst, ← Nat.cast_succ, ih (start + 1) _ hsound hrest, held, held,
      List.mapIdx_cons]
    congr 2
    funext index other
    rw [hothers _ (by omega), show start + 1 + index = start + (index + 1) by omega]

end Cached

section Pulls

variable [FloatText F] [FloatTime F] [FloatNumber F] [FloatConversion F] {node : Node F}
  {network : Network σ} {machine : Machine} {peer modelId : String} {sessionId initial : Json F}
  {shards : List Bytes} {good : NodeState F → σ → Prop} {w w₁ v : World σ F}

/-- Where `good` holds the peer answers every request of the session with the right shard, and
`good` still holds after it. -/
def Honest (node : Node F) (network : Network σ) (peer : String) (sessionId : Json F)
    (shards : List Bytes) (good : NodeState F → σ → Prop) : Prop :=
  ∀ (w : World σ F) (index : ℕ) (shard : Bytes), good w.client w.network →
    shards[index]? = some shard → ∃ response w',
      ask node network peer "REQUEST_SHARD" [("session_id", sessionId),
        ("shard_idx", .int index)] w = (.ok response, w') ∧
      Holds node response shard ∧ good w'.client w'.network

/-- An honest peer's shard, unless the cache has another one. -/
theorem fetchShard_honest (modelId : String)
    (hhonest : Honest node network peer sessionId shards good) (hreceipts : LogWorks node)
    {index : ℕ} {shard : Bytes} (hcache : Undamaged w.cache)
    (hgood : good w.client w.network) (hshard : shards[index]? = some shard) :
    ∃ w', fetchShard node network peer modelId sessionId index w =
        (.ok (handOut w.cache (peer, modelId, index) shard).1, w') ∧
      w'.cache = (handOut w.cache (peer, modelId, index) shard).2 ∧
      Undamaged w'.cache ∧ good w'.client w'.network := by
  have hget := undamaged_get hcache (peer, modelId, (index : ℤ))
  unfold handOut
  cases hfound : (w.cache.get (peer, modelId, (index : ℤ))).1 with
  | some chunk => exact ⟨_, fetchShard_hit hfound, rfl, hget, hgood⟩
  | none =>
    obtain ⟨response, w', hask, hholds, hgood'⟩ := hhonest
      { w with cache := (w.cache.get (peer, modelId, (index : ℤ))).2 } index shard hgood hshard
    have hsame : AtCache (fun cache => cache = (w.cache.get (peer, modelId, (index : ℤ))).2) w' :=
      maintains_of_run hask (maintains_ask node network peer _ _) rfl
    have hkept : w'.cache = (w.cache.get (peer, modelId, (index : ℤ))).2 := hsame
    obtain ⟨hput, hstored⟩ := put_stored_of_undamaged hget (peer, modelId, (index : ℤ)) shard
    exact ⟨_, fetchShard_miss hreceipts hfound hask hholds (by rw [hkept]; exact hput), rfl,
      hstored, hgood'⟩

/-- What the loop fetches from an honest peer is what the cache hands out. -/
theorem fetches_handedOut (modelId : String)
    (hhonest : Honest node network peer sessionId shards good) (hreceipts : LogWorks node)
    (hsession : item initial "session_id" = .ok sessionId)
    (rest : List Bytes) (start : ℕ) (hrest : shards.drop start = rest)
    (hcache : Undamaged w.cache) (hgood : good w.client w.network) :
    ∃ w', Fetches node network peer modelId initial (List.range' start rest.length)
      (handedOut peer modelId start rest w.cache) w w' := by
  induction rest generalizing start w with
  | nil => exact ⟨w, SameFetching.refl w⟩
  | cons shard rest ih =>
    have hshard : shards[start]? = some shard := by
      rw [← List.head?_drop, hrest, List.head?_cons]
    have hnext : shards.drop (start + 1) = rest := by
      rw [← List.tail_drop, hrest, List.tail_cons]
    obtain ⟨w₁, hfetch, hcache₁, hsound, hgood₁⟩ := fetchShard_honest modelId hhonest
      hreceipts hcache hgood hshard
    obtain ⟨w', hfetches⟩ := ih (start + 1) hnext hsound hgood₁
    rw [hcache₁, Nat.cast_add, Nat.cast_one] at hfetches
    exact ⟨w', sessionId, w, w₁, SameFetching.refl w, hsession, hfetch, hfetches⟩

/-- The same shards are fetched from the same world. -/
theorem Fetches.unique {indices : List ℕ} {chunks chunks' : List Bytes} {w' v' : World σ F}
    (hsame : SameFetching w v)
    (h : Fetches node network peer modelId initial indices chunks w w')
    (h' : Fetches node network peer modelId initial indices chunks' v v') : chunks' = chunks := by
  induction indices generalizing chunks chunks' w v with
  | nil =>
    cases chunks with
    | nil =>
      cases chunks' with
      | nil => rfl
      | cons _ _ => exact h'.elim
    | cons _ _ => exact h.elim
  | cons index rest ih =>
    cases chunks with
    | nil => exact h.elim
    | cons chunk chunks =>
      cases chunks' with
      | nil => exact h'.elim
      | cons chunk' chunks' =>
        obtain ⟨session, w₁, w₂, hbefore, hsession, hfetch, hrest⟩ := h
        obtain ⟨session', v₁, v₂, hbefore', hsession', hfetch', hrest'⟩ := h'
        obtain rfl : session = session' := Except.ok.inj (hsession.symm.trans hsession')
        have hsame₁ : SameFetching w₁ v₁ :=
          (SameFetching.symm hbefore).trans (hsame.trans hbefore')
        have hother := run_of_same
          (oblivious_fetchShard node network peer modelId session index) hsame₁ hfetch
        rw [hfetch'] at hother
        obtain ⟨hchunk, rfl⟩ := Prod.mk.inj hother
        have hsame₂ : SameFetching w₂ (withFiles w₂ v₁.files v₁.writes) := ⟨rfl, rfl, rfl⟩
        rw [Except.ok.inj hchunk, ih hsame₂ hrest hrest']

/-- A pull from an honest peer on a disk that does not fail returns with the right file exactly if
what the cache hands out in the place of the shards makes up this file. -/
theorem returns_iff {destination : Path} {members : Members F} (hreach : Reachable node w)
    (hcalm : ∀ tick, machine.spoiled tick = none)
    (hmkdir : machine.mkdir (targetDirectory destination modelId) = .ok ())
    (hreceipts : LogWorks node)
    (hopen : openSession node network peer modelId 1000000 3600 w = (.ok (.obj members), w₁))
    (hsession : item (.obj members) "session_id" = .ok sessionId)
    (hcount : item (.obj members) "n_shards" = .ok (.int shards.length))
    (hconfirmed : Confirmed node (.obj members) shards.flatten)
    (hgood : good w₁.client w₁.network)
    (hhonest : Honest node network peer sessionId shards good) :
    (∃ result w', pullModel node network machine peer modelId destination w = (.ok result, w') ∧
      w'.files (targetFile destination modelId) = some shards.flatten) ↔
    (handedOut peer modelId 0 shards w.cache).flatten = shards.flatten := by
  have hshards : toInt node.repr (.int shards.length : Json F) = .ok (shards.length : ℤ) := rfl
  have hkept : AtCache (fun cache => cache = w.cache) w₁ :=
    maintains_of_run hopen (maintains_openSession node network peer modelId _ _) rfl
  have hcache : w₁.cache = w.cache := hkept
  have hsound : Undamaged w₁.cache := by
    rw [hcache]
    exact undamaged_of_reachable node hreach
  obtain ⟨w₂, hfetches⟩ := fetches_handedOut modelId hhonest hreceipts hsession shards
    0 List.drop_zero hsound hgood
  rw [← List.range_eq_range', hcache, Nat.cast_zero] at hfetches
  constructor
  · rintro ⟨result, w', hpull, hfile⟩
    obtain ⟨initial, w₃, count, nShards, chunks, w₄, hopened, hcount', hshards', hfetches', -, -,
      -, hfiles⟩ := pull_ok node network machine peer modelId destination hpull
    rw [hopen] at hopened
    obtain ⟨hinitial, rfl⟩ := Prod.mk.inj hopened
    obtain rfl := Except.ok.inj hinitial
    obtain rfl := Except.ok.inj (hcount.symm.trans hcount')
    obtain rfl := Except.ok.inj (hshards.symm.trans hshards')
    rw [Int.toNat_natCast] at hfetches'
    rw [← Fetches.unique (SameFetching.refl _) hfetches hfetches']
    rw [hfiles, Function.update_self, Option.some.injEq] at hfile
    exact hfile
  · intro hflat
    rw [← hflat] at hconfirmed
    obtain ⟨result, w', hrun, -, -, hfiles⟩ := pullSession_run hcalm destination hmkdir
      hreceipts hcount hshards (by rwa [Int.toNat_natCast]) hconfirmed
    refine ⟨result, w', (bind_ok hopen).trans hrun, ?_⟩
    rw [hfiles, Function.update_self, hflat]

/-- Whatever has been fetched and pulled before, a pull from an honest peer on a disk that does
not fail returns with the right file if no entry of the cache differs from the shard of its
index. If the cache has room, it does so exactly if the entries and the shards that have none
make up this file. -/
theorem next_pull_iff {destination : Path} {members : Members F} (hreach : Reachable node w)
    (hcalm : ∀ tick, machine.spoiled tick = none)
    (hmkdir : machine.mkdir (targetDirectory destination modelId) = .ok ())
    (hreceipts : LogWorks node)
    (hopen : openSession node network peer modelId 1000000 3600 w = (.ok (.obj members), w₁))
    (hsession : item (.obj members) "session_id" = .ok sessionId)
    (hcount : item (.obj members) "n_shards" = .ok (.int shards.length))
    (hconfirmed : Confirmed node (.obj members) shards.flatten)
    (hgood : good w₁.client w₁.network)
    (hhonest : Honest node network peer sessionId shards good) :
    (Unpoisoned peer modelId shards w.cache → ∃ result w',
      pullModel node network machine peer modelId destination w = (.ok result, w') ∧
        w'.files (targetFile destination modelId) = some shards.flatten) ∧
    (Roomy shards w.cache →
      ((∃ result w', pullModel node network machine peer modelId destination w = (.ok result, w') ∧
        w'.files (targetFile destination modelId) = some shards.flatten) ↔
      (held peer modelId 0 shards w.cache).flatten = shards.flatten)) := by
  have hiff := returns_iff hreach hcalm hmkdir hreceipts hopen hsession hcount hconfirmed hgood
    hhonest
  have hsound := undamaged_of_reachable node hreach
  constructor
  · intro hright
    refine hiff.mpr (congrArg List.flatten ?_)
    refine handedOut_of_right shards 0 w.cache hsound fun index shard found hshard hfound => ?_
    rw [Nat.zero_add] at hfound
    exact hright index shard found hshard hfound
  · intro hroom
    rw [hiff, ← Nat.cast_zero, handedOut_of_room shards 0 w.cache hsound hroom]

end Pulls

section Samples

/-- Before the first pull the peer is about to send another octet. -/
def lyingWorld : World (Script WholeFloat) WholeFloat :=
  sampleWorld samplePeer.pub
    [("SESSION_ACCEPT", sessionPayload "m"), ("SHARD_DATA", shardPayload [9])]

def Calm (s : NodeState WholeFloat) (script : Script WholeFloat) : Prop := Knows s ∧ script = []

theorem sample_honest :
    Honest sampleClient sampleNetwork samplePeer.pub (.str "m") [[1], [2]] Calm := by
  rintro w index shard ⟨hknows, hscript⟩ hshard
  have hindex : index ∈ [0, 1] ∧ (sampleShards "m").getD index [] = shard ∧
      shard ∈ sampleOctets := by
    have hless : index < 2 := (List.getElem?_eq_some_iff.mp hshard).1
    obtain rfl | rfl : index = 0 ∨ index = 1 := by omega
    · obtain rfl := Option.some.inj hshard
      decide
    · obtain rfl := Option.some.inj hshard
      decide
  obtain ⟨hindex, rfl, hoctets⟩ := hindex
  have hsent := sample_sent (w := w) [] (by decide : "m" ∈ sampleIds) hknows hindex
    (distinctKeys_shardPayload _) (shard_fits _ hoctets)
    (by rw [hscript]; exact honest_next "m" index _)
  exact ⟨_, _, hsent, ⟨rfl, rfl, rfl⟩, hknows, rfl⟩

theorem sample_open {w : World (Script WholeFloat) WholeFloat} (hknows : Knows w.client)
    (hscript : w.network = []) :
    openSession sampleClient sampleNetwork samplePeer.pub "m" 1000000 3600 w =
      (.ok (.obj (sessionMembers "m")), asked w []) :=
  sample_accepted [] (by decide) hknows (by rw [hscript]; rfl)

/-- An earlier pull has failed after its first shard, which is in the cache. -/
theorem next_pull_sample : ∃ e w, pullModel sampleClient sampleNetwork sampleMachine samplePeer.pub
      "m" ["d"] (sampleWorld samplePeer.pub brokenScript) = (.error e, w) ∧
    w.cache.entries.get? (samplePeer.pub, "m", 0) = some [1] ∧
    ∃ result w', pullModel sampleClient sampleNetwork sampleMachine samplePeer.pub "m" ["d"] w =
        (.ok result, w') ∧
      w'.files (targetFile ["d"] "m") = some [1, 2] := by
  obtain ⟨e, w, hpull, hknows, hscript, hfirst, hothers⟩ :=
    sample_broken (sample_holding "m" brokenScript) rfl
  have hreach : Reachable sampleClient w := by
    have hstart : Reachable sampleClient (sampleWorld samplePeer.pub brokenScript) :=
      Reachable.start rfl
    have hnext := hstart.pullModel sampleNetwork sampleMachine samplePeer.pub "m" ["d"]
    rwa [hpull] at hnext
  have hcount : item (.obj (sessionMembers "m")) "n_shards" =
      .ok (.int ([[1], [2]] : List Bytes).length) := (sample_items "m").2.1
  refine ⟨e, w, hpull, hfirst, ?_⟩
  refine (next_pull_iff hreach sample_calm rfl sample_logWorks
    (sample_open hknows hscript) (sample_items "m").1 hcount (sample_confirmed "m") ⟨hknows, rfl⟩
    sample_honest).1 ?_
  intro index shard found hshard hfound
  by_cases hindex : index = 0
  · subst hindex
    obtain rfl := Option.some.inj hshard
    exact (Option.some.inj (hfirst.symm.trans hfound)).symm
  · rw [hothers index (by omega)] at hfound
    cases hfound

/-- A pull that has the other octet from somewhere. -/
theorem sample_denied {w w' : World (Script WholeFloat) WholeFloat} {rest : Script WholeFloat}
    (hopen : openSession sampleClient sampleNetwork samplePeer.pub "m" 1000000 3600 w =
      (.ok (.obj (sessionMembers "m")), asked w rest))
    (hfetches : Fetches sampleClient sampleNetwork samplePeer.pub "m" (.obj (sessionMembers "m"))
      (List.range (2 : ℤ).toNat) [[9], [2]] (asked w rest) w') :
    ∃ e v, pullModel sampleClient sampleNetwork sampleMachine samplePeer.pub "m" ["d"] w =
      (.error e, v) ∧ SameFetching w' v := by
  obtain ⟨-, hcount, hhash⟩ := sample_items "m"
  have hwrong : truthy (.str (Sha256.sample.hexdigest (sampleShards "m").flatten) :
      Json WholeFloat) = true ∧
      equalsStr (.str (Sha256.sample.hexdigest (sampleShards "m").flatten) : Json WholeFloat)
        (sampleClient.sha.hexdigest ([[9], [2]] : List Bytes).flatten) = false := by
    decide +kernel
  obtain ⟨v, hdenied, hsame⟩ := pullSession_denied sample_calm ["d"] rfl hcount rfl hfetches hhash
    hwrong
  exact ⟨_, v, (bind_ok hopen).trans hdenied, hsame⟩

/-- The first pull fails because of a wrong octet, which stays in the cache. From then on the peer
is honest, and the next pull fails as well. -/
theorem poison_left : ∃ e w members w₁,
    pullModel sampleClient sampleNetwork sampleMachine samplePeer.pub "m" ["d"] lyingWorld =
      (.error e, w) ∧
    Reachable sampleClient w ∧
    openSession sampleClient sampleNetwork samplePeer.pub "m" 1000000 3600 w =
      (.ok (.obj members), w₁) ∧
    item (.obj members) "session_id" = .ok (.str "m") ∧
    item (.obj members) "n_shards" = .ok (.int 2) ∧
    member (.obj members) "file_sha256" .null = .ok (.str (Sha256.sample.hexdigest [1, 2])) ∧
    Calm w₁.client w₁.network ∧
    Honest sampleClient sampleNetwork samplePeer.pub (.str "m") [[1], [2]] Calm ∧
    ∃ e' w', pullModel sampleClient sampleNetwork sampleMachine samplePeer.pub "m" ["d"] w =
      (.error e', w') := by
  obtain ⟨hsession, hcount, hhash⟩ := sample_items "m"
  have hmodel : "m" ∈ sampleIds := by decide
  have hstart : Holding "m" 0 lyingWorld := sample_holding "m" _
  have hopen := sample_accepted (w := lyingWorld) _ hmodel hstart.knows rfl
  have hholding : Holding "m" 0 (asked lyingWorld [("SHARD_DATA", shardPayload [9])]) :=
    ⟨hstart.knows, hstart.limits, hstart.count, hstart.used, hstart.missing⟩
  obtain ⟨w₁, hfirst, hnext, hnetwork₁, -, hfound₁⟩ := sample_fetched [] hmodel hholding
    (by decide) (by decide : [9] ∈ sampleOctets) rfl
  obtain ⟨w₂, hsecond, hlast, hnetwork₂, -, hfound₂⟩ := sample_fetched [] hmodel hnext
    (by decide) (by decide : [2] ∈ sampleOctets) (by rw [hnetwork₁]; exact honest_next "m" 1 _)
  obtain ⟨e, w, hpull, hclient, hcache, hnetwork⟩ := sample_denied hopen
    ⟨_, _, w₁, SameFetching.refl _, hsession, hfirst, _, w₁, w₂, SameFetching.refl _, hsession,
      hsecond, SameFetching.refl _⟩
  have hreach : Reachable sampleClient w := by
    have hfresh : Reachable sampleClient lyingWorld := Reachable.start rfl
    have hnext := hfresh.pullModel sampleNetwork sampleMachine samplePeer.pub "m" ["d"]
    rwa [hpull] at hnext
  have hknows : Knows w.client := by
    rw [hclient]
    exact hlast.knows
  have hopened := sample_open hknows (hnetwork.trans hnetwork₂)
  have hkept : ∀ index : ℤ, (asked w []).cache.entries.get? (samplePeer.pub, "m", index) =
      if index = (1 : ℕ) then some [2] else if index = (0 : ℕ) then some [9] else none := by
    intro index
    have hasked : (asked w []).cache = w₂.cache := hcache
    rw [hasked, hfound₂, hfound₁]
    rfl
  let looked : World (Script WholeFloat) WholeFloat :=
    { asked w [] with cache := ((asked w []).cache.get (samplePeer.pub, "m", 0)).2 }
  have hhit : fetchShard sampleClient sampleNetwork samplePeer.pub "m" (.str "m") 0 (asked w []) =
      (.ok [9], looked) := fetchShard_hit (by rw [get_eq, hkept]; rfl)
  have hhit' : fetchShard sampleClient sampleNetwork samplePeer.pub "m" (.str "m") 1 looked =
      (.ok [2], _) := fetchShard_hit (by rw [get_eq, get?_of_get, hkept]; rfl)
  obtain ⟨e', w', hfailed, -⟩ :=
    sample_denied hopened ⟨_, _, _, SameFetching.refl _, hsession, hhit,
    _, _, _, SameFetching.refl _, hsession, hhit', SameFetching.refl _⟩
  exact ⟨e, w, _, _, hpull, hreach, hopened, hsession, hcount, hhash, ⟨hknows, rfl⟩, sample_honest,
    e', w', hfailed⟩

end Samples

end Decillion.PoisonedPulls
