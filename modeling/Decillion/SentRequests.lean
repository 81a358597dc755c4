import Decillion.WatchedPulls

/-!
What a pull sends on a network that is watched: a request for a session, and one for each shard
that the client does not have. Nothing else that the client does is seen there.
-/
namespace Decillion.SentRequests

open ByteText JsonObjects JsonRoundTrip JsonText JsonValues Primitives Dictionaries PyErrors
open PyValues HostSystem AccessRequests ShardManifests ShardVault RaisingPrograms ShardCaches
open ShardCoherence TelepathMessages TelepathFrames TelepathNodes TelepathPulls TelepathExchanges
open TelepathServing PulledFiles PullRuns ScriptedPeers SessionAnswers CarriedPulls WatchedNetworks
open WatchedPulls

variable {F : Type} [FloatText F] [FloatTime F] [FloatNumber F] [FloatConversion F]

/-- What has happened on the network when the client has sent some frames. -/
def after (attack : Attack) (began : List Move) (frames : List Bytes) : List Move :=
  frames.foldl (fun moves frame => (watched attack frame moves).2) began

theorem after_concat (attack : Attack) (began : List Move) (frames : List Bytes) (frame : Bytes) :
    after attack began (frames ++ [frame]) = after attack began frames ++
      .sent frame :: (attack (after attack began frames) frame).1 := List.foldl_concat ..

theorem after_cons (attack : Attack) (began : List Move) (frame : Bytes) (frames : List Bytes) :
    after attack began (frame :: frames) =
      after attack (watched attack frame began).2 frames := rfl

theorem prefix_after (attack : Attack) (began : List Move) (frames : List Bytes) :
    began <+: after attack began frames := by
  induction frames using List.reverseRecOn with
  | nil => exact List.prefix_rfl
  | append_singleton frames frame ih =>
    rw [after_concat]
    exact ih.trans (List.prefix_append _ _)

/-- A point that the network reaches when the client sends some frames. -/
def Reached (attack : Attack) (began moves : List Move) : Prop :=
  ∃ frames, moves = after attack began frames

theorem Reached.next {attack : Attack} {began moves : List Move} (h : Reached attack began moves)
    (frame : Bytes) : Reached attack began (watched attack frame moves).2 := by
  obtain ⟨frames, rfl⟩ := h
  exact ⟨frames ++ [frame], (after_concat attack began frames frame).symm⟩

section Requests

variable {client : Node F} {attack : Attack} {peer modelId : String} {w w₁ w' : World (List Move) F}

/-- Nothing has been sent between two states of the client, and it has received nothing. -/
def Beside (w w' : World (List Move) F) : Prop := w'.client = w.client ∧ w'.network = w.network

theorem request_of_ask {kind : String} {payload : Members F} {response : RawMessage F}
    (h : ask client (watched attack) peer kind payload w = (.ok response, w')) :
    request client (watched attack) (made client kind payload w.client.tick) (some peer)
      { w with client := w.client.next } = (.ok response, w') := by
  rwa [ask_eq (known_of_ask h)] at h

/-- An answered request has been sent once. -/
theorem sent_ask {kind : String} {payload : Members F} {response : RawMessage F}
    (h : ask client (watched attack) peer kind payload w = (.ok response, w')) :
    ∃ frame, sendFrame (toDict (made client kind payload w.client.tick)) = .ok frame ∧
      w'.network = after attack w.network [frame] ∧ w'.client.tick = w.client.tick + 2 ∧
      w'.cache = w.cache := by
  obtain ⟨frame, stream, reason, hsent, -, -, -, -, -, hended⟩ := request_ok (request_of_ask h)
  rw [hended]
  exact ⟨frame, hsent, rfl, rfl, rfl⟩

variable {session : Json F} {i : ℕ} {chunk : Bytes}

/-- A shard that the client does not have is asked for, and afterwards it has no later one. -/
theorem fetchShard_asks
    (habsent : ∀ j : ℕ, i ≤ j → w.cache.entries.get? (peer, modelId, (j : ℤ)) = none)
    (h : fetchShard client (watched attack) peer modelId session i w = (.ok chunk, w')) :
    ∃ w₁ w₂ response payload, Beside w w₁ ∧
      ask client (watched attack) peer "REQUEST_SHARD"
        [("session_id", session), ("shard_idx", .int i)] w₁ = (.ok response, w₂) ∧
      response.type = .str "SHARD_DATA" ∧ item response.payload "payload_b64" = .ok payload ∧
      decodePayload payload = .ok chunk ∧ Beside w₂ w' ∧
      ∀ j : ℕ, i + 1 ≤ j → w'.cache.entries.get? (peer, modelId, (j : ℤ)) = none := by
  have hnone : (w.cache.get (peer, modelId, (i : ℤ))).1 = none := by
    rw [get_eq]
    exact habsent i le_rfl
  rw [fetchShard, cacheGet, bind_change, hnone] at h
  obtain ⟨response, w₂, hask, h⟩ := returned_bind h
  split at h
  · obtain ⟨reason, -, hthrown⟩ := returned_bind_lift h
    cases (Prod.mk.inj hthrown).1
  · rename_i htype
    obtain ⟨payload, hpayload, h⟩ := returned_bind_lift h
    obtain ⟨decoded, hdecoded, h⟩ := returned_bind_lift h
    obtain ⟨hash, -, h⟩ := returned_bind_lift h
    split at h
    · cases (Prod.mk.inj h).1
    · obtain ⟨u, w₃, hput, h⟩ := returned_bind h
      obtain ⟨u', w₄, hreceipt, h⟩ := returned_bind h
      obtain ⟨hdata, rfl⟩ := Prod.mk.inj h
      obtain rfl := Except.ok.inj hdata
      obtain ⟨answer, hsame⟩ := receipt_run client "telepath.shard_received" modelId peer
        [("shard_idx", .int i), ("bytes", .int decoded.length)] w₃
      rw [hreceipt] at hsame
      obtain ⟨-, rfl⟩ := Prod.mk.inj hsame
      rw [cachePut, bind_get] at hput
      obtain ⟨cache, hcache, hput⟩ := returned_bind_lift hput
      obtain ⟨-, rfl⟩ := Prod.mk.inj hput
      refine ⟨{ w with cache := (w.cache.get (peer, modelId, (i : ℤ))).2 }, w₂, response, payload,
        ⟨rfl, rfl⟩, hask, eq_of_equalsStr (Bool.eq_true_of_not_eq_false htype), hpayload, hdecoded,
        ⟨rfl, rfl⟩, fun j hj => ?_⟩
      obtain ⟨-, -, -, -, hkept⟩ := sent_ask hask
      have hne : (peer, modelId, (j : ℤ)) ≠ (peer, modelId, (i : ℤ)) := by
        simp only [ne_eq, Prod.mk.injEq, true_and]
        omega
      refine Option.eq_none_iff_forall_ne_some.mpr (fun found hfound => ?_)
      have hbefore := get?_of_put_ne hcache hne hfound
      rw [hkept, get?_of_get, habsent j (by omega)] at hbefore
      cases hbefore

/-- The requests that a loop has sent are those for the shards that it has fetched. -/
theorem fetches_asks {initial : Json F} (chunks : List Bytes) (i : ℕ)
    (habsent : ∀ j : ℕ, i ≤ j → w.cache.entries.get? (peer, modelId, (j : ℤ)) = none)
    (h : Fetches client (watched attack) peer modelId initial (List.range' i chunks.length) chunks
      w w') :
    ∃ frames : List Bytes, frames.length = chunks.length ∧
      w'.network = after attack w.network frames ∧ ∀ k frame, frames[k]? = some frame →
        ∃ session, item initial "session_id" = .ok session ∧
          sendFrame (toDict (made client "REQUEST_SHARD" [("session_id", session),
            ("shard_idx", .int (i + k : ℕ))] (w.client.tick + 2 * k))) = .ok frame := by
  induction chunks generalizing i w with
  | nil => exact ⟨[], rfl, h.2.2, fun k frame hframe => by cases hframe⟩
  | cons chunk chunks ih =>
    obtain ⟨session, w₁, w₂, hsame, hsession, hfetch, hrest⟩ := h
    obtain ⟨w₃, w₄, response, payload, hbeside, hask, -, -, -, hbeside', hnext⟩ :=
      fetchShard_asks (hsame.2.1 ▸ habsent) hfetch
    obtain ⟨first, hsent, hnetwork, htick, -⟩ := sent_ask hask
    obtain ⟨frames, hlength, hfinal, hframes⟩ := ih (i + 1) hnext hrest
    rw [hbeside'.1, htick, hbeside.1, hsame.1] at hframes
    rw [hbeside.1, hsame.1] at hsent
    refine ⟨first :: frames, congrArg (· + 1) hlength, ?_, fun k frame hframe => ?_⟩
    · rw [hfinal, after_cons, hbeside'.2, hnetwork, hbeside.2, hsame.2.2]
      rfl
    · cases k with
      | zero =>
        obtain rfl := Option.some.inj hframe
        exact ⟨session, hsession, hsent⟩
      | succ k =>
        have hshift : i + 1 + k = i + (k + 1) := by omega
        have hlater : w.client.tick + 2 + 2 * k = w.client.tick + 2 * (k + 1) := by omega
        rw [← hshift, ← hlater]
        exact hframes k frame hframe

end Requests

section Pulls

variable {course : Course F} {attack : Attack} {state : List Move → NodeState F}
  {carry : Message F → Message F} {peerIp modelId : String} {vault : Vault} {pieces : List Bytes}
  {manifest : ModelManifest F} {id : Bytes} {w w' : World (List Move) F}

/-- The requests of a pull, one after another. -/
def asks (course : Course F) (modelId : String) : ℕ → Message F
  | 0 => made course.client "SESSION_OPEN" (openPayload modelId 1000000 3600) (course.asking 0)
  | i + 1 => made course.client "REQUEST_SHARD" (shardAsked course.sessionId i)
      (course.asking (i + 1))

/-- A pull that comes through has sent one request for a session and one for each shard. -/
theorem pull_asks {machine : Machine} {destination : Path} {result : Members F}
    (hconnected : Connected course (watched attack) state carry peerIp modelId vault pieces manifest
      id) (hbegins : Begins course state modelId manifest.modelId w)
    (htime : course.InTime pieces.length)
    (hpull : pullModel course.client (watched attack) machine course.server.pub modelId destination
      w = (.ok result, w')) :
    ∃ frames : List Bytes, frames.length = pieces.length + 1 ∧
      w'.network = after attack w.network frames ∧ ∀ i frame, frames[i]? = some frame →
        sendFrame (toDict (asks course modelId i)) = .ok frame := by
  obtain ⟨hid, hcount, -⟩ := lookup_told course vault.crypto.sha pieces.flatten manifest
  have hlength : manifest.nShards = pieces.length := VaultReads.published_nShards vault.crypto
    vault.root vault.passphrase vault.files pieces manifest hconnected.stocked.offered.published
  obtain ⟨initial, w₀, count, nShards, chunks, w₁, hopen, hitem, hshards, hfetches, -, -, hsame,
    -⟩ := pull_ok course.client (watched attack) machine course.server.pub modelId destination hpull
  have hopens := opens_of_opened hconnected hbegins htime hopen
  obtain ⟨w₂, hopen', hready⟩ := openSession_ready hconnected hbegins htime hopens
  obtain ⟨hinitial, rfl⟩ := Prod.mk.inj (hopen.symm.trans hopen')
  obtain rfl := Except.ok.inj hinitial
  obtain rfl := Except.ok.inj (hitem.symm.trans (item_of_lookup hcount))
  obtain rfl : manifest.nShards = nShards := Except.ok.inj hshards
  have hchunks := hfetches.length_eq
  rw [hlength, Int.toNat_natCast, List.length_range] at hchunks
  rw [hlength, Int.toNat_natCast, ← hchunks, List.range_eq_range'] at hfetches
  obtain ⟨response, hask, -, -⟩ := openSession_ok course.client _ hopen
  obtain ⟨first, hsent, hnetwork, -, -⟩ := sent_ask hask
  rw [hbegins.made] at hsent
  obtain ⟨frames, hcounted, hfinal, hframes⟩ := fetches_asks chunks 0
    hready.absent hfetches
  refine ⟨first :: frames, ?_, ?_, fun i frame hframe => ?_⟩
  · rw [List.length_cons, hcounted, hchunks]
  · rw [hsame.2.2, hfinal, hnetwork]
    rfl
  · cases i with
    | zero =>
      obtain rfl := Option.some.inj hframe
      exact hsent
    | succ i =>
      obtain ⟨session, hsession, hnext⟩ := hframes i frame hframe
      obtain rfl := Except.ok.inj (hsession.symm.trans (item_of_lookup hid))
      have htick : course.asking 1 + 2 * i = course.asking (i + 1) := by
        simp only [Course.asking]
        omega
      rw [hready.tick, Nat.zero_add, Nat.zero_add, htick] at hnext
      exact hnext

end Pulls

end Decillion.SentRequests
