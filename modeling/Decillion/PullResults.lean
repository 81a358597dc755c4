import Decillion.JsonObjects
import Decillion.PullRuns
import Decillion.ScriptedPeers

/-!
The dictionary that a pull returns. The members of the session come last when it is put
together, so a peer that sends one of the names of the call overrides what the call has put
there. Two sessions that agree on what the loop uses fetch the same file.
-/
namespace Decillion.PullResults

open ByteText Base64Text JsonValues JsonObjects JsonText JsonStrings JsonRoundTrip Primitives
open PyErrors PyValues
open Dictionaries HostSystem AccessRequests ShardVault RaisingPrograms ShardCaches TelepathMessages
open TelepathFrames TelepathSessions TelepathNodes TelepathAnswers TelepathPulls PulledFiles
open TelepathExchanges ScriptedPeers PullRuns

variable {σ F : Type}

theorem lookup_setMember_of_ne {key other : String} (hne : other ≠ key) (value : Json F)
    (members : Members F) : (setMember key value members).lookup other = members.lookup other := by
  induction members with
  | nil =>
    rw [setMember, List.lookup_cons, beq_false_of_ne hne]
  | cons member rest ih =>
    obtain ⟨k, v⟩ := member
    by_cases hk : k = key
    · subst hk
      rw [setMember, if_pos rfl, List.lookup_cons, List.lookup_cons, beq_false_of_ne hne]
    · rw [setMember, if_neg hk, List.lookup_cons, List.lookup_cons, ih]

/-- Of two values under one name the later one stays. -/
theorem lookup_foldl (key : String) (members earlier : Members F)
    (hnodup : (members.map Prod.fst).Nodup) :
    (members.foldl (fun acc pair => setMember pair.1 pair.2 acc) earlier).lookup key =
      (members.lookup key).or (earlier.lookup key) := by
  induction members generalizing earlier with
  | nil => rfl
  | cons member rest ih =>
    obtain ⟨k, v⟩ := member
    rw [List.map_cons, List.nodup_cons] at hnodup
    rw [List.foldl_cons, ih _ hnodup.2, List.lookup_cons]
    by_cases hk : key = k
    · subst hk
      have hnone : rest.lookup key = none := by
        rw [List.lookup_eq_none_iff]
        rintro ⟨other, value⟩ hmem
        simp only [bne_iff_ne, ne_eq]
        rintro rfl
        exact hnodup.1 (List.mem_map.mpr ⟨_, hmem, rfl⟩)
      rw [lookup_setMember, beq_self_eq_true, hnone]
      rfl
    · rw [lookup_setMember_of_ne hk, beq_false_of_ne hk]

/-- The members that the call itself gives. -/
def own (modelId path : String) (total : ℕ) : Members F :=
  [("model_id", .str modelId), ("path", .str path), ("bytes", .int total)]

theorem lookup_result {modelId path : String} {total : ℕ} {members result : Members F}
    (hkeys : DistinctKeys (.obj members)) (h : pullResult modelId path total (.obj members) =
      .ok result) (key : String) :
    result.lookup key = (members.lookup key).or ((own modelId path total).lookup key) := by
  obtain rfl := Except.ok.inj h
  rw [ofPairs, List.foldl_append, lookup_foldl key _ _ hkeys.1]
  rfl

section Payloads

variable [FloatText F]

/-- What is read from a frame is a dictionary at every level. -/
theorem distinctKeys_recvFrame {stream : Bytes} {value : Json F}
    (h : recvFrame stream = .ok value) : DistinctKeys value := by
  unfold recvFrame at h
  dsimp only at h
  split at h
  · cases h
  · split at h
    · cases h
    · split at h
      · cases h
      · split at h
        · cases h
        · rename_i found hfound
          obtain ⟨text, -, hloads⟩ := Option.bind_eq_some_iff.mp hfound
          obtain rfl := Except.ok.inj h
          exact loads_distinctKeys text _ hloads

variable [FloatTime F] [FloatNumber F] [FloatConversion F]

omit [FloatText F] [FloatTime F] in
/-- No key occurs twice in what is signed of a message that has been read. -/
theorem distinctKeys_fromDict {repr : String → String} {value : Json F} {message : RawMessage F}
    (hkeys : DistinctKeys value) (h : fromDict repr value = .ok message) :
    DistinctKeys message.unsigned := by
  cases value with
  | obj members =>
    rw [fromDict] at h
    obtain ⟨type, htype, h⟩ := bind_eq_ok h
    obtain ⟨sender, hsender, h⟩ := bind_eq_ok h
    obtain ⟨nonce, hnonce, h⟩ := bind_eq_ok h
    obtain ⟨time, -, h⟩ := bind_eq_ok h
    obtain ⟨ts, -, h⟩ := bind_eq_ok h
    obtain ⟨payload, hpayload, h⟩ := bind_eq_ok h
    obtain rfl := Except.ok.inj h
    have hfield : ∀ {key : String} {value : Json F}, PyCollections.item members key = .ok value →
        DistinctKeys value :=
      fun hitem => distinctKeys_lookup hkeys (PyCollections.item_ok.mp hitem)
    exact ⟨by simp, hfield htype, hfield hsender, hfield hnonce, trivial, hfield hpayload, trivial⟩
  | null => cases h
  | bool _ => cases h
  | int _ => cases h
  | float _ => cases h
  | str _ => cases h
  | list _ => cases h

omit [FloatText F] [FloatTime F] [FloatNumber F] [FloatConversion F] in
theorem distinctKeys_payload {message : RawMessage F} (h : DistinctKeys message.unsigned) :
    DistinctKeys message.payload := h.2.2.2.2.2.1

variable (node : Node F) (network : Network σ) {w w' : World σ F}

theorem distinctKeys_request {message : Message F} {response : RawMessage F}
    {expectedSender : Option String}
    (h : request node network message expectedSender w = (.ok response, w')) :
    DistinctKeys response.payload := by
  unfold request at h
  obtain ⟨frame, -, h⟩ := returned_bind_lift h
  obtain ⟨stream, w₁, -, h⟩ := returned_bind h
  obtain ⟨value, nonce, reason, hvalue, hanswer, -⟩ := checkResponse_ok (onClient_ok h)
  exact distinctKeys_payload (distinctKeys_fromDict (distinctKeys_recvFrame hvalue) hanswer)

theorem distinctKeys_openSession {peer modelId : String} {budget ttl : ℤ} {initial : Json F}
    (h : openSession node network peer modelId budget ttl w = (.ok initial, w')) :
    DistinctKeys initial := by
  obtain ⟨response, hask, -, rfl⟩ := openSession_ok node network h
  obtain ⟨u, w₁, -, hask⟩ := returned_bind hask
  obtain ⟨message, w₂, -, hrequest⟩ := returned_bind hask
  exact distinctKeys_request node network hrequest

end Payloads

section Runs

variable [FloatText F] [FloatTime F] [FloatNumber F] [FloatConversion F] (node : Node F)
  (network : Network σ) (machine : Machine) (peer modelId : String) (destination : Path)

def sessionKeys : List String := ["session_id", "n_shards", "file_sha256"]

omit [FloatText F] [FloatTime F] [FloatNumber F] [FloatConversion F] in
theorem item_congr {members members' : Members F} {key : String}
    (h : members'.lookup key = members.lookup key) :
    item (.obj members') key = item (.obj members) key := by
  rw [item, item, h]

/-- What the loop does depends on three members of the session. -/
theorem receiveModel_congr {members members' : Members F}
    (hsame : ∀ key ∈ sessionKeys, members'.lookup key = members.lookup key)
    (temporary target : Path) :
    receiveModel node network machine peer modelId (.obj members') temporary target =
      receiveModel node network machine peer modelId (.obj members) temporary target := by
  have hsession := item_congr (hsame "session_id" (by decide))
  have hcount := item_congr (hsame "n_shards" (by decide))
  have hloop : ∀ indices written, fetchShards node network machine peer modelId (.obj members')
      temporary indices written = fetchShards node network machine peer modelId (.obj members)
      temporary indices written := by
    intro indices
    induction indices with
    | nil => exact fun _ => rfl
    | cons index rest ih =>
      intro written
      rw [fetchShards, fetchShards, hsession]
      simp only [ih]
  have hexpected : member (.obj members') "file_sha256" .null =
      member (.obj members) "file_sha256" (.null : Json F) := by
    rw [member, member, field, field, hsame "file_sha256" (by decide)]
  unfold receiveModel receiveShards
  simp only [hcount, hloop, hexpected]

/-- The dictionary tells what the call has done: the model, the path and the size of the file. -/
def Right (result : Members F) (w : World σ F) : Prop :=
  ∃ content, w.files (targetFile destination modelId) = some content ∧
    result.lookup "model_id" = some (.str modelId) ∧
    result.lookup "path" = some (.str (machine.spell (targetFile destination modelId))) ∧
    result.lookup "bytes" = some (.int content.length)

/-- No member of the session says something else than the call under one of its names. -/
def Unopposed (members : Members F) (w : World σ F) : Prop :=
  ∃ content, w.files (targetFile destination modelId) = some content ∧
    (∀ value, members.lookup "model_id" = some value → value = .str modelId) ∧
    (∀ value, members.lookup "path" = some value →
      value = .str (machine.spell (targetFile destination modelId))) ∧
    ∀ value, members.lookup "bytes" = some value → value = .int content.length

variable {w w₁ w₂ w' w₂' : World σ F} {members members' result result' : Members F}

/-- A pull that returns has put the dictionary together from the members of its session. -/
theorem pull_lookup
    (hopen : openSession node network peer modelId 1000000 3600 w = (.ok (.obj members), w₁))
    (hpull : pullModel node network machine peer modelId destination w = (.ok result, w₂)) :
    ∃ content, w₂.files (targetFile destination modelId) = some content ∧
      ∀ key, result.lookup key = (members.lookup key).or
        ((own modelId (machine.spell (targetFile destination modelId))
          content.length).lookup key) := by
  obtain ⟨initial, w₀, count, nShards, chunks, w₃, hopened, -, -, -, -, hresult, -, hfiles⟩ :=
    pull_ok node network machine peer modelId destination hpull
  rw [hopen] at hopened
  obtain rfl := Except.ok.inj (Prod.mk.inj hopened).1
  refine ⟨chunks.flatten, by rw [hfiles, Function.update_self], ?_⟩
  exact lookup_result (distinctKeys_openSession node network hopen) hresult

/-- What a pull returns is right exactly if no member of the session stands against it. -/
theorem right_iff
    (hopen : openSession node network peer modelId 1000000 3600 w = (.ok (.obj members), w₁))
    (hpull : pullModel node network machine peer modelId destination w = (.ok result, w₂)) :
    Right machine modelId destination result w₂ ↔
      Unopposed machine modelId destination members w₂ := by
  obtain ⟨content, hcontent, hlookup⟩ := pull_lookup node network machine peer modelId destination
    hopen hpull
  have hkey : ∀ key given, (own modelId (machine.spell (targetFile destination modelId))
      content.length : Members F).lookup key = some given →
      (result.lookup key = some given ↔
        ∀ value, members.lookup key = some value → value = given) := by
    intro key given hgiven
    rw [hlookup, hgiven]
    cases members.lookup key with
    | none => simp
    | some value => simp
  have hunique : ∀ found, w₂.files (targetFile destination modelId) = some found →
      found = content := by
    intro found hfound
    rw [hcontent, Option.some.injEq] at hfound
    exact hfound.symm
  constructor
  · rintro ⟨found, hfound, hmodel, hpath, hbytes⟩
    obtain rfl := hunique found hfound
    exact ⟨found, hfound, (hkey _ _ rfl).mp hmodel, (hkey _ _ rfl).mp hpath,
      (hkey _ _ rfl).mp hbytes⟩
  · rintro ⟨found, hfound, hmodel, hpath, hbytes⟩
    obtain rfl := hunique found hfound
    exact ⟨found, hfound, (hkey _ _ rfl).mpr hmodel, (hkey _ _ rfl).mpr hpath,
      (hkey _ _ rfl).mpr hbytes⟩

/-- Two sessions that agree on what the loop uses leave the same files. -/
theorem same_files (hsame : ∀ key ∈ sessionKeys, members'.lookup key = members.lookup key)
    (hopen : openSession node network peer modelId 1000000 3600 w = (.ok (.obj members), w₁))
    (hopen' : openSession node network peer modelId 1000000 3600 w' = (.ok (.obj members'), w₁))
    (hpull : pullModel node network machine peer modelId destination w = (.ok result, w₂))
    (hpull' : pullModel node network machine peer modelId destination w' = (.ok result', w₂')) :
    w₂'.files = w₂.files := by
  have hcongr := receiveModel_congr node network machine peer modelId hsame
    (temporaryFile destination modelId) (targetFile destination modelId)
  rw [pullModel, bind_ok hopen, pullSession] at hpull
  rw [pullModel, bind_ok hopen', pullSession, hcongr] at hpull'
  obtain ⟨u, -, hpull⟩ := returned_bind_lift hpull
  obtain ⟨u', -, hpull'⟩ := returned_bind_lift hpull'
  obtain ⟨total, w₃, hreceive, hpull⟩ := returned_bind hpull
  obtain ⟨total', w₃', hreceive', hpull'⟩ := returned_bind hpull'
  rw [hreceive, Prod.mk.injEq] at hreceive'
  obtain ⟨htotal, rfl⟩ := hreceive'
  have hleft : ∀ (total : ℕ) (members : Members F) (result : Members F) (w : World σ F),
      (do
        onClient (node.receipt "telepath.model_pulled" modelId peer [("bytes", .int total),
          ("path", .str (machine.spell (targetFile destination modelId)))])
        pullResult modelId (machine.spell (targetFile destination modelId)) total (.obj members) :
          Pulling σ F (Members F)) w₃ = (.ok result, w) → w.files = w₃.files := by
    intro total members result w h
    obtain ⟨answer, hreceipt⟩ := receipt_run node "telepath.model_pulled" modelId peer
      [("bytes", .int total), ("path", .str (machine.spell (targetFile destination modelId)))] w₃
    obtain ⟨u, w₄, hwritten, h⟩ := returned_bind h
    rw [hreceipt, Prod.mk.injEq] at hwritten
    obtain ⟨-, rfl⟩ := hwritten
    rw [← (Prod.mk.inj h).2]
  rw [hleft total members result w₂ hpull, hleft total' members' result' w₂' hpull']

/-- The results of two runs whose sessions agree on what the loop uses are right and alike
exactly if no member of a session stands against the call. -/
theorem results_iff (hsame : ∀ key ∈ sessionKeys, members'.lookup key = members.lookup key)
    (hopen : openSession node network peer modelId 1000000 3600 w = (.ok (.obj members), w₁))
    (hopen' : openSession node network peer modelId 1000000 3600 w' = (.ok (.obj members'), w₁))
    (hpull : pullModel node network machine peer modelId destination w = (.ok result, w₂))
    (hpull' : pullModel node network machine peer modelId destination w' = (.ok result', w₂')) :
    (Right machine modelId destination result w₂ ∧ Right machine modelId destination result' w₂' ∧
      ∀ key ∈ ["model_id", "path", "bytes"], result'.lookup key = result.lookup key) ↔
    Unopposed machine modelId destination members w₂ ∧
      Unopposed machine modelId destination members' w₂' := by
  have hfirst := right_iff node network machine peer modelId destination hopen hpull
  have hsecond := right_iff node network machine peer modelId destination hopen' hpull'
  rw [← hfirst, ← hsecond]
  constructor
  · rintro ⟨hright, hright', -⟩
    exact ⟨hright, hright'⟩
  · rintro ⟨hright, hright'⟩
    refine ⟨hright, hright', ?_⟩
    have hfiles := same_files node network machine peer modelId destination hsame hopen hopen'
      hpull hpull'
    obtain ⟨content, hcontent, hmodel, hpath, hbytes⟩ := hright
    obtain ⟨content', hcontent', hmodel', hpath', hbytes'⟩ := hright'
    rw [hfiles, hcontent, Option.some.injEq] at hcontent'
    subst hcontent'
    simp only [List.mem_cons, List.not_mem_nil, or_false]
    rintro key (rfl | rfl | rfl)
    · rw [hmodel, hmodel']
    · rw [hpath, hpath']
    · rw [hbytes, hbytes']

end Runs

section Samples

theorem sample_agreed : Agreed sampleNode samplePeer :=
  ⟨rfl, rfl, fun _ => decide_eq_false (by norm_num [samplePeer, sampleNode, maxSkew])⟩

def noAnswer (_ : Message WholeFloat) : String × Members WholeFloat := ("ERROR", [])

/-- A session of a model without shards, with one more member. -/
def sampleSession (extra : Members WholeFloat) : Members WholeFloat :=
  [("session_id", .str "s"), ("n_shards", .int 0)] ++ extra

def sampleScript (extra : Members WholeFloat) : Script WholeFloat :=
  [("SESSION_ACCEPT", sampleSession extra)]

/-- What the client has of the session. -/
def sampleMembers (extra : Members WholeFloat) : Members WholeFloat :=
  setMember "request_nonce" (.str (hex (octets 16 0))) (sampleSession extra)

/-- The two sessions: one with no more members and one that names a path of the peer's choice. -/
def sampleExtras : List (Members WholeFloat) := [[], [("path", .str "/etc/passwd")]]

def sampleModels : List String := ["m", ".."]

theorem sample_short : ∀ modelId ∈ sampleModels, Short sampleNode "SESSION_OPEN"
    (openPayload modelId 1000000 3600) 0 := by
  simp only [sampleModels, List.mem_cons, List.not_mem_nil, or_false]
  rintro modelId (rfl | rfl)
  · rw [Short, signedLength]
    decide +kernel
  · rw [Short, signedLength]
    decide +kernel

theorem sample_fits : ∀ extra ∈ sampleExtras, Fits samplePeer (hex (sampleNode.uuid 0))
    "SESSION_ACCEPT" (sampleSession extra) 0 := by
  simp only [sampleExtras, List.mem_cons, List.not_mem_nil, or_false]
  rintro extra (rfl | rfl)
  · rw [fits_shallow rfl, signedLength]
    decide +kernel
  · rw [fits_shallow rfl, signedLength]
    decide +kernel

theorem sample_distinct : ∀ extra ∈ sampleExtras, DistinctKeys (.obj (sampleSession extra)) := by
  simp only [sampleExtras, List.mem_cons, List.not_mem_nil, or_false]
  rintro extra (rfl | rfl)
  · exact ⟨by decide, trivial, trivial, trivial⟩
  · exact ⟨by decide, trivial, trivial, trivial, trivial⟩

/-- The client once its session is open. -/
def sampleOpened : World (Script WholeFloat) WholeFloat :=
  { sampleWorld samplePeer.pub [] with
    client := (sampleWorld samplePeer.pub ()).client.next.next }

theorem sample_opened {modelId : String} (hmodel : modelId ∈ sampleModels)
    {extra : Members WholeFloat} (hextra : extra ∈ sampleExtras) :
    openSession sampleNode (scripted samplePeer noAnswer) samplePeer.pub modelId 1000000 3600
        (sampleWorld samplePeer.pub (sampleScript extra)) =
      (.ok (.obj (sampleMembers extra)), sampleOpened) := by
  have hknown : (((sampleWorld samplePeer.pub (sampleScript extra)).client.peers.get?
      samplePeer.pub).isSome) = true := by
    rw [sampleWorld, Dict.get?_set, if_pos rfl]
    rfl
  exact openSession_scripted (w := sampleWorld samplePeer.pub (sampleScript extra))
    sample_agreed modelId 1000000 3600 hknown (sample_short modelId hmodel)
      (sample_distinct extra hextra)
    (sample_fits extra hextra) rfl

theorem sample_lookup (extra : Members WholeFloat) (hextra : extra ∈ sampleExtras) :
    (sampleMembers extra).lookup "session_id" = some (.str "s") ∧
      (sampleMembers extra).lookup "n_shards" = some (.int 0) ∧
      (sampleMembers extra).lookup "file_sha256" = none := by
  simp only [sampleExtras, List.mem_cons, List.not_mem_nil, or_false] at hextra
  rcases hextra with rfl | rfl
  · exact ⟨rfl, rfl, rfl⟩
  · exact ⟨rfl, rfl, rfl⟩

theorem sample_pulled {modelId : String} (hmodel : modelId ∈ sampleModels)
    {extra : Members WholeFloat} (hextra : extra ∈ sampleExtras) :
    ∃ result w', pullModel sampleNode (scripted samplePeer noAnswer) sampleMachine samplePeer.pub
      modelId ["d"]
        (sampleWorld samplePeer.pub (sampleScript extra)) = (.ok result, w') := by
  obtain ⟨-, hcount, hhash⟩ := sample_lookup extra hextra
  have hitem : item (.obj (sampleMembers extra)) "n_shards" = .ok (.int 0) := by
    rw [item, hcount]
    rfl
  have hmember : member (.obj (sampleMembers extra)) "file_sha256" .null = .ok .null := by
    rw [member, field, hhash]
    rfl
  have hfetches : Fetches sampleNode (scripted samplePeer noAnswer) samplePeer.pub modelId
      (.obj (sampleMembers extra)) (List.range (0 : ℤ).toNat) [] sampleOpened sampleOpened :=
    SameFetching.refl _
  obtain ⟨result, w', hrun, -⟩ := pullSession_run (fun _ => rfl : ∀ tick,
    sampleMachine.spoiled tick = none) ["d"] rfl
    (fun _ hlog => absurd hlog (by simp [sampleNode])) hitem rfl hfetches
    ⟨.null, hmember, by simp [truthy]⟩
  exact ⟨result, w', (bind_ok (sample_opened hmodel hextra)).trans hrun⟩

/-- A session without a further member and one that names a path. -/
theorem results_iff_sample : ∃ result result' w₂ w₂',
    pullModel sampleNode (scripted samplePeer noAnswer) sampleMachine samplePeer.pub "m" ["d"]
      (sampleWorld samplePeer.pub (sampleScript [])) = (.ok result, w₂) ∧
    pullModel sampleNode (scripted samplePeer noAnswer) sampleMachine samplePeer.pub "m" ["d"]
      (sampleWorld samplePeer.pub (sampleScript [("path", .str "/etc/passwd")])) =
        (.ok result', w₂') ∧
    ((Right sampleMachine "m" ["d"] result w₂ ∧ Right sampleMachine "m" ["d"] result' w₂' ∧
      ∀ key ∈ ["model_id", "path", "bytes"], result'.lookup key = result.lookup key) ↔
    Unopposed sampleMachine "m" ["d"] (sampleMembers []) w₂ ∧
      Unopposed sampleMachine "m" ["d"] (sampleMembers [("path", .str "/etc/passwd")]) w₂') := by
  have hmodel : "m" ∈ sampleModels := List.mem_cons_self
  have hfirst : ([] : Members WholeFloat) ∈ sampleExtras := List.mem_cons_self
  have hsecond : [("path", .str "/etc/passwd")] ∈ sampleExtras :=
    List.mem_cons_of_mem _ List.mem_cons_self
  obtain ⟨result, w₂, hpull⟩ := sample_pulled hmodel hfirst
  obtain ⟨result', w₂', hpull'⟩ := sample_pulled hmodel hsecond
  refine ⟨result, result', w₂, w₂', hpull, hpull', results_iff _ _ _ _ _ _ ?_
    (sample_opened hmodel hfirst) (sample_opened hmodel hsecond) hpull hpull'⟩
  obtain ⟨hsession, hcount, hhash⟩ := sample_lookup _ hfirst
  obtain ⟨hsession', hcount', hhash'⟩ := sample_lookup _ hsecond
  simp only [sessionKeys, List.mem_cons, List.not_mem_nil, or_false]
  rintro key (rfl | rfl | rfl)
  · rw [hsession, hsession']
  · rw [hcount, hcount']
  · rw [hhash, hhash']

/-- The peer names the path that the call returns. -/
theorem path_chosen_by_peer : ∃ result w',
    pullModel sampleNode (scripted samplePeer noAnswer) sampleMachine samplePeer.pub "m" ["d"]
      (sampleWorld samplePeer.pub (sampleScript [("path", .str "/etc/passwd")])) =
        (.ok result, w') ∧
    result.lookup "path" = some (.str "/etc/passwd") ∧
    ¬ Right sampleMachine "m" ["d"] result w' := by
  have hmodel : "m" ∈ sampleModels := List.mem_cons_self
  have hextra : [("path", .str "/etc/passwd")] ∈ sampleExtras :=
    List.mem_cons_of_mem _ List.mem_cons_self
  obtain ⟨result, w', hpull⟩ := sample_pulled hmodel hextra
  obtain ⟨content, -, hlookup⟩ := pull_lookup _ _ _ _ _ _ (sample_opened hmodel hextra) hpull
  have hpath : result.lookup "path" = some (.str "/etc/passwd") := by
    rw [hlookup]
    rfl
  refine ⟨result, w', hpull, hpath, ?_⟩
  rintro ⟨found, -, -, hright, -⟩
  rw [hpath, Option.some.injEq, Json.str.injEq] at hright
  exact absurd hright (by decide +kernel)

end Samples

end Decillion.PullResults
