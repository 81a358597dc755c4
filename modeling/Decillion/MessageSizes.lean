import Decillion.CarriedPulls

/-!
How long the messages of a pull are. The text of each of them is that of the model, of the numbers
in it and of the time, four characters for every three octets of a shard, and what is the same in
every message of its kind.
-/
namespace Decillion.MessageSizes

open ByteText Base64Text JsonValues JsonText JsonStrings Primitives HostSystem ShardManifests
open AccessRequests RawManifests TelepathMessages TelepathFrames TelepathNodes TelepathAnswers
  TelepathExchanges
open TelepathServing ScriptedPeers SessionAnswers CarriedPulls

variable {F : Type} [FloatText F] [FloatTime F]

theorem escapeChar_digit :
    ∀ n, n < 64 → escapeChar true (toStandard (digit n)) = [toStandard (digit n)] := by
  decide +kernel

theorem dumpString_b64 (bytes : Bytes) :
    (dumpString compact (b64encode bytes)).length = 4 * ((bytes.length + 2) / 3) + 2 := by
  have hplain : ∀ c ∈ encodeChars bytes, escapeChar true (toStandard c) = [toStandard c] :=
    encodeChars_forall escapeChar_digit (by decide) bytes
  have hflat : ((encodeChars bytes).map toStandard).flatMap (escapeChar compact.ensureAscii) =
      (encodeChars bytes).map toStandard := by
    rw [List.flatMap_map, List.map_eq_flatMap]
    exact List.flatMap_congr hplain
  rw [dumpString, chars_eq, b64encode, String.toList_ofList, hflat, List.length_cons,
    List.length_append, List.length_map, encodeChars_length]
  rfl

theorem length_escapeChar_le (ascii : Bool) (c : Char) : (escapeChar ascii c).length ≤ 12 := by
  unfold escapeChar
  split_ifs <;> simp [escapeUnit]

theorem length_dumpString_le (text : String) :
    (dumpString compact text).length ≤ 12 * text.length + 2 := by
  have hflat : ∀ text : List Char,
      (text.flatMap (escapeChar compact.ensureAscii)).length ≤ 12 * text.length := by
    intro text
    induction text with
    | nil => simp
    | cons c rest ih =>
      have hchar := length_escapeChar_le compact.ensureAscii c
      rw [List.flatMap_cons, List.length_append, List.length_cons]
      omega
  have htext := hflat (chars text)
  rw [chars_eq, String.length_toList] at htext
  rw [dumpString, List.length_cons, List.length_append, List.length_singleton, chars_eq]
  omega

theorem length_dumpInt_le {n k : ℕ} (hk : 0 < k) (hn : n < 10 ^ k) :
    (dumpInt (n : ℤ)).length ≤ k := by
  rw [dumpInt, if_neg (by omega), Int.natAbs_natCast]
  exact (Nat.length_toDigits_le_iff (by decide) hk).mpr hn

/-- The lengths of the names of the fields. -/
theorem length_names : (dumpString compact "session_id").length = 12 ∧
    (dumpString compact "model_id").length = 10 ∧ (dumpString compact "n_shards").length = 10 ∧
    (dumpString compact "size_bytes").length = 12 ∧
    (dumpString compact "merkle_root").length = 13 ∧
    (dumpString compact "file_sha256").length = 13 ∧
    (dumpString compact "shard_idx").length = 11 ∧
    (dumpString compact "plaintext_hash").length = 16 ∧
    (dumpString compact "payload_b64").length = 13 ∧
    (dumpString compact "request_nonce").length = 15 := by decide +kernel

theorem newline_compact (level : ℕ) : newline compact level = [] := rfl

theorem colon_compact : colon compact = [':'] := rfl

variable (client server : Node F) (modelId : String) (tick : ℕ)

theorem length_opening : signedLength "SESSION_OPEN" (client.stamp tick)
      (.obj (openPayload modelId 1000000 3600)) =
    369 + (FloatText.text (client.stamp tick)).length + (dumpString compact modelId).length := by
  have hfixed : (dumpString compact "SESSION_OPEN").length = 14 ∧
      (dumpString compact "purpose").length = 9 ∧ (dumpString compact "pull").length = 6 ∧
      (dumpString compact "budget_shards").length = 15 ∧ (dumpInt 1000000).length = 7 ∧
      (dumpString compact "ttl_s").length = 7 ∧ (dumpInt 3600).length = 4 := by decide +kernel
  simp only [signedLength, openPayload, dump, dumpMembers, newline_compact, colon_compact,
    List.nil_append, List.length_cons, List.length_append, List.length_nil, length_names, hfixed]
  omega

theorem length_asked {sessionId : Bytes} (hlength : sessionId.length = 16) (index : ℤ) :
    signedLength "REQUEST_SHARD" (client.stamp tick) (.obj (shardAsked (hex sessionId) index)) =
      365 + (FloatText.text (client.stamp tick)).length + (dumpInt index).length := by
  have hkind : (dumpString compact "REQUEST_SHARD").length = 15 := by decide +kernel
  simp only [signedLength, shardAsked, dump, dumpMembers, newline_compact, colon_compact,
    List.nil_append, List.length_cons, List.length_append, List.length_nil, length_names, hkind,
    dumpString_hex, hlength]
  omega

theorem length_hexdigest (sha : Sha256) (content : Bytes) :
    (dumpString compact (sha.hexdigest content)).length = 66 := by
  rw [Sha256.hexdigest, dumpString_hex, sha.digest_length]

variable {nonce : Bytes} (hnonce : nonce.length = 16)
include hnonce

theorem length_accepted (sha : Sha256) (content : Bytes) (manifest : ModelManifest F)
    {sessionId root : Bytes} (hlength : sessionId.length = 16)
    (hroot : manifest.merkleRoot = hex root) (hrootLength : root.length = 32) :
    signedLength "SESSION_ACCEPT" (server.stamp tick) (.obj (setMember "request_nonce"
        (.str (hex nonce)) (accepted sha content manifest (hex sessionId)))) =
      604 + (FloatText.text (server.stamp tick)).length +
        (dumpString compact manifest.modelId).length + (dumpInt manifest.nShards).length +
        (dumpInt manifest.sizeBytes).length := by
  have hkind : (dumpString compact "SESSION_ACCEPT").length = 16 := by decide +kernel
  have hset : setMember "request_nonce" (.str (hex nonce))
      (accepted sha content manifest (hex sessionId)) =
        [("session_id", .str (hex sessionId)), ("model_id", .str manifest.modelId),
          ("n_shards", .int manifest.nShards), ("size_bytes", .int manifest.sizeBytes),
          ("merkle_root", .str (hex root)), ("file_sha256", .str (sha.hexdigest content)),
          ("request_nonce", .str (hex nonce))] := by
    rw [← hroot]
    rfl
  simp only [signedLength, hset, dump, dumpMembers, newline_compact, colon_compact,
    List.nil_append, List.length_cons, List.length_append, List.length_nil, length_names, hkind,
    dumpString_hex, length_hexdigest, hlength, hnonce, hrootLength]
  omega

theorem length_shard (index : ℤ) (data : Bytes) :
    signedLength "SHARD_DATA" (server.stamp tick) (.obj (setMember "request_nonce"
        (.str (hex nonce)) (shardMembers server modelId index data))) =
      478 + (FloatText.text (server.stamp tick)).length + (dumpString compact modelId).length +
        (dumpInt index).length + 4 * ((data.length + 2) / 3) := by
  have hkind : (dumpString compact "SHARD_DATA").length = 12 := by decide +kernel
  have hset : setMember "request_nonce" (.str (hex nonce))
      (shardMembers server modelId index data) =
        [("model_id", .str modelId), ("shard_idx", .int index),
          ("plaintext_hash", .str (server.sha.hexdigest data)),
          ("payload_b64", .str (b64encode data)), ("request_nonce", .str (hex nonce))] := rfl
  simp only [signedLength, hset, dump, dumpMembers, newline_compact, colon_compact,
    List.nil_append, List.length_cons, List.length_append, List.length_nil, length_names, hkind,
    dumpString_hex, dumpString_b64, length_hexdigest, hnonce]
  omega

end Decillion.MessageSizes
