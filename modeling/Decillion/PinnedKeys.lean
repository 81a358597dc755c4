import Decillion.VonageReceipts

/-!
Which receipts the check accepts under a key that the caller expects. Whoever holds that key
has minted a receipt with the same content, unless the caller passes the empty text: then the
key that the receipt names is taken, and everybody can mint a receipt that is accepted.
-/
namespace Decillion.PinnedKeys

open AccessRequests ByteText JsonRoundTrip JsonStrings JsonText JsonValues Primitives
  PyCollections PyErrors PyValues VonageReceipts

variable {F : Type} [FloatText F] {sha : Sha256} {ed : Ed25519} {lowering : Lowering}
  {text : SignatureError → String}

section Minted

variable (sha ed) (secret : Bytes) (call : MintCall F)

/-- The receipt that a call returns for a tier that is supported. -/
def minted : Members F :=
  mintUnsigned sha ed secret call ++ [("signature",
    .str (hex (ed.sign secret (canonical (.obj (mintUnsigned sha ed secret call))))))]

theorem without_minted : without ["signature"] (minted sha ed secret call) =
    mintUnsigned sha ed secret call := rfl

theorem without_both : without ["receipt_id", "signature"] (minted sha ed secret call) =
    mintBody ed secret call := rfl

theorem keys_unsigned : (mintUnsigned sha ed secret call).map Prod.fst =
    ["spec", "created_at", "channel", "vonage_response", "signer", "anchor", "proves",
      "does_not_prove", "disclosures", "genesis_authority", "receipt_id"] := rfl

theorem distinct_unsigned : DistinctKeys (.obj (mintUnsigned sha ed secret call)) := by
  refine ⟨?_, ?_⟩
  · rw [keys_unsigned]
    decide
  · simp [mintUnsigned, mintBody, proves, doesNotProve, disclosures, DistinctKeysMembers,
      DistinctKeysItems, DistinctKeys, call.distinct.1, call.distinct.2]

theorem distinct_minted : DistinctKeys (.obj (minted sha ed secret call)) := by
  have hunsigned := distinct_unsigned sha ed secret call
  refine ⟨?_, ?_⟩
  · have hkeys := congrArg (· ++ ["signature"]) (keys_unsigned sha ed secret call)
    rw [minted, List.map_append]
    exact hkeys.symm ▸ (by decide)
  · rw [distinctKeysMembers_iff]
    intro member hmember
    rcases List.mem_append.mp hmember with hmember | hmember
    · exact (distinctKeysMembers_iff _).mp hunsigned.2 member hmember
    · rw [List.mem_singleton.mp hmember]
      trivial

variable {sha ed secret call}

theorem mint_ok {receipt : Members F} (h : mintSignedReceipt sha ed secret call = .ok receipt) :
    receipt = minted sha ed secret call := by
  unfold mintSignedReceipt at h
  split at h
  · exact (Except.ok.inj h).symm
  · cases h

end Minted

section RoundTrip

variable {secret : Bytes} {call : MintCall F}

theorem checkSignature_minted (hlength : (ed.publicKey secret).length = 32) :
    checkSignature ed (minted sha ed secret call) (.str (hex (ed.publicKey secret))) = .ok () := by
  have hkey : bytesFromHex (.str (hex (ed.publicKey secret)) : Json F) =
      .ok (ed.publicKey secret) := by
    rw [bytesFromHex, fromHex_hex]
  have hpublic : publicKeyOf (ed.publicKey secret) = .ok (ed.publicKey secret) := if_pos hlength
  have hlookup : (minted sha ed secret call).lookup "signature" = some
      (.str (hex (ed.sign secret (canonical (.obj (mintUnsigned sha ed secret call)))))) := rfl
  have hsignature : bytesFromHex (.str (hex (ed.sign secret
      (canonical (.obj (mintUnsigned sha ed secret call))))) : Json F) =
        .ok (ed.sign secret (canonical (.obj (mintUnsigned sha ed secret call)))) := by
    rw [bytesFromHex, fromHex_hex]
  have hverify := ed.verify_sign secret (canonical (.obj (mintUnsigned sha ed secret call)))
  rw [checkSignature, hkey, ok_bind, hpublic, ok_bind, hlookup, Option.getD_some, hsignature,
    ok_bind, without_minted, hverify]
  rfl

theorem idErrors_minted : idErrors sha (minted sha ed secret call) = [] := by
  have hlookup : (minted sha ed secret call).lookup "receipt_id" = some
      (.str (sha256Hex sha (canonical (.obj (mintBody ed secret call))))) := rfl
  rw [idErrors, hlookup, Option.getD_some, without_both, equalsStr_str]
  exact if_pos (decide_eq_true rfl)

theorem software_mentioned (lowering : Lowering) :
    mentionsSoftware lowering "the signer key is hardware-backed (T0=software)" = true := by
  have hlower := lowering.lower_ascii "the signer key is hardware-backed (T0=software)" (by decide)
  rw [mentionsSoftware, hlower]
  decide

variable [FloatNumber F]

theorem tierErrors_minted : tierErrors lowering (minted sha ed secret call) = .ok [] := by
  have htier : signerField (minted sha ed secret call) "tier" .null =
      .ok (.str call.signerTier) := rfl
  have hitems : (minted sha ed secret call).lookup "does_not_prove" =
      some (.list (doesNotProve call)) := rfl
  rw [tierErrors, htier, ok_bind, equalsStr_str]
  by_cases hzero : call.signerTier = "T0"
  · have hany : anySoftware lowering (doesNotProve call) = .ok true := by
      rw [doesNotProve, hzero]
      exact if_pos (software_mentioned lowering)
    rw [if_pos (decide_eq_true hzero), hitems, Option.getD_some, iterate, ok_bind, hany]
    rfl
  · rw [if_neg (by simpa using hzero)]
    rfl

/-- A receipt that is minted is accepted under the key that it names. -/
theorem verify_minted (hlength : (ed.publicKey secret).length = 32) {expected : Option String}
    (hkey : keyText (minted sha ed secret call) expected =
      .ok (.str (hex (ed.publicKey secret)))) :
    verifyVonageReceipt sha ed lowering text (minted sha ed secret call) expected =
      .ok ⟨true, []⟩ := by
  have hmissing : required.filter
      (fun key => ((minted sha ed secret call).lookup key).isNone) = [] := rfl
  have hanchor : anchorErrors (minted sha ed secret call) = .ok [] := rfl
  have hsignature : signatureErrors ed text (minted sha ed secret call)
      (.str (hex (ed.publicKey secret))) = [] := by
    rw [signatureErrors, checkSignature_minted hlength]
  unfold verifyVonageReceipt
  dsimp only
  rw [if_neg (by rw [hmissing]; simp), hkey, ok_bind, tierErrors_minted, ok_bind, hanchor, ok_bind,
    idErrors_minted, hsignature]
  rfl

end RoundTrip

section Accepted

variable [FloatNumber F] {receipt : Members F} {expected : Option String}

/-- The check has found the signature valid under the key. -/
theorem signed_of_ok {verdict : Verdict}
    (h : verifyVonageReceipt sha ed lowering text receipt expected = .ok verdict)
    (hok : verdict.ok = true) :
    ∃ key, keyText receipt expected = .ok key ∧ checkSignature ed receipt key = .ok () := by
  unfold verifyVonageReceipt at h
  dsimp only at h
  split at h
  · rename_i hmissing
    obtain rfl := Except.ok.inj h
    exact absurd (List.map_eq_nil_iff.mp (List.isEmpty_iff.mp hok)) hmissing
  · obtain ⟨key, hkey, h⟩ := bind_eq_ok h
    obtain ⟨tier, -, h⟩ := bind_eq_ok h
    obtain ⟨anchor, -, h⟩ := bind_eq_ok h
    obtain rfl := Except.ok.inj h
    refine ⟨key, hkey, ?_⟩
    have hnone : signatureErrors ed text receipt key = [] := by
      have hempty := List.isEmpty_iff.mp hok
      simp only [List.append_eq_nil_iff] at hempty
      exact hempty.1.1.2
    unfold signatureErrors at hnone
    split at hnone
    · assumption
    · cases hnone

omit [FloatText F] [FloatNumber F] in
theorem bytesFromHex_ok {value : Json F} {bytes : Bytes} (h : bytesFromHex value = .ok bytes) :
    ∃ text, value = .str text ∧ fromHex text = some bytes := by
  unfold bytesFromHex at h
  split at h
  · rename_i text
    split at h
    · cases h
    · rename_i found hfound
      obtain rfl := Except.ok.inj h
      exact ⟨text, rfl, hfound⟩
  · cases h

/-- The text spells a signature of the octets under the key. -/
def Verifies (ed : Ed25519) (key : Bytes) (receipt : Members F) : Prop :=
  ∃ spelling signature, receipt.lookup "signature" = some (.str spelling) ∧
    fromHex spelling = some signature ∧
    ed.verify key signature (canonical (.obj (without ["signature"] receipt))) = true

omit [FloatNumber F] in
theorem verifies_of_checkSignature {value : Json F}
    (h : checkSignature ed receipt value = .ok ()) :
    ∃ spelling key, value = .str spelling ∧ fromHex spelling = some key ∧ key.length = 32 ∧
      Verifies ed key receipt := by
  obtain ⟨bytes, hbytes, h⟩ := bind_eq_ok h
  obtain ⟨key, hkey, h⟩ := bind_eq_ok h
  obtain ⟨signature, hsignature, h⟩ := bind_eq_ok h
  obtain ⟨spelling, rfl, hhex⟩ := bytesFromHex_ok hbytes
  obtain ⟨signatureText, hlookup, hsigned⟩ := bytesFromHex_ok hsignature
  unfold publicKeyOf at hkey
  split at hkey
  · rename_i hlength
    obtain rfl := Except.ok.inj hkey
    refine ⟨spelling, _, rfl, hhex, hlength, signatureText, signature, ?_, hsigned, ?_⟩
    · cases hfound : receipt.lookup "signature" with
      | none =>
        rw [hfound] at hlookup
        cases hlookup
      | some value =>
        rw [hfound, Option.getD_some] at hlookup
        rw [hlookup]
    · split at h
      · assumption
      · cases h
  · cases hkey

omit [FloatText F] [FloatNumber F] in
theorem keyText_expected {expectedText : String} (h : expectedText ≠ "") :
    keyText receipt (some expectedText) = .ok (.str expectedText) := if_pos h

end Accepted

section Pinning

variable (sha ed) (calls : Set (Bytes × MintCall F)) (expectedText : String)

/-- A valid signature under the expected key has been made by its holder, who signs nothing but
receipts that are minted. -/
def Unforged (receipt : Members F) : Prop :=
  ∀ key, fromHex expectedText = some key → key.length = 32 → Verifies ed key receipt →
    ∃ secret call other, (secret, call) ∈ calls ∧ ed.publicKey secret = key ∧
      mintSignedReceipt sha ed secret call = .ok other ∧
      canonical (.obj (without ["signature"] receipt)) =
        canonical (.obj (without ["signature"] other))

/-- The expected text spells a key whose holder has minted a receipt with the same content
beside the text of the signature. -/
def Pinned (receipt : Members F) : Prop :=
  ∃ key secret call other, fromHex expectedText = some key ∧ key.length = 32 ∧
    (secret, call) ∈ calls ∧ ed.publicKey secret = key ∧
    mintSignedReceipt sha ed secret call = .ok other ∧
    SameValue (.obj (without ["signature"] receipt)) (.obj (without ["signature"] other))

variable {sha ed calls expectedText} [FloatNumber F]

omit [FloatText F] [FloatNumber F] in
theorem distinct_without {receipt : Members F} (h : DistinctKeys (.obj receipt))
    (keys : List String) : DistinctKeys (.obj (without keys receipt)) := by
  refine ⟨h.1.sublist (List.filter_sublist.map _), ?_⟩
  rw [distinctKeysMembers_iff]
  intro member hmember
  exact (distinctKeysMembers_iff _).mp h.2 member (List.mem_of_mem_filter hmember)

/-- A receipt that is accepted under a text that is not empty is pinned to it. -/
theorem pinned_of_ok (hexpected : expectedText ≠ "") {receipt : Members F}
    (hdistinct : DistinctKeys (.obj receipt))
    (hunforged : Unforged sha ed calls expectedText receipt) {verdict : Verdict}
    (h : verifyVonageReceipt sha ed lowering text receipt (some expectedText) = .ok verdict)
    (hok : verdict.ok = true) : Pinned sha ed calls expectedText receipt := by
  obtain ⟨value, hvalue, hcheck⟩ := signed_of_ok h hok
  rw [keyText_expected hexpected] at hvalue
  obtain rfl := Except.ok.inj hvalue
  obtain ⟨spelling, key, hspelling, hhex, hlength, hverifies⟩ := verifies_of_checkSignature hcheck
  obtain rfl := Json.str.inj hspelling
  obtain ⟨secret, call, other, hcall, hpublic, hminted, hsame⟩ :=
    hunforged key hhex hlength hverifies
  refine ⟨key, secret, call, other, hhex, hlength, hcall, hpublic, hminted, ?_⟩
  refine canonical_injective (distinct_without hdistinct _) ?_ hsame
  rw [mint_ok hminted, without_minted]
  exact distinct_unsigned sha ed secret call

theorem length_of_empty {key : Bytes} (h : fromHex "" = some key) : key.length ≠ 32 := by
  have hempty : fromHex "" = some [] := by decide
  rw [hempty] at h
  obtain rfl := Option.some.inj h
  decide

omit [FloatNumber F] in
/-- No key is spelled by the empty text. -/
theorem not_pinned_empty (receipt : Members F) : ¬ Pinned sha ed calls "" receipt := by
  rintro ⟨key, secret, call, other, hhex, hlength, -⟩
  exact length_of_empty hhex hlength

omit [FloatNumber F] in
theorem unforged_empty (receipt : Members F) : Unforged sha ed calls "" receipt :=
  fun _ hhex hlength => absurd hlength (length_of_empty hhex)

omit [FloatText F] [FloatNumber F] in
theorem empty_distinct : DistinctKeys (.obj [] : Json F) := ⟨List.nodup_nil, trivial⟩

/-- A receipt of somebody whom nobody knows. -/
def strangerCall : MintCall F := ⟨"sms", [], "stranger", "T0", "", empty_distinct⟩

variable (sha ed lowering text calls expectedText)

/-- The pinned key is effective for every text but the empty one. -/
theorem pinning_iff
    (hkeys : ∀ secret, secret.length = 32 → (ed.publicKey secret).length = 32) :
    (∀ receipt : Members F, DistinctKeys (.obj receipt) →
      Unforged sha ed calls expectedText receipt → ∀ verdict,
        verifyVonageReceipt sha ed lowering text receipt (some expectedText) = .ok verdict →
        verdict.ok = true → Pinned sha ed calls expectedText receipt) ↔ expectedText ≠ "" := by
  constructor
  · rintro h rfl
    exact not_pinned_empty _ (h _ (distinct_minted sha ed (List.replicate 32 0) strangerCall)
      (unforged_empty _) _ (verify_minted (hkeys _ (List.length_replicate ..)) rfl) rfl)
  · exact fun hexpected receipt hdistinct hunforged verdict => pinned_of_ok hexpected hdistinct
      hunforged

/-- The key of somebody whom the caller knows, and a receipt of theirs. -/
def holder : Bytes := octets 32 7

def holderCall : MintCall WholeFloat :=
  ⟨"sms", [("message_uuid", .str "a"), ("status", .int 0)], "holder", "T0", "2025-01-01T00:00:00Z",
    ⟨by decide, trivial, trivial, trivial⟩⟩

theorem unforged_holder : Unforged Sha256.sample Ed25519.sample {(holder, holderCall)} (hex holder)
    (minted Sha256.sample Ed25519.sample holder holderCall) := by
  intro key hhex _ _
  rw [fromHex_hex] at hhex
  exact ⟨holder, holderCall, _, rfl, Option.some.inj hhex, if_pos (Or.inl rfl), rfl⟩

/-- `pinning_iff` for the text of a key whose holder has minted a receipt that is accepted. -/
theorem pinning_iff_sample : ∃ receipt,
    mintSignedReceipt Sha256.sample Ed25519.sample holder holderCall = .ok receipt ∧
    verifyVonageReceipt Sha256.sample Ed25519.sample Lowering.sample (fun _ => "") receipt
      (some (hex holder)) = .ok ⟨true, []⟩ ∧
    Pinned Sha256.sample Ed25519.sample {(holder, holderCall)} (hex holder) receipt := by
  have hexpected : hex holder ≠ "" := by decide +kernel
  have haccepted : verifyVonageReceipt Sha256.sample Ed25519.sample Lowering.sample (fun _ => "")
      (minted Sha256.sample Ed25519.sample holder holderCall) (some (hex holder)) =
        .ok ⟨true, []⟩ := verify_minted (octets_length 32 7) (keyText_expected hexpected)
  refine ⟨minted Sha256.sample Ed25519.sample holder holderCall, if_pos (Or.inl rfl), haccepted, ?_⟩
  exact (pinning_iff Sha256.sample Ed25519.sample Lowering.sample (fun _ => "")
    {(holder, holderCall)} (hex holder) (fun _ h => h)).mpr hexpected _ (distinct_minted _ _ _ _)
    unforged_holder _ haccepted rfl

/-- With the empty text a receipt that a stranger has minted is accepted. -/
theorem stranger_accepted : ∃ receipt : Members WholeFloat, DistinctKeys (.obj receipt) ∧
    verifyVonageReceipt Sha256.sample Ed25519.sample Lowering.sample (fun _ => "") receipt
      (some "") = .ok ⟨true, []⟩ ∧
    ¬ Pinned Sha256.sample Ed25519.sample Set.univ "" receipt :=
  ⟨minted Sha256.sample Ed25519.sample (octets 32 5) strangerCall, distinct_minted _ _ _ _,
    verify_minted (octets_length 32 5) rfl, not_pinned_empty _⟩

end Pinning

end Decillion.PinnedKeys
