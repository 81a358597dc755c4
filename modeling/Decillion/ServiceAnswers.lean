import Decillion.Completions
import Decillion.VaultService

/-!
A request that no other one meets. The steps on the table of nonces come to one call of
`accept`, and what a request for a shard is answered with can be said in advance: the shard,
when the manifest is there, the request verifies, its nonce is accepted, its key is in the
lists, the shard can be read and the receipt has a new identifier.
-/
namespace Decillion.ServiceAnswers

open ByteText JsonValues JsonText JsonStrings Primitives Dictionaries PyErrors PyValues Programs
  HostSystem AccessRequests ShardManifests ShardVault VaultReads VaultRuns VaultReceipts
  ReceiptChains VaultService Executions Completions

variable {F : Type} [FloatText F] [FloatTime F]

section Verification

omit [FloatTime F] in
theorem checkSignature_rawOf (ed : Ed25519) (req : AccessRequest F) :
    checkSignature ed (rawOf req) =
      .ok (signatureValid ed req.requesterPubkey req.signature (canonical req.unsigned)) := by
  have hunsigned : (rawOf req).unsigned = req.unsigned := rfl
  have hpubkey : octetsOf (rawOf req).requesterPubkey = .ok (fromHex req.requesterPubkey) := rfl
  have hsignature : octetsOf (rawOf req).signature = .ok (fromHex req.signature) := rfl
  unfold checkSignature signatureValid
  rw [hpubkey, hsignature, hunsigned, ok_bind]
  cases fromHex req.requesterPubkey with
  | none => rfl
  | some key =>
    cases fromHex req.signature with
    | none => by_cases hlength : key.length = 32 <;> simp [hlength, ok_bind, pure, Except.pure]
    | some signature =>
      by_cases hlength : key.length = 32 <;> simp [hlength, ok_bind, pure, Except.pure]

variable [FloatNumber F] [FloatConversion F]

omit [FloatText F] [FloatTime F] [FloatConversion F] in
theorem fieldsMissing_rawOf (req : AccessRequest F) : fieldsMissing (rawOf req) =
    .ok (decide (req.modelId = "" ∨ req.purpose = "" ∨ req.nonce.length < 16)) := by
  have htruthy : ∀ text : String, truthy (.str text : Json F) = false ↔ text = "" := by
    simp [truthy]
  have hlength : lengthOf (rawOf req).nonce = .ok req.nonce.length := rfl
  unfold fieldsMissing
  rw [hlength]
  simp only [rawOf, htruthy]
  split
  · rename_i hempty
    exact congrArg Except.ok (decide_eq_true (or_assoc.mp (Or.inl hempty))).symm
  · rename_i hfull
    apply congrArg Except.ok
    rw [decide_eq_decide, ← or_assoc]
    exact ⟨Or.inr, fun h => h.resolve_left hfull⟩

/-- Fields of the declared types are verified as a request is. -/
theorem verifyRaw_rawOf (ed : Ed25519) (current : ℚ) (req : AccessRequest F) :
    verifyRaw ed current (rawOf req) = .ok (verifyRequest ed current req) := by
  have hinstant : instantOf (rawOf req).timestamp = .ok (FloatTime.instant req.timestamp) := rfl
  unfold verifyRaw verifyRequest
  rw [fieldsMissing_rawOf, checkSignature_rawOf, hinstant, ok_bind, ok_bind, ok_bind]
  by_cases hmissing : req.modelId = "" ∨ req.purpose = "" ∨ req.nonce.length < 16
  · rw [if_pos (decide_eq_true hmissing), if_pos hmissing]
    rfl
  · rw [if_neg (fun h => hmissing (of_decide_eq_true h)), if_neg hmissing]
    split
    · rfl
    · split <;> rfl

end Verification

section Operations

/-- The operation changes neither the vault nor the log. -/
def Passive : ServiceOp F → Prop
  | .publish _ => False
  | .execute _ => False
  | .commit => False
  | .rollback => False
  | _ => True

/-- The operation does not change the vault. -/
def Unpublished : ServiceOp F → Prop
  | .publish _ => False
  | _ => True

omit [FloatText F] [FloatTime F] in
theorem unpublished_of_passive {α : Type} {p : Serve F α} (h : Only Passive p) :
    Only Unpublished p := by
  apply only_mono h
  intro op hop
  cases op with
  | publish call => exact hop
  | _ => trivial

omit [FloatText F] [FloatTime F] in
theorem only_readManifest (modelId : String) : Only Passive (readManifest modelId : Serve F _) := by
  apply only_then _ _ (only_perform trivial)
  intro found
  cases found with
  | ok value => trivial
  | error e => trivial

omit [FloatText F] [FloatTime F] in
theorem only_rememberNew (current : ℚ) (req : RawRequest F) :
    Only Passive (rememberNew current req) := by
  apply only_then _ _ (only_fromExcept _)
  intro key
  apply only_then _ _ (only_perform trivial)
  intro expiry
  split
  · trivial
  · exact only_then _ _ (only_perform trivial) (fun _ => trivial)

omit [FloatText F] [FloatTime F] in
theorem only_now : Only Passive (now : Serve F ℚ) :=
  only_then _ _ (only_perform trivial) (fun _ => trivial)

omit [FloatText F] [FloatTime F] in
theorem only_acceptNonce (maxEntries : ℕ) (req : RawRequest F) :
    Only Passive (acceptNonce maxEntries req) := by
  have hsize : Only Passive (seenSize : Serve F ℕ) := only_perform trivial
  apply only_then _ _ only_now
  intro current
  apply only_then _ _ hsize
  intro size
  split
  · apply only_then
    · exact only_then _ _ (only_perform trivial) (fun _ => only_perform trivial)
    · intro _
      apply only_then _ _ hsize
      intro size
      split
      · trivial
      · exact only_rememberNew current req
  · exact only_rememberNew current req

theorem only_authorize [FloatNumber F] [FloatConversion F] (app : App F) (req : RawRequest F)
    (modelId purpose : String) : Only Passive (authorize app req modelId purpose) := by
  unfold authorize
  split
  · trivial
  · apply only_then _ _ only_now
    intro current
    apply only_then _ _ (only_fromExcept _)
    rintro ⟨ok, reason⟩
    dsimp only
    split
    · trivial
    · apply only_then _ _ (only_acceptNonce _ req)
      intro accepted
      split
      · trivial
      · split
        · trivial
        · trivial

omit [FloatText F] [FloatTime F] in
theorem only_raising {α : Type} {x : Serve F (Except ServiceError α)} (hx : Only Unpublished x) :
    Only Unpublished (VaultService.raising x) := by
  apply only_then _ _ hx
  intro result
  cases result with
  | ok a => trivial
  | error e => trivial

omit [FloatText F] [FloatTime F] in
theorem only_transaction {statement : Serve F (Except ServiceError Unit)}
    (hstatement : Only Unpublished statement) : Only Unpublished (transaction statement) := by
  have hundone : ∀ e : ServiceError, Only Unpublished (do
      perform ServiceOp.rollback
      throw e : Serve F Unit) :=
    fun e => only_then _ _ (only_perform trivial) (fun _ => trivial)
  apply only_then _ _ hstatement
  intro inserted
  cases inserted with
  | error e => exact hundone e
  | ok u =>
    apply only_then _ _ (only_perform trivial)
    intro committed
    cases committed with
    | error e => exact hundone e
    | ok u => trivial

theorem only_emitReceipt (app : App F) (kind modelId : String) (actor payload : Json F) :
    Only Unpublished (emitReceipt app kind modelId actor payload) := by
  apply only_then _ _ (only_perform trivial)
  intro receiptId
  apply only_then _ _ (only_perform trivial)
  intro time
  apply only_then _ _ (only_raising (only_perform trivial))
  intro previous
  split
  · split
    · trivial
    · exact only_then _ _ (only_transaction (only_perform trivial)) (fun _ => trivial)
  · trivial

omit [FloatText F] [FloatTime F] in
theorem only_manifest (modelId : String) :
    Only Passive (manifest modelId : Serve F (Answer F)) := by
  apply only_then _ _ (only_readManifest modelId)
  intro value
  cases value with
  | none => trivial
  | some value => trivial

variable [FloatNumber F] [FloatConversion F]

/-- A request leaves the vault alone. -/
theorem only_program (app : App F) (request : Request F) (h : ∀ call, request ≠ .vault call) :
    Only Unpublished (program app request) := by
  cases request with
  | vault call => exact absurd rfl (h call)
  | manifest modelId => exact unpublished_of_passive (only_manifest modelId)
  | openModel modelId body =>
    apply only_then _ _ (unpublished_of_passive (only_readManifest modelId))
    intro value
    cases value with
    | none => trivial
    | some value =>
      cases RawRequest.ofDict body with
      | none => trivial
      | some req =>
        apply only_then _ _ (unpublished_of_passive (only_authorize app req modelId "open"))
        intro _
        exact only_then _ _ (only_emitReceipt app _ _ _ _) (fun _ => trivial)
  | shard modelId index pubkey nonce signature timestamp =>
    apply only_then _ _ (unpublished_of_passive (only_readManifest modelId))
    intro value
    cases value with
    | none => trivial
    | some value =>
      apply only_then _ _ (unpublished_of_passive (only_authorize app _ modelId _))
      intro _
      apply only_then _ _ (only_perform trivial)
      intro chunk
      cases chunk with
      | error e => trivial
      | ok chunk => exact only_then _ _ (only_emitReceipt app _ _ _ _) (fun _ => trivial)

def SameVault (s s' : ServiceState F) : Prop := s'.host = s.host ∧ s'.made = s.made

omit [FloatText F] [FloatTime F] [FloatNumber F] [FloatConversion F] in
instance : IsPreorder (ServiceState F) SameVault where
  refl _ := ⟨rfl, rfl⟩
  trans _ _ _ h h' := ⟨h'.1.trans h.1, h'.2.trans h.2⟩

omit [FloatNumber F] [FloatConversion F] in
theorem sameVault_serve [DecidableEq F] (app : App F) (s : ServiceState F) (op : ServiceOp F)
    (h : Unpublished op) : SameVault s (serve app s op).2 := by
  cases op with
  | publish call => exact h.elim
  | execute row =>
    rw [serve]
    split
    · exact ⟨rfl, rfl⟩
    · split
      · exact ⟨rfl, rfl⟩
      · exact ⟨rfl, rfl⟩
  | commit =>
    rw [serve]
    split
    · exact ⟨rfl, rfl⟩
    · exact ⟨rfl, rfl⟩
  | _ => exact ⟨rfl, rfl⟩

theorem sameVault_finish [DecidableEq F] (app : App F) (request : Request F)
    (h : ∀ call, request ≠ .vault call) (s : ServiceState F) :
    SameVault s (finish (serve app) (program app request) s).2 :=
  holds_finish _ s (holds_only (sameVault_serve app) _ s (only_program app request h)
    (fun _ h => h) (fun _ _ h => h))

end Operations

section Nonces

variable [DecidableEq F] {app : App F} {s : ServiceState F}

/-- The service some operations later, with this table of nonces. -/
def keeping (s : ServiceState F) (nonces : NonceCache) (n : ℕ) : ServiceState F :=
  { s with nonces := nonces, tick := s.tick + n }

theorem finish_seenGet (key : String × String) :
    finish (serve app) (seenGet key) s = (.ok (s.nonces.seen.get? key), s.next) := rfl

/-- What is left of `accept` once there is room. -/
theorem finish_rememberNew (current : ℚ) (req : RawRequest F) (key : String × String)
    (hkey : nonceKey req = .ok key) :
    finish (serve app) (rememberNew current req) s =
      if s.nonces.knows key current then (.ok false, keeping s s.nonces 1)
      else (.ok true, keeping s (s.nonces.remember F key current) 2) := by
  have hfirst : finish (serve app) (fromExcept (nonceKey req) : Serve F _) s = (.ok key, s) := by
    rw [hkey]
    rfl
  rw [rememberNew, finish_then _ _ hfirst, finish_then _ _ (finish_seenGet key), NonceCache.knows]
  by_cases hknown : current < (s.nonces.seen.get? key).getD 0
  · rw [if_pos hknown, if_pos (decide_eq_true hknown)]
    rfl
  · rw [if_neg hknown, if_neg (fun h => hknown (of_decide_eq_true h))]
    rfl

theorem finish_look (current : ℚ) (req : RawRequest F) (key : String × String)
    (hkey : nonceKey req = .ok key) (look : Bool × NonceCache)
    (hlook : look = if s.nonces.knows key current then (false, s.nonces)
      else (true, s.nonces.remember F key current)) :
    ∃ n ≤ 2, finish (serve app) (rememberNew current req) s = (.ok look.1, keeping s look.2 n) := by
  rw [finish_rememberNew current req key hkey, hlook]
  split
  · exact ⟨1, by decide, rfl⟩
  · exact ⟨2, by decide, rfl⟩

omit [FloatText F] [FloatTime F] [DecidableEq F] in
theorem keeping_keeping (nonces nonces' : NonceCache) (n m : ℕ) :
    keeping (keeping s nonces n) nonces' m = keeping s nonces' (n + m) := by
  rw [keeping, keeping, keeping, Nat.add_assoc]

/-- The steps on the table come to one call of `accept`. -/
theorem finish_acceptNonce (req : RawRequest F) (key : String × String)
    (hkey : nonceKey req = .ok key) :
    ∃ n ≤ 7, finish (serve app) (acceptNonce s.nonces.maxEntries req) s =
      (.ok (s.nonces.accept F key (app.clock s.tick)).1,
        keeping s (s.nonces.accept F key (app.clock s.tick)).2 n) := by
  have hnow : finish (serve app) now s = (.ok (app.clock s.tick), keeping s s.nonces 1) := rfl
  have hsize : ∀ nonces n, finish (serve app) seenSize (keeping s nonces n) =
      (.ok nonces.seen.size, keeping s nonces (n + 1)) := fun _ _ => rfl
  rw [acceptNonce, finish_then _ _ hnow, finish_then _ _ (hsize _ _)]
  by_cases hfull : s.nonces.isFull = true
  · have hdropped : finish (serve app) (dropExpired (app.clock s.tick) : Serve F Unit)
        (keeping s s.nonces (1 + 1)) =
          (.ok (), keeping s (s.nonces.purge (app.clock s.tick)) (1 + 1 + 2)) := rfl
    rw [if_pos (of_decide_eq_true hfull), finish_then _ _ hdropped, finish_then _ _ (hsize _ _)]
    by_cases hpurged : (s.nonces.purge (app.clock s.tick)).isFull = true
    · have haccept : s.nonces.accept F key (app.clock s.tick) =
          (false, s.nonces.purge (app.clock s.tick)) := by
        simp only [NonceCache.accept, hfull, hpurged, if_true]
      have hfull' : s.nonces.maxEntries ≤ (s.nonces.purge (app.clock s.tick)).seen.size :=
        of_decide_eq_true hpurged
      rw [if_pos hfull', haccept]
      exact ⟨5, by decide, rfl⟩
    · have hroom : ¬ s.nonces.maxEntries ≤ (s.nonces.purge (app.clock s.tick)).seen.size :=
        fun h => hpurged (decide_eq_true h)
      obtain ⟨n, hle, hn⟩ := finish_look
        (s := keeping s (s.nonces.purge (app.clock s.tick)) (1 + 1 + 2 + 1)) (app.clock s.tick) req
        key hkey (s.nonces.accept F key (app.clock s.tick)) (by
          simp only [NonceCache.accept, hfull, hpurged, if_true, if_false, Bool.false_eq_true]
          rfl)
      exact ⟨1 + 1 + 2 + 1 + n, by omega, by rw [if_neg hroom, hn, keeping_keeping]⟩
  · have hroom : ¬ s.nonces.maxEntries ≤ s.nonces.seen.size := fun h => hfull (decide_eq_true h)
    obtain ⟨n, hle, hn⟩ := finish_look (s := keeping s s.nonces (1 + 1)) (app.clock s.tick)
      req key hkey (s.nonces.accept F key (app.clock s.tick)) (by
        simp only [NonceCache.accept, hfull, if_false, Bool.false_eq_true]
        rfl)
    exact ⟨1 + 1 + n, by omega, by rw [if_neg hroom, hn, keeping_keeping]⟩

end Nonces

section Receipts

variable [DecidableEq F] {app : App F} {s : ServiceState F}

omit [FloatTime F] [DecidableEq F] in
/-- The newest tag of a log that verifies can be signed over. -/
theorem exists_row (hmac : HmacSha256) (key : Bytes) (t : Table F) (e : Emission F)
    (hlog : Chained hmac key t.columns) :
    ∃ row, e.row hmac key t.newestSig = some row ∧ row.receiptId = .text e.receiptId := by
  obtain ⟨head, hhead⟩ := headAfter_of_chained hmac key t.columns hlog
  rw [newestSig_eq, hhead]
  exact ⟨_, rfl, rfl⟩

theorem finish_raising {α : Type} {x : Serve F (Except ServiceError α)} {a : α}
    {s s' : ServiceState F} (h : finish (serve app) x s = (.ok (.ok a), s')) :
    finish (serve app) (VaultService.raising x) s = (.ok a, s') := finish_then _ _ h

/-- The identifiers of the receipts in a table. -/
def identifiers (t : Table F) : List (SqlValue F) := t.rows.map (fun p => p.2.receiptId)

/-- A receipt with an identifier has been written and committed, and nothing else has changed. -/
structure Wrote (app : App F) (receiptId : String) (s s' : ServiceState F) : Prop where
  tick : s'.tick = s.tick + 5
  vault : SameVault s s'
  nonces : s'.nonces = s.nonces
  rollbacks : s'.rollbacks = s.rollbacks
  chained : Chained app.hmac app.receiptKey s'.receipts.columns
  identifiers : identifiers s'.receipts = identifiers s.receipts ++ [.text receiptId]

omit [FloatTime F] in
theorem emit_of_insert {hmac : HmacSha256} {key : Bytes} {t table : Table F} {e : Emission F}
    {row : Row F} (hrow : e.row hmac key t.newestSig = some row)
    (htable : t.insert row = some table) :
    emit hmac key t e = .ok (table, e.receiptId) := by
  rw [emit, insertReceipt, hrow]
  simp only [htable]
  rfl

omit [FloatText F] [FloatTime F] in
theorem identifiers_insert {t table : Table F} {row : Row F} (h : t.insert row = some table) :
    identifiers table = identifiers t ++ [row.receiptId] := by
  unfold Table.insert at h
  split at h
  · obtain rfl := Option.some.inj h
    simp [identifiers]
  · cases h

theorem finish_transaction {statement : Serve F (Except ServiceError Unit)} {s s' : ServiceState F}
    (hfault : app.fault s'.tick = false)
    (h : finish (serve app) statement s = (.ok (.ok ()), s')) :
    finish (serve app) (transaction statement) s =
      (.ok (), { s'.next with committed := s'.receipts }) := by
  have hcommit : finish (serve app) (perform ServiceOp.commit : Serve F _) s' =
      (.ok (.ok ()), { s'.next with committed := s'.receipts }) := by
    rw [finish_perform, serve, hfault]
    rfl
  rw [transaction, finish_then _ _ h]
  exact finish_then _ _ hcommit

/-- A receipt with a new identifier is written. -/
theorem finish_emitReceipt (hfault : ∀ tick, app.fault tick = false)
    (hlog : Chained app.hmac app.receiptKey s.receipts.columns) (kind modelId actor : String)
    (payload : Json F) (hfresh : SqlValue.text (app.uuid s.tick) ∉ identifiers s.receipts) :
    ∃ s', finish (serve app) (emitReceipt app kind modelId (.str actor) payload) s =
      (.ok (app.uuid s.tick), s') ∧ Wrote app (app.uuid s.tick) s s' := by
  obtain ⟨row, hrow, hid⟩ := exists_row app.hmac app.receiptKey s.receipts
    ⟨app.uuid s.tick, app.stamp (s.tick + 1), kind, modelId, actor, payload⟩ hlog
  obtain ⟨table, htable⟩ : ∃ table, s.receipts.insert row = some table :=
    ⟨_, dif_pos (by rw [hid]; exact hfresh)⟩
  have huuid : finish (serve app) (perform ServiceOp.uuid4 : Serve F _) s =
      (.ok (app.uuid s.tick), keeping s s.nonces 1) := rfl
  have htime : finish (serve app) (perform ServiceOp.time : Serve F _) (keeping s s.nonces 1) =
      (.ok (app.clock (s.tick + 1), app.stamp (s.tick + 1)), keeping s s.nonces 2) := rfl
  have hnewest : finish (serve app) (VaultService.raising (perform ServiceOp.newestSig) :
      Serve F _) (keeping s s.nonces 2) = (.ok s.receipts.newestSig, keeping s s.nonces 3) := by
    apply finish_raising
    exact Prod.ext (congrArg Except.ok (if_neg (by rw [hfault]; exact Bool.false_ne_true))) rfl
  have hinsert : finish (serve app) (perform (ServiceOp.execute row) : Serve F _)
      (keeping s s.nonces 3) = (.ok (.ok ()), { keeping s s.nonces 4 with receipts := table }) := by
    have hserve : serve app (keeping s s.nonces 3) (.execute row) =
        (.ok (), { keeping s s.nonces 4 with receipts := table }) := by
      rw [serve, if_neg (by rw [hfault]; exact Bool.false_ne_true)]
      simp only [keeping, htable]
      rfl
    rw [finish_perform, hserve]
  have hwritten := finish_transaction (hfault _) hinsert
  have hidentifiers := identifiers_insert htable
  rw [hid] at hidentifiers
  refine ⟨{ keeping s s.nonces 5 with receipts := table, committed := table }, ?_,
    ⟨rfl, ⟨rfl, rfl⟩, rfl, rfl, ?_, hidentifiers⟩⟩
  · rw [emitReceipt, finish_then _ _ huuid, finish_then _ _ htime, finish_then _ _ hnewest]
    simp only [hrow]
    exact finish_then _ _ hwritten
  · exact chained_emit app.hmac app.receiptKey s.receipts table _ _ hlog
      (emit_of_insert hrow htable)

end Receipts

section Shards

variable [DecidableEq F] [FloatNumber F] [FloatConversion F] (app : App F) (s : ServiceState F)

/-- What `authorize` says to a request that is matched with its own operation. -/
def verdict (req : AccessRequest F) : Except ServiceError Unit :=
  let verified := verifyRequest app.ed (app.clock s.tick) req
  let accepted := s.nonces.accept F (req.requesterPubkey, req.nonce) (app.clock (s.tick + 1))
  if verified.1 = false then .error (.http 403 verified.2)
  else if accepted.1 = false then .error (.http 409 "request nonce was already used")
  else if app.acl.isAllowed req.modelId req.requesterPubkey = false then
    .error (.http 403 "not in ACL")
  else .ok ()

/-- What a request for a shard is answered with that meets no other one. -/
def respond (req : AccessRequest F) (index : ℤ) : Except ServiceError Bytes :=
  match getManifest F app.crypto app.root s.host.files (app.stamp s.tick) req.modelId with
  | .error e => .error (.python e)
  | .ok none => .error (.http 404 "not found")
  | .ok (some manifest) => do
      verdict app s.next req
      (readShardPlaintext F app.crypto app.root (passphrase app.env) s.host.files manifest
        index).mapError readRefused

variable {app s}

omit [FloatText F] [FloatTime F] [FloatNumber F] [FloatConversion F] [DecidableEq F] in
theorem nonceKey_rawOf (req : AccessRequest F) :
    nonceKey (rawOf req) = .ok (req.requesterPubkey, req.nonce) := rfl

variable (app) in
/-- The checks alone: what they say, and what they leave when they pass. -/
theorem finish_authorize (hmax : s.nonces.maxEntries = NonceCache.new.maxEntries)
    (req : AccessRequest F) :
    (finish (serve app) (authorize app (rawOf req) req.modelId req.purpose) s).1 =
        verdict app s req ∧
      ∃ nonces, ∃ n ≤ 8,
        (finish (serve app) (authorize app (rawOf req) req.modelId req.purpose) s).2 =
          keeping s nonces n ∧
        (verdict app s req = .ok () → nonces = (s.nonces.accept F (req.requesterPubkey, req.nonce)
          (app.clock (s.tick + 1))).2) := by
  have hmatch : ¬ (equalsStr (rawOf req).modelId req.modelId = false ∨
      equalsStr (rawOf req).purpose req.purpose = false) := by
    simp [rawOf]
  have hnow : finish (serve app) now s = (.ok (app.clock s.tick), keeping s s.nonces 1) := rfl
  have hverify : finish (serve app) (fromExcept ((verifyRaw app.ed (app.clock s.tick)
      (rawOf req)).mapError ServiceError.python) : Serve F _) (keeping s s.nonces 1) =
        (.ok (verifyRequest app.ed (app.clock s.tick) req), keeping s s.nonces 1) := by
    rw [verifyRaw_rawOf]
    rfl
  rw [authorize, if_neg hmatch, finish_then _ _ hnow, finish_then _ _ hverify, verdict]
  cases hverified : verifyRequest app.ed (app.clock s.tick) req with
  | mk ok reason =>
    cases ok with
    | false => exact ⟨rfl, s.nonces, 1, by decide, rfl, by simp⟩
    | true =>
      obtain ⟨n, hle, hn⟩ := finish_acceptNonce (s := keeping s s.nonces 1) (rawOf req) _
        (nonceKey_rawOf req)
      have hn' : finish (serve app) (acceptNonce NonceCache.new.maxEntries (rawOf req))
          (keeping s s.nonces 1) = (.ok (s.nonces.accept F (req.requesterPubkey, req.nonce)
            (app.clock (s.tick + 1))).1, keeping s (s.nonces.accept F
              (req.requesterPubkey, req.nonce) (app.clock (s.tick + 1))).2 (1 + n)) := by
        rw [← hmax, ← keeping_keeping]
        exact hn
      have hallows : allows app.acl req.modelId (rawOf req).requesterPubkey =
          app.acl.isAllowed req.modelId req.requesterPubkey := rfl
      simp only [Bool.true_eq_false, if_false]
      rw [finish_then _ _ hn']
      by_cases haccepted : (s.nonces.accept F (req.requesterPubkey, req.nonce)
          (app.clock (s.tick + 1))).1 = false
      · rw [if_pos haccepted, if_pos haccepted]
        exact ⟨rfl, _, 1 + n, by omega, rfl, fun _ => rfl⟩
      · rw [if_neg haccepted, if_neg haccepted, hallows]
        split
        · exact ⟨rfl, _, 1 + n, by omega, rfl, fun _ => rfl⟩
        · exact ⟨rfl, _, 1 + n, by omega, rfl, fun _ => rfl⟩

/-- The shard an answer carries. -/
def chunkOf : Answer F → Option Bytes
  | .content chunk _ => some chunk
  | _ => none

section Faultless

variable (hfault : ∀ tick, app.fault tick = false)
include hfault

omit [FloatNumber F] [FloatConversion F] in
theorem finish_readManifest (modelId : String) : finish (serve app) (readManifest modelId) s =
    ((getManifest F app.crypto app.root s.host.files (app.stamp s.tick) modelId).mapError
      ServiceError.python, s.next) := by
  have hserve : finish (serve app) (perform (ServiceOp.getManifest modelId) : Serve F _) s =
      (.ok (getManifest F app.crypto app.root s.host.files (app.stamp s.tick) modelId), s.next) :=
    Prod.ext (congrArg Except.ok (if_neg (by rw [hfault]; exact Bool.false_ne_true))) rfl
  rw [readManifest, finish_then _ _ hserve]
  cases getManifest F app.crypto app.root s.host.files (app.stamp s.tick) modelId <;> rfl

omit [FloatNumber F] [FloatConversion F] in
theorem finish_sendShard_error {value : ModelManifest F} {req : AccessRequest F} {index : ℤ}
    {e : PyError} (hread : readShardPlaintext F app.crypto app.root (passphrase app.env)
      s.host.files value index = .error e) :
    finish (serve app) (sendShard app value req index) s = (.error (readRefused e), s.next) := by
  have hserve : finish (serve app) (perform (ServiceOp.readShard value index) : Serve F _) s =
      (.ok (readShardPlaintext F app.crypto app.root (passphrase app.env) s.host.files value index),
        s.next) :=
    Prod.ext (congrArg Except.ok (if_neg (by rw [hfault]; exact Bool.false_ne_true))) rfl
  rw [sendShard, finish_then _ _ hserve, hread]
  rfl

omit [FloatNumber F] [FloatConversion F] in
/-- A shard that can be read is in the log when it is sent. -/
theorem finish_sendShard (hlog : Chained app.hmac app.receiptKey s.receipts.columns)
    (hfresh : SqlValue.text (app.uuid (s.tick + 1)) ∉ identifiers s.receipts)
    {value : ModelManifest F} {req : AccessRequest F} {index : ℤ} {chunk : Bytes}
    (hread : readShardPlaintext F app.crypto app.root (passphrase app.env) s.host.files
      value index =
      .ok chunk) :
    ∃ s', finish (serve app) (sendShard app value req index) s =
        (.ok (.content chunk (app.uuid (s.tick + 1))), s') ∧
      Wrote app (app.uuid (s.tick + 1)) s.next s' := by
  have hserve : finish (serve app) (perform (ServiceOp.readShard value index) : Serve F _) s =
      (.ok (readShardPlaintext F app.crypto app.root (passphrase app.env) s.host.files value index),
        s.next) :=
    Prod.ext (congrArg Except.ok (if_neg (by rw [hfault]; exact Bool.false_ne_true))) rfl
  obtain ⟨s', hs', hwrote⟩ := finish_emitReceipt (s := s.next) hfault hlog "vault.shard_read"
    req.modelId req.requesterPubkey
    (.obj [("shard_index", .int index), ("bytes", .int chunk.length)]) hfresh
  refine ⟨s', ?_, hwrote⟩
  rw [sendShard, finish_then _ _ hserve, hread]
  dsimp only
  rw [finish_then _ _ hs']
  rfl

/-- The service after a request for a shard that was answered: the nonce is in the table, and one
receipt was written. -/
structure Sent (app : App F) (req : AccessRequest F) (s s' : ServiceState F) : Prop where
  ticks : s.tick < s'.tick ∧ s'.tick ≤ s.tick + 14
  vault : SameVault s s'
  nonces : s'.nonces =
    (s.nonces.accept F (req.requesterPubkey, req.nonce) (app.clock (s.tick + 1))).2
  rollbacks : s'.rollbacks = s.rollbacks
  chained : Chained app.hmac app.receiptKey s'.receipts.columns
  fresh : ∃ tick < s'.tick, s.tick ≤ tick ∧
    identifiers s'.receipts = identifiers s.receipts ++ [.text (app.uuid tick)]

/-- A request whose manifest has been read is checked and the shard is sent. -/
def checked (app : App F) (value : ModelManifest F) (req : AccessRequest F) (index : ℤ) :
    Serve F (Answer F) := do
  authorize app (rawOf req) req.modelId req.purpose
  sendShard app value req index

/-- A request that is granted is answered with the shard. -/
theorem finish_checked (hmax : s.nonces.maxEntries = NonceCache.new.maxEntries)
    (hlog : Chained app.hmac app.receiptKey s.receipts.columns)
    (hfresh : ∀ n ≤ 9, SqlValue.text (app.uuid (s.tick + n)) ∉ identifiers s.receipts)
    {value : ModelManifest F} {req : AccessRequest F} {index : ℤ} {chunk : Bytes}
    (hverdict : verdict app s req = .ok ())
    (hread : readShardPlaintext F app.crypto app.root (passphrase app.env) s.host.files
      value index =
      .ok chunk) :
    ∃ receiptId s', finish (serve app) (checked app value req index) s =
      (.ok (.content chunk receiptId), s') ∧ Sent app req s s' := by
  obtain ⟨hresult, nonces, n, hn, hstate, hnonces⟩ := finish_authorize app hmax req
  have hnew : SqlValue.text (app.uuid ((keeping s nonces n).tick + 1)) ∉
      identifiers (keeping s nonces n).receipts := hfresh (n + 1) (by omega)
  obtain ⟨s', hs', hwrote⟩ :
      ∃ s', finish (serve app) (sendShard app value req index) (keeping s nonces n) = _ ∧ _ :=
    finish_sendShard (s := keeping s nonces n) hfault hlog hnew hread
  refine ⟨app.uuid (s.tick + n + 1), s', ?_, ?_⟩
  · rw [checked, finish_then _ _ (Prod.ext (hresult.trans hverdict) hstate)]
    exact hs'
  · have htick := hwrote.tick
    change s'.tick = s.tick + n + 1 + 5 at htick
    refine ⟨⟨by omega, by omega⟩, hwrote.vault, hwrote.nonces.trans (hnonces hverdict),
      hwrote.rollbacks, hwrote.chained, s.tick + n + 1, by omega, by omega, hwrote.identifiers⟩

/-- A request for a shard that is granted. -/
theorem finish_shard (hmax : s.nonces.maxEntries = NonceCache.new.maxEntries)
    (hlog : Chained app.hmac app.receiptKey s.receipts.columns)
    (hfresh : ∀ n ≤ 10, SqlValue.text (app.uuid (s.tick + n)) ∉ identifiers s.receipts)
    {value : ModelManifest F} {req : AccessRequest F} {index : ℤ} {chunk : Bytes}
    (hpurpose : req.purpose = "read:" ++ toString index)
    (hfound : getManifest F app.crypto app.root s.host.files (app.stamp s.tick) req.modelId =
      .ok (some value))
    (hverdict : verdict app s.next req = .ok ())
    (hread : readShardPlaintext F app.crypto app.root (passphrase app.env) s.host.files
      value index =
      .ok chunk) :
    ∃ receiptId s', finish (serve app) (shard app req.modelId index req.requesterPubkey req.nonce
      req.signature req.timestamp) s = (.ok (.content chunk receiptId), s') ∧
        Sent app req s.next s' := by
  have hmanifest := finish_readManifest hfault req.modelId (s := s)
  rw [hfound] at hmanifest
  obtain ⟨receiptId, s', hchecked, hsent⟩ := finish_checked (s := s.next) hfault hmax hlog
    (fun n hn => by
      have hnew := hfresh (n + 1) (by omega)
      rwa [Nat.add_comm n, ← Nat.add_assoc] at hnew) hverdict hread
  refine ⟨receiptId, s', ?_, hsent⟩
  rw [shard, finish_then _ _ hmanifest, ← hpurpose]
  exact hchecked

/-- A request for a shard that no other one meets is answered with what can be said before. -/
theorem shard_responds (hmax : s.nonces.maxEntries = NonceCache.new.maxEntries)
    (hlog : Chained app.hmac app.receiptKey s.receipts.columns)
    (hfresh : ∀ n ≤ 10, SqlValue.text (app.uuid (s.tick + n)) ∉ identifiers s.receipts)
    (modelId : String) (index : ℤ) (pubkey nonce signature : String) (timestamp : F) :
    (finish (serve app) (shard app modelId index pubkey nonce signature timestamp) s).1.map
      chunkOf =
      (respond app s ⟨pubkey, modelId, "read:" ++ toString index, nonce, timestamp, signature⟩
        index).map some := by
  have hread := finish_readManifest hfault modelId (s := s)
  rw [shard, respond]
  cases hmanifest : getManifest F app.crypto app.root s.host.files (app.stamp s.tick) modelId with
  | error e =>
    rw [hmanifest] at hread
    rw [finish_then_error _ _ hread]
    rfl
  | ok found =>
    rw [hmanifest] at hread
    rw [finish_then _ _ hread]
    cases found with
    | none => rfl
    | some manifest =>
      obtain ⟨hverdict, nonces, n, hn, hstate, -⟩ := finish_authorize app (s := s.next) hmax
        ⟨pubkey, modelId, "read:" ++ toString index, nonce, timestamp, signature⟩
      dsimp only
      cases hchecked : verdict app s.next
          ⟨pubkey, modelId, "read:" ++ toString index, nonce, timestamp, signature⟩ with
      | error e =>
        rw [finish_then_error _ _ (Prod.ext (hverdict.trans hchecked) hstate)]
        rfl
      | ok _ =>
        have hauthorized : finish (serve app) (authorize app (rawOf
            ⟨pubkey, modelId, "read:" ++ toString index, nonce, timestamp, signature⟩) modelId
              ("read:" ++ toString index)) s.next = (.ok (), keeping s.next nonces n) :=
          Prod.ext (hverdict.trans hchecked) hstate
        rw [finish_then _ _ hauthorized]
        cases hshard : readShardPlaintext F app.crypto app.root (passphrase app.env) s.host.files
            manifest index with
        | error e =>
          rw [finish_sendShard_error (s := keeping s.next nonces n) hfault hshard]
          rfl
        | ok chunk =>
          have hnew : SqlValue.text (app.uuid ((keeping s.next nonces n).tick + 1)) ∉
              identifiers (keeping s.next nonces n).receipts := by
            have hlater := hfresh (1 + n + 1) (by omega)
            rwa [← Nat.add_assoc, ← Nat.add_assoc] at hlater
          obtain ⟨s', hs', -⟩ := finish_sendShard (s := keeping s.next nonces n) hfault hlog hnew
            hshard
          rw [hs']
          rfl

variable (s) in
/-- A request for a shard that has read the manifest has its checks before it. -/
theorem shard_begun (req : AccessRequest F) {value : ModelManifest F} {index : ℤ}
    (hpurpose : req.purpose = "read:" ++ toString index)
    (hfound : getManifest F app.crypto app.root s.host.files (app.stamp s.tick) req.modelId =
      .ok (some value)) :
    Reaches (serve app) 1 (shard app req.modelId index req.requesterPubkey
      req.nonce req.signature req.timestamp) s (checked app value req index) s.next := by
  obtain ⟨requesterPubkey, modelId, purpose, nonce, timestamp, signature⟩ := req
  obtain rfl := hpurpose
  have hserve : (serve app s (.getManifest modelId)).1 = .ok (some value) :=
    (if_neg (by rw [hfault]; exact Bool.false_ne_true)).trans hfound
  refine ⟨?_, rfl⟩
  rw [hserve]
  rfl

end Faultless

end Shards

end Decillion.ServiceAnswers
