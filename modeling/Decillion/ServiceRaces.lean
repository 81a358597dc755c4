import Decillion.ServiceAnswers

/-!
Threads of the read service that handle requests at the same time, while models are added to
the vault. Whatever the order of their operations and whichever of them fail: what is
answered was asked for with a signature of a key that is in the lists of the application,
it is what the model was added with, and it is in the audit log, which holds nothing else,
unless a statement has failed and the shared connection was rolled back.
-/
namespace Decillion.ServiceRaces

open ByteText Blocks JsonValues JsonText JsonStrings Primitives Dictionaries PyErrors PyValues
  Programs Interleavings Executions Completions HostSystem HostRules AccessRequests ShardManifests
  ShardVault VaultReads VaultWrites VaultRuns VaultReceipts ReceiptChains VaultService
  ServiceAnswers

variable {F : Type}

section Verification

theorem str_of_octetsOf {value : Json F} {found : Option Bytes} (h : octetsOf value = .ok found) :
    ∃ text, value = .str text ∧ fromHex text = found := by
  cases value with
  | str text => exact ⟨text, rfl, Except.ok.inj h⟩
  | _ => cases h

variable [FloatText F]

/-- A signature that is accepted is one of the key over what the request says. -/
theorem signed_of_check {ed : Ed25519} {req : RawRequest F} (h : checkSignature ed req = .ok true) :
    ∃ key octets signature, req.requesterPubkey = .str key ∧ fromHex key = some octets ∧
      octets.length = 32 ∧ ed.verify octets signature (canonical req.unsigned) = true := by
  unfold checkSignature at h
  obtain ⟨found, hfound, h⟩ := bind_eq_ok h
  obtain ⟨key, hkey, hhex⟩ := str_of_octetsOf hfound
  cases found with
  | none => cases h
  | some octets =>
    dsimp only at h
    split at h
    · cases h
    · rename_i hlength
      obtain ⟨found, hfound, h⟩ := bind_eq_ok h
      cases found with
      | none => cases h
      | some signature =>
        exact ⟨key, octets, signature, hkey, hhex, not_not.mp hlength, Except.ok.inj h⟩

variable [FloatTime F] [FloatNumber F] [FloatConversion F]

/-- What is known of a request that is verified. -/
theorem verified_cases {ed : Ed25519} {current : ℚ} {req : RawRequest F} {reason : String}
    (h : verifyRaw ed current req = .ok (true, reason)) :
    (∃ length, lengthOf req.nonce = .ok length ∧ 16 ≤ length) ∧
      (∃ instant, instantOf req.timestamp = .ok instant ∧
        outOfWindow F current maxSkew instant = false) ∧ checkSignature ed req = .ok true := by
  unfold verifyRaw at h
  obtain ⟨missing, hmissing, h⟩ := bind_eq_ok h
  cases missing with
  | true => cases h
  | false =>
    obtain ⟨instant, hinstant, h⟩ := bind_eq_ok h
    split at h
    · cases h
    · rename_i hwindow
      obtain ⟨valid, hvalid, h⟩ := bind_eq_ok h
      cases valid with
      | false => cases h
      | true =>
        refine ⟨?_, ⟨instant, hinstant, Bool.eq_false_iff.mpr hwindow⟩, hvalid⟩
        unfold fieldsMissing at hmissing
        split at hmissing
        · cases hmissing
        · obtain ⟨length, hlength, hshort⟩ := map_eq_ok hmissing
          exact ⟨length, hlength, not_lt.mp (of_decide_eq_false hshort)⟩

end Verification

section Statements

variable [FloatText F] [FloatTime F] [FloatConversion F]

/-- What the signature of a request is over. -/
def operation (modelId purpose key nonce : String) (timestamp : Json F) : Json F :=
  .obj [("requester_pubkey", .str key), ("model_id", .str modelId), ("purpose", .str purpose),
    ("nonce", .str nonce), ("timestamp", timestamp)]

/-- A key of the lists has signed the operation, and its time was right at one of the ticks. -/
structure Authorized (app : App F) (first last : ℕ) (modelId purpose key nonce : String)
    (timestamp : Json F) : Prop where
  long : 16 ≤ nonce.length
  fresh : ∃ tick instant, first ≤ tick ∧ tick < last ∧ instantOf timestamp = .ok instant ∧
    outOfWindow F (app.clock tick) maxSkew instant = false
  signed : ∃ octets signature, fromHex key = some octets ∧ octets.length = 32 ∧
    app.ed.verify octets signature (canonical (operation modelId purpose key nonce timestamp)) =
      true
  allowed : app.acl.isAllowed modelId key = true

/-- A call of `add_file` is among the calls. -/
def Added (made : List (VaultCall F × ℕ)) (size : ℕ) (call : AddFile F) : Prop :=
  ∃ positive budget, (VaultCall.add size positive call, budget) ∈ made

/-- A model as it was added. -/
def Stored (app : App F) (s : ServiceState F) (size : ℕ) (call : AddFile F)
    (manifest : ModelManifest F) : Prop :=
  Added s.made size call ∧ manifest.modelId = call.modelId ∧
    Published F app.crypto app.root (passphrase app.env) s.host.files (blocks size call.content)
      manifest

/-- What a request that is granted writes to the log. -/
inductive Granted (app : App F) (s : ServiceState F) (first : ℕ) :
    (kind modelId key : String) → Json F → Prop where
  | opened (modelId key nonce : String) (timestamp : Json F)
      (hauthorized : Authorized app first s.tick modelId "open" key nonce timestamp) :
      Granted app s first "vault.open" modelId key
        (.obj [("purpose", .str "open"), ("request_nonce", .str nonce)])
  | read (modelId key nonce : String) (timestamp : Json F) (size : ℕ) (call : AddFile F)
      (manifest : ModelManifest F) (k : ℕ) (chunk : Bytes)
      (hauthorized : Authorized app first s.tick modelId ("read:" ++ toString (k : ℤ)) key nonce
        timestamp)
      (hstored : Stored app s size call manifest) (hid : call.modelId = modelId)
      (hchunk : (blocks size call.content)[k]? = some chunk) :
      Granted app s first "vault.shard_read" modelId key
        (.obj [("shard_index", .int k), ("bytes", .int chunk.length)])

/-- A row of the log with these columns has been committed. -/
def Recorded (app : App F) (s : ServiceState F) (receiptId kind modelId key : String)
    (payload : Json F) : Prop :=
  ∃ timestamp previous row, Emission.row app.hmac app.receiptKey
    ⟨receiptId, timestamp, kind, modelId, key, payload⟩ previous = some row ∧
      row ∈ s.committed.columns

/-- The row records a request that was granted. -/
def Entered (app : App F) (s : ServiceState F) (row : Row F) : Prop :=
  ∃ (e : Emission F) (previous : SqlValue F),
    Emission.row app.hmac app.receiptKey e previous = some row ∧
      Granted app s 0 e.kind e.modelId e.actor e.payload

/-- Every manifest in the vault is that of a model that was added, every row one of a request that
was granted, and what was committed is there. -/
structure Good (app : App F) (s : ServiceState F) : Prop where
  keys : KeysDrawn app.root app.env s.host
  manifests : ∀ modelId value,
    s.host.files (manifestPath app.crypto.sha app.root modelId) = some value →
      ∃ size call manifest, Stored app s size call manifest ∧
        manifestPath app.crypto.sha app.root call.modelId =
          manifestPath app.crypto.sha app.root modelId
  rows : ∀ row ∈ s.receipts.columns, Entered app s row
  durable : s.committed.columns <+: s.receipts.columns

/-- Nothing that was there is changed or removed, but for rows that are not committed when the
connection rolls back. -/
structure Grown (s s' : ServiceState F) : Prop where
  tick : s.tick ≤ s'.tick
  files : Extends s.host.files s'.host.files
  made : s.made <+: s'.made
  committed : s.committed.columns <+: s'.committed.columns
  rollbacks : s.rollbacks ≤ s'.rollbacks
  rows : s'.rollbacks = s.rollbacks → s.receipts.columns <+: s'.receipts.columns

omit [FloatText F] [FloatTime F] [FloatConversion F] in
theorem Grown.refl (s : ServiceState F) : Grown s s :=
  ⟨le_rfl, fun _ _ _ h => h, List.prefix_rfl, List.prefix_rfl, le_rfl, fun _ => List.prefix_rfl⟩

omit [FloatText F] [FloatTime F] [FloatConversion F] in
theorem Grown.trans {s s' s'' : ServiceState F} (h : Grown s s') (h' : Grown s' s'') :
    Grown s s'' := by
  refine ⟨h.tick.trans h'.tick, Extends.trans h.files h'.files, h.made.trans h'.made,
    h.committed.trans h'.committed, h.rollbacks.trans h'.rollbacks, fun hsame => ?_⟩
  have hfirst := h.rollbacks
  have hsecond := h'.rollbacks
  exact (h.rows (by omega)).trans (h'.rows (by omega))

omit [FloatText F] [FloatTime F] [FloatConversion F] in
/-- Where nothing has been rolled back the log has grown. -/
theorem Grown.rows_of_zero {s s' : ServiceState F} (h : Grown s s') (hzero : s'.rollbacks = 0) :
    s.rollbacks = 0 ∧ s.receipts.columns <+: s'.receipts.columns := by
  have hle := h.rollbacks
  exact ⟨by omega, h.rows (by omega)⟩

section Growth

variable {app : App F} {s s' : ServiceState F}

theorem Authorized.later {first first' last last' : ℕ} {modelId purpose key nonce : String}
    {timestamp : Json F} (h : Authorized app first last modelId purpose key nonce timestamp)
    (hfirst : first' ≤ first) (hlast : last ≤ last') :
    Authorized app first' last' modelId purpose key nonce timestamp := by
  obtain ⟨tick, instant, hle, hlt, hinstant, hwindow⟩ := h.fresh
  exact ⟨h.long, ⟨tick, instant, hfirst.trans hle, hlt.trans_le hlast, hinstant, hwindow⟩, h.signed,
    h.allowed⟩

omit [FloatConversion F] in
theorem Stored.grown {size : ℕ} {call : AddFile F} {manifest : ModelManifest F}
    (h : Stored app s size call manifest) (hgrown : Grown s s') :
    Stored app s' size call manifest := by
  obtain ⟨⟨positive, budget, hmade⟩, hid, hpublished⟩ := h
  exact ⟨⟨positive, budget, hgrown.made.subset hmade⟩, hid,
    published_mono app.crypto app.root _ _ _ hgrown.files _ _ hpublished⟩

theorem Granted.grown {first first' : ℕ} {kind modelId key : String} {payload : Json F}
    (h : Granted app s first kind modelId key payload) (hfirst : first' ≤ first)
    (hgrown : Grown s s') : Granted app s' first' kind modelId key payload := by
  cases h with
  | opened _ _ nonce timestamp hauthorized =>
    exact .opened _ _ _ _ (hauthorized.later hfirst hgrown.tick)
  | read _ _ nonce timestamp size call manifest k chunk hauthorized hstored hid hchunk =>
    exact .read _ _ _ _ size call manifest k chunk (hauthorized.later hfirst hgrown.tick)
      (hstored.grown hgrown) hid hchunk

omit [FloatConversion F] in
theorem Recorded.grown {receiptId kind modelId key : String} {payload : Json F}
    (h : Recorded app s receiptId kind modelId key payload) (hgrown : Grown s s') :
    Recorded app s' receiptId kind modelId key payload := by
  obtain ⟨timestamp, previous, row, hrow, hmem⟩ := h
  exact ⟨timestamp, previous, row, hrow, hgrown.committed.subset hmem⟩

theorem Entered.grown {row : Row F} (h : Entered app s row) (hgrown : Grown s s') :
    Entered app s' row := by
  obtain ⟨e, previous, hrow, hgranted⟩ := h
  exact ⟨e, previous, hrow, hgranted.grown le_rfl hgrown⟩

end Growth

end Statements

variable [FloatText F] [FloatTime F] [FloatConversion F] [DecidableEq F]

section Steps

variable (app : App F) (s : ServiceState F)

omit [FloatConversion F] [DecidableEq F] in
/-- A file of the manifests after a call is an old one or that of the model it has added. -/
theorem stored_of_publish (c : VaultCall F × ℕ)
    (huuid : Distinct app.env (runCall app.crypto app.root app.env c s.host).2.tick)
    (hkeys : KeysDrawn app.root app.env s.host) (made : List (VaultCall F × ℕ)) (tick : ℕ)
    (modelId : String) (value : Bytes)
    (hvalue : (runCall app.crypto app.root app.env c s.host).2.files
      (manifestPath app.crypto.sha app.root modelId) = some value) :
    s.host.files (manifestPath app.crypto.sha app.root modelId) = some value ∨
      ∃ size call manifest, Stored app ⟨(runCall app.crypto app.root app.env c s.host).2,
        made ++ [c], s.nonces, s.receipts, s.committed, s.rollbacks, tick⟩ size call manifest ∧
          manifestPath app.crypto.sha app.root call.modelId =
            manifestPath app.crypto.sha app.root modelId := by
  have htemporary := isTemporary_manifestPath app.crypto app.root modelId
  have hprefix : (app.root ++ ["manifests"]) <+:
      manifestPath app.crypto.sha app.root modelId := manifestPath_prefix app.crypto modelId
  rcases runCall_cases app.crypto c s.host huuid hkeys with
    ⟨hprepared, -⟩ | ⟨size, positive, call, manifest, hcall, hcompleted, -⟩
  · rw [hprepared.manifests _ htemporary hprefix] at hvalue
    exact Or.inl hvalue
  · obtain ⟨hid, hpublished, s₁, h₁, -, hreplaced⟩ := hcompleted
    by_cases hpath : manifestPath app.crypto.sha app.root modelId =
        manifestPath app.crypto.sha app.root call.modelId
    · refine Or.inr ⟨size, call, manifest, ⟨⟨positive, c.2, ?_⟩, hid, hpublished⟩, hpath.symm⟩
      rw [← hcall]
      exact List.mem_append_right _ (List.mem_singleton_self c)
    · rw [hreplaced.2.1 _ htemporary hpath, h₁.manifests _ htemporary hprefix] at hvalue
      exact Or.inl hvalue

variable {app s}

theorem good_publish (c : VaultCall F × ℕ)
    (huuid : Distinct app.env (serve app s (.publish c)).2.host.tick) (h : Good app s) :
    Good app (serve app s (.publish c)).2 ∧ Grown s (serve app s (.publish c)).2 := by
  have hsound : VaultRuns.Sound app.crypto app.root app.env s.host := by
    refine ⟨h.keys, fun modelId value hvalue => ?_⟩
    obtain ⟨size, call, manifest, ⟨-, hid, hpublished⟩, hpath⟩ := h.manifests modelId value hvalue
    exact ⟨_, manifest, by rw [hid, hpath], hpublished⟩
  obtain ⟨hsound', hfiles⟩ := sound_runCall app.crypto c s.host huuid hsound
  have hgrown : Grown s (serve app s (.publish c)).2 :=
    ⟨Nat.le_succ _, hfiles, List.prefix_append _ _, List.prefix_rfl, le_rfl,
      fun _ => List.prefix_rfl⟩
  refine ⟨⟨hsound'.keys, fun modelId value hvalue => ?_, fun row hrow => ?_, h.durable⟩, hgrown⟩
  · rcases stored_of_publish app s c huuid h.keys s.made (s.tick + 1) modelId value hvalue with
      hold | hnew
    · obtain ⟨size, call, manifest, hstored, hpath⟩ := h.manifests modelId value hold
      exact ⟨size, call, manifest, hstored.grown hgrown, hpath⟩
    · exact hnew
  · exact (h.rows row hrow).grown hgrown

omit [DecidableEq F] in
/-- The vault stays as it is, and the log has no other rows than those of granted requests. -/
theorem good_log {s' : ServiceState F} (hgrown : Grown s s') (hhost : s'.host = s.host)
    (hrows : ∀ row ∈ s'.receipts.columns, row ∈ s.receipts.columns ∨ Entered app s row)
    (hdurable : s'.committed.columns <+: s'.receipts.columns) (h : Good app s) : Good app s' := by
  refine ⟨by rw [hhost]; exact h.keys, fun modelId value hvalue => ?_, fun row hrow => ?_, hdurable⟩
  · rw [hhost] at hvalue
    obtain ⟨size, call, manifest, hstored, hpath⟩ := h.manifests modelId value hvalue
    exact ⟨size, call, manifest, hstored.grown hgrown, hpath⟩
  · exact ((hrows row hrow).elim (h.rows row) id).grown hgrown

omit [DecidableEq F] in
/-- Nothing but the table of nonces and the tick changes. -/
theorem good_quiet {s' : ServiceState F} (hhost : s'.host = s.host) (hmade : s'.made = s.made)
    (hreceipts : s'.receipts = s.receipts) (hcommitted : s'.committed = s.committed)
    (hrollbacks : s'.rollbacks = s.rollbacks) (htick : s.tick ≤ s'.tick) (h : Good app s) :
    Good app s' ∧ Grown s s' := by
  have hgrown : Grown s s' :=
    ⟨htick, by rw [hhost]; exact fun _ _ _ h => h, by rw [hmade], by rw [hcommitted],
      hrollbacks.ge, fun _ => by rw [hreceipts]⟩
  refine ⟨good_log hgrown hhost ?_ ?_ h, hgrown⟩
  · rw [hreceipts]
    exact fun row hrow => Or.inl hrow
  · rw [hcommitted, hreceipts]
    exact h.durable

/-- What an operation may write to the log. -/
def May (app : App F) (s : ServiceState F) : ServiceOp F → Prop
  | .execute row => Entered app s row
  | _ => True

omit [FloatConversion F] in
theorem serve_execute (app : App F) (s : ServiceState F) (row : Row F) :
    (∃ e, serve app s (.execute row) = (.error e, s.next)) ∨
      ∃ table, s.receipts.insert row = some table ∧
        serve app s (.execute row) = (.ok (), { s.next with receipts := table }) := by
  rw [serve]
  split
  · exact Or.inl ⟨_, rfl⟩
  · split
    · exact Or.inl ⟨_, rfl⟩
    · rename_i table htable
      exact Or.inr ⟨table, htable, rfl⟩

omit [FloatConversion F] in
theorem serve_commit (app : App F) (s : ServiceState F) :
    (∃ e, serve app s .commit = (.error e, s.next)) ∨
      serve app s .commit = (.ok (), { s.next with committed := s.receipts }) := by
  rw [serve]
  split
  · exact Or.inl ⟨_, rfl⟩
  · exact Or.inr rfl

theorem good_execute {row : Row F} (hentered : Entered app s row) (h : Good app s) :
    Good app (serve app s (.execute row)).2 ∧ Grown s (serve app s (.execute row)).2 := by
  rcases serve_execute app s row with ⟨e, hfailed⟩ | ⟨table, htable, hdone⟩
  · rw [hfailed]
    exact good_quiet rfl rfl rfl rfl rfl (Nat.le_succ _) h
  · rw [hdone]
    have hcolumns : table.columns = s.receipts.columns ++ [row] := columns_insert _ _ _ htable
    have hprefix : s.receipts.columns <+: table.columns := by
      rw [hcolumns]
      exact List.prefix_append _ _
    have hgrown : Grown s { s.next with receipts := table } :=
      ⟨Nat.le_succ _, fun _ _ _ h => h, List.prefix_rfl, List.prefix_rfl, le_rfl, fun _ => hprefix⟩
    refine ⟨good_log hgrown rfl (fun other hother => ?_) (h.durable.trans hprefix) h, hgrown⟩
    change other ∈ table.columns at hother
    rw [hcolumns, List.mem_append, List.mem_singleton] at hother
    rcases hother with hother | rfl
    · exact Or.inl hother
    · exact Or.inr hentered

theorem good_commit (h : Good app s) :
    Good app (serve app s .commit).2 ∧ Grown s (serve app s .commit).2 := by
  rcases serve_commit app s with ⟨e, hfailed⟩ | hdone
  · rw [hfailed]
    exact good_quiet rfl rfl rfl rfl rfl (Nat.le_succ _) h
  · rw [hdone]
    have hgrown : Grown s { s.next with committed := s.receipts } :=
      ⟨Nat.le_succ _, fun _ _ _ h => h, List.prefix_rfl, h.durable, le_rfl,
        fun _ => List.prefix_rfl⟩
    exact ⟨good_log hgrown rfl (fun _ hrow => Or.inl hrow) List.prefix_rfl h, hgrown⟩

/-- A rollback leaves what was committed. -/
theorem good_rollback (h : Good app s) :
    Good app (serve app s .rollback).2 ∧ Grown s (serve app s .rollback).2 := by
  have hgrown : Grown s (serve app s .rollback).2 := by
    refine ⟨Nat.le_succ _, fun _ _ _ h => h, List.prefix_rfl, List.prefix_rfl, Nat.le_succ _,
      fun hsame => ?_⟩
    change s.rollbacks + 1 = s.rollbacks at hsame
    omega
  exact ⟨good_log hgrown rfl (fun row hrow => Or.inl (h.durable.subset hrow)) List.prefix_rfl h,
    hgrown⟩

theorem good_serve (op : ServiceOp F) (huuid : Distinct app.env (serve app s op).2.host.tick)
    (hmay : May app s op) (h : Good app s) :
    Good app (serve app s op).2 ∧ Grown s (serve app s op).2 := by
  cases op with
  | publish c => exact good_publish c huuid h
  | execute row => exact good_execute hmay h
  | commit => exact good_commit h
  | rollback => exact good_rollback h
  | _ => exact good_quiet rfl rfl rfl rfl rfl (Nat.le_succ _) h

omit [FloatConversion F] in
theorem serve_tick (app : App F) (s : ServiceState F) (op : ServiceOp F) :
    (serve app s op).2.tick = s.tick + 1 := by
  cases op with
  | execute row =>
    rcases serve_execute app s row with ⟨e, hfailed⟩ | ⟨table, -, hdone⟩
    · rw [hfailed]
      rfl
    · rw [hdone]
      rfl
  | commit =>
    rcases serve_commit app s with ⟨e, hfailed⟩ | hdone
    · rw [hfailed]
      rfl
    · rw [hdone]
      rfl
  | _ => rfl

end Steps

section Programs

/-- What a thread relies on between two of its operations. -/
def Later (app : App F) (s s' : ServiceState F) : Prop := Good app s → Good app s' ∧ Grown s s'

omit [DecidableEq F] in
instance (app : App F) : IsPreorder (ServiceState F) (Later app) where
  refl s := fun h => ⟨h, Grown.refl s⟩
  trans _ _ _ h h' := fun hgood => by
    obtain ⟨hgood', hgrown⟩ := h hgood
    obtain ⟨hgood'', hgrown'⟩ := h' hgood'
    exact ⟨hgood'', hgrown.trans hgrown'⟩

abbrev SafeService {α : Type} (app : App F) (post : α → ServiceState F → Prop)
    (p : Prog (ServiceOp F) (Answers F) α) (s : ServiceState F) : Prop :=
  Safe (serve app) (Later app) (Later app) (May app) post p s

variable {app : App F} {s : ServiceState F} {α : Type}

/-- An operation that may be made at any time, and what has grown before and since. -/
theorem safe_perform (op : ServiceOp F) (hs : Good app s)
    {post : Except ServiceError (Answers F op) → ServiceState F → Prop}
    (hmay : ∀ s₁, Good app s₁ → Grown s s₁ → May app s₁ op)
    (h : ∀ s₁ s₂, Good app s₁ → Grown s s₁ → Good app s₂ → Grown (serve app s₁ op).2 s₂ →
      Grown s₁ s₂ → post (.ok (serve app s₁ op).1) s₂) :
    SafeService app post (perform op) s := by
  intro s₁ h₁
  obtain ⟨hgood₁, hgrown₁⟩ := h₁ hs
  refine ⟨hmay s₁ hgood₁ hgrown₁, fun hkeeps s₂ h₂ => ?_⟩
  obtain ⟨hgood', hgrown'⟩ := hkeeps hgood₁
  obtain ⟨hgood₂, hgrown₂⟩ := h₂ hgood'
  exact h s₁ s₂ hgood₁ hgrown₁ hgood₂ hgrown₂ (hgrown'.trans hgrown₂)

theorem safe_raising {x : Serve F (Except ServiceError α)}
    {post : Except ServiceError α → ServiceState F → Prop} (herror : ∀ e s', post (.error e) s')
    (h : SafeService app (fun result s' => ∀ a, result = .ok (.ok a) → ∀ s'', Later app s' s'' →
      post (.ok a) s'') x s) : SafeService app post (VaultService.raising x) s := by
  apply safe_then
  apply safe_mono x s h
  intro result s' hs'
  match result with
  | .ok (.ok a) => exact hs' a rfl
  | .ok (.error e) => exact fun s'' _ => herror e s''
  | .error e => exact fun s'' _ => herror e s''

omit [DecidableEq F] in
/-- A manifest that is read is one of a model that was added. -/
theorem stored_of_getManifest (hs : Good app s) (current : F) (modelId : String)
    (found : ModelManifest F)
    (h : getManifest F app.crypto app.root s.host.files current modelId = .ok (some found)) :
    ∃ size call manifest, Stored app s size call manifest ∧ call.modelId = modelId ∧
      found = manifest.sorted := by
  unfold getManifest at h
  split at h
  · cases h
  · rename_i content hcontent
    obtain ⟨size, call, manifest, hstored, hpath⟩ := hs.manifests modelId content hcontent
    have hfile := hstored.2.2.file
    rw [hstored.2.1, hpath, hcontent, Option.some.injEq] at hfile
    rw [hfile] at h
    simp only [load_toJson current manifest hstored.2.2.metadata] at h
    split at h
    · rename_i hid
      refine ⟨size, call, manifest, hstored, ?_, (Option.some.inj (Except.ok.inj h)).symm⟩
      rw [← hstored.2.1]
      exact hid
    · cases h

theorem safe_readManifest {post : Except ServiceError (Option (ModelManifest F)) →
    ServiceState F → Prop} (modelId : String) (hs : Good app s)
    (herror : ∀ e s', post (.error e) s')
    (hok : ∀ value s', Good app s' → Grown s s' → (∀ found, value = some found →
      ∃ size call manifest, Stored app s' size call manifest ∧ call.modelId = modelId ∧
        found = manifest.sorted) → post (.ok value) s') :
    SafeService app post (readManifest modelId) s := by
  apply safe_then
  apply safe_perform (.getManifest modelId) hs (fun _ _ _ => trivial)
  intro s₁ s₂ hgood₁ hgrown₁ hgood₂ _ hgrown₂
  dsimp only
  cases hread : (serve app s₁ (.getManifest modelId)).1 with
  | error e => exact fun s' _ => herror _ s'
  | ok value =>
    intro s₃ h₃
    obtain ⟨hgood₃, hgrown₃⟩ := h₃ hgood₂
    refine hok value s₃ hgood₃ (hgrown₁.trans (hgrown₂.trans hgrown₃)) ?_
    rintro found rfl
    have hfound : getManifest F app.crypto app.root s₁.host.files (app.stamp s₁.tick) modelId =
        .ok (some found) := by
      change (if app.fault s₁.tick then Except.error PyError.osError else _) = _ at hread
      split at hread
      · cases hread
      · exact hread
    obtain ⟨size, call, manifest, hstored, hid, hsorted⟩ :=
      stored_of_getManifest hgood₁ _ modelId found hfound
    exact ⟨size, call, manifest, hstored.grown (hgrown₂.trans hgrown₃), hid, hsorted⟩

theorem safe_now {post : Except ServiceError ℚ → ServiceState F → Prop} (hs : Good app s)
    (hok : ∀ tick s', s.tick ≤ tick → tick < s'.tick → Good app s' → Grown s s' →
      post (.ok (app.clock tick)) s') : SafeService app post now s := by
  apply safe_then
  apply safe_perform .time hs (fun _ _ _ => trivial)
  intro s₁ s₂ _ hgrown₁ hgood₂ hlast hgrown₂ s₃ h₃
  obtain ⟨hgood₃, hgrown₃⟩ := h₃ hgood₂
  refine hok s₁.tick s₃ hgrown₁.tick ?_ hgood₃ (hgrown₁.trans (hgrown₂.trans hgrown₃))
  have htick := hlast.tick.trans hgrown₃.tick
  rw [serve_tick] at htick
  exact htick

theorem safe_fromExcept {result : Except ServiceError α}
    {post : Except ServiceError α → ServiceState F → Prop} (hs : Good app s)
    (h : ∀ s', Good app s' → Grown s s' → post result s') :
    SafeService app post (fromExcept result) s := by
  intro s' h'
  obtain ⟨hgood, hgrown⟩ := h' hs
  exact h s' hgood hgrown

omit [FloatConversion F] [FloatText F] [FloatTime F] [DecidableEq F] in
theorem nonceKey_ok {req : RawRequest F} {key : String × String} (h : nonceKey req = .ok key) :
    req.requesterPubkey = .str key.1 ∧ req.nonce = .str key.2 := by
  unfold nonceKey at h
  split at h
  · rename_i pubkey nonce hpubkey hnonce
    obtain rfl := Except.ok.inj h
    exact ⟨hpubkey, hnonce⟩
  · cases h

theorem safe_rememberNew {post : Except ServiceError Bool → ServiceState F → Prop} (current : ℚ)
    (req : RawRequest F) (hs : Good app s) (herror : ∀ e s', post (.error e) s')
    (hok : ∀ accepted s', Good app s' → Grown s s' →
      (accepted = true → ∃ key, nonceKey req = .ok key) → post (.ok accepted) s') :
    SafeService app post (rememberNew current req) s := by
  apply safe_then
  refine safe_fromExcept hs ?_
  intro s₁ hgood₁ hgrown₁
  cases hkey : nonceKey req with
  | error e => exact fun s' _ => herror _ s'
  | ok key =>
    apply safe_then
    apply safe_perform (.seenGet key) hgood₁ (fun _ _ _ => trivial)
    intro s₂ s₃ _ hgrown₂ hgood₃ _ hgrown₃
    have hs₃ := hgrown₁.trans (hgrown₂.trans hgrown₃)
    dsimp only
    split
    · intro s' h'
      obtain ⟨hgood', hgrown'⟩ := h' hgood₃
      exact hok false s' hgood' (hs₃.trans hgrown') (by simp)
    · apply safe_then
      apply safe_perform (.seenSet key current) hgood₃ (fun _ _ _ => trivial)
      intro s₄ s₅ _ hgrown₄ hgood₅ _ hgrown₅ s' h'
      obtain ⟨hgood', hgrown'⟩ := h' hgood₅
      exact hok true s' hgood' (hs₃.trans (hgrown₄.trans (hgrown₅.trans hgrown')))
        (fun _ => ⟨key, hkey⟩)

theorem safe_seenSize {post : Except ServiceError ℕ → ServiceState F → Prop} (hs : Good app s)
    (hok : ∀ size s', Good app s' → Grown s s' → post (.ok size) s') :
    SafeService app post seenSize s :=
  safe_perform .seenSize hs (fun _ _ _ => trivial)
    (fun _ s₂ _ hgrown₁ hgood₂ _ hgrown₂ => hok _ s₂ hgood₂ (hgrown₁.trans hgrown₂))

theorem safe_acceptNonce {post : Except ServiceError Bool → ServiceState F → Prop}
    (maxEntries : ℕ) (req : RawRequest F) (hs : Good app s) (herror : ∀ e s', post (.error e) s')
    (hok : ∀ accepted s', Good app s' → Grown s s' →
      (accepted = true → ∃ key, nonceKey req = .ok key) → post (.ok accepted) s') :
    SafeService app post (acceptNonce maxEntries req) s := by
  apply safe_then
  apply safe_now hs
  intro tick s₁ _ _ hgood₁ hgrown₁
  apply safe_then
  apply safe_seenSize hgood₁
  intro size s₂ hgood₂ hgrown₂
  have hs₂ := hgrown₁.trans hgrown₂
  dsimp only
  split
  · apply safe_then
    apply safe_then
    apply safe_perform (.seenAlive (app.clock tick)) hgood₂ (fun _ _ _ => trivial)
    intro s₃ s₄ _ hgrown₃ hgood₄ _ hgrown₄
    apply safe_perform (.seenReplace _) hgood₄ (fun _ _ _ => trivial)
    intro s₅ s₆ _ hgrown₅ hgood₆ _ hgrown₆
    have hs₆ := hs₂.trans (hgrown₃.trans (hgrown₄.trans (hgrown₅.trans hgrown₆)))
    apply safe_then
    apply safe_seenSize hgood₆
    intro size s₇ hgood₇ hgrown₇
    dsimp only
    split
    · intro s' h'
      obtain ⟨hgood', hgrown'⟩ := h' hgood₇
      exact hok false s' hgood' (hs₆.trans (hgrown₇.trans hgrown')) (by simp)
    · exact safe_rememberNew _ req hgood₇ herror (fun accepted s' hgood' hgrown' =>
        hok accepted s' hgood' (hs₆.trans (hgrown₇.trans hgrown')))
  · exact safe_rememberNew _ req hgood₂ herror (fun accepted s' hgood' hgrown' =>
      hok accepted s' hgood' (hs₂.trans hgrown'))

omit [FloatConversion F] in
theorem serve_execute_ok {row : Row F} {u : Unit} (h : (serve app s (.execute row)).1 = .ok u) :
    row ∈ (serve app s (.execute row)).2.receipts.columns := by
  rcases serve_execute app s row with ⟨e, hfailed⟩ | ⟨table, htable, hdone⟩
  · rw [hfailed] at h
    cases h
  · rw [hdone]
    change row ∈ table.columns
    rw [columns_insert _ _ _ htable]
    exact List.mem_append_right _ (List.mem_singleton_self row)

omit [FloatConversion F] in
theorem serve_commit_ok {u : Unit} (h : (serve app s .commit).1 = .ok u) :
    (serve app s .commit).2.committed = s.receipts := by
  rcases serve_commit app s with ⟨e, hfailed⟩ | hdone
  · rw [hfailed] at h
    cases h
  · rw [hdone]

/-- A row that was inserted is committed, if no other thread has rolled it back before. -/
theorem safe_transaction {post : Except ServiceError Unit → ServiceState F → Prop} {row : Row F}
    (hs : Good app s) (hentered : ∀ s', Good app s' → Grown s s' → Entered app s' row)
    (herror : ∀ e s', post (.error e) s')
    (hok : ∀ s', Good app s' → Grown s s' →
      (s'.rollbacks = 0 → row ∈ s'.committed.columns) → post (.ok ()) s') :
    SafeService app post (transaction (perform (ServiceOp.execute row))) s := by
  have hundone : ∀ (e : ServiceError) {s : ServiceState F}, Good app s → SafeService app post (do
      perform ServiceOp.rollback
      throw e : Serve F Unit) s := by
    intro e s hs
    apply safe_then
    exact safe_perform .rollback hs (fun _ _ _ => trivial) (fun _ _ _ _ _ _ _ s' _ => herror e s')
  apply safe_then
  apply safe_perform (.execute row) hs hentered
  intro s₁ s₂ _ hgrown₁ hgood₂ hexecuted hgrown₂
  dsimp only
  cases hinserted : (serve app s₁ (.execute row)).1 with
  | error e => exact hundone e hgood₂
  | ok u =>
    apply safe_then
    apply safe_perform .commit hgood₂ (fun _ _ _ => trivial)
    intro s₃ s₄ _ hgrown₃ hgood₄ hended hgrown₄
    dsimp only
    cases hcommitted : (serve app s₃ .commit).1 with
    | error e => exact hundone e hgood₄
    | ok u =>
      intro s' h'
      obtain ⟨hgood', hgrown'⟩ := h' hgood₄
      have hafter := hended.trans hgrown'
      refine hok s' hgood' (hgrown₁.trans (hgrown₂.trans (hgrown₃.trans (hgrown₄.trans hgrown'))))
        (fun hzero => ?_)
      have hthere : row ∈ s₃.receipts.columns := by
        have hzero₃ := ((hgrown₄.trans hgrown').rows_of_zero hzero).1
        have hkept := ((hexecuted.trans hgrown₃).rows_of_zero hzero₃).2
        exact hkept.subset (serve_execute_ok hinserted)
      rw [← serve_commit_ok hcommitted] at hthere
      exact hafter.committed.subset hthere

/-- What is granted is in the log before it is answered. -/
theorem safe_emitReceipt {post : Except ServiceError String → ServiceState F → Prop}
    {first : ℕ} (kind modelId key : String) (payload : Json F) (hs : Good app s)
    (hgranted : Granted app s first kind modelId key payload)
    (herror : ∀ e s', post (.error e) s')
    (hok : ∀ receiptId s', Good app s' → Grown s s' →
      (s'.rollbacks = 0 → Recorded app s' receiptId kind modelId key payload) →
      post (.ok receiptId) s') :
    SafeService app post (emitReceipt app kind modelId (.str key) payload) s := by
  apply safe_then
  apply safe_perform .uuid4 hs (fun _ _ _ => trivial)
  intro s₁ s₂ _ hgrown₁ hgood₂ _ hgrown₂
  apply safe_then
  apply safe_perform .time hgood₂ (fun _ _ _ => trivial)
  intro s₃ s₄ _ hgrown₃ hgood₄ _ hgrown₄
  have hs₄ := hgrown₁.trans (hgrown₂.trans (hgrown₃.trans hgrown₄))
  apply safe_then
  apply safe_raising (fun e s' s'' _ => herror e s'')
  apply safe_perform .newestSig hgood₄ (fun _ _ _ => trivial)
  intro s₅ s₆ _ hgrown₅ hgood₆ _ hgrown₆ previous _ s₇ h₇
  obtain ⟨hgood₇, hgrown₇⟩ := h₇ hgood₆
  have hs₇ := hs₄.trans (hgrown₅.trans (hgrown₆.trans hgrown₇))
  dsimp only
  split
  · exact fun s' _ => herror _ s'
  · rename_i row hrow
    apply safe_then
    apply safe_transaction hgood₇
    · intro s₈ _ hgrown₈
      exact ⟨_, previous, hrow, hgranted.grown (Nat.zero_le _) (hs₇.trans hgrown₈)⟩
    · exact fun e s' s'' _ => herror e s''
    · intro s₈ hgood₈ hgrown₈ hcommitted s' h'
      obtain ⟨hgood', hgrown'⟩ := h' hgood₈
      refine hok _ s' hgood' (hs₇.trans (hgrown₈.trans hgrown')) (fun hzero => ?_)
      have hrecorded := hcommitted (hgrown'.rows_of_zero hzero).1
      exact ⟨_, previous, row, hrow, hgrown'.committed.subset hrecorded⟩

end Programs

section Answers

variable [FloatNumber F] {app : App F} {s : ServiceState F}

/-- A request that passes all checks has been signed by a key of the lists. -/
theorem safe_authorize {post : Except ServiceError Unit → ServiceState F → Prop}
    (req : RawRequest F) (modelId purpose : String) (hs : Good app s)
    (herror : ∀ e s', post (.error e) s')
    (hok : ∀ key nonce s', Good app s' → Grown s s' → req.requesterPubkey = .str key →
      req.purpose = .str purpose → req.nonce = .str nonce →
      Authorized app s.tick s'.tick modelId purpose key nonce req.timestamp → post (.ok ()) s') :
    SafeService app post (authorize app req modelId purpose) s := by
  unfold authorize
  split
  · exact fun s' _ => herror _ s'
  · rename_i hmatch
    have hmodel : req.modelId = .str modelId := by
      apply eq_of_equalsStr
      by_contra hne
      exact hmatch (Or.inl (Bool.eq_false_iff.mpr hne))
    have hpurpose : req.purpose = .str purpose := by
      apply eq_of_equalsStr
      by_contra hne
      exact hmatch (Or.inr (Bool.eq_false_iff.mpr hne))
    apply safe_then
    apply safe_now hs
    intro tick s₁ hfirst hlast hgood₁ hgrown₁
    apply safe_then
    refine safe_fromExcept hgood₁ ?_
    intro s₂ hgood₂ hgrown₂
    cases hverify : verifyRaw app.ed (app.clock tick) req with
    | error e => exact fun s' _ => herror _ s'
    | ok verified =>
      obtain ⟨ok, reason⟩ := verified
      simp only [Except.mapError]
      split
      · exact fun s' _ => herror _ s'
      · rename_i hverified
        obtain rfl : ok = true := by simpa using hverified
        apply safe_then
        apply safe_acceptNonce _ req hgood₂ (fun e s' s'' _ => herror e s'')
        intro accepted s₃ hgood₃ hgrown₃ haccepted
        dsimp only
        split
        · exact fun s' _ => herror _ s'
        · rename_i hremembered
          obtain ⟨⟨key, nonce⟩, hkey⟩ := haccepted (by simpa using hremembered)
          obtain ⟨hpubkey, hnonce⟩ := nonceKey_ok hkey
          split
          · exact fun s' _ => herror _ s'
          · rename_i hlisted
            intro s' h'
            obtain ⟨hgood', hgrown'⟩ := h' hgood₃
            have hgrown := hgrown₂.trans (hgrown₃.trans hgrown')
            refine hok key nonce s' hgood' (hgrown₁.trans hgrown) hpubkey hpurpose hnonce ?_
            obtain ⟨⟨length, hlength, hlong⟩, ⟨instant, hinstant, hwindow⟩, hvalid⟩ :=
              verified_cases hverify
            obtain ⟨key', octets, signature, hkey', hoctets, hsize, hsigned⟩ :=
              signed_of_check hvalid
            rw [hpubkey, Json.str.injEq] at hkey'
            subst hkey'
            rw [hnonce] at hlength
            rw [hpubkey] at hlisted
            refine ⟨?_, ⟨tick, instant, hfirst, hlast.trans_le hgrown.tick, hinstant, hwindow⟩,
              ⟨octets, signature, hoctets, hsize, ?_⟩, by simpa [allows] using hlisted⟩
            · rwa [Except.ok.inj hlength]
            · rwa [RawRequest.unsigned, hpubkey, hmodel, hpurpose, hnonce] at hsigned

/-- What an answer of the service says, for a request that began at some tick. -/
inductive Right (app : App F) (s : ServiceState F) (first : ℕ) : Request F → Answer F → Prop where
  | called (call : VaultCall F × ℕ) : Right app s first (.vault call) .called
  | manifest (modelId : String) (size : ℕ) (call : AddFile F) (manifest : ModelManifest F)
      (hstored : Stored app s size call manifest) (hid : call.modelId = modelId) :
      Right app s first (.manifest modelId) (.json manifest.sorted.toDict)
  | opened (modelId : String) (body : Members F) (req : RawRequest F) (key nonce : String)
      (size : ℕ) (call : AddFile F) (manifest : ModelManifest F) (receiptId : String)
      (hbody : RawRequest.ofDict body = some req) (hkey : req.requesterPubkey = .str key)
      (hnonce : req.nonce = .str nonce)
      (hauthorized : Authorized app first s.tick modelId "open" key nonce req.timestamp)
      (hstored : Stored app s size call manifest) (hid : call.modelId = modelId)
      (hrecorded : s.rollbacks = 0 → Recorded app s receiptId "vault.open" modelId key
        (.obj [("purpose", .str "open"), ("request_nonce", .str nonce)])) :
      Right app s first (.openModel modelId body) (.json (.obj [("ok", .bool true),
        ("n_shards", .int manifest.nShards), ("merkle_root", .str manifest.merkleRoot),
        ("receipt_id", .str receiptId)]))
  | read (modelId : String) (k : ℕ) (key nonce signature : String) (timestamp : F) (size : ℕ)
      (call : AddFile F) (manifest : ModelManifest F) (chunk : Bytes) (receiptId : String)
      (hauthorized : Authorized app first s.tick modelId ("read:" ++ toString (k : ℤ)) key nonce
        (.float timestamp))
      (hstored : Stored app s size call manifest) (hid : call.modelId = modelId)
      (hchunk : (blocks size call.content)[k]? = some chunk)
      (hrecorded : s.rollbacks = 0 → Recorded app s receiptId "vault.shard_read" modelId key
        (.obj [("shard_index", .int k), ("bytes", .int chunk.length)])) :
      Right app s first (.shard modelId k key nonce signature timestamp) (.content chunk receiptId)

omit [DecidableEq F] [FloatNumber F] in
theorem Right.grown {s' : ServiceState F} {first : ℕ} {request : Request F} {answer : Answer F}
    (h : Right app s first request answer) (hgrown : Grown s s') :
    Right app s' first request answer := by
  cases h with
  | called call => exact .called call
  | manifest modelId size call manifest hstored hid =>
    exact .manifest modelId size call manifest (hstored.grown hgrown) hid
  | opened modelId body req key nonce size call manifest receiptId hbody hkey hnonce hauthorized
      hstored hid hrecorded =>
    exact .opened modelId body req key nonce size call manifest receiptId hbody hkey hnonce
      (hauthorized.later le_rfl hgrown.tick) (hstored.grown hgrown) hid
      (fun hzero => (hrecorded (hgrown.rows_of_zero hzero).1).grown hgrown)
  | read modelId k key nonce signature timestamp size call manifest chunk receiptId hauthorized
      hstored hid hchunk hrecorded =>
    exact .read modelId k key nonce signature timestamp size call manifest chunk receiptId
      (hauthorized.later le_rfl hgrown.tick) (hstored.grown hgrown) hid hchunk
      (fun hzero => (hrecorded (hgrown.rows_of_zero hzero).1).grown hgrown)

/-- What is owed for a request. -/
def Post (app : App F) (request : Request F) (began : ServiceState F)
    (result : Except ServiceError (Answer F)) (s : ServiceState F) : Prop :=
  ∀ answer, result = .ok answer → Right app s began.tick request answer

omit [DecidableEq F] [FloatNumber F] in
theorem post_error (request : Request F) (began : ServiceState F) (e : ServiceError)
    (s : ServiceState F) : Post app request began (.error e) s :=
  fun _ h => nomatch h

omit [FloatNumber F] in
theorem safe_manifest (modelId : String) (hs : Good app s) :
    SafeService app (Post app (.manifest modelId) s) (manifest modelId) s := by
  apply safe_then
  apply safe_readManifest modelId hs (fun e s' s'' _ => post_error _ _ e s'')
  intro value s₁ hgood₁ _ hfound
  cases value with
  | none => exact fun s' _ => post_error _ _ _ s'
  | some value =>
    obtain ⟨size, call, manifest, hstored, hid, rfl⟩ := hfound value rfl
    intro s' h' answer hanswer
    obtain ⟨-, hgrown'⟩ := h' hgood₁
    obtain rfl := Except.ok.inj hanswer
    exact .manifest modelId size call manifest (hstored.grown hgrown') hid

theorem safe_openModel (modelId : String) (body : Members F) (hs : Good app s) :
    SafeService app (Post app (.openModel modelId body) s) (openModel app modelId body) s := by
  apply safe_then
  apply safe_readManifest modelId hs (fun e s' s'' _ => post_error _ _ e s'')
  intro value s₁ hgood₁ hgrown₁ hfound
  cases value with
  | none => exact fun s' _ => post_error _ _ _ s'
  | some value =>
    obtain ⟨size, call, manifest, hstored, hid, rfl⟩ := hfound value rfl
    cases hbody : RawRequest.ofDict body with
    | none =>
      dsimp only
      exact fun s' _ => post_error _ _ _ s'
    | some req =>
      dsimp only
      apply safe_then
      apply safe_authorize req modelId "open" hgood₁ (fun e s' s'' _ => post_error _ _ e s'')
      intro key nonce s₂ hgood₂ hgrown₂ hkey hpurpose hnonce hauthorized
      dsimp only
      rw [hkey, hpurpose, hnonce]
      apply safe_then
      apply safe_emitReceipt "vault.open" modelId key _ hgood₂
        (.opened modelId key nonce _ hauthorized) (fun e s' s'' _ => post_error _ _ e s'')
      intro receiptId s₃ hgood₃ hgrown₃ hrecorded s' h' answer hanswer
      obtain ⟨-, hgrown'⟩ := h' hgood₃
      obtain rfl := Except.ok.inj hanswer
      have hgrown := hgrown₃.trans hgrown'
      exact .opened modelId body req key nonce size call manifest receiptId hbody hkey hnonce
        (hauthorized.later hgrown₁.tick hgrown.tick) (hstored.grown (hgrown₂.trans hgrown)) hid
        (fun hzero => (hrecorded (hgrown'.rows_of_zero hzero).1).grown hgrown')

omit [FloatNumber F] [FloatConversion F] [DecidableEq F] in
/-- A shard that is read is the block of the content with its index. -/
theorem block_of_readShard {size : ℕ} {call : AddFile F} {manifest : ModelManifest F}
    (hstored : Stored app s size call manifest) (index : ℤ) (chunk : Bytes)
    (h : readShardPlaintext F app.crypto app.root (passphrase app.env) s.host.files
      manifest.sorted index = .ok chunk) :
    ∃ k : ℕ, index = k ∧ (blocks size call.content)[k]? = some chunk := by
  change readShardPlaintext F app.crypto app.root (passphrase app.env) s.host.files manifest index =
    .ok chunk at h
  have hcount := published_nShards app.crypto app.root _ _ _ _ hstored.2.2
  by_cases hrange : 0 ≤ index ∧ index < manifest.nShards
  · obtain ⟨k, rfl⟩ := Int.eq_ofNat_of_zero_le hrange.1
    have hlt : k < (blocks size call.content).length := by omega
    have hpiece := List.getElem?_eq_getElem hlt
    have hread := readShardPlaintext_published app.crypto app.root _ _ _ _ hstored.2.2 k _ hpiece
    exact ⟨k, rfl, by rw [hpiece, Except.ok.inj (hread.symm.trans h)]⟩
  · rw [readShardPlaintext_out_of_range app.crypto app.root _ _ manifest index hrange] at h
    cases h

theorem safe_shard (modelId : String) (index : ℤ) (pubkey nonce signature : String) (timestamp : F)
    (hs : Good app s) :
    SafeService app (Post app (.shard modelId index pubkey nonce signature timestamp) s)
      (shard app modelId index pubkey nonce signature timestamp) s := by
  apply safe_then
  apply safe_readManifest modelId hs (fun e s' s'' _ => post_error _ _ e s'')
  intro value s₁ hgood₁ hgrown₁ hfound
  cases value with
  | none => exact fun s' _ => post_error _ _ _ s'
  | some value =>
    obtain ⟨size, call, manifest, hstored, hid, rfl⟩ := hfound value rfl
    apply safe_then
    apply safe_authorize _ modelId _ hgood₁ (fun e s' s'' _ => post_error _ _ e s'')
    intro key nonce' s₂ hgood₂ hgrown₂ hkey _ hnonce hauthorized
    obtain rfl := Json.str.inj hkey
    obtain rfl := Json.str.inj hnonce
    apply safe_then
    apply safe_perform (.readShard manifest.sorted index) hgood₂ (fun _ _ _ => trivial)
    intro s₃ s₄ _ hgrown₃ hgood₄ _ hgrown₄
    dsimp only
    cases hread : (serve app s₃ (.readShard manifest.sorted index)).1 with
    | error e => exact fun s' _ => post_error _ _ _ s'
    | ok chunk =>
      have hchunk : readShardPlaintext F app.crypto app.root (passphrase app.env) s₃.host.files
          manifest.sorted index = .ok chunk := by
        change (if app.fault s₃.tick then Except.error PyError.osError else _) = _ at hread
        split at hread
        · cases hread
        · exact hread
      obtain ⟨k, rfl, hblock⟩ :=
        block_of_readShard (hstored.grown (hgrown₂.trans hgrown₃)) index chunk hchunk
      have hstored₄ := hstored.grown (hgrown₂.trans (hgrown₃.trans hgrown₄))
      have hauthorized₄ := hauthorized.later (le_refl s₁.tick) (hgrown₃.trans hgrown₄).tick
      apply safe_then
      apply safe_emitReceipt "vault.shard_read" modelId pubkey _ hgood₄
        (.read modelId pubkey nonce _ size call manifest k chunk hauthorized₄ hstored₄ hid hblock)
        (fun e s' s'' _ => post_error _ _ e s'')
      intro receiptId s₅ hgood₅ hgrown₅ hrecorded s' h' answer hanswer
      obtain ⟨-, hgrown'⟩ := h' hgood₅
      obtain rfl := Except.ok.inj hanswer
      have hgrown := hgrown₅.trans hgrown'
      exact .read modelId k pubkey nonce signature timestamp size call manifest chunk receiptId
        (hauthorized₄.later hgrown₁.tick hgrown.tick) (hstored₄.grown hgrown) hid hblock
        (fun hzero => (hrecorded (hgrown'.rows_of_zero hzero).1).grown hgrown')

theorem safe_program (request : Request F) (hs : Good app s) :
    SafeService app (Post app request s) (program app request) s := by
  cases request with
  | vault call =>
    apply safe_then
    apply safe_perform (.publish call) hs (fun _ _ _ => trivial)
    intro s₁ s₂ _ _ _ _ _ s' _ answer hanswer
    obtain rfl := Except.ok.inj hanswer
    exact .called call
  | manifest modelId => exact safe_manifest modelId hs
  | openModel modelId body => exact safe_openModel modelId body hs
  | shard modelId index pubkey nonce signature timestamp =>
    exact safe_shard modelId index pubkey nonce signature timestamp hs

end Answers

section Runs

variable [FloatNumber F] {ι : Type} [DecidableEq ι]

abbrev Served (F : Type) := Finished (Request F) (Except ServiceError (Answer F)) (ServiceState F)

abbrev Threads (ι F : Type) :=
  System ι (ServiceOp F) (Answers F) (Request F) (Except ServiceError (Answer F)) (ServiceState F)

variable (app : App F) (choose : ι → List (Served F) → Option (Request F))

def stepService (i : ι) (y : Threads ι F) : Threads ι F :=
  step (fun _ => serve app) (program app) choose i y

def runService (start : ServiceState F) (schedule : List ι) : Threads ι F :=
  runAll (fun _ => serve app) (program app) choose (System.start start) schedule

/-- What has been returned is right, and what is going on is safe. -/
structure Inv (y : Threads ι F) : Prop where
  sound : AllSound (fun _ => serve app) choose (fun _ _ => Later app) (fun _ => Later app)
    (fun _ => May app) (fun _ => Post app) y
  good : Good app y.shared

omit [FloatConversion F] [FloatNumber F] in
theorem serve_hostTick (s : ServiceState F) (op : ServiceOp F) :
    s.host.tick ≤ (serve app s op).2.host.tick := by
  cases op with
  | publish call => exact runCall_tick app.crypto call s.host
  | execute row =>
    rcases serve_execute app s row with ⟨e, hfailed⟩ | ⟨table, -, hdone⟩
    · rw [hfailed]
      exact le_rfl
    · rw [hdone]
      exact le_rfl
  | commit =>
    rcases serve_commit app s with ⟨e, hfailed⟩ | hdone
    · rw [hfailed]
      exact le_rfl
    · rw [hdone]
      exact le_rfl
  | _ => exact le_rfl

theorem stepService_hostTick (i : ι) (y : Threads ι F) :
    y.shared.host.tick ≤ (stepService app choose i y).shared.host.tick := by
  unfold stepService
  rcases step_cases (fun _ => serve app) (program app) choose i y with
    hstep | ⟨call, -, -, hstep⟩ | ⟨call, began, a, -, hstep⟩ | ⟨call, began, op, next, -, hstep⟩
  · rw [hstep]
  · rw [hstep]
    exact le_rfl
  · rw [hstep]
    exact le_rfl
  · rw [hstep]
    exact serve_hostTick app y.shared op

/-- Names that are not drawn twice up to the end are not drawn twice at any step. -/
theorem obeys_distinct (y : Threads ι F) (schedule : List ι)
    (h : Distinct app.env
      (runAll (fun _ => serve app) (program app) choose y schedule).shared.host.tick) :
    Obeys (fun _ => serve app) (program app) choose
      (fun y i => Distinct app.env (stepService app choose i y).shared.host.tick) y schedule ∧
      Distinct app.env y.shared.host.tick := by
  induction schedule generalizing y with
  | nil => exact ⟨trivial, h⟩
  | cons i rest ih =>
    obtain ⟨hrest, hstep⟩ := ih (stepService app choose i y) h
    exact ⟨⟨hstep, hrest⟩, hstep.mono (stepService_hostTick app choose i y)⟩

theorem inv_step (i : ι) (y : Threads ι F) (h : Inv app choose y)
    (huuid : Distinct app.env (stepService app choose i y).shared.host.tick) :
    Inv app choose (stepService app choose i y) := by
  have hop : ∀ call began op next,
      (y.process i).running = some ⟨call, began, .call op next⟩ → May app y.shared op →
        Good app (serve app y.shared op).2 ∧ Grown y.shared (serve app y.shared op).2 := by
    intro call began op next hrunning hmay
    apply good_serve op _ hmay h.good
    rwa [stepService, step, hrunning] at huuid
  refine ⟨?_, ?_⟩
  · refine allSound_step (fun _ _ => inferInstance) y i h.sound
      (fun request _ => safe_program request h.good) ?_
    intro call began op next hrunning hmay
    obtain ⟨hgood, hgrown⟩ := hop call began op next hrunning hmay
    refine ⟨fun _ => ⟨hgood, hgrown⟩, fun _ _ _ _ _ => ⟨hgood, hgrown⟩, ?_⟩
    intro j f hf answer hanswer
    exact ((h.sound j).finished f hf answer hanswer).grown hgrown
  · refine shared_step (fun _ _ => inferInstance) y i (Good app) h.sound h.good ?_
    intro call began op next hrunning hmay
    exact (hop call began op next hrunning hmay).1

/-- In every run of the threads on a vault that was empty: an answer is right, and every row of
the log is one of a request that was granted. -/
theorem service_right (start : ServiceState F)
    (hempty : ∀ path, app.root <+: path → start.host.files path = none)
    (hlog : start.receipts.columns = []) (hnew : start.committed = start.receipts)
    (schedule : List ι)
    (huuid : Distinct app.env (runService app choose start schedule).shared.host.tick) :
    (∀ i, ∀ f ∈ ((runService app choose start schedule).process i).finished, ∀ answer,
      f.result = .ok answer → Right app (runService app choose start schedule).shared f.began.tick
        f.call answer) ∧
    ∀ row ∈ (runService app choose start schedule).shared.receipts.columns,
      Entered app (runService app choose start schedule).shared row := by
  have hsound : Sound app.crypto app.root app.env start.host :=
    sound_empty app.crypto start.host hempty
  have hgood : Good app start := by
    refine ⟨hsound.keys, fun modelId value hvalue => ?_, by simp [hlog], by rw [hnew]⟩
    rw [hempty (manifestPath app.crypto.sha app.root modelId) (List.prefix_append app.root _)]
      at hvalue
    cases hvalue
  have hstart : Inv app choose (System.start start : Threads ι F) :=
    ⟨allSound_start _ _ _ _ _ _ start, hgood⟩
  have hrun := runAll_invariant (fun y i => inv_step app choose i y) _ schedule hstart
    (obeys_distinct app choose _ schedule huuid).1
  exact ⟨fun i f hf => (hrun.sound i).finished f hf, hrun.good.rows⟩

/-- The requests of a process in their order. -/
def inTurn (requests : ι → List (Request F)) (i : ι) (finished : List (Served F)) :
    Option (Request F) := (requests i)[finished.length]?

/-- The owner of the vault and two threads of the service. -/
inductive Party where
  | owner
  | first
  | second
deriving DecidableEq

def sampleSecret : Bytes := List.replicate 32 7

def sampleApp : App WholeFloat where
  ed := Ed25519.sample
  hmac := HmacSha256.sample
  crypto := Crypto.sample
  root := ["vault"]
  env := sampleEnv
  receiptKey := List.replicate 32 9
  acl := ⟨⟨[("m", [hex sampleSecret])], by decide⟩⟩
  fault := fun _ => false
  uuid := fun tick => hex (octets 16 tick)
  clock := fun tick => tick
  stamp := fun tick => ⟨tick⟩
  stamp_clock := fun _ => rfl

def sampleStart : ServiceState WholeFloat :=
  ⟨Host.empty, [], NonceCache.new, Table.empty, Table.empty, 0, 0⟩

def sampleHost : Host := runCalls Crypto.sample ["vault"] sampleEnv Host.empty
  (sampleBefore ++ [sampleAdd])

/-- The service at some tick after the calls of the owner. -/
def sampleAt (tick : ℕ) : ServiceState WholeFloat :=
  ⟨sampleHost, sampleBefore ++ [sampleAdd], NonceCache.new, Table.empty, Table.empty, 0, tick⟩

theorem sampleAt_next (tick : ℕ) : (sampleAt tick).next = sampleAt (tick + 1) := by
  simp only [sampleAt, ServiceState.next]

/-- A request for a shard under a nonce. -/
def sampleRead (index : ℤ) (nonce : String) : AccessRequest WholeFloat :=
  signRequest Ed25519.sample sampleSecret "m" ("read:" ++ toString index) nonce ⟨5⟩

def sampleShard (index : ℤ) (nonce : String) : Request WholeFloat :=
  .shard "m" index (sampleRead index nonce).requesterPubkey (sampleRead index nonce).nonce
    (sampleRead index nonce).signature (sampleRead index nonce).timestamp

/-- The owner adds a model of two shards, and each thread is asked for one of them. -/
def sampleRequests : Party → List (Request WholeFloat)
  | .owner => [.vault (.construct 4, 100), .vault sampleAdd]
  | .first => [sampleShard 0 "0123456789abcdef"]
  | .second => [sampleShard 1 "fedcba9876543210"]

theorem runCalls_concat (calls : List (VaultCall WholeFloat × ℕ))
    (call : VaultCall WholeFloat × ℕ) :
    runCalls Crypto.sample ["vault"] sampleEnv Host.empty (calls ++ [call]) =
      (runCall Crypto.sample ["vault"] sampleEnv call
        (runCalls Crypto.sample ["vault"] sampleEnv Host.empty calls)).2 := by
  rw [runCalls, List.foldl_concat, runCalls]

theorem sampleHost_published : ∃ manifest : ModelManifest WholeFloat, manifest.modelId = "m" ∧
    Published WholeFloat Crypto.sample ["vault"] (passphrase sampleEnv) sampleHost.files
      (blocks 2 [1, 2, 3]) manifest := by
  obtain ⟨manifest, hreturned⟩ := sampleAdd_returned
  have huuid : Distinct sampleEnv (runCalls Crypto.sample ["vault"] sampleEnv Host.empty
      (sampleBefore ++ [sampleAdd])).tick :=
    distinct_sample _ _ _ _ ((runCalls_tick_le Crypto.sample _ _).trans (by decide))
  rw [runCalls_concat] at huuid
  rw [sampleHost, runCalls_concat]
  have hsound := (sound_runCalls Crypto.sample sampleBefore Host.empty
    (huuid.mono (runCall_tick Crypto.sample sampleAdd _))
    (sound_empty Crypto.sample Host.empty (fun _ _ => rfl))).1
  rcases runCall_cases Crypto.sample sampleAdd _ huuid hsound.keys with
    ⟨-, hnone⟩ | ⟨size, positive, call, published, hcall, hcompleted, -⟩
  · exact absurd hreturned (hnone manifest)
  · obtain ⟨rfl, rfl⟩ := VaultCall.add.inj hcall
    exact ⟨published, hcompleted.1, hcompleted.2.1⟩

/-- A request for a shard is granted while there is room and its nonce is new. -/
theorem sample_verdict {s : ServiceState WholeFloat} (index : ℤ) {nonce : String}
    (hnonce : nonce.length = 16) (htick : s.tick ≤ 100)
    (hroom : s.nonces.seen.size < s.nonces.maxEntries)
    (hnew : s.nonces.seen.get? (hex sampleSecret, nonce) = none) :
    verdict sampleApp s (sampleRead index nonce) = .ok () := by
  have hwindow : outOfWindow WholeFloat (s.tick : ℚ) maxSkew (.at ((5 : ℤ) : ℚ)) = false := by
    refine decide_eq_false (not_lt.mpr (abs_le.mpr ⟨?_, ?_⟩))
    · have hzero : (0 : ℚ) ≤ s.tick := Nat.cast_nonneg _
      change -(300 : ℚ) ≤ (s.tick : ℚ) + -((5 : ℤ) : ℚ)
      push_cast
      linarith
    · have hle : (s.tick : ℚ) ≤ 100 := by exact_mod_cast htick
      change (s.tick : ℚ) + -((5 : ℤ) : ℚ) ≤ 300
      push_cast
      linarith
  have hpurpose : "read:" ++ toString index ≠ "" := by
    intro hempty
    have hlength := congrArg String.length hempty
    rw [String.length_append] at hlength
    have hread : "read:".length = 5 := rfl
    have hnone : "".length = 0 := rfl
    omega
  have hverified : verifyRequest Ed25519.sample (s.tick : ℚ) (sampleRead index nonce) =
      (true, "ok") := by
    refine verifyRequest_signRequest Ed25519.sample sampleSecret rfl "m"
      ("read:" ++ toString index) nonce (⟨5⟩ : WholeFloat) ?_ _ hwindow
    rintro (h | h | h)
    · exact absurd h (by decide)
    · exact hpurpose h
    · omega
  have haccepted : s.nonces.accept WholeFloat (hex sampleSecret, nonce) ((s.tick + 1 : ℕ) : ℚ) =
      (true, s.nonces.remember WholeFloat (hex sampleSecret, nonce) ((s.tick + 1 : ℕ) : ℚ)) :=
    NonceCache.accept_fresh WholeFloat hroom hnew (Nat.cast_nonneg _)
  have hallowed : sampleApp.acl.isAllowed "m" (hex sampleSecret) = true := by decide
  change (if (verifyRequest Ed25519.sample (s.tick : ℚ) (sampleRead index nonce)).1 = false then _
    else if (s.nonces.accept WholeFloat (hex sampleSecret, nonce)
      ((s.tick + 1 : ℕ) : ℚ)).1 = false then _
    else if sampleApp.acl.isAllowed "m" (hex sampleSecret) = false then _ else _) = _
  rw [hverified, haccepted, hallowed]
  rfl

/-- The model is there, nothing was rolled back and the next receipts have new identifiers. -/
structure SampleGood (s : ServiceState WholeFloat) : Prop where
  vault : s.host = sampleHost
  tick : s.tick ≤ 20
  room : s.nonces.maxEntries = NonceCache.new.maxEntries
  rollbacks : s.rollbacks = 0
  chained : Chained sampleApp.hmac sampleApp.receiptKey s.receipts.columns
  fresh : ∀ n ≤ 10, SqlValue.text (sampleApp.uuid (s.tick + n)) ∉ identifiers s.receipts

theorem sampleGood_at {tick : ℕ} (htick : tick ≤ 20) : SampleGood (sampleAt tick) := by
  have hlog : (sampleAt tick).receipts = Table.empty := by simp only [sampleAt]
  refine ⟨?_, ?_, ?_, ?_, ?_, ?_⟩
  · simp only [sampleAt]
  · simpa only [sampleAt] using htick
  · simp only [sampleAt]
  · simp only [sampleAt]
  · rw [hlog]
    exact ⟨trivial, by intro row hrow; cases hrow⟩
  · rw [hlog]
    intro n _ hmem
    cases hmem

/-- The service after the request of one thread. -/
theorem sampleGood_sent {tick : ℕ} {s : ServiceState WholeFloat} {index : ℤ} {nonce : String}
    (htick : tick ≤ 5) (hsent : Sent sampleApp (sampleRead index nonce) (sampleAt tick) s) :
    SampleGood s ∧ s.nonces =
      NonceCache.new.remember WholeFloat (hex sampleSecret, nonce) ((tick + 1 : ℕ) : ℚ) := by
  have hstart : SampleGood (sampleAt tick) := sampleGood_at (by omega)
  have hnonces : (sampleAt tick).nonces = NonceCache.new := by simp only [sampleAt]
  have hticks : (sampleAt tick).tick = tick := by simp only [sampleAt]
  have hlog : identifiers (sampleAt tick).receipts = [] := by
    simp only [sampleAt]
    rfl
  have haccepted : NonceCache.new.accept WholeFloat (hex sampleSecret, nonce)
      ((tick + 1 : ℕ) : ℚ) = (true, NonceCache.new.remember WholeFloat (hex sampleSecret, nonce)
        ((tick + 1 : ℕ) : ℚ)) :=
    NonceCache.accept_fresh WholeFloat (by decide) rfl (Nat.cast_nonneg _)
  have hremembered := hsent.nonces
  rw [hnonces, hticks] at hremembered
  replace hremembered := hremembered.trans (congrArg Prod.snd haccepted)
  obtain ⟨hlater, hsoon⟩ := hsent.ticks
  rw [hticks] at hlater hsoon
  refine ⟨⟨hsent.vault.1.trans hstart.vault, by omega, ?_, hsent.rollbacks.trans hstart.rollbacks,
    hsent.chained, ?_⟩, hremembered⟩
  · rw [hremembered]
    rfl
  · obtain ⟨written, hlt, -, hidentifiers⟩ := hsent.fresh
    rw [hlog, List.nil_append] at hidentifiers
    intro n hn hmem
    rw [hidentifiers, List.mem_singleton, SqlValue.text.injEq] at hmem
    have hsame := octets_inj (by decide) (by omega) (by omega) (hex_injective hmem)
    omega

theorem sample_found : ∃ manifest : ModelManifest WholeFloat,
    (∀ tick, getManifest WholeFloat Crypto.sample ["vault"] sampleHost.files (sampleApp.stamp tick)
      "m" = .ok (some manifest.sorted)) ∧
    ∀ (k : ℕ) chunk, (blocks 2 [1, 2, 3])[k]? = some chunk →
      readShardPlaintext WholeFloat Crypto.sample ["vault"] (passphrase sampleEnv) sampleHost.files
        manifest.sorted k = .ok chunk := by
  obtain ⟨manifest, hid, hpublished⟩ := sampleHost_published
  refine ⟨manifest, fun tick => ?_, fun k chunk hchunk => ?_⟩
  · have hread := getManifest_published Crypto.sample ["vault"] _ _ (sampleApp.stamp tick) _ _
      hpublished
    rwa [hid] at hread
  · exact readShardPlaintext_published Crypto.sample ["vault"] _ _ _ _ hpublished k chunk hchunk

theorem sample_faultless : ∀ tick, sampleApp.fault tick = false := fun _ => rfl

/-- The thread that comes second is answered while the first one has only read the manifest. -/
theorem sample_second : ∃ receiptId s, finish (serve sampleApp)
      (program sampleApp (sampleShard 1 "fedcba9876543210")) (sampleAt 3) =
        (.ok (.content [3] receiptId), s) ∧
    SampleGood s ∧
      s.nonces = NonceCache.new.remember WholeFloat (hex sampleSecret, "fedcba9876543210") 5 := by
  obtain ⟨manifest, hfound, hread⟩ := sample_found
  have hgood : SampleGood (sampleAt 3) := sampleGood_at (by decide)
  have hverdict :
      verdict sampleApp (sampleAt 3).next (sampleRead 1 "fedcba9876543210") = .ok () := by
    rw [sampleAt_next]
    refine sample_verdict 1 rfl ?_ ?_ ?_
    all_goals simp only [sampleAt]
    · decide
    · decide
    · rfl
  have hshard := hread 1 [3] rfl
  rw [← hgood.vault] at hfound hshard
  obtain ⟨receiptId, s, hfinish, hsent⟩ := finish_shard sample_faultless hgood.room hgood.chained
    hgood.fresh (rfl : (sampleRead 1 "fedcba9876543210").purpose = "read:" ++ toString (1 : ℤ))
    (hfound _) hverdict hshard
  rw [sampleAt_next] at hsent
  exact ⟨receiptId, s, hfinish, sampleGood_sent (by decide) hsent⟩

/-- The thread that came first goes on. -/
theorem sample_first {s : ServiceState WholeFloat} {manifest : ModelManifest WholeFloat}
    (hread : ∀ (k : ℕ) chunk, (blocks 2 [1, 2, 3])[k]? = some chunk →
      readShardPlaintext WholeFloat Crypto.sample ["vault"] (passphrase sampleEnv) sampleHost.files
        manifest.sorted k = .ok chunk) (hgood : SampleGood s)
    (hnonces : s.nonces =
      NonceCache.new.remember WholeFloat (hex sampleSecret, "fedcba9876543210") 5) :
    ∃ receiptId s', finish (serve sampleApp) (checked sampleApp manifest.sorted
        (sampleRead 0 "0123456789abcdef") 0) s = (.ok (.content [1, 2] receiptId), s') ∧
      s'.host = sampleHost ∧ s'.rollbacks = 0 := by
  have hverdict : verdict sampleApp s (sampleRead 0 "0123456789abcdef") = .ok () := by
    have htick := hgood.tick
    refine sample_verdict 0 rfl (by omega) ?_ ?_
    all_goals rw [hnonces]
    · decide +kernel
    · decide +kernel
  have hshard := hread 0 [1, 2] rfl
  rw [← hgood.vault] at hshard
  have hfresh := hgood.fresh
  obtain ⟨receiptId, s', hfinish, hsent⟩ := finish_checked sample_faultless hgood.room hgood.chained
    (fun n hn => hfresh n (by omega)) hverdict hshard
  exact ⟨receiptId, s', hfinish, hsent.vault.1.trans hgood.vault,
    hsent.rollbacks.trans hgood.rollbacks⟩

def sampleConstructed : ServiceState WholeFloat :=
  (serve sampleApp sampleStart (.publish (.construct 4, 100))).2

def sampleCalls : List (Served WholeFloat) :=
  [⟨.vault (.construct 4, 100), sampleStart, .ok .called⟩,
    ⟨.vault sampleAdd, sampleConstructed, .ok .called⟩]

/-- The threads after the calls of the owner. -/
def sampleReady : Threads Party WholeFloat :=
  (System.start sampleStart).become .owner (sampleAt 2) ⟨sampleCalls, none⟩

theorem finish_vault (call : VaultCall WholeFloat × ℕ) (s : ServiceState WholeFloat) :
    finish (serve sampleApp) (program sampleApp (.vault call)) s =
      (.ok .called, (serve sampleApp s (.publish call)).2) := rfl

theorem serve_publish (call : VaultCall WholeFloat × ℕ) (s : ServiceState WholeFloat) :
    (serve sampleApp s (.publish call)).2 =
      ⟨(runCall Crypto.sample ["vault"] sampleEnv call s.host).2, s.made ++ [call], s.nonces,
        s.receipts, s.committed, s.rollbacks, s.tick + 1⟩ := rfl

theorem sampleAt_published :
    (serve sampleApp sampleConstructed (.publish sampleAdd)).2 = sampleAt 2 := by
  have hbefore : runCalls Crypto.sample ["vault"] sampleEnv Host.empty sampleBefore =
      (runCall Crypto.sample ["vault"] sampleEnv (.construct 4, 100) Host.empty).2 :=
    runCalls_concat [] _
  rw [serve_publish, sampleConstructed, serve_publish, sampleAt, sampleHost, runCalls_concat,
    hbefore]
  rfl

theorem sampleReady_reached : ∃ schedule, runAll (fun _ => serve sampleApp) (program sampleApp)
    (inTurn sampleRequests) (System.start sampleStart) schedule = sampleReady := by
  obtain ⟨first, hfirst⟩ : ∃ schedule, runAll (fun _ => serve sampleApp) (program sampleApp)
      (inTurn sampleRequests) (System.start sampleStart) schedule =
        (System.start sampleStart).become .owner sampleConstructed ⟨sampleCalls.take 1, none⟩ :=
    runAll_finish _ _ _ Party.owner _ [] (Request.vault (.construct 4, 100)) rfl rfl
  obtain ⟨second, hsecond⟩ := runAll_finish (fun _ => serve sampleApp) (program sampleApp)
    (inTurn sampleRequests) Party.owner ((System.start sampleStart).become .owner sampleConstructed
      ⟨sampleCalls.take 1, none⟩) (sampleCalls.take 1) (Request.vault sampleAdd)
      (become_process_self _ Party.owner _ _) rfl
  rw [become_shared, finish_vault, sampleAt_published, become_become, ← hfirst, ← runAll_append]
    at hsecond
  exact ⟨first ++ second, hsecond⟩

/-- The first thread has read the manifest. -/
def sampleBegun (manifest : ModelManifest WholeFloat) : Threads Party WholeFloat :=
  sampleReady.become .first (sampleAt 3) ⟨[], some ⟨sampleShard 0 "0123456789abcdef", sampleAt 2,
    checked sampleApp manifest.sorted (sampleRead 0 "0123456789abcdef") 0⟩⟩

theorem sampleBegun_reached {manifest : ModelManifest WholeFloat}
    (hfound : getManifest WholeFloat Crypto.sample ["vault"] sampleHost.files (sampleApp.stamp 2)
      "m" = .ok (some manifest.sorted)) :
    ∃ schedule, runAll (fun _ => serve sampleApp) (program sampleApp) (inTurn sampleRequests)
      sampleReady schedule = sampleBegun manifest := by
  have hvault : (sampleAt 2).host = sampleHost := by simp only [sampleAt]
  rw [← hvault] at hfound
  have hpurpose : (sampleRead 0 "0123456789abcdef").purpose = "read:" ++ toString (0 : ℤ) := rfl
  have hbegun := shard_begun (sampleAt 2) sample_faultless (sampleRead 0 "0123456789abcdef")
    hpurpose hfound
  rw [sampleAt_next] at hbegun
  exact runAll_begun _ _ _ Party.first sampleReady [] _
    (become_process_of_ne _ (by decide) _ _) rfl hbegun

/-- The second thread is answered before the first one goes on, and then the first one is. -/
theorem sample_interleaved : ∃ schedule, ∃ receipts : String × String, ∃ s,
    s.host = sampleHost ∧ s.rollbacks = 0 ∧
    ((runService sampleApp (inTurn sampleRequests) sampleStart schedule).process .first).finished =
      [⟨sampleShard 0 "0123456789abcdef", sampleAt 2, .ok (.content [1, 2] receipts.1)⟩] ∧
    ((runService sampleApp (inTurn sampleRequests) sampleStart schedule).process .second).finished =
      [⟨sampleShard 1 "fedcba9876543210", sampleAt 3, .ok (.content [3] receipts.2)⟩] ∧
    (runService sampleApp (inTurn sampleRequests) sampleStart schedule).shared = s := by
  obtain ⟨manifest, hfound, hread⟩ := sample_found
  obtain ⟨secondReceipt, s₂, hsecondAnswer, hgood, hnonces⟩ := sample_second
  obtain ⟨firstReceipt, s₃, hfirstAnswer, hhost, hrollbacks⟩ := sample_first hread hgood hnonces
  obtain ⟨added, hadded⟩ := sampleReady_reached
  obtain ⟨begun, hbegun⟩ := sampleBegun_reached (hfound 2)
  obtain ⟨second, hsecond⟩ := runAll_finish (fun _ => serve sampleApp) (program sampleApp)
    (inTurn sampleRequests) Party.second (sampleBegun manifest) []
    (sampleShard 1 "fedcba9876543210") rfl rfl
  have hshared : (sampleBegun manifest).shared = sampleAt 3 := become_shared _ _ _ _
  rw [hshared, hsecondAnswer] at hsecond
  obtain ⟨first, hfirst⟩ := runAll_resumed (fun _ => serve sampleApp) (program sampleApp)
    (inTurn sampleRequests) Party.first ((sampleBegun manifest).become .second s₂
      ⟨[⟨sampleShard 1 "fedcba9876543210", sampleAt 3, .ok (.content [3] secondReceipt)⟩], none⟩) []
    (sampleShard 0 "0123456789abcdef") rfl
  rw [become_shared, hfirstAnswer] at hfirst
  have hrun : runService sampleApp (inTurn sampleRequests) sampleStart
      (added ++ (begun ++ (second ++ first))) = ((sampleBegun manifest).become .second s₂
        ⟨[⟨sampleShard 1 "fedcba9876543210", sampleAt 3, .ok (.content [3] secondReceipt)⟩],
          none⟩).become .first s₃ ⟨[⟨sampleShard 0 "0123456789abcdef", sampleAt 2,
            .ok (.content [1, 2] firstReceipt)⟩], none⟩ := by
    rw [runService, runAll_append, hadded, runAll_append, hbegun, runAll_append, hsecond]
    exact hfirst
  refine ⟨added ++ (begun ++ (second ++ first)), (firstReceipt, secondReceipt), s₃, hhost,
    hrollbacks, ?_, ?_, ?_⟩
  all_goals rw [hrun]
  · rw [become_process_self]
  · rw [become_process_of_ne _ (by decide), become_process_self]
  · rw [become_shared]

/-- `service_right` for a run in which the request of the second thread comes while the first one
is between its operations. -/
theorem service_right_sample : ∃ schedule, ∃ receipts : String × String,
    ∃ f ∈ ((runService sampleApp (inTurn sampleRequests) sampleStart schedule).process
        .first).finished,
    ∃ g ∈ ((runService sampleApp (inTurn sampleRequests) sampleStart schedule).process
        .second).finished,
      Right sampleApp (runService sampleApp (inTurn sampleRequests) sampleStart schedule).shared
        f.began.tick f.call (.content [1, 2] receipts.1) ∧
      Right sampleApp (runService sampleApp (inTurn sampleRequests) sampleStart schedule).shared
        g.began.tick g.call (.content [3] receipts.2) ∧
      (runService sampleApp (inTurn sampleRequests) sampleStart schedule).shared.rollbacks = 0 := by
  obtain ⟨schedule, receipts, s, hhost, hrollbacks, hfirst, hsecond, hshared⟩ := sample_interleaved
  have huuid : Distinct sampleEnv (runService sampleApp (inTurn sampleRequests) sampleStart
      schedule).shared.host.tick := by
    rw [hshared, hhost]
    exact distinct_sample _ _ _ _ ((runCalls_tick_le Crypto.sample _ _).trans (by decide))
  obtain ⟨hright, -⟩ := service_right sampleApp (inTurn sampleRequests) sampleStart
    (fun _ _ => rfl) rfl rfl schedule huuid
  have hmem : ⟨sampleShard 0 "0123456789abcdef", sampleAt 2, .ok (.content [1, 2] receipts.1)⟩ ∈
      ((runService sampleApp (inTurn sampleRequests) sampleStart schedule).process
        .first).finished := by
    rw [hfirst]
    exact List.mem_singleton_self _
  have hmem' : ⟨sampleShard 1 "fedcba9876543210", sampleAt 3, .ok (.content [3] receipts.2)⟩ ∈
      ((runService sampleApp (inTurn sampleRequests) sampleStart schedule).process
        .second).finished := by
    rw [hsecond]
    exact List.mem_singleton_self _
  exact ⟨schedule, receipts, _, hmem, _, hmem', hright .first _ hmem _ rfl,
    hright .second _ hmem' _ rfl, by rw [hshared]; exact hrollbacks⟩

end Runs

end Decillion.ServiceRaces
