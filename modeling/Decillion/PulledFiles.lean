import Decillion.TelepathAnswers
import Decillion.TelepathPulls

/-!
What a pull does to the files of the client. Asking the peer changes no file, the loop writes
to the temporary file only, and the target changes by the last step that can fail. A pull that
raises leaves the target as it was; one that returns has stored the shards in their order.
-/
namespace Decillion.PulledFiles

open ByteText JsonValues JsonText Primitives PyErrors PyValues HostSystem AccessRequests
open ShardVault ShardCaches RaisingPrograms TelepathMessages TelepathFrames TelepathNodes
open JsonStrings Dictionaries TelepathSessions TelepathAnswers TelepathPulls

variable {σ F α β : Type} {w w' : World σ F}

/-- A computation that changes no file but one. -/
def Only (path : Path) (x : Pulling σ F α) : Prop :=
  ∀ w p, p ≠ path → (x w).2.files p = w.files p

/-- The same client, whose files are others. -/
def withFiles (w : World σ F) (files : Files) (writes : ℕ) : World σ F :=
  { w with files := files, writes := writes }

/-- A computation that neither looks at the files nor changes them. -/
def Oblivious (x : Pulling σ F α) : Prop :=
  ∀ w files writes, x (withFiles w files writes) = ((x w).1, withFiles (x w).2 files writes)

section Frames

variable {x : Pulling σ F α} {f : α → Pulling σ F β} {path : Path}

theorem Oblivious.files (h : Oblivious x) (w : World σ F) : (x w).2.files = w.files := by
  have hsame : (x w).2 = withFiles (x w).2 w.files w.writes :=
    congrArg Prod.snd (h w w.files w.writes)
  have hfiles : (x w).2.files = (withFiles (x w).2 w.files w.writes).files :=
    congrArg World.files hsame
  exact hfiles

theorem Oblivious.only (h : Oblivious x) : Only path x := fun w p _ => by rw [h.files w]

theorem oblivious_bind (hx : Oblivious x) (hf : ∀ a, Oblivious (f a)) : Oblivious (x >>= f) := by
  intro w files writes
  have hother := hx w files writes
  rcases hrun : x w with ⟨e | a, w₁⟩
  · rw [hrun] at hother
    rw [bind_error hrun, bind_error hother]
  · rw [hrun] at hother
    rw [bind_ok hrun, bind_ok hother, hf a w₁]

theorem only_bind (hx : Only path x) (hf : ∀ a, Only path (f a)) : Only path (x >>= f) := by
  intro w p hp
  have hkept := hx w p hp
  rcases hrun : x w with ⟨e | a, w₁⟩
  · rw [hrun] at hkept
    rwa [bind_error hrun]
  · rw [hrun] at hkept
    rw [bind_ok hrun, hf a w₁ p hp]
    exact hkept

theorem only_get {f : World σ F → Pulling σ F β} (hf : ∀ w, Only path (f w)) :
    Only path ((get : Pulling σ F (World σ F)) >>= f) := by
  intro w p hp
  rw [bind_get]
  exact hf w w p hp

theorem oblivious_pure (a : α) : Oblivious (pure a : Pulling σ F α) := fun _ _ _ => rfl

theorem oblivious_throw (e : PyError) : Oblivious (throw e : Pulling σ F α) := fun _ _ _ => rfl

theorem oblivious_lift (result : Except PyError α) :
    Oblivious (liftM result : Pulling σ F α) := fun _ _ _ => by cases result <;> rfl

theorem oblivious_onClient (y : Serving F α) : Oblivious (onClient y : Pulling σ F α) :=
  fun _ _ _ => rfl

theorem oblivious_exchange (network : Network σ) (frame : Bytes) :
    Oblivious (exchange network frame : Pulling σ F Bytes) := fun _ _ _ => rfl

theorem oblivious_cacheGet (key : String × String × ℤ) :
    Oblivious (cacheGet key : Pulling σ F (Option Bytes)) := fun _ _ _ => rfl

theorem oblivious_cachePut (key : String × String × ℤ) (data : Bytes) :
    Oblivious (cachePut key data : Pulling σ F Unit) := by
  intro w files writes
  rw [cachePut, bind_get, bind_get]
  have hcache : (withFiles w files writes).cache = w.cache := rfl
  rw [hcache]
  cases w.cache.put key data with
  | error e => rw [bind_lift_error, bind_lift_error]
  | ok cache =>
    rw [bind_lift_ok, bind_lift_ok]
    rfl

theorem oblivious_knownPeer (peer : String) : Oblivious (knownPeer peer : Pulling σ F Unit) := by
  intro w files writes
  rw [knownPeer, bind_get, bind_get]
  have hclient : (withFiles w files writes).client = w.client := rfl
  rw [hclient]
  cases (w.client.peers.get? peer).isNone <;> rfl

end Frames

section Writes

variable (machine : Machine) {path : Path}

/-- The world after one more operation on a file. -/
def touched (w : World σ F) (path : Path) (content : Option Bytes) : World σ F :=
  { w with files := Function.update w.files path content, writes := w.writes + 1 }

theorem attempt_cases (whole : Option Bytes) (part : ℕ → Option Bytes) (w : World σ F) :
    attempt machine path whole part w = (.ok (), touched w path whole) ∨
      ∃ count, attempt machine path whole part w =
        (.error .osError, touched w path (part count)) := by
  rw [attempt, bind_get, bind_change]
  dsimp only
  cases machine.spoiled w.writes with
  | none => exact Or.inl rfl
  | some count => exact Or.inr ⟨count, rfl⟩

theorem only_attempt (whole : Option Bytes) (part : ℕ → Option Bytes) :
    Only path (attempt machine path whole part : Pulling σ F Unit) := by
  intro w p hp
  rcases attempt_cases machine whole part w with h | ⟨count, h⟩
  · rw [h]
    exact Function.update_of_ne hp _ _
  · rw [h]
    exact Function.update_of_ne hp _ _

theorem only_openFile : Only path (openFile machine path : Pulling σ F Unit) :=
  only_get (fun _ => only_attempt machine _ _)

theorem only_closeFile : Only path (closeFile machine path : Pulling σ F Unit) :=
  only_get (fun _ => only_attempt machine _ _)

theorem openFile_ok {u : Unit} (h : openFile machine path w = (.ok u, w')) :
    w' = touched w path (some []) := by
  rw [openFile, bind_get] at h
  rcases attempt_cases machine (some []) (fun _ => w.files path) w with h' | ⟨count, h'⟩
  · rw [h'] at h
    exact (Prod.mk.inj h).2.symm
  · rw [h'] at h
    cases h

theorem writeFile_ok {content : Bytes} {u : Unit}
    (h : writeFile machine path content w = (.ok u, w')) :
    w' = touched w path (some content) := by
  rw [writeFile] at h
  rcases attempt_cases machine (some content) (fun count => some (content.take count)) w with
    h' | ⟨count, h'⟩
  · rw [h'] at h
    exact (Prod.mk.inj h).2.symm
  · rw [h'] at h
    cases h

theorem closeFile_ok {u : Unit} (h : closeFile machine path w = (.ok u, w')) :
    w' = touched w path (w.files path) := by
  rw [closeFile, bind_get] at h
  rcases attempt_cases machine (w.files path)
    (fun count => (w.files path).map (List.take count)) w with h' | ⟨count, h'⟩
  · rw [h'] at h
    exact (Prod.mk.inj h).2.symm
  · rw [h'] at h
    cases h

theorem only_withFile {body : Pulling σ F α} (h : Only path body) :
    Only path (withFile machine path body) := by
  apply only_bind (only_openFile machine)
  intro _ w p hp
  unfold closing
  have hclosed := only_closeFile machine (body w).2 p hp
  rw [h w p hp] at hclosed
  rcases hclose : closeFile machine path (body w).2 with ⟨e | u, w'⟩
  · rw [hclose] at hclosed
    exact hclosed
  · rw [hclose] at hclosed
    exact hclosed

/-- A file that has been written without an exception holds what its body has written. -/
theorem withFile_ok {body : Pulling σ F α} {a : α}
    (h : withFile machine path body w = (.ok a, w')) :
    ∃ w₁, body (touched w path (some [])) = (.ok a, w₁) ∧
      w' = touched w₁ path (w₁.files path) := by
  rw [withFile] at h
  rcases hopen : openFile machine path w with ⟨e | u, w₀⟩
  · rw [bind_error hopen] at h
    cases h
  · obtain rfl := openFile_ok machine hopen
    rw [bind_ok hopen, closing] at h
    rcases hclose : closeFile machine path (body (touched w path (some []))).2 with ⟨e | u, w₂⟩
    · rw [hclose] at h
      cases h
    · rw [hclose] at h
      obtain ⟨hresult, rfl⟩ := Prod.mk.inj h
      exact ⟨(body (touched w path (some []))).2, Prod.ext hresult rfl,
        closeFile_ok machine hclose⟩

/-- Only the files of the client have changed between two fetches. -/
def SameFetching (w w' : World σ F) : Prop :=
  w'.client = w.client ∧ w'.cache = w.cache ∧ w'.network = w.network

theorem SameFetching.refl (w : World σ F) : SameFetching w w := ⟨rfl, rfl, rfl⟩

theorem sameFetching_touched (w : World σ F) (path : Path) (content : Option Bytes) :
    SameFetching w (touched w path content) := ⟨rfl, rfl, rfl⟩

theorem SameFetching.trans {w w₁ w₂ : World σ F} (h : SameFetching w w₁)
    (h' : SameFetching w₁ w₂) : SameFetching w w₂ :=
  ⟨h'.1.trans h.1, h'.2.1.trans h.2.1, h'.2.2.trans h.2.2⟩

theorem moveFile_ok {source : Path} (target : Path) {content : Bytes}
    (h : w.files source = some content) :
    moveFile source target w = (.ok (), { w with
      files := Function.update (Function.update w.files source none) target (some content) }) := by
  rw [moveFile, bind_get, h]
  rfl

theorem finallyRemove_run {path : Path} {body : Pulling σ F α} {result : Except PyError α}
    {w w₁ : World σ F} (h : body w = (result, w₁)) :
    finallyRemove path body w =
      (result, { w₁ with files := Function.update w₁.files path none }) := by
  rw [finallyRemove, h]

theorem obj_of_item {initial value : Json F} {key : String} (h : item initial key = .ok value) :
    ∃ members, initial = .obj members := by
  cases initial with
  | obj members => exact ⟨members, rfl⟩
  | null => cases h
  | bool _ => cases h
  | int _ => cases h
  | float _ => cases h
  | str _ => cases h
  | list _ => cases h

end Writes

variable [FloatText F] [FloatTime F] [FloatNumber F] [FloatConversion F] (node : Node F)
  (network : Network σ) (machine : Machine)

theorem oblivious_request (message : Message F) (expectedSender : Option String) :
    Oblivious (request node network message expectedSender) := by
  apply oblivious_bind (oblivious_lift _)
  intro frame
  apply oblivious_bind (oblivious_exchange _ _)
  intro stream
  exact oblivious_onClient _

theorem oblivious_ask (peer kind : String) (payload : Members F) :
    Oblivious (ask node network peer kind payload) := by
  apply oblivious_bind (oblivious_knownPeer peer)
  intro _
  apply oblivious_bind (oblivious_onClient _)
  intro message
  exact oblivious_request node network _ _

theorem oblivious_openSession (peer modelId : String) (budgetShards ttl : ℤ) :
    Oblivious (openSession node network peer modelId budgetShards ttl) := by
  apply oblivious_bind (oblivious_ask node network _ _ _)
  intro response
  split
  · exact oblivious_bind (oblivious_lift _) (fun _ => oblivious_throw _)
  · exact oblivious_pure _

theorem oblivious_fetchRemote (peer modelId : String) (sessionId : Json F) (index : ℤ) :
    Oblivious (fetchRemote node network peer modelId sessionId index) := by
  apply oblivious_bind (oblivious_ask node network _ _ _)
  intro response
  split
  · exact oblivious_bind (oblivious_lift _) (fun _ => oblivious_throw _)
  · apply oblivious_bind (oblivious_lift _)
    intro payload
    apply oblivious_bind (oblivious_lift _)
    intro data
    apply oblivious_bind (oblivious_lift _)
    intro plaintextHash
    split
    · exact oblivious_throw _
    · apply oblivious_bind (oblivious_cachePut _ _)
      intro _
      exact oblivious_bind (oblivious_onClient _) (fun _ => oblivious_pure _)

theorem oblivious_fetchShard (peer modelId : String) (sessionId : Json F) (index : ℤ) :
    Oblivious (fetchShard node network peer modelId sessionId index) := by
  apply oblivious_bind (oblivious_cacheGet _)
  intro found
  split
  · exact oblivious_pure _
  · exact oblivious_fetchRemote node network peer modelId sessionId index

section Loop

variable (peer modelId : String) (initial : Json F) {temporary : Path}

theorem only_fetchShards (indices : List ℕ) (written : Bytes) :
    Only temporary
      (fetchShards node network machine peer modelId initial temporary indices written) := by
  induction indices generalizing written with
  | nil => exact (oblivious_pure _).only
  | cons index rest ih =>
    apply only_bind (oblivious_lift _).only
    intro sessionId
    apply only_bind (oblivious_fetchShard node network peer modelId sessionId index).only
    intro chunk
    exact only_bind (only_attempt machine _ _) (fun _ => ih _)

/-- The shards of the given indices are fetched one after another. -/
def Fetches : List ℕ → List Bytes → World σ F → World σ F → Prop
  | [], [], w, w' => SameFetching w w'
  | index :: rest, chunk :: chunks, w, w' => ∃ sessionId w₁ w₂, SameFetching w w₁ ∧
      item initial "session_id" = .ok sessionId ∧
      fetchShard node network peer modelId sessionId index w₁ = (.ok chunk, w₂) ∧
      Fetches rest chunks w₂ w'
  | _, _, _, _ => False

theorem Fetches.before {indices : List ℕ} {chunks : List Bytes} {w w₁ w' : World σ F}
    (hsame : SameFetching w w₁)
    (h : Fetches node network peer modelId initial indices chunks w₁ w') :
    Fetches node network peer modelId initial indices chunks w w' := by
  match indices, chunks with
  | [], [] => exact hsame.trans h
  | _ :: _, _ :: _ =>
    obtain ⟨sessionId, w₂, w₃, hfirst, hrest⟩ := h
    exact ⟨sessionId, w₂, w₃, hsame.trans hfirst, hrest⟩

theorem Fetches.length_eq {indices : List ℕ} {chunks : List Bytes} {w w' : World σ F}
    (h : Fetches node network peer modelId initial indices chunks w w') :
    chunks.length = indices.length := by
  induction indices generalizing chunks w with
  | nil =>
    cases chunks with
    | nil => rfl
    | cons chunk chunks => exact h.elim
  | cons index rest ih =>
    cases chunks with
    | nil => exact h.elim
    | cons chunk chunks =>
      obtain ⟨_, _, _, _, _, _, hrest⟩ := h
      rw [List.length_cons, List.length_cons, ih hrest]

/-- What the loop returns is what it has written: the shards, one after another. -/
theorem fetchShards_ok {indices : List ℕ} {written content : Bytes} {w w' : World σ F}
    (hwritten : w.files temporary = some written)
    (h : fetchShards node network machine peer modelId initial temporary indices written w =
      (.ok content, w')) :
    w'.files temporary = some content ∧
      ∃ chunks, content = written ++ chunks.flatten ∧
        Fetches node network peer modelId initial indices chunks w w' := by
  induction indices generalizing written w with
  | nil =>
    obtain ⟨hcontent, rfl⟩ := Prod.mk.inj h
    obtain rfl := Except.ok.inj hcontent
    exact ⟨hwritten, [], by simp, SameFetching.refl w⟩
  | cons index rest ih =>
    rw [fetchShards] at h
    cases hsession : item initial "session_id" with
    | error e =>
      rw [hsession, bind_lift_error] at h
      cases h
    | ok sessionId =>
      rw [hsession, bind_lift_ok] at h
      rcases hfetch : fetchShard node network peer modelId sessionId index w with ⟨e | chunk, w₁⟩
      · rw [bind_error hfetch] at h
        cases h
      · rw [bind_ok hfetch] at h
        rcases hwrite : writeFile machine temporary (written ++ chunk) w₁ with ⟨e | u, w₂⟩
        · rw [bind_error hwrite] at h
          cases h
        · rw [bind_ok hwrite] at h
          obtain rfl := writeFile_ok machine hwrite
          obtain ⟨hfile, chunks, hcontent, hfetches⟩ := ih (Function.update_self _ _ _) h
          refine ⟨hfile, chunk :: chunks, ?_, sessionId, w, w₁, SameFetching.refl w, hsession,
            hfetch, hfetches.before node network peer modelId initial
              (sameFetching_touched _ _ _)⟩
          rw [hcontent, List.flatten_cons, List.append_assoc]

/-- The shards that the peer has promised are in the temporary file, and nothing else is new. -/
theorem receiveShards_ok {content : Bytes} {w w' : World σ F}
    (h : receiveShards node network machine peer modelId initial temporary w =
      (.ok content, w')) :
    w'.files = Function.update w.files temporary (some content) ∧
      ∃ count nShards chunks w₁, item initial "n_shards" = .ok count ∧
        toInt node.repr count = .ok nShards ∧ content = chunks.flatten ∧
        Fetches node network peer modelId initial (List.range nShards.toNat) chunks w w₁ ∧
        SameFetching w₁ w' := by
  obtain ⟨w₁, hbody, rfl⟩ := withFile_ok machine h
  cases hcount : item initial "n_shards" with
  | error e =>
    rw [hcount, bind_lift_error] at hbody
    cases hbody
  | ok count =>
    rw [hcount, bind_lift_ok] at hbody
    cases hshards : toInt node.repr count with
    | error e =>
      rw [hshards, bind_lift_error] at hbody
      cases hbody
    | ok nShards =>
      rw [hshards, bind_lift_ok] at hbody
      obtain ⟨hfile, chunks, hcontent, hfetches⟩ := fetchShards_ok node network machine peer
        modelId initial (Function.update_self _ _ _) hbody
      have hother : Only temporary (fetchShards node network machine peer modelId initial temporary
          (List.range nShards.toNat) []) :=
        only_fetchShards node network machine peer modelId initial _ _
      replace hother := hother (touched w temporary (some []))
      rw [hbody] at hother
      refine ⟨?_, count, nShards, chunks, w₁, rfl, hshards, hcontent,
        hfetches.before node network peer modelId initial (sameFetching_touched _ _ _),
        sameFetching_touched _ _ _⟩
      funext p
      change Function.update w₁.files temporary (w₁.files temporary) p = _
      by_cases hp : p = temporary
      · rw [hp, Function.update_self, Function.update_self, hfile]
      · rw [Function.update_of_ne hp, Function.update_of_ne hp]
        exact (hother p hp).trans (Function.update_of_ne hp _ _)

theorem only_receiveShards :
    Only temporary (receiveShards node network machine peer modelId initial temporary) := by
  apply only_withFile
  apply only_bind (oblivious_lift _).only
  intro count
  apply only_bind (oblivious_lift _).only
  intro nShards
  exact only_fetchShards node network machine peer modelId initial _ _

/-- What the announced hash of a file asks of its content. -/
def Announced (initial : Json F) (content : Bytes) : Prop :=
  ∀ text, initial.get? "file_sha256" = some (.str text) → text ≠ "" →
    node.sha.hexdigest content = text

theorem receiveModel_error {target : Path} {e : PyError} {w w' : World σ F}
    (h : receiveModel node network machine peer modelId initial temporary target w =
      (.error e, w')) (p : Path) (hp : p ≠ temporary) : w'.files p = w.files p := by
  have honly := only_receiveShards node network machine peer modelId initial w p hp
  rw [receiveModel] at h
  rcases hreceive : receiveShards node network machine peer modelId initial temporary w with
    ⟨e' | content, w₁⟩
  · rw [hreceive] at honly
    rw [bind_error hreceive] at h
    rwa [← (Prod.mk.inj h).2]
  · obtain ⟨hfiles, -⟩ := receiveShards_ok node network machine peer modelId initial hreceive
    rw [hreceive] at honly
    rw [bind_ok hreceive] at h
    cases hmember : member initial "file_sha256" .null with
    | error e' =>
      rw [hmember, bind_lift_error] at h
      rwa [← (Prod.mk.inj h).2]
    | ok expected =>
      rw [hmember, bind_lift_ok] at h
      split at h
      · rwa [← (Prod.mk.inj h).2]
      · have hfile : w₁.files temporary = some content := by rw [hfiles, Function.update_self]
        have hmove := moveFile_ok target hfile
        rw [bind_ok hmove] at h
        cases h

theorem receiveModel_ok {target : Path} {total : ℕ} {w w' : World σ F}
    (h : receiveModel node network machine peer modelId initial temporary target w =
      (.ok total, w')) :
    ∃ count nShards chunks w₁, item initial "n_shards" = .ok count ∧
      toInt node.repr count = .ok nShards ∧
      Fetches node network peer modelId initial (List.range nShards.toNat) chunks w w₁ ∧
      total = chunks.flatten.length ∧ Announced node initial chunks.flatten ∧
      SameFetching w₁ w' ∧
      w'.files = Function.update (Function.update w.files temporary none) target
        (some chunks.flatten) := by
  rw [receiveModel] at h
  rcases hreceive : receiveShards node network machine peer modelId initial temporary w with
    ⟨e | content, w₁⟩
  · rw [bind_error hreceive] at h
    cases h
  · obtain ⟨hfiles, count, nShards, chunks, w₂, hcount, hshards, rfl, hfetches, hsame⟩ :=
      receiveShards_ok node network machine peer modelId initial hreceive
    rw [bind_ok hreceive] at h
    cases hmember : member initial "file_sha256" .null with
    | error e =>
      rw [hmember, bind_lift_error] at h
      cases h
    | ok expected =>
      rw [hmember, bind_lift_ok] at h
      split at h
      · cases h
      · rename_i hright
        have hfile : w₁.files temporary = some chunks.flatten := by
          rw [hfiles, Function.update_self]
        have hmove := moveFile_ok target hfile
        rw [bind_ok hmove] at h
        obtain ⟨htotal, rfl⟩ := Prod.mk.inj h
        obtain rfl := Except.ok.inj htotal
        refine ⟨count, nShards, chunks, w₂, hcount, hshards, hfetches, rfl, ?_, hsame, ?_⟩
        · intro text htext hne
          obtain ⟨members, rfl, hexpected⟩ := member_eq_ok.mp hmember
          change members.lookup "file_sha256" = some (.str text) at htext
          rw [field, htext] at hexpected
          obtain rfl : Json.str text = expected := hexpected
          by_contra hother
          refine hright ⟨decide_eq_true hne, decide_eq_false ?_⟩
          exact fun heq => hother heq.symm
        · change Function.update (Function.update w₁.files temporary none) target _ = _
          rw [hfiles, Function.update_idem]

end Loop

section Pulls

variable (peer modelId : String) (destination : Path)

theorem target_ne_temporary :
    targetFile destination modelId ≠ temporaryFile destination modelId := by
  intro heq
  exact absurd (List.append_cancel_left heq) (by decide)

omit [FloatText F] [FloatNumber F] [FloatConversion F] in
/-- A receipt leaves the client as it is. -/
theorem receipt_run (kind modelId actor : String) (payload : Members F) (w : World σ F) :
    ∃ answer : Except PyError Unit,
      onClient (node.receipt kind modelId actor payload) w = (answer, w) := by
  rw [onClient, Node.receipt]
  cases node.receipts with
  | none => exact ⟨.ok (), rfl⟩
  | some emit => exact ⟨emit w.client.tick kind modelId actor payload, rfl⟩

/-- A pull that raises, of a node that writes no receipts. -/
theorem pull_error (hreceipts : node.receipts = none) {e : PyError} {w w' : World σ F}
    (h : pullModel node network machine peer modelId destination w = (.error e, w')) :
    w'.files = w.files ∨
      w'.files (temporaryFile destination modelId) = none ∧
        ∀ p, p ≠ temporaryFile destination modelId → w'.files p = w.files p := by
  rw [pullModel] at h
  have hkept := (oblivious_openSession node network peer modelId 1000000 3600).files w
  rcases hopen : openSession node network peer modelId 1000000 3600 w with ⟨e' | initial, w₀⟩
  · rw [hopen] at hkept
    rw [bind_error hopen] at h
    rw [← (Prod.mk.inj h).2]
    exact Or.inl hkept
  · rw [hopen] at hkept
    rw [bind_ok hopen, pullSession] at h
    cases hmkdir : machine.mkdir (targetDirectory destination modelId) with
    | error e' =>
      rw [hmkdir, bind_lift_error] at h
      rw [← (Prod.mk.inj h).2]
      exact Or.inl hkept
    | ok u =>
      rw [hmkdir, bind_lift_ok] at h
      rcases hreceive : receiveModel node network machine peer modelId initial
        (temporaryFile destination modelId) (targetFile destination modelId) w₀ with
        ⟨e' | total, w₁⟩
      · rw [bind_error (finallyRemove_run hreceive)] at h
        rw [← (Prod.mk.inj h).2]
        refine Or.inr ⟨Function.update_self _ _ _, fun p hp => ?_⟩
        refine (Function.update_of_ne hp _ _).trans ?_
        rw [receiveModel_error node network machine peer modelId initial hreceive p hp]
        exact congrFun hkept p
      · rw [bind_ok (finallyRemove_run hreceive)] at h
        obtain ⟨count, nShards, chunks, w₂, hcount, -⟩ :=
          receiveModel_ok node network machine peer modelId initial hreceive
        obtain ⟨members, rfl⟩ := obj_of_item hcount
        have hreceipt : ∀ w₃ : World σ F, onClient (node.receipt "telepath.model_pulled" modelId
            peer [("bytes", .int total), ("path", .str (machine.spell
              (targetFile destination modelId)))]) w₃ = (.ok (), w₃) := by
          intro w₃
          rw [onClient, Node.receipt, hreceipts]
        rw [bind_ok (hreceipt _)] at h
        cases h

/-- What a pull leaves that returns. -/
theorem pull_ok {result : Members F} {w w' : World σ F}
    (h : pullModel node network machine peer modelId destination w = (.ok result, w')) :
    ∃ initial w₀ count nShards chunks w₁,
      openSession node network peer modelId 1000000 3600 w = (.ok initial, w₀) ∧
      item initial "n_shards" = .ok count ∧ toInt node.repr count = .ok nShards ∧
      Fetches node network peer modelId initial (List.range nShards.toNat) chunks w₀ w₁ ∧
      Announced node initial chunks.flatten ∧
      pullResult modelId (machine.spell (targetFile destination modelId))
        chunks.flatten.length initial = .ok result ∧
      SameFetching w₁ w' ∧
      w'.files = Function.update (Function.update w.files
        (temporaryFile destination modelId) none) (targetFile destination modelId)
        (some chunks.flatten) := by
  rw [pullModel] at h
  have hkept := (oblivious_openSession node network peer modelId 1000000 3600).files w
  rcases hopen : openSession node network peer modelId 1000000 3600 w with ⟨e | initial, w₀⟩
  · rw [bind_error hopen] at h
    cases h
  · rw [hopen] at hkept
    rw [bind_ok hopen, pullSession] at h
    cases hmkdir : machine.mkdir (targetDirectory destination modelId) with
    | error e =>
      rw [hmkdir, bind_lift_error] at h
      cases h
    | ok u =>
      rw [hmkdir, bind_lift_ok] at h
      rcases hreceive : receiveModel node network machine peer modelId initial
        (temporaryFile destination modelId) (targetFile destination modelId) w₀ with
        ⟨e | total, w₁⟩
      · rw [bind_error (finallyRemove_run hreceive)] at h
        cases h
      · rw [bind_ok (finallyRemove_run hreceive)] at h
        obtain ⟨count, nShards, chunks, w₂, hcount, hshards, hfetches, rfl, hannounced, hsame,
          hfiles⟩ := receiveModel_ok node network machine peer modelId initial hreceive
        rcases hreceipt : onClient (node.receipt "telepath.model_pulled" modelId peer
          [("bytes", .int chunks.flatten.length), ("path", .str (machine.spell
            (targetFile destination modelId)))])
          ({ w₁ with files := Function.update w₁.files (temporaryFile destination modelId) none })
          with ⟨e | u, w₃⟩
        · rw [bind_error hreceipt] at h
          cases h
        · rw [bind_ok hreceipt] at h
          obtain ⟨answer, hsame₃⟩ := receipt_run node "telepath.model_pulled" modelId peer
            [("bytes", .int chunks.flatten.length), ("path", .str (machine.spell
              (targetFile destination modelId)))]
            ({ w₁ with files := Function.update w₁.files (temporaryFile destination modelId) none })
          rw [hreceipt] at hsame₃
          obtain ⟨-, rfl⟩ := Prod.mk.inj hsame₃
          obtain ⟨hresult, rfl⟩ := Prod.mk.inj h
          refine ⟨initial, w₀, count, nShards, chunks, w₂, rfl, hcount, hshards, hfetches,
            hannounced, hresult, hsame, ?_⟩
          change Function.update w₁.files _ none = _
          rw [hfiles, Function.update_comm (target_ne_temporary modelId destination),
            Function.update_idem]
          have hfiles₀ : w₀.files = w.files := hkept
          rw [hfiles₀]

end Pulls

end Decillion.PulledFiles
