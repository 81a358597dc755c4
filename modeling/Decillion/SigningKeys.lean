import Decillion.Interleavings
import Decillion.PyErrors

/-!
The key that signs receipts, kept in a file that processes create at the same time. Every
process writes a key of its own to a temporary file and links that file to the path, which
fails when the path is taken. The state also says which process has made a temporary file
and not removed it; no operation reads it. Every operation may fail, and a write that fails
may leave a part of its data.
-/
namespace Decillion.SigningKeys

open ByteText Programs PyErrors Interleavings

/-- The octets of an Ed25519 key. -/
abbrev Secret := {octets : Bytes // octets.length = 32}

structure ReceiptSigner where
  privateKey : Secret
deriving DecidableEq

inductive KeyOp where
  | mkdir (dir : Path)
  | pathExists (path : Path)
  | readBytes (path : Path)
  | generate
  | mkstemp (dir : Path) (start : String)
  | write (path : Path) (value : Bytes)
  | chmod (path : Path)
  | link (source target : Path)
  | osPathExists (path : Path)
  | unlink (path : Path)

def Resp : KeyOp → Type
  | .mkdir _ => Except PyError Unit
  | .pathExists _ => Except PyError Bool
  | .readBytes _ => Except PyError Bytes
  | .generate => Secret
  | .mkstemp _ _ => Except PyError Path
  | .write _ _ => Except PyError Unit
  | .chmod _ => Except PyError Unit
  | .link _ _ => Except PyError Unit
  | .osPathExists _ => Bool
  | .unlink _ => Except PyError Unit

variable {ι α : Type}

structure KeyHost (ι : Type) where
  files : Path → Option Bytes
  owner : Path → Option ι
  tick : ℕ

def KeyHost.start (ι : Type) (files : Path → Option Bytes) : KeyHost ι := ⟨files, fun _ => none, 0⟩

/-- What reading a file answers. -/
def KeyHost.content (s : KeyHost ι) (path : Path) : Except PyError Bytes :=
  match s.files path with
  | none => .error .fileNotFound
  | some content => .ok content

theorem content_eq_ok {s : KeyHost ι} {path : Path} {content : Bytes}
    (h : s.content path = .ok content) : s.files path = some content := by
  unfold KeyHost.content at h
  split at h
  · simp at h
  · rename_i found hfound
    rw [hfound, Except.ok.inj h]

def KeyHost.next (s : KeyHost ι) : KeyHost ι := { s with tick := s.tick + 1 }

def KeyHost.put (s : KeyHost ι) (path : Path) (value : Option Bytes) : KeyHost ι :=
  { s with files := Function.update s.files path value, tick := s.tick + 1 }

def KeyHost.own (s : KeyHost ι) (path : Path) (owner : Option ι) : KeyHost ι :=
  { s with owner := Function.update s.owner path owner }

/-- What happens at every tick, chosen in advance and arbitrarily. -/
structure KeyEnv where
  fault : ℕ → Bool
  written : ℕ → ℕ
  tempName : ℕ → String
  secret : ℕ → Secret

def tempPath (env : KeyEnv) (dir : Path) (start : String) (tick : ℕ) : Path :=
  dir ++ [start ++ env.tempName tick]

def handle (me : ι) (env : KeyEnv) : Handler KeyOp Resp (KeyHost ι)
  | s, .mkdir _ => (if env.fault s.tick then .error .osError else .ok (), s.next)
  | s, .pathExists path =>
      (if env.fault s.tick then .error .osError else .ok (s.files path).isSome, s.next)
  | s, .readBytes path =>
      (if env.fault s.tick then .error .osError else s.content path, s.next)
  | s, .generate => (env.secret s.tick, s.next)
  | s, .mkstemp dir start =>
      if env.fault s.tick then (.error .osError, s.next)
      else if s.files (tempPath env dir start s.tick) ≠ none then (.error (.fileExists ""), s.next)
      else (.ok (tempPath env dir start s.tick),
        (s.put (tempPath env dir start s.tick) (some [])).own
          (tempPath env dir start s.tick) (some me))
  | s, .write path value =>
      if env.fault s.tick then
        (.error .osError, s.put path (some (value.take (env.written s.tick))))
      else (.ok (), s.put path (some value))
  | s, .chmod _ => (if env.fault s.tick then .error .osError else .ok (), s.next)
  | s, .link source target =>
      if env.fault s.tick then (.error .osError, s.next)
      else if s.files target ≠ none then (.error (.fileExists ""), s.next)
      else match s.files source with
        | none => (.error .fileNotFound, s.next)
        | some content => (.ok (), s.put target (some content))
  | s, .osPathExists path => (if env.fault s.tick then false else (s.files path).isSome, s.next)
  | s, .unlink path =>
      if env.fault s.tick then (.error .osError, s.next)
      else match s.files path with
        | none => (.error .fileNotFound, s.next)
        | some _ => (.ok (), (s.put path none).own path none)

abbrev KeyAct (α : Type) := Action KeyOp Resp PyError α

/-- `Ed25519PrivateKey.from_private_bytes(octets)` -/
def fromPrivateBytes (octets : Bytes) : Except PyError ReceiptSigner :=
  if h : octets.length = 32 then .ok ⟨⟨octets, h⟩⟩
  else .error (.valueError "An Ed25519 private key is 32 bytes long")

/-- The signer whose key a file holds. -/
def readSigner (path : Path) : KeyAct ReceiptSigner := do
  let octets ← orRaise (perform (KeyOp.readBytes path))
  fromExcept (fromPrivateBytes octets)

/-- The temporary file gets the key and is linked; a file that is there is read instead. -/
def publish (path temporary : Path) (secret : Secret) : KeyAct ReceiptSigner := do
  orRaise (perform (KeyOp.write temporary secret.val))
  orRaise (perform (KeyOp.chmod temporary))
  match ← perform (KeyOp.link temporary path) with
  | .ok () => return ⟨secret⟩
  | .error (.fileExists _) => readSigner path
  | .error e => throw e

def osPathExists (path : Path) : KeyAct Bool := perform (KeyOp.osPathExists path)

def removeTemporary (temporary : Path) : KeyAct Unit := do
  if ← osPathExists temporary then orRaise (perform (KeyOp.unlink temporary))

def loadOrCreate (path : Path) : KeyAct ReceiptSigner := do
  orRaise (perform (KeyOp.mkdir path.dropLast))
  if ← orRaise (perform (KeyOp.pathExists path)) then readSigner path
  else
    let secret ← perform KeyOp.generate
    let temporary ← orRaise (perform (KeyOp.mkstemp path.dropLast ".signing-"))
    tryFinally (publish path temporary secret) (removeTemporary temporary)

section Calls

variable {path : Path} {me : ι} {env : KeyEnv}

/-- A file that is at the path stays as it is. -/
def Keeps (path : Path) (s s' : KeyHost ι) : Prop :=
  ∀ content, s.files path = some content → s'.files path = some content

/-- The others leave the file at the path and the temporary files of a process alone. -/
structure Undisturbed (path : Path) (me : ι) (s s' : KeyHost ι) : Prop where
  owned : ∀ p, s.owner p = some me → s'.owner p = some me ∧ s'.files p = s.files p
  kept : Keeps path s s'

instance : IsPreorder (KeyHost ι) (Undisturbed path me) where
  refl _ := ⟨fun _ h => ⟨h, rfl⟩, fun _ h => h⟩
  trans _ _ _ h h' := by
    refine ⟨fun p hp => ?_, fun content hcontent => h'.kept _ (h.kept _ hcontent)⟩
    obtain ⟨hp₁, hfile⟩ := h.owned p hp
    obtain ⟨hp₂, hfile'⟩ := h'.owned p hp₁
    exact ⟨hp₂, hfile'.trans hfile⟩

/-- A process changes its own temporary files only and links one of them to the path. -/
def May (path : Path) (me : ι) (env : KeyEnv) (s : KeyHost ι) : KeyOp → Prop
  | .mkstemp dir start => tempPath env dir start s.tick ≠ path
  | .write p _ => s.owner p = some me ∧ p ≠ path
  | .link source target => target = path ∧ s.owner source = some me
  | .unlink p => s.owner p = some me ∧ p ≠ path
  | _ => True

/-- A call that is safe among calls of the others. -/
abbrev SafeKey (path : Path) (me : ι) (env : KeyEnv) (post : α → KeyHost ι → Prop)
    (p : Prog KeyOp Resp α) (s : KeyHost ι) : Prop :=
  Safe (handle me env) (Undisturbed path me) (fun _ _ => True) (May path me env) post p s

/-- What is returned is the key in the file. -/
def Stored (path : Path) (result : Except PyError ReceiptSigner) (s : KeyHost ι) : Prop :=
  ∀ signer, result = .ok signer → s.files path = some signer.privateKey.val

theorem Stored.later {result : Except PyError ReceiptSigner} {s s' : KeyHost ι}
    (h : Stored path result s) (hkept : Keeps path s s') : Stored path result s' :=
  fun signer hsigner => hkept _ (h signer hsigner)

theorem stored_error (e : PyError) (s : KeyHost ι) :
    Stored path (.error e : Except PyError ReceiptSigner) s := fun _ h => by simp at h

theorem owned_later {p : Path} {s s' : KeyHost ι} (h : s.owner p = some me)
    (hrely : Undisturbed path me s s') : s'.owner p = some me := (hrely.owned p h).1

theorem safe_perform (op : KeyOp) {post : Except PyError (Resp op) → KeyHost ι → Prop}
    (s : KeyHost ι) (hmay : ∀ s', Undisturbed path me s s' → May path me env s' op)
    (h : ∀ s₁ s', Undisturbed path me s s₁ → Undisturbed path me (handle me env s₁ op).2 s' →
      post (.ok (handle me env s₁ op).1) s') :
    SafeKey path me env post (perform op : KeyAct (Resp op)) s :=
  fun s₁ h₁ => ⟨hmay s₁ h₁, fun _ s' h' => h s₁ s' h₁ h'⟩

theorem safe_orRaise {post : Except PyError α → KeyHost ι → Prop}
    (x : KeyAct (Except PyError α)) (s : KeyHost ι)
    (h : SafeKey path me env (fun result s =>
      match result with
      | .ok answer => ∀ s', Undisturbed path me s s' → post answer s'
      | .error e => ∀ s', Undisturbed path me s s' → post (.error e) s') x s) :
    SafeKey path me env post (orRaise x) s := by
  apply safe_then
  apply safe_mono x s h
  intro result s' hs'
  match result, hs' with
  | .ok (.ok a), hs' => exact hs'
  | .ok (.error e), hs' => exact hs'
  | .error e, hs' => exact hs'

/-- An operation that changes nothing but the tick. -/
theorem safe_quiet (op : KeyOp) (answer : KeyHost ι → Except PyError α)
    {x : KeyAct (Except PyError α)} {post : Except PyError α → KeyHost ι → Prop} (s : KeyHost ι)
    (hx : ∀ post' : Except PyError (Except PyError α) → KeyHost ι → Prop,
      (∀ s₁ s', Undisturbed path me s s₁ → Undisturbed path me (handle me env s₁ op).2 s' →
        post' (.ok (answer s₁)) s') → SafeKey path me env post' x s)
    (hop : ∀ s₁, (handle me env s₁ op).2 = s₁.next)
    (h : ∀ s₁ s', Undisturbed path me s s₁ → Undisturbed path me s₁ s' → post (answer s₁) s') :
    SafeKey path me env post (orRaise x) s := by
  apply safe_orRaise
  apply hx
  intro s₁ s₂ h₁ h₂ s' h'
  rw [hop] at h₂
  have hnext : Undisturbed path me s₁ s₁.next := ⟨fun _ h => ⟨h, rfl⟩, fun _ h => h⟩
  exact h s₁ s' h₁ (trans_of _ hnext (trans_of _ h₂ h'))

/-- An operation that only succeeds or fails. -/
theorem safe_done (op : KeyOp) {x : KeyAct (Except PyError Unit)}
    {post : Except PyError Unit → KeyHost ι → Prop} (s : KeyHost ι)
    (hx : ∀ post' : Except PyError (Except PyError Unit) → KeyHost ι → Prop,
      (∀ s₁ s', Undisturbed path me s s₁ → Undisturbed path me (handle me env s₁ op).2 s' →
        post' (.ok (if env.fault s₁.tick then .error .osError else .ok ())) s') →
        SafeKey path me env post' x s)
    (hop : ∀ s₁, (handle me env s₁ op).2 = s₁.next)
    (h : ∀ result s', Undisturbed path me s s' → post result s') :
    SafeKey path me env post (orRaise x) s :=
  safe_quiet op (fun s₁ => if env.fault s₁.tick then .error .osError else .ok ()) s hx hop
    (fun _ s' h₁ h' => h _ s' (trans_of _ h₁ h'))

theorem safe_readSigner {post : Except PyError ReceiptSigner → KeyHost ι → Prop} (s : KeyHost ι)
    (h : ∀ result s', Undisturbed path me s s' → Stored path result s' → post result s') :
    SafeKey path me env post (readSigner path) s := by
  apply safe_then
  apply safe_quiet (.readBytes path)
    (fun s₁ => if env.fault s₁.tick then .error .osError else s₁.content path) s
    (fun _ => safe_perform (.readBytes path) s (fun _ _ => trivial)) (fun _ => rfl)
  intro s₁ s₂ h₁ h₂
  have hs₂ := trans_of _ h₁ h₂
  by_cases hfault : env.fault s₁.tick = true
  · rw [if_pos hfault]
    exact fun s' h' => h _ s' (trans_of _ hs₂ h') (stored_error _ s')
  rw [if_neg hfault]
  cases hread : s₁.content path with
  | error e => exact fun s' h' => h _ s' (trans_of _ hs₂ h') (stored_error _ s')
  | ok octets =>
    intro s' h'
    refine h _ s' (trans_of _ hs₂ h') ?_
    intro signer hsigner
    unfold fromPrivateBytes at hsigner
    split at hsigner
    · obtain rfl := Except.ok.inj hsigner
      exact h'.kept _ (h₂.kept _ (content_eq_ok hread))
    · simp at hsigner

theorem handle_link_cases (me : ι) (env : KeyEnv) (s : KeyHost ι) {source target : Path}
    {value : Bytes}
    (hvalue : s.files source = some value) :
    handle me env s (.link source target) = (.error .osError, s.next) ∨
    (s.files target ≠ none ∧
      handle me env s (.link source target) = (.error (.fileExists ""), s.next)) ∨
    (s.files target = none ∧
      handle me env s (.link source target) = (.ok (), s.put target (some value))) := by
  by_cases hfault : env.fault s.tick = true
  · exact Or.inl (if_pos hfault)
  · by_cases htaken : s.files target = none
    · exact Or.inr (Or.inr ⟨htaken, by simp [handle, hfault, htaken, hvalue]⟩)
    · exact Or.inr (Or.inl ⟨htaken, by simp [handle, hfault, htaken]⟩)

theorem keeps_put {p : Path} (hne : p ≠ path) (s : KeyHost ι) (value : Option Bytes) :
    Keeps path s (s.put p value) := by
  intro content hcontent
  exact (Function.update_of_ne hne.symm _ _).trans hcontent

/-- Whatever happens, the temporary file still belongs to the process. -/
theorem safe_publish (temporary : Path) (secret : Secret) (s : KeyHost ι)
    (hne : temporary ≠ path) (howner : s.owner temporary = some me)
    {post : Except PyError ReceiptSigner → KeyHost ι → Prop}
    (h : ∀ result s', s'.owner temporary = some me → Stored path result s' → post result s') :
    SafeKey path me env post (publish path temporary secret) s := by
  have herror : ∀ (e : PyError) s₁ s', s₁.owner temporary = some me → Undisturbed path me s₁ s' →
      post (.error e) s' :=
    fun e s₁ s' h₁ h' => h _ s' (owned_later h₁ h') (stored_error e s')
  apply safe_then
  apply safe_orRaise
  apply safe_perform (.write temporary secret.val) s (fun s' h' => ⟨owned_later howner h', hne⟩)
  intro s₁ s₂ h₁ h₂ s₃ h₃
  have hs₁ := owned_later howner h₁
  by_cases hfault : env.fault s₁.tick = true
  · simp only [handle, hfault, if_true] at h₂ ⊢
    have howner₃ : s₃.owner temporary = some me :=
      ((trans_of (Undisturbed path me) h₂ h₃).owned temporary hs₁).1
    exact fun s' h' => herror _ s₃ s' howner₃ h'
  simp only [handle, hfault, if_false, Bool.false_eq_true] at h₂ ⊢
  have hwritten : s₃.owner temporary = some me ∧ s₃.files temporary = some secret.val := by
    obtain ⟨howner', hfile⟩ := (trans_of _ h₂ h₃).owned temporary hs₁
    exact ⟨howner', hfile.trans (Function.update_self _ _ _)⟩
  apply safe_then
  apply safe_done (.chmod temporary) s₃ (fun _ => safe_perform (.chmod temporary) s₃
    (fun _ _ => trivial)) (fun _ => rfl)
  intro result s₅ hs₅
  cases result with
  | error e => exact fun s' h' => herror e s₅ s' (owned_later hwritten.1 hs₅) h'
  | ok _ =>
    apply safe_then
    apply safe_perform (.link temporary path) s₅
      (fun s' h' => ⟨rfl, owned_later hwritten.1 (trans_of _ hs₅ h')⟩)
    intro s₆ s₇ h₆ h₇
    have hs₆ := trans_of _ hs₅ h₆
    have howner₆ := owned_later hwritten.1 hs₆
    have hfile₆ := (hs₆.owned temporary hwritten.1).2.trans hwritten.2
    have hnext : ∀ s', Undisturbed path me s₆.next s' → s'.owner temporary = some me :=
      fun s' h' => (h'.owned temporary howner₆).1
    rcases handle_link_cases me env s₆ hfile₆ with hop | ⟨-, hop⟩ | ⟨-, hop⟩
    · rw [hop] at h₇ ⊢
      exact fun s' h' => herror _ s₇ s' (hnext s₇ h₇) h'
    · rw [hop] at h₇ ⊢
      apply safe_readSigner s₇
      intro result s' h' hstored
      exact h result s' (owned_later (hnext s₇ h₇) h') hstored
    · rw [hop] at h₇ ⊢
      intro s' h'
      have hs' := trans_of _ h₇ h'
      refine h _ s' (hs'.owned temporary howner₆).1 ?_
      intro signer hsigner
      obtain rfl := Except.ok.inj hsigner
      exact hs'.kept _ (Function.update_self _ _ _)

theorem handle_unlink_state (me : ι) (env : KeyEnv) (s : KeyHost ι) (p : Path) :
    (handle me env s (.unlink p)).2 = s.next ∨
      (handle me env s (.unlink p)).2 = (s.put p none).own p none := by
  by_cases hfault : env.fault s.tick = true
  · exact Or.inl (congrArg Prod.snd (if_pos hfault))
  · cases hfile : s.files p with
    | none => exact Or.inl (by simp [handle, hfault, hfile])
    | some content => exact Or.inr (by simp [handle, hfault, hfile])

theorem safe_removeTemporary (temporary : Path) (s : KeyHost ι) (hne : temporary ≠ path)
    (howner : s.owner temporary = some me) {post : Except PyError Unit → KeyHost ι → Prop}
    (h : ∀ result s', Keeps path s s' → post result s') :
    SafeKey path me env post (removeTemporary temporary) s := by
  apply safe_then
  apply safe_perform (.osPathExists temporary) s (fun _ _ => trivial)
  intro s₁ s₂ h₁ h₂
  have hs₂ : Undisturbed path me s s₂ :=
    trans_of _ h₁ (trans_of _ (⟨fun _ h => ⟨h, rfl⟩, fun _ h => h⟩ :
      Undisturbed path me s₁ s₁.next) h₂)
  dsimp only
  split
  · apply safe_orRaise
    apply safe_perform (.unlink temporary) s₂
      (fun s' h' => ⟨owned_later howner (trans_of _ hs₂ h'), hne⟩)
    intro s₃ s₄ h₃ h₄
    have hkept : Keeps path s₃ (handle me env s₃ (.unlink temporary)).2 := by
      rcases handle_unlink_state me env s₃ temporary with hop | hop
      · rw [hop]
        exact fun _ h => h
      · rw [hop]
        exact keeps_put hne s₃ none
    refine fun s' h' => h _ s' ?_
    exact fun content hcontent => h'.kept _ (h₄.kept _ (hkept _ (h₃.kept _ (hs₂.kept _ hcontent))))
  · exact fun s' h' => h _ s' (trans_of _ hs₂ h').kept

theorem safe_loadOrCreate (s : KeyHost ι)
    (hnames : ∀ tick, tempPath env path.dropLast ".signing-" tick ≠ path) :
    SafeKey path me env (Stored path) (loadOrCreate path) s := by
  apply safe_then
  apply safe_done (.mkdir path.dropLast) s (fun _ => safe_perform (.mkdir path.dropLast) s
    (fun _ _ => trivial)) (fun _ => rfl)
  intro result s₁ h₁
  cases result with
  | error e => exact fun s' _ => stored_error e s'
  | ok _ =>
    apply safe_then
    apply safe_quiet (.pathExists path)
      (fun s₁ => if env.fault s₁.tick then .error .osError else .ok (s₁.files path).isSome) s₁
      (fun _ => safe_perform (.pathExists path) s₁ (fun _ _ => trivial)) (fun _ => rfl)
    intro s₂ s₃ h₂ h₃
    by_cases hfault : env.fault s₂.tick = true
    · rw [if_pos hfault]
      exact fun s' _ => stored_error _ s'
    rw [if_neg hfault]
    dsimp only
    split
    · exact safe_readSigner s₃ (fun _ _ _ hstored => hstored)
    apply safe_then
    apply safe_perform .generate s₃ (fun _ _ => trivial)
    intro s₄ s₅ h₄ h₅
    apply safe_then
    apply safe_orRaise
    apply safe_perform (.mkstemp path.dropLast ".signing-") s₅ (fun s' _ => hnames s'.tick)
    intro s₆ s₇ h₆ h₇ s₈ h₈
    by_cases hfault : env.fault s₆.tick = true
    · simp only [handle, hfault, if_true] at h₇ ⊢
      exact fun s' _ => stored_error _ s'
    by_cases hthere : s₆.files (tempPath env path.dropLast ".signing-" s₆.tick) = none
    · have hop : handle me env s₆ (.mkstemp path.dropLast ".signing-") =
          (.ok (tempPath env path.dropLast ".signing-" s₆.tick),
            (s₆.put (tempPath env path.dropLast ".signing-" s₆.tick) (some [])).own
              (tempPath env path.dropLast ".signing-" s₆.tick) (some me)) := by
        simp [handle, hfault, hthere]
      rw [hop] at h₇ ⊢
      have howner := ((trans_of (Undisturbed path me) h₇ h₈).owned _
        (Function.update_self _ _ _)).1
      apply safe_tryFinally
      apply safe_publish _ _ s₈ (hnames _) howner
      intro result s₉ howner₉ hstored
      apply safe_removeTemporary _ s₉ (hnames _) howner₉
      intro ended s₁₀ hkept
      cases ended with
      | ok _ => exact fun s' h' => (hstored.later hkept).later h'.kept
      | error e => exact fun s' _ => stored_error e s'
    · have hop : handle me env s₆ (.mkstemp path.dropLast ".signing-") =
          (.error (.fileExists ""), s₆.next) := by simp [handle, hfault, hthere]
      rw [hop]
      exact fun s' _ => stored_error _ s'

end Calls

section Processes

variable {path : Path} {i j : ι} {env : KeyEnv}

/-- A path that belongs to a process is a file, and the path of the key belongs to none. -/
structure Tidy (path : Path) (s : KeyHost ι) : Prop where
  path : s.owner path = none
  owned : ∀ p, s.owner p ≠ none → s.files p ≠ none

/-- What an operation does that a process may make: nothing, or a change of a file of its own,
a new file of its own, a key at the path where there was none, or one file of its own less. -/
theorem handle_may_cases {s : KeyHost ι} {op : KeyOp} (hmay : May path i env s op) :
    (handle i env s op).2 = s.next ∨
    (∃ p value, s.owner p = some i ∧ p ≠ path ∧ (handle i env s op).2 = s.put p (some value)) ∨
    (∃ p, s.files p = none ∧ p ≠ path ∧
      (handle i env s op).2 = (s.put p (some [])).own p (some i)) ∨
    (∃ value, s.files path = none ∧ (handle i env s op).2 = s.put path (some value)) ∨
    ∃ p, s.owner p = some i ∧ p ≠ path ∧ (handle i env s op).2 = (s.put p none).own p none := by
  by_cases hfault : env.fault s.tick = true
  · cases op with
    | write p value =>
      exact Or.inr (Or.inl ⟨p, _, hmay.1, hmay.2, congrArg Prod.snd (if_pos hfault)⟩)
    | mkstemp dir start => exact Or.inl (congrArg Prod.snd (if_pos hfault))
    | link source target => exact Or.inl (congrArg Prod.snd (if_pos hfault))
    | unlink p => exact Or.inl (congrArg Prod.snd (if_pos hfault))
    | _ => exact Or.inl rfl
  · cases op with
    | mkstemp dir start =>
      by_cases hthere : s.files (tempPath env dir start s.tick) = none
      · exact Or.inr (Or.inr (Or.inl ⟨_, hthere, hmay, by simp [handle, hfault, hthere]⟩))
      · exact Or.inl (by simp [handle, hfault, hthere])
    | write p value =>
      exact Or.inr (Or.inl ⟨p, value, hmay.1, hmay.2, congrArg Prod.snd (if_neg hfault)⟩)
    | link source target =>
      obtain ⟨rfl, -⟩ := hmay
      by_cases hnone : s.files target = none
      · cases hfile : s.files source with
        | none => exact Or.inl (by simp [handle, hfault, hnone, hfile])
        | some content =>
          exact Or.inr (Or.inr (Or.inr (Or.inl ⟨content, hnone, by
            simp [handle, hfault, hnone, hfile]⟩)))
      · exact Or.inl (by simp [handle, hfault, hnone])
    | unlink p =>
      rcases handle_unlink_state i env s p with hop | hop
      · exact Or.inl hop
      · exact Or.inr (Or.inr (Or.inr (Or.inr ⟨p, hmay.1, hmay.2, hop⟩)))
    | _ => exact Or.inl rfl

theorem kept_of_may {s : KeyHost ι} {op : KeyOp} (hmay : May path i env s op) :
    Keeps path s (handle i env s op).2 := by
  rcases handle_may_cases hmay with hop | ⟨p, value, -, hne, hop⟩ | ⟨p, -, hne, hop⟩ |
    ⟨value, hnone, hop⟩ | ⟨p, -, hne, hop⟩
  · rw [hop]
    exact fun _ h => h
  · rw [hop]
    exact keeps_put hne s _
  · rw [hop]
    exact keeps_put hne s (some [])
  · intro content hcontent
    rw [hnone] at hcontent
    simp at hcontent
  · rw [hop]
    exact keeps_put hne s none

/-- A process that keeps to its own files leaves those of the others alone. -/
theorem undisturbed_of_may (hij : i ≠ j) {s : KeyHost ι} {op : KeyOp}
    (hmay : May path i env s op) (htidy : Tidy path s) :
    Undisturbed path j s (handle i env s op).2 := by
  refine ⟨fun p hp => ?_, kept_of_may hmay⟩
  have hother : ∀ q, s.owner q = some i → p ≠ q := by
    rintro q hq rfl
    rw [hq, Option.some.injEq] at hp
    exact hij hp
  rcases handle_may_cases hmay with hop | ⟨q, value, howner, -, hop⟩ | ⟨q, hnone, -, hop⟩ |
    ⟨value, -, hop⟩ | ⟨q, howner, -, hop⟩
  · rw [hop]
    exact ⟨hp, rfl⟩
  · rw [hop]
    exact ⟨hp, Function.update_of_ne (hother q howner) _ _⟩
  · have hne : p ≠ q := by
      rintro rfl
      exact htidy.owned p (by simp [hp]) hnone
    rw [hop]
    exact ⟨(Function.update_of_ne hne _ _).trans hp, Function.update_of_ne hne _ _⟩
  · have hne : p ≠ path := by
      rintro rfl
      rw [htidy.path] at hp
      simp at hp
    rw [hop]
    exact ⟨hp, Function.update_of_ne hne _ _⟩
  · have hne := hother q howner
    rw [hop]
    exact ⟨(Function.update_of_ne hne _ _).trans hp, Function.update_of_ne hne _ _⟩

theorem tidy_of_may {s : KeyHost ι} {op : KeyOp} (hmay : May path i env s op)
    (htidy : Tidy path s) : Tidy path (handle i env s op).2 := by
  have hput : ∀ q value, Tidy path (s.put q (some value)) := by
    refine fun q value => ⟨htidy.path, fun p hp => ?_⟩
    by_cases hq : p = q
    · rw [hq]
      exact fun h => absurd ((Function.update_self _ _ _).symm.trans h) (by simp)
    · exact fun h => htidy.owned p hp ((Function.update_of_ne hq _ _).symm.trans h)
  rcases handle_may_cases hmay with hop | ⟨q, value, -, -, hop⟩ | ⟨q, -, hne, hop⟩ |
    ⟨value, -, hop⟩ | ⟨q, -, hne, hop⟩
  · rw [hop]
    exact ⟨htidy.path, htidy.owned⟩
  · rw [hop]
    exact hput q value
  · rw [hop]
    refine ⟨(Function.update_of_ne hne.symm _ _).trans htidy.path, fun p hp => ?_⟩
    by_cases hq : p = q
    · rw [hq]
      exact fun h => absurd ((Function.update_self _ _ _).symm.trans h) (by simp)
    · have howned : s.owner p ≠ none := fun h => hp ((Function.update_of_ne hq _ _).trans h)
      exact fun h => htidy.owned p howned ((Function.update_of_ne hq _ _).symm.trans h)
  · rw [hop]
    exact hput path value
  · rw [hop]
    refine ⟨(Function.update_of_ne hne.symm _ _).trans htidy.path, fun p hp => ?_⟩
    have hq : p ≠ q := fun hq => hp (hq ▸ Function.update_self _ _ _)
    have howned : s.owner p ≠ none := fun h => hp ((Function.update_of_ne hq _ _).trans h)
    exact fun h => htidy.owned p howned ((Function.update_of_ne hq _ _).symm.trans h)

end Processes

section Runs

variable [DecidableEq ι] (path : Path) (env : ι → KeyEnv)
  (choose : ι → List (Finished Unit (Except PyError ReceiptSigner) (KeyHost ι)) → Option Unit)

/-- Processes that call `load_or_create` on one path. -/
abbrev Signers (ι : Type) :=
  System ι KeyOp Resp Unit (Except PyError ReceiptSigner) (KeyHost ι)

def runSigners (y : Signers ι) (schedule : List ι) : Signers ι :=
  runAll (fun i => handle i (env i)) (fun _ => loadOrCreate path) choose y schedule

/-- The invariant of the processes. -/
def Inv (y : Signers ι) : Prop :=
  AllSound (fun i => handle i (env i)) choose (fun i _ => Undisturbed path i) (fun _ _ _ => True)
    (fun i => May path i (env i)) (fun _ _ _ => Stored path) y ∧ Tidy path y.shared

variable {path env choose}

theorem inv_step (hnames : ∀ i tick, tempPath (env i) path.dropLast ".signing-" tick ≠ path)
    (y : Signers ι) (i : ι) (hy : Inv path env choose y) :
    Inv path env choose
      (step (fun i => handle i (env i)) (fun _ => loadOrCreate path) choose i y) := by
  obtain ⟨hsound, htidy⟩ := hy
  constructor
  · apply allSound_step (fun _ _ => inferInstance) y i hsound
    · exact fun _ _ => safe_loadOrCreate y.shared (hnames i)
    · intro call began op next _ hmay
      refine ⟨trivial, ?_, ?_⟩
      · exact fun j hj _ _ => undisturbed_of_may hj.symm hmay htidy
      · exact fun j f hf => ((hsound j).finished f hf).later (kept_of_may hmay)
  · apply shared_step (fun _ _ => inferInstance) y i _ hsound htidy
    exact fun _ _ _ _ _ hmay => tidy_of_may hmay htidy

theorem kept_step (y : Signers ι) (i : ι) (hy : Inv path env choose y) :
    Keeps path y.shared
      (step (fun i => handle i (env i)) (fun _ => loadOrCreate path) choose i y).shared := by
  apply shared_step (fun _ _ => inferInstance) y i (Keeps path y.shared) hy.1 (fun _ h => h)
  exact fun _ _ _ _ _ hmay => kept_of_may hmay

/-- The invariant holds in every state that is reached, and the file stays on the way. -/
theorem inv_run (hnames : ∀ i tick, tempPath (env i) path.dropLast ".signing-" tick ≠ path)
    (y : Signers ι) (schedule : List ι) (hy : Inv path env choose y) :
    Inv path env choose (runSigners path env choose y schedule) ∧
      Keeps path y.shared (runSigners path env choose y schedule).shared := by
  induction schedule generalizing y with
  | nil => exact ⟨hy, fun _ h => h⟩
  | cons i rest ih =>
    obtain ⟨hinv, hkept⟩ := ih _ (inv_step hnames y i hy)
    exact ⟨hinv, fun content hcontent => hkept _ (kept_step y i hy _ hcontent)⟩

omit [DecidableEq ι] in
theorem inv_start (files : Path → Option Bytes) :
    Inv path env choose (System.start (KeyHost.start ι files)) :=
  ⟨allSound_start _ _ _ _ _ _ _, rfl, fun _ h => absurd rfl h⟩

end Runs

/-- Whatever the processes do and wherever they are killed, the file never changes once it is
there, every key that has been returned is the one in the file, and so all of them are equal. -/
theorem loadOrCreate_agrees [DecidableEq ι] (path : Path) (env : ι → KeyEnv)
    (choose : ι → List (Finished Unit (Except PyError ReceiptSigner) (KeyHost ι)) → Option Unit)
    (files : Path → Option Bytes) (first rest : List ι)
    (hnames : ∀ i tick, tempPath (env i) path.dropLast ".signing-" tick ≠ path) :
    (∀ content, (runSigners path env choose (System.start (KeyHost.start ι files))
        first).shared.files path = some content →
      (runSigners path env choose (System.start (KeyHost.start ι files))
        (first ++ rest)).shared.files path = some content) ∧
    (∀ i, ∀ f ∈ ((runSigners path env choose (System.start (KeyHost.start ι files))
        first).process i).finished, ∀ signer, f.result = .ok signer →
      (runSigners path env choose (System.start (KeyHost.start ι files))
        (first ++ rest)).shared.files path = some signer.privateKey.val) ∧
    (∀ i j, ∀ f ∈ ((runSigners path env choose (System.start (KeyHost.start ι files))
        first).process i).finished,
      ∀ g ∈ ((runSigners path env choose (System.start (KeyHost.start ι files))
        first).process j).finished, ∀ signer other, f.result = .ok signer →
          g.result = .ok other → signer = other) := by
  have hstart : Inv path env choose (System.start (KeyHost.start ι files)) := inv_start files
  have hy := (inv_run hnames _ first hstart).1
  have hkept := (inv_run hnames _ rest hy).2
  have hsplit : runSigners path env choose (System.start (KeyHost.start ι files)) (first ++ rest) =
      runSigners path env choose (runSigners path env choose
        (System.start (KeyHost.start ι files)) first) rest := runAll_append _ first rest
  rw [hsplit]
  have hstored := fun i f hf signer hsigner => (hy.1 i).finished f hf signer hsigner
  refine ⟨hkept, fun i f hf signer hsigner => hkept _ (hstored i f hf signer hsigner), ?_⟩
  intro i j f hf g hg signer other hsigner hother
  have hsame := (hstored i f hf signer hsigner).symm.trans (hstored j g hg other hother)
  rw [Option.some.injEq] at hsame
  exact congrArg ReceiptSigner.mk (Subtype.ext hsame)

def sampleKey (n : UInt8) : ReceiptSigner := ⟨⟨List.replicate 32 n, List.length_replicate⟩⟩

def sampleEnv (i : Bool) : KeyEnv where
  fault := fun _ => false
  written := fun _ => 0
  tempName := fun tick => String.ofList (List.replicate tick 'x')
  secret := fun _ => (sampleKey (if i then 1 else 2)).privateKey

/-- Both processes find no file; the one that links second reads what the first one has linked. -/
def sampleSchedule : List Bool :=
  List.replicate 5 true ++ List.replicate 11 false ++ List.replicate 7 true

def sampleRun : Signers Bool :=
  runSigners ["signing.key"] sampleEnv (fun _ finished => if finished.isEmpty then some ()
    else none)
    (System.start (KeyHost.start Bool (fun _ => none))) sampleSchedule

theorem results_sample (i : Bool) :
    ((sampleRun.process i).finished.map Finished.result) = [.ok (sampleKey 2)] := by
  cases i <;> decide +kernel

theorem tempPath_sample (i : Bool) (tick : ℕ) :
    tempPath (sampleEnv i) ["signing.key"].dropLast ".signing-" tick ≠ ["signing.key"] := by
  intro h
  have hname := congrArg String.toList (List.cons.inj h).1
  rw [String.toList_append] at hname
  exact absurd (congrArg List.head? hname) (by simp)

theorem loadOrCreate_agrees_sample : ∃ f ∈ (sampleRun.process true).finished,
    ∃ g ∈ (sampleRun.process false).finished, ∃ signer other, f.result = .ok signer ∧
      g.result = .ok other ∧ signer = other := by
  obtain ⟨f, hf, hsigner⟩ := List.map_eq_singleton_iff.mp (results_sample true)
  obtain ⟨g, hg, hother⟩ := List.map_eq_singleton_iff.mp (results_sample false)
  have hf' : f ∈ (sampleRun.process true).finished := by simp [hf]
  have hg' : g ∈ (sampleRun.process false).finished := by simp [hg]
  exact ⟨f, hf', g, hg', _, _, hsigner, hother, (loadOrCreate_agrees ["signing.key"] sampleEnv _ _
    sampleSchedule [] tempPath_sample).2.2 true false f hf' g hg' _ _ hsigner hother⟩

end Decillion.SigningKeys
