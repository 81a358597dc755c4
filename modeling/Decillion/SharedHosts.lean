import Decillion.HostRules
import Decillion.Interleavings

/-!
Rules for calls on a host that other processes use at the same time. A process has
temporary files of its own, because names are never drawn twice; the rest of the host may
change between any two operations within a relation that the rules leave open. A file is
still replaced as a whole: what is moved over the target is what the process has written.
-/
namespace Decillion.SharedHosts

open ByteText Primitives Programs PyErrors HostSystem HostRules Interleavings

variable {F : Type}

/-- A temporary file of a process, made at some tick. -/
def tempPath (env : Env F) (dir : Path) (tick : ℕ) : Path :=
  dir ++ [".write-" ++ env.tempName tick]

theorem isTemporary_tempPath (env : Env F) (dir : Path) (tick : ℕ) :
    isTemporary (tempPath env dir tick) = true := isTemporary_mkstemp dir ".write-" _ (by decide)

/-- The others leave the temporary files of the process alone, as many as it makes in the run. -/
structure Undisturbed (env : Env F) (limit : ℕ) (later : Host → Host → Prop) (s s' : Host) :
    Prop where
  temporary : ∀ dir tick, tick < limit →
    s'.files (tempPath env dir tick) = s.files (tempPath env dir tick)
  later : later s s'

instance (env : Env F) (limit : ℕ) (later : Host → Host → Prop) [IsPreorder Host later] :
    IsPreorder Host (Undisturbed env limit later) where
  refl _ := ⟨fun _ _ _ => rfl, refl_of later _⟩
  trans _ _ _ h h' := ⟨fun dir tick htick =>
    (h'.temporary dir tick htick).trans (h.temporary dir tick htick),
    trans_of later h.later h'.later⟩

/-- Only temporary files of the process are made, written and removed; what is moved over another
file is such a file whose content may be published there. -/
def May (env : Env F) (limit : ℕ) (publish : Host → Path → Bytes → Prop) (s : Host) : SysOp → Prop
  | .mkstemp _ start => start = ".write-"
  | .write path _ => ∃ dir tick, tick < limit ∧ path = tempPath env dir tick
  | .unlink path => ∃ dir tick, tick < limit ∧ path = tempPath env dir tick
  | .replace source target => ∃ dir tick value, tick < limit ∧ source = tempPath env dir tick ∧
      isTemporary target = false ∧ s.files source = some value ∧ publish s target value
  | .insertRow _ => False
  | _ => True

variable {env : Env F} {limit : ℕ} {later keeps : Host → Host → Prop}
  {publish : Host → Path → Bytes → Prop}
  {α : Type}

/-- A safe call on the host. -/
abbrev SafeCall (env : Env F) (limit : ℕ) (later keeps : Host → Host → Prop)
    (publish : Host → Path → Bytes → Prop) (post : α → Host → Prop)
    (p : Prog SysOp (Resp F) α) (s : Host) : Prop :=
  Safe (handle env) (Undisturbed env limit later) keeps (May env limit publish) post p s

variable [IsPreorder Host later]

theorem safe_orRaise {post : Except PyError α → Host → Prop}
    (x : Act F PyError (Except PyError α)) (s : Host)
    (h : SafeCall env limit later keeps publish (fun result s =>
      match result with
      | .ok answer => ∀ s', Undisturbed env limit later s s' → post answer s'
      | .error e => ∀ s', Undisturbed env limit later s s' → post (.error e) s') x s) :
    SafeCall env limit later keeps publish post (orRaise x) s := by
  apply safe_then
  apply safe_mono x s h
  intro result s hs
  match result with
  | .ok (.ok a) => exact hs
  | .ok (.error e) => exact hs
  | .error e => exact hs

variable (hquiet : ∀ s s', Unchanged s s' → keeps s s' → later s s')
include hquiet

theorem later_read {s s₁ s₂ s' : Host} (h₁ : Undisturbed env limit later s s₁)
    (hkeeps : keeps s₁ s₁.next) (h₂ : Undisturbed env limit later s₁.next s₂)
    (h' : Undisturbed env limit later s₂ s') : later s₁ s' ∧ later s s' := by
  have hread : later s₁ s' :=
    trans_of later (hquiet _ _ (unchanged_next s₁) hkeeps) (trans_of later h₂.later h'.later)
  exact ⟨hread, trans_of later h₁.later hread⟩

theorem safe_pathExists {post : Except PyError Bool → Host → Prop} (path : Path) (s : Host)
    (herror : ∀ e s', later s s' → post (.error e) s')
    (hok : ∀ s₁ s', later s s₁ → later s₁ s' → post (.ok (s₁.files path).isSome) s') :
    SafeCall env limit later keeps publish post (pathExists path) s := by
  apply safe_orRaise
  intro s₁ h₁
  refine ⟨trivial, fun hkeeps s₂ h₂ s' h' => ?_⟩
  obtain ⟨hread, hlater⟩ := later_read hquiet h₁ hkeeps h₂ h'
  change post (if env.fault s₁.tick then .error .osError else .ok (s₁.files path).isSome) s'
  split
  · exact herror _ s' hlater
  · exact hok s₁ s' h₁.later hread

theorem safe_readBytes {post : Except PyError Bytes → Host → Prop} (path : Path) (s : Host)
    (herror : ∀ e s', later s s' → post (.error e) s')
    (hok : ∀ s₁ value s', later s s₁ → s₁.files path = some value → later s₁ s' →
      post (.ok value) s') :
    SafeCall env limit later keeps publish post (readBytes path) s := by
  apply safe_orRaise
  intro s₁ h₁
  refine ⟨trivial, fun hkeeps s₂ h₂ s' h' => ?_⟩
  obtain ⟨hread, hlater⟩ := later_read hquiet h₁ hkeeps h₂ h'
  rw [handle_readBytes]
  cases env.fault s₁.tick with
  | true => exact herror _ s' hlater
  | false =>
    cases hfile : s₁.files path with
    | none => exact herror _ s' hlater
    | some value => exact hok s₁ value s' h₁.later hfile hread

theorem safe_urandom {post : Except PyError Bytes → Host → Prop} (count : ℕ) (s : Host)
    (herror : ∀ e s', later s s' → post (.error e) s')
    (hok : ∀ value s', value.length = count → later s s' → post (.ok value) s') :
    SafeCall env limit later keeps publish post (urandom count) s := by
  apply safe_orRaise
  intro s₁ h₁
  refine ⟨trivial, fun hkeeps s₂ h₂ s' h' => ?_⟩
  obtain ⟨-, hlater⟩ := later_read hquiet h₁ hkeeps h₂ h'
  change post (if env.fault s₁.tick then .error .osError else .ok (env.random s₁.tick count)) s'
  split
  · exact herror _ s' hlater
  · exact hok _ s' (env.random_length s₁.tick count) hlater

theorem safe_readBlock {post : Except PyError Bytes → Host → Prop} (block : Bytes) (s : Host)
    (herror : ∀ e s', later s s' → post (.error e) s')
    (hok : ∀ s', later s s' → post (.ok block) s') :
    SafeCall env limit later keeps publish post (readBlock block) s := by
  apply safe_orRaise
  intro s₁ h₁
  refine ⟨trivial, fun hkeeps s₂ h₂ s' h' => ?_⟩
  obtain ⟨-, hlater⟩ := later_read hquiet h₁ hkeeps h₂ h'
  change post (if env.fault s₁.tick then .error .osError else .ok block) s'
  split
  · exact herror _ s' hlater
  · exact hok s' hlater

theorem safe_time {post : Except PyError F → Host → Prop} (s : Host)
    (h : ∀ now s', later s s' → post (.ok now) s') :
    SafeCall env limit later keeps publish post time s := by
  intro s₁ h₁
  refine ⟨trivial, fun hkeeps s' h' => ?_⟩
  exact h _ s' (later_read hquiet h₁ hkeeps h' (refl_of _ s')).2

theorem safe_getenv {post : Except PyError (Option String) → Host → Prop} (name : String)
    (s : Host) (h : ∀ s', later s s' → post (.ok (env.environ name)) s') :
    SafeCall env limit later keeps publish post (getenv name) s := by
  intro s₁ h₁
  refine ⟨trivial, fun hkeeps s' h' => ?_⟩
  exact h s' (later_read hquiet h₁ hkeeps h' (refl_of _ s')).2

theorem later_step {s s₁ s₂ s' : Host} (h₁ : Undisturbed env limit later s s₁)
    (hstep : Unchanged s₁ s₂) (hkeeps : keeps s₁ s₂) (h' : Undisturbed env limit later s₂ s') :
    later s s' :=
  trans_of later h₁.later (trans_of later (hquiet _ _ hstep hkeeps) h'.later)

theorem safe_unlink {post : Except PyError Unit → Host → Prop} (dir : Path) (tick : ℕ)
    (htick : tick < limit) (s : Host) (hany : ∀ result s', later s s' → post result s') :
    SafeCall env limit later keeps publish post (unlink (tempPath env dir tick)) s := by
  apply safe_orRaise
  intro s₁ h₁
  refine ⟨⟨dir, tick, htick, rfl⟩, fun hkeeps s₂ h₂ s' h' => hany _ s' ?_⟩
  obtain ⟨result, s₃, hop, hs₃⟩ := handle_unlink_cases env s₁ (tempPath env dir tick)
  rw [hop] at hkeeps h₂
  refine later_step hquiet h₁ ?_ hkeeps (trans_of _ h₂ h')
  rcases hs₃ with rfl | rfl
  · exact unchanged_next s₁
  · exact unchanged_put s₁ _ _ (isTemporary_tempPath env dir tick)

theorem safe_removeTemporary {post : Except PyError Unit → Host → Prop} (dir : Path) (tick : ℕ)
    (htick : tick < limit) (s : Host) (hany : ∀ result s', later s s' → post result s') :
    SafeCall env limit later keeps publish post (removeTemporary (tempPath env dir tick)) s := by
  apply safe_then
  intro s₁ h₁
  refine ⟨trivial, fun hkeeps s₂ h₂ => ?_⟩
  have hlater := later_step hquiet h₁ (unchanged_next s₁) hkeeps h₂
  have hbranch : ∀ b, SafeCall env limit later keeps publish post
      (if b = true then unlink (tempPath env dir tick) else pure PUnit.unit : Act F PyError Unit)
      s₂ := by
    intro b
    split
    · exact safe_unlink hquiet dir tick htick s₂ (fun r s' h => hany r s' (trans_of later hlater h))
    · exact fun s' h => hany _ s' (trans_of later hlater h.later)
  exact hbranch _

theorem safe_removeTemporary_absent {post : Except PyError Unit → Host → Prop} (dir : Path)
    (tick : ℕ) (htick : tick < limit) (s : Host) (habsent : s.files (tempPath env dir tick) = none)
    (hok : ∀ s', later s s' → post (.ok ()) s') :
    SafeCall env limit later keeps publish post (removeTemporary (tempPath env dir tick)) s := by
  apply safe_then
  intro s₁ h₁
  refine ⟨trivial, fun hkeeps s₂ h₂ => ?_⟩
  have hlater := later_step hquiet h₁ (unchanged_next s₁) hkeeps h₂
  have hfalse : (handle env s₁ (.osPathExists (tempPath env dir tick))).1 = false := by
    change (if env.fault s₁.tick then false else (s₁.files (tempPath env dir tick)).isSome) = false
    rw [h₁.temporary dir tick htick, habsent]
    split <;> rfl
  rw [hfalse]
  exact fun s' h => hok s' (trans_of later hlater h.later)

/-- The part of a replacement after its temporary file has been made. -/
theorem safe_replaceBody {post : Except PyError Unit → Host → Prop} (dir : Path) (tick : ℕ)
    (htick : tick < limit) (target : Path) (value : Bytes) (s : Host)
    (htarget : isTemporary target = false)
    (hpublish : ∀ s', later s s' → publish s' target value)
    (herror : ∀ e s', later s s' → post (.error e) s')
    (hok : ∀ s₁ s₂ s', later s s₁ → Replaced s₁ s₂ target value → keeps s₁ s₂ → later s₂ s' →
      post (.ok ()) s') :
    SafeCall env limit later keeps publish post
      (tryFinally
        (do
          writeTemp (tempPath env dir tick) value
          chmod (tempPath env dir tick)
          replace (tempPath env dir tick) target)
        (removeTemporary (tempPath env dir tick)) : Act F PyError Unit) s := by
  have htemp := isTemporary_tempPath env dir tick
  -- the end of a replacement that has raised an exception
  have hfailed : ∀ e s', later s s' →
      SafeCall env limit later keeps publish (Ended (Undisturbed env limit later) post (.error e))
        (removeTemporary (tempPath env dir tick)) s' := by
    intro e s' h
    apply safe_removeTemporary hquiet dir tick htick
    intro ended s₁ h₁
    cases ended with
    | ok _ => exact fun s₂ h₂ => herror _ s₂ (trans_of later h (trans_of later h₁ h₂.later))
    | error e' => exact fun s₂ h₂ => herror _ s₂ (trans_of later h (trans_of later h₁ h₂.later))
  apply safe_tryFinally
  apply safe_then
  apply safe_orRaise
  intro s₁ h₁
  refine ⟨⟨dir, tick, htick, rfl⟩, fun hkeeps s₂ h₂ s₃ h₃ => ?_⟩
  rcases handle_write_cases env s₁ (tempPath env dir tick) value with
    ⟨e, part, hop⟩ | hop
  · rw [hop] at hkeeps h₂ ⊢
    exact fun s' h' => hfailed e s' (later_step hquiet h₁ (unchanged_put s₁ _ _ htemp) hkeeps
      (trans_of _ (trans_of _ h₂ h₃) h'))
  rw [hop] at hkeeps h₂ ⊢
  have hs₃ := later_step hquiet h₁ (unchanged_put s₁ _ _ htemp) hkeeps (trans_of _ h₂ h₃)
  have hwritten : s₃.files (tempPath env dir tick) = some value := by
    rw [h₃.temporary dir tick htick, h₂.temporary dir tick htick]
    exact Function.update_self _ _ _
  apply safe_then
  apply safe_orRaise
  intro s₄ h₄
  refine ⟨trivial, fun hkeeps s₅ h₅ s₆ h₆ => ?_⟩
  have hchmod := later_step hquiet h₄ (unchanged_next s₄) hkeeps (trans_of _ h₅ h₆)
  have hs₆ := trans_of later hs₃ hchmod
  have hkept : s₆.files (tempPath env dir tick) = some value := by
    rw [h₆.temporary dir tick htick, h₅.temporary dir tick htick]
    exact (h₄.temporary dir tick htick).trans hwritten
  cases (handle env s₄ (.chmod (tempPath env dir tick))).1 with
  | error e => exact fun s' h' => hfailed e s' (trans_of later hs₆ h'.later)
  | ok _ =>
    apply safe_orRaise
    intro s₇ h₇
    have hs₇ := trans_of later hs₆ h₇.later
    have hfile := (h₇.temporary dir tick htick).trans hkept
    refine ⟨⟨dir, tick, value, htick, rfl, htarget, hfile, hpublish s₇ hs₇⟩,
      fun hkeeps s₈ h₈ s₉ h₉ => ?_⟩
    rcases handle_replace_cases env s₇ _ target value hfile with ⟨e, hop⟩ | ⟨-, hop⟩
    · rw [hop] at hkeeps h₈ ⊢
      exact hfailed e s₉ (trans_of later hs₇ (later_step hquiet (refl_of _ s₇) (unchanged_next s₇)
        hkeeps (trans_of _ h₈ h₉)))
    · obtain ⟨hreplaced, hnone⟩ := moved_replaced s₇ (tempPath env dir tick) target value htemp
        htarget
      rw [hop] at hkeeps h₈ ⊢
      have habsent : s₉.files (tempPath env dir tick) = none := by
        rw [h₉.temporary dir tick htick, h₈.temporary dir tick htick]
        exact hnone
      apply safe_removeTemporary_absent hquiet dir tick htick s₉ habsent
      exact fun s' h' s'' h'' => hok s₇ _ s'' hs₇ hreplaced hkeeps (trans_of later h₈.later
        (trans_of later h₉.later (trans_of later h' h''.later)))

variable (hlimit : ∀ s s', keeps s s' → s'.tick ≤ limit)
include hlimit

theorem safe_uuid4 {post : Except PyError String → Host → Prop} (s : Host)
    (h : ∀ s₁ s', s₁.tick < limit → later s s₁ → later s₁.next s' → later s s' →
      post (.ok (env.uuid s₁.tick)) s') :
    SafeCall env limit later keeps publish post uuid4 s := by
  intro s₁ h₁
  refine ⟨trivial, fun hkeeps s' h' => ?_⟩
  have htick : s₁.tick < limit := hlimit _ _ hkeeps
  exact h s₁ s' htick h₁.later h'.later (later_read hquiet h₁ hkeeps h' (refl_of _ s')).2

/-- A replacement happens as a whole with the given content, or not at all. -/
theorem safe_replaceFile {post : Except PyError Unit → Host → Prop} (target : Path) (value : Bytes)
    (s : Host) (htarget : isTemporary target = false)
    (hpublish : ∀ s', later s s' → publish s' target value)
    (herror : ∀ e s', later s s' → post (.error e) s')
    (hok : ∀ s₁ s₂ s', later s s₁ → Replaced s₁ s₂ target value → keeps s₁ s₂ → later s₂ s' →
      post (.ok ()) s') :
    SafeCall env limit later keeps publish post (replaceFile ".write-" target value) s := by
  apply safe_then
  apply safe_orRaise
  intro s₁ h₁
  refine ⟨rfl, fun hkeeps s₂ h₂ s₃ h₃ => ?_⟩
  have htemp := isTemporary_tempPath env target.dropLast s₁.tick
  rcases handle_mkstemp_cases env s₁ target.dropLast ".write-" with ⟨e, hop⟩ | ⟨-, hop⟩
  · rw [hop] at hkeeps h₂ ⊢
    exact fun s' h' => herror e s' (later_step hquiet h₁ (unchanged_next s₁) hkeeps
      (trans_of _ (trans_of _ h₂ h₃) h'))
  · rw [hop] at hkeeps h₂ ⊢
    have hlater := later_step hquiet h₁ (unchanged_put s₁ _ _ htemp) hkeeps (trans_of _ h₂ h₃)
    have htick : s₁.tick < limit := hlimit _ _ hkeeps
    apply safe_replaceBody hquiet target.dropLast s₁.tick htick target value s₃ htarget
    · exact fun s' h => hpublish s' (trans_of later hlater h)
    · exact fun e s' h => herror e s' (trans_of later hlater h)
    · exact fun s₄ s₅ s' h => hok s₄ s₅ s' (trans_of later hlater h)

omit hquiet hlimit [IsPreorder Host later]

/-- An operation of a safe call leaves every file alone that is not temporary, or it publishes one
of them. -/
theorem handle_may_cases {s : Host} {op : SysOp} (hmay : May env limit publish s op) :
    (∀ path, isTemporary path = false → (handle env s op).2.files path = s.files path) ∨
      ∃ source target value, op = .replace source target ∧ env.fault s.tick = false ∧
        publish s target value ∧ Replaced s (handle env s op).2 target value := by
  cases op with
  | mkstemp dir start =>
    obtain rfl : start = ".write-" := hmay
    have htemp := isTemporary_tempPath env dir s.tick
    left
    rcases handle_mkstemp_cases env s dir ".write-" with ⟨e, hop⟩ | ⟨-, hop⟩
    · rw [hop]
      exact fun _ _ => rfl
    · rw [hop]
      exact (unchanged_put s _ _ htemp).1
  | write path value =>
    obtain ⟨dir, tick, -, rfl⟩ := hmay
    have htemp := isTemporary_tempPath env dir tick
    left
    rcases handle_write_cases env s (tempPath env dir tick) value with
      ⟨e, part, hop⟩ | hop
    · rw [hop]
      exact (unchanged_put s _ _ htemp).1
    · rw [hop]
      exact (unchanged_put s _ _ htemp).1
  | unlink path =>
    obtain ⟨dir, tick, -, rfl⟩ := hmay
    left
    obtain ⟨result, s', hop, rfl | rfl⟩ :=
      handle_unlink_cases env s (tempPath env dir tick)
    · rw [hop]
      exact fun _ _ => rfl
    · rw [hop]
      exact (unchanged_put s _ _ (isTemporary_tempPath env dir tick)).1
  | replace source target =>
    obtain ⟨dir, tick, value, -, rfl, htarget, hfile, hpublish⟩ := hmay
    rcases handle_replace_cases env s _ target value hfile with ⟨e, hop⟩ | ⟨hfault, hop⟩
    · left
      rw [hop]
      exact fun _ _ => rfl
    · right
      refine ⟨_, target, value, rfl, hfault, hpublish, ?_⟩
      rw [hop]
      exact (moved_replaced s _ target value (isTemporary_tempPath env dir tick) htarget).1
  | insertRow row => exact hmay.elim
  | _ => exact Or.inl fun _ _ => rfl

/-- Temporary files of the others are left alone. -/
theorem handle_may_temporary {s : Host} {op : SysOp} (hmay : May env limit publish s op)
    (htick : s.tick < limit) (path : Path) (htemp : isTemporary path = true)
    (hother : ∀ dir tick, tick < limit → path ≠ tempPath env dir tick) :
    (handle env s op).2.files path = s.files path := by
  cases op with
  | mkstemp dir start =>
    obtain rfl : start = ".write-" := hmay
    rcases handle_mkstemp_cases env s dir ".write-" with ⟨e, hop⟩ | ⟨-, hop⟩
    · rw [hop]
      rfl
    · rw [hop]
      exact Function.update_of_ne (hother dir s.tick htick) _ _
  | write path' value =>
    obtain ⟨dir, tick, hle, rfl⟩ := hmay
    rcases handle_write_cases env s (tempPath env dir tick) value with
      ⟨e, part, hop⟩ | hop
    · rw [hop]
      exact Function.update_of_ne (hother dir tick hle) _ _
    · rw [hop]
      exact Function.update_of_ne (hother dir tick hle) _ _
  | unlink path' =>
    obtain ⟨dir, tick, hle, rfl⟩ := hmay
    obtain ⟨result, s', hop, rfl | rfl⟩ :=
      handle_unlink_cases env s (tempPath env dir tick)
    · rw [hop]
      rfl
    · rw [hop]
      exact Function.update_of_ne (hother dir tick hle) _ _
  | replace source target =>
    obtain ⟨dir, tick, value, hle, rfl, htarget, hfile, -⟩ := hmay
    rcases handle_replace_cases env s _ target value hfile with ⟨e, hop⟩ | ⟨-, hop⟩
    · rw [hop]
      rfl
    · have hne : path ≠ target := by
        rintro rfl
        rw [htemp] at htarget
        simp at htarget
      rw [hop]
      change Function.update (Function.update s.files _ none) target (some value) path = _
      rw [Function.update_of_ne hne, Function.update_of_ne (hother dir tick hle)]
  | insertRow row => exact hmay.elim
  | _ => rfl

end Decillion.SharedHosts
