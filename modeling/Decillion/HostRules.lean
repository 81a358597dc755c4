import Decillion.HostSystem

/-!
Rules for the operations of the host. Files whose name starts with a dot are temporary;
an operation on one of them is invisible to every other file. A file is replaced through
a temporary file next to it, so a run that fails or is cut off on the way leaves the
target and every other file as they were.
-/
namespace Decillion.HostRules

open ByteText Primitives Programs PyErrors HostSystem

variable {F ε : Type} [PythonErrors ε]
variable {env : Env F} {crash : Host → Prop} {α : Type}

/-- The postcondition of an action at the answer of an operation. -/
def Answered (post : Except ε α → Host → Prop) (answer : Except PyError α) (s : Host) : Prop :=
  match answer with
  | .ok a => post (.ok a) s
  | .error e => post (.error (PythonErrors.python e)) s

omit [PythonErrors ε] in
theorem handle_readBytes (s : Host) (path : Path) : (handle env s (.readBytes path)).1 =
    if env.fault s.tick then .error .osError
    else (s.files path).elim (.error .fileNotFound) .ok := by
  cases hfile : s.files path <;> simp [handle, hfile, Option.elim]

omit [PythonErrors ε] in
theorem handle_tick (s : Host) (op : SysOp) : (handle env s op).2.tick = s.tick + 1 := by
  cases op <;> simp only [handle] <;> (repeat' split) <;> rfl

omit [PythonErrors ε] in
theorem holds_tick (p : Prog SysOp (Resp F) α) (s : Host) :
    Holds (handle env) (fun s' => s.tick ≤ s'.tick) (fun _ s' => s.tick ≤ s'.tick) p s := by
  suffices h : ∀ (p : Prog SysOp (Resp F) α) (s' : Host), s.tick ≤ s'.tick →
      Holds (handle env) (fun s' => s.tick ≤ s'.tick) (fun _ s' => s.tick ≤ s'.tick) p s' from
    h p s le_rfl
  intro p
  induction p with
  | done a => exact fun s' h => h
  | call op next ih =>
    intro s' h
    refine ⟨h, ih _ _ ?_⟩
    rw [handle_tick]
    omega

omit [PythonErrors ε] in
theorem run_tick (p : Prog SysOp (Resp F) α) (s : Host) (budget : ℕ) :
    s.tick ≤ (run (handle env) budget p s).2.tick := by
  rcases run_holds _ p s budget (holds_tick p s) with ⟨-, -, h⟩ | ⟨-, h⟩ <;> exact h

omit [PythonErrors ε] in
theorem run_tick_le (p : Prog SysOp (Resp F) α) (s : Host) (budget : ℕ) :
    (run (handle env) budget p s).2.tick ≤ s.tick + budget := by
  induction p generalizing s budget with
  | done a => cases budget <;> exact Nat.le_add_right _ _
  | call op next ih =>
    cases budget with
    | zero => exact le_rfl
    | succ budget =>
      have hrest := ih (handle env s op).1 (handle env s op).2 budget
      rw [handle_tick] at hrest
      simp only [run]
      omega

/-- No random identifier is drawn twice up to this tick. -/
def Distinct (env : Env F) (limit : ℕ) : Prop :=
  ∀ i, i < limit → ∀ j, j < limit → env.uuid i = env.uuid j → i = j

omit [PythonErrors ε] in
theorem Distinct.mono {limit limit' : ℕ} (h : Distinct env limit') (hle : limit ≤ limit') :
    Distinct env limit :=
  fun i hi j hj => h i (hi.trans_le hle) j (hj.trans_le hle)

omit [PythonErrors ε] in
theorem distinct_sample (fault : ℕ → Bool) (clock : ℕ → F) (environ : String → Option String)
    (limit : ℕ) (hlimit : limit ≤ 256) : Distinct (Env.sample fault clock environ) limit := by
  intro i hi j hj h
  exact octets_inj (by decide) (by omega) (by omega) (hex_injective h)

theorem holds_orRaise {post : Except ε α → Host → Prop} (x : Act F ε (Except PyError α))
    (s : Host) (h : Holds (handle env) crash (fun result s =>
      match result with
      | .ok answer => Answered post answer s
      | .error e => post (.error e) s) x s) :
    Holds (handle env) crash post (orRaise x) s := by
  apply holds_then
  apply holds_mono x s h
  intro result s hs
  match result with
  | .ok (.ok a) => exact hs
  | .ok (.error e) => exact hs
  | .error e => exact hs

theorem holds_pathExists {post : Except ε Bool → Host → Prop} (path : Path) (s : Host)
    (hcrash : crash s) (herror : ∀ e, post (.error e) s.next)
    (hok : post (.ok (s.files path).isSome) s.next) :
    Holds (handle env) crash post (pathExists path) s := by
  apply holds_orRaise
  refine ⟨hcrash, ?_⟩
  change Answered post (if env.fault s.tick then .error .osError
    else .ok (s.files path).isSome) s.next
  split
  · exact herror _
  · exact hok

omit [PythonErrors ε] in
theorem holds_osPathExists {post : Except ε Bool → Host → Prop} (path : Path) (s : Host)
    (hcrash : crash s) (hfalse : post (.ok false) s.next)
    (hsome : post (.ok (s.files path).isSome) s.next) :
    Holds (handle env) crash post (osPathExists path) s := by
  refine ⟨hcrash, ?_⟩
  change post (.ok (if env.fault s.tick then false else (s.files path).isSome)) s.next
  split
  · exact hfalse
  · exact hsome

theorem holds_readBytes {post : Except ε Bytes → Host → Prop} (path : Path) (s : Host)
    (hcrash : crash s) (herror : ∀ e, post (.error e) s.next)
    (hok : ∀ value, s.files path = some value → post (.ok value) s.next) :
    Holds (handle env) crash post (readBytes path) s := by
  apply holds_orRaise
  refine ⟨hcrash, ?_⟩
  change Answered post (handle env s (.readBytes path)).1 s.next
  rw [handle_readBytes]
  cases env.fault s.tick with
  | true => exact herror _
  | false =>
    cases hfile : s.files path with
    | none => exact herror _
    | some value => exact hok value hfile

theorem holds_urandom {post : Except ε Bytes → Host → Prop} (count : ℕ) (s : Host)
    (hcrash : crash s) (herror : ∀ e, post (.error e) s.next)
    (hok : ∀ value, value.length = count → post (.ok value) s.next) :
    Holds (handle env) crash post (urandom count) s := by
  apply holds_orRaise
  refine ⟨hcrash, ?_⟩
  change Answered post (if env.fault s.tick then .error .osError
    else .ok (env.random s.tick count)) s.next
  split
  · exact herror _
  · exact hok _ (env.random_length s.tick count)

theorem holds_readBlock {post : Except ε Bytes → Host → Prop} (block : Bytes) (s : Host)
    (hcrash : crash s) (herror : ∀ e, post (.error e) s.next) (hok : post (.ok block) s.next) :
    Holds (handle env) crash post (readBlock block) s := by
  apply holds_orRaise
  refine ⟨hcrash, ?_⟩
  change Answered post (if env.fault s.tick then .error .osError else .ok block) s.next
  split
  · exact herror _
  · exact hok

omit [PythonErrors ε] in
theorem holds_uuid4 {post : Except ε String → Host → Prop} (s : Host) (hcrash : crash s)
    (h : post (.ok (env.uuid s.tick)) s.next) :
    Holds (handle env) crash post (uuid4 : Act F ε String) s := ⟨hcrash, h⟩

omit [PythonErrors ε] in
theorem holds_time {post : Except ε F → Host → Prop} (s : Host) (hcrash : crash s)
    (h : post (.ok (env.clock s.tick)) s.next) :
    Holds (handle env) crash post (time : Act F ε F) s := ⟨hcrash, h⟩

omit [PythonErrors ε] in
theorem holds_utcNow {post : Except ε String → Host → Prop} (s : Host) (hcrash : crash s)
    (h : post (.ok (env.isoClock s.tick)) s.next) :
    Holds (handle env) crash post (utcNow : Act F ε String) s := ⟨hcrash, h⟩

omit [PythonErrors ε] in
theorem holds_getenv {post : Except ε (Option String) → Host → Prop} (name : String) (s : Host)
    (hcrash : crash s) (h : post (.ok (env.environ name)) s.next) :
    Holds (handle env) crash post (getenv name : Act F ε (Option String)) s := ⟨hcrash, h⟩

theorem holds_insertRow {post : Except ε Unit → Host → Prop} (row : List String) (s : Host)
    (hcrash : crash s) (herror : ∀ e, post (.error e) s.next)
    (hok : (∀ other ∈ s.rows, other.head? ≠ row.head?) →
      post (.ok ()) { s with rows := s.rows ++ [row], tick := s.tick + 1 }) :
    Holds (handle env) crash post (insertRow row) s := by
  apply holds_orRaise
  refine ⟨hcrash, ?_⟩
  by_cases hfault : env.fault s.tick = true
  · have hop : handle env s (.insertRow row) = (.error .osError, s.next) := if_pos hfault
    rw [hop]
    exact herror _
  · by_cases htaken : s.rows.any (fun other => other.head? = row.head?) = true
    · have hop : handle env s (.insertRow row) = (.error .integrityError, s.next) :=
        (if_neg hfault).trans (if_pos htaken)
      rw [hop]
      exact herror _
    · have hop : handle env s (.insertRow row) =
          (.ok (), { s with rows := s.rows ++ [row], tick := s.tick + 1 }) :=
        (if_neg hfault).trans (if_neg htaken)
      rw [hop]
      exact hok (by simpa using htaken)

/-- Files whose name starts with a dot are the temporary ones. -/
def isTemporary (path : Path) : Bool :=
  path.getLast?.any (fun name => name.toList.head? = some '.')

theorem isTemporary_append (dir : Path) (name : String) (hname : name.toList.head? ≠ some '.') :
    isTemporary (dir ++ [name]) = false := by
  simp [isTemporary, hname]

/-- The files that are not temporary and the rows are as before. -/
def Unchanged (s s' : Host) : Prop :=
  (∀ path, isTemporary path = false → s'.files path = s.files path) ∧ s'.rows = s.rows ∧
    s.tick ≤ s'.tick

/-- A file has been replaced and nothing else is changed. -/
def Replaced (s s' : Host) (target : Path) (value : Bytes) : Prop :=
  s'.files target = some value ∧
    (∀ path, isTemporary path = false → path ≠ target → s'.files path = s.files path) ∧
    s'.rows = s.rows ∧ s.tick ≤ s'.tick

theorem Unchanged.rfl (s : Host) : Unchanged s s := ⟨fun _ _ => .refl _, .refl _, le_refl _⟩

theorem Unchanged.trans {s s' s'' : Host} (h : Unchanged s s') (h' : Unchanged s' s'') :
    Unchanged s s'' :=
  ⟨fun path hpath => (h'.1 path hpath).trans (h.1 path hpath), h'.2.1.trans h.2.1,
    h.2.2.trans h'.2.2⟩

theorem unchanged_next (s : Host) : Unchanged s s.next :=
  ⟨fun _ _ => .refl _, .refl _, Nat.le_succ _⟩

theorem unchanged_put (s : Host) (path : Path) (value : Option Bytes)
    (hpath : isTemporary path = true) : Unchanged s (s.put path value) := by
  refine ⟨fun other hother => Function.update_of_ne ?_ _ _, .refl _, Nat.le_succ _⟩
  rintro rfl
  exact absurd hpath (by simp [hother])

theorem isTemporary_mkstemp (dir : Path) (start name : String)
    (hstart : start.toList.head? = some '.') :
    isTemporary (dir ++ [start ++ name]) = true := by
  simp [isTemporary, String.toList_append, List.head?_append, hstart]

omit [PythonErrors ε] in
theorem handle_mkstemp_cases (env : Env F) (s : Host) (dir : Path) (start : String) :
    (∃ e, handle env s (.mkstemp dir start) = (.error e, s.next)) ∨
      (s.files (dir ++ [start ++ env.tempName s.tick]) = none ∧
        handle env s (.mkstemp dir start) = (.ok (dir ++ [start ++ env.tempName s.tick]),
          s.put (dir ++ [start ++ env.tempName s.tick]) (some []))) := by
  by_cases hfault : env.fault s.tick = true
  · exact Or.inl ⟨.osError, if_pos hfault⟩
  · cases hthere : s.files (dir ++ [start ++ env.tempName s.tick]) with
    | some value => exact Or.inl ⟨.fileExists "", by simp [handle, hfault, hthere]⟩
    | none => exact Or.inr ⟨rfl, by simp [handle, hfault, hthere]⟩

omit [PythonErrors ε] in
theorem handle_write_cases (env : Env F) (s : Host) (path : Path) (value : Bytes) :
    (∃ e part, handle env s (.write path value) = (.error e, s.put path (some part))) ∨
      handle env s (.write path value) = (.ok (), s.put path (some value)) := by
  by_cases hfault : env.fault s.tick = true
  · exact Or.inl ⟨.osError, _, if_pos hfault⟩
  · exact Or.inr (if_neg hfault)

/-- The host after a file has been moved. -/
def moved (s : Host) (source target : Path) (value : Bytes) : Host :=
  { s with
    files := Function.update (Function.update s.files source none) target (some value)
    tick := s.tick + 1 }

omit [PythonErrors ε] in
theorem handle_replace_cases (env : Env F) (s : Host) (source target : Path) (value : Bytes)
    (hvalue : s.files source = some value) :
    (∃ e, handle env s (.replace source target) = (.error e, s.next)) ∨
      (env.fault s.tick = false ∧
        handle env s (.replace source target) = (.ok (), moved s source target value)) := by
  by_cases hfault : env.fault s.tick = true
  · exact Or.inl ⟨.osError, if_pos hfault⟩
  · exact Or.inr ⟨by simpa using hfault, by simp [handle, hfault, hvalue, moved]⟩

omit [PythonErrors ε] in
theorem handle_unlink_cases (env : Env F) (s : Host) (path : Path) :
    ∃ result s', handle env s (.unlink path) = (result, s') ∧
      (s' = s.next ∨ s' = s.put path none) := by
  by_cases hfault : env.fault s.tick = true
  · exact ⟨_, _, if_pos hfault, Or.inl rfl⟩
  · cases hfile : s.files path with
    | none => exact ⟨.error .fileNotFound, s.next, by simp [handle, hfault, hfile], Or.inl rfl⟩
    | some value => exact ⟨.ok (), s.put path none, by simp [handle, hfault, hfile], Or.inr rfl⟩

theorem moved_replaced (s : Host) (source target : Path) (value : Bytes)
    (htemp : isTemporary source = true) (htarget : isTemporary target = false) :
    Replaced s (moved s source target value) target value ∧
      (moved s source target value).files source = none := by
  have hne : ∀ path, isTemporary path = false → path ≠ source := by
    rintro path hpath rfl
    exact absurd htemp (by simp [hpath])
  refine ⟨⟨Function.update_self _ _ _, ?_, .refl _, Nat.le_succ _⟩, ?_⟩
  · intro path hpath hother
    change Function.update (Function.update s.files source none) target (some value) path = _
    rw [Function.update_of_ne hother, Function.update_of_ne (hne path hpath)]
  · change Function.update (Function.update s.files source none) target (some value) source = _
    rw [Function.update_of_ne (Ne.symm (hne target htarget)), Function.update_self]

theorem holds_mkstemp {post : Except ε Path → Host → Prop} (dir : Path) (start : String) (s : Host)
    (hstart : start.toList.head? = some '.') (hcrash : crash s)
    (herror : ∀ e, post (.error e) s.next)
    (hok : ∀ path s', isTemporary path = true → Unchanged s s' → post (.ok path) s') :
    Holds (handle env) crash post (mkstemp dir start) s := by
  apply holds_orRaise
  refine ⟨hcrash, ?_⟩
  rcases handle_mkstemp_cases env s dir start with ⟨e, hop⟩ | ⟨-, hop⟩
  · rw [hop]
    exact herror _
  · have htemp := isTemporary_mkstemp dir start (env.tempName s.tick) hstart
    rw [hop]
    exact hok _ _ htemp (unchanged_put s _ _ htemp)

theorem holds_writeTemp {post : Except ε Unit → Host → Prop} (path : Path) (value : Bytes)
    (s : Host) (htemp : isTemporary path = true) (hcrash : crash s)
    (herror : ∀ e s', Unchanged s s' → post (.error e) s')
    (hok : ∀ s', Unchanged s s' → s'.files path = some value → post (.ok ()) s') :
    Holds (handle env) crash post (writeTemp path value) s := by
  apply holds_orRaise
  refine ⟨hcrash, ?_⟩
  rcases handle_write_cases env s path value with ⟨e, part, hop⟩ | hop
  · rw [hop]
    exact herror _ _ (unchanged_put s path _ htemp)
  · rw [hop]
    exact hok _ (unchanged_put s path _ htemp) (Function.update_self _ _ _)

theorem holds_chmod {post : Except ε Unit → Host → Prop} (path : Path) (s : Host)
    (hcrash : crash s) (herror : ∀ e, post (.error e) s.next) (hok : post (.ok ()) s.next) :
    Holds (handle env) crash post (chmod path) s := by
  apply holds_orRaise
  refine ⟨hcrash, ?_⟩
  change Answered post (if env.fault s.tick then .error .osError else .ok ()) s.next
  split
  · exact herror _
  · exact hok

theorem holds_replace {post : Except ε Unit → Host → Prop} (source target : Path) (value : Bytes)
    (s : Host) (htemp : isTemporary source = true) (htarget : isTemporary target = false)
    (hvalue : s.files source = some value) (hcrash : crash s)
    (herror : ∀ e, post (.error e) s.next)
    (hok : ∀ s', Replaced s s' target value → s'.files source = none → post (.ok ()) s') :
    Holds (handle env) crash post (replace source target) s := by
  apply holds_orRaise
  refine ⟨hcrash, ?_⟩
  rcases handle_replace_cases env s source target value hvalue with ⟨e, hop⟩ | ⟨-, hop⟩
  · rw [hop]
    exact herror _
  · obtain ⟨hreplaced, hnone⟩ := moved_replaced s source target value htemp htarget
    rw [hop]
    exact hok _ hreplaced hnone

theorem holds_unlink {post : Except ε Unit → Host → Prop} (path : Path) (s : Host)
    (htemp : isTemporary path = true) (hcrash : crash s)
    (hany : ∀ result s', Unchanged s s' → post result s') :
    Holds (handle env) crash post (unlink path) s := by
  apply holds_orRaise
  refine ⟨hcrash, ?_⟩
  obtain ⟨result, s', hop, hs'⟩ := handle_unlink_cases env s path
  have hunchanged : Unchanged s s' := by
    rcases hs' with rfl | rfl
    · exact unchanged_next s
    · exact unchanged_put s path _ htemp
  rw [hop]
  cases result with
  | ok _ => exact hany _ _ hunchanged
  | error e => exact hany _ _ hunchanged

theorem Unchanged.replaced {s s' s'' : Host} {target : Path} {value : Bytes}
    (h : Unchanged s s') (h' : Replaced s' s'' target value) : Replaced s s'' target value :=
  ⟨h'.1, fun path hpath hne => (h'.2.1 path hpath hne).trans (h.1 path hpath),
    h'.2.2.1.trans h.2.1, h.2.2.trans h'.2.2.2⟩

theorem Replaced.unchanged {s s' s'' : Host} {target : Path} {value : Bytes}
    (h : Replaced s s' target value) (htarget : isTemporary target = false)
    (h' : Unchanged s' s'') : Replaced s s'' target value :=
  ⟨(h'.1 target htarget).trans h.1, fun path hpath hne => (h'.1 path hpath).trans
    (h.2.1 path hpath hne), h'.2.1.trans h.2.2.1, h.2.2.2.trans h'.2.2⟩

theorem holds_removeTemporary {post : Except ε Unit → Host → Prop} (temporary : Path) (s : Host)
    (htemp : isTemporary temporary = true) (hcrash : ∀ s', Unchanged s s' → crash s')
    (hany : ∀ result s', Unchanged s s' → post result s') :
    Holds (handle env) crash post (removeTemporary temporary) s := by
  have hnext := unchanged_next s
  have hbranch : ∀ b, Holds (handle env) crash post
      (if b = true then unlink temporary else pure PUnit.unit : Act F ε Unit) s.next := by
    intro b
    split
    · exact holds_unlink _ _ htemp (hcrash _ hnext) (fun r s' h => hany r s' (hnext.trans h))
    · exact hany _ _ hnext
  apply holds_then
  exact holds_osPathExists _ _ (hcrash s (.rfl s)) (hbranch false) (hbranch _)

theorem holds_removeTemporary_absent {post : Except ε Unit → Host → Prop} (temporary : Path)
    (s : Host) (habsent : s.files temporary = none) (hcrash : crash s)
    (hok : post (.ok ()) s.next) :
    Holds (handle env) crash post (removeTemporary temporary) s := by
  apply holds_then
  apply holds_osPathExists _ _ hcrash
  · exact hok
  · rw [habsent]
    exact hok

/-- A replacement happens as a whole and returns, or the file is as before. -/
theorem holds_replaceFile {post : Except ε Unit → Host → Prop} (start : String) (target : Path)
    (value : Bytes) (s : Host) (hstart : start.toList.head? = some '.')
    (htarget : isTemporary target = false) (hcrash : ∀ s', Unchanged s s' → crash s')
    (hreplaced : ∀ s', Replaced s s' target value → crash s')
    (herror : ∀ e s', Unchanged s s' → post (.error e) s')
    (hok : ∀ s', Replaced s s' target value → post (.ok ()) s') :
    Holds (handle env) crash post (replaceFile start target value) s := by
  apply holds_then
  apply holds_mkstemp _ _ s hstart (hcrash s (.rfl s))
  · exact fun e => herror e _ (unchanged_next s)
  intro temporary s₁ htemp h₁
  -- the end of a replacement that has raised an exception
  have hfailed : ∀ (e : ε) s', Unchanged s s' →
      Holds (handle env) crash (AfterFinally post (.error e)) (removeTemporary temporary) s' := by
    intro e s' h
    apply holds_removeTemporary _ _ htemp (fun s'' h' => hcrash s'' (h.trans h'))
    intro ended s'' h'
    cases ended with
    | ok _ => exact herror _ _ (h.trans h')
    | error e' => exact herror _ _ (h.trans h')
  apply holds_tryFinally
  apply holds_then
  apply holds_writeTemp _ _ _ htemp (hcrash _ h₁)
  · exact fun e s' h => hfailed e s' (h₁.trans h)
  intro s₂ h₂ hvalue
  have hs₂ := h₁.trans h₂
  apply holds_then
  apply holds_chmod _ _ (hcrash _ hs₂)
  · exact fun e => hfailed e _ (hs₂.trans (unchanged_next s₂))
  have hs₃ := hs₂.trans (unchanged_next s₂)
  apply holds_replace temporary target value s₂.next htemp htarget hvalue (hcrash _ hs₃)
  · exact fun e => hfailed e _ (hs₃.trans (unchanged_next _))
  intro s₄ h₄ habsent
  have hs₄ := hs₃.replaced h₄
  apply holds_removeTemporary_absent _ _ habsent (hreplaced s₄ hs₄)
  exact hok _ (hs₄.unchanged htarget (unchanged_next s₄))

end Decillion.HostRules
