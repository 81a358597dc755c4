import Decillion.AccessRequests
import Mathlib.Order.Monotone.Basic
import Mathlib.Tactic.Linarith

/-!
Any number of threads of the vault server authorise requests at the same time. A step of a
thread is one access to the shared table of nonces or one reading of the clock. A request
is honoured at most once in exact time, as long as no thread looks a nonce up while another
one is about to store it, no table is exchanged under a thread that has read an earlier time
or is about to store a nonce, and no request is looked up 600 seconds or more after it was
honoured.
-/
namespace Decillion.ReplayWindows

open JsonText Primitives Dictionaries AccessRequests

/-- A request together with the operation it has to match. -/
structure AuthorizeCall (F : Type) where
  request : AccessRequest F
  modelId : String
  purpose : String

/-- Where a thread stands in `authorize`; `current` is what `accept` has read as the time. -/
inductive Phase where
  | start
  | verified
  | purging (current : ℚ) (table : Dict (String × String) ℚ)
  | looking (current : ℚ)
  | storing (current : ℚ)
  | accepted (current : ℚ)
  | returned (current : ℚ)
  | refused (status : ℕ) (detail : String)

structure Server (ι : Type) where
  nonces : NonceCache
  phase : ι → Phase
  tick : ℕ

variable {F ι : Type} [FloatText F] [FloatTime F]

def AuthorizeCall.key (call : AuthorizeCall F) : String × String :=
  (call.request.requesterPubkey, call.request.nonce)

def Server.start : Server ι := ⟨NonceCache.new, fun _ => .start, 0⟩

variable (ed : Ed25519) (acl : ACL) (clock : ℕ → ℚ) (calls : ι → AuthorizeCall F)

/-- The next step of `authorize` in one thread. -/
def advance (s : Server ι) (i : ι) : NonceCache × Phase :=
  let call := calls i
  let replayed := Phase.refused 409 "request nonce was already used"
  match s.phase i with
  | .start =>
      if call.request.modelId ≠ call.modelId ∨ call.request.purpose ≠ call.purpose then
        (s.nonces, .refused 403 "signed request does not match this operation")
      else match verifyRequest ed (clock s.tick) call.request with
        | (true, _) => (s.nonces, .verified)
        | (false, reason) => (s.nonces, .refused 403 reason)
  | .verified =>
      if s.nonces.isFull then
        (s.nonces, .purging (clock s.tick) (s.nonces.purge (clock s.tick)).seen)
      else (s.nonces, .looking (clock s.tick))
  | .purging current table =>
      let purged := { s.nonces with seen := table }
      (purged, if purged.isFull then replayed else .looking current)
  | .looking current =>
      (s.nonces, if s.nonces.knows call.key current then replayed else .storing current)
  | .storing current => (s.nonces.remember F call.key current, .accepted current)
  | .accepted current =>
      (s.nonces, if acl.isAllowed call.modelId call.request.requesterPubkey then .returned current
        else .refused 403 "not in ACL")
  | phase => (s.nonces, phase)

variable [DecidableEq ι]

def step (s : Server ι) (i : ι) : Server ι :=
  let advanced := advance ed acl clock calls s i
  { nonces := advanced.1
    phase := Function.update s.phase i advanced.2
    tick := s.tick + 1 }

def run (s : Server ι) (schedule : List ι) : Server ι :=
  schedule.foldl (step ed acl clock calls) s

/-- What `accept` read as the time when it honoured a request. -/
def Phase.honouredAt : Phase → Option ℚ
  | .accepted current => some current
  | .returned current => some current
  | _ => none

/-- A step is safe. No table is exchanged by a thread that has read a later time than one that
is about to look a nonce up, no nonce is looked up while another thread is about to store it
or 600 seconds or more after its request was honoured, and none is stored while another
thread exchanges the table. -/
def Safe (s : Server ι) (i : ι) : Prop :=
  match s.phase i with
  | .purging current _ => ∀ j other, s.phase j = .looking other → current ≤ other
  | .looking current =>
      (∀ j other, (calls j).key = (calls i).key → s.phase j ≠ .storing other) ∧
        ∀ j honoured, (s.phase j).honouredAt = some honoured →
          (calls j).request = (calls i).request → current < honoured + 600
  | .storing _ => ∀ j current table, s.phase j ≠ .purging current table
  | _ => True

def SafeRun (s : Server ι) : List ι → Prop
  | [] => True
  | i :: rest => Safe calls s i ∧ SafeRun (step ed acl clock calls s i) rest

/-- A table still bars what was honoured at some time, or that has expired by now. -/
def Covered (table : Dict (String × String) ℚ) (key : String × String) (honoured now : ℚ) : Prop :=
  (∃ expiry, table.get? key = some expiry ∧ honoured + 600 ≤ expiry) ∨ honoured + 600 ≤ now

theorem Covered.later {table : Dict (String × String) ℚ} {key : String × String}
    {honoured now now' : ℚ} (h : Covered table key honoured now) (hle : now ≤ now') :
    Covered table key honoured now' :=
  h.imp id (fun hexpired => hexpired.trans hle)

theorem Covered.purge {cache : NonceCache} {key : String × String} {honoured now : ℚ}
    (h : Covered cache.seen key honoured now) :
    Covered (cache.purge now).seen key honoured now := by
  rcases h with ⟨expiry, hexpiry, hle⟩ | hexpired
  · by_cases hkept : now < expiry
    · refine Or.inl ⟨expiry, ?_, hle⟩
      rw [NonceCache.purge, Dict.get?_filter, hexpiry]
      simp [hkept]
    · exact Or.inr (hle.trans (not_lt.mp hkept))
  · exact Or.inr hexpired

variable (hexact : ExactSums F)

omit [FloatText F] in
include hexact in
/-- Storing a nonce keeps the others, and its own expiry only grows. -/
theorem Covered.remember {cache : NonceCache} {key other : String × String}
    {honoured current now : ℚ} (httl : cache.ttl = 600) (h : Covered cache.seen other honoured now)
    (hown : other = key → honoured + 600 ≤ current) :
    Covered (cache.remember F key current).seen other honoured now := by
  by_cases hkey : other = key
  · refine Or.inl ⟨current + 600, ?_, ?_⟩
    · rw [NonceCache.remember, Dict.get?_set, if_pos hkey, httl, hexact]
    · have hle := hown hkey
      linarith
  · refine h.imp ?_ id
    rintro ⟨expiry, hexpiry, hle⟩
    exact ⟨expiry, by rw [NonceCache.remember, Dict.get?_set, if_neg hkey, hexpiry], hle⟩

/-- A nonce that is not known any more was honoured 600 seconds ago or more. -/
theorem Covered.of_unknown {cache : NonceCache} {key : String × String} {honoured current : ℚ}
    (h : Covered cache.seen key honoured current) (hunknown : cache.knows key current = false) :
    honoured + 600 ≤ current := by
  rcases h with ⟨expiry, hexpiry, hle⟩ | hexpired
  · rw [NonceCache.knows, hexpiry, Option.getD_some, decide_eq_false_iff_not] at hunknown
    exact hle.trans (not_lt.mp hunknown)
  · exact hexpired

/-- What every safe run preserves. -/
structure Inv (s : Server ι) : Prop where
  ttl : s.nonces.ttl = 600
  past : ∀ i current table, s.phase i = .purging current table → current ≤ clock s.tick
  honoured : ∀ j a, (s.phase j).honouredAt = some a →
    Covered s.nonces.seen (calls j).key a (clock s.tick)
  purging : ∀ i current table, s.phase i = .purging current table →
    ∀ j a, (s.phase j).honouredAt = some a → Covered table (calls j).key a current
  looking : ∀ i current, s.phase i = .looking current → ∀ j a,
    (s.phase j).honouredAt = some a → (calls j).key = (calls i).key →
      Covered s.nonces.seen (calls j).key a current
  storing : ∀ i current, s.phase i = .storing current → ∀ j a,
    (s.phase j).honouredAt = some a → (calls j).key = (calls i).key →
      a + 600 ≤ current ∧ (calls j).request ≠ (calls i).request
  single : ∀ i j current other, s.phase i = .storing current → s.phase j = .storing other →
    (calls i).key = (calls j).key → i = j
  once : ∀ i j a b, (s.phase i).honouredAt = some a → (s.phase j).honouredAt = some b →
    (calls i).request = (calls j).request → i = j

variable {clock calls}

omit [FloatText F] [FloatTime F] [DecidableEq ι] in
theorem key_of_request {i j : ι} (h : (calls i).request = (calls j).request) :
    (calls i).key = (calls j).key := by
  rw [AuthorizeCall.key, AuthorizeCall.key, h]

theorem update_cases {phases : ι → Phase} {i k : ι} {phase other : Phase}
    (h : Function.update phases i phase k = other) :
    (k = i ∧ phase = other) ∨ (k ≠ i ∧ phases k = other) := by
  by_cases hki : k = i
  · rw [hki, Function.update_self] at h
    exact Or.inl ⟨hki, h⟩
  · rw [Function.update_of_ne hki] at h
    exact Or.inr ⟨hki, h⟩

omit [FloatText F] [FloatTime F] in
/-- A step that leaves the table alone. -/
theorem inv_quiet (hclock : Monotone clock) {s : Server ι} {i : ι} (phase : Phase)
    (h : Inv clock calls s)
    (hhonoured : ∀ a, phase.honouredAt = some a → (s.phase i).honouredAt = some a)
    (hpurging : ∀ current table, phase = .purging current table → current ≤ clock s.tick ∧
      ∀ j a, (s.phase j).honouredAt = some a → Covered table (calls j).key a current)
    (hlooking : ∀ current, phase = .looking current → ∀ j a, (s.phase j).honouredAt = some a →
      (calls j).key = (calls i).key → Covered s.nonces.seen (calls j).key a current)
    (hstoring : ∀ current, phase = .storing current →
      (∀ j a, (s.phase j).honouredAt = some a → (calls j).key = (calls i).key →
        a + 600 ≤ current ∧ (calls j).request ≠ (calls i).request) ∧
      ∀ j other, (calls j).key = (calls i).key → s.phase j ≠ .storing other) :
    Inv clock calls ⟨s.nonces, Function.update s.phase i phase, s.tick + 1⟩ := by
  have htick : clock s.tick ≤ clock (s.tick + 1) := hclock (Nat.le_succ _)
  have hold : ∀ j a, (Function.update s.phase i phase j).honouredAt = some a →
      (s.phase j).honouredAt = some a := by
    intro j a hj
    rcases update_cases (rfl : Function.update s.phase i phase j = _) with
      ⟨rfl, hphase⟩ | ⟨-, hphase⟩
    · rw [← hphase] at hj
      exact hhonoured a hj
    · rwa [hphase]
  constructor
  · exact h.ttl
  · intro k current table hk
    rcases update_cases hk with ⟨-, hk⟩ | ⟨-, hk⟩
    · exact (hpurging current table hk).1.trans htick
    · exact (h.past k current table hk).trans htick
  · exact fun j a hj => (h.honoured j a (hold j a hj)).later htick
  · intro k current table hk j a hj
    rcases update_cases hk with ⟨-, hk⟩ | ⟨-, hk⟩
    · exact (hpurging current table hk).2 j a (hold j a hj)
    · exact h.purging k current table hk j a (hold j a hj)
  · intro k current hk j a hj
    rcases update_cases hk with ⟨rfl, hphase⟩ | ⟨-, hphase⟩
    · exact hlooking current hphase j a (hold j a hj)
    · exact h.looking k current hphase j a (hold j a hj)
  · intro k current hk j a hj
    rcases update_cases hk with ⟨rfl, hphase⟩ | ⟨-, hphase⟩
    · exact (hstoring current hphase).1 j a (hold j a hj)
    · exact h.storing k current hphase j a (hold j a hj)
  · intro k l current other hk hl hkey
    rcases update_cases hk with ⟨hki, hk'⟩ | ⟨-, hk'⟩
    · rcases update_cases hl with ⟨hli, -⟩ | ⟨-, hl'⟩
      · rw [hki, hli]
      · rw [hki] at hkey
        exact absurd hl' ((hstoring current hk').2 l other hkey.symm)
    · rcases update_cases hl with ⟨hli, hl'⟩ | ⟨-, hl'⟩
      · rw [hli] at hkey
        exact absurd hk' ((hstoring other hl').2 k current hkey)
      · exact h.single k l current other hk' hl' hkey
  · exact fun k l a b hk hl => h.once k l a b (hold k a hk) (hold l b hl)

omit [FloatText F] [FloatTime F] [DecidableEq ι] in
/-- The table that a thread has prepared may take the place of the shared one. -/
theorem inv_exchange {s : Server ι} {i : ι} {current : ℚ} {table : Dict (String × String) ℚ}
    (hphase : s.phase i = .purging current table) (h : Inv clock calls s)
    (hsafe : ∀ j other, s.phase j = .looking other → current ≤ other) :
    Inv clock calls { s with nonces := { s.nonces with seen := table } } := by
  constructor
  · exact h.ttl
  · exact h.past
  · exact fun j a hj => (h.purging i current table hphase j a hj).later (h.past i _ _ hphase)
  · exact h.purging
  · exact fun k other hk j a hj _ =>
      (h.purging i current table hphase j a hj).later (hsafe k other hk)
  · exact h.storing
  · exact h.single
  · exact h.once

omit [FloatText F] in
include hexact in
/-- A request is honoured when its nonce is stored. -/
theorem inv_store (hclock : Monotone clock) {s : Server ι} {i : ι} {current : ℚ}
    (hphase : s.phase i = .storing current) (h : Inv clock calls s)
    (hsafe : ∀ j other table, s.phase j ≠ .purging other table) :
    Inv clock calls ⟨s.nonces.remember F (calls i).key current,
      Function.update s.phase i (.accepted current), s.tick + 1⟩ := by
  have htick : clock s.tick ≤ clock (s.tick + 1) := hclock (Nat.le_succ _)
  have hstored : ∀ now, Covered (s.nonces.remember F (calls i).key current).seen (calls i).key
      current now := by
    intro now
    refine Or.inl ⟨current + 600, ?_, le_rfl⟩
    rw [NonceCache.remember, Dict.get?_set, if_pos rfl, h.ttl, hexact]
  have hkept : ∀ j a now, (s.phase j).honouredAt = some a →
      Covered s.nonces.seen (calls j).key a now →
      Covered (s.nonces.remember F (calls i).key current).seen (calls j).key a now :=
    fun j a now hj hcovered => hcovered.remember hexact h.ttl
      (fun hkey => (h.storing i current hphase j a hj hkey).1)
  -- a thread that now stands where it did not stand before is thread `i`
  have hne : ∀ k phase, Function.update s.phase i (.accepted current) k = phase →
      phase.honouredAt = none → k ≠ i ∧ s.phase k = phase := by
    intro k phase hk hnone
    rcases update_cases hk with ⟨-, rfl⟩ | h
    · simp [Phase.honouredAt] at hnone
    · exact h
  have hcases : ∀ j a, (Function.update s.phase i (.accepted current) j).honouredAt = some a →
      (j = i ∧ a = current) ∨ (s.phase j).honouredAt = some a := by
    intro j a hj
    rcases update_cases (rfl : Function.update s.phase i (.accepted current) j = _) with
      ⟨hji, hphase⟩ | ⟨-, hphase⟩
    · rw [← hphase] at hj
      exact Or.inl ⟨hji, (Option.some.inj hj).symm⟩
    · rw [← hphase] at hj
      exact Or.inr hj
  constructor
  · exact h.ttl
  · intro k other table hk
    exact absurd (hne k _ hk rfl).2 (hsafe k other table)
  · intro j a hj
    rcases hcases j a hj with ⟨rfl, rfl⟩ | hold
    · exact hstored _
    · exact hkept j a _ hold ((h.honoured j a hold).later htick)
  · intro k other table hk
    exact absurd (hne k _ hk rfl).2 (hsafe k other table)
  · intro k other hk j a hj hkey
    rcases hcases j a hj with ⟨rfl, rfl⟩ | hold
    · exact hstored _
    · exact hkept j a _ hold (h.looking k other (hne k _ hk rfl).2 j a hold hkey)
  · intro k other hk j a hj hkey
    obtain ⟨hki, hk'⟩ := hne k _ hk rfl
    rcases hcases j a hj with ⟨rfl, rfl⟩ | hold
    · exact absurd (h.single k j other _ hk' hphase hkey.symm) hki
    · exact h.storing k other hk' j a hold hkey
  · intro k l a b hk hl hkey
    exact h.single k l a b (hne k _ hk rfl).2 (hne l _ hl rfl).2 hkey
  · intro k l a b hk hl hrequest
    rcases hcases k a hk with ⟨rfl, rfl⟩ | hkold
    · rcases hcases l b hl with ⟨rfl, -⟩ | hlold
      · rfl
      · exact absurd hrequest.symm (h.storing k _ hphase l b hlold
          (key_of_request hrequest.symm)).2
    · rcases hcases l b hl with ⟨rfl, rfl⟩ | hlold
      · exact absurd hrequest (h.storing l _ hphase k a hkold (key_of_request hrequest)).2
      · exact h.once k l a b hkold hlold hrequest

omit [FloatText F] [FloatTime F] [DecidableEq ι] in
theorem inv_start : Inv clock calls (Server.start : Server ι) := by
  constructor <;> simp [Server.start, Phase.honouredAt, NonceCache.new]

omit [FloatText F] [FloatTime F] in
/-- A thread that goes on to a phase that holds no table, reads no nonce and stores none. -/
theorem inv_idle (hclock : Monotone clock) {s : Server ι} {i : ι} (phase : Phase)
    (h : Inv clock calls s)
    (hhonoured : ∀ a, phase.honouredAt = some a → (s.phase i).honouredAt = some a)
    (hpurging : ∀ current table, phase ≠ .purging current table)
    (hlooking : ∀ current, phase ≠ .looking current)
    (hstoring : ∀ current, phase ≠ .storing current) :
    Inv clock calls ⟨s.nonces, Function.update s.phase i phase, s.tick + 1⟩ :=
  inv_quiet hclock phase h hhonoured (fun current table hp => absurd hp (hpurging current table))
    (fun current hp => absurd hp (hlooking current))
    (fun current hp => absurd hp (hstoring current))

include hexact in
theorem inv_step (hclock : Monotone clock) {s : Server ι} (i : ι) (h : Inv clock calls s)
    (hsafe : Safe calls s i) : Inv clock calls (step ed acl clock calls s i) := by
  unfold step advance
  unfold Safe at hsafe
  cases hphase : s.phase i with
  | start =>
    simp only
    split
    · exact inv_idle hclock _ h (by simp [Phase.honouredAt]) (by simp) (by simp) (by simp)
    · split
      · exact inv_idle hclock _ h (by simp [Phase.honouredAt]) (by simp) (by simp) (by simp)
      · exact inv_idle hclock _ h (by simp [Phase.honouredAt]) (by simp) (by simp) (by simp)
  | verified =>
    simp only
    split
    · refine inv_quiet hclock _ h (by simp [Phase.honouredAt]) ?_ (by simp) (by simp)
      rintro current table ⟨⟩
      exact ⟨le_rfl, fun j a hj => (h.honoured j a hj).purge⟩
    · refine inv_quiet hclock _ h (by simp [Phase.honouredAt]) (by simp) ?_ (by simp)
      rintro current ⟨⟩ j a hj -
      exact h.honoured j a hj
  | purging current table =>
    rw [hphase] at hsafe
    have hexchanged := inv_exchange hphase h hsafe
    simp only
    split
    · exact inv_idle hclock _ hexchanged (by simp [Phase.honouredAt]) (by simp) (by simp) (by simp)
    · refine inv_quiet hclock _ hexchanged (by simp [Phase.honouredAt]) (by simp) ?_ (by simp)
      rintro current ⟨⟩ j a hj -
      exact h.purging i current table hphase j a hj
  | looking current =>
    rw [hphase] at hsafe
    simp only
    split
    · exact inv_idle hclock _ h (by simp [Phase.honouredAt]) (by simp) (by simp) (by simp)
    · rename_i hunknown
      refine inv_quiet hclock _ h (by simp [Phase.honouredAt]) (by simp) (by simp) ?_
      rintro current ⟨⟩
      refine ⟨fun j a hj hkey => ?_, fun j other hkey => hsafe.1 j other hkey⟩
      have hcovered := h.looking i current hphase j a hj hkey
      rw [hkey] at hcovered
      have hexpired := hcovered.of_unknown (Bool.eq_false_iff.mpr hunknown)
      exact ⟨hexpired, fun hrequest => absurd (hsafe.2 j a hj hrequest) (not_lt.mpr hexpired)⟩
  | storing current =>
    rw [hphase] at hsafe
    exact inv_store hexact hclock hphase h hsafe
  | accepted current =>
    simp only
    split
    · exact inv_idle hclock _ h (by simp [Phase.honouredAt, hphase]) (by simp) (by simp) (by simp)
    · exact inv_idle hclock _ h (by simp [Phase.honouredAt]) (by simp) (by simp) (by simp)
  | returned current =>
    exact inv_idle hclock _ h (by simp [Phase.honouredAt, hphase]) (by simp) (by simp) (by simp)
  | refused status detail =>
    exact inv_idle hclock _ h (by simp [Phase.honouredAt]) (by simp) (by simp) (by simp)

include hexact in
theorem inv_run (hclock : Monotone clock) (schedule : List ι) {s : Server ι}
    (h : Inv clock calls s) (hsafe : SafeRun ed acl clock calls s schedule) :
    Inv clock calls (run ed acl clock calls s schedule) := by
  induction schedule generalizing s with
  | nil => exact h
  | cons i rest ih => exact ih (inv_step ed acl hexact hclock i h hsafe.1) hsafe.2

include hexact in
/-- In a safe run no request is honoured in two calls of `authorize`. -/
theorem returned_once (hclock : Monotone clock) (schedule : List ι)
    (hsafe : SafeRun ed acl clock calls Server.start schedule) (i j : ι) (a b : ℚ)
    (hi : (run ed acl clock calls Server.start schedule).phase i = .returned a)
    (hj : (run ed acl clock calls Server.start schedule).phase j = .returned b)
    (hrequest : (calls i).request = (calls j).request) : i = j :=
  (inv_run ed acl hexact hclock schedule inv_start hsafe).once i j a b (by rw [hi]; rfl)
    (by rw [hj]; rfl) hrequest

variable (clock calls) in
/-- A call that meets no other one and is not refused. -/
structure Undisturbed (s : Server ι) (i : ι) : Prop where
  start : s.phase i = .start
  matching : (calls i).request.modelId = (calls i).modelId ∧
    (calls i).request.purpose = (calls i).purpose
  verified : verifyRequest ed (clock s.tick) (calls i).request = (true, "ok")
  room : s.nonces.isFull = false
  unknown : s.nonces.knows (calls i).key (clock (s.tick + 1)) = false
  allowed : acl.isAllowed (calls i).modelId (calls i).request.requesterPubkey = true

theorem undisturbed_run {s : Server ι} {i : ι}
    (h : Undisturbed ed acl clock calls s i) :
    run ed acl clock calls s (List.replicate 5 i) =
      ⟨s.nonces.remember F (calls i).key (clock (s.tick + 1)),
        Function.update s.phase i (.returned (clock (s.tick + 1))), s.tick + 5⟩ := by
  have hverified : step ed acl clock calls s i =
      ⟨s.nonces, Function.update s.phase i .verified, s.tick + 1⟩ := by
    simp [step, advance, h.start, h.matching.1, h.matching.2, h.verified]
  have hrest : ∀ nonces tick, nonces.isFull = false →
      nonces.knows (calls i).key (clock tick) = false →
      run ed acl clock calls ⟨nonces, Function.update s.phase i .verified, tick⟩
        (List.replicate 4 i) = ⟨nonces.remember F (calls i).key (clock tick),
          Function.update s.phase i (.returned (clock tick)), tick + 4⟩ := by
    intro nonces tick hroom hunknown
    simp only [run, List.replicate, List.foldl_cons, List.foldl_nil, step, advance,
      Function.update_self, Function.update_idem, hroom, hunknown, h.allowed, if_true, if_false,
      Bool.false_eq_true]
  rw [List.replicate_succ, run, List.foldl_cons, hverified]
  exact hrest _ _ h.room h.unknown

/-- Such a call is safe when no other thread has begun its own. -/
theorem undisturbed_safe {s : Server ι} {i : ι}
    (h : Undisturbed ed acl clock calls s i)
    (hothers : ∀ j, j ≠ i → s.phase j = .start) :
    SafeRun ed acl clock calls s (List.replicate 5 i) := by
  have hverified : step ed acl clock calls s i =
      ⟨s.nonces, Function.update s.phase i .verified, s.tick + 1⟩ := by
    simp [step, advance, h.start, h.matching.1, h.matching.2, h.verified]
  have hphase : ∀ phase j, Function.update s.phase i phase j = phase ∨
      Function.update s.phase i phase j = .start := by
    intro phase j
    by_cases hji : j = i
    · exact Or.inl (by rw [hji, Function.update_self])
    · exact Or.inr (by rw [Function.update_of_ne hji, hothers j hji])
  have hrest : ∀ nonces tick, nonces.isFull = false →
      nonces.knows (calls i).key (clock tick) = false →
      SafeRun ed acl clock calls ⟨nonces, Function.update s.phase i .verified, tick⟩
        (List.replicate 4 i) := by
    intro nonces tick hroom hunknown
    simp only [SafeRun, List.replicate, step, advance, Function.update_self, Function.update_idem,
      hroom, hunknown, if_false, Bool.false_eq_true]
    simp only [Safe, Function.update_self, true_and, and_true]
    refine ⟨⟨?_, ?_⟩, ?_⟩
    · intro j other _
      rcases hphase (.looking (clock tick)) j with hj | hj <;> simp [hj]
    · intro j honoured hj
      rcases hphase (.looking (clock tick)) j with hj' | hj' <;> simp [hj', Phase.honouredAt] at hj
    · intro j other table
      rcases hphase (.storing (clock tick)) j with hj | hj <;> simp [hj]
  rw [List.replicate_succ, SafeRun, hverified]
  refine ⟨?_, hrest _ _ h.room h.unknown⟩
  simp [Safe, h.start]

variable (clock calls) in
/-- A call that meets no other one and whose nonce is known. -/
structure Repeated (s : Server ι) (i : ι) : Prop where
  start : s.phase i = .start
  matching : (calls i).request.modelId = (calls i).modelId ∧
    (calls i).request.purpose = (calls i).purpose
  verified : verifyRequest ed (clock s.tick) (calls i).request = (true, "ok")
  room : s.nonces.isFull = false
  known : s.nonces.knows (calls i).key (clock (s.tick + 1)) = true

/-- The steps of such a call, before its nonce is looked up and after it. -/
theorem repeated_steps {s : Server ι} {i : ι} (h : Repeated ed clock calls s i) :
    step ed acl clock calls s i =
      ⟨s.nonces, Function.update s.phase i .verified, s.tick + 1⟩ ∧
    step ed acl clock calls ⟨s.nonces, Function.update s.phase i .verified, s.tick + 1⟩ i =
      ⟨s.nonces, Function.update s.phase i (.looking (clock (s.tick + 1))), s.tick + 2⟩ ∧
    step ed acl clock calls
        ⟨s.nonces, Function.update s.phase i (.looking (clock (s.tick + 1))), s.tick + 2⟩ i =
      ⟨s.nonces, Function.update s.phase i (.refused 409 "request nonce was already used"),
        s.tick + 3⟩ := by
  refine ⟨?_, ?_, ?_⟩
  · simp [step, advance, h.start, h.matching.1, h.matching.2, h.verified]
  · simp [step, advance, h.room]
  · simp [step, advance, h.known]

theorem repeated_run {s : Server ι} {i : ι} (h : Repeated ed clock calls s i) :
    run ed acl clock calls s (List.replicate 3 i) =
      ⟨s.nonces, Function.update s.phase i (.refused 409 "request nonce was already used"),
        s.tick + 3⟩ := by
  obtain ⟨hverified, hlooking, hrefused⟩ := repeated_steps ed acl h
  simp only [run, List.replicate, List.foldl_cons, List.foldl_nil, hverified, hlooking, hrefused]

/-- Such a call is safe when no nonce is about to be stored and all that was honoured was honoured
less than 600 seconds ago. -/
theorem repeated_safe {s : Server ι} {i : ι} (h : Repeated ed clock calls s i)
    (hstoring : ∀ j other, s.phase j ≠ .storing other)
    (hhonoured : ∀ j honoured, (s.phase j).honouredAt = some honoured →
      clock (s.tick + 1) < honoured + 600) :
    SafeRun ed acl clock calls s (List.replicate 3 i) := by
  obtain ⟨hverified, hlooking, -⟩ := repeated_steps ed acl h
  simp only [SafeRun, List.replicate, hverified, hlooking]
  refine ⟨by simp [Safe, h.start], by simp [Safe], ?_, trivial⟩
  simp only [Safe, Function.update_self]
  constructor
  · intro j other _ hj
    rcases update_cases hj with ⟨-, hphase⟩ | ⟨-, hphase⟩
    · cases hphase
    · exact hstoring j other hphase
  · intro j honoured hj _
    rcases update_cases (rfl : Function.update s.phase i _ j = _) with ⟨-, hphase⟩ | ⟨-, hphase⟩
    · rw [← hphase] at hj
      cases hj
    · rw [← hphase] at hj
      exact hhonoured j honoured hj

theorem safeRun_append (first rest : List ι) {s : Server ι}
    (hfirst : SafeRun ed acl clock calls s first)
    (hrest : SafeRun ed acl clock calls (run ed acl clock calls s first) rest) :
    SafeRun ed acl clock calls s (first ++ rest) := by
  induction first generalizing s with
  | nil => exact hrest
  | cons i first ih => exact ⟨hfirst.1, ih hfirst.2 hrest⟩

end Decillion.ReplayWindows
