import Decillion.ReplayWindows
import Decillion.TelepathMessages

/-!
A node of Telepath takes one message after the other in, each between two readings of the
clock. A message is known by its sender, its nonce and the octets that are signed. In exact
time the node dispatches no message twice as long as no message that it has dispatched comes
in again 600 seconds or more later. Both services forget a nonce when it expires, and at
the end of the window of 300 seconds a request is still fresh at that time.
-/
namespace Decillion.TelepathReplays

open ByteText JsonValues JsonText JsonStrings Primitives Dictionaries AccessRequests
  TelepathMessages
open ReplayWindows

/-- The messages dispatched so far, each with the time at which its nonce was accepted. -/
structure Receiver (F : Type) where
  nonces : NonceCache
  dispatched : List (RawMessage F × ℚ)
  tick : ℕ

def Receiver.start {F : Type} : Receiver F := ⟨NonceCache.new, [], 0⟩

variable {F : Type} [FloatText F] [FloatTime F]
variable (ed : Ed25519) (clock : ℕ → ℚ)

/-- What makes two messages the same one, in whatever order a payload lists its members. -/
def identity (message : RawMessage F) : Json F × Json F × Bytes :=
  (message.sender, message.nonce, canonical message.unsigned)

/-- `_handle_connection` up to the dispatch of the message. -/
def handleConnection (s : Receiver F) (message : RawMessage F) : Receiver F :=
  match verifyRaw ed (clock s.tick) message with
  | .ok (true, _) =>
      match acceptRaw s.nonces message (clock (s.tick + 1)) with
      | (.ok true, nonces) =>
          ⟨nonces, s.dispatched ++ [(message, clock (s.tick + 1))], s.tick + 2⟩
      | (_, nonces) => ⟨nonces, s.dispatched, s.tick + 2⟩
  | _ => ⟨s.nonces, s.dispatched, s.tick + 2⟩

def handleAll (s : Receiver F) (messages : List (RawMessage F)) : Receiver F :=
  messages.foldl (handleConnection ed clock) s

/-- A message that passes its checks has not been dispatched 600 seconds ago or earlier. -/
def Timely (s : Receiver F) (message : RawMessage F) : Prop :=
  ∀ reason, verifyRaw ed (clock s.tick) message = .ok (true, reason) → ∀ entry ∈ s.dispatched,
    identity entry.1 = identity message → clock (s.tick + 1) < entry.2 + 600

def TimelyRun (s : Receiver F) : List (RawMessage F) → Prop
  | [] => True
  | message :: rest =>
      Timely ed clock s message ∧ TimelyRun (handleConnection ed clock s message) rest

omit [FloatText F] in
theorem accept_cases (cache : NonceCache) (key : String × String) (current : ℚ) :
    ∃ table, (table = cache ∨ table = cache.purge current) ∧
      (cache.accept F key current = (false, table) ∨
        (table.knows key current = false ∧
          cache.accept F key current = (true, table.remember F key current))) := by
  unfold NonceCache.accept
  by_cases hfull : cache.isFull = true
  · refine ⟨cache.purge current, Or.inr rfl, ?_⟩
    by_cases hpurged : (cache.purge current).isFull = true
    · simp [hfull, hpurged]
    · cases hknown : (cache.purge current).knows key current <;> simp [hfull, hpurged, hknown]
  · refine ⟨cache, Or.inl rfl, ?_⟩
    cases hknown : cache.knows key current <;> simp [hfull, hknown]

omit [FloatText F] in
/-- Only a nonce that is a text and not known is accepted. -/
theorem acceptRaw_cases (cache : NonceCache) (message : RawMessage F) (current : ℚ) :
    ∃ table, (table = cache ∨ table = cache.purge current) ∧
      ((∃ result, result ≠ .ok true ∧ acceptRaw cache message current = (result, table)) ∨
        ∃ sender nonce, message.sender = .str sender ∧ message.nonce = .str nonce ∧
          table.knows (sender, nonce) current = false ∧ acceptRaw cache message current =
            (.ok true, table.remember F (sender, nonce) current)) := by
  unfold acceptRaw
  split
  · rename_i sender nonce hsender hnonce
    obtain ⟨table, htable, hrefused | ⟨hunknown, haccepted⟩⟩ :=
      accept_cases (F := F) cache (sender, nonce) current
    · exact ⟨table, htable, Or.inl ⟨.ok false, by simp, by rw [hrefused]⟩⟩
    · exact ⟨table, htable, Or.inr ⟨sender, nonce, hsender, hnonce, hunknown, by rw [haccepted]⟩⟩
  · refine ⟨if cache.isFull then cache.purge current else cache, ?_, Or.inl ⟨_, ?_, rfl⟩⟩
    · split
      · exact Or.inr rfl
      · exact Or.inl rfl
    · generalize (if cache.isFull = true then cache.purge current else cache).isFull = full
      cases full with
      | false => simp
      | true => simp

/-- What every timely run preserves. -/
structure Kept (s : Receiver F) : Prop where
  ttl : s.nonces.ttl = 600
  covered : ∀ entry ∈ s.dispatched, ∃ sender nonce, entry.1.sender = .str sender ∧
    entry.1.nonce = .str nonce ∧ Covered s.nonces.seen (sender, nonce) entry.2 (clock s.tick)
  once : (s.dispatched.map (fun entry => identity entry.1)).Nodup

variable {clock}

omit [FloatTime F] in
theorem kept_start : Kept clock (Receiver.start : Receiver F) := by
  constructor <;> simp [Receiver.start, NonceCache.new]

omit [FloatTime F] in
theorem Kept.later {s : Receiver F} (h : Kept clock s) {now : ℚ} (hle : clock s.tick ≤ now) :
    ∀ entry ∈ s.dispatched, ∃ sender nonce, entry.1.sender = .str sender ∧
      entry.1.nonce = .str nonce ∧ Covered s.nonces.seen (sender, nonce) entry.2 now := by
  intro entry hentry
  obtain ⟨sender, nonce, hsender, hnonce, hcovered⟩ := h.covered entry hentry
  exact ⟨sender, nonce, hsender, hnonce, hcovered.later hle⟩

omit [FloatTime F] in
/-- The purge that a full table may go through before the nonce is looked up. -/
theorem Kept.purged {s : Receiver F} (h : Kept clock s) (hclock : Monotone clock)
    {table : NonceCache}
    (htable : table = s.nonces ∨ table = s.nonces.purge (clock (s.tick + 1))) :
    table.ttl = 600 ∧ ∀ entry ∈ s.dispatched, ∃ sender nonce, entry.1.sender = .str sender ∧
      entry.1.nonce = .str nonce ∧
      Covered table.seen (sender, nonce) entry.2 (clock (s.tick + 1)) := by
  have hlater := h.later (hclock (Nat.le_succ s.tick))
  rcases htable with rfl | rfl
  · exact ⟨h.ttl, hlater⟩
  · refine ⟨h.ttl, fun entry hentry => ?_⟩
    obtain ⟨sender, nonce, hsender, hnonce, hcovered⟩ := hlater entry hentry
    exact ⟨sender, nonce, hsender, hnonce, hcovered.purge⟩

theorem kept_handleConnection (hexact : ExactSums F) (hclock : Monotone clock) {s : Receiver F}
    (message : RawMessage F) (h : Kept clock s) (htimely : Timely ed clock s message) :
    Kept clock (handleConnection ed clock s message) := by
  have hnext : clock (s.tick + 1) ≤ clock (s.tick + 2) := hclock (Nat.le_succ _)
  have hquiet : Kept clock ⟨s.nonces, s.dispatched, s.tick + 2⟩ :=
    ⟨h.ttl, h.later ((hclock (Nat.le_succ _)).trans hnext), h.once⟩
  unfold handleConnection
  split
  · rename_i reason hverify
    obtain ⟨table, htable, ⟨result, hrefused, haccept⟩ |
      ⟨sender, nonce, hsender, hnonce, hunknown, haccept⟩⟩ :=
        acceptRaw_cases s.nonces message (clock (s.tick + 1))
    · obtain ⟨httl, hcovered⟩ := h.purged hclock htable
      have hkept : Kept clock ⟨table, s.dispatched, s.tick + 2⟩ := by
        refine ⟨httl, fun entry hentry => ?_, h.once⟩
        obtain ⟨sender, nonce, hsender, hnonce, hold⟩ := hcovered entry hentry
        exact ⟨sender, nonce, hsender, hnonce, hold.later hnext⟩
      rw [haccept]
      split
      · rename_i heq
        exact absurd (congrArg Prod.fst heq) hrefused
      · rename_i heq
        obtain rfl := congrArg Prod.snd heq
        exact hkept
    · obtain ⟨httl, hcovered⟩ := h.purged hclock htable
      rw [haccept]
      refine ⟨httl, ?_, ?_⟩
      · intro entry hentry
        rcases List.mem_append.mp hentry with hold | hnew
        · obtain ⟨sender', nonce', hsender', hnonce', hold⟩ := hcovered entry hold
          refine ⟨sender', nonce', hsender', hnonce',
            (hold.remember hexact httl (fun hkey => ?_)).later hnext⟩
          exact (hkey ▸ hold).of_unknown hunknown
        · obtain rfl := List.mem_singleton.mp hnew
          refine ⟨sender, nonce, hsender, hnonce, Or.inl ⟨clock (s.tick + 1) + 600, ?_, le_rfl⟩⟩
          rw [NonceCache.remember, Dict.get?_set, if_pos rfl, httl, hexact]
      · rw [List.map_append, List.nodup_append]
        refine ⟨h.once, List.nodup_singleton _, ?_⟩
        intro old hold new hnew heq
        obtain rfl : new = identity message := List.mem_singleton.mp hnew
        obtain ⟨entry, hentry, rfl⟩ := List.mem_map.mp hold
        have hlate := htimely reason hverify entry hentry heq
        obtain ⟨sender', nonce', hsender', hnonce', hold⟩ := hcovered entry hentry
        have hsame : entry.1.sender = message.sender ∧ entry.1.nonce = message.nonce :=
          ⟨congrArg Prod.fst heq, congrArg (fun key => key.2.1) heq⟩
        rw [hsender', hnonce', hsender, hnonce] at hsame
        obtain rfl := Json.str.inj hsame.1
        obtain rfl := Json.str.inj hsame.2
        exact absurd hlate (not_lt.mpr (hold.of_unknown hunknown))
  · exact hquiet

theorem kept_handleAll (hexact : ExactSums F) (hclock : Monotone clock)
    (messages : List (RawMessage F)) {s : Receiver F} (h : Kept clock s)
    (htimely : TimelyRun ed clock s messages) : Kept clock (handleAll ed clock s messages) := by
  induction messages generalizing s with
  | nil => exact h
  | cons message rest ih =>
    exact ih (kept_handleConnection ed hexact hclock message h htimely.1) htimely.2

/-- Runs of less than 600 seconds are timely. -/
theorem timelyRun_of_short (hshort : ∀ m n, clock m < clock n + 600)
    (messages : List (RawMessage F)) (s : Receiver F)
    (hs : ∀ entry ∈ s.dispatched, ∃ n, entry.2 = clock n) : TimelyRun ed clock s messages := by
  induction messages generalizing s with
  | nil => trivial
  | cons message rest ih =>
    refine ⟨fun _ _ entry hentry _ => ?_, ih _ ?_⟩
    · obtain ⟨n, hn⟩ := hs entry hentry
      rw [hn]
      exact hshort _ n
    · intro entry hentry
      unfold handleConnection at hentry
      split at hentry
      · split at hentry
        · rcases List.mem_append.mp hentry with hold | hnew
          · exact hs entry hold
          · exact ⟨s.tick + 1, by rw [List.mem_singleton.mp hnew]⟩
        · exact hs entry hentry
      · exact hs entry hentry

/-- In every safe run neither service honours a signed request twice. -/
theorem honoured_once (acl : ACL) (hexact : ExactSums F) (hclock : Monotone clock) :
    (∀ (ι : Type) [DecidableEq ι] (calls : ι → AuthorizeCall F) (schedule : List ι),
      SafeRun ed acl clock calls Server.start schedule → ∀ i j a b,
        (ReplayWindows.run ed acl clock calls Server.start schedule).phase i = .returned a →
        (ReplayWindows.run ed acl clock calls Server.start schedule).phase j = .returned b →
        (calls i).request = (calls j).request → i = j) ∧
    ∀ messages : List (RawMessage F), TimelyRun ed clock Receiver.start messages →
      ((handleAll ed clock Receiver.start messages).dispatched.map
        (fun entry => identity entry.1)).Nodup := by
  constructor
  · intro ι _ calls schedule hsafe i j a b hi hj hrequest
    exact returned_once ed acl hexact hclock schedule hsafe i j a b hi hj hrequest
  · intro messages htimely
    exact (kept_handleAll ed hexact hclock messages kept_start htimely).once

/-- A request that is dated 300 seconds ahead of a clock that begins at zero. -/
def earlyRequest : AccessRequest WholeFloat :=
  signRequest Ed25519.sample (octets 32 5) "m" "open" "0123456789abcdef" ⟨300⟩

theorem verifyRequest_early (now : ℚ) (hnow : |now - 300| ≤ 300) :
    verifyRequest Ed25519.sample now earlyRequest = (true, "ok") := by
  apply verifyRequest_signRequest
  · exact octets_length 32 5
  · decide +kernel
  · refine decide_eq_false (not_lt.mpr ?_)
    rwa [sum_wholeFloat, ← sub_eq_add_neg]

def sampleCalls : Bool → AuthorizeCall WholeFloat := fun _ => ⟨earlyRequest, "m", "open"⟩

def sampleAcl : ACL := ⟨Dict.empty.set "m" [hex (octets 32 5)]⟩

theorem isAllowed_sample : sampleAcl.isAllowed "m" (hex (octets 32 5)) = true := by
  decide +kernel

theorem isFull_new (cache : NonceCache) (hmax : cache.maxEntries = 100000)
    (hsize : cache.seen.size ≤ 1) : cache.isFull = false := by
  rw [NonceCache.isFull, decide_eq_false_iff_not, hmax]
  omega

theorem undisturbed_start (clock : ℕ → ℚ) (i : Bool) (hclock : |clock 0 - 300| ≤ 300)
    (hnext : 0 ≤ clock 1) :
    Undisturbed Ed25519.sample sampleAcl clock sampleCalls Server.start i where
  start := rfl
  matching := ⟨rfl, rfl⟩
  verified := verifyRequest_early _ hclock
  room := isFull_new _ rfl (by decide)
  unknown := decide_eq_false (not_lt.mpr hnext)
  allowed := isAllowed_sample

def helloMessage : Message WholeFloat :=
  make Ed25519.sample (octets 32 5) "HELLO" (.obj [("name", .str "a"), ("port", .int 7790)])
    "0123456789abcdef" ⟨300⟩

/-- The same message, whose payload lists its members in another order. -/
def shuffledMessage : RawMessage WholeFloat :=
  { helloMessage.raw with payload := .obj [("port", .int 7790), ("name", .str "a")] }

/-- The second thread comes with the request for which the first one has returned. -/
theorem repeated_second : Repeated Ed25519.sample (fun _ => 300) sampleCalls
    ⟨NonceCache.new.remember WholeFloat (sampleCalls false).key 300,
      Function.update (fun _ => .start) false (.returned 300), 5⟩ true where
  start := rfl
  matching := ⟨rfl, rfl⟩
  verified := verifyRequest_early _ (by norm_num)
  room := isFull_new _ rfl (by decide)
  known := by decide +kernel

/-- The run of the first thread, and then of the second one. -/
def secondRun : Server Bool :=
  ReplayWindows.run Ed25519.sample sampleAcl (fun _ => 300) sampleCalls Server.start
    (List.replicate 5 false ++ List.replicate 3 true)

theorem secondRun_eq : secondRun =
    ⟨NonceCache.new.remember WholeFloat (sampleCalls false).key 300,
      Function.update (Function.update (fun _ => .start) false (.returned 300)) true
        (.refused 409 "request nonce was already used"), 8⟩ := by
  have hfirst := undisturbed_run _ _
    (undisturbed_start (fun _ => 300) false (by norm_num) (by norm_num))
  rw [secondRun, ReplayWindows.run, List.foldl_append]
  rw [ReplayWindows.run] at hfirst
  rw [hfirst]
  exact repeated_run _ sampleAcl repeated_second

theorem safe_second : SafeRun Ed25519.sample sampleAcl (fun _ => 300) sampleCalls Server.start
    (List.replicate 5 false ++ List.replicate 3 true) := by
  have hfirst := undisturbed_start (fun _ => 300) false (by norm_num) (by norm_num)
  apply safeRun_append _ _ _ _ (undisturbed_safe _ _ hfirst (fun _ _ => rfl))
  rw [undisturbed_run _ _ hfirst]
  apply repeated_safe _ _ repeated_second
  · rintro (_ | _) other hphase <;> cases hphase
  · rintro (_ | _) honoured hhonoured
    · obtain rfl := Option.some.inj hhonoured
      norm_num
    · cases hhonoured

/-- A second thread comes with the same request, and a copy of a message with another order of its
payload follows it. -/
theorem honoured_once_sample :
    (secondRun.phase false = .returned 300 ∧
      secondRun.phase true = .refused 409 "request nonce was already used") ∧
    (∀ i j a b, secondRun.phase i = .returned a → secondRun.phase j = .returned b →
      (sampleCalls i).request = (sampleCalls j).request → i = j) ∧
    (handleAll Ed25519.sample (fun _ => 300) Receiver.start
        [helloMessage.raw, shuffledMessage]).dispatched.length = 1 ∧
      ((handleAll Ed25519.sample (fun _ => 300) Receiver.start
        [helloMessage.raw, shuffledMessage]).dispatched.map
          (fun entry => identity entry.1)).Nodup := by
  have hclock : Monotone (fun _ : ℕ => (300 : ℚ)) := monotone_const
  obtain ⟨hserver, hnode⟩ := honoured_once Ed25519.sample (F := WholeFloat) sampleAcl
    exactSums_wholeFloat hclock
  refine ⟨?_, hserver Bool sampleCalls _ safe_second, by decide +kernel,
    hnode _ (timelyRun_of_short _ (by norm_num) _ _ (by simp [Receiver.start]))⟩
  rw [secondRun_eq]
  exact ⟨rfl, rfl⟩

/-- Zero for the first call and 600 for the second. -/
def lateClock (n : ℕ) : ℚ := if n < 5 then 0 else 600

theorem lateClock_monotone : Monotone lateClock := by
  intro m n hmn
  unfold lateClock
  split
  · split <;> norm_num
  · rw [if_neg (by omega)]

/-- The nonce expires at the time at which the request is still fresh. -/
theorem honoured_twice :
    ¬ ∀ (ed : Ed25519) (acl : ACL) (clock : ℕ → ℚ), Monotone clock →
      ∀ (calls : Bool → AuthorizeCall WholeFloat) (schedule : List Bool) (i j : Bool) (a b : ℚ),
        (ReplayWindows.run ed acl clock calls Server.start schedule).phase i = .returned a →
        (ReplayWindows.run ed acl clock calls Server.start schedule).phase j = .returned b →
        (calls i).request = (calls j).request → i = j := by
  intro hclaim
  have hfirst := undisturbed_run _ _
    (undisturbed_start lateClock false (by norm_num [lateClock]) (by norm_num [lateClock]))
  have hsecond : Undisturbed Ed25519.sample sampleAcl lateClock sampleCalls
      ⟨NonceCache.new.remember WholeFloat (sampleCalls false).key 0,
        Function.update (fun _ => .start) false (.returned 0), 5⟩ true :=
    ⟨rfl, ⟨rfl, rfl⟩, verifyRequest_early _ (by norm_num [lateClock]),
      isFull_new _ rfl (by decide), by decide +kernel, isAllowed_sample⟩
  have hrun : ReplayWindows.run Ed25519.sample sampleAcl lateClock sampleCalls Server.start
      (List.replicate 5 false ++ List.replicate 5 true) =
        ReplayWindows.run Ed25519.sample sampleAcl lateClock sampleCalls
          ⟨NonceCache.new.remember WholeFloat (sampleCalls false).key 0,
            Function.update (fun _ => .start) false (.returned 0), 5⟩ (List.replicate 5 true) := by
    rw [ReplayWindows.run, List.foldl_append]
    exact congrArg (fun s => List.foldl _ s _) hfirst
  rw [undisturbed_run _ _ hsecond] at hrun
  have hsame := hclaim Ed25519.sample sampleAcl lateClock lateClock_monotone sampleCalls
    (List.replicate 5 false ++ List.replicate 5 true) false true _ _
    (congrArg (fun s => Server.phase s false) hrun)
    (congrArg (fun s => Server.phase s true) hrun) rfl
  exact Bool.false_ne_true hsame

end Decillion.TelepathReplays
