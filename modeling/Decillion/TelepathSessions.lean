import Decillion.AccessRequests
import Decillion.Dictionaries
import Decillion.PyValues
import Mathlib.Data.List.MinMax

/-!
Sessions of a peer for the shards of one model, with a budget of shards and a time to
live; the time at which a session expires is a rounded sum. The registry of a node forgets a
session when it has expired, and the oldest one when it is full.
-/
namespace Decillion.TelepathSessions

open AccessRequests Dictionaries PyErrors PyValues

structure Session where
  sessionId : String
  peerPub : String
  modelId : String
  purpose : String
  budgetShards : ℤ
  usedShards : ℕ
  openedAt : ℚ
  ttl : ℚ

namespace Session

variable (F : Type) [FloatTime F]

/-- `now > self.opened_at + self.ttl_s` -/
def expired (session : Session) (now : ℚ) : Bool :=
  FloatTime.sum F session.openedAt session.ttl < now

/-- The session with one more shard used, unless it is expired or used up. -/
def consume (session : Session) (now : ℚ) : Option Session :=
  if session.expired F now = true ∨ session.budgetShards ≤ session.usedShards then none
  else some { session with usedShards := session.usedShards + 1 }

variable {F}

theorem consume_eq_some {session used : Session} {now : ℚ} (h : session.consume F now = some used) :
    session.expired F now = false ∧ (session.usedShards : ℤ) < session.budgetShards ∧
      used = { session with usedShards := session.usedShards + 1 } := by
  unfold consume at h
  split at h
  · simp at h
  · rename_i hopen
    rw [not_or, Bool.not_eq_true, not_le] at hopen
    exact ⟨hopen.1, hopen.2, (Option.some.inj h).symm⟩

end Session

/-- Every session is filed under its own id. -/
structure SessionRegistry where
  maxSessions : ℕ
  sessions : Dict String Session
  keyed : ∀ key session, sessions.get? key = some session → session.sessionId = key

namespace SessionRegistry

variable (F : Type) [FloatTime F]

/-- `SessionRegistry()` -/
def new : SessionRegistry := ⟨256, Dict.empty, by simp⟩

def filter (r : SessionRegistry) (p : String → Session → Bool) : SessionRegistry where
  maxSessions := r.maxSessions
  sessions := r.sessions.filter p
  keyed := by
    intro key session h
    rw [Dict.get?_filter, Option.filter_eq_some_iff] at h
    exact r.keyed key session h.1

/-- `self.sessions[session.session_id] = session` -/
def put (r : SessionRegistry) (session : Session) : SessionRegistry where
  maxSessions := r.maxSessions
  sessions := r.sessions.set session.sessionId session
  keyed := by
    intro key other h
    rw [Dict.get?_set] at h
    split at h
    · rename_i hkey
      rw [← Option.some.inj h, hkey]
    · exact r.keyed key other h

/-- `_gc` -/
def gc (r : SessionRegistry) (now : ℚ) : SessionRegistry :=
  r.filter (fun _ session => !session.expired F now)

/-- The session that was opened first, the first of them in the registry. -/
def oldest (r : SessionRegistry) : Option Session :=
  r.sessions.values.argmin Session.openedAt

/-- The oldest session makes room in a full registry. -/
def makeRoom (r : SessionRegistry) : Except PyError SessionRegistry :=
  if r.maxSessions ≤ r.sessions.size then
    match r.oldest with
    | none => .error (.valueError "min() arg is an empty sequence")
    | some oldest => .ok (r.filter (fun key _ => key ≠ oldest.sessionId))
  else .ok r

/-- `1 <= budget <= 1_000_000 and 1 <= ttl_s <= 86_400`, with the time to live in seconds. -/
def inBounds (budget : ℤ) (ttl : Number) : Option ℚ :=
  match ttl with
  | .finite seconds =>
      if 1 ≤ budget ∧ budget ≤ 1000000 ∧ 1 ≤ seconds ∧ seconds ≤ 86400 then some seconds else none
  | _ => none

theorem get?_gc (r : SessionRegistry) (now : ℚ) (key : String) :
    (r.gc F now).sessions.get? key =
      (r.sessions.get? key).filter (fun session => !session.expired F now) :=
  Dict.get?_filter _ _ _

theorem get?_put (r : SessionRegistry) (session : Session) (key : String) :
    (r.put session).sessions.get? key =
      if key = session.sessionId then some session else r.sessions.get? key :=
  Dict.get?_set _ _ _ _

variable {F} in
theorem get?_gc_eq_some {r : SessionRegistry} {now : ℚ} {key : String} {session : Session} :
    (r.gc F now).sessions.get? key = some session ↔
      r.sessions.get? key = some session ∧ session.expired F now = false := by
  rw [get?_gc, Option.filter_eq_some_iff, Bool.not_eq_true']

theorem size_gc_le (r : SessionRegistry) (now : ℚ) : (r.gc F now).sessions.size ≤ r.sessions.size :=
  Dict.size_filter_le _ _

theorem oldest_mem {r : SessionRegistry} {session : Session} (h : r.oldest = some session) :
    r.sessions.get? session.sessionId = some session := by
  obtain ⟨entry, hentry, hvalue⟩ := List.mem_map.mp (List.argmin_mem h)
  have hget := (Dict.get?_eq_some_iff r.sessions entry.1 entry.2).mpr hentry
  rw [hvalue] at hget
  rwa [r.keyed _ _ hget]

theorem oldest_eq_none {r : SessionRegistry} : r.oldest = none ↔ r.sessions.entries = [] := by
  rw [oldest, List.argmin_eq_none, Dict.values, List.map_eq_nil_iff]

/-- A registry for one session at least makes room by dropping one session at most. -/
theorem makeRoom_ok (r : SessionRegistry) (hmax : 1 ≤ r.maxSessions) :
    ∃ r', r.makeRoom = .ok r' ∧ r'.maxSessions = r.maxSessions ∧
      (r.sessions.size ≤ r.maxSessions → r'.sessions.size < r'.maxSessions) ∧
      ∀ key session, r'.sessions.get? key = some session → r.sessions.get? key = some session := by
  unfold makeRoom
  by_cases hfull : r.maxSessions ≤ r.sessions.size
  · rw [if_pos hfull]
    cases holdest : r.oldest with
    | none =>
      rw [oldest_eq_none] at holdest
      rw [Dict.size, holdest, List.length_nil] at hfull
      omega
    | some oldest =>
      refine ⟨_, rfl, rfl, ?_, ?_⟩
      · intro hsize
        have hsome := oldest_mem holdest
        exact (Dict.size_erase_lt r.sessions oldest.sessionId
          (by rw [hsome, Option.isSome_some])).trans_le hsize
      · intro key session h
        rw [filter, Dict.get?_filter, Option.filter_eq_some_iff] at h
        exact h.1
  · rw [if_neg hfull]
    exact ⟨r, rfl, rfl, fun _ => not_le.mp hfull, fun _ _ h => h⟩

theorem inBounds_eq_some {budget : ℤ} {ttl : Number} {seconds : ℚ}
    (h : inBounds budget ttl = some seconds) :
    ttl = .finite seconds ∧ 1 ≤ budget ∧ budget ≤ 1000000 ∧ 1 ≤ seconds ∧ seconds ≤ 86400 := by
  cases ttl with
  | finite value =>
    simp only [inBounds] at h
    split at h
    · rename_i hbounds
      obtain rfl := Option.some.inj h
      exact ⟨rfl, hbounds⟩
    · simp at h
  | infinite positive => simp [inBounds] at h
  | nan => simp [inBounds] at h

end SessionRegistry

end Decillion.TelepathSessions
