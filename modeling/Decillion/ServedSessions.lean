import Decillion.PullResults
import Decillion.SessionSteps

/-!
Runs of a node that serves the shards of its vault. Messages come in from anyone, and the list
of keys is changed in between. Every shard that is sent is a shard of the model of a session
that its peer has opened while the list allowed it, and no session is good for more shards than
its budget.
-/
namespace Decillion.ServedSessions

open ByteText JsonValues JsonText Primitives Dictionaries PyErrors PyValues AccessRequests
open RaisingPrograms TelepathMessages TelepathSessions TelepathNodes TelepathExchanges
open TelepathServing SessionSteps
open ManifestPaths (textOf)

/-- A message comes in, or the list of keys of the node is changed. -/
inductive Event (F : Type) where
  | request (peerIp : String) (message : RawMessage F)
  | allow (modelId key : String)
  | revoke (modelId key : String)

variable {F : Type} [FloatText F] [FloatTime F] [FloatNumber F] [FloatConversion F] (node : Node F)

def step (s : NodeState F) : Event F → NodeState F
  | .request peerIp message => (node.handleRaw peerIp message s).state
  | .allow modelId key => { s with acl := s.acl.map (fun acl => acl.allow modelId key) }
  | .revoke modelId key => { s with acl := s.acl.map (fun acl => acl.revoke modelId key) }

def run (s : NodeState F) (events : List (Event F)) : NodeState F := events.foldl (step node) s

/-- The session that the payload of a request for a shard names. -/
def askedSession (payload : Json F) : String :=
  match member payload "session_id" (.str "") with
  | .ok asked => textOf node.str asked
  | .error _ => ""

/-- The session that a shard is asked for with, if the response to the event is a shard. -/
def servedTo (s : NodeState F) : Event F → Option String
  | .request peerIp message =>
      match (node.respondRaw peerIp message s).1 with
      | .ok response =>
          if response.type = "SHARD_DATA" then some (askedSession node message.payload) else none
      | .error _ => none
  | _ => none

/-- How many responses to the events are shards that are asked for with a session. -/
def servedShards (id : String) (s : NodeState F) (events : List (Event F)) : ℕ :=
  match events with
  | [] => 0
  | event :: events => (if servedTo node s event = some id then 1 else 0) +
      servedShards id (step node s event) events

/-- A message with which a peer opens a session. -/
def Opens (message : Message F) (s : NodeState F) (session : Session) : Prop :=
  Arrives node message s "SESSION_OPEN" ∧ Accepts node message (node.received s message) session

/-- A session that one of the events has opened. -/
def Opened (s : NodeState F) (events : List (Event F)) (session : Session) : Prop :=
  ∃ (before : List (Event F)) (peerIp : String) (message : Message F),
    before ++ [.request peerIp message.raw] <+: events ∧
    Opens node message (run node s before) session

/-- No session gets the id of an earlier one. -/
def UniqueIds (s : NodeState F) (events : List (Event F)) : Prop :=
  ∀ (before : List (Event F)) (peerIp : String) (message : Message F) (session : Session),
    before ++ [.request peerIp message.raw] <+: events →
    Opens node message (run node s before) session →
    ∀ first, Opened node s before first → first.sessionId ≠ session.sessionId

variable {node} {s : NodeState F} {events : List (Event F)} {event : Event F}

theorem run_concat (s : NodeState F) (events : List (Event F)) (event : Event F) :
    run node s (events ++ [event]) = step node (run node s events) event := by
  rw [run, List.foldl_append]
  rfl

theorem servedShards_concat (id : String) (s : NodeState F) (events : List (Event F))
    (event : Event F) : servedShards node id s (events ++ [event]) = servedShards node id s events +
      (if servedTo node (run node s events) event = some id then 1 else 0) := by
  induction events generalizing s with
  | nil =>
    rw [List.nil_append, servedShards, servedShards, servedShards, Nat.add_zero, Nat.zero_add]
    rfl
  | cons first events ih =>
    rw [List.cons_append, servedShards, servedShards, ih, Nat.add_assoc]
    rfl

theorem opened_concat (session : Session) : Opened node s (events ++ [event]) session ↔
    Opened node s events session ∨
      ∃ (peerIp : String) (message : Message F), event = .request peerIp message.raw ∧
        Opens node message (run node s events) session := by
  constructor
  · rintro ⟨before, peerIp, message, hbefore, hopens⟩
    rcases List.prefix_concat_iff.mp hbefore with heq | hearlier
    · obtain ⟨rfl, hevent⟩ := List.append_inj' heq rfl
      exact Or.inr ⟨peerIp, message, (List.cons.inj hevent).1.symm, hopens⟩
    · exact Or.inl ⟨before, peerIp, message, hearlier, hopens⟩
  · rintro (⟨before, peerIp, message, hbefore, hopens⟩ | ⟨peerIp, message, rfl, hopens⟩)
    · exact ⟨before, peerIp, message, hbefore.trans (List.prefix_append _ _), hopens⟩
    · exact ⟨events, peerIp, message, List.prefix_refl _, hopens⟩

variable (node) in
theorem step_request (peerIp : String) (message : RawMessage F) (s : NodeState F) :
    step node s (.request peerIp message) = (node.respondRaw peerIp message s).2 :=
  Node.handleRaw_state peerIp message s

omit [FloatText F] [FloatConversion F] in
theorem askedSession_charges {message : Message F} {current used : Session} {index : ℤ}
    (h : Charges node message (node.received s message) current used index) :
    askedSession node message.payload = current.sessionId := by
  obtain ⟨members, hpayload, hid, -⟩ := h.asked
  rw [askedSession, member_obj hpayload]
  exact hid.symm

/-- What an event does to the sessions, and the session that a shard is sent for. -/
inductive Moves (node : Node F) (s : NodeState F) (event : Event F) : Prop where
  | quiet (hshrunk : Shrunk s.sessions (step node s event).sessions)
      (hserved : servedTo node s event = none)
  | opens (peerIp : String) (message : Message F) (session : Session)
      (hevent : event = .request peerIp message.raw) (hopens : Opens node message s session)
      (hput : Put session s (step node s event)) (hserved : servedTo node s event = none)
  | charges (peerIp : String) (message : Message F) (current used : Session) (index : ℤ)
      (hevent : event = .request peerIp message.raw)
      (harrives : Arrives node message s "REQUEST_SHARD")
      (hcharges : Charges node message (node.received s message) current used index)
      (hput : Put used s (step node s event))
      (hserved : servedTo node s event = none ∨ servedTo node s event = some current.sessionId)

theorem servedTo_of_bare {peerIp : String} {message : RawMessage F}
    (h : ∀ response, (node.respondRaw peerIp message s).1 = .ok response → Bare response) :
    servedTo node s (.request peerIp message) = none := by
  rw [servedTo]
  cases hresult : (node.respondRaw peerIp message s).1 with
  | error e => rfl
  | ok response => exact if_neg (h response hresult)

variable (node) in
theorem moves_step (s : NodeState F) (event : Event F) : Moves node s event := by
  cases event with
  | allow modelId key => exact .quiet (Shrunk.refl _) rfl
  | revoke modelId key => exact .quiet (Shrunk.refl _) rfl
  | request peerIp message =>
    have hstep := step_request node peerIp message s
    rcases effect_respondRaw node message s peerIp with ⟨text, htext, heffect⟩ | ⟨hquiet, hbare⟩
    · obtain rfl := raw_of_text? htext
      cases heffect with
      | quiet hquiet hbare =>
        refine .quiet ?_ (servedTo_of_bare hbare)
        rw [hstep]
        exact hquiet.sessions
      | opens session harrives haccepts hput hbare =>
        refine .opens peerIp text session rfl ⟨harrives, haccepts⟩ ?_ (servedTo_of_bare hbare)
        rwa [hstep]
      | charges current used index harrives hcharges hput hcarries =>
        refine .charges peerIp text current used index rfl harrives hcharges ?_ ?_
        · rwa [hstep]
        · have hasked : askedSession node text.raw.payload = current.sessionId :=
            askedSession_charges hcharges
          rw [servedTo, hasked]
          cases (node.respondRaw peerIp text.raw s).1 with
          | error e => exact Or.inl rfl
          | ok response =>
            dsimp only
            split
            · exact Or.inr rfl
            · exact Or.inl rfl
    · refine .quiet ?_ (servedTo_of_bare hbare)
      rw [hstep]
      exact hquiet.sessions

/-- What is known of the sessions of a node after some events. -/
structure Accounted (node : Node F) (s : NodeState F) (events : List (Event F)) : Prop where
  limit : (run node s events).sessions.maxSessions = s.sessions.maxSessions
  size : (run node s events).sessions.sessions.size ≤ s.sessions.maxSessions
  registered : ∀ key session, (run node s events).sessions.sessions.get? key = some session →
    ∃ first, Opened node s events first ∧
      session = { first with usedShards := session.usedShards } ∧
      servedShards node key s events ≤ session.usedShards ∧
      (session.usedShards : ℤ) ≤ session.budgetShards
  served : ∀ key, servedShards node key s events ≠ 0 →
    ∃ first, Opened node s events first ∧ first.sessionId = key
  same : ∀ first other, Opened node s events first → Opened node s events other →
    first.sessionId = other.sessionId → first = other
  budget : ∀ first, Opened node s events first →
    (servedShards node first.sessionId s events : ℤ) ≤ first.budgetShards

theorem accepts_unique {message : Message F} {session other : Session}
    (h : Accepts node message s session) (h' : Accepts node message s other) : session = other := by
  obtain ⟨members, hpayload, hmodel⟩ := h.asked
  obtain ⟨members', hpayload', hmodel'⟩ := h'.asked
  obtain rfl := Json.obj.inj (hpayload.symm.trans hpayload')
  obtain ⟨vault, manifest, hvault, hfound, hopened⟩ := h.opened
  obtain ⟨vault', manifest', hvault', hfound', hopened'⟩ := h'.opened
  obtain rfl := Option.some.inj (hvault.symm.trans hvault')
  rw [hmodel', ← hmodel] at hfound' hopened'
  obtain rfl := Option.some.inj (Except.ok.inj (hfound.symm.trans hfound'))
  exact Except.ok.inj (hopened.symm.trans hopened')

theorem servedTo_of_opens {peerIp : String} {message : Message F} {session : Session}
    (h : Opens node message s session) :
    servedTo node s (.request peerIp message.raw) = none := by
  cases moves_step node s (.request peerIp message.raw) with
  | quiet hshrunk hserved => exact hserved
  | opens peerIp message session hevent hopens hput hserved => exact hserved
  | charges peerIp' message' current used index hevent harrives hcharges hput hserved =>
    obtain rfl := raw_injective (Event.request.inj hevent).2
    exact absurd (h.1.type.symm.trans harrives.type) (by decide)

theorem servedShards_of_ne {key : String} (h : servedTo node (run node s events) event ≠ some key) :
    servedShards node key s (events ++ [event]) = servedShards node key s events := by
  rw [servedShards_concat, if_neg h, Nat.add_zero]

variable (node s events event) in
theorem servedShards_le (key : String) :
    servedShards node key s (events ++ [event]) ≤ servedShards node key s events + 1 := by
  rw [servedShards_concat]
  split <;> omega

/-- A session that the event opens gets an id that no earlier one has. -/
def FreshId (node : Node F) (s : NodeState F) (events : List (Event F)) (event : Event F) : Prop :=
  ∀ (peerIp : String) (message : Message F) (session : Session),
    event = .request peerIp message.raw → Opens node message (run node s events) session →
    ∀ first, Opened node s events first → first.sessionId ≠ session.sessionId

section Steps

variable (h : Accounted node s events)
include h

theorem limit_step :
    (run node s (events ++ [event])).sessions.maxSessions = s.sessions.maxSessions := by
  rw [run_concat]
  have hput : ∀ session, Put session (run node s events) (step node (run node s events) event) →
      (step node (run node s events) event).sessions.maxSessions = s.sessions.maxSessions := by
    intro session hput
    obtain ⟨registry, hshrunk, hregistry⟩ := hput.sessions
    rw [hregistry]
    exact hshrunk.limit.trans h.limit
  cases moves_step node (run node s events) event with
  | quiet hshrunk hserved => exact hshrunk.limit.trans h.limit
  | opens peerIp message session hevent hopens hopened hserved => exact hput session hopened
  | charges peerIp message current used index hevent harrives hcharges hused hserved =>
    exact hput used hused

theorem size_step (hmax : 1 ≤ s.sessions.maxSessions) :
    (run node s (events ++ [event])).sessions.sessions.size ≤ s.sessions.maxSessions := by
  rw [run_concat]
  have hput : ∀ session, Put session (run node s events) (step node (run node s events) event) →
      (step node (run node s events) event).sessions.sessions.size ≤ s.sessions.maxSessions := by
    intro session hput
    have hsize := hput.size
    rw [h.limit] at hsize
    exact hsize hmax h.size
  cases moves_step node (run node s events) event with
  | quiet hshrunk hserved => exact hshrunk.size.trans h.size
  | opens peerIp message session hevent hopens hopened hserved => exact hput session hopened
  | charges peerIp message current used index hevent harrives hcharges hused hserved =>
    exact hput used hused

theorem served_of_opened_none {key : String}
    (hnone : ∀ first, Opened node s events first → first.sessionId ≠ key) :
    servedShards node key s events = 0 := by
  by_contra hcount
  obtain ⟨first, hfirst, hkey⟩ := h.served key hcount
  exact hnone first hfirst hkey

/-- A session that is still there after a step that has not charged it. -/
theorem registered_of_kept {key : String} {session : Session}
    (hkept : (run node s events).sessions.sessions.get? key = some session)
    (hserved : servedTo node (run node s events) event ≠ some key) :
    ∃ first, Opened node s (events ++ [event]) first ∧
      session = { first with usedShards := session.usedShards } ∧
      servedShards node key s (events ++ [event]) ≤ session.usedShards ∧
      (session.usedShards : ℤ) ≤ session.budgetShards := by
  obtain ⟨first, hfirst, hsession, hcount, hbudget⟩ := h.registered key session hkept
  refine ⟨first, (opened_concat first).mpr (Or.inl hfirst), hsession, ?_, hbudget⟩
  rwa [servedShards_of_ne hserved]

theorem registered_step (hfresh : FreshId node s events event) (key : String)
    (session : Session)
    (hsession : (run node s (events ++ [event])).sessions.sessions.get? key = some session) :
    ∃ first, Opened node s (events ++ [event]) first ∧
      session = { first with usedShards := session.usedShards } ∧
      servedShards node key s (events ++ [event]) ≤ session.usedShards ∧
      (session.usedShards : ℤ) ≤ session.budgetShards := by
  rw [run_concat] at hsession
  cases moves_step node (run node s events) event with
  | quiet hshrunk hserved =>
    refine registered_of_kept h (hshrunk.kept key session hsession) ?_
    rw [hserved]
    exact (Option.some_ne_none _).symm
  | opens peerIp message opened hevent hopens hput hserved =>
    have hnone : servedTo node (run node s events) event ≠ some key := by
      rw [hserved]
      exact (Option.some_ne_none _).symm
    obtain ⟨registry, hshrunk, hregistry⟩ := hput.sessions
    rw [hregistry, SessionRegistry.get?_put] at hsession
    split at hsession
    · rename_i hkey
      obtain rfl := Option.some.inj hsession
      have hcount := served_of_opened_none h (hfresh peerIp message opened hevent hopens)
      have hbudget := hopens.2.granted.budget.1
      have hused := hopens.2.granted.usedShards
      refine ⟨opened, (opened_concat opened).mpr (Or.inr ⟨peerIp, message, hevent, hopens⟩), rfl,
        ?_, by omega⟩
      rw [servedShards_of_ne hnone, hkey, hcount]
      exact Nat.zero_le _
    · exact registered_of_kept h (hshrunk.kept key session hsession) hnone
  | charges peerIp message current used index hevent harrives hcharges hput hserved =>
    obtain ⟨hopen, hless, hused⟩ := Session.consume_eq_some hcharges.consumed
    obtain ⟨registry, hshrunk, hregistry⟩ := hput.sessions
    rw [hregistry, SessionRegistry.get?_put] at hsession
    have hsame : used.sessionId = current.sessionId := by rw [hused]
    split at hsession
    · rename_i hkey
      obtain rfl := Option.some.inj hsession
      rw [hkey, hsame]
      obtain ⟨first, hfirst, hcurrent, hcount, -⟩ :=
        h.registered current.sessionId current hcharges.found
      have hmore : used.usedShards = current.usedShards + 1 := by rw [hused]
      have hbudget : used.budgetShards = current.budgetShards := by rw [hused]
      refine ⟨first, (opened_concat first).mpr (Or.inl hfirst), ?_, ?_, by omega⟩
      · rw [hused, hcurrent]
      · have hle := servedShards_le node s events event current.sessionId
        omega
    · rename_i hkey
      refine registered_of_kept h (hshrunk.kept key session hsession) ?_
      rcases hserved with hserved | hserved
      · rw [hserved]
        exact (Option.some_ne_none _).symm
      · rw [hserved]
        intro heq
        exact hkey ((Option.some.inj heq).symm.trans hsame.symm)

theorem served_step (key : String) (hcount : servedShards node key s (events ++ [event]) ≠ 0) :
    ∃ first, Opened node s (events ++ [event]) first ∧ first.sessionId = key := by
  by_cases hserved : servedTo node (run node s events) event = some key
  · cases moves_step node (run node s events) event with
    | quiet hshrunk hnone =>
      rw [hnone] at hserved
      cases hserved
    | opens peerIp message opened hevent hopens hput hnone =>
      rw [hnone] at hserved
      cases hserved
    | charges peerIp message current used index hevent harrives hcharges hput hsome =>
      obtain ⟨first, hfirst, hcurrent, -, -⟩ :=
        h.registered current.sessionId current hcharges.found
      refine ⟨first, (opened_concat first).mpr (Or.inl hfirst), ?_⟩
      have hid : first.sessionId = current.sessionId := by rw [hcurrent]
      rcases hsome with hnone | hsome
      · rw [hnone] at hserved
        cases hserved
      · rw [hsome] at hserved
        rw [hid, Option.some.inj hserved]
  · rw [servedShards_of_ne hserved] at hcount
    obtain ⟨first, hfirst, hkey⟩ := h.served key hcount
    exact ⟨first, (opened_concat first).mpr (Or.inl hfirst), hkey⟩

theorem same_step (hfresh : FreshId node s events event) (first other : Session)
    (hfirst : Opened node s (events ++ [event]) first)
    (hother : Opened node s (events ++ [event]) other)
    (hid : first.sessionId = other.sessionId) : first = other := by
  rcases (opened_concat first).mp hfirst with hold | ⟨peerIp, message, hevent, hopens⟩
  · rcases (opened_concat other).mp hother with hold' | ⟨peerIp, message, hevent, hopens⟩
    · exact h.same first other hold hold' hid
    · exact absurd hid (hfresh peerIp message other hevent hopens first hold)
  · rcases (opened_concat other).mp hother with hold' | ⟨peerIp', message', hevent', hopens'⟩
    · exact absurd hid.symm (hfresh peerIp message first hevent hopens other hold')
    · obtain rfl := raw_injective (Event.request.inj (hevent.symm.trans hevent')).2
      exact accepts_unique hopens.2 hopens'.2

theorem budget_step (hfresh : FreshId node s events event) (first : Session)
    (hfirst : Opened node s (events ++ [event]) first) :
    (servedShards node first.sessionId s (events ++ [event]) : ℤ) ≤ first.budgetShards := by
  rcases (opened_concat first).mp hfirst with hold | ⟨peerIp, message, rfl, hopens⟩
  · by_cases hserved : servedTo node (run node s events) event = some first.sessionId
    · cases moves_step node (run node s events) event with
      | quiet hshrunk hnone =>
        rw [hnone] at hserved
        cases hserved
      | opens peerIp message opened hevent hopens hput hnone =>
        rw [hnone] at hserved
        cases hserved
      | charges peerIp message current used index hevent harrives hcharges hput hsome =>
        have hid : current.sessionId = first.sessionId := by
          rcases hsome with hnone | hsome
          · rw [hnone] at hserved
            cases hserved
          · exact Option.some.inj (hsome.symm.trans hserved)
        obtain ⟨opened, hopened, hcurrent, hcount, -⟩ :=
          h.registered current.sessionId current hcharges.found
        have hsame : opened = first := by
          refine h.same opened first hopened hold ?_
          rw [← hid, hcurrent]
        have hbudget : current.budgetShards = first.budgetShards := by rw [hcurrent, hsame]
        obtain ⟨-, hless, -⟩ := Session.consume_eq_some hcharges.consumed
        have hle := servedShards_le node s events event first.sessionId
        rw [hid] at hcount
        omega
    · rw [servedShards_of_ne hserved]
      exact h.budget first hold
  · have hnone : servedTo node (run node s events) (.request peerIp message.raw) ≠
        some first.sessionId := by
      rw [servedTo_of_opens hopens]
      exact (Option.some_ne_none _).symm
    have hcount := served_of_opened_none h (hfresh peerIp message first rfl hopens)
    have hbudget := hopens.2.granted.budget.1
    rw [servedShards_of_ne hnone, hcount]
    omega

/-- What every event keeps. -/
theorem accounted_step (hmax : 1 ≤ s.sessions.maxSessions)
    (hfresh : FreshId node s events event) : Accounted node s (events ++ [event]) where
  limit := limit_step h
  size := size_step h hmax
  registered := registered_step h hfresh
  served := served_step h
  same := same_step h hfresh
  budget := budget_step h hfresh

end Steps

theorem not_opened_nil (session : Session) : ¬ Opened node s [] session := by
  rintro ⟨before, peerIp, message, hbefore, -⟩
  exact absurd (List.prefix_nil.mp hbefore) (by simp)

/-- What is known of the sessions of a node after any events. -/
theorem accounted_run (hmax : 1 ≤ s.sessions.maxSessions)
    (hempty : s.sessions.sessions = Dict.empty) (events : List (Event F))
    (hunique : UniqueIds node s events) : Accounted node s events := by
  induction events using List.reverseRecOn with
  | nil =>
    refine ⟨rfl, ?_, fun key session hsession => ?_, fun key hcount => absurd rfl hcount,
      fun first other hfirst => absurd hfirst (not_opened_nil first),
      fun first hfirst => absurd hfirst (not_opened_nil first)⟩
    · change s.sessions.sessions.size ≤ _
      rw [hempty]
      exact Nat.zero_le _
    · change s.sessions.sessions.get? key = some session at hsession
      rw [hempty, Dict.get?_empty] at hsession
      cases hsession
  | append_singleton events event ih =>
    have hearlier : UniqueIds node s events := fun before peerIp message session hbefore =>
      hunique before peerIp message session (hbefore.trans (List.prefix_append _ _))
    refine accounted_step (ih hearlier) hmax fun peerIp message session hevent => ?_
    refine hunique events peerIp message session ?_
    rw [hevent]

section Served

variable {vault : Vault} {pieces : String → List Bytes}

omit [FloatConversion F] in
/-- The response to a request that is charged to a session of the model. -/
theorem answer_of_carries (hvault : node.vault = some vault) (hintact : Intact F vault pieces)
    (hstr : ∀ n, node.str (.int n) = toString n) {modelId nonce : String} {index : ℤ}
    {sent : Message F} (h : Carries node modelId index sent) :
    ∃ (k : ℕ) (piece : Bytes) (tick : ℕ), (pieces modelId)[k]? = some piece ∧
      node.bindReply sent (.str nonce) =
        answerTo node nonce "SHARD_DATA" (shardMembers node modelId k piece) tick := by
  obtain ⟨opened, now, manifest, data, tick, hopened, hfound, hread, rfl⟩ := h
  obtain rfl := Option.some.inj (hvault.symm.trans hopened)
  obtain ⟨k, rfl, hpiece⟩ := readShard_intact hstr hintact hfound hread
  exact ⟨k, data, tick, hpiece, rfl⟩

omit [FloatText F] [FloatNumber F] [FloatConversion F] in
theorem not_expired_of_consume {session used : Session} {now : ℚ}
    (h : session.consume F now = some used) :
    now ≤ FloatTime.sum F session.openedAt session.ttl :=
  not_lt.mp (of_decide_eq_false (Session.consume_eq_some h).1)

/-- What is right about the shards a node has sent. Each is a shard of the model of a session that
its peer has opened by a message the node has accepted, which says that the list of keys allowed
it, and it is charged to that session in time. No session is charged for more shards than its
budget, none is charged when it has expired, and the registry is never too full. -/
structure ServesRight (node : Node F) (pieces : String → List Bytes) (s : NodeState F)
    (events : List (Event F)) : Prop where
  shards : ∀ (before : List (Event F)) (peerIp : String) (message : RawMessage F)
    (response : Message F), before ++ [.request peerIp message] <+: events →
    (node.respondRaw peerIp message (run node s before)).1 = .ok response →
    response.type = "SHARD_DATA" →
    ∃ nonce first used, message.nonce = .str nonce ∧ Opened node s before first ∧
      message.sender = .str first.peerPub ∧ askedSession node message.payload = first.sessionId ∧
      (∃ (k : ℕ) (piece : Bytes) (tick : ℕ), (pieces first.modelId)[k]? = some piece ∧
        response = answerTo node nonce "SHARD_DATA"
          (shardMembers node first.modelId k piece) tick) ∧
      (run node s before).sessions.sessions.get? first.sessionId =
        some { first with usedShards := used } ∧
      (run node s (before ++ [.request peerIp message])).sessions.sessions.get? first.sessionId =
        some { first with usedShards := used + 1 } ∧
      node.clock ((run node s before).tick + 3) ≤ FloatTime.sum F first.openedAt first.ttl
  budget : ∀ first, Opened node s events first →
    1 ≤ first.budgetShards ∧ first.budgetShards ≤ 1000000 ∧
      (servedShards node first.sessionId s events : ℤ) ≤ first.budgetShards
  late : ∀ (session : Session) (now : ℚ), FloatTime.sum F session.openedAt session.ttl < now →
    session.consume F now = none
  room : (run node s events).sessions.sessions.size ≤ s.sessions.maxSessions

/-- In any run with an intact vault, whoever sends what and however the list of keys changes. -/
theorem served_right (hvault : node.vault = some vault) (hintact : Intact F vault pieces)
    (hstr : ∀ n, node.str (.int n) = toString n) (hmax : 1 ≤ s.sessions.maxSessions)
    (hempty : s.sessions.sessions = Dict.empty) (events : List (Event F))
    (hunique : UniqueIds node s events) : ServesRight node pieces s events := by
  have haccounted := accounted_run hmax hempty events hunique
  refine ⟨?_, fun first hfirst => ?_, fun session now hlate => ?_, haccounted.size⟩
  · intro before peerIp message response hbefore hresponse hdata
    have hearlier : UniqueIds node s before := fun before' peerIp' message' session h =>
      hunique before' peerIp' message' session (h.trans ((List.prefix_append _ _).trans hbefore))
    have hbase := accounted_run hmax hempty before hearlier
    rcases effect_respondRaw node message (run node s before) peerIp with
      ⟨text, htext, heffect⟩ | ⟨-, hbare⟩
    · obtain rfl := raw_of_text? htext
      cases heffect with
      | quiet hquiet hbare => exact absurd hdata (hbare response hresponse)
      | opens session harrives haccepts hput hbare => exact absurd hdata (hbare response hresponse)
      | charges current used index harrives hcharges hput hcarries =>
        obtain ⟨sent, rfl, hsent⟩ := hcarries response hresponse hdata
        obtain ⟨first, hfirst, hcurrent, -, -⟩ :=
          hbase.registered current.sessionId current hcharges.found
        have hid : current.sessionId = first.sessionId := by rw [hcurrent]
        have hmodel : current.modelId = first.modelId := by rw [hcurrent]
        have hpeer : first.peerPub = text.sender := by rw [← hcharges.own, hcurrent]
        have hused := (Session.consume_eq_some hcharges.consumed).2.2
        refine ⟨text.nonce, first, current.usedShards, rfl, hfirst, by rw [hpeer]; rfl,
          (askedSession_charges hcharges).trans hid, ?_, ?_, ?_, ?_⟩
        · rw [← hmodel]
          exact answer_of_carries hvault hintact hstr hsent
        · exact (hid ▸ hcharges.found).trans (congrArg some hcurrent)
        · obtain ⟨registry, -, hregistry⟩ := hput.sessions
          have hmore : used = { first with usedShards := current.usedShards + 1 } := by
            rw [hused, hcurrent]
          rw [run_concat, step_request, hregistry, SessionRegistry.get?_put, hmore, if_pos rfl]
        · have hintime := not_expired_of_consume hcharges.consumed
          rw [hcurrent] at hintime
          exact hintime
    · exact absurd hdata (hbare response hresponse)
  · obtain ⟨before, peerIp, message, hbefore, hopens⟩ := hfirst
    have hbudget := hopens.2.granted.budget
    exact ⟨hbudget.1, hbudget.2,
      haccounted.budget first ⟨before, peerIp, message, hbefore, hopens⟩⟩
  · cases hconsume : session.consume F now with
    | none => rfl
    | some used => exact absurd (not_expired_of_consume hconsume) (not_le.mpr hlate)

end Served

section Samples

open JsonStrings TelepathAnswers ScriptedPeers

/-- A node with a model of one shard. -/
def servingNode : Node WholeFloat :=
  { sampleNode with vault := some servedVault, str := RawManifests.sampleStr }

def servingState : NodeState WholeFloat where
  acl := some ⟨Dict.empty.set "m" [samplePeer.pub]⟩
  sessions := SessionRegistry.new
  nonces := NonceCache.new
  peers := Dict.empty
  peerInfo := Dict.empty
  tick := 0

def openMessage : Message WholeFloat :=
  made samplePeer "SESSION_OPEN" [("model_id", .str "m"), ("budget_shards", .int 1)] 1

def shardMessage : Message WholeFloat :=
  made samplePeer "REQUEST_SHARD"
    [("session_id", .str (hex (octets 16 3))), ("shard_idx", .int 0)] 2

def sampleSession : Session :=
  ⟨hex (octets 16 3), samplePeer.pub, "m", "read", 1, 0, 0, 600⟩

theorem accept_new (key : String × String) :
    NonceCache.new.accept WholeFloat key 0 = (true, NonceCache.new.remember WholeFloat key 0) :=
  NonceCache.accept_fresh WholeFloat (by decide) rfl le_rfl

theorem accept_second {key other : String × String} (h : other ≠ key) :
    (NonceCache.new.remember WholeFloat key 0).accept WholeFloat other 0 =
      (true, (NonceCache.new.remember WholeFloat key 0).remember WholeFloat other 0) := by
  have hroom : (NonceCache.new.remember WholeFloat key 0).seen.size < 100000 := by
    have hsize := Dict.size_set_le (Dict.empty : Dict (String × String) ℚ) key
      (FloatTime.sum WholeFloat 0 600)
    have hempty : (Dict.empty : Dict (String × String) ℚ).size = 0 := rfl
    rw [hempty] at hsize
    exact hsize.trans_lt (by decide)
  have hnone : (NonceCache.new.remember WholeFloat key 0).seen.get? other = none := by
    rw [NonceCache.remember, Dict.get?_set, if_neg h]
    rfl
  exact NonceCache.accept_fresh WholeFloat hroom hnone le_rfl

theorem verify_sample (kind : String) (payload : Members WholeFloat) (tick : ℕ) :
    (verify servingNode.ed 0 (made samplePeer kind payload tick)).1 = true :=
  (verify_made "" (decide_eq_false (by norm_num [samplePeer, maxSkew]))).1

theorem sample_arrives : Arrives servingNode openMessage servingState "SESSION_OPEN" where
  verified := verify_sample _ _ _
  fresh := congrArg Prod.fst (accept_new _)
  type := rfl

theorem manifestOf_sample (now : WholeFloat) : servedVault.manifestOf now "m" =
    .ok (some (RawManifests.rawManifest servedManifest.sorted)) :=
  @manifestOf_published WholeFloat _ servedVault _ servedManifest now servedVault_readable
    servedVault_published

theorem isAllowed_single (modelId key : String) :
    ACL.isAllowed ⟨Dict.empty.set modelId [key]⟩ modelId key = true := by
  have hlisted : (⟨Dict.empty.set modelId [key]⟩ : ACL).listed modelId = [key] := by
    rw [ACL.listed, Dict.get?_set, if_pos rfl]
    rfl
  rw [ACL.isAllowed, hlisted, Bool.or_eq_true]
  exact Or.inr (by simp)

theorem allows_sample :
    (servingNode.received servingState openMessage).allows "m" openMessage.sender = true :=
  isAllowed_single "m" samplePeer.pub

/-- The state in which the session is open. -/
def openedState : NodeState WholeFloat :=
  { servingNode.received servingState openMessage with
    tick := 5
    sessions := (SessionRegistry.new.gc WholeFloat 0).put sampleSession }

theorem openSession_sample :
    ∃ response, servingNode.openSession openMessage
      (servingNode.received servingState openMessage) = (.ok response, openedState) := by
  have hroom :
      (SessionRegistry.new.gc WholeFloat 0).makeRoom = .ok (SessionRegistry.new.gc WholeFloat 0) :=
    if_neg (by decide)
  have hbudget : toInt servingNode.repr (field
      [("model_id", Json.str "m"), ("budget_shards", .int 1)] "budget_shards"
      (RawManifests.rawManifest servedManifest.sorted).nShards) = .ok 1 := rfl
  have httl : toFloat servingNode.repr (field
      [("model_id", Json.str "m"), ("budget_shards", .int 1)] "ttl_s" (.int 600)) =
        .ok (⟨600⟩ : WholeFloat) := rfl
  have hbounds : SessionRegistry.inBounds 1 (FloatNumber.number (⟨600⟩ : WholeFloat)) =
      some 600 := by
    change (if (1 : ℤ) ≤ 1 ∧ (1 : ℤ) ≤ 1000000 ∧ (1 : ℚ) ≤ 600 ∧ (600 : ℚ) ≤ 86400 then
      some (600 : ℚ) else none) = some 600
    exact if_pos (by norm_num)
  have hrun : servingNode.openSession openMessage
      (servingNode.received servingState openMessage) = _ := openSession_run rfl rfl rfl
    (manifestOf_sample _) allows_sample hbudget httl hbounds hroom rfl
    (fun emit hlog => by cases hlog)
  exact ⟨_, hrun⟩

theorem respond_opened : ∃ response, servingNode.respond "ip" openMessage servingState =
    (.ok response, openedState) ∧ Bare response := by
  obtain ⟨response, hopen⟩ := openSession_sample
  have hdispatch : servingNode.dispatch "ip" openMessage
      (servingNode.received servingState openMessage) = (.ok response, openedState) := by
    rw [Node.dispatch, if_neg (by decide), if_pos (by decide), hopen]
  have hbare : Bare response := by
    refine bare_openSession servingNode openMessage
      (servingNode.received servingState openMessage) response ?_
    rw [hopen]
  refine ⟨servingNode.bindReply response (.str openMessage.nonce), ?_, hbare⟩
  rw [respond_received "ip" sample_arrives.verified sample_arrives.fresh, hdispatch]
  rfl

theorem step_opened :
    step servingNode servingState (.request "ip" openMessage.raw) = openedState := by
  obtain ⟨response, hrespond, -⟩ := respond_opened
  rw [step_request]
  exact congrArg Prod.snd hrespond

/-- The open session with another list of keys. -/
def heldState (acl : Option ACL) : NodeState WholeFloat := { openedState with acl := acl }

theorem heldState_self : heldState openedState.acl = openedState := rfl

theorem shard_arrives (acl : Option ACL) :
    Arrives servingNode shardMessage (heldState acl) "REQUEST_SHARD" where
  verified := verify_sample _ _ _
  fresh := by
    have hnonces : (heldState acl).nonces =
        NonceCache.new.remember WholeFloat (openMessage.sender, openMessage.nonce) 0 :=
      congrArg Prod.snd (accept_new _)
    have hother : (shardMessage.sender, shardMessage.nonce) ≠
        (openMessage.sender, openMessage.nonce) := by
      intro h
      have hnonce : hex (octets 16 2) = hex (octets 16 1) := congrArg Prod.snd h
      have hticks := @octets_inj 16 2 1 (by decide) (by decide) (by decide)
        (hex_injective hnonce)
      exact absurd hticks (by decide)
    rw [hnonces]
    exact congrArg Prod.fst (accept_second hother)
  type := rfl

theorem serveShard_sample (acl : Option ACL) : ∃ response s', servingNode.serveShard shardMessage
    (servingNode.received (heldState acl) shardMessage) = (.ok response, s') ∧
      response.type = "SHARD_DATA" := by
  have hfound : (heldState acl).sessions.sessions.get? (hex (octets 16 3)) =
      some sampleSession := by
    have hget := SessionRegistry.get?_put (SessionRegistry.new.gc WholeFloat 0) sampleSession
      sampleSession.sessionId
    rw [if_pos rfl] at hget
    exact hget
  have hopen : sampleSession.expired WholeFloat 0 = false :=
    decide_eq_false (by norm_num [sampleSession])
  have hconsume :
      sampleSession.consume WholeFloat 0 = some { sampleSession with usedShards := 1 } := by
    rw [Session.consume, hopen]
    exact if_neg (by simp [sampleSession])
  have hcharged : (servingNode.charged (servingNode.received (heldState acl) shardMessage)
      shardMessage.sender (hex (octets 16 3))).1 = some _ :=
    charged_of_found hfound hopen rfl hconsume
  have hread := @readShard_published WholeFloat _ _ servedVault _ servedManifest
    RawManifests.sampleStr RawManifests.sampleStr_int servedVault_readable (octets 16 19) rfl
      servedVault_published 0
    [1, 2, 3] rfl
  have hrun : servingNode.serveShard shardMessage
      (servingNode.received (heldState acl) shardMessage) = _ :=
    serveShard_run rfl rfl rfl hcharged (manifestOf_sample _) hread (fun emit hlog => by cases hlog)
  exact ⟨_, _, hrun, rfl⟩

theorem respond_sample (acl : Option ACL) : ∃ response,
    (servingNode.respond "ip" shardMessage (heldState acl)).1 = .ok response ∧
      response.type = "SHARD_DATA" := by
  obtain ⟨response, s', hserve, htype⟩ := serveShard_sample acl
  have hdispatch : servingNode.dispatch "ip" shardMessage
      (servingNode.received (heldState acl) shardMessage) = (.ok response, s') := by
    rw [Node.dispatch, if_neg (by decide), if_neg (by decide), if_pos (by decide), hserve]
  refine ⟨servingNode.bindReply response (.str shardMessage.nonce), ?_, htype⟩
  rw [respond_received "ip" (shard_arrives acl).verified (shard_arrives acl).fresh, hdispatch]
  rfl

/-- A session is opened and a shard asked for. -/
def sampleEvents : List (Event WholeFloat) :=
  [.request "ip" openMessage.raw, .request "ip" shardMessage.raw]

theorem uniqueIds_sample : UniqueIds servingNode servingState sampleEvents := by
  rintro before peerIp message session ⟨rest, hbefore⟩ hopens first hfirst
  cases before with
  | nil => exact absurd hfirst (not_opened_nil first)
  | cons event before =>
    rw [List.cons_append, List.cons_append, sampleEvents] at hbefore
    obtain ⟨-, hrest⟩ := List.cons.inj hbefore
    cases before with
    | nil =>
      obtain rfl := raw_injective (Event.request.inj (List.cons.inj hrest).1).2
      exact absurd hopens.1.type (by decide)
    | cons event' before =>
      rw [List.cons_append, List.cons_append] at hrest
      exact absurd (List.cons.inj hrest).2 (by simp)

/-- A session of one shard that is used up, and the shard is sent. -/
theorem served_right_sample :
    ServesRight servingNode (fun _ => [[1, 2, 3]]) servingState sampleEvents ∧
    ∃ response, (servingNode.respond "ip" shardMessage
      (run servingNode servingState [.request "ip" openMessage.raw])).1 = .ok response ∧
        response.type = "SHARD_DATA" := by
  refine ⟨served_right rfl servedVault_intact RawManifests.sampleStr_int (by decide) rfl
    sampleEvents uniqueIds_sample, ?_⟩
  have hrun : run servingNode servingState [.request "ip" openMessage.raw] = openedState := by
    rw [run, List.foldl_cons, List.foldl_nil, step_opened]
  rw [hrun, ← heldState_self]
  exact respond_sample _

end Samples

end Decillion.ServedSessions
