import Decillion.PeerTables
import Decillion.PullResults

/-!
A broadcast of a node to its peers, while the node handles messages of others. The call goes
from one `await` to the next, and at each of them the node may handle any number of messages.
An iterator over the table of peers knows how many entries there were when it was made, and it
raises when it is asked for the next one and the number is another.
-/
namespace Decillion.RamBroadcasts

open ByteText JsonValues JsonText JsonStrings JsonRoundTrip Primitives Dictionaries PyErrors
open PyValues HostSystem AccessRequests RaisingPrograms TelepathMessages TelepathFrames
open TelepathSessions TelepathNodes TelepathAnswers TelepathPulls TelepathExchanges
open ScriptedPeers PullResults PeerTables

/-- An iterator over the entries of a dictionary from which nothing is deleted. -/
structure Iterator where
  used : ℕ
  position : ℕ

def sizeChanged : PyError := .runtimeError "dictionary changed size during iteration"

/-- `next(iterator)`; `none` when there is no further entry. -/
def Iterator.next {κ ν : Type} (it : Iterator) (d : Dict κ ν) :
    Except PyError (Option ((κ × ν) × Iterator)) :=
  if d.size ≠ it.used then .error sizeChanged
  else .ok ((d.entries[it.position]?).map (fun e => (e, ⟨it.used, it.position + 1⟩)))

abbrev Address := String × ℤ

/-- Connections to the peers: each operation may fail, and only what is written is heard. -/
structure Lines (σ : Type) where
  connect : Address → σ → Except PyError Unit × σ
  write : Address → Bytes → σ → σ
  drain : Address → σ → Except PyError Unit × σ
  receive : Address → σ → Except PyError Bytes × σ
  close : Address → σ → Except PyError Unit × σ

/-- The `await` at which the call stands, or how it has ended. -/
inductive Phase where
  | connecting (peer : String) (address : Address)
  | draining (peer : String) (address : Address)
  | receiving (peer : String) (address : Address)
  | closing (peer : String) (address : Address) (result : Except PyError Unit)
  | ended (result : Except PyError Unit)

structure Broadcast (σ F : Type) where
  client : NodeState F
  lines : σ
  iterator : Iterator
  phase : Phase
  sent : List (String × Message F)

/-- A step of the call, or a message of another peer that the node handles. -/
inductive Event (F : Type) where
  | proceed
  | incoming (peerIp : String) (message : RawMessage F)

variable {σ F : Type}

/-- The head of the loop. -/
def turn (x : Broadcast σ F) : Broadcast σ F :=
  match x.iterator.next x.client.peers with
  | .error e => { x with phase := .ended (.error e) }
  | .ok none => { x with phase := .ended (.ok ()) }
  | .ok (some ((peer, address), iterator)) =>
      { x with iterator := iterator, phase := .connecting peer address }

variable [FloatText F] [FloatTime F] [FloatNumber F] [FloatConversion F] (node : Node F)
  (net : Lines σ)

/-- The call has its connection to a peer and writes the message. -/
def speak (message : Message F) (peer : String) (address : Address) (x : Broadcast σ F) :
    Broadcast σ F :=
  match sendFrame (toDict message) with
  | .error e => { x with phase := .closing peer address (.error e) }
  | .ok frame => { x with
      lines := net.write address frame x.lines
      phase := .draining peer address
      sent := x.sent ++ [(peer, message)] }

/-- From one `await` of the call to the next one. -/
def proceed (message : Message F) (x : Broadcast σ F) : Broadcast σ F :=
  match x.phase with
  | .connecting peer address =>
      match net.connect address x.lines with
      | (.error e, lines) => { x with lines := lines, phase := .ended (.error e) }
      | (.ok (), lines) => speak net message peer address { x with lines := lines }
  | .draining peer address =>
      match net.drain address x.lines with
      | (.error e, lines) =>
          { x with lines := lines, phase := .closing peer address (.error e) }
      | (.ok (), lines) => { x with lines := lines, phase := .receiving peer address }
  | .receiving peer address =>
      match net.receive address x.lines with
      | (.error e, lines) =>
          { x with lines := lines, phase := .closing peer address (.error e) }
      | (.ok stream, lines) => { x with
          client := (checkResponse node message (some peer) stream x.client).2
          lines := lines
          phase := .closing peer address
            ((checkResponse node message (some peer) stream x.client).1.map (fun _ => ())) }
  | .closing _ address result =>
      match net.close address x.lines, result with
      | (.error e, lines), _ => { x with lines := lines, phase := .ended (.error e) }
      | (.ok (), lines), .error e => { x with lines := lines, phase := .ended (.error e) }
      | (.ok (), lines), .ok () => turn { x with lines := lines }
  | .ended _ => x

def step (message : Message F) (x : Broadcast σ F) : Event F → Broadcast σ F
  | .proceed => proceed node net message x
  | .incoming peerIp other =>
      { x with client := (node.handleRaw peerIp other x.client).state }

/-- `protocol.make(protocol.RAM_BROADCAST, self.key, {"key": key, "size_bytes": size_bytes})` -/
def ramMessage (key : String) (sizeBytes : ℤ) (client : NodeState F) : Message F :=
  made node "RAM_BROADCAST" [("key", .str key), ("size_bytes", .int sizeBytes)] client.tick

/-- The call up to its first `await`. -/
def start (client : NodeState F) (lines : σ) : Broadcast σ F :=
  turn ⟨client.next, lines, ⟨client.peers.size, 0⟩, .ended (.ok ()), []⟩

/-- `broadcast_ram` and what the node handles meanwhile. -/
def run (key : String) (sizeBytes : ℤ) (client : NodeState F) (lines : σ)
    (events : List (Event F)) : Broadcast σ F :=
  events.foldl (step node net (ramMessage node key sizeBytes client)) (start client lines)

def Underway (x : Broadcast σ F) : Prop := ∀ result, x.phase ≠ .ended result

/-- The peer that is asked, if there is one. -/
def Phase.asked : Phase → Option String
  | .connecting peer _ => some peer
  | .draining peer _ => some peer
  | .receiving peer _ => some peer
  | .closing peer _ _ => some peer
  | .ended _ => none

/-- A response that is properly signed by the peer and bound to the message. -/
def Bound (message : Message F) (peer : String) (now : ℚ) (stream : Bytes) : Prop :=
  ∃ (value nonce : Json F) (response : RawMessage F) (reason : String),
    recvFrame stream = .ok value ∧ fromDict node.repr value = .ok response ∧
    verifyRaw node.ed now response = .ok (true, reason) ∧
    equalsStr response.sender peer = true ∧
    member response.payload "request_nonce" .null = .ok nonce ∧
    equalsStr nonce message.nonce = true

/-- The peer hears the message, and its response comes. -/
def Answers (message : Message F) (x : Broadcast σ F) : Prop :=
  match x.phase with
  | .connecting _ address => (net.connect address x.lines).1 = .ok () ∧
      ∃ frame, sendFrame (toDict message) = .ok frame
  | .draining _ address => (net.drain address x.lines).1 = .ok ()
  | .receiving peer address => ∃ stream, (net.receive address x.lines).1 = .ok stream ∧
      Bound node message peer (node.clock x.client.tick) stream
  | .closing _ address _ => (net.close address x.lines).1 = .ok ()
  | .ended _ => True

/-- If the asked peer is one of the given ones it answers. -/
def Answered (message : Message F) (peers : Peers) (x : Broadcast σ F) : Prop :=
  ∀ peer, x.phase.asked = some peer → (peers.get? peer).isSome = true → Answers node net message x

/-- A greeting enters a newcomer into the table before the call has ended. -/
def Disturbed (key : String) (sizeBytes : ℤ) (client : NodeState F) (lines : σ)
    (events : List (Event F)) : Prop :=
  ∃ before peerIp other, before ++ [.incoming peerIp other] <+: events ∧
    Underway (run node net key sizeBytes client lines before) ∧
    IntroducesRaw node other (run node net key sizeBytes client lines before).client

section Invariants

/-- The names in a table, in their order. -/
def names (peers : Peers) : List String := peers.entries.map Prod.fst

variable {node} {net} {message : Message F} {peers : Peers} {x : Broadcast σ F}

/-- The messages to the first peers of a list. -/
def sentTo (message : Message F) (listed : List String) : List (String × Message F) :=
  listed.map (fun peer => (peer, message))

/-- The call has sent the message to the peers before the one it is at, all of them have
answered, and the table still begins with the names from the start. -/
def Going (message : Message F) (listed : List String) (x : Broadcast σ F) : Prop :=
  x.iterator.used = listed.length ∧ listed <+: names x.client.peers ∧
  match x.phase with
  | .connecting peer _ => ∃ k, x.iterator.position = k + 1 ∧ listed[k]? = some peer ∧
      x.sent = sentTo message (listed.take k)
  | .draining peer _ => x.iterator.position ≤ listed.length ∧ peer ∈ listed ∧
      x.sent = sentTo message (listed.take x.iterator.position)
  | .receiving peer _ => x.iterator.position ≤ listed.length ∧ peer ∈ listed ∧
      x.sent = sentTo message (listed.take x.iterator.position)
  | .closing peer _ result => result = .ok () ∧ x.iterator.position ≤ listed.length ∧
      peer ∈ listed ∧ x.sent = sentTo message (listed.take x.iterator.position)
  | .ended result => result = .ok () ∧ x.sent = sentTo message listed ∨ result = .error sizeChanged

/-- A newcomer is in the table, or has been when the iterator was asked. -/
def Late (listed : List String) (x : Broadcast σ F) : Prop :=
  match x.phase with
  | .ended result => result = .error sizeChanged
  | _ => listed.length < (names x.client.peers).length

/-- Every peer takes four steps of the call. -/
def Pace (count : ℕ) (x : Broadcast σ F) : Prop :=
  match x.phase with
  | .connecting _ _ => count + 4 = 4 * x.iterator.position
  | .draining _ _ => count + 3 = 4 * x.iterator.position
  | .receiving _ _ => count + 2 = 4 * x.iterator.position
  | .closing _ _ _ => count + 1 = 4 * x.iterator.position
  | .ended _ => True

theorem size_eq_names (peers : Peers) : peers.size = (names peers).length :=
  (List.length_map _).symm

omit [FloatText F] [FloatTime F] [FloatNumber F] [FloatConversion F] in
/-- The head of the loop, with the peers so far behind it. -/
theorem turn_going {listed : List String} (hused : x.iterator.used = listed.length)
    (hlisted : listed <+: names x.client.peers)
    (hsent : x.sent = sentTo message (listed.take x.iterator.position)) :
    Going message listed (turn x) ∧ Pace (4 * x.iterator.position) (turn x) ∧
      (Late listed (turn x) ↔ listed.length < (names x.client.peers).length) := by
  by_cases hsize : listed.length < (names x.client.peers).length
  · have hturn : turn x = { x with phase := .ended (.error sizeChanged) } := by
      rw [turn, Iterator.next, if_pos (by rw [hused, size_eq_names]; omega)]
    rw [hturn]
    exact ⟨⟨hused, hlisted, Or.inr rfl⟩, trivial, iff_of_true rfl hsize⟩
  · have hnames : listed = names x.client.peers :=
      hlisted.eq_of_length (le_antisymm hlisted.length_le (not_lt.mp hsize))
    have hsame : ¬ x.client.peers.size ≠ x.iterator.used := by
      rw [hused, size_eq_names, ← hnames]
      exact not_not.mpr rfl
    have hentry : listed[x.iterator.position]? =
        (x.client.peers.entries[x.iterator.position]?).map Prod.fst := by
      rw [hnames, names, List.getElem?_map]
    cases hnext : x.client.peers.entries[x.iterator.position]? with
    | none =>
      have hturn : turn x = { x with phase := .ended (.ok ()) } := by
        rw [turn, Iterator.next, if_neg hsame, hnext]
        rfl
      rw [hnext, Option.map_none, List.getElem?_eq_none_iff] at hentry
      rw [List.take_of_length_le hentry] at hsent
      rw [hturn]
      exact ⟨⟨hused, hlisted, Or.inl ⟨rfl, hsent⟩⟩, trivial, iff_of_false (by simp [Late]) hsize⟩
    | some e =>
      have hturn : turn x = { x with
          iterator := ⟨x.iterator.used, x.iterator.position + 1⟩
          phase := .connecting e.1 e.2 } := by
        rw [turn, Iterator.next, if_neg hsame, hnext]
        rfl
      rw [hnext] at hentry
      rw [hturn]
      exact ⟨⟨hused, hlisted, _, rfl, hentry, hsent⟩, by simp only [Pace]; omega, Iff.rfl⟩

theorem checkResponse_bound {peer : String} {stream : Bytes} {s : NodeState F}
    (h : Bound node message peer (node.clock s.tick) stream) :
    ∃ response, checkResponse node message (some peer) stream s = (.ok response, s.next) := by
  obtain ⟨value, nonce, response, reason, hvalue, hresponse, hverify, hsender, hnonce, hequal⟩ := h
  have hother : ¬ (some peer).any (fun sender => !equalsStr response.sender sender) = true := by
    simp [hsender]
  refine ⟨response, ?_⟩
  rw [checkResponse, hvalue, bind_lift_ok, hresponse, bind_lift_ok, Node.readClock, bind_change,
    hverify, bind_lift_ok]
  dsimp only
  rw [if_neg hother, hnonce, bind_lift_ok, if_neg (by rw [hequal]; simp)]
  rfl

section Answered

variable {peer : String} {address : Address}

theorem proceed_connecting (h : x.phase = .connecting peer address)
    (hanswers : Answers node net message x) : ∃ lines, proceed node net message x =
      { x with lines := lines, phase := .draining peer address,
               sent := x.sent ++ [(peer, message)] } := by
  simp only [Answers, h] at hanswers
  obtain ⟨hconnect, frame, hframe⟩ := hanswers
  rcases hline : net.connect address x.lines with ⟨result, lines⟩
  rw [hline] at hconnect
  obtain rfl : result = .ok () := hconnect
  simp only [proceed, h, hline, speak, hframe]
  exact ⟨_, rfl⟩

theorem proceed_draining (h : x.phase = .draining peer address)
    (hanswers : Answers node net message x) : ∃ lines, proceed node net message x =
      { x with lines := lines, phase := .receiving peer address } := by
  simp only [Answers, h] at hanswers
  rcases hline : net.drain address x.lines with ⟨result, lines⟩
  rw [hline] at hanswers
  obtain rfl : result = .ok () := hanswers
  simp only [proceed, h, hline]
  exact ⟨_, rfl⟩

theorem proceed_receiving (h : x.phase = .receiving peer address)
    (hanswers : Answers node net message x) : ∃ lines, proceed node net message x =
      { x with client := x.client.next, lines := lines,
               phase := .closing peer address (.ok ()) } := by
  simp only [Answers, h] at hanswers
  obtain ⟨stream, hreceive, hbound⟩ := hanswers
  obtain ⟨response, hchecked⟩ := checkResponse_bound hbound
  rcases hline : net.receive address x.lines with ⟨result, lines⟩
  rw [hline] at hreceive
  obtain rfl : result = .ok stream := hreceive
  simp only [proceed, h, hline, hchecked]
  exact ⟨_, rfl⟩

theorem proceed_closing (h : x.phase = .closing peer address (.ok ()))
    (hanswers : Answers node net message x) : ∃ lines, proceed node net message x =
      turn { x with lines := lines } := by
  simp only [Answers, h] at hanswers
  rcases hline : net.close address x.lines with ⟨result, lines⟩
  rw [hline] at hanswers
  obtain rfl : result = .ok () := hanswers
  simp only [proceed, h, hline]
  exact ⟨lines, rfl⟩

end Answered

/-- A step of the call to its next `await`. -/
theorem proceed_going {listed : List String} {count : ℕ} (h : Going message listed x)
    (hpace : Pace count x) (hanswers : Answers node net message x) :
    Going message listed (proceed node net message x) ∧
      Pace (count + 1) (proceed node net message x) ∧
      (Late listed (proceed node net message x) ↔ Late listed x) := by
  obtain ⟨hused, hlisted, hphase⟩ := h
  unfold Pace at hpace
  cases hstands : x.phase with
  | connecting peer address =>
    obtain ⟨lines, hproceed⟩ := proceed_connecting hstands hanswers
    simp only [hstands] at hphase hpace
    obtain ⟨k, hposition, hpeer, hsent⟩ := hphase
    obtain ⟨hlt, hget⟩ := List.getElem?_eq_some_iff.mp hpeer
    have htake : listed.take (k + 1) = listed.take k ++ [peer] := by
      rw [List.take_succ_eq_append_getElem hlt, hget]
    have hnext : x.sent ++ [(peer, message)] =
        sentTo message (listed.take x.iterator.position) := by
      rw [hposition, htake, hsent, sentTo, sentTo, List.map_append]
      rfl
    rw [hproceed]
    refine ⟨⟨hused, hlisted, ?_, List.mem_of_getElem? hpeer, hnext⟩, ?_, ?_⟩
    · change x.iterator.position ≤ listed.length
      omega
    · simp only [Pace]
      omega
    · simp only [Late, hstands]
  | draining peer address =>
    obtain ⟨lines, hproceed⟩ := proceed_draining hstands hanswers
    simp only [hstands] at hphase hpace
    rw [hproceed]
    refine ⟨⟨hused, hlisted, hphase⟩, ?_, ?_⟩
    · simp only [Pace]
      omega
    · simp only [Late, hstands]
  | receiving peer address =>
    obtain ⟨lines, hproceed⟩ := proceed_receiving hstands hanswers
    simp only [hstands] at hphase hpace
    rw [hproceed]
    refine ⟨⟨hused, hlisted, rfl, hphase⟩, ?_, ?_⟩
    · simp only [Pace]
      omega
    · simp only [Late, hstands]
      exact Iff.rfl
  | closing peer address result =>
    simp only [hstands] at hphase hpace
    obtain ⟨rfl, hposition, hpeer, hsent⟩ := hphase
    obtain ⟨lines, hproceed⟩ := proceed_closing hstands hanswers
    obtain ⟨hgoing, hpaced, hlate⟩ := turn_going (x := { x with lines := lines }) hused hlisted
      hsent
    rw [hproceed, hpace]
    exact ⟨hgoing, hpaced, hlate.trans (by simp only [Late, hstands])⟩
  | ended result =>
    have hproceed : proceed node net message x = x := by simp only [proceed, hstands]
    rw [hproceed]
    exact ⟨⟨hused, hlisted, hphase⟩, by simp only [Pace, hstands], Iff.rfl⟩

/-- A message that the node handles while the call waits. -/
theorem incoming_going (node : Node F) (net : Lines σ) (peerIp : String) (other : RawMessage F)
    {listed : List String} {count : ℕ} (h : Going message listed x) (hpace : Pace count x) :
    Going message listed (step node net message x (.incoming peerIp other)) ∧
      Pace count (step node net message x (.incoming peerIp other)) ∧
      (Late listed (step node net message x (.incoming peerIp other)) ↔
        Late listed x ∨ Underway x ∧ IntroducesRaw node other x.client) := by
  obtain ⟨hused, hlisted, hphase⟩ := h
  have hkeys := keys_handleRaw node peerIp other x.client
  have hle := hlisted.length_le
  refine ⟨⟨hused, ?_, hphase⟩, hpace, ?_⟩
  · change listed <+: (node.handleRaw peerIp other x.client).state.peers.entries.map Prod.fst
    rcases hkeys with ⟨-, newcomer, hkeys⟩ | ⟨-, hkeys⟩
    · rw [hkeys]
      exact hlisted.trans (List.prefix_append _ _)
    · rw [hkeys]
      exact hlisted
  · have hsize : listed.length < (names (node.handleRaw peerIp other
        x.client).state.peers).length ↔
        listed.length < (names x.client.peers).length ∨ IntroducesRaw node other x.client := by
      rcases hkeys with ⟨hnew, newcomer, hkeys⟩ | ⟨hold, hkeys⟩
      · rw [names, hkeys, List.length_append, List.length_singleton]
        exact iff_of_true (Nat.lt_succ_of_le hle) (Or.inr hnew)
      · rw [names, hkeys]
        exact ⟨Or.inl, fun h => h.resolve_right hold⟩
    cases hstands : x.phase with
    | ended result =>
      have hover : ¬ Underway x := fun hunderway => hunderway result hstands
      simp only [Late, step, hstands, hover, false_and, or_false]
    | connecting peer address =>
      have hunderway : Underway x := fun result => by rw [hstands]; exact Phase.noConfusion
      simp only [Late, step, hstands, hunderway, true_and]
      exact hsize
    | draining peer address =>
      have hunderway : Underway x := fun result => by rw [hstands]; exact Phase.noConfusion
      simp only [Late, step, hstands, hunderway, true_and]
      exact hsize
    | receiving peer address =>
      have hunderway : Underway x := fun result => by rw [hstands]; exact Phase.noConfusion
      simp only [Late, step, hstands, hunderway, true_and]
      exact hsize
    | closing peer address result =>
      have hunderway : Underway x := fun result => by rw [hstands]; exact Phase.noConfusion
      simp only [Late, step, hstands, hunderway, true_and]
      exact hsize

end Invariants

section Runs

variable {node} {net} {key : String} {sizeBytes : ℤ} {client : NodeState F} {lines : σ}
  {events : List (Event F)}

def Event.isProceed : Event F → Bool
  | .proceed => true
  | .incoming _ _ => false

/-- At each step of the call the peer that it asks answers, if it has been in the table from the
start. -/
def AllAnswer (node : Node F) (net : Lines σ) (key : String) (sizeBytes : ℤ)
    (client : NodeState F) (lines : σ) (events : List (Event F)) : Prop :=
  ∀ before, before ++ [.proceed] <+: events →
    Answered node net (ramMessage node key sizeBytes client) client.peers
      (run node net key sizeBytes client lines before)

theorem run_concat (events : List (Event F)) (event : Event F) :
    run node net key sizeBytes client lines (events ++ [event]) =
      step node net (ramMessage node key sizeBytes client)
        (run node net key sizeBytes client lines events) event := by
  rw [run, List.foldl_append]
  rfl

theorem disturbed_concat (event : Event F) :
    Disturbed node net key sizeBytes client lines (events ++ [event]) ↔
      Disturbed node net key sizeBytes client lines events ∨
        ∃ peerIp other, event = .incoming peerIp other ∧
          Underway (run node net key sizeBytes client lines events) ∧
          IntroducesRaw node other (run node net key sizeBytes client lines events).client := by
  constructor
  · rintro ⟨before, peerIp, other, hprefix, hunderway, hnew⟩
    rcases List.prefix_concat_iff.mp hprefix with heq | hearlier
    · obtain ⟨rfl, hevent⟩ := List.append_inj' heq rfl
      obtain rfl := List.singleton_inj.mp hevent
      exact Or.inr ⟨peerIp, other, rfl, hunderway, hnew⟩
    · exact Or.inl ⟨before, peerIp, other, hearlier, hunderway, hnew⟩
  · rintro (⟨before, peerIp, other, hearlier, hunderway, hnew⟩ | ⟨peerIp, other, rfl, hlast⟩)
    · exact ⟨before, peerIp, other, hearlier.trans (List.prefix_append _ _), hunderway, hnew⟩
    · exact ⟨events, peerIp, other, List.prefix_refl _, hlast⟩

/-- The peer that the call asks is one of those from the start. -/
theorem asked_of_going {message : Message F} {peers : Peers} {x : Broadcast σ F}
    (h : Going message (names peers) x) (hanswered : Answered node net message peers x) :
    Answers node net message x := by
  obtain ⟨-, -, hphase⟩ := h
  have hknown : ∀ peer ∈ names peers, (peers.get? peer).isSome = true :=
    fun peer => (peers.mem_keys peer).mp
  cases hstands : x.phase with
  | ended result => simp only [Answers, hstands]
  | connecting peer address =>
    simp only [hstands] at hphase
    obtain ⟨k, -, hpeer, -⟩ := hphase
    exact hanswered peer (by rw [hstands]; rfl) (hknown peer (List.mem_of_getElem? hpeer))
  | draining peer address =>
    simp only [hstands] at hphase
    exact hanswered peer (by rw [hstands]; rfl) (hknown peer hphase.2.1)
  | receiving peer address =>
    simp only [hstands] at hphase
    exact hanswered peer (by rw [hstands]; rfl) (hknown peer hphase.2.1)
  | closing peer address result =>
    simp only [hstands] at hphase
    exact hanswered peer (by rw [hstands]; rfl) (hknown peer hphase.2.2.1)

/-- What holds at every moment of a broadcast whose peers answer. -/
theorem run_going (hanswer : AllAnswer node net key sizeBytes client lines events) :
    Going (ramMessage node key sizeBytes client) (names client.peers)
        (run node net key sizeBytes client lines events) ∧
      Pace (events.countP Event.isProceed) (run node net key sizeBytes client lines events) ∧
      (Late (names client.peers) (run node net key sizeBytes client lines events) ↔
        Disturbed node net key sizeBytes client lines events) := by
  induction events using List.reverseRecOn with
  | nil =>
    have hnone : ([] : List (String × Message F)) =
        sentTo (ramMessage node key sizeBytes client) ((names client.peers).take 0) := rfl
    obtain ⟨hgoing, hpace, hlate⟩ := turn_going
      (x := ⟨client.next, lines, ⟨client.peers.size, 0⟩, .ended (.ok ()), []⟩)
      (size_eq_names client.peers) (List.prefix_refl _) hnone
    refine ⟨hgoing, hpace, hlate.trans (iff_of_false (lt_irrefl _) ?_)⟩
    rintro ⟨before, peerIp, other, hprefix, -⟩
    simpa using hprefix.length_le
  | append_singleton events event ih =>
    have hearlier : AllAnswer node net key sizeBytes client lines events :=
      fun before hbefore => hanswer before (hbefore.trans (List.prefix_append _ _))
    obtain ⟨hgoing, hpace, hlate⟩ := ih hearlier
    rw [run_concat, disturbed_concat, List.countP_append, ← hlate]
    cases event with
    | proceed =>
      have hanswers := asked_of_going hgoing (hanswer events (List.prefix_refl _))
      obtain ⟨hgoing', hpace', hlate'⟩ := proceed_going hgoing hpace hanswers
      refine ⟨hgoing', hpace', hlate'.trans ⟨Or.inl, ?_⟩⟩
      rintro (h | ⟨peerIp, other, heq, -⟩)
      · exact h
      · cases heq
    | incoming peerIp other =>
      obtain ⟨hgoing', hpace', hlate'⟩ := incoming_going node net peerIp other hgoing hpace
      refine ⟨hgoing', hpace', hlate'.trans (or_congr Iff.rfl ⟨?_, ?_⟩)⟩
      · rintro ⟨hunderway, hnew⟩
        exact ⟨peerIp, other, rfl, hunderway, hnew⟩
      · rintro ⟨ip, message, heq, hunderway, hnew⟩
        cases heq
        exact ⟨hunderway, hnew⟩

/-- With four steps for every peer the call has ended. -/
theorem ended_of_long (hanswer : AllAnswer node net key sizeBytes client lines events)
    (hlong : 4 * client.peers.size ≤ events.countP Event.isProceed) :
    ∃ result, (run node net key sizeBytes client lines events).phase = .ended result := by
  obtain ⟨⟨-, -, hphase⟩, hpace, -⟩ := run_going hanswer
  rw [size_eq_names] at hlong
  unfold Pace at hpace
  cases hstands : (run node net key sizeBytes client lines events).phase with
  | ended result => exact ⟨result, rfl⟩
  | connecting peer address =>
    simp only [hstands] at hphase hpace
    obtain ⟨k, hposition, hpeer, -⟩ := hphase
    obtain ⟨hlt, -⟩ := List.getElem?_eq_some_iff.mp hpeer
    omega
  | draining peer address =>
    simp only [hstands] at hphase hpace
    obtain ⟨hle, -⟩ := hphase
    omega
  | receiving peer address =>
    simp only [hstands] at hphase hpace
    obtain ⟨hle, -⟩ := hphase
    omega
  | closing peer address result =>
    simp only [hstands] at hphase hpace
    obtain ⟨-, hle, -⟩ := hphase
    omega

/-- A newcomer makes the call raise. -/
theorem raises_of_disturbed (hanswer : AllAnswer node net key sizeBytes client lines events)
    (hlong : 4 * client.peers.size ≤ events.countP Event.isProceed)
    (h : Disturbed node net key sizeBytes client lines events) :
    (run node net key sizeBytes client lines events).phase = .ended (.error sizeChanged) := by
  obtain ⟨result, hended⟩ := ended_of_long hanswer hlong
  have hlate := (run_going hanswer).2.2.mpr h
  simp only [Late, hended] at hlate
  rw [hended, hlate]

/-- A broadcast whose peers answer returns, with the message sent once to every peer, exactly if
no newcomer is entered into the table before it ends. -/
theorem broadcast_iff (hanswer : AllAnswer node net key sizeBytes client lines events)
    (hlong : 4 * client.peers.size ≤ events.countP Event.isProceed) :
    ((run node net key sizeBytes client lines events).phase = .ended (.ok ()) ∧
      (run node net key sizeBytes client lines events).sent =
        sentTo (ramMessage node key sizeBytes client) (names client.peers)) ↔
      ¬ Disturbed node net key sizeBytes client lines events := by
  obtain ⟨result, hended⟩ := ended_of_long hanswer hlong
  obtain ⟨⟨-, -, hphase⟩, -, hlate⟩ := run_going hanswer
  simp only [hended] at hphase
  simp only [Late, hended] at hlate
  rw [← hlate, hended]
  constructor
  · rintro ⟨hok, -⟩ hchanged
    obtain rfl := Phase.ended.inj hok
    cases hchanged
  · intro hsame
    obtain ⟨rfl, hsent⟩ := hphase.resolve_right hsame
    exact ⟨rfl, hsent⟩

end Runs

section Samples

/-- A client with one peer. -/
def sampleClient : NodeState WholeFloat :=
  ⟨none, SessionRegistry.new, NonceCache.new, Dict.empty.set samplePeer.pub ("127.0.0.1", 7789),
    Dict.empty, 0⟩

def sampleAnswer : Message WholeFloat :=
  answerTo samplePeer (hex (sampleNode.uuid 0)) "ACK" [("received", .str "k")] 0

/-- Every connection is made, and the peer answers. -/
def sampleLines : Lines Unit where
  connect := fun _ _ => (.ok (), ())
  write := fun _ _ _ => ()
  drain := fun _ _ => (.ok (), ())
  receive := fun _ _ => (.ok (frameOf sampleAnswer), ())
  close := fun _ _ => (.ok (), ())

/-- A greeting of a node that is not in the table. -/
def sampleGreeting : Message WholeFloat :=
  make Ed25519.sample (octets 32 7) "HELLO" (.obj [("port", .int 7790)]) (hex (octets 16 1)) ⟨0⟩

theorem sample_short : Short sampleNode "RAM_BROADCAST"
    [("key", .str "k"), ("size_bytes", .int 1)] 0 := by
  rw [Short, signedLength]
  decide +kernel

theorem sample_fits :
    Fits samplePeer (hex (sampleNode.uuid 0)) "ACK" [("received", .str "k")] 0 := by
  rw [fits_shallow rfl, signedLength]
  decide +kernel

theorem sample_bound (tick : ℕ) : Bound sampleNode (ramMessage sampleNode "k" 1 sampleClient)
    samplePeer.pub (sampleNode.clock tick) (frameOf sampleAnswer) := by
  have hkeys : DistinctKeys (.obj [("received", .str "k")] : Json WholeFloat) :=
    ⟨by decide, trivial, trivial⟩
  have hread := recvFrame_sendFrame _ _ (distinctKeys_answerTo hkeys)
    (sendFrame_frameOf (fits_iff.mp sample_fits).2)
  have hverify : (verify sampleNode.ed (sampleNode.clock tick) sampleAnswer).1 = true :=
    (verify_made _ (sample_agreed.time tick)).2
  have hresult : verifyRaw sampleNode.ed (sampleNode.clock tick) sampleAnswer.raw =
      .ok (true, (verify sampleNode.ed (sampleNode.clock tick) sampleAnswer).2) := by
    rw [verifyRaw_raw, ← hverify]
  have hequal : ∀ text : String, equalsStr (.str text : Json WholeFloat) text = true := by
    simp [equalsStr]
  have hnonce : member sampleAnswer.payload "request_nonce" .null =
      .ok (.str (hex (sampleNode.uuid 0))) := nonce_answer
  exact ⟨_, _, sampleAnswer.raw, _, hread, fromDict_toDict _ _, hresult, hequal _, hnonce,
    hequal (hex (sampleNode.uuid 0))⟩

theorem sample_answer (events : List (Event WholeFloat)) :
    AllAnswer sampleNode sampleLines "k" 1 sampleClient () events := by
  intro before _ peer hasked hknown
  have hpeer : peer = samplePeer.pub := by
    by_contra hne
    rw [sampleClient, Dict.get?_set, if_neg hne] at hknown
    cases hknown
  subst hpeer
  unfold Answers
  cases hstands : (run sampleNode sampleLines "k" 1 sampleClient () before).phase with
  | connecting peer address => exact ⟨rfl, _, sendFrame_made _ _ _ sample_short⟩
  | draining peer address => rfl
  | receiving peer address =>
    rw [hstands] at hasked
    obtain rfl := Option.some.inj hasked
    exact ⟨_, rfl, sample_bound _⟩
  | closing peer address result => rfl
  | ended result => trivial

/-- The greeting comes at the first `await`. -/
theorem sample_disturbed : Disturbed sampleNode sampleLines "k" 1 sampleClient ()
    [.incoming "127.0.0.1" sampleGreeting.raw, .proceed, .proceed, .proceed, .proceed] := by
  have hphase : (run sampleNode sampleLines "k" 1 sampleClient () []).phase =
      .connecting samplePeer.pub ("127.0.0.1", 7789) := rfl
  have hverify := verify_sign Ed25519.sample (octets 32 7)
    (⟨"HELLO", hex (octets 32 7), hex (octets 16 1), ⟨0⟩, .obj [("port", .int 7790)], ""⟩ :
      Message WholeFloat)
    (octets_length 32 7) rfl (by rw [hex_length, octets_length]; omega) 0
    (decide_eq_false (by norm_num [maxSkew]))
  have hroom : sampleClient.nonces.isFull = false := by decide
  have hunknown : sampleClient.nonces.knows (sampleGreeting.sender, sampleGreeting.nonce) 0 =
      false := decide_eq_false (lt_irrefl _)
  have haccept :
      (sampleClient.nonces.accept WholeFloat (sampleGreeting.sender, sampleGreeting.nonce) 0).1 =
      true := by
    simp only [NonceCache.accept, hroom, hunknown, Bool.false_eq_true, if_false]
  have hother : sampleGreeting.sender ≠ samplePeer.pub := by decide +kernel
  have hnew : sampleClient.peers.get? sampleGreeting.sender = none := by
    rw [sampleClient, Dict.get?_set, if_neg hother]
    rfl
  refine ⟨[], "127.0.0.1", sampleGreeting.raw, ⟨_, rfl⟩, fun result => ?_, sampleGreeting,
    text?_raw _, ⟨congrArg Prod.fst hverify, haccept, rfl, 7790, rfl, by norm_num⟩, hnew⟩
  rw [hphase]
  exact Phase.noConfusion

/-- A greeting of the peer that is in the table. -/
def knownGreeting : Message WholeFloat :=
  make Ed25519.sample samplePeer.key "HELLO" (.obj [("port", .int 7791)]) (hex (octets 16 2)) ⟨0⟩

theorem sample_undisturbed : ¬ Disturbed sampleNode sampleLines "k" 1 sampleClient ()
    [.incoming "127.0.0.1" knownGreeting.raw, .proceed, .proceed, .proceed, .proceed] := by
  rintro ⟨before, peerIp, other, hprefix, -, greeting, htext, -, hnew⟩
  cases before with
  | nil =>
    obtain ⟨hfirst, -⟩ := List.cons_prefix_cons.mp hprefix
    obtain ⟨-, rfl⟩ := Event.incoming.inj hfirst
    rw [text?_raw, Option.some.injEq] at htext
    subst htext
    have hknown : sampleClient.peers.get? samplePeer.pub = some ("127.0.0.1", 7789) := by
      rw [sampleClient, Dict.get?_set, if_pos rfl]
    cases hknown.symm.trans hnew
  | cons event before =>
    obtain ⟨-, hprefix⟩ := List.cons_prefix_cons.mp hprefix
    have hmem := hprefix.subset (List.mem_append_right before (List.mem_singleton_self _))
    simp at hmem

/-- The greeting of a known peer does no harm, and that of a newcomer does. -/
theorem broadcast_iff_sample :
    ((run sampleNode sampleLines "k" 1 sampleClient () [.incoming "127.0.0.1" knownGreeting.raw,
        .proceed, .proceed, .proceed, .proceed]).phase = .ended (.ok ()) ∧
      (run sampleNode sampleLines "k" 1 sampleClient () [.incoming "127.0.0.1" knownGreeting.raw,
        .proceed, .proceed, .proceed, .proceed]).sent =
          sentTo (ramMessage sampleNode "k" 1 sampleClient) [samplePeer.pub]) ∧
    ¬ ((run sampleNode sampleLines "k" 1 sampleClient () [.incoming "127.0.0.1" sampleGreeting.raw,
        .proceed, .proceed, .proceed, .proceed]).phase = .ended (.ok ()) ∧
      (run sampleNode sampleLines "k" 1 sampleClient () [.incoming "127.0.0.1" sampleGreeting.raw,
        .proceed, .proceed, .proceed, .proceed]).sent =
          sentTo (ramMessage sampleNode "k" 1 sampleClient) [samplePeer.pub]) :=
  ⟨(broadcast_iff (sample_answer _) (by decide)).mpr sample_undisturbed,
    fun hreturned => (broadcast_iff (sample_answer _) (by decide)).mp hreturned sample_disturbed⟩

/-- The only peer answers, and the call raises. -/
theorem newcomer_stops_broadcast :
    AllAnswer sampleNode sampleLines "k" 1 sampleClient ()
      [.incoming "127.0.0.1" sampleGreeting.raw, .proceed, .proceed, .proceed, .proceed] ∧
    (run sampleNode sampleLines "k" 1 sampleClient ()
      [.incoming "127.0.0.1" sampleGreeting.raw, .proceed, .proceed, .proceed, .proceed]).phase =
        .ended (.error sizeChanged) :=
  ⟨sample_answer _, raises_of_disturbed (sample_answer _) (by decide) sample_disturbed⟩

end Samples

end Decillion.RamBroadcasts
