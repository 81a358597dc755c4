import Decillion.TelepathFrames

/-!
Frames one after another on one stream. The octets come in pieces of any size, and a reader
asks for exactly as many as it needs. However a stream is cut into pieces, it is read as the
values that were sent, none of its octets is left, and a stream that ends inside a frame
makes the reader raise an exception.
-/
namespace Decillion.FrameStreams

open ByteText JsonValues JsonText JsonCharacters JsonRoundTrip Primitives PyErrors TelepathFrames

/-- The octets that have come in, and the pieces that will come before the end of the stream. -/
structure Stream where
  buffer : Bytes
  arriving : List Bytes

/-- All octets that are still to be read. -/
def Stream.octets (s : Stream) : Bytes := s.buffer ++ s.arriving.flatten

/-- `readexactly(n)` with this buffer, while these pieces are coming in. -/
def readExactly (n : ℕ) (buffer : Bytes) : List Bytes → Except PyError (Bytes × Stream)
  | [] =>
      if buffer.length < n then .error .incompleteRead
      else .ok (buffer.take n, ⟨buffer.drop n, []⟩)
  | piece :: arriving =>
      if buffer.length < n then readExactly n (buffer ++ piece) arriving
      else .ok (buffer.take n, ⟨buffer.drop n, piece :: arriving⟩)

/-- `raise ValueError(f"invalid frame size: {size}")` -/
def invalidSize (size : ℕ) : PyError := .valueError ("invalid frame size: " ++ toString size)

variable {F : Type} [FloatText F]

/-- `recv_frame` -/
def receive (s : Stream) : Except PyError (Json F × Stream) := do
  let (header, s) ← readExactly 4 s.buffer s.arriving
  let size := unpackLength header
  if size ≤ 0 ∨ MAX_FRAME < size then throw (invalidSize size)
  let (body, s) ← readExactly size s.buffer s.arriving
  match (decode body).bind loads with
  | none => throw (.valueError "")
  | some value => return (value, s)

/-- As many calls of `recv_frame`, one after another. -/
def receiveMany : ℕ → Stream → Except PyError (List (Json F) × Stream)
  | 0, s => .ok ([], s)
  | n + 1, s => do
      let (value, s) ← receive s
      let (values, s) ← receiveMany n s
      return (value :: values, s)

/-- A dictionary that `send_frame` can be given: no key occurs twice. -/
structure Record (F : Type) where
  members : Members F
  distinct : DistinctKeys (.obj members)

/-- The frames of the values in order, if `send_frame` accepts them all. -/
def sendMany : List (Record F) → Except PyError Bytes
  | [] => .ok []
  | record :: rest => do
      let frame ← sendFrame (.obj record.members)
      let more ← sendMany rest
      return frame ++ more

section Reading

theorem readExactly_octets (n : ℕ) (buffer : Bytes) (arriving : List Bytes) :
    (buffer ++ arriving.flatten).length < n ∧
        readExactly n buffer arriving = .error .incompleteRead ∨
      n ≤ (buffer ++ arriving.flatten).length ∧ ∃ s,
        readExactly n buffer arriving = .ok ((buffer ++ arriving.flatten).take n, s) ∧
          s.octets = (buffer ++ arriving.flatten).drop n := by
  induction arriving generalizing buffer with
  | nil =>
    rw [List.flatten_nil, List.append_nil, readExactly]
    split
    · rename_i hshort
      exact Or.inl ⟨hshort, rfl⟩
    · rename_i hlong
      refine Or.inr ⟨not_lt.mp hlong, _, rfl, ?_⟩
      rw [Stream.octets, List.flatten_nil, List.append_nil]
  | cons piece arriving ih =>
    have hoctets : buffer ++ (piece :: arriving).flatten =
        (buffer ++ piece) ++ arriving.flatten := by
      rw [List.flatten_cons, List.append_assoc]
    rw [readExactly]
    split
    · rw [hoctets]
      exact ih (buffer ++ piece)
    · rename_i hlong
      rw [not_lt] at hlong
      have htake : (buffer ++ (piece :: arriving).flatten).take n = buffer.take n :=
        List.take_append_of_le_length hlong
      have hdrop : (buffer ++ (piece :: arriving).flatten).drop n =
          buffer.drop n ++ (piece :: arriving).flatten := List.drop_append_of_le_length hlong
      refine Or.inr ⟨?_, ⟨buffer.drop n, piece :: arriving⟩, ?_, ?_⟩
      · rw [List.length_append]
        omega
      · rw [htake]
      · rw [hdrop, Stream.octets]

theorem readExactly_short {n : ℕ} {s : Stream} (h : s.octets.length < n) :
    readExactly n s.buffer s.arriving = .error .incompleteRead := by
  rcases readExactly_octets n s.buffer s.arriving with ⟨-, hread⟩ | ⟨hlong, -⟩
  · exact hread
  · exact absurd h (not_lt.mpr hlong)

theorem readExactly_append {front back : Bytes} {s : Stream} (h : s.octets = front ++ back) :
    ∃ s', readExactly front.length s.buffer s.arriving = .ok (front, s') ∧ s'.octets = back := by
  rcases readExactly_octets front.length s.buffer s.arriving with
    ⟨hshort, -⟩ | ⟨-, s', hread, hrest⟩
  · rw [Stream.octets] at h
    rw [h, List.length_append] at hshort
    omega
  · rw [Stream.octets] at h
    rw [h, List.take_left] at hread
    rw [h, List.drop_left] at hrest
    exact ⟨s', hread, hrest⟩

end Reading

section Frames

variable {s : Stream} {value : Json F} {frame back body : Bytes} {n : ℕ}

theorem frame_eq (h : sendFrame value = .ok frame) : ∃ body : Bytes,
    body = encode (dumps compact value) ∧ 1 ≤ body.length ∧ body.length ≤ MAX_FRAME ∧
      frame = packLength body.length ++ body := by
  have hlength := encode_dumps_length value
  have hpositive := List.length_pos_iff.mpr (dump_ne_nil compact 0 value)
  rw [sendFrame_eq, ← hlength] at h
  split at h
  · rename_i hfits
    exact ⟨_, rfl, by omega, hfits, (Except.ok.inj h).symm⟩
  · simp at h

/-- What the receiver does with a body of any size. -/
theorem receive_sized (hn : n < 2 ^ 32) (hbody : body.length = n)
    (hs : s.octets = packLength n ++ body ++ back) :
    (¬ (1 ≤ n ∧ n ≤ MAX_FRAME) → receive (F := F) s = .error (invalidSize n)) ∧
    (1 ≤ n ∧ n ≤ MAX_FRAME → ∃ s', s'.octets = back ∧
      receive (F := F) s = (((decode body).bind loads).elim (.error (.valueError ""))
        (fun value => .ok (value, s')))) := by
  rw [List.append_assoc] at hs
  obtain ⟨s₁, hheader, hs₁⟩ := readExactly_append hs
  rw [show (packLength n).length = 4 from octets_length 4 n] at hheader
  have hsize := unpackLength_packLength n hn
  constructor
  · intro hbad
    rw [receive, hheader]
    simp only [ok_bind, hsize]
    rw [if_pos (by omega)]
    rfl
  · rintro ⟨hlow, hhigh⟩
    obtain ⟨s', hread, hs'⟩ := readExactly_append hs₁
    rw [hbody] at hread
    refine ⟨s', hs', ?_⟩
    rw [receive, hheader]
    simp only [ok_bind, hsize]
    rw [if_neg (by omega), hread, ok_bind]
    cases (decode body).bind (loads (F := F)) <;> rfl

/-- A frame at the front of the stream is read as its value, and no octet more. -/
theorem receive_frame (hkeys : DistinctKeys value) (h : sendFrame value = .ok frame)
    (hs : s.octets = frame ++ back) :
    ∃ s', receive s = .ok (value, s') ∧ s'.octets = back := by
  obtain ⟨body, hbody, hlow, hhigh, rfl⟩ := frame_eq h
  have hloads := loads_dumps compact value hkeys [] rfl
  rw [List.append_nil] at hloads
  have hmax : MAX_FRAME < 2 ^ 32 := by decide
  obtain ⟨s', hs', hreceive⟩ := (receive_sized (F := F) (by omega) rfl hs).2 ⟨hlow, hhigh⟩
  refine ⟨s', ?_, hs'⟩
  rw [hreceive, hbody, decode_encode, Option.bind_some]
  rw [show loads (dumps compact value) = some value from hloads]
  rfl

/-- A stream that ends inside a frame is not read as a value. -/
theorem receive_cut (h : sendFrame value = .ok frame) (hfront : s.octets <+: frame)
    (hcut : s.octets ≠ frame) : receive (F := F) s = .error .incompleteRead := by
  obtain ⟨body, -, hlow, hhigh, rfl⟩ := frame_eq h
  have hheader : (packLength body.length).length = 4 := octets_length 4 _
  have hlength : s.octets.length < 4 + body.length := by
    have hle := hfront.length_le
    have hne : s.octets.length ≠ (packLength body.length ++ body).length := fun heq =>
      hcut (hfront.eq_of_length heq)
    rw [List.length_append, hheader] at hle hne
    omega
  by_cases hshort : s.octets.length < 4
  · rw [receive, readExactly_short hshort]
    rfl
  · obtain ⟨rest, hrest⟩ := List.prefix_of_prefix_length_le (List.prefix_append _ _) hfront
      (by omega : (packLength body.length).length ≤ s.octets.length)
    obtain ⟨s₁, hread, hs₁⟩ := readExactly_append hrest.symm
    rw [hheader] at hread
    have hsize := unpackLength_packLength body.length (hhigh.trans_lt (by decide))
    have hless : s₁.octets.length < body.length := by
      rw [hs₁]
      rw [← hrest, List.length_append, hheader] at hlength
      omega
    rw [receive, hread]
    simp only [ok_bind, hsize]
    rw [if_neg (by omega), readExactly_short hless]
    rfl

end Frames

section Streams

variable {s : Stream} {records : List (Record F)} {sent back : Bytes}

/-- As many calls as there are frames return the values in their order. -/
theorem receiveMany_sent (h : sendMany records = .ok sent) (hs : s.octets = sent ++ back) :
    ∃ s', receiveMany records.length s =
      .ok (records.map (fun record => .obj record.members), s') ∧ s'.octets = back := by
  induction records generalizing s sent with
  | nil =>
    obtain rfl := Except.ok.inj h
    exact ⟨s, rfl, hs⟩
  | cons record rest ih =>
    obtain ⟨frame, hframe, h⟩ := bind_eq_ok h
    obtain ⟨more, hmore, h⟩ := bind_eq_ok h
    obtain rfl := Except.ok.inj h
    rw [List.append_assoc] at hs
    obtain ⟨s₁, hfirst, hs₁⟩ := receive_frame record.distinct hframe hs
    obtain ⟨s', hrest, hs'⟩ := ih hmore hs₁
    refine ⟨s', ?_, hs'⟩
    rw [List.length_cons, receiveMany, hfirst]
    simp only [ok_bind, hrest]
    rfl

end Streams

/-- Whatever is sent is read back from every stream of the same octets, which is used up; after
the frames of a stream that ends inside a frame there is an exception; and the sizes that one
end sends are those that the other end takes. -/
theorem frames_round_trip (F : Type) [FloatText F] :
    (∀ (records : List (Record F)) (sent : Bytes) (s : Stream), sendMany records = .ok sent →
      s.octets = sent → ∃ s', receiveMany records.length s =
        .ok (records.map (fun record => .obj record.members), s') ∧ s'.octets = []) ∧
    (∀ (records : List (Record F)) (sent : Bytes) (last : Record F) (frame cut : Bytes)
      (s : Stream), sendMany records = .ok sent → sendFrame (.obj last.members) = .ok frame →
      cut <+: frame → cut ≠ frame → s.octets = sent ++ cut → ∃ s',
        receiveMany records.length s =
          .ok (records.map (fun record => .obj record.members), s') ∧
        receive (F := F) s' = .error .incompleteRead) ∧
    (∀ record : Record F, (∃ frame, sendFrame (.obj record.members) = .ok frame) ↔
      1 ≤ (encode (dumps compact (.obj record.members))).length ∧
        (encode (dumps compact (.obj record.members))).length ≤ 4194304) ∧
    (∀ (body back : Bytes) (s : Stream), body.length < 2 ^ 32 →
      s.octets = packLength body.length ++ body ++ back →
      (receive (F := F) s ≠ .error (invalidSize body.length) ↔
        1 ≤ body.length ∧ body.length ≤ 4194304)) := by
  refine ⟨?_, ?_, ?_, ?_⟩
  · intro records sent s hsent hs
    exact receiveMany_sent hsent (by rw [hs, List.append_nil])
  · intro records sent last frame cut s hsent hframe hfront hcut hs
    obtain ⟨s', hmany, hs'⟩ := receiveMany_sent hsent hs
    exact ⟨s', hmany, receive_cut hframe (by rwa [hs']) (by rwa [hs'])⟩
  · intro record
    constructor
    · rintro ⟨frame, hframe⟩
      obtain ⟨body, rfl, hlow, hhigh, -⟩ := frame_eq hframe
      exact ⟨hlow, hhigh⟩
    · rintro ⟨-, hhigh⟩
      rw [sendFrame_eq, ← encode_dumps_length]
      exact ⟨_, if_pos hhigh⟩
  · intro body back s hlength hs
    obtain ⟨hbad, hgood⟩ := receive_sized (F := F) hlength rfl hs
    constructor
    · intro hne
      by_contra hsize
      exact hne (hbad hsize)
    · intro hsize
      obtain ⟨s', -, hreceive⟩ := hgood hsize
      rw [hreceive]
      cases (decode body).bind (loads (F := F)) with
      | none =>
        -- the text of this exception is not that of a size
        intro h
        have hmessage := PyError.valueError.inj (Except.error.inj h)
        have hlong := congrArg String.length hmessage
        rw [String.length_append] at hlong
        have hfront : "invalid frame size: ".length = 20 := by decide
        rw [hfront, String.length_empty] at hlong
        omega
      | some value => simp

section Sample

open JsonStrings (WholeFloat)

def sampleRecords : List (Record WholeFloat) :=
  [⟨[("a", .int 1)], List.nodup_singleton _, trivial, trivial⟩,
    ⟨[("b", .list [.str "c", .null])], List.nodup_singleton _,
      ⟨trivial, trivial, trivial⟩, trivial⟩]

/-- The last frame of the sample, which is cut off. -/
def sampleLast : Record WholeFloat :=
  ⟨[("d", .bool true)], List.nodup_singleton _, trivial, trivial⟩

theorem sampleRecords_sent : (sendMany sampleRecords).toOption.isSome = true ∧
    (sendFrame (.obj sampleLast.members)).toOption.any (fun frame => 6 < frame.length) = true := by
  decide

/-- Two values come in octet by octet, and the stream ends in the third frame. -/
theorem frames_round_trip_sample : ∃ sent frame, sendMany sampleRecords = .ok sent ∧
    sendFrame (.obj sampleLast.members) = .ok frame ∧
    (∃ s', receiveMany 2 ⟨[], sent.map (fun b => [b])⟩ =
      .ok (sampleRecords.map (fun record => .obj record.members), s') ∧ s'.octets = []) ∧
    ∃ s', receiveMany 2 ⟨sent, [frame.take 3, (frame.drop 3).take 3]⟩ =
      .ok (sampleRecords.map (fun record => .obj record.members), s') ∧
      receive (F := WholeFloat) s' = .error .incompleteRead := by
  obtain ⟨hsent, hlast⟩ := sampleRecords_sent
  cases hrecords : sendMany sampleRecords with
  | error e =>
    rw [hrecords] at hsent
    cases hsent
  | ok sent =>
    cases hframe : sendFrame (.obj sampleLast.members) with
    | error e =>
      rw [hframe] at hlast
      cases hlast
    | ok frame =>
      rw [hframe] at hlast
      have hlong : 6 < frame.length := of_decide_eq_true hlast
      obtain ⟨hwhole, hcut, -⟩ := frames_round_trip WholeFloat
      have hpieces : frame.take 3 ++ (frame.drop 3).take 3 = frame.take 6 := List.take_add.symm
      refine ⟨sent, frame, rfl, rfl, hwhole sampleRecords sent _ hrecords ?_, ?_⟩
      · exact (List.flatMap_def ..).symm.trans (List.flatMap_singleton' sent)
      · refine hcut sampleRecords sent sampleLast frame (frame.take 6) _ hrecords hframe
          (List.take_prefix _ _) (fun hsame => ?_) ?_
        · have hlength := congrArg List.length hsame
          rw [List.length_take] at hlength
          omega
        · simp only [Stream.octets, List.flatten_cons, List.flatten_nil, List.append_nil, hpieces]

end Sample

end Decillion.FrameStreams
