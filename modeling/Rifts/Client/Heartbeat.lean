import Rifts.Connection.Reader

/-! The pings of a client's heartbeat, on their way through the server and back. -/
namespace Rifts

def pingBody (sentAt : Int64) : Json :=
  .object [("type", .string "ping"), ("timestamp", .ofI64 sentAt)]

/-- The body and the frame each read the clock. -/
def pingFrame (J : SerdeJson) (bodyAt now : Int64) (id : UInt64) : Frame where
  version := 0x0100
  frameId := id
  frameType := .flow
  codec := .json
  timestamp := now
  payload := some (J.toVec (pingBody bodyAt))

section

variable {O L D S : Type} {J : SerdeJson} {conn : Nat} {codec : EncodingFormat}

theorem decode_pingFrame {bodyAt now : Int64} {id : UInt64} {max : Nat}
    (hlen : (J.toVec (pingBody bodyAt)).length ≤ max)
    (h32 : (J.toVec (pingBody bodyAt)).length < 2 ^ 32) :
    decodeBinaryFrame (encodeFrame (pingFrame J bodyAt now id)) max =
      .ok ((pingFrame J bodyAt now id).overWire (J.toVec (pingBody bodyAt))) :=
  decode_encode_of_lt hlen h32

/-- What the server has for a ping in a control frame is a frame without a body, and the client
takes nothing from it. -/
theorem control_pong_is_ignored {s : ControlState O L D S} {input : ControlInput}
    (hJ : ∃ e, J.fromSlice [] = .error e) (h : parseControl J input.frame = .ok .ping) :
    ∀ reply ∈ (handleControl J conn codec s input).2.1, onBinary J (encodeFrame reply) = [] := by
  obtain ⟨e, he⟩ := hJ
  intro reply hreply
  have heq : reply = controlReply codec input.frame none := by
    rw [handleControl, h] at hreply
    exact eq_of_mem_trySendReply hreply
  have hdecode : decodeBinaryFrame (encodeFrame (controlReply codec input.frame none))
      defaultMaxBinaryPayload = .ok ((controlReply codec input.frame none).overWire []) :=
    decode_encode_of_le (by simp [controlReply]) (by decide)
  rw [heq, onBinary, hdecode]
  simp [dispatchFrame, Frame.overWire, Frame.json, controlReply, he, Except.toOption]

variable [OffsetStore O] [LogStore L] [DedupeStore D] [SnapshotStore S] {sessionId : String}
  {s : ReaderState O L D S} {x : Received}

/-- The server queues one frame for a received one, which makes the client take it for a pong. -/
def Answered (J : SerdeJson) (conn : Nat) (codec : EncodingFormat) (sessionId : String)
    (s : ReaderState O L D S) (x : Received) : Prop :=
  ∃ reply timestamp, (dispatchReceived J conn codec sessionId s x).queued = [reply] ∧
    onBinary J (encodeFrame reply) = [.resetMissed, .emit (.pong timestamp)]

/-- The reader answers no flow frame. -/
theorem queued_of_flow (h : x.frame.frameType = .flow) :
    (dispatchReceived J conn codec sessionId s x).queued = [] := by
  rw [dispatchReceived, h]

/-- No ping of the heartbeat is answered: it is a flow frame, which the server decodes and
only logs, whatever the state of the connection and with room in its channel. -/
theorem heartbeat_ping_is_not_answered (J : SerdeJson) (bodyAt now : Int64) (id : UInt64)
    (max : Nat) (hlen : (J.toVec (pingBody bodyAt)).length ≤ max)
    (h32 : (J.toVec (pingBody bodyAt)).length < 2 ^ 32) :
    ∃ ping, decodeBinaryFrame (encodeFrame (pingFrame J bodyAt now id)) max = .ok ping ∧
      ∀ (conn : Nat) (codec : EncodingFormat) (sessionId : String) (s : ReaderState O L D S)
        (x : Received), x.frame = ping → x.room = true → x.errorRoom = true →
        (dispatchReceived J conn codec sessionId s x).queued = [] ∧
          ¬ Answered J conn codec sessionId s x := by
  refine ⟨_, decode_pingFrame hlen h32, fun conn codec sessionId s x hx _ _ => ?_⟩
  have hqueued : (dispatchReceived J conn codec sessionId s x).queued = [] :=
    queued_of_flow (by rw [hx]; rfl)
  refine ⟨hqueued, ?_⟩
  rintro ⟨reply, timestamp, hreply, -⟩
  rw [hqueued] at hreply
  cases hreply

end

def pingReader : SerdeJson := .reading [pingBody 5]

/-- The first ping of a client at the server, with room in the channel. -/
def firstPing : Received where
  frame := (pingFrame pingReader 5 5 1).overWire (pingReader.toVec (pingBody 5))
  readAt := 6
  publishAt := 6
  sinkId := 0
  ackId := "a"
  ackAt := 6
  room := true
  errorRoom := true

theorem first_ping_is_not_answered :
    ¬ Answered pingReader 1 .json "s" freshReader firstPing := by
  obtain ⟨ping, hping, h⟩ := heartbeat_ping_is_not_answered (O := MemoryOffsetStore)
    (L := MemoryLogStore) (D := MemoryDedupeStore) (S := MemorySnapshotStore) pingReader 5 5 1 65536
    (by decide +kernel) (by decide +kernel)
  rw [decode_pingFrame (by decide +kernel) (by decide +kernel)] at hping
  cases hping
  exact (h 1 .json "s" freshReader firstPing rfl rfl rfl).2

/-- The ping arrives as it was sent, and nothing is queued for it. -/
theorem first_ping_goes_unanswered :
    decodeBinaryFrame (encodeFrame (pingFrame pingReader 5 5 1)) 65536 = .ok firstPing.frame ∧
      (dispatchReceived pingReader 1 .json "s" freshReader firstPing).queued = [] ∧
      ¬ ∃ reply timestamp,
        (dispatchReceived pingReader 1 .json "s" freshReader firstPing).queued = [reply] ∧
          onBinary pingReader (encodeFrame reply) = [.resetMissed, .emit (.pong timestamp)] := by
  have hqueued : (dispatchReceived pingReader 1 .json "s" freshReader firstPing).queued = [] := rfl
  refine ⟨decode_pingFrame (by decide +kernel) (by decide +kernel), hqueued, ?_⟩
  rintro ⟨reply, timestamp, hreply, -⟩
  rw [hqueued] at hreply
  cases hreply

end Rifts
