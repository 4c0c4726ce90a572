import Rifts.Client.Dispatch
import Rifts.Connection.Control
import Rifts.Core.Ack

/-! What `reader_task` does with a frame of its peer: the dispatch by frame type, and the ack and
error frames it answers with. -/
namespace Rifts

/-- The text of an error. The wrapped ones carry theirs. -/
def RiftError.display : RiftError → String
  | .frame (.protocolVersionUnsupported client server) =>
    "protocol version unsupported: client=" ++ toString client ++ ", server=" ++ toString server
  | .frame (.frameInvalid reason) => "frame is malformed: " ++ reason
  | .frame (.codecUnsupported reason) => "codec unsupported: " ++ reason
  | .frame (.payloadTooLarge actual max) =>
    "payload too large: " ++ toString actual ++ " > " ++ toString max
  | .frame (.requiredFieldMissing field) => "required field missing: " ++ field
  | .session (.notFound id) => "session not found: " ++ id
  | .session .expired => "session expired"
  | .session .closed => "session closed by peer"
  | .session (.conflict incoming current) =>
    "session epoch conflict: incoming=" ++ toString incoming ++ ", current=" ++ toString current
  | .session .idleTimeout => "connection idle timeout"
  | .topic (.notFound name) => "topic not found: " ++ name
  | .topic (.subscriberLimit name) => "topic subscriber limit reached: " ++ name
  | .topic (.publisherLimit name) => "topic publisher limit reached: " ++ name
  | .topic (.invalidName reason) => "invalid topic name: " ++ reason
  | .message .expired => "message expired"
  | .message (.tooLarge actual max) =>
    "message too large: " ++ toString actual ++ " > " ++ toString max
  | .auth .required => "authentication required"
  | .auth (.invalid reason) => "authentication invalid: " ++ reason
  | .auth .expired => "authentication expired"
  | .auth .revoked => "authentication revoked"
  | .auth (.denied reason) => "permission denied: " ++ reason
  | .system .overloaded => "system overloaded"
  | .system (.internal reason) => "internal error: " ++ reason
  | .other reason => reason

def riftErrorToCode : RiftError → String
  | .frame (.protocolVersionUnsupported ..) => "RIFT_PROTOCOL_VERSION_UNSUPPORTED"
  | .frame (.frameInvalid _) => "RIFT_PROTOCOL_FRAME_INVALID"
  | .frame (.codecUnsupported _) => "RIFT_PROTOCOL_CODEC_UNSUPPORTED"
  | .frame (.payloadTooLarge ..) => "RIFT_PROTOCOL_PAYLOAD_TOO_LARGE"
  | .frame (.requiredFieldMissing _) => "RIFT_PROTOCOL_REQUIRED_FIELD_MISSING"
  | .session (.notFound _) => "RIFT_SESSION_NOT_FOUND"
  | .session .expired | .session .closed | .session .idleTimeout => "RIFT_SESSION_EXPIRED"
  | .session (.conflict ..) => "RIFT_SESSION_CONFLICT"
  | .topic (.notFound _) => "RIFT_TOPIC_NOT_FOUND"
  | .topic (.subscriberLimit _) => "RIFT_TOPIC_SUBSCRIBER_LIMIT"
  | .topic (.publisherLimit _) => "RIFT_TOPIC_PUBLISHER_LIMIT"
  | .topic (.invalidName _) => "RIFT_PROTOCOL_FRAME_INVALID"
  | .message .expired => "RIFT_MESSAGE_EXPIRED"
  | .message (.tooLarge ..) => "RIFT_MESSAGE_TOO_LARGE"
  | .auth .required => "RIFT_AUTH_REQUIRED"
  | .auth (.invalid _) => "RIFT_AUTH_INVALID"
  | .auth .expired => "RIFT_AUTH_EXPIRED"
  | .auth .revoked => "RIFT_AUTH_REVOKED"
  | .auth (.denied _) => "RIFT_PERMISSION_DENIED"
  | .system .overloaded => "RIFT_SYSTEM_OVERLOADED"
  | .system (.internal _) | .other _ => "RIFT_SYSTEM_INTERNAL"

def errorBody (original : Frame) (e : RiftError) : Json :=
  .object [("code", .string (riftErrorToCode e)), ("message", .string e.display),
    ("correlation_id", .ofOptStr original.correlationId)]

/-- The frame of `send_error_frame`. -/
def errorFrame (J : SerdeJson) (original : Frame) (e : RiftError) : Frame :=
  { frameType := .error, codec := .json, correlationId := original.correlationId
    payload := some (J.toVec (errorBody original e)) }

def AckStatus.name : AckStatus → String
  | .received => "received"
  | .accepted => "accepted"
  | .persisted => "persisted"
  | .delivered => "delivered"
  | .processed => "processed"
  | .rejected => "rejected"
  | .expired => "expired"
  | .duplicate => "duplicate"
  | .failed => "failed"

/-- The fields of an acknowledgement that are sent. -/
structure Ack where
  ackId : String
  messageId : String
  status : AckStatus
  offset : Option Int64 := none
  reason : Option String := none
  serverTime : Int64
  deriving DecidableEq, Repr

def ackBody (a : Ack) : Json :=
  .object [("ack_id", .string a.ackId), ("message_id", .string a.messageId),
    ("status", .string a.status.name), ("offset", (a.offset.map Json.ofI64).getD .null),
    ("reason", .ofOptStr a.reason), ("server_time", .ofI64 a.serverTime)]

/-- The frame of `send_ack_frame`. -/
def ackFrame (J : SerdeJson) (codec : EncodingFormat) (a : Ack) : Frame :=
  { frameType := .ack, codec := codec, payload := some (J.toVec (ackBody a)) }

/-- What the reader works on. `outstanding` is the ack manager: session, message, deadline. -/
structure ReaderState (O L D S : Type) where
  control : ControlState O L D S
  publishedTopics : Finset String
  outstanding : String → String → Option Int64

/-- `AckManager::complete`. -/
def ReaderState.complete {O L D S : Type} (s : ReaderState O L D S) (sessionId messageId : String) :
    ReaderState O L D S :=
  { s with
    outstanding := Function.update s.outstanding sessionId
      (Function.update (s.outstanding sessionId) messageId none) }

/-- The reader sees of the ack manager what it has for each message. -/
theorem ReaderState.outstanding_complete {O L D S : Type} {s : ReaderState O L D S}
    {m : AckManager} (h : s.outstanding = fun sid => (m.acks sid).get)
    (sessionId messageId : String) : (s.complete sessionId messageId).outstanding =
      fun sid => ((m.complete sessionId messageId).1.acks sid).get := by
  funext sid id
  rw [(m.complete_eq sessionId messageId).1, ReaderState.complete, h]
  by_cases hs : sid = sessionId
  · subst hs
    by_cases hid : id = messageId
    · subst hid
      simp
    · simp [hid]
  · simp [hs]

/-- A frame of the peer, and what its handling meets: the clock before and in `publish`, the sink
id and the ack id that are drawn, and whether the channel has room for a reply and for an error. -/
structure Received where
  frame : Frame
  readAt : Int64
  publishAt : Int64
  sinkId : UInt64
  ackId : String
  ackAt : Int64
  room : Bool
  errorRoom : Bool

/-- The state after a frame, the replies put on the channel, and what the sinks are offered. -/
structure Dispatched (O L D S : Type) where
  state : ReaderState O L D S
  queued : List Frame := []
  offers : List (MpscSink × Bytes) := []

variable {O L D S : Type}

/-- A data frame: dropped when its time is over, else published and acknowledged on request. -/
def onDataFrame [OffsetStore O] [LogStore L] [DedupeStore D] [SnapshotStore S] (J : SerdeJson)
    (codec : EncodingFormat) (s : ReaderState O L D S) (x : Received) : Dispatched O L D S :=
  let reply (status : AckStatus) (offset : Option Int64) (reason : Option String) : List Frame :=
    if x.frame.requiresAck then
      (trySendReply x.room (ackFrame J codec ⟨x.ackId, x.frame.messageId.getD "", status, offset,
        reason, x.ackAt⟩)).1
    else []
  if x.frame.expired x.readAt then { state := s }
  else
    match s.control.broker.publish x.publishAt x.frame with
    | (broker, .ok outcome, offers) =>
      { state :=
          { s with
            control := { s.control with broker }
            publishedTopics := x.frame.topic.elim s.publishedTopics (insert · s.publishedTopics) }
        queued := reply (if outcome.duplicate then .duplicate else .persisted)
          (some outcome.offset) none
        offers := offers }
    | (broker, .error e, offers) =>
      { state := { s with control := { s.control with broker } }
        queued := reply .failed none (some e.display)
        offers := offers }

/-- The body of the loop of `reader_task`, from a frame that was read to the next. -/
def dispatchReceived [OffsetStore O] [LogStore L] [DedupeStore D] [SnapshotStore S]
    (J : SerdeJson) (conn : Nat) (codec : EncodingFormat) (sessionId : String)
    (s : ReaderState O L D S) (x : Received) : Dispatched O L D S :=
  match x.frame.frameType with
  | .control =>
    match handleControl J conn codec s.control ⟨x.frame, x.sinkId, x.room⟩ with
    | (control, replies, .ok ()) => { state := { s with control }, queued := replies }
    | (control, replies, .error e) =>
      { state := { s with control }
        queued := replies ++ (trySendReply x.errorRoom (errorFrame J x.frame e)).1 }
  | .data => onDataFrame J codec s x
  | .ack => { state := s.complete sessionId (x.frame.messageId.getD "") }
  -- Both are only logged.
  | .flow | .error => { state := s }

/-- A turn of the loop, with the frames it queues for the client and what it offers to the
subscribers. -/
def ReaderState.turn [OffsetStore O] [LogStore L] [DedupeStore D] [SnapshotStore S]
    (J : SerdeJson) (conn : Nat) (codec : EncodingFormat) (sessionId : String)
    (s : ReaderState O L D S) (x : Received) :
    ReaderState O L D S × List Frame × List (MpscSink × Bytes) :=
  match dispatchReceived J conn codec sessionId s x with
  | ⟨state, queued, offers⟩ => (state, queued, offers)

theorem eq_of_mem_trySendReply {room : Bool} {f reply : Frame}
    (h : f ∈ (trySendReply room reply).1) : f = reply := by
  unfold trySendReply at h
  split at h
  · exact List.mem_singleton.mp h
  · simp at h

/-- A connection over a new broker. -/
def freshReader :
    ReaderState MemoryOffsetStore MemoryLogStore MemoryDedupeStore MemorySnapshotStore :=
  ⟨⟨emptyBroker, ∅⟩, ∅, fun _ _ => none⟩

end Rifts
