import Rifts.Client.Dispatch
import Rifts.Client.Publish
import Rifts.Connection.Reader
import Rifts.Core.MessageBody
import Rifts.Transition.Service

/-! The bodies that clients exchange: what a client makes of one it receives, and what the server
makes of those that a client sends. -/
namespace Rifts

namespace Body

/-- The class a client knows a body by. -/
def className : Body → Option String
  | event _ => some "event"
  | command _ => some "command"
  | reply _ => some "reply"
  | state _ => some "state"
  | presence _ => none
  | datagram _ => some "datagram"
  | stream _ => some "stream"
  | snapshot _ => some "snapshot"

/-- What a client does with a body that it receives on a topic. -/
def effects (topic : String) : Body → List ClientEffect
  | event e => [.emit (.eventReceived topic e)]
  | reply r => [.resolve r, .emit (.replyReceived r)]
  | state s => [.emit (.stateReceived topic s)]
  | datagram d => [.emit (.datagramReceived topic d)]
  | stream s => [.emit (.streamReceived topic s)]
  | snapshot s => [.emit (.snapshotReceived topic s)]
  | command _ | presence _ => []

/-- The topic of a body: that of its frame, or else the one it names. -/
def topicOf (frameTopic : Option String) (v : Json) : String :=
  (frameTopic <|> (v.get "topic").bind Json.asStr).getD ""

variable {b : Body} {v : Json} {frameTopic : Option String} {class_ : String}

theorem dispatchBody_of_has (hclass : v.get "class" = some (.string class_))
    (hb : b.className = some class_) (h : v.Has b.fields) :
    dispatchBody frameTopic v = b.settled.effects (topicOf frameTopic v) := by
  have hread : (v.get "class").bind Json.asStr = some class_ := by rw [hclass]; rfl
  cases b with
  | event e =>
    cases hb
    simp only [dispatchBody, hread, Event.fromValue_of_has h]
    rfl
  | command c =>
    cases hb
    simp only [dispatchBody, hread]
    rfl
  | reply r =>
    cases hb
    simp only [dispatchBody, hread, Reply.fromValue_of_has h]
    rfl
  | state s =>
    cases hb
    simp only [dispatchBody, hread, State.fromValue_of_has h]
    rfl
  | presence p => cases hb
  | datagram d =>
    cases hb
    simp only [dispatchBody, hread, Datagram.fromValue_of_has h]
    rfl
  | stream s =>
    cases hb
    simp only [dispatchBody, hread, StreamSegment.fromValue_of_has h]
    rfl
  | snapshot s =>
    cases hb
    simp only [dispatchBody, hread, Snapshot.fromValue_of_has h]
    rfl

/-- Without a class the client makes nothing of a body. -/
theorem dispatchBody_of_no_class (h : v.get "class" = none) : dispatchBody frameTopic v = [] := by
  simp [dispatchBody, h]

/-- No encoder writes a class. -/
theorem get_class_fields (b : Body) : (Json.object b.fields).get "class" = none := by
  cases b <;> rfl

end Body

/-- A body among the fields of a frame's payload, with its class or without one, at a client. -/
theorem body_reaches_client (J : SerdeJson) (f : Frame) (payload : Bytes) (b : Body) (v : Json)
    (htype : f.frameType = .data ∨ f.frameType = .control) (hpayload : f.payload = some payload)
    (hread : J.fromSlice payload = .ok v) (h : v.Has b.fields) :
    (∀ class_, b.className = some class_ → v.get "class" = some (.string class_) →
      dispatchFrame J f = b.settled.effects (Body.topicOf f.topic v)) ∧
    (v.get "class" = none → dispatchFrame J f = []) := by
  have hdispatch : dispatchFrame J f = dispatchBody f.topic v := by
    have hjson : f.json J = some v := by simp [Frame.json, hpayload, hread, Except.toOption]
    rcases htype with htype | htype <;> simp only [dispatchFrame, htype, hjson]
  rw [hdispatch]
  exact ⟨fun class_ hb hclass => Body.dispatchBody_of_has hclass hb h,
    Body.dispatchBody_of_no_class⟩

/-- A snapshot under its class, in a frame that names no topic. -/
def namedSnapshot : Json :=
  .object [("class", .string "snapshot"), ("checksum", .null), ("topic", .string "room/1"),
    ("snapshot_id", .string "s1"), ("base_offset", .ofI64 3), ("schema", .string "room@1.0"),
    ("payload", .null), ("created_at", .ofI64 9), ("expires_at", .null)]

theorem snapshot_names_its_topic :
    dispatchFrame (.reading [namedSnapshot])
        { frameType := .data, payload := some namedSnapshot.text } =
      [.emit (.snapshotReceived "room/1"
        ⟨"room/1", "s1", 3, "room@1.0", .null, 9, none, none⟩)] := by
  have hhas : namedSnapshot.Has
      (Body.snapshot ⟨"room/1", "s1", 3, "room@1.0", .null, 9, none, none⟩).fields := by
    simp only [Json.Has, Body.fields, Snapshot.fields, List.forall_mem_cons]
    exact ⟨rfl, rfl, rfl, rfl, rfl, rfl, rfl, rfl, by simp⟩
  exact (body_reaches_client _ _ _ _ _ (.inl rfl) rfl (SerdeJson.fromSlice_reading _) hhas).1
    "snapshot" rfl rfl

/-- What `RiftClient` sends after it is connected, other than subscriptions and pings, with the
arguments of its functions and the ids and clock readings they draw. -/
inductive ClientRequest
  | publish (topic event messageId schema : String) (payload : Json) (opts : PublishOpts)
  | command (topic command correlationId : String) (timeoutMs : UInt64) (schema : String)
      (payload : Json) (idempotencyKey : Option String) (priority : Option Priority)
  | publishState (topic stateKey : String) (value : Json) (name : Option String)
      (ttlMs : Option UInt32) (subject : Option String) (updatedAt : Int64)
  | sendDatagram (topic schema : String) (payload : Json) (event : Option String)
  | sendStreamSegment (topic streamId : String) (seq : UInt64) (schema : String) (payload : Json)
      (finalSegment : Bool)
  | ack (messageId : String) (status : AckStatus)

section Frames

variable (J : SerdeJson) (now : Int64) (id : UInt64) (topic : String)

def commandFrame (command correlationId : String) (timeoutMs : UInt64) (schema : String)
    (payload : Json) (idempotencyKey : Option String) (priority : Option Priority) : Frame :=
  { dataFrame J now id topic none none (some correlationId)
      (.object [("class", .string "command"), ("command", .string command),
        ("correlation_id", .string correlationId), ("timeout_ms", .number (.posInt timeoutMs)),
        ("idempotency_key", .ofOptStr idempotencyKey), ("schema", .string schema),
        ("payload", payload)]) with
    priority := priority }

def stateFrame (stateKey : String) (value : Json) (name : Option String) (ttlMs : Option UInt32)
    (subject : Option String) (updatedAt : Int64) : Frame :=
  dataFrame J now id topic none none none
    (.object [("class", .string "state"), ("state_key", .string stateKey),
      ("name", .ofOptStr name), ("value", value), ("ttl_ms", .ofOptU32 ttlMs),
      ("subject", .ofOptStr subject), ("updated_at", .ofI64 updatedAt)])

def datagramFrame (schema : String) (event : Option String) (payload : Json) : Frame :=
  dataFrame J now id topic none none none
    (.object [("class", .string "datagram"), ("schema", .string schema),
      ("event", .ofOptStr event), ("payload", payload)])

def streamFrame (streamId : String) (seq : UInt64) (schema : String) (payload : Json)
    (finalSegment : Bool) : Frame :=
  dataFrame J now id topic none none none
    (.object [("class", .string "stream"), ("stream_id", .string streamId),
      ("seq", .number (.posInt seq)), ("final_segment", .bool finalSegment),
      ("schema", .string schema), ("payload", payload)])

/-- `ack_frame`: the message is named in the body only. -/
def FrameBuilder.ackFrame (messageId status : String) : Frame where
  version := 0x0100
  frameId := id
  frameType := .ack
  codec := .json
  timestamp := now
  payload := some (J.toVec (.object [("message_id", .string messageId),
    ("status", .string status)]))

def ClientRequest.frame : ClientRequest → Frame
  | publish topic event messageId schema payload opts =>
    eventFrame J now id topic event messageId schema payload opts
  | command topic cmd correlationId timeoutMs schema payload idempotencyKey priority =>
    commandFrame J now id topic cmd correlationId timeoutMs schema payload idempotencyKey priority
  | publishState topic stateKey value name ttlMs subject updatedAt =>
    stateFrame J now id topic stateKey value name ttlMs subject updatedAt
  | sendDatagram topic schema payload event => datagramFrame J now id topic schema event payload
  | sendStreamSegment topic streamId seq schema payload finalSegment =>
    streamFrame J now id topic streamId seq schema payload finalSegment
  | ack messageId status => FrameBuilder.ackFrame J now id messageId status.name

end Frames

namespace ClientRequest

open Transition ReaderState

variable {O L D S : Type} [OffsetStore O] [LogStore L] [DedupeStore D] [SnapshotStore S]

/-- The server has read a request of the client. -/
def Arrives (J : SerdeJson) (x : Received) : Prop :=
  ∃ (request : ClientRequest) (now : Int64) (id : UInt64),
    decodeBinaryFrame (encodeFrame (request.frame J now id)) defaultMaxBinaryPayload = .ok x.frame

/-- The two states differ at most in the ack for the empty message id of a session. -/
structure Unmoved (sessionId : String) (s s' : ReaderState O L D S) : Prop where
  control : s'.control = s.control
  topics : s'.publishedTopics = s.publishedTopics
  outstanding : ∀ sid m, (sid, m) ≠ (sessionId, "") → s'.outstanding sid m = s.outstanding sid m

variable {J : SerdeJson} {conn : Nat} {codec : EncodingFormat} {sessionId : String}
  {s s' : ReaderState O L D S} {x : Received} {xs : List Received}

omit [OffsetStore O] [LogStore L] [DedupeStore D] [SnapshotStore S] in
theorem unmoved_complete : Unmoved sessionId s (s.complete sessionId "") := by
  refine ⟨rfl, rfl, fun sid m hne => ?_⟩
  by_cases hsid : sid = sessionId
  · subst hsid
    have hm : m ≠ "" := fun heq => hne (by rw [heq])
    simp [ReaderState.complete, hm]
  · simp [ReaderState.complete, hsid]

theorem flags_frame (request : ClientRequest) (now : Int64) (id : UInt64) :
    (request.frame J now id).flags = .empty := by
  cases request <;> rfl

theorem frameType_frame (request : ClientRequest) (now : Int64) (id : UInt64) :
    (request.frame J now id).frameType = .data ∨ (request.frame J now id).frameType = .ack := by
  cases request with
  | ack => exact .inr rfl
  | _ => exact .inl rfl

/-- Over the wire a request has no topic and no message id, and it never asks for an ack. -/
theorem Arrives.fields (h : Arrives J x) : x.frame.topic = none ∧ x.frame.messageId = none ∧
    x.frame.requiresAck = false ∧ (x.frame.frameType = .data ∨ x.frame.frameType = .ack) := by
  obtain ⟨request, now, id, hdecode⟩ := h
  obtain ⟨htopic, -, hid, -⟩ := decodeBinaryFrame_meta hdecode
  refine ⟨htopic, hid, ?_⟩
  rw [decodeBinaryFrame_encodeFrame] at hdecode
  split at hdecode
  · cases hdecode
  · have hframe := Except.ok.inj hdecode
    have hflags : x.frame.flags = .empty := by rw [← hframe]; exact flags_frame request now id
    have htype : x.frame.frameType = (request.frame J now id).frameType := by rw [← hframe]; rfl
    rw [Frame.requiresAck, hflags, htype]
    exact ⟨by decide, frameType_frame request now id⟩

theorem onDataFrame_of_arrives (h : Arrives J x) : onDataFrame J codec s x = ⟨s, [], []⟩ := by
  obtain ⟨htopic, -, hack, -⟩ := h.fields
  simp only [onDataFrame, hack, publish_without_topic htopic]
  split <;> rfl

/-- No request gets a reply or reaches a subscriber. -/
theorem turn_of_arrives (conn : Nat) (codec : EncodingFormat) (sessionId : String)
    (s : ReaderState O L D S) (h : Arrives J x) :
    (turn J conn codec sessionId s x).2 = ([], []) ∧
      Unmoved sessionId s (turn J conn codec sessionId s x).1 := by
  obtain ⟨-, hid, -, htype⟩ := h.fields
  rcases htype with htype | htype
  · have hturn : turn J conn codec sessionId s x = (s, [], []) := by
      simp only [turn, dispatchReceived, htype, onDataFrame_of_arrives h]
    rw [hturn]
    exact ⟨rfl, rfl, rfl, fun _ _ _ => rfl⟩
  · have hturn : turn J conn codec sessionId s x = (s.complete sessionId "", [], []) := by
      simp only [turn, dispatchReceived, htype, hid, Option.getD_none]
    rw [hturn]
    exact ⟨rfl, unmoved_complete⟩

/-- Whatever a connected client publishes, commands, streams or acknowledges, over the wire it
comes to nothing: the server answers none of it, no subscriber is offered anything, the broker and
the topics of the connection are as before, and so is every tracked ack but one for the empty
message id. -/
theorem requests_come_to_nothing (J : SerdeJson) (conn : Nat) (codec : EncodingFormat)
    (sessionId : String) (s : ReaderState O L D S) (xs : List Received)
    (h : ∀ x ∈ xs, Arrives J x) :
    answers (turn J conn codec sessionId) s xs = xs.map (fun _ => ([], [])) ∧
      Unmoved sessionId s (after (turn J conn codec sessionId) s xs) := by
  induction xs generalizing s with
  | nil => exact ⟨rfl, rfl, rfl, fun _ _ _ => rfl⟩
  | cons x xs ih =>
    obtain ⟨hx, hxs⟩ := List.forall_mem_cons.mp h
    obtain ⟨hanswer, hstep⟩ := turn_of_arrives conn codec sessionId s hx
    obtain ⟨hanswers, hrest⟩ := ih (turn J conn codec sessionId s x).1 hxs
    refine ⟨by rw [answers, hanswer, hanswers, List.map_cons], ?_, ?_, ?_⟩
    · exact hrest.control.trans hstep.control
    · exact hrest.topics.trans hstep.topics
    · intro sid m hne
      exact (hrest.outstanding sid m hne).trans (hstep.outstanding sid m hne)

/-- The server reads a request that it has room to answer. -/
def arrival (request : ClientRequest) : Received :=
  ⟨(request.frame printer 5 1).overWire ((request.frame printer 5 1).payload.getD []), 5, 5, 0, "a",
    5, true, true⟩

theorem publish_and_ack_come_to_nothing :
    answers (turn printer 0 .json "s") freshReader
        [arrival (.publish "room/1" "said" "m1" "text" (.string "hi") {}),
          arrival (.ack "m0" .processed)] =
      [([], []), ([], [])] := by
  refine (requests_come_to_nothing printer 0 .json "s" freshReader _ ?_).1
  simp only [List.forall_mem_cons]
  refine ⟨⟨_, _, _, decode_encode_of_le ?_ (by decide)⟩,
    ⟨_, _, _, decode_encode_of_le ?_ (by decide)⟩, by simp⟩
  · decide +kernel
  · decide +kernel

end ClientRequest

end Rifts
