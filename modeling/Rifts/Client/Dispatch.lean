import Rifts.Core.FrameCodec
import Rifts.Core.Message

/-! What a client does with a frame it receives. -/
namespace Rifts

inductive AckStatus
  | received | accepted | persisted | delivered | processed | rejected | expired | duplicate
  | failed
  deriving DecidableEq, Repr

/-- An unknown status counts as received. -/
def AckStatus.ofName : String → AckStatus
  | "accepted" => .accepted
  | "persisted" => .persisted
  | "delivered" => .delivered
  | "processed" => .processed
  | "rejected" => .rejected
  | "expired" => .expired
  | "duplicate" => .duplicate
  | "failed" => .failed
  | _ => .received

/-- The events an incoming frame can give rise to. -/
inductive ClientEvent
  | eventReceived (topic : String) (event : Event)
  | replyReceived (reply : Reply)
  | stateReceived (topic : String) (state : State)
  | datagramReceived (topic : String) (datagram : Datagram)
  | streamReceived (topic : String) (segment : StreamSegment)
  | snapshotReceived (topic : String) (snapshot : Snapshot)
  | system (eventName : String) (payload : Json)
  | ackReceived (messageId : String) (status : AckStatus)
  | pong (timestamp : Int64)
  | error (message : String)

/-- The effects of a dispatch, in their order. -/
inductive ClientEffect
  | emit (e : ClientEvent)
  | resetMissed
  /-- Hand the reply to whoever waits for its correlation id, if anyone does. -/
  | resolve (reply : Reply)

/-- A body of a Data or Control frame, by its class. -/
def dispatchBody (frameTopic : Option String) (obj : Json) : List ClientEffect :=
  let topic := (frameTopic <|> (obj.get "topic").bind Json.asStr).getD ""
  let emit (e : Option ClientEvent) := (e.map ClientEffect.emit).toList
  match (obj.get "class").bind Json.asStr with
  | some "event" => emit ((Event.fromValue obj).map (.eventReceived topic))
  | some "reply" =>
    match Reply.fromValue obj with
    | some reply => [.resolve reply, .emit (.replyReceived reply)]
    | none => []
  | some "state" => emit ((State.fromValue obj).map (.stateReceived topic))
  | some "datagram" => emit ((Datagram.fromValue obj).map (.datagramReceived topic))
  | some "stream" => emit ((StreamSegment.fromValue obj).map (.streamReceived topic))
  | some "snapshot" => emit ((Snapshot.fromValue obj).map (.snapshotReceived topic))
  | some "system" =>
    [.emit (.system (((obj.get "event").bind Json.asStr).getD "") ((obj.get "payload").getD .null))]
  | _ => []

/-- The payload as JSON; a frame without one, or with other bytes, is ignored. -/
def Frame.json (J : SerdeJson) (f : Frame) : Option Json :=
  f.payload.bind fun p => (J.fromSlice p).toOption

def dispatchFrame (J : SerdeJson) (f : Frame) : List ClientEffect :=
  match f.frameType with
  | .flow =>
    match f.json J with
    | some obj =>
      if (obj.get "type").bind Json.asStr = some "pong" then
        [.resetMissed, .emit (.pong (((obj.get "timestamp").bind Json.asI64).getD 0))]
      else []
    | none => []
  | .ack =>
    match f.json J with
    | some obj =>
      [.emit (.ackReceived (((obj.get "message_id").bind Json.asStr).getD "")
        (.ofName (((obj.get "status").bind Json.asStr).getD "received")))]
    | none => []
  | .data | .control =>
    match f.json J with
    | some obj => dispatchBody f.topic obj
    | none => []
  | .error => [.emit (.error f.display)]

/-- A binary message at the client; one that does not decode is dropped. -/
def onBinary (J : SerdeJson) (data : Bytes) : List ClientEffect :=
  match decodeBinaryFrame data defaultMaxBinaryPayload with
  | .ok f => dispatchFrame J f
  | .error _ => []

theorem dispatchFrame_data {J : SerdeJson} {f : Frame} (h : f.frameType = .data) :
    dispatchFrame J f = ((f.json J).map (dispatchBody f.topic)).getD [] := by
  simp only [dispatchFrame, h]
  cases f.json J <;> rfl

end Rifts
