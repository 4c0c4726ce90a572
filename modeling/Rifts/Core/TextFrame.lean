import Rifts.Core.Error
import Rifts.Core.Json

/-! Frames that arrive as JSON text. -/
namespace Rifts

/-- A frame without a type is a data frame. -/
def textFrameType (v : Json) : Except RiftError FrameType :=
  match (v.get "type").bind Json.asStr with
  | some "control" => .ok .control
  | some "data" => .ok .data
  | some "ack" => .ok .ack
  | some "flow" => .ok .flow
  | some "error" => .ok .error
  | some other => .error (.frame (.frameInvalid ("unknown type: " ++ other)))
  | none => .ok .data

/-- Any codec but CBOR is taken for JSON. -/
def textFrameCodec (v : Json) : EncodingFormat :=
  match (v.get "codec").bind Json.asStr with
  | some "cbor" => .cbor
  | _ => .json

/-- The frame of an envelope that is an object. Fields that are missing or of another type have
their defaults, flags and TTL are cut to their width, and the timestamp is any `i64`. -/
def frameOfEnvelope (J : SerdeJson) (v : Json) (frameType : FrameType) : Frame where
  version := 0x0100
  frameId := ((v.get "frame_id").bind Json.asU64).getD 0
  frameType := frameType
  flags := ⟨(((v.get "flags").bind Json.asU64).getD 0).toUInt16⟩
  codec := textFrameCodec v
  sessionId := (v.get "session_id").bind Json.asStr
  streamId := (v.get "stream_id").bind Json.asStr
  topic := (v.get "topic").bind Json.asStr
  event := (v.get "event").bind Json.asStr
  messageId := (v.get "message_id").bind Json.asStr
  correlationId := (v.get "correlation_id").bind Json.asStr
  traceId := (v.get "trace_id").bind Json.asStr
  timestamp := ((v.get "timestamp").bind Json.asI64).getD 0
  ttlMs := ((v.get "ttl_ms").bind Json.asU64).map UInt64.toUInt32
  priority := none
  payload := (v.get "payload").map J.toVec

def decodeTextFrame (J : SerdeJson) (buf : Bytes) : Except RiftError Frame :=
  match J.fromSlice buf with
  | .error e => .error (.frame (.frameInvalid ("json envelope: " ++ e)))
  | .ok v =>
    match v.asObject with
    | none => .error (.frame (.frameInvalid "expected object"))
    | some _ => (textFrameType v).map (frameOfEnvelope J v)

end Rifts
