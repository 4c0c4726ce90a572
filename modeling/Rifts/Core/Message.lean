import Rifts.Core.Json

/-! The message bodies a client reads, with the readers `serde` derives for them:
a missing or null optional field is absent, any other missing field or a value of
the wrong kind is an error, and unknown fields are ignored. -/
namespace Rifts

namespace Json

def asBool : Json → Option Bool
  | .bool b => some b
  | _ => none

def asU32 (v : Json) : Option UInt32 :=
  v.asU64.bind fun n => if n.toNat < 2 ^ 32 then some n.toUInt32 else none

def field {α : Type} (v : Json) (key : String) (read : Json → Option α) : Option α :=
  (v.get key).bind read

def optField {α : Type} (v : Json) (key : String) (read : Json → Option α) : Option (Option α) :=
  match v.get key with
  | none | some .null => some none
  | some x => (read x).map some

theorem optField_ofOptStr {v : Json} {key : String} {o : Option String}
    (h : v.get key = some (ofOptStr o)) : v.optField key asStr = some o := by
  cases o <;> simp [optField, h, ofOptStr, asStr]

theorem asU32_toUInt64 (n : UInt32) : asU32 (.number (.posInt n.toUInt64)) = some n := by
  have := n.toNat_lt
  simp only [asU32, asU64, Option.bind_some, UInt32.toNat_toUInt64, if_pos this,
    UInt32.toUInt32_toUInt64]

theorem optField_ofOptU32 {v : Json} {key : String} {o : Option UInt32}
    (h : v.get key = some (ofOptU32 o)) : v.optField key asU32 = some o := by
  cases o with
  | none => simp [optField, h, ofOptU32]
  | some n => simp [optField, h, ofOptU32, asU32_toUInt64]

end Json

structure Event where
  event : String
  messageId : String
  schema : String
  payload : Json
  dedupeKey : Option String
  orderingKey : Option String
  ttlMs : Option UInt32

def Event.fromValue (v : Json) : Option Event := do
  return { event := ← v.field "event" Json.asStr
           messageId := ← v.field "message_id" Json.asStr
           schema := ← v.field "schema" Json.asStr
           payload := ← v.get "payload"
           dedupeKey := ← v.optField "dedupe_key" Json.asStr
           orderingKey := ← v.optField "ordering_key" Json.asStr
           ttlMs := ← v.optField "ttl_ms" Json.asU32 }

structure State where
  stateKey : String
  name : Option String
  value : Json
  ttlMs : Option UInt32
  subject : Option String
  updatedAt : Int64

def State.fromValue (v : Json) : Option State := do
  return { stateKey := ← v.field "state_key" Json.asStr
           name := ← v.optField "name" Json.asStr
           value := ← v.get "value"
           ttlMs := ← v.optField "ttl_ms" Json.asU32
           subject := ← v.optField "subject" Json.asStr
           updatedAt := ← v.field "updated_at" Json.asI64 }

structure Datagram where
  schema : String
  event : Option String
  payload : Json

def Datagram.fromValue (v : Json) : Option Datagram := do
  return { schema := ← v.field "schema" Json.asStr
           event := ← v.optField "event" Json.asStr
           payload := ← v.get "payload" }

structure StreamSegment where
  streamId : String
  seq : UInt64
  finalSegment : Bool
  schema : String
  payload : Json

def StreamSegment.fromValue (v : Json) : Option StreamSegment := do
  return { streamId := ← v.field "stream_id" Json.asStr
           seq := ← v.field "seq" Json.asU64
           finalSegment := ← v.field "final_segment" Json.asBool
           schema := ← v.field "schema" Json.asStr
           payload := ← v.get "payload" }

structure Snapshot where
  topic : String
  snapshotId : String
  baseOffset : Int64
  schema : String
  payload : Json
  createdAt : Int64
  expiresAt : Option Int64
  checksum : Option String

def Snapshot.fromValue (v : Json) : Option Snapshot := do
  return { topic := ← v.field "topic" Json.asStr
           snapshotId := ← v.field "snapshot_id" Json.asStr
           baseOffset := ← v.field "base_offset" Json.asI64
           schema := ← v.field "schema" Json.asStr
           payload := ← v.get "payload"
           createdAt := ← v.field "created_at" Json.asI64
           expiresAt := ← v.optField "expires_at" Json.asI64
           checksum := ← v.optField "checksum" Json.asStr }

inductive ReplyStatus
  | ok | error | timeout | rejected
  deriving DecidableEq, Repr

def ReplyStatus.ofName : String → Option ReplyStatus
  | "ok" => some .ok
  | "error" => some .error
  | "timeout" => some .timeout
  | "rejected" => some .rejected
  | _ => none

/-- A unit variant is its name, or a map from its name to null. -/
def ReplyStatus.fromValue : Json → Option ReplyStatus
  | .string s | .object [(s, .null)] => ofName s
  | _ => none

structure ReplyError where
  code : String
  message : String
  deriving DecidableEq, Repr

/-- A nested record is also read from the array of its fields. -/
def ReplyError.fromValue : Json → Option ReplyError
  | .array [code, message] => return { code := ← code.asStr, message := ← message.asStr }
  | v => return { code := ← v.field "code" Json.asStr, message := ← v.field "message" Json.asStr }

structure Reply where
  correlationId : String
  status : ReplyStatus
  payload : Option Json
  error : Option ReplyError
  serverTime : Int64

def Reply.fromValue (v : Json) : Option Reply := do
  return { correlationId := ← v.field "correlation_id" Json.asStr
           status := ← v.field "status" ReplyStatus.fromValue
           payload := ← v.optField "payload" some
           error := ← v.optField "error" ReplyError.fromValue
           serverTime := ← v.field "server_time" Json.asI64 }

end Rifts
