import Mathlib.Data.UInt

/-! The frame envelope of `rifts-core` and the tags that travel in its header. -/
namespace Rifts

abbrev Bytes := List UInt8

inductive FrameType
  | control | data | ack | flow | error
  deriving DecidableEq, Repr

def FrameType.tag : FrameType → UInt8
  | .control => 67
  | .data => 68
  | .ack => 65
  | .flow => 70
  | .error => 69

def FrameType.fromTag (tag : UInt8) : Option FrameType :=
  if tag = 67 then some .control
  else if tag = 68 then some .data
  else if tag = 65 then some .ack
  else if tag = 70 then some .flow
  else if tag = 69 then some .error
  else none

inductive EncodingFormat
  | json | cbor
  deriving DecidableEq, Repr

def EncodingFormat.tag : EncodingFormat → UInt8
  | .json => 74
  | .cbor => 66

def EncodingFormat.fromTag (tag : UInt8) : Option EncodingFormat :=
  if tag = 74 then some .json else if tag = 66 then some .cbor else none

def EncodingFormat.name : EncodingFormat → String
  | .json => "json"
  | .cbor => "cbor"

inductive Priority
  | background | volatile | low | normal | high | critical
  deriving DecidableEq, Repr

def FrameType.name : FrameType → String
  | .control => "control"
  | .data => "data"
  | .ack => "ack"
  | .flow => "flow"
  | .error => "error"

structure FrameFlags where
  bits : UInt16
  deriving DecidableEq, Repr

namespace FrameFlags

def requiresAck : UInt16 := 0x0010
def replayed : UInt16 := 0x0020
def empty : FrameFlags := ⟨0⟩
def contains (f : FrameFlags) (flag : UInt16) : Bool := f.bits &&& flag == flag
def set (f : FrameFlags) (flag : UInt16) : FrameFlags := ⟨f.bits ||| flag⟩

/-- The bits in the order of their names. -/
def names : List (String × UInt16) :=
  [("compressed", 0x0001), ("encrypted", 0x0002), ("fragmented", 0x0004),
    ("final_fragment", 0x0008), ("requires_ack", requiresAck), ("replayed", replayed),
    ("snapshot", 0x0040), ("degraded", 0x0080), ("duplicate", 0x0100), ("trace", 0x0200)]

def display (f : FrameFlags) : String :=
  match (names.filter fun (_, flag) => f.contains flag).map Prod.fst with
  | [] => "none"
  | present => "|".intercalate present

end FrameFlags

structure Frame where
  version : UInt16 := 0
  frameId : UInt64 := 0
  frameType : FrameType := .control
  flags : FrameFlags := .empty
  codec : EncodingFormat := .json
  sessionId : Option String := none
  streamId : Option String := none
  topic : Option String := none
  event : Option String := none
  messageId : Option String := none
  correlationId : Option String := none
  traceId : Option String := none
  timestamp : Int64 := 0
  ttlMs : Option UInt32 := none
  priority : Option Priority := none
  payload : Option Bytes := none
  deriving DecidableEq, Repr

namespace Frame

def requiresAck (f : Frame) : Bool := f.flags.contains FrameFlags.requiresAck

def markReplay (f : Frame) : Frame := { f with flags := f.flags.set FrameFlags.replayed }

/-- The payload length as the writer and the sinks account for it. -/
def payloadLen (f : Frame) : Nat := (f.payload.map List.length).getD 0

/-- The TTL test shared by the reader and the broker. The subtraction is on
machine integers, as in the source. -/
def expired (f : Frame) (now : Int64) : Bool :=
  match f.ttlMs with
  | some ttl => 0 < f.timestamp && Int64.ofNat ttl.toNat < now - f.timestamp
  | none => false

def display (f : Frame) : String :=
  "Frame[id=" ++ toString f.frameId ++ " type=" ++ f.frameType.name ++ " codec=" ++ f.codec.name ++
    " topic=" ++ f.topic.getD "-" ++ " event=" ++ f.event.getD "-" ++ " msg_id=" ++
    f.messageId.getD "-" ++ " corr_id=" ++ f.correlationId.getD "-" ++ " flags=" ++
    f.flags.display ++ " payload=" ++ toString f.payloadLen ++ "B]"

end Frame

@[simp] theorem FrameType.fromTag_tag (t : FrameType) : FrameType.fromTag t.tag = some t := by
  cases t <;> decide

@[simp] theorem EncodingFormat.fromTag_tag (c : EncodingFormat) :
    EncodingFormat.fromTag c.tag = some c := by
  cases c <;> decide

end Rifts
