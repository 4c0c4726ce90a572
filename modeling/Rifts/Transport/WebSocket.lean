import Rifts.Core.FrameCodec
import Rifts.Core.TextFrame

/-! Frames over a WebSocket: what a connection makes of the messages of its peer, and what it
sends. -/
namespace Rifts

inductive CloseCode
  | normal | draining | protocolError | unsupportedCodec | authFailed | authExpired
  | permissionRevoked | sessionConflict | rateLimited | payloadTooLarge | slowConsumer
  | serverOverloaded | shardMoved | idleTimeout | clientUpgradeRequired | policyViolation
  deriving DecidableEq, Repr

def CloseCode.asU16 : CloseCode → UInt16
  | normal => 1000
  | draining => 1001
  | protocolError => 1002
  | unsupportedCodec => 1003
  | authFailed => 1004
  | authExpired => 1005
  | permissionRevoked => 1006
  | sessionConflict => 1007
  | rateLimited => 1008
  | payloadTooLarge => 1009
  | slowConsumer => 1010
  | serverOverloaded => 1011
  | shardMoved => 1012
  | idleTimeout => 1013
  | clientUpgradeRequired => 1014
  | policyViolation => 1015

/-- A message of a WebSocket. The last one is whatever else a library has, such as raw frames. -/
inductive WsMessage
  | text (data : Bytes)
  | binary (data : Bytes)
  | ping (data : Bytes)
  | pong (data : Bytes)
  | close (frame : Option (UInt16 × String))
  | other
  deriving DecidableEq, Repr

/-- A close frame without its code and reason. -/
def WsMessage.uncoded : WsMessage → WsMessage
  | close _ => close none
  | message => message

/-- A message with data of the peer, not a control message. -/
def WsMessage.isData : WsMessage → Bool
  | text _ | binary _ => true
  | ping _ | pong _ | close _ | other => false

def WsMessage.isClose : WsMessage → Bool
  | close _ => true
  | text _ | binary _ | ping _ | pong _ | other => false

def WsMessage.size : WsMessage → Nat
  | text data | binary data => data.length
  | ping _ | pong _ | close _ | other => 0

/-- The messages of a stream, to its end. An item may be an error of the stream. -/
abbrev WsStream := List (Except String WsMessage)

/-- What a peer puts on the wire in one WebSocket frame: a message, or a part of a message that it
sends in several. -/
inductive WsPart
  | message (m : WsMessage)
  | first (binary : Bool) (data : Bytes)
  | next (data : Bytes)
  | last (data : Bytes)
  deriving DecidableEq, Repr

def WsPart.size : WsPart → Nat
  | message m => m.size
  | first _ data | next data | last data => data.length

def WsPart.isWhole : WsPart → Bool
  | message _ => true
  | first .. | next _ | last _ => false

/-- What arrives from a peer, in its order. -/
abbrev WsParts := List (Except String WsPart)

/-- The frames without those that carry a part of a message. -/
def WsParts.unfragmented (parts : WsParts) : WsParts :=
  parts.filter fun
    | .ok part => part.isWhole
    | .error _ => true

/-- Nothing comes after a close. -/
def WsParts.endsAtClose : WsParts → Bool
  | [] => true
  | .ok (.message (.close _)) :: rest => rest.isEmpty
  | _ :: rest => endsAtClose rest

/-- A binary message in frames with these bytes. -/
def WsPart.ofPieces : List Bytes → List WsPart
  | [] => []
  | [data] => [message (.binary data)]
  | data :: rest => first true data :: continued rest
where
  continued : List Bytes → List WsPart
    | [] => []
    | [data] => [last data]
    | data :: rest => next data :: continued rest

/-- The limits that tungstenite checks, on a message and on each of its frames, with its
defaults. -/
structure WebSocketConfig where
  maxMessageSize : Option Nat := some 67108864
  maxFrameSize : Option Nat := some 16777216
  deriving DecidableEq, Repr

namespace WebSocketConfig

def tooLong (size max : Nat) : String :=
  "Space limit exceeded: Message too long: " ++ toString size ++ " > " ++ toString max

def within (limit : Option Nat) (size : Nat) : Except String Unit :=
  match limit with
  | some max => if max < size then .error (tooLong size max) else .ok ()
  | none => .ok ()

/-- The part of a message that has been collected, and whether it is binary. -/
abbrev Incomplete := Option (Bool × Bytes)

def Incomplete.message (binary : Bool) (data : Bytes) : WsMessage :=
  if binary then .binary data else .text data

/-- One frame at tungstenite: the message that is complete with it, and what is collected of the
next one. -/
def accept (c : WebSocketConfig) (pending : Incomplete) (part : WsPart) :
    Except String (Option WsMessage × Incomplete) := do
  within c.maxFrameSize part.size
  match part, pending with
  | .message m, none =>
    within c.maxMessageSize m.size
    return (some m, none)
  -- control messages may come between the parts of another
  | .message m, some _ =>
    if m.isData then throw "WebSocket protocol error: expected a fragment"
    return (some m, pending)
  | .first binary data, none =>
    within c.maxMessageSize data.length
    return (none, some (binary, data))
  | .first .., some _ => throw "WebSocket protocol error: expected a fragment"
  | .next data, some (binary, front) =>
    within c.maxMessageSize (front ++ data).length
    return (none, some (binary, front ++ data))
  | .last data, some (binary, front) =>
    within c.maxMessageSize (front ++ data).length
    return (some (Incomplete.message binary (front ++ data)), none)
  | .next _, none | .last _, none => throw "WebSocket protocol error: nothing to continue"

/-- After its close a peer may send nothing. -/
def afterClose : WsParts → WsStream
  | [] => []
  | .error e :: _ => [.error e]
  | .ok _ :: _ => [.error "WebSocket protocol error: Remote sent after having closed"]

/-- The messages that tungstenite makes of the frames. Its stream ends with its first error. -/
def receive (c : WebSocketConfig) : Incomplete → WsParts → WsStream
  | _, [] => []
  | _, .error e :: _ => [.error e]
  | pending, .ok part :: rest =>
    match c.accept pending part with
    | .error e => [.error e]
    | .ok (some m, pending) =>
      .ok m :: if m.isClose then afterClose rest else receive c pending rest
    | .ok (none, pending) => receive c pending rest

/-- The size is not above the limit. -/
def Fits (limit : Option Nat) (size : Nat) : Prop := ∀ max ∈ limit, size ≤ max

/-- The data of further frames of a message, each checked when it arrives. -/
def collected (c : WebSocketConfig) (front : Bytes) : List Bytes → Except String Bytes
  | [] => .ok front
  | data :: rest => do
    within c.maxFrameSize data.length
    within c.maxMessageSize (front ++ data).length
    collected c (front ++ data) rest

variable {c : WebSocketConfig} {limit : Option Nat} {size : Nat} {front data : Bytes}
  {pieces : List Bytes} {rest : WsParts}

theorem Fits.mono {n : Nat} (h : Fits limit size) (hle : n ≤ size) : Fits limit n :=
  fun max hmax => hle.trans (h max hmax)

theorem within_eq_ok_iff : within limit size = .ok () ↔ Fits limit size := by
  cases limit with
  | none => simp [within, Fits]
  | some max =>
    by_cases h : max < size
    · simp [within, Fits, h]
    · simp [within, Fits, h, Nat.not_lt.mp h]

/-- A message in one frame, within both limits. -/
theorem receive_message {m : WsMessage} (hframe : Fits c.maxFrameSize m.size)
    (hmessage : Fits c.maxMessageSize m.size) :
    c.receive none (.ok (.message m) :: rest) =
      .ok m :: if m.isClose then afterClose rest else c.receive none rest := by
  have haccept : c.accept none (.message m) = .ok (some m, none) := by
    simp only [accept, WsPart.size, within_eq_ok_iff.mpr hframe, within_eq_ok_iff.mpr hmessage]
    rfl
  rw [receive, haccept]

/-- A frame above the limit on frames is the end, whatever is in it. -/
theorem receive_large_frame {pending : Incomplete} {part : WsPart} {max : Nat}
    (hlimit : c.maxFrameSize = some max) (hlarge : max < part.size) :
    c.receive pending (.ok part :: rest) = [.error (tooLong part.size max)] := by
  have hwithin : within c.maxFrameSize part.size = .error (tooLong part.size max) := by
    rw [hlimit]
    exact if_pos hlarge
  have haccept : c.accept pending part = .error (tooLong part.size max) := by
    simp only [accept, hwithin]
    rfl
  rw [receive, haccept]

/-- The pieces of a message after its first. -/
theorem receive_continued (hne : pieces ≠ []) :
    c.receive (some (true, front)) ((WsPart.ofPieces.continued pieces).map .ok ++ rest) =
      match c.collected front pieces with
      | .error e => [.error e]
      | .ok data => .ok (.binary data) :: c.receive none rest := by
  induction pieces generalizing front with
  | nil => exact absurd rfl hne
  | cons data pieces ih =>
    rw [collected]
    cases pieces with
    | nil =>
      simp only [WsPart.ofPieces.continued, List.map_cons, List.map_nil, List.cons_append,
        List.nil_append, receive, accept, WsPart.size, collected]
      cases within c.maxFrameSize data.length with
      | error e => rfl
      | ok _ => cases within c.maxMessageSize (front ++ data).length <;> rfl
    | cons next pieces =>
      simp only [WsPart.ofPieces.continued, List.map_cons, List.cons_append, receive, accept,
        WsPart.size]
      cases within c.maxFrameSize data.length with
      | error e => rfl
      | ok _ =>
        cases within c.maxMessageSize (front ++ data).length with
        | error e => rfl
        | ok _ => exact ih (List.cons_ne_nil _ _)

theorem receive_ofPieces (hne : pieces ≠ []) :
    c.receive none ((WsPart.ofPieces pieces).map .ok ++ rest) =
      match c.collected [] pieces with
      | .error e => [.error e]
      | .ok data => .ok (.binary data) :: c.receive none rest := by
  match pieces with
  | [] => exact absurd rfl hne
  | [data] =>
    simp only [WsPart.ofPieces, List.map_cons, List.map_nil, List.cons_append, List.nil_append,
      receive, accept, WsPart.size, WsMessage.size, collected]
    cases within c.maxFrameSize data.length with
    | error e => rfl
    | ok _ => cases within c.maxMessageSize data.length <;> rfl
  | data :: next :: pieces =>
    simp only [WsPart.ofPieces, List.map_cons, List.cons_append, receive, accept, WsPart.size]
    rw [collected, List.nil_append]
    cases within c.maxFrameSize data.length with
    | error e => rfl
    | ok _ =>
      cases within c.maxMessageSize data.length with
      | error e => rfl
      | ok _ => exact receive_continued (List.cons_ne_nil _ _)

theorem collected_cons_eq_ok_iff {all : Bytes} :
    c.collected front (data :: pieces) = .ok all ↔
      Fits c.maxFrameSize data.length ∧ Fits c.maxMessageSize (front ++ data).length ∧
        c.collected (front ++ data) pieces = .ok all := by
  rw [collected, ← within_eq_ok_iff, ← within_eq_ok_iff]
  cases within c.maxFrameSize data.length with
  | error e => simp [bind, Except.bind]
  | ok _ =>
    cases within c.maxMessageSize (front ++ data).length with
    | error e => simp [bind, Except.bind]
    | ok _ => simp [bind, Except.bind]

/-- Every frame has to fit, and the message as a whole. -/
theorem collected_eq_ok_iff {all : Bytes} (hfront : Fits c.maxMessageSize front.length) :
    c.collected front pieces = .ok all ↔ all = front ++ pieces.flatten ∧
      (∀ piece ∈ pieces, Fits c.maxFrameSize piece.length) ∧
        Fits c.maxMessageSize (front ++ pieces.flatten).length := by
  induction pieces generalizing front with
  | nil => simp [collected, hfront, eq_comm]
  | cons data pieces ih =>
    rw [collected_cons_eq_ok_iff, List.flatten_cons, ← List.append_assoc, List.forall_mem_cons]
    constructor
    · rintro ⟨hframe, hsofar, hrest⟩
      obtain ⟨hall, hframes, hmessage⟩ := (ih hsofar).mp hrest
      exact ⟨hall, ⟨hframe, hframes⟩, hmessage⟩
    · rintro ⟨hall, ⟨hframe, hframes⟩, hmessage⟩
      have hsofar : Fits c.maxMessageSize (front ++ data).length :=
        hmessage.mono (by simp only [List.length_append]; omega)
      exact ⟨hframe, hsofar, (ih hsofar).mpr ⟨hall, hframes, hmessage⟩⟩

end WebSocketConfig

/-- A call that writes to a connection. -/
inductive WriteCall
  | writeFrame (f : Frame)
  | close (code : CloseCode) (reason : String)
  deriving DecidableEq, Repr

def WriteCall.isClose : WriteCall → Bool
  | writeFrame _ => false
  | close .. => true

/-- The calls up to the first close. -/
def WriteCall.upToClose : List WriteCall → List WriteCall
  | [] => []
  | call :: calls => if call.isClose then [call] else call :: upToClose calls

theorem WriteCall.upToClose_append {calls rest : List WriteCall}
    (h : ∀ call ∈ calls, call.isClose = false) :
    upToClose (calls ++ rest) = calls ++ upToClose rest := by
  induction calls with
  | nil => rfl
  | cons call calls ih =>
    have hcall := h call List.mem_cons_self
    have hrest := ih fun c hc => h c (List.mem_cons_of_mem call hc)
    rw [List.cons_append, upToClose, hcall, hrest]
    rfl

theorem WriteCall.upToClose_append_of_close {calls rest : List WriteCall}
    (h : ∃ call ∈ calls, call.isClose = true) :
    upToClose (calls ++ rest) = upToClose calls := by
  obtain ⟨call, hmem, hclose⟩ := h
  induction calls with
  | nil => cases hmem
  | cons c calls ih =>
    rw [List.cons_append, upToClose, upToClose]
    split
    · rfl
    · next hc =>
      rcases List.mem_cons.mp hmem with rfl | hmem
      · exact absurd hclose hc
      · rw [ih hmem]

namespace WebSocketConnection

/-- `read_frame`: its result, and what is left of the stream. -/
def readFrame (J : SerdeJson) : WsStream → Except RiftError Frame × WsStream
  | [] => (.error (.session .closed), [])
  | .error e :: rest => (.error (.other e), rest)
  | .ok message :: rest =>
    match message with
    | .text data => (decodeTextFrame J data, rest)
    | .binary data => (decodeBinaryFrame data defaultMaxBinaryPayload, rest)
    | .close _ => (.error (.session .closed), rest)
    | .ping _ | .pong _ | .other => readFrame J rest

/-- The results of successive reads. -/
def reads (J : SerdeJson) : WsStream → Nat → List (Except RiftError Frame)
  | _, 0 => []
  | stream, n + 1 => (readFrame J stream).1 :: reads J (readFrame J stream).2 n

/-- What a write puts on the wire. -/
def sent : WriteCall → WsMessage
  | .writeFrame f => .binary (encodeFrame f)
  | .close code reason => .close (some (code.asU16, reason))

end WebSocketConnection

end Rifts
