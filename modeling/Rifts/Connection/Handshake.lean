import Rifts.Core.Config
import Rifts.Session.Auth
import Rifts.Session.Resume

/-! `Connection::handshake`: hello, authentication, session binding, welcome and ready. -/
namespace Rifts

def codecsOf (xs : List Json) : List EncodingFormat :=
  xs.filterMap fun c =>
    match c.asStr with
    | some "json" => some .json
    | some "cbor" => some .cbor
    | _ => none

def authModesOf (xs : List Json) : List AuthMode :=
  xs.filterMap fun c =>
    match c.asStr with
    | some "bearer" => some .bearer
    | some "cookie" => some .cookie
    | some "mtls" => some .mtls
    | some "signed_challenge" => some .signedChallenge
    | some "anonymous" => some .anonymous
    | _ => none

def helloVersion (v : Json) : Except RiftError UInt16 :=
  match (v.get "version").bind Json.asU64 with
  | some n =>
    if n ≤ 65535 then .ok n.toUInt16
    else .error (.frame (.frameInvalid ("hello version out of range: " ++ toString n)))
  | none => .ok 0

/-- Missing fields fall back to the `Hello` defaults; an epoch is cut to 32 bits. -/
def decodeHelloPayload (J : SerdeJson) (payload : Option Bytes) :
    Except RiftError (Hello × Option String) :=
  match payload with
  | none => .error (.frame (.requiredFieldMissing "payload"))
  | some p =>
    match J.fromSlice p with
    | .error e => .error (.frame (.frameInvalid e))
    | .ok v =>
      match v.asObject with
      | none => .error (.frame (.frameInvalid "hello must be object"))
      | some _ => do
        let version ← helloVersion v
        let hello : Hello :=
          { protocol := ((v.get "protocol").bind Json.asStr).getD ""
            version := version
            clientId := (v.get "client_id").bind Json.asStr
            sessionId := (v.get "session_id").bind Json.asStr
            epoch := ((v.get "epoch").bind Json.asU64).map UInt64.toUInt32
            codecs := codecsOf (((v.get "codecs").bind Json.asArray).getD [])
            authModes := authModesOf (((v.get "auth_modes").bind Json.asArray).getD [])
            lastOffsets := (((v.get "last_offsets").bind Json.asObject).getD []).filterMap
              fun kv => kv.2.asI64.map (kv.1, ·) }
        return (hello, (v.get "token").bind Json.asStr)

/-- What one handshake meets outside the server: the peer's first frame, the
authentication provider, the broker at its two head-offset readings, the
outcome of each transport write, a fresh ULID and the clock. -/
structure Env where
  hello : Except RiftError Frame
  supportedModes : List AuthMode
  authenticate : AuthMode → Option String → Except RiftError AuthContext
  evalHead : String → Int64
  replayHead : String → Int64
  replay : String → Int64 → Int64 → Except RiftError (List Bytes)
  write : Nat → Except RiftError Unit
  newId : String
  now : Int64

/-- A peer that sends one hello and is authenticated as `clientId`, over a
transport that takes every write and a broker that never published. -/
def Env.plain (J : SerdeJson) (body : Json) (clientId newId : String) : Env where
  hello := .ok { payload := some (J.toVec body) }
  supportedModes := [.bearer, .anonymous]
  authenticate := fun mode _ => .ok ⟨clientId, .object [], mode, {}⟩
  evalHead := fun _ => -1
  replayHead := fun _ => -1
  replay := fun _ _ _ => .ok []
  write := fun _ => .ok ()
  newId := newId
  now := 0

/-- A hello object for Rift/1 with the JSON codec. -/
def helloBody (session : List (String × Json)) : Json :=
  .object ([("auth_modes", .array [.string "bearer"]), ("codecs", .array [.string "json"]),
    ("protocol", .string "rift"), ("version", .number (.posInt 256))] ++ session)

/-- What the checks before the session lookup establish. -/
structure Admission where
  hello : Hello
  codec : EncodingFormat
  auth : AuthContext

/-- The first mode of the client's list that the server supports. -/
def chooseMode (server client : List AuthMode) : AuthMode :=
  (client.find? (server.contains ·)).getD .anonymous

/-- The part of the handshake that touches no session. -/
def checkHello (J : SerdeJson) (cfg : ServerConfig) (env : Env) : Except RiftError Admission := do
  let frame ← env.hello
  if frame.frameType ≠ .control then
    throw (.frame (.frameInvalid "expected control frame"))
  let (hello, token) ← decodeHelloPayload J frame.payload
  if hello.protocol ≠ protocolName then
    throw (.frame (.frameInvalid ("unknown protocol: " ++ hello.protocol)))
  if (negotiateMajor (hello.version >>> 8)).isNone then
    throw (.frame (.protocolVersionUnsupported hello.version encodedVersion))
  let codec ← negotiate cfg.serverCodecs hello.codecs
  let auth ← env.authenticate (chooseMode env.supportedModes hello.authModes) token
  if hello.codecs.isEmpty then
    throw (.frame (.frameInvalid "hello must include at least one codec"))
  if 8192 < (token.map String.utf8ByteSize).getD 0 then
    throw (.frame (.payloadTooLarge ((token.map String.utf8ByteSize).getD 0) 8192))
  if 1024 < hello.lastOffsets.length then
    throw (.frame (.frameInvalid "hello last_offsets exceeds maximum 1024 entries"))
  return ⟨hello, codec, auth⟩

def epochCheck (s : Session) (hello : Hello) : Except RiftError Unit :=
  if hello.epoch.getD 0 ≠ s.epoch then
    .error (.session (.conflict (hello.epoch.getD 0) s.epoch))
  else .ok ()

def stateCheck (s : Session) (hello : Hello) : Except RiftError Unit :=
  if s.state = .active ∨ s.state = .ready then
    .error (.session (.conflict (hello.epoch.getD 0) s.epoch))
  else .ok ()

def topicOffsets (env : Env) (lastOffsets : List (String × Int64)) (topic : String) :
    Option Int64 :=
  if topic ∈ lastOffsets.map Prod.fst then some (env.evalHead topic) else none

/-- Session lookup or creation. The epoch is bumped and the state set before the
resume request is evaluated. -/
def bindSession (env : Env) (adm : Admission) (st : SessionStore) :
    SessionStore × Except RiftError (Nat × Option ResumeDecision) :=
  match adm.hello.sessionId with
  | none => (st.insert (.new env.newId adm.auth.clientId env.now), .ok (st.next, none))
  | some sid =>
    match st.get sid with
    | none => (st, .error (.session (.notFound sid)))
    | some r =>
      match epochCheck (st.heap r) adm.hello with
      | .error e => (st, .error e)
      | .ok () =>
        match stateCheck (st.heap r) adm.hello with
        | .error e => (st, .error e)
        | .ok () =>
          let st := (st.bumpEpoch r).setState r .resuming env.now
          match evaluate (st.heap r) adm.hello.lastOffsets
              (topicOffsets env adm.hello.lastOffsets) with
          | .error e => (st, .error e)
          | .ok decision => (st, .ok (r, some decision))

def resumeResult : ResumeDecision → String
  | .fullResume => "resumed"
  | .partialResume => "partial"
  | .replaying => "replaying"
  | .snapshotRequired => "snapshot_required"
  | .coldStart => "cold_start"
  | .rejected => "rejected"

def jsonU32 (n : UInt32) : Json := .number (.posInt n.toUInt64)

/-- The `as u32` of a millisecond count or a size. -/
def jsonAsU32 (n : Nat) : Json := jsonU32 (UInt32.ofNat n)

/-- The object in a welcome frame. -/
def welcomeBody (session : Session) (codec : EncodingFormat) (resume : Option String)
    (cfg : ServerConfig) (now : Int64) : Json :=
  .object ([("type", .string "welcome"), ("session_id", .string session.id),
    ("epoch", jsonU32 session.epoch), ("negotiated_codec", .string codec.name),
    ("resume_window_ms", jsonAsU32 cfg.replayWindow),
    ("features", .array (cfg.supportedFeatures.map .string)), ("server_time", .ofI64 now)] ++
    (resume.map fun r => ("resume_result", Json.string r)).toList)

/-- The object in a ready frame. -/
def readyBody (session : Session) (cfg : ServerConfig) (now : Int64) : Json :=
  .object [("type", .string "ready"), ("session_id", .string session.id),
    ("epoch", jsonU32 session.epoch),
    ("ping_interval_ms", jsonAsU32 cfg.heartbeat.pingInterval),
    ("pong_timeout_ms", jsonAsU32 cfg.heartbeat.pongTimeout),
    ("max_missed_pongs", jsonU32 cfg.heartbeat.maxMissedPongs),
    ("idle_timeout_ms", jsonAsU32 cfg.heartbeat.idleTimeout),
    ("jitter_ms", jsonAsU32 cfg.heartbeat.jitter),
    ("max_payload_bytes", jsonAsU32 cfg.maxPayloadBytes),
    ("max_topics_per_connection", jsonAsU32 cfg.maxTopicsPerConnection),
    ("max_send_queue_bytes", jsonAsU32 cfg.maxSendQueueBytes), ("server_time", .ofI64 now)]

def buildWelcomeFrame (J : SerdeJson) (session : Session) (codec : EncodingFormat)
    (resume : Option String) (cfg : ServerConfig) (now : Int64) : Frame :=
  { codec := codec, sessionId := some session.id, timestamp := now
    payload := some (J.toVec (welcomeBody session codec resume cfg now)) }

def buildReadyFrame (J : SerdeJson) (session : Session) (cfg : ServerConfig)
    (codec : EncodingFormat) (now : Int64) : Frame :=
  { codec := codec, sessionId := some session.id, timestamp := now
    payload := some (J.toVec (readyBody session cfg now)) }

/-- Writes attempted so far and the frames that went out. -/
structure Wire where
  attempts : Nat := 0
  sent : List Frame := []
  deriving DecidableEq, Repr

def Wire.write (w : Wire) (env : Env) (f : Frame) : Wire × Except RiftError Unit :=
  match env.write w.attempts with
  | .ok () => (⟨w.attempts + 1, w.sent ++ [f]⟩, .ok ())
  | .error e => (⟨w.attempts + 1, w.sent⟩, .error e)

def replayFrame (topic : String) (data : Bytes) : Frame :=
  Frame.markReplay { frameType := .data, codec := .json, payload := some data, topic := some topic }

/-- Replay of one topic; write errors are ignored, as is a failed log read. -/
def replayTopic (env : Env) (w : Wire) (topic : String) (last : Int64) : Wire :=
  let head := env.replayHead topic
  if last < head then
    match env.replay topic (last + 1) head with
    | .ok frames => frames.foldl (fun w data => (w.write env (replayFrame topic data)).1) w
    | .error _ => w
  else w

def replayMissed (env : Env) (w : Wire) (resume : Option ResumeDecision)
    (lastOffsets : List (String × Int64)) : Wire :=
  if resume = some .partialResume ∨ resume = some .replaying then
    lastOffsets.foldl (fun w kv => replayTopic env w kv.1 kv.2) w
  else w

/-- Welcome, replay and ready, on a session that is already bound. -/
def greet (J : SerdeJson) (cfg : ServerConfig) (env : Env) (adm : Admission)
    (st : SessionStore) (r : Nat) (resume : Option ResumeDecision) :
    SessionStore × Wire × Except RiftError Nat :=
  let st := st.setState r .ready env.now
  let welcome := buildWelcomeFrame J (st.heap r) adm.codec (resume.map resumeResult) cfg env.now
  match Wire.write {} env welcome with
  | (w, .error e) => (st, w, .error e)
  | (w, .ok ()) =>
    let w := replayMissed env w resume adm.hello.lastOffsets
    let ready := buildReadyFrame J (st.heap r) cfg adm.codec env.now
    match w.write env ready with
    | (w, .error e) => (st, w, .error e)
    | (w, .ok ()) => (st.setState r .active env.now, w, .ok r)

/-- The whole handshake, run without interference: the store it leaves, the
frames it wrote, and the session it returns. -/
def handshake (J : SerdeJson) (cfg : ServerConfig) (env : Env) (st : SessionStore) :
    SessionStore × Wire × Except RiftError Nat :=
  match checkHello J cfg env with
  | .error e => (st, {}, .error e)
  | .ok adm =>
    match bindSession env adm st with
    | (st, .error e) => (st, {}, .error e)
    | (st, .ok (r, resume)) => greet J cfg env adm st r resume

end Rifts
