import Rifts.Client.Epochs
import Rifts.Transport.WebSocket

/-! The limits a server is configured with, and what its clients take from the handshake. -/
namespace Rifts

/-- The limits of a `ServerConfig` and of its heartbeat policy, with the durations in full. -/
structure Limits where
  maxPayloadBytes : Nat := 65536
  maxTopicsPerConnection : Nat := 128
  maxSendQueueBytes : Nat := 1048576
  pingInterval : Duration := .ofMillis 25000
  pongTimeout : Duration := .ofMillis 10000
  maxMissedPongs : UInt32 := 2
  idleTimeout : Duration := .ofMillis 300000
  jitter : Duration := .ofMillis 2500
  replayWindow : Duration := .ofMillis 300000
  deriving DecidableEq, Repr

/-- A listener sets the largest message of the connections it accepts. -/
structure WebSocketListener where
  maxMessageSize : Option Nat
  deriving DecidableEq, Repr

/-- `accept_with_config`: the limits of the connections. The limit on frames stays the default. -/
def WebSocketListener.acceptWithConfig (l : WebSocketListener) : WebSocketConfig :=
  match l.maxMessageSize with
  | some limit => { maxMessageSize := some limit }
  | none => {}

namespace Limits

/-- `HeartbeatPolicy::validate`. -/
def validateHeartbeat (l : Limits) : Except String Unit :=
  if l.pingInterval.nanos = 0 then .error "ping_interval must be > 0"
  else if l.pongTimeout.nanos = 0 then .error "pong_timeout must be > 0"
  else if l.maxMissedPongs = 0 then .error "max_missed_pongs must be > 0"
  else if l.idleTimeout.nanos = 0 then .error "idle_timeout must be > 0"
  else if l.pingInterval.nanos < l.jitter.nanos then .error "jitter must be <= ping_interval"
  else .ok ()

/-- `ServerConfig::validate`. -/
def validate (l : Limits) : Except String Unit :=
  if l.maxPayloadBytes = 0 then .error "max_payload_bytes must be > 0"
  else if l.maxSendQueueBytes = 0 then .error "max_send_queue_bytes must be > 0"
  else
    match l.validateHeartbeat with
    | .error e => .error ("heartbeat: " ++ e)
    | .ok () => .ok ()

/-- The configuration as the handshake reads it, durations through `as_millis`. -/
def config (l : Limits) (codecOffer : List EncodingFormat) : ServerConfig where
  maxPayloadBytes := l.maxPayloadBytes
  maxTopicsPerConnection := l.maxTopicsPerConnection
  maxSendQueueBytes := l.maxSendQueueBytes
  heartbeat :=
    { pingInterval := l.pingInterval.asMillis
      pongTimeout := l.pongTimeout.asMillis
      maxMissedPongs := l.maxMissedPongs
      idleTimeout := l.idleTimeout.asMillis
      jitter := l.jitter.asMillis }
  replayWindow := l.replayWindow.asMillis
  codecOffer := codecOffer

end Limits

structure Welcome where
  sessionId : String
  epoch : UInt32
  negotiatedCodec : EncodingFormat
  negotiatedCompression : Option String
  serverTime : Int64
  resumeWindowMs : UInt32
  features : List String
  deriving DecidableEq, Repr

structure Ready where
  sessionId : String
  epoch : UInt32
  pingIntervalMs : UInt32
  pongTimeoutMs : UInt32
  maxMissedPongs : UInt32
  idleTimeoutMs : UInt32
  jitterMs : UInt32
  maxPayloadBytes : UInt32
  maxTopicsPerConnection : UInt32
  maxSendQueueBytes : UInt32
  serverTime : Int64
  deriving DecidableEq, Repr

/-- A number of the body, cut to 32 bits, or the default where there is none. -/
def u32Field (obj : Json) (key : String) (default : UInt64) : UInt32 :=
  (((obj.get key).bind Json.asU64).getD default).toUInt32

def i64Field (obj : Json) (key : String) : Int64 := ((obj.get key).bind Json.asI64).getD 0

def strField (obj : Json) (key : String) : String := ((obj.get key).bind Json.asStr).getD ""

theorem u32Field_jsonU32 {obj : Json} {key : String} {default : UInt64} {n : UInt32}
    (h : obj.get key = some (jsonU32 n)) : u32Field obj key default = n := by
  rw [u32Field, h]
  exact UInt32.toUInt32_toUInt64 n

theorem i64Field_ofI64 {obj : Json} {key : String} {i : Int64}
    (h : obj.get key = some (.ofI64 i)) : i64Field obj key = i := by
  rw [i64Field, h, Option.bind_some, Json.asI64_ofI64, Option.getD_some]

def Welcome.ofJson (obj : Json) : Welcome where
  sessionId := strField obj "session_id"
  epoch := u32Field obj "epoch" 0
  negotiatedCodec :=
    match (obj.get "negotiated_codec").bind Json.asStr with
    | some "cbor" | some "Cbor" => .cbor
    | _ => .json
  negotiatedCompression := (obj.get "negotiated_compression").bind Json.asStr
  serverTime := i64Field obj "server_time"
  resumeWindowMs := u32Field obj "resume_window_ms" 0
  features := (((obj.get "features").bind Json.asArray).getD []).filterMap Json.asStr

def Ready.ofJson (obj : Json) : Ready where
  sessionId := strField obj "session_id"
  epoch := u32Field obj "epoch" 0
  pingIntervalMs := u32Field obj "ping_interval_ms" 25000
  pongTimeoutMs := u32Field obj "pong_timeout_ms" 10000
  maxMissedPongs := u32Field obj "max_missed_pongs" 2
  idleTimeoutMs := u32Field obj "idle_timeout_ms" 300000
  jitterMs := u32Field obj "jitter_ms" 2500
  maxPayloadBytes := u32Field obj "max_payload_bytes" 65536
  maxTopicsPerConnection := u32Field obj "max_topics_per_connection" 128
  maxSendQueueBytes := u32Field obj "max_send_queue_bytes" 1048576
  serverTime := i64Field obj "server_time"

namespace Greeting

/-- `parse_handshake` with every field it reads. -/
def parseHandshake (obj : Json) (parts : Option Welcome × Option Ready) :
    Option Welcome × Option Ready :=
  match (obj.get "type").bind Json.asStr with
  | some "welcome" => (some (.ofJson obj), parts.2)
  | some "ready" => (parts.1, some (.ofJson obj))
  | _ => parts

/-- The parts of a handshake that the connection keeps. -/
def kept (parts : Option Welcome × Option Ready) : Option String × Option UInt32 :=
  (parts.1.map Welcome.sessionId, parts.2.map Ready.epoch)

theorem kept_parseHandshake (obj : Json) (parts : Option Welcome × Option Ready) :
    kept (parseHandshake obj parts) = Rifts.parseHandshake obj (kept parts) := by
  unfold parseHandshake Rifts.parseHandshake
  generalize (obj.get "type").bind Json.asStr = kind
  by_cases hwelcome : kind = some "welcome"
  · subst hwelcome
    rfl
  by_cases hready : kind = some "ready"
  · subst hready
    rfl
  · simp

/-- One frame of the handshake at the client. -/
def receive (J : SerdeJson) (parts : Option Welcome × Option Ready) (f : Frame) :
    Except String (Option Welcome × Option Ready) :=
  match f.payload with
  | none => .ok parts
  | some payload => (J.fromSlice payload).map (parseHandshake · parts)

/-- The two frames of a greeting at the client. -/
def receiveBoth (J : SerdeJson) (welcome ready : Frame) :
    Except String (Option Welcome × Option Ready) := do
  let parts ← receive J (none, none) welcome
  receive J parts ready

end Greeting

/-- A field of 32 bits that counts in units carries a limit: exactly, or as the largest
number it has when the limit is above that. -/
def Carried (unit limit : Nat) (field : UInt32) : Prop :=
  field.toNat * unit = limit ∨ (2 ^ 32 - 1) * unit < limit ∧ field.toNat = 2 ^ 32 - 1

/-- The limits that a cut to 32 bits leaves as they are or turns into the largest number:
whole units that fit, and those too large whose low 32 bits happen to be all ones. -/
def SurvivesCut (unit limit : Nat) : Prop :=
  limit % unit = 0 ∧ limit / unit < 2 ^ 32 ∨
    (2 ^ 32 - 1) * unit < limit ∧ limit / unit % 2 ^ 32 = 2 ^ 32 - 1

instance (unit limit : Nat) (field : UInt32) : Decidable (Carried unit limit field) :=
  inferInstanceAs (Decidable (_ ∨ _))

instance (unit limit : Nat) : Decidable (SurvivesCut unit limit) :=
  inferInstanceAs (Decidable (_ ∨ _))

theorem carried_cut_iff {unit limit : Nat} (hunit : 0 < unit) :
    Carried unit limit (UInt32.ofNat (limit / unit)) ↔ SurvivesCut unit limit := by
  have hdiv := Nat.div_add_mod limit unit
  have hmod := Nat.mod_lt limit hunit
  rw [Carried, SurvivesCut, UInt32.toNat_ofNat']
  refine or_congr_left ?_
  constructor
  · intro h
    have hle : limit / unit % 2 ^ 32 ≤ limit / unit := Nat.mod_le _ _
    have hge : limit / unit ≤ limit / unit % 2 ^ 32 := by
      rw [← h, Nat.mul_div_cancel _ hunit, Nat.mod_mod]
    have heq : limit / unit % 2 ^ 32 = limit / unit := le_antisymm hle hge
    rw [heq] at h
    refine ⟨?_, by rw [← heq]; exact Nat.mod_lt _ (by decide)⟩
    rw [← h, Nat.mul_mod_left]
  · rintro ⟨hwhole, hfits⟩
    rw [Nat.mod_eq_of_lt hfits]
    exact Nat.div_mul_cancel (Nat.dvd_of_mod_eq_zero hwhole)

namespace Limits

/-- Every limit arrives. -/
@[mk_iff] structure Arrive (l : Limits) (w : Welcome) (r : Ready) : Prop where
  resumeWindowMs : Carried 1000000 l.replayWindow.nanos w.resumeWindowMs
  pingIntervalMs : Carried 1000000 l.pingInterval.nanos r.pingIntervalMs
  pongTimeoutMs : Carried 1000000 l.pongTimeout.nanos r.pongTimeoutMs
  maxMissedPongs : r.maxMissedPongs = l.maxMissedPongs
  idleTimeoutMs : Carried 1000000 l.idleTimeout.nanos r.idleTimeoutMs
  jitterMs : Carried 1000000 l.jitter.nanos r.jitterMs
  maxPayloadBytes : Carried 1 l.maxPayloadBytes r.maxPayloadBytes
  maxTopicsPerConnection : Carried 1 l.maxTopicsPerConnection r.maxTopicsPerConnection
  maxSendQueueBytes : Carried 1 l.maxSendQueueBytes r.maxSendQueueBytes

/-- Every duration and every size survives the cut. -/
def Fit (l : Limits) : Prop :=
  (∀ d ∈ [l.replayWindow, l.pingInterval, l.pongTimeout, l.idleTimeout, l.jitter],
    SurvivesCut 1000000 d.nanos) ∧
  ∀ n ∈ [l.maxPayloadBytes, l.maxTopicsPerConnection, l.maxSendQueueBytes], SurvivesCut 1 n

instance (l : Limits) : Decidable l.Fit := inferInstanceAs (Decidable (_ ∧ _))

variable {J : SerdeJson} {l : Limits} {offer : List EncodingFormat} {session : Session}
  {codec : EncodingFormat} {resume : Option String} {now : Int64} {cfg : ServerConfig}

/-- What the client takes from a welcome body. -/
theorem ofJson_welcomeBody :
    Welcome.ofJson (welcomeBody session codec resume cfg now) =
      { sessionId := session.id, epoch := session.epoch, negotiatedCodec := codec
        negotiatedCompression := none, serverTime := now
        resumeWindowMs := UInt32.ofNat cfg.replayWindow, features := cfg.supportedFeatures } := by
  have htime : i64Field (welcomeBody session codec resume cfg now) "server_time" = now :=
    i64Field_ofI64 rfl
  have hcompression : ((welcomeBody session codec resume cfg now).get "negotiated_compression") =
      none := by cases resume <;> rfl
  have hcodec : (match ((welcomeBody session codec resume cfg now).get "negotiated_codec").bind
      Json.asStr with
    | some "cbor" | some "Cbor" => EncodingFormat.cbor
    | _ => EncodingFormat.json) = codec := by cases codec <;> rfl
  rw [Welcome.ofJson, htime, hcompression, hcodec, u32Field_jsonU32 (n := session.epoch) rfl,
    u32Field_jsonU32 (n := UInt32.ofNat cfg.replayWindow) rfl]
  rfl

/-- What the client takes from a ready body. -/
theorem ofJson_readyBody :
    Ready.ofJson (readyBody session cfg now) =
      { sessionId := session.id, epoch := session.epoch
        pingIntervalMs := UInt32.ofNat cfg.heartbeat.pingInterval
        pongTimeoutMs := UInt32.ofNat cfg.heartbeat.pongTimeout
        maxMissedPongs := cfg.heartbeat.maxMissedPongs
        idleTimeoutMs := UInt32.ofNat cfg.heartbeat.idleTimeout
        jitterMs := UInt32.ofNat cfg.heartbeat.jitter
        maxPayloadBytes := UInt32.ofNat cfg.maxPayloadBytes
        maxTopicsPerConnection := UInt32.ofNat cfg.maxTopicsPerConnection
        maxSendQueueBytes := UInt32.ofNat cfg.maxSendQueueBytes, serverTime := now } := by
  have htime : i64Field (readyBody session cfg now) "server_time" = now := i64Field_ofI64 rfl
  have hfield {key : String} {default : UInt64} (n : UInt32)
      (h : (readyBody session cfg now).get key = some (jsonU32 n)) :
      u32Field (readyBody session cfg now) key default = n := u32Field_jsonU32 h
  rw [Ready.ofJson, htime, hfield session.epoch rfl,
    hfield (UInt32.ofNat cfg.heartbeat.pingInterval) rfl,
    hfield (UInt32.ofNat cfg.heartbeat.pongTimeout) rfl,
    hfield cfg.heartbeat.maxMissedPongs rfl,
    hfield (UInt32.ofNat cfg.heartbeat.idleTimeout) rfl,
    hfield (UInt32.ofNat cfg.heartbeat.jitter) rfl,
    hfield (UInt32.ofNat cfg.maxPayloadBytes) rfl,
    hfield (UInt32.ofNat cfg.maxTopicsPerConnection) rfl,
    hfield (UInt32.ofNat cfg.maxSendQueueBytes) rfl]
  rfl

theorem receiveBoth_eq
    (hw : J.fromSlice (J.toVec (welcomeBody session codec resume cfg now)) =
      .ok (welcomeBody session codec resume cfg now))
    (hr : J.fromSlice (J.toVec (readyBody session cfg now)) = .ok (readyBody session cfg now)) :
    Greeting.receiveBoth J (buildWelcomeFrame J session codec resume cfg now)
        (buildReadyFrame J session cfg codec now) =
      .ok (some (.ofJson (welcomeBody session codec resume cfg now)),
        some (.ofJson (readyBody session cfg now))) := by
  have hwelcome : Greeting.receive J (none, none)
      (buildWelcomeFrame J session codec resume cfg now) =
        .ok (some (.ofJson (welcomeBody session codec resume cfg now)), none) := by
    rw [Greeting.receive, buildWelcomeFrame]
    simp only [hw]
    rfl
  rw [Greeting.receiveBoth, hwelcome]
  change Greeting.receive J (some (.ofJson (welcomeBody session codec resume cfg now)), none)
    (buildReadyFrame J session cfg codec now) = _
  rw [Greeting.receive, buildReadyFrame]
  simp only [hr]
  rfl

theorem arrive_iff_fit :
    l.Arrive (.ofJson (welcomeBody session codec resume (l.config offer) now))
      (.ofJson (readyBody session (l.config offer) now)) ↔ l.Fit := by
  have hduration (d : Duration) :
      Carried 1000000 d.nanos (UInt32.ofNat d.asMillis) ↔ SurvivesCut 1000000 d.nanos :=
    carried_cut_iff (by decide)
  have hsize (n : Nat) : Carried 1 n (UInt32.ofNat n) ↔ SurvivesCut 1 n := by
    rw [← carried_cut_iff (by decide), Nat.div_one]
  rw [arrive_iff, Fit, ofJson_welcomeBody, ofJson_readyBody]
  simp only [config, hduration, hsize, List.forall_mem_cons, List.not_mem_nil, false_imp_iff,
    implies_true, and_true, true_and, and_assoc]

/-- Of a server whose configuration is accepted, the client takes limits that are right, or
the largest it can hold, exactly when every duration is a whole number of milliseconds and every
limit fits 32 bits, or is above them with the low 32 bits all ones. The number of missed pongs
is a `u32` on both sides and always arrives. -/
theorem limits_arrive_iff (J : SerdeJson) (l : Limits) (_hvalid : l.validate = .ok ())
    (offer : List EncodingFormat) (session : Session) (codec : EncodingFormat)
    (resume : Option String) (now : Int64)
    (hw : J.fromSlice (J.toVec (welcomeBody session codec resume (l.config offer) now)) =
      .ok (welcomeBody session codec resume (l.config offer) now))
    (hr : J.fromSlice (J.toVec (readyBody session (l.config offer) now)) =
      .ok (readyBody session (l.config offer) now)) :
    (∃ w r, Greeting.receiveBoth J
        (buildWelcomeFrame J session codec resume (l.config offer) now)
        (buildReadyFrame J session (l.config offer) codec now) = .ok (some w, some r) ∧
      l.Arrive w r) ↔
    (∀ d ∈ [l.replayWindow, l.pingInterval, l.pongTimeout, l.idleTimeout, l.jitter],
      SurvivesCut 1000000 d.nanos) ∧
    ∀ n ∈ [l.maxPayloadBytes, l.maxTopicsPerConnection, l.maxSendQueueBytes],
      SurvivesCut 1 n := by
  change _ ↔ l.Fit
  rw [receiveBoth_eq hw hr]
  constructor
  · rintro ⟨w, r, hparts, harrive⟩
    cases hparts
    exact arrive_iff_fit.mp harrive
  · intro hfit
    exact ⟨_, _, rfl, arrive_iff_fit.mpr hfit⟩

/-- A `serde_json` that knows the two bodies of a greeting. -/
def greetingReader (session : Session) (cfg : ServerConfig) : SerdeJson :=
  .reading [welcomeBody session .json none cfg 0, readyBody session cfg 0]

def someSession : Session := .new "s" "alice" 0

theorem greetingReader_reads (cfg : ServerConfig)
    (h : (welcomeBody someSession .json none cfg 0).text ≠ (readyBody someSession cfg 0).text) :
    (greetingReader someSession cfg).fromSlice
        ((greetingReader someSession cfg).toVec (welcomeBody someSession .json none cfg 0)) =
      .ok (welcomeBody someSession .json none cfg 0) ∧
    (greetingReader someSession cfg).fromSlice
        ((greetingReader someSession cfg).toVec (readyBody someSession cfg 0)) =
      .ok (readyBody someSession cfg 0) := by
  constructor
  · simp [greetingReader, SerdeJson.reading]
  · simp [greetingReader, SerdeJson.reading, h]

/-- The default limits arrive. -/
theorem default_limits_arrive :
    ∃ w r, Greeting.receiveBoth (greetingReader someSession (config {} []))
        (buildWelcomeFrame (greetingReader someSession (config {} [])) someSession .json none
          (config {} []) 0)
        (buildReadyFrame (greetingReader someSession (config {} [])) someSession (config {} [])
          .json 0) = .ok (some w, some r) ∧ Limits.Arrive {} w r := by
  obtain ⟨hw, hr⟩ := greetingReader_reads (config {} [])
    (Json.text_inj.not.mpr (by decide +kernel))
  exact (limits_arrive_iff (greetingReader someSession (config {} [])) {} rfl [] someSession .json
    none 0 hw hr).mpr (by decide +kernel)

/-- Offsets kept for fifty days, and payloads of up to four gibibytes. -/
def generous : Limits :=
  { replayWindow := .ofMillis 4320000000, maxPayloadBytes := 4294967296 }

/-- The client is told of a window of seven hours, and that no payload may have a byte. -/
theorem generous_limits_wrap :
    generous.validate = .ok () ∧
    ∃ w r, Greeting.receiveBoth (greetingReader someSession (generous.config []))
        (buildWelcomeFrame (greetingReader someSession (generous.config [])) someSession .json none
          (generous.config []) 0)
        (buildReadyFrame (greetingReader someSession (generous.config [])) someSession
          (generous.config []) .json 0) = .ok (some w, some r) ∧
      w.resumeWindowMs = 25032704 ∧ r.maxPayloadBytes = 0 ∧ ¬ generous.Arrive w r := by
  obtain ⟨hw, hr⟩ := greetingReader_reads (generous.config [])
    (Json.text_inj.not.mpr (by decide +kernel))
  refine ⟨rfl, _, _, receiveBoth_eq hw hr, by decide +kernel, by decide +kernel, ?_⟩
  rw [arrive_iff_fit]
  decide +kernel

/-- `RiftServerBuilder::build` gives the listener the same number as the broker. -/
def listener (l : Limits) : WebSocketListener := ⟨some l.maxPayloadBytes⟩

theorem payloadLen_eq {f : Frame} : f.payloadLen = (f.payload.getD []).length := by
  rw [Frame.payloadLen]
  cases f.payload <;> rfl

/-- A binary message with the bytes of a frame brings the payload back exactly when it is not
above the limit of `read_frame`. -/
theorem decode_encode_iff {f : Frame} :
    decodeBinaryFrame (encodeFrame f) defaultMaxBinaryPayload =
        .ok (f.overWire (f.payload.getD [])) ↔ f.payloadLen ≤ defaultMaxBinaryPayload := by
  rw [payloadLen_eq]
  constructor
  · intro h
    rw [decodeBinaryFrame_encodeFrame] at h
    split at h
    · cases h
    · next hle =>
      -- a payload of 2^32 bytes and more is cut, so it does not come back
      have hpayload := congrArg Frame.payload (Except.ok.inj h)
      have hlen := congrArg List.length (Option.some.inj hpayload)
      rw [List.length_take, Nat.min_eq_left (Nat.mod_le _ _)] at hlen
      omega
  · exact fun hle => decode_encode_of_le hle (by decide)

/-- A frame that the broker would take is read from its connection, in however many WebSocket
frames it comes, exactly when its header fits under the limit as well, the payload is within the
limit that `read_frame` has on its own, and no WebSocket frame is above tungstenite's limit. -/
theorem listener_takes_iff (J : SerdeJson) (l : Limits) (_hvalid : l.validate = .ok ())
    (f : Frame) (_hsize : f.payloadLen ≤ l.maxPayloadBytes) (pieces : List Bytes)
    (hpieces : pieces.flatten = encodeFrame f) (later : WsParts) :
    (WebSocketConnection.readFrame J (l.listener.acceptWithConfig.receive none
        ((WsPart.ofPieces pieces).map .ok ++ later))).1 =
      .ok (f.overWire (f.payload.getD [])) ↔
    f.payloadLen + 24 ≤ l.maxPayloadBytes ∧ f.payloadLen ≤ defaultMaxBinaryPayload ∧
      ∀ piece ∈ pieces, piece.length ≤ 16777216 := by
  have hne : pieces ≠ [] := by
    rintro rfl
    have hlen := congrArg List.length hpieces
    rw [length_encodeFrame, List.flatten_nil, List.length_nil] at hlen
    omega
  have hempty : WebSocketConfig.Fits l.listener.acceptWithConfig.maxMessageSize
      ([] : Bytes).length := fun max _ => Nat.zero_le max
  have hcollected {all : Bytes} :
      l.listener.acceptWithConfig.collected [] pieces = .ok all ↔
        all = encodeFrame f ∧ (∀ piece ∈ pieces, piece.length ≤ 16777216) ∧
          f.payloadLen + 24 ≤ l.maxPayloadBytes := by
    rw [WebSocketConfig.collected_eq_ok_iff hempty, List.nil_append, hpieces, length_encodeFrame,
      payloadLen_eq, Nat.add_comm]
    simp [listener, WebSocketListener.acceptWithConfig, WebSocketConfig.Fits]
  rw [WebSocketConfig.receive_ofPieces hne]
  cases hall : l.listener.acceptWithConfig.collected [] pieces with
  | error e =>
    constructor
    · rintro h
      cases h
    · rintro ⟨hheader, -, hframes⟩
      rw [hcollected.mpr ⟨rfl, hframes, hheader⟩] at hall
      cases hall
  | ok all =>
    obtain ⟨rfl, hframes, hheader⟩ := hcollected.mp hall
    change decodeBinaryFrame (encodeFrame f) defaultMaxBinaryPayload = _ ↔ _
    rw [decode_encode_iff]
    exact ⟨fun hle => ⟨hheader, hle, hframes⟩, fun h => h.2.1⟩

/-- Eight bytes of payload. -/
def eightBytes : Frame := { payload := some [1, 2, 3, 4, 5, 6, 7, 8] }

/-- With room for the header, they are read from one WebSocket frame. -/
theorem listener_takes_eight :
    (WebSocketConnection.readFrame (.reading [])
        ((listener { maxPayloadBytes := 32 }).acceptWithConfig.receive none
          [.ok (.message (.binary (encodeFrame eightBytes)))])).1 =
      .ok (eightBytes.overWire [1, 2, 3, 4, 5, 6, 7, 8]) :=
  (listener_takes_iff (.reading []) { maxPayloadBytes := 32 } rfl eightBytes (by decide)
    [encodeFrame eightBytes] (List.append_nil _) []).mpr (by decide)

/-- Eight bytes of payload are what this server is set to take, and its connections fail when they
come. -/
theorem listener_rejects_legal :
    validate { maxPayloadBytes := 8 } = .ok () ∧ eightBytes.payloadLen ≤ 8 ∧
      (WebSocketConnection.readFrame (.reading [])
        ((listener { maxPayloadBytes := 8 }).acceptWithConfig.receive none
          [.ok (.message (.binary (encodeFrame eightBytes)))])).1 =
        .error (.other "Space limit exceeded: Message too long: 32 > 8") :=
  ⟨rfl, by decide, rfl⟩

end Limits

end Rifts
