import Rifts.Core.Error
import Rifts.Core.Frame

/-! Server configuration and codec negotiation. -/
namespace Rifts

/-- `std::time::Duration`. -/
structure Duration where
  nanos : Nat
  deriving DecidableEq, Repr

namespace Duration

def ofMillis (n : Nat) : Duration := ⟨n * 1000000⟩

def asMillis (d : Duration) : Nat := d.nanos / 1000000

end Duration

/-- Durations are whole milliseconds, as `as_millis` reads them. -/
structure HeartbeatPolicy where
  pingInterval : Nat := 25000
  pongTimeout : Nat := 10000
  maxMissedPongs : UInt32 := 2
  idleTimeout : Nat := 300000
  jitter : Nat := 2500
  deriving DecidableEq, Repr

/-- The configuration fields that reach the handshake. -/
structure ServerConfig where
  maxPayloadBytes : Nat := 65536
  maxTopicsPerConnection : Nat := 128
  maxSendQueueBytes : Nat := 1048576
  heartbeat : HeartbeatPolicy := {}
  replayWindow : Nat := 300000
  codecOffer : List EncodingFormat := []
  deriving DecidableEq, Repr

namespace ServerConfig

def supportedFeatures (_ : ServerConfig) : List String :=
  ["replay", "snapshot", "resume", "topic_profiles", "backpressure"]

/-- An empty offer means every codec that is compiled in. -/
def serverCodecs (cfg : ServerConfig) : List EncodingFormat :=
  if cfg.codecOffer.isEmpty then [.json, .cbor] else cfg.codecOffer

end ServerConfig

def EncodingFormat.debugName : EncodingFormat → String
  | .json => "Json"
  | .cbor => "Cbor"

/-- The `{:?}` rendering of a codec list. -/
def debugCodecs (codecs : List EncodingFormat) : String :=
  "[" ++ ", ".intercalate (codecs.map EncodingFormat.debugName) ++ "]"

/-- The first codec of the client's list that the server registered. -/
def negotiate (server client : List EncodingFormat) : Except RiftError EncodingFormat :=
  match client.find? (server.contains ·) with
  | some codec => .ok codec
  | none => .error (.frame (.codecUnsupported ("client offered " ++ debugCodecs client)))

end Rifts
