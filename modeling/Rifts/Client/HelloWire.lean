import Rifts.Client.Lifecycle
import Rifts.Connection.Handshake

/-! The hello of a client as the server decodes it. -/
namespace Rifts

/-- The hello that a configuration stands for. -/
def RiftClientConfig.hello (cfg : RiftClientConfig) : Hello where
  protocol := "rift"
  version := 0x0100
  clientId := some cfg.clientId
  sessionId := cfg.sessionId
  epoch := some cfg.epoch
  codecs := cfg.codecs
  authModes := [.bearer]
  lastOffsets := cfg.lastOffsets

/-- Client and server have the same names for the codecs. -/
theorem codecsOf_names (codecs : List EncodingFormat) :
    codecsOf (codecs.map fun c => .string c.name) = codecs := by
  unfold codecsOf
  induction codecs with
  | nil => rfl
  | cons c codecs ih => cases c <;> simpa [EncodingFormat.name, Json.asStr] using ih

theorem offsets_ofI64 (offsets : List (String × Int64)) :
    ((offsets.map fun x => (x.1, Json.ofI64 x.2)).filterMap fun kv =>
      kv.2.asI64.map (kv.1, ·)) = offsets := by
  induction offsets with
  | nil => rfl
  | cons x offsets ih => simp [Json.asI64_ofI64, ih]

variable {J : SerdeJson} {cfg : RiftClientConfig}

theorem decodeHelloPayload_helloPayload
    (hJ : J.fromSlice (J.toVec (helloPayload cfg)) = .ok (helloPayload cfg)) :
    decodeHelloPayload J (some (J.toVec (helloPayload cfg))) = .ok (cfg.hello, some cfg.token) := by
  have hversion : helloVersion (helloPayload cfg) = .ok 0x0100 := rfl
  have hsession : (helloPayload cfg).get "session_id" = some (.ofOptStr cfg.sessionId) := rfl
  have hepoch : (helloPayload cfg).get "epoch" =
      some (.number (.posInt cfg.epoch.toUInt64)) := rfl
  have hcodecs : (helloPayload cfg).get "codecs" =
      some (.array (cfg.codecs.map fun c => .string c.name)) := rfl
  have hoffsets : (helloPayload cfg).get "last_offsets" =
      some (.object (cfg.lastOffsets.map fun x => (x.1, .ofI64 x.2))) := rfl
  simp only [decodeHelloPayload, hJ, hversion, hsession, hepoch, hcodecs, hoffsets,
    Option.bind_some, Json.asStr_ofOptStr, Json.asU64, Json.asArray, Json.asObject,
    Option.getD_some, codecsOf_names, offsets_ofI64, Option.map_some, UInt32.toUInt32_toUInt64]
  rfl

theorem decode_helloFrame {now : Int64} {id : UInt64} {max : Nat}
    (hlen : (J.toVec (helloPayload cfg)).length ≤ max) (hmax : max < 2 ^ 32) :
    decodeBinaryFrame (encodeFrame (helloFrame J now id cfg)) max =
      .ok ((helloFrame J now id cfg).overWire (J.toVec (helloPayload cfg))) :=
  decode_encode_of_le hlen hmax

/-- The hello of a client arrives as it was meant, with its token. -/
theorem hello_arrives (J : SerdeJson) (now : Int64) (id : UInt64) (cfg : RiftClientConfig)
    (hJ : J.fromSlice (J.toVec (helloPayload cfg)) = .ok (helloPayload cfg))
    (hlen : (J.toVec (helloPayload cfg)).length ≤ defaultMaxBinaryPayload) :
    ∃ f, decodeBinaryFrame (encodeFrame (helloFrame J now id cfg)) defaultMaxBinaryPayload = .ok f ∧
      decodeHelloPayload J f.payload = .ok (cfg.hello, some cfg.token) :=
  ⟨_, decode_helloFrame hlen (by decide), decodeHelloPayload_helloPayload hJ⟩

def travelled : RiftClientConfig :=
  { clientId := "alice", token := "t", sessionId := some "s", epoch := 3
    lastOffsets := [("a", -1), ("b", 7)] }

def travelledReader : SerdeJson := .reading [helloPayload travelled]

theorem travelled_hello_arrives :
    ∃ f, decodeBinaryFrame (encodeFrame (helloFrame travelledReader 0 1 travelled))
        defaultMaxBinaryPayload = .ok f ∧
      decodeHelloPayload travelledReader f.payload =
        .ok (travelled.hello, some travelled.token) := by
  have hlen : 4 * (helloPayload travelled).compact.length ≤ defaultMaxBinaryPayload := by
    decide +kernel
  exact hello_arrives travelledReader 0 1 travelled (by simp [travelledReader, SerdeJson.reading])
    ((SerdeJson.length_toVec_reading_le _ _).trans hlen)

end Rifts
