import Rifts.Broker.MemoryBroker
import Rifts.Core.FrameCodec
import Rifts.Core.Json

/-! A published event on its way from the client's frame builder to the broker. -/
namespace Rifts

def dataFrame (J : SerdeJson) (now : Int64) (id : UInt64) (topic : String)
    (event messageId correlationId : Option String) (body : Json) : Frame where
  version := 0x0100
  frameId := id
  frameType := .data
  timestamp := now
  topic := some topic
  event := event
  messageId := messageId
  correlationId := correlationId
  payload := some (J.toVec body)

structure PublishOpts where
  dedupeKey : Option String := none
  orderingKey : Option String := none
  ttlMs : Option UInt32 := none
  priority : Option Priority := none

def eventBody (event messageId schema : String) (payload : Json) (opts : PublishOpts) : Json :=
  .object [("class", .string "event"), ("event", .string event),
    ("message_id", .string messageId), ("schema", .string schema), ("payload", payload),
    ("dedupe_key", .ofOptStr opts.dedupeKey), ("ordering_key", .ofOptStr opts.orderingKey),
    ("ttl_ms", .ofOptU32 opts.ttlMs)]

/-- The frame `RiftClient::publish` sends; the message id is a new ULID. -/
def eventFrame (J : SerdeJson) (now : Int64) (id : UInt64) (topic event messageId schema : String)
    (payload : Json) (opts : PublishOpts) : Frame :=
  { dataFrame J now id topic (some event) (some messageId) none
      (eventBody event messageId schema payload opts) with
    priority := opts.priority
    ttlMs := opts.ttlMs }

variable {O L D S σ : Type} [OffsetStore O] [LogStore L] [DedupeStore D] [SnapshotStore S]

/-- A binary message at the server, for a frame the reader hands to the broker. -/
def receivePublish (b : InMemoryBroker O L D S σ) (now : Int64) (data : Bytes) :
    InMemoryBroker O L D S σ × Except RiftError PublishOutcome × List (σ × Bytes) :=
  match decodeBinaryFrame data defaultMaxBinaryPayload with
  | .ok f => b.publish now f
  | .error e => (b, .error e, [])

theorem publish_without_topic {b : InMemoryBroker O L D S σ} {now : Int64} {f : Frame}
    (h : f.topic = none) :
    b.publish now f = (b, .error (.frame (.requiredFieldMissing "topic")), []) := by
  simp [InMemoryBroker.publish, InMemoryBroker.validatePublish, h]

/-- Whatever bytes arrive, the broker refuses them: a decoded frame has no topic. -/
theorem receivePublish_refused (b : InMemoryBroker O L D S σ) (now : Int64) (data : Bytes) :
    ∃ e, receivePublish b now data = (b, .error e, []) ∧
      ((∃ f, decodeBinaryFrame data defaultMaxBinaryPayload = .ok f) →
        e = .frame (.requiredFieldMissing "topic")) := by
  unfold receivePublish
  cases hd : decodeBinaryFrame data defaultMaxBinaryPayload with
  | error e => exact ⟨e, rfl, by simp⟩
  | ok f => exact ⟨_, publish_without_topic (decodeBinaryFrame_meta hd).1, fun _ => rfl⟩

/-- Every event a client publishes is refused: over the wire its topic, event name
and message id are lost, and nothing is logged or delivered. The same frame, had
it reached the broker as it was built, is accepted on a fresh topic. -/
theorem published_event_is_refused (J : SerdeJson) (b : InMemoryBroker O L D S σ)
    (sentAt now : Int64) (id : UInt64) (topic event messageId schema : String) (payload : Json)
    (opts : PublishOpts) :
    (∃ e, receivePublish b now
          (encodeFrame (eventFrame J sentAt id topic event messageId schema payload opts)) =
        (b, .error e, []) ∧
      ((J.toVec (eventBody event messageId schema payload opts)).length ≤
          defaultMaxBinaryPayload → e = .frame (.requiredFieldMissing "topic"))) ∧
    (validateName topic = .ok () →
      (J.toVec (eventBody event messageId schema payload opts)).length ≤ b.maxPayloadBytes →
      (eventFrame J sentAt id topic event messageId schema payload opts).expired now = false →
      b.store.get topic = none → 0 < b.defaultProfile.maxPublishers →
      ∃ b' outcome offers,
        b.publish now (eventFrame J sentAt id topic event messageId schema payload opts) =
          (b', .ok outcome, offers) ∧
        b'.log = LogStore.append b.log now topic
          { offset := outcome.offset, publisherSession := none, messageId := messageId
            class_ := "event", event := some event
            payload := J.toVec (eventBody event messageId schema payload opts)
            timestamp := sentAt, appendedAt := none } b.defaultProfile.retention) := by
  constructor
  · obtain ⟨e, hr, hd⟩ := receivePublish_refused b now
      (encodeFrame (eventFrame J sentAt id topic event messageId schema payload opts))
    exact ⟨e, hr, fun hsize => hd ⟨_, decode_encode_of_le hsize (by decide)⟩⟩
  · intro hname hsize hlive hfresh hslots
    exact InMemoryBroker.publish_fresh
      (InMemoryBroker.validatePublish_of_fields rfl rfl hsize hlive) hname hfresh hslots

/-- A `serde_json` that only prints. -/
def printer : SerdeJson := .reading []

theorem published_event_lost_topic :
    receivePublish emptyBroker 5
        (encodeFrame (eventFrame printer 5 1 "room/1" "said" "m1" "text" (.string "hi") {})) =
      (emptyBroker, .error (.frame (.requiredFieldMissing "topic")), []) := by
  obtain ⟨e, hr, he⟩ := (published_event_is_refused printer emptyBroker 5 5 1 "room/1" "said" "m1"
    "text" (.string "hi") {}).1
  rw [hr, he (by decide +kernel)]

/-- The event is valid in every respect and the broker takes it directly, but not
after it has been encoded and decoded. -/
theorem valid_event_is_refused :
    validateName "room/1" = .ok () ∧
    (printer.toVec (eventBody "said" "m1" "text" (.string "hi") {})).length ≤ 65536 ∧
    (emptyBroker.publish 5
        (eventFrame printer 5 1 "room/1" "said" "m1" "text" (.string "hi") {})).2.1 =
      .ok ⟨1, false⟩ ∧
    (receivePublish emptyBroker 5
        (encodeFrame (eventFrame printer 5 1 "room/1" "said" "m1" "text" (.string "hi") {}))).2.1 =
      .error (.frame (.requiredFieldMissing "topic")) := by
  refine ⟨by decide, by decide +kernel, by decide +kernel, by decide +kernel⟩

end Rifts
