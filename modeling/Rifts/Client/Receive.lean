import Rifts.Client.Dispatch
import Rifts.Client.Publish
import Rifts.Connection.Handshake
import Rifts.Connection.Outbound

/-! A published event on its way from the broker to a client, live and replayed. -/
namespace Rifts

/-- What `serde_json` is documented to do with the text of an object: it reads it
back, and rejects it when it is cut short. No text is empty or begins with an O. -/
structure SerdeJson.ReadsBack (J : SerdeJson) (v : Json) : Prop where
  whole : J.fromSlice (J.toVec v) = .ok v
  cut : ∀ n < (J.toVec v).length, ∃ e, J.fromSlice ((J.toVec v).take n) = .error e
  empty : ∃ e, J.fromSlice [] = .error e
  foreign : ∀ rest, ∃ e, J.fromSlice (79 :: rest) = .error e

theorem SerdeJson.reading_error {v : Json} {b : Bytes} (h : v.text ≠ b) :
    ∃ e, (SerdeJson.reading [v]).fromSlice b = .error e := by
  simp [SerdeJson.reading, h]

/-- The `serde_json` that knows one object reads it back. -/
theorem SerdeJson.reading_readsBack {v : Json} (hv : v.text.head? = some 123) :
    (SerdeJson.reading [v]).ReadsBack v := by
  refine ⟨by simp [SerdeJson.reading], fun n hn => ?_, ?_, fun rest => ?_⟩
  all_goals refine reading_error fun he => ?_
  · have hlt : (v.text.take n).length < v.text.length := by
      rw [List.length_take]
      exact (Nat.min_le_left _ _).trans_lt hn
    exact absurd (congrArg List.length he) hlt.ne'
  · simp [he] at hv
  · simp [he] at hv

variable {J : SerdeJson} {f : Frame} {event messageId schema : String} {payload : Json}
  {opts : PublishOpts}

theorem fromValue_eventBody :
    Event.fromValue (eventBody event messageId schema payload opts) =
      some ⟨event, messageId, schema, payload, opts.dedupeKey, opts.orderingKey, opts.ttlMs⟩ := by
  have hd : (eventBody event messageId schema payload opts).optField "dedupe_key" Json.asStr =
      some opts.dedupeKey := Json.optField_ofOptStr rfl
  have ho : (eventBody event messageId schema payload opts).optField "ordering_key" Json.asStr =
      some opts.orderingKey := Json.optField_ofOptStr rfl
  have ht : (eventBody event messageId schema payload opts).optField "ttl_ms" Json.asU32 =
      some opts.ttlMs := Json.optField_ofOptU32 rfl
  simp only [Event.fromValue, hd, ho, ht]
  rfl

/-- The body of an event names no topic, so without one on the frame it has none. -/
theorem dispatchBody_eventBody :
    dispatchBody none (eventBody event messageId schema payload opts) =
      [.emit (.eventReceived "" ⟨event, messageId, schema, payload, opts.dedupeKey,
        opts.orderingKey, opts.ttlMs⟩)] := by
  have hclass : ((eventBody event messageId schema payload opts).get "class").bind Json.asStr =
      some "event" := rfl
  have htopic : ((eventBody event messageId schema payload opts).get "topic").bind Json.asStr =
      none := rfl
  simp [dispatchBody, hclass, htopic, fromValue_eventBody]

/-- A data frame at the client: only its payload, cut to what the header says, counts. -/
theorem onBinary_encodeFrame {text : Bytes} (h : f.frameType = .data) (hp : f.payload = some text) :
    onBinary J (encodeFrame f) =
      if defaultMaxBinaryPayload < text.length % 2 ^ 32 then []
      else ((J.fromSlice (text.take (text.length % 2 ^ 32))).toOption.map
        (dispatchBody none)).getD [] := by
  rw [onBinary, decodeBinaryFrame_encodeFrame, hp, Option.getD_some]
  by_cases hlt : defaultMaxBinaryPayload < text.length % 2 ^ 32
  · rw [if_pos hlt, if_pos hlt]
  · rw [if_neg hlt, if_neg hlt]
    exact dispatchFrame_data h

/-- The offset header of a live message is not JSON, and the client drops it. -/
theorem onBinary_live {v : Json} (hJ : J.ReadsBack v) (codec : EncodingFormat) (offset : Int64) :
    onBinary J (encodeFrame (sinkFrame ⟨codec, serializeFrameForFanout f offset⟩)) = [] := by
  obtain ⟨rest, hrest⟩ : ∃ rest, serializeFrameForFanout f offset = 79 :: rest := ⟨_, rfl⟩
  rw [hrest, onBinary_encodeFrame rfl rfl]
  split
  · rfl
  · cases (79 :: rest).length % 2 ^ 32 with
    | zero =>
      obtain ⟨e, he⟩ := hJ.empty
      simp [he, Except.toOption]
    | succ n =>
      obtain ⟨e, he⟩ := hJ.foreign (rest.take n)
      simp [he, Except.toOption]

/-- A replayed message is read, without its topic and without an offset. -/
theorem onBinary_replay (hJ : J.ReadsBack (eventBody event messageId schema payload opts))
    (t : String) :
    onBinary J (encodeFrame (replayFrame t
        (J.toVec (eventBody event messageId schema payload opts)))) =
      if (J.toVec (eventBody event messageId schema payload opts)).length ≤
          defaultMaxBinaryPayload then
        [.emit (.eventReceived "" ⟨event, messageId, schema, payload, opts.dedupeKey,
          opts.orderingKey, opts.ttlMs⟩)]
      else [] := by
  have hwhole := hJ.whole
  have hcut := hJ.cut
  rw [onBinary_encodeFrame rfl rfl]
  generalize J.toVec (eventBody event messageId schema payload opts) = text at hwhole hcut ⊢
  have hmax : defaultMaxBinaryPayload < 2 ^ 32 := by decide
  by_cases hle : text.length ≤ defaultMaxBinaryPayload
  · have hmod : text.length % 2 ^ 32 = text.length := Nat.mod_eq_of_lt (by omega)
    rw [hmod, if_neg (by omega), if_pos hle, List.take_length, hwhole]
    simp [Except.toOption, dispatchBody_eventBody]
  · rw [if_neg hle]
    split
    · rfl
    · obtain ⟨e, he⟩ := hcut (text.length % 2 ^ 32) (by omega)
      rw [he]
      rfl

section

variable {O L D S : Type} [OffsetStore O] [LogStore L] [DedupeStore D] [SnapshotStore S]

/-- Whatever event the broker accepts, no subscriber receives it as it was
published. Live, every sink is sent bytes that the client drops; replayed, the
event arrives under the empty topic, which is not its own, or not at all. -/
theorem accepted_event_is_not_received (J : SerdeJson) (b b' : InMemoryBroker O L D S MpscSink)
    (now : Int64) (f : Frame) (outcome : PublishOutcome) (offers : List (MpscSink × Bytes))
    (hpub : b.publish now f = (b', .ok outcome, offers)) (event messageId schema : String)
    (payload : Json) (opts : PublishOpts)
    (hbody : f.payload = some (J.toVec (eventBody event messageId schema payload opts)))
    (hJ : J.ReadsBack (eventBody event messageId schema payload opts)) :
    (∀ o ∈ offers, onBinary J (encodeFrame (sinkFrame ⟨o.1.codec, o.2⟩)) = []) ∧
    ∃ t, f.topic = some t ∧ t ≠ "" ∧
      onBinary J (encodeFrame (replayFrame t (f.payload.getD []))) =
        if (f.payload.getD []).length ≤ defaultMaxBinaryPayload then
          [.emit (.eventReceived "" ⟨event, messageId, schema, payload, opts.dedupeKey,
            opts.orderingKey, opts.ttlMs⟩)]
        else [] := by
  obtain ⟨⟨t, ht⟩, hoffers⟩ := InMemoryBroker.publish_ok hpub
  obtain ⟨htopic, hname⟩ := InMemoryBroker.topic_of_target ht
  refine ⟨fun o ho => ?_, t, htopic, ne_empty_of_validateName hname, ?_⟩
  · rw [hoffers o ho]
    exact onBinary_live hJ o.1.codec outcome.offset
  · rw [hbody, Option.getD_some]
    exact onBinary_replay hJ t

end

/-- An event in a room with one subscriber. -/
def said : Json := eventBody "said" "m1" "text" (.string "hi") {}

def saidReader : SerdeJson := .reading [said]

theorem saidReader_readsBack : saidReader.ReadsBack said :=
  SerdeJson.reading_readsBack (by decide +kernel)

def saidFrame : Frame := eventFrame saidReader 5 1 "room/1" "said" "m1" "text" (.string "hi") {}

def roomBroker : DefaultBroker MpscSink :=
  (emptyBroker.subscribe "room/1" .live ⟨1, 7, .json⟩).1

theorem event_for_one_subscriber_is_dropped :
    (roomBroker.publish 5 saidFrame).2.1 = .ok ⟨1, false⟩ ∧
      ∀ o ∈ (roomBroker.publish 5 saidFrame).2.2,
        onBinary saidReader (encodeFrame (sinkFrame ⟨o.1.codec, o.2⟩)) = [] := by
  have hok : (roomBroker.publish 5 saidFrame).2.1 = .ok ⟨1, false⟩ := by decide +kernel
  refine ⟨hok, ?_⟩
  generalize hr : roomBroker.publish 5 saidFrame = r at hok ⊢
  obtain ⟨b', res, offers⟩ := r
  obtain rfl : res = .ok ⟨1, false⟩ := hok
  exact (accepted_event_is_not_received saidReader roomBroker b' 5 saidFrame ⟨1, false⟩ offers hr
    "said" "m1" "text" (.string "hi") {} rfl saidReader_readsBack).1

/-- The one subscriber is sent the message, and its client emits nothing. In a
replay of the log the client emits the event without its topic. -/
theorem subscriber_misses_event :
    (roomBroker.publish 5 saidFrame).2 =
      (.ok ⟨1, false⟩, [(⟨1, 7, .json⟩, serializeFrameForFanout saidFrame 1)]) ∧
    onBinary saidReader (encodeFrame
      (sinkFrame ⟨.json, serializeFrameForFanout saidFrame 1⟩)) = [] ∧
    (roomBroker.publish 5 saidFrame).1.replay "room/1" 1 1 = [saidReader.toVec said] ∧
    onBinary saidReader (encodeFrame (replayFrame "room/1" (saidReader.toVec said))) =
      [.emit (.eventReceived "" ⟨"said", "m1", "text", .string "hi", none, none, none⟩)] := by
  refine ⟨by decide +kernel, onBinary_live saidReader_readsBack .json 1, by decide +kernel, ?_⟩
  exact (onBinary_replay saidReader_readsBack "room/1").trans (if_pos (by decide +kernel))

end Rifts
