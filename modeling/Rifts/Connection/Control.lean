import Mathlib.Data.Finset.Insert
import Rifts.Broker.MemoryBroker
import Rifts.Core.Json
import Rifts.Transition.Run

/-! The control frames of one connection, and what they do to the others. -/
namespace Rifts

/-- The text of a control body. A payload that is missing or is not UTF-8 counts as
an empty object. -/
def controlText (f : Frame) : Bytes :=
  match f.payload with
  | some p => if ByteArray.validateUTF8 ⟨p.toArray⟩ then p else [123, 125]
  | none => [123, 125]

inductive ControlRequest
  | ping
  | subscribe (topic : String) (intent : SubscribeIntent)
  | unsubscribe (id : UInt64)
  | unknown
  deriving DecidableEq

def parseIntent (v : Json) : Except RiftError SubscribeIntent :=
  match ((v.get "intent").bind Json.asStr).getD "live" with
  | "live" => .ok .live
  | "passive" => .ok .passive
  | "ephemeral" => .ok .ephemeral
  | "latest" => .ok .latest
  | "snapshot_then_live" => .ok .snapshotThenLive
  | "replay" => .ok (.replay (((v.get "from_offset").bind Json.asI64).getD 0))
  | other => .error (.frame (.frameInvalid ("unknown subscribe intent: " ++ other)))

/-- The part of `handle_control` that only looks at the frame. -/
def parseControl (J : SerdeJson) (f : Frame) : Except RiftError ControlRequest :=
  match J.fromSlice (controlText f) with
  | .error e => .error (.frame (.frameInvalid ("invalid control body: " ++ e)))
  | .ok v =>
    match ((v.get "type").bind Json.asStr).getD "" with
    | "ping" => .ok .ping
    | "subscribe" =>
      match (v.get "topic").bind Json.asStr with
      | none => .error (.frame (.requiredFieldMissing "topic"))
      | some topic => (parseIntent v).map (.subscribe topic)
    | "unsubscribe" =>
      match (v.get "subscription_id").bind Json.asU64 with
      | none => .error (.frame (.requiredFieldMissing "subscription_id"))
      | some id => .ok (.unsubscribe id)
    | _ => .ok .unknown

/-- A received control frame, the sink id drawn for it, and whether the outbound
channel has room for the reply. -/
structure ControlInput where
  frame : Frame
  sinkId : UInt64
  room : Bool

/-- The broker as one connection uses it, and the sinks that connection registered. -/
structure ControlState (O L D S : Type) where
  broker : InMemoryBroker O L D S MpscSink
  subscriptionSinks : Finset UInt64

def controlReply (codec : EncodingFormat) (f : Frame) (body : Option Bytes) : Frame :=
  { frameType := .control, codec := codec, correlationId := f.correlationId, payload := body }

def trySendReply (room : Bool) (reply : Frame) : List Frame × Except RiftError Unit :=
  if room then ([reply], .ok ()) else ([], .error (.system .overloaded))

variable {O L D S : Type}

def subscribeAckBody (topic : String) (id : UInt64) : Json :=
  .object [("type", .string "subscribe_ack"), ("topic", .string topic),
    ("subscription_id", .number (.posInt id)), ("result", .string "accepted")]

def unsubscribeAckBody (id : UInt64) (removed : Bool) : Json :=
  .object [("type", .string "unsubscribe_ack"), ("subscription_id", .number (.posInt id)),
    ("result", .string (if removed then "removed" else "not_found"))]

/-- The state after a control frame, the replies put on the channel, and the result. -/
def handleControl (J : SerdeJson) (conn : Nat) (codec : EncodingFormat)
    (s : ControlState O L D S) (input : ControlInput) :
    ControlState O L D S × List Frame × Except RiftError Unit :=
  match parseControl J input.frame with
  | .error e => (s, [], .error e)
  | .ok .ping => (s, trySendReply input.room (controlReply codec input.frame none))
  | .ok (.subscribe topic intent) =>
    match s.broker.subscribe topic intent ⟨conn, input.sinkId, codec⟩ with
    | (broker, .error e) => ({ s with broker }, [], .error e)
    | (broker, .ok id) =>
      (⟨broker, insert input.sinkId s.subscriptionSinks⟩,
        trySendReply input.room
          (controlReply codec input.frame (some (J.toVec (subscribeAckBody topic id)))))
  | .ok (.unsubscribe id) =>
    match s.broker.unsubscribe id with
    | (broker, removed) =>
      ({ s with broker },
        trySendReply input.room
          (controlReply codec input.frame (some (J.toVec (unsubscribeAckBody id removed)))))
  | .ok .unknown => (s, [], .ok ())

namespace InMemoryBroker

/-- The subscriptions of a connection on a topic. -/
def live (b : InMemoryBroker O L D S MpscSink) (conn : Nat) (t : String) :
    List (UInt64 × MpscSink) :=
  (b.fanout.subscribers t).filter fun entry => entry.2.conn == conn

/-- The frame is an unsubscribe for the id of a subscription of the connection. -/
def evicts (J : SerdeJson) (b : InMemoryBroker O L D S MpscSink) (conn : Nat) (f : Frame) :
    Bool :=
  match parseControl J f with
  | .ok (.unsubscribe id) =>
    match b.fanout.byId id with
    | some (topic, _) => (b.live conn topic).any fun entry => entry.1 == id
    | none => false
  | _ => false

variable {b b' : InMemoryBroker O L D S MpscSink} {J : SerdeJson} {conn : Nat} {t topic : String}
  {id : UInt64} {sink : MpscSink} {intent : SubscribeIntent}

/-- The frames a delivery offers to a connection go to its live subscriptions. -/
theorem deliver_conn {data : Bytes} :
    (b.fanout.deliver t data).filter (fun o => o.1.conn == conn) =
      (b.live conn t).map fun entry => (entry.2, data) := by
  rw [live, FanoutEngine.deliver, List.filter_map]
  rfl

/-- Another connection's subscribe adds nothing to a connection and removes nothing. -/
theorem live_subscribe (h : sink.conn ≠ conn) :
    (b.subscribe topic intent sink).1.live conn t = b.live conn t := by
  unfold live
  obtain hf | hf :=
    (fanout_subscribe : (b.subscribe topic intent sink).1.fanout = b.fanout ∨ _) <;> rw [hf]
  by_cases ht : t = topic
  · subst ht
    rw [FanoutEngine.subscribers_subscribe_self, List.filter_append]
    simp [h]
  · rw [FanoutEngine.subscribers_subscribe_of_ne ht]

/-- A subscription that is entered is live on its connection. -/
theorem live_enter (b : InMemoryBroker O L D S MpscSink) (store : TopicStore) (topic : String)
    (intent : SubscribeIntent) (sink : MpscSink) (c : Nat) (t : String) :
    { b with store, fanout := (b.fanout.subscribe topic intent sink).1
      : InMemoryBroker O L D S MpscSink }.live c t =
      b.live c t ++ if c = sink.conn ∧ t = topic then [(b.fanout.seq + 1, sink)] else [] := by
  unfold live
  by_cases ht : t = topic
  · subst ht
    rw [FanoutEngine.subscribers_subscribe_self, List.filter_append]
    by_cases hc : sink.conn = c
    · simp [hc]
    · simp [hc, Ne.symm hc]
  · rw [FanoutEngine.subscribers_subscribe_of_ne ht]
    simp [ht]

theorem live_unsubscribe_self (h : b.fanout.byId id = some (topic, sink)) :
    (b.unsubscribe id).1.live conn topic =
      (b.live conn topic).filter fun entry => entry.1 != id := by
  rw [live, fanout_unsubscribe, FanoutEngine.subscribers_unsubscribe_self h, live,
    List.filter_filter, List.filter_filter]
  simp only [Bool.and_comm]

/-- An unsubscribe leaves a connection alone exactly when it does not name the id
of one of its subscriptions. -/
theorem live_unsubscribe :
    (∀ t, (b.unsubscribe id).1.live conn t = b.live conn t) ↔
      ∀ topic sink, b.fanout.byId id = some (topic, sink) →
        (b.live conn topic).any (fun entry => entry.1 == id) = false := by
  cases h : b.fanout.byId id with
  | none =>
    refine iff_of_true (fun t => ?_) (by simp)
    rw [live, fanout_unsubscribe, FanoutEngine.unsubscribe_unknown h, live]
  | some entry =>
    obtain ⟨topic, sink⟩ := entry
    constructor
    · rintro hall topic' sink' hsome
      cases hsome
      have hkept := (live_unsubscribe_self h).symm.trans (hall topic)
      simpa [List.filter_eq_self] using hkept
    · intro hany t
      by_cases ht : t = topic
      · subst ht
        rw [live_unsubscribe_self h, List.filter_eq_self]
        simpa using hany t sink rfl
      · rw [live, fanout_unsubscribe, FanoutEngine.subscribers_unsubscribe_of_ne h ht, live]

end InMemoryBroker

namespace Control

variable {J : SerdeJson} {conn other : Nat} {codec : EncodingFormat}
  {s s' : ControlState O L D S} {input : ControlInput}

/-- Every reply goes out as a control frame. -/
theorem reply_is_control {r : Frame} (h : r ∈ (handleControl J conn codec s input).2.1) :
    r.frameType = .control := by
  have hsend {room : Bool} {reply : Frame} (hr : r ∈ (trySendReply room reply).1) : r = reply := by
    unfold trySendReply at hr
    split at hr <;> simp_all
  unfold handleControl at h
  split at h
  · cases h
  · rw [hsend h]
    rfl
  · split at h
    · cases h
    · rw [hsend h]
      rfl
  · rw [hsend h]
    rfl
  · cases h

/-- A control frame of one connection leaves another connection's subscriptions as
they are exactly when it does not evict one of them. -/
theorem live_handleControl (hne : conn ≠ other) :
    (∀ t, (handleControl J conn codec s input).1.broker.live other t = s.broker.live other t) ↔
      s.broker.evicts J other input.frame = false := by
  unfold handleControl InMemoryBroker.evicts
  cases parseControl J input.frame with
  | error e => exact iff_of_true (fun _ => rfl) rfl
  | ok request =>
    cases request with
    | ping => exact iff_of_true (fun _ => rfl) rfl
    | unknown => exact iff_of_true (fun _ => rfl) rfl
    | subscribe topic intent =>
      refine iff_of_true (fun t => ?_) rfl
      have hlive : (s.broker.subscribe topic intent ⟨conn, input.sinkId, codec⟩).1.live other t =
          s.broker.live other t := InMemoryBroker.live_subscribe hne
      dsimp only
      split
      all_goals
        next hsub =>
        rwa [hsub] at hlive
    | unsubscribe id =>
      refine InMemoryBroker.live_unsubscribe.trans ?_
      dsimp only
      cases s.broker.fanout.byId id with
      | none => simp
      | some entry =>
        obtain ⟨topic, sink⟩ := entry
        constructor
        · intro h
          exact h topic sink rfl
        · rintro h topic' sink' hsome
          cases hsome
          exact h

def step (J : SerdeJson) (conn : Nat) (codec : EncodingFormat) (s : ControlState O L D S)
    (input : ControlInput) : Option (ControlState O L D S) :=
  some (handleControl J conn codec s input).1

/-- The other connection has the subscriptions it had in the first state. -/
def Untouched (other : Nat) (s₀ s : ControlState O L D S) : Prop :=
  ∀ t, s.broker.live other t = s₀.broker.live other t

theorem untouched_step {s₀ : ControlState O L D S} (hne : conn ≠ other)
    (h : step J conn codec s input = some s') (hs : Untouched other s₀ s) :
    Untouched other s₀ s' ↔ s.broker.evicts J other input.frame = false := by
  cases h
  rw [← live_handleControl hne]
  exact forall_congr' fun t => by rw [hs t]

theorem untouched_run {s₀ : ControlState O L D S} {inputs : List ControlInput} (hne : conn ≠ other)
    (hg : Transition.Guarded (step J conn codec)
      (fun s input => s.broker.evicts J other input.frame = false) s inputs)
    (hr : Transition.run (step J conn codec) s inputs = some s') (hs : Untouched other s₀ s) :
    Untouched other s₀ s' :=
  Transition.run_invariant_of_guarded (fun _ _ _ h hok hi => (untouched_step hne h hi).mpr hok)
    hg hr hs

/-- Whatever control frames arrive on a connection, in whatever state of the broker,
another connection keeps its subscriptions throughout exactly when no frame is an
unsubscribe for one of them; and then it is offered the same frames as before. -/
theorem connection_isolation (J : SerdeJson) (conn other : Nat) (hne : conn ≠ other)
    (codec : EncodingFormat) (s : ControlState O L D S) (inputs : List ControlInput) :
    (Transition.Throughout (step J conn codec) (Untouched other s) s inputs ↔
      Transition.Guarded (step J conn codec)
        (fun s input => s.broker.evicts J other input.frame = false) s inputs) ∧
    ∀ s', Transition.run (step J conn codec) s inputs = some s' →
      Transition.Guarded (step J conn codec)
        (fun s input => s.broker.evicts J other input.frame = false) s inputs →
      ∀ t data, (s'.broker.fanout.deliver t data).filter (fun o => o.1.conn == other) =
        (s.broker.fanout.deliver t data).filter (fun o => o.1.conn == other) := by
  refine ⟨Transition.throughout_iff_guarded (fun _ _ _ h hs => untouched_step hne h hs)
    fun _ => rfl, ?_⟩
  intro s' hr hg t data
  have hlive : Untouched other s s' := untouched_run hne hg hr fun _ => rfl
  rw [InMemoryBroker.deliver_conn, hlive t, ← InMemoryBroker.deliver_conn]

/-- An unsubscribe for the first subscription the broker handed out. -/
def subscribeRoom : Json := .object [("type", .string "subscribe"), ("topic", .string "room/1")]

def unsubscribeFirst : Json :=
  .object [("type", .string "unsubscribe"), ("subscription_id", .number (.posInt 1))]

def pingBody : Json := .object [("type", .string "ping")]

def controlReader : SerdeJson := .reading [unsubscribeFirst, pingBody]

def controlInput (body : Json) : ControlInput :=
  ⟨{ frameType := .control, payload := some (controlReader.toVec body) }, 11, true⟩

/-- Connection 2 is subscribed to "room/1", as subscription 1. -/
def roomOfTwo : ControlState MemoryOffsetStore MemoryLogStore MemoryDedupeStore
    MemorySnapshotStore :=
  ⟨(emptyBroker.subscribe "room/1" .live ⟨2, 9, .json⟩).1, ∅⟩

theorem ping_leaves_subscriber_alone :
    ∃ s, Transition.run (step controlReader 1 .json) roomOfTwo [controlInput pingBody] = some s ∧
      (s.broker.fanout.deliver "room/1" [0]).filter (fun o => o.1.conn == 2) =
        (roomOfTwo.broker.fanout.deliver "room/1" [0]).filter (fun o => o.1.conn == 2) := by
  refine ⟨_, rfl, ?_⟩
  exact (connection_isolation controlReader 1 2 (by decide) .json roomOfTwo
    [controlInput pingBody]).2 _ rfl (by decide +kernel) "room/1" [0]

/-- Connection 1 names subscription 1 and connection 2 no longer gets messages. -/
theorem unsubscribe_evicts_other_connection :
    roomOfTwo.broker.fanout.deliver "room/1" [0] = [(⟨2, 9, .json⟩, [0])] ∧
    (handleControl controlReader 1 .json roomOfTwo (controlInput unsubscribeFirst)).2.2 = .ok () ∧
    (handleControl controlReader 1 .json roomOfTwo
      (controlInput unsubscribeFirst)).1.broker.fanout.deliver "room/1" [0] = [] := by
  refine ⟨by decide, by decide +kernel, by decide +kernel⟩

end Control

end Rifts
