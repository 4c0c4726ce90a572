import Rifts.Core.Frame
import Rifts.Data.KeyedLists

/-! The fanout engine: who is subscribed to what, and who is offered a message. -/
namespace Rifts

/-- What the engine knows of a sink. Its `deliver` belongs to the connection. -/
class FanoutSink (σ : Type) where
  id : σ → UInt64

/-- The sink a subscription of a connection is registered with. Its channel and its
byte counter are the connection's. -/
structure MpscSink where
  conn : Nat
  id : UInt64
  codec : EncodingFormat
  deriving DecidableEq, Repr

instance : FanoutSink MpscSink := ⟨MpscSink.id⟩

inductive SubscribeIntent
  | live | passive | ephemeral | latest | snapshotThenLive
  | replay (first : Int64)
  deriving DecidableEq, Repr

structure FanoutEngine (σ : Type) where
  byTopic : String → Option (List (UInt64 × σ))
  byId : UInt64 → Option (String × σ)
  bySink : UInt64 → Option (List UInt64)
  seq : UInt64

namespace FanoutEngine

variable {σ : Type} [FanoutSink σ]

def new : FanoutEngine σ := ⟨fun _ => none, fun _ => none, fun _ => none, 0⟩

/-- The intent is accepted and not used. -/
def subscribe (e : FanoutEngine σ) (topic : String) (_intent : SubscribeIntent) (sink : σ) :
    FanoutEngine σ × UInt64 :=
  let id := e.seq + 1
  let sinkId := FanoutSink.id sink
  (⟨KeyedLists.push e.byTopic topic (id, sink),
    Function.update e.byId id (some (topic, sink)),
    KeyedLists.push e.bySink sinkId id,
    e.seq + 1⟩, id)

/-- An entry of the two list indexes that is left empty is removed. -/
def unsubscribe (e : FanoutEngine σ) (id : UInt64) : FanoutEngine σ × Option String :=
  match e.byId id with
  | none => (e, none)
  | some (topic, sink) =>
    let sinkId := FanoutSink.id sink
    ({ e with
        byTopic := KeyedLists.retain e.byTopic topic fun entry => entry.1 != id
        byId := Function.update e.byId id none
        bySink := KeyedLists.retain e.bySink sinkId fun sid => sid != id },
      some topic)

def dropSink (e : FanoutEngine σ) (sinkId : UInt64) : FanoutEngine σ × List String :=
  (KeyedLists.listed e.bySink sinkId).foldl
    (fun (e, topics) id =>
      match e.unsubscribe id with
      | (e, some topic) => (e, topics ++ [topic])
      | (e, none) => (e, topics))
    (e, [])

omit [FanoutSink σ] in
/-- The subscriptions a message on the topic goes out to. -/
def subscribers (e : FanoutEngine σ) (topic : String) : List (UInt64 × σ) :=
  KeyedLists.listed e.byTopic topic

omit [FanoutSink σ] in
/-- The sinks that are offered a frame; one that refuses it does not stop the rest. -/
def deliver (e : FanoutEngine σ) (topic : String) (frame : Bytes) : List (σ × Bytes) :=
  (e.subscribers topic).map fun entry => (entry.2, frame)

variable {e : FanoutEngine σ} {topic t : String} {intent : SubscribeIntent} {sink : σ}
  {id : UInt64}

omit [FanoutSink σ] in
theorem snd_of_mem_deliver {frame : Bytes} {o : σ × Bytes} (h : o ∈ e.deliver topic frame) :
    o.2 = frame := by
  simp only [deliver, List.mem_map] at h
  obtain ⟨entry, -, rfl⟩ := h
  rfl

theorem subscribers_subscribe_self :
    (e.subscribe topic intent sink).1.subscribers topic =
      e.subscribers topic ++ [(e.seq + 1, sink)] := by
  simp [subscribe, subscribers]

theorem subscribers_subscribe_of_ne (h : t ≠ topic) :
    (e.subscribe topic intent sink).1.subscribers t = e.subscribers t := by
  simp [subscribe, subscribers, h]

theorem unsubscribe_unknown (h : e.byId id = none) : e.unsubscribe id = (e, none) := by
  simp [unsubscribe, h]

/-- An id that is known loses its subscription on the topic it is filed under. -/
theorem subscribers_unsubscribe_self (h : e.byId id = some (topic, sink)) :
    (e.unsubscribe id).1.subscribers topic =
      (e.subscribers topic).filter fun entry => entry.1 != id := by
  simp [unsubscribe, h, subscribers]

theorem subscribers_unsubscribe_of_ne (h : e.byId id = some (topic, sink)) (ht : t ≠ topic) :
    (e.unsubscribe id).1.subscribers t = e.subscribers t := by
  simp [unsubscribe, h, subscribers, ht]

end FanoutEngine

end Rifts
