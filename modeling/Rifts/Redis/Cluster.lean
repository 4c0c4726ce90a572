import Rifts.Broker.FanoutIndex
import Rifts.Broker.PublishSteps
import Rifts.Storage.RetentionBound

/-! Brokers that share one Redis server: `publish` cut at every command it sends, the
listeners of the instances, and what reaches their subscriptions. -/
namespace Rifts

/-- The server's string keys, each with the time it lives to. Their values are not read. -/
abbrev RedisKeys := String → Option ℤ

namespace RedisDedupe

def memberKey (pre topic messageId : String) : String :=
  pre ++ ":dedupe:" ++ topic ++ ":" ++ messageId

/-- `SET key 1 NX EX secs`: the keys after it, and whether the key was set. -/
def setNx (keys : RedisKeys) (now : ℤ) (key : String) (secs : Nat) : RedisKeys × Bool :=
  if (keys key).any fun deadline => now ≤ deadline then (keys, false)
  else (Function.update keys key (some (now + 1000 * secs)), true)

/-- The window is in milliseconds, and the server counts whole seconds. A command that fails is
taken for a key that was there. -/
def checkAndRecord (pre : String) (keys : RedisKeys) (now : ℤ) (topic key : String)
    (window : Nat) (fails : Bool) : RedisKeys × Bool :=
  if fails then (keys, false)
  else setNx keys now (memberKey pre topic key) (max (window / 1000) 1)

end RedisDedupe

namespace RedisOffset

/-- `HINCRBY` on a field of the hash. A counter that cannot go up is an error, as is a
command that does not get through. -/
def hincrby (value : Option Int64) (fails : Bool) : Option Int64 :=
  if fails || value.getD 0 == Int64.maxValue then none else some (value.getD 0 + 1)

/-- An error counts as offset 1. -/
def alloc (offsets : String → Option Int64) (topic : String) (fails : Bool) :
    (String → Option Int64) × Int64 :=
  match hincrby (offsets topic) fails with
  | some n => (Function.update offsets topic (some n), n)
  | none => (offsets, 1)

end RedisOffset

/-- What `serde_json` does with a frame. -/
structure FrameJson where
  toVec : Frame → Bytes
  fromSlice : Bytes → Option Frame

/-- What the instances are set up with. The key prefix is the same for all of them. -/
structure RedisDeployment (ι : Type) where
  pre : String
  maxPayloadBytes : ι → Nat
  json : FrameJson
  cbor : Codec LogEntry
  double : Int64 → ℤ

/-- A message that Redis has for a listener, with the number of the publish it is from. -/
structure Envelope where
  publish : Nat
  channel : String
  payload : Bytes
  deriving DecidableEq, Repr

/-- A copy of a publish that was handed to a subscription. -/
structure Receipt (ι : Type) where
  node : ι
  subscription : UInt64
  publish : Nat
  data : Bytes
  deriving DecidableEq, Repr

/-- A publish that went out to subscribers, under the next number. -/
structure Fanned (ι : Type) where
  origin : ι
  topic : String
  offset : Int64
  deriving DecidableEq, Repr

/-- The server's data, the local fan-out of each instance, and what has happened: the
answers of the dedupe store in order, the entries appended to logs, the publishes that
went out, the copies received, the messages each listener has taken, and how many
publishes had gone out when a subscription was made. -/
structure Cluster (ι σ : Type) where
  keys : RedisKeys
  offsets : String → Option Int64
  sets : RedisSets
  inbox : ι → List Envelope
  fanout : ι → FanoutEngine σ
  checks : List ((String × String) × Bool)
  appended : List (String × LogEntry)
  fanned : List (Fanned ι)
  received : List (Receipt ι)
  heard : ι → List Nat
  since : ι → UInt64 → Nat

/-- Where a call stands. A publish names the command it sends next; a listener takes one
message a turn; calls to the subscription registry are one step. -/
inductive RedisPhase (ι σ : Type)
  | validate (i : ι) (f : Frame)
  | dedupe (i : ι) (m : Message)
  | alloc (i : ι) (m : Message) (duplicate : Bool)
  | append (i : ι) (m : Message) (duplicate : Bool) (offset : Int64)
  | deliver (i : ι) (m : Message) (offset : Int64)
  | announce (n : Nat) (m : Message) (offset : Int64)
  | published (n : Option Nat) (m : Message) (outcome : PublishOutcome)
  | refused (f : Frame) (e : RiftError)
  | listening (i : ι)
  | registry (i : ι) (op : FanoutOp σ)
  | done

/-- What a step reads besides: the server's clock, whether its command to a store fails (`SET`,
`HINCRBY`, `ZADD`), and which of the waiting messages a listener is given. A `PUBLISH` reaches
every instance here; one that fails is a matter of the relay. -/
structure RedisInput where
  now : ℤ := 0
  fails : Bool := false
  pick : Nat := 0
  deriving DecidableEq, Repr

inductive RedisCall (ι σ : Type)
  | publish (i : ι) (f : Frame)
  | listen (i : ι)
  | registry (i : ι) (op : FanoutOp σ)

/-- `RedisActorBroker::validate_publish`. -/
def RedisBroker.validatePublish (maxPayloadBytes : Nat) (f : Frame) :
    Except RiftError (String × String) :=
  match f.topic with
  | none => .error (.frame (.requiredFieldMissing "topic"))
  | some topic =>
    match f.messageId with
    | none => .error (.frame (.requiredFieldMissing "message_id"))
    | some messageId =>
      if maxPayloadBytes < f.payloadLen then
        .error (.message (.tooLarge f.payloadLen maxPayloadBytes))
      else .ok (topic, messageId)

namespace FanoutBridge

/-- The topic of a channel. -/
def topicOf (pre channel : String) : String :=
  if (pre ++ ":fanout:").toList.isPrefixOf channel.toList then
    String.ofList (channel.toList.drop (pre ++ ":fanout:").length)
  else channel

/-- The frame of a message; one that does not decode becomes the payload of a new frame. -/
def frameOf (json : FrameJson) (topic : String) (payload : Bytes) : Frame :=
  match json.fromSlice payload with
  | some f => { f with topic := some topic }
  | none => { topic := some topic, payload := some payload }

theorem topicOf_topicKey (pre topic : String) :
    topicOf pre (RedisPool.topicKey pre "fanout" topic) = topic := by
  have hlist : (RedisPool.topicKey pre "fanout" topic).toList =
      (pre ++ ":fanout:").toList ++ topic.toList := by
    simp [RedisPool.topicKey]
  rw [topicOf, hlist, if_pos (by simp), ← String.length_toList, List.drop_left,
    String.ofList_toList]

end FanoutBridge

namespace Cluster

variable {ι σ : Type} [DecidableEq ι]

/-- Every subscription of an instance on the topic is handed a buffer. -/
def hand (s : Cluster ι σ) (j : ι) (topic : String) (n : Nat) (data : Bytes) : Cluster ι σ :=
  { s with received := s.received ++
      ((s.fanout j).subscribers topic).map fun entry => ⟨j, entry.1, n, data⟩ }

/-- A call to the registry of an instance. A subscription under a name that is not valid
is refused. -/
def register [FanoutSink σ] (s : Cluster ι σ) (i : ι) (op : FanoutOp σ) : Cluster ι σ :=
  match op with
  | .subscribe topic _ _ =>
    match validateName topic with
    | .error _ => s
    | .ok () =>
      { s with
        fanout := Function.update s.fanout i ((s.fanout i).exec op)
        since := Function.update s.since i
          (Function.update (s.since i) ((s.fanout i).seq + 1) s.fanned.length) }
  | .unsubscribe _ | .dropSink _ =>
    { s with fanout := Function.update s.fanout i ((s.fanout i).exec op) }

/-- A Redis server in some state, and instances that start on it. -/
def start (keys : RedisKeys) (offsets : String → Option Int64) (sets : RedisSets) :
    Cluster ι σ where
  keys := keys
  offsets := offsets
  sets := sets
  inbox := fun _ => []
  fanout := fun _ => .new
  checks := []
  appended := []
  fanned := []
  received := []
  heard := fun _ => []
  since := fun _ _ => 0

end Cluster

namespace RedisPhase

variable {ι σ : Type} [DecidableEq ι] [FanoutSink σ]

def start : RedisCall ι σ → RedisPhase ι σ
  | .publish i f => validate i f
  | .listen i => listening i
  | .registry i op => registry i op

/-- One command to the server, one delivery, or one call to a registry. -/
def next (d : RedisDeployment ι) (s : Cluster ι σ) (phase : RedisPhase ι σ) (input : RedisInput) :
    Option (Cluster ι σ × RedisPhase ι σ) :=
  match phase with
  | validate i f =>
    match RedisBroker.validatePublish (d.maxPayloadBytes i) f with
    | .error e => some (s, refused f e)
    | .ok (topic, messageId) =>
      match validateName topic with
      | .error e => some (s, refused f e)
      | .ok () => some (s, dedupe i ⟨f, topic, messageId⟩)
  | dedupe i m =>
    let (keys, fresh) :=
      RedisDedupe.checkAndRecord d.pre s.keys input.now m.topic m.messageId 60000 input.fails
    some ({ s with keys, checks := s.checks ++ [((m.topic, m.messageId), !fresh)] },
      alloc i m !fresh)
  | alloc i m duplicate =>
    let (offsets, offset) := RedisOffset.alloc s.offsets m.topic input.fails
    some ({ s with offsets }, append i m duplicate offset)
  | append i m duplicate offset =>
    let entry := InMemoryBroker.logEntry m.frame m.messageId offset
    -- nobody looks at the result of a `ZADD`
    some (if input.fails then s else { s with
        sets := RedisLog.append d.cbor d.double d.pre s.sets m.topic entry .durable
        appended := s.appended ++ [(m.topic, entry)] },
      if duplicate then published none m ⟨offset, true⟩ else deliver i m offset)
  | deliver i m offset =>
    let s' := s.hand i m.topic s.fanned.length (serializeFrameForFanout m.frame offset)
    some ({ s' with fanned := s.fanned ++ [⟨i, m.topic, offset⟩] },
      announce s.fanned.length m offset)
  | announce n m offset =>
    let envelope : Envelope :=
      ⟨n, RedisPool.topicKey d.pre "fanout" m.topic, d.json.toVec m.frame⟩
    some ({ s with inbox := fun j => s.inbox j ++ [envelope] },
      published (some n) m ⟨offset, false⟩)
  | listening j =>
    match (s.inbox j)[input.pick]? with
    | none => none
    | some envelope =>
      let topic := FanoutBridge.topicOf d.pre envelope.channel
      let frame := FanoutBridge.frameOf d.json topic envelope.payload
      -- the listener has no offset to give
      let s' := s.hand j topic envelope.publish (serializeFrameForFanout frame 0)
      some ({ s' with
          inbox := Function.update s.inbox j ((s.inbox j).eraseIdx input.pick)
          heard := Function.update s.heard j (s.heard j ++ [envelope.publish]) }, done)
  | registry i op => some (s.register i op, done)
  | published .. | refused .. | done => none

def program (d : RedisDeployment ι) :
    Transition.Program (Cluster ι σ) (RedisPhase ι σ) (RedisCall ι σ) RedisInput :=
  ⟨start, next d⟩

/-- `next`, one rule a step. -/
inductive Moves (d : RedisDeployment ι) :
    Cluster ι σ → RedisPhase ι σ → RedisInput → Cluster ι σ → RedisPhase ι σ → Prop
  | refuse {s input} (i f e) : Moves d s (validate i f) input s (refused f e)
  | validate {s input} (i f) (m : Message) (hname : validateName m.topic = .ok ()) :
      Moves d s (validate i f) input s (dedupe i m)
  | dedupe {s input keys fresh} (i) (m : Message) (h : RedisDedupe.checkAndRecord d.pre s.keys
        input.now m.topic m.messageId 60000 input.fails = (keys, fresh)) :
      Moves d s (dedupe i m) input
        { s with keys, checks := s.checks ++ [((m.topic, m.messageId), !fresh)] } (alloc i m !fresh)
  | alloc {s input offsets offset} (i) (m : Message) (duplicate)
      (h : RedisOffset.alloc s.offsets m.topic input.fails = (offsets, offset)) :
      Moves d s (alloc i m duplicate) input { s with offsets } (append i m duplicate offset)
  | unappended {s} {input : RedisInput} (i) (m : Message) (duplicate offset)
      (hfails : input.fails = true) :
      Moves d s (append i m duplicate offset) input s
        (if duplicate then published none m ⟨offset, true⟩ else deliver i m offset)
  | append {s} {input : RedisInput} (i) (m : Message) (duplicate offset)
      (hfails : input.fails = false) {sets}
      (hsets : sets = RedisLog.append d.cbor d.double d.pre s.sets m.topic
        (InMemoryBroker.logEntry m.frame m.messageId offset) .durable) :
      Moves d s (append i m duplicate offset) input
        { s with
          sets
          appended := s.appended ++
            [(m.topic, InMemoryBroker.logEntry m.frame m.messageId offset)] }
        (if duplicate then published none m ⟨offset, true⟩ else deliver i m offset)
  | deliver {s input} (i) (m : Message) (offset) :
      Moves d s (deliver i m offset) input
        { s.hand i m.topic s.fanned.length (serializeFrameForFanout m.frame offset) with
          fanned := s.fanned ++ [⟨i, m.topic, offset⟩] }
        (announce s.fanned.length m offset)
  | announce {s input} (n) (m : Message) (offset) {payload} :
      Moves d s (announce n m offset) input
        { s with inbox := fun j =>
            s.inbox j ++ [⟨n, RedisPool.topicKey d.pre "fanout" m.topic, payload⟩] }
        (published (some n) m ⟨offset, false⟩)
  | listen {s : Cluster ι σ} {input : RedisInput} (j) (envelope : Envelope)
      (h : (s.inbox j)[input.pick]? = some envelope) (frame : Frame) :
      Moves d s (listening j) input
        { s.hand j (FanoutBridge.topicOf d.pre envelope.channel) envelope.publish
            (serializeFrameForFanout frame 0) with
          inbox := Function.update s.inbox j ((s.inbox j).eraseIdx input.pick)
          heard := Function.update s.heard j (s.heard j ++ [envelope.publish]) } done
  | registry {s input} (i op) : Moves d s (registry i op) input (s.register i op) done

theorem moves_of_next {d : RedisDeployment ι} {s s' : Cluster ι σ} {u u' : RedisPhase ι σ}
    {input : RedisInput} (h : next d s u input = some (s', u')) : Moves d s u input s' u' := by
  cases u with
  | validate i f =>
    simp only [next] at h
    split at h
    · cases h
      exact .refuse i f _
    · split at h
      · cases h
        exact .refuse i f _
      · next hname =>
        cases h
        exact .validate i f _ hname
  | dedupe i m =>
    cases h
    exact .dedupe i m rfl
  | alloc i m duplicate =>
    cases h
    exact .alloc i m duplicate rfl
  | append i m duplicate offset =>
    cases hfails : input.fails with
    | true =>
      simp only [next, hfails] at h
      cases h
      exact .unappended i m duplicate offset hfails
    | false =>
      simp only [next, hfails] at h
      cases h
      exact .append i m duplicate offset hfails rfl
  | deliver i m offset =>
    cases h
    exact .deliver i m offset
  | announce n m offset =>
    cases h
    exact .announce n m offset
  | listening j =>
    simp only [next] at h
    split at h
    · cases h
    · next envelope henv =>
      cases h
      exact .listen j envelope henv _
  | registry i op =>
    cases h
    exact .registry i op
  | published | refused | done => cases h

end RedisPhase

namespace RedisCluster

open Transition

variable {ι σ : Type} [DecidableEq ι] [FanoutSink σ]

abbrev Calls (ι σ : Type) := Pool (Cluster ι σ) (RedisPhase ι σ)

abbrev Act (ι σ : Type) := Pool.Act (RedisCall ι σ) RedisInput

def step (d : RedisDeployment ι) (p : Calls ι σ) (a : Act ι σ) : Option (Calls ι σ) :=
  Pool.step (RedisPhase.program d) p a

/-- Two instances under the prefix "rift", which do not read each other's frames. -/
def twoNodes : RedisDeployment Bool where
  pre := "rift"
  maxPayloadBytes := fun _ => 65536
  json := ⟨fun _ => [], fun _ => none⟩
  cbor := SledLog.fieldCodec
  double := Int64.toInt

def plainFrame (topic messageId : String) : Frame :=
  { frameType := .data, topic := some topic, messageId := some messageId }

/-- A publish that is the next thread of a pool, from its call to its return. -/
def publishCall (i : Bool) (topic messageId : String) (thread : Nat) : List (Act Bool MpscSink) :=
  .spawn (.publish i (plainFrame topic messageId)) :: List.replicate 6 (.advance thread {})

/-- A subscription to "a" that is the next thread of a pool. -/
def subscribeCall (i : Bool) (thread : Nat) : List (Act Bool MpscSink) :=
  [.spawn (.registry i (.subscribe "a" .live ⟨0, 7, .json⟩)), .advance thread {}]

/-- A turn of a listener that is the next thread of a pool. -/
def listenCall (i : Bool) (thread : Nat) : List (Act Bool MpscSink) :=
  [.spawn (.listen i), .advance thread {}]

end RedisCluster

end Rifts
