import Rifts.Broker.MemoryBroker

/-! A topic by itself: what a broker with no other topic, and a dedupe store that is
never swept, answers to the calls that concern the topic. -/
namespace Rifts.Isolation

/-- A call on a broker. A subscription goes by its topic and by how many were made on
the topic before it, not by its id. -/
inductive Call (σ : Type)
  | publish (now : Int64) (frame : Frame)
  | subscribe (topic : String) (intent : SubscribeIntent) (sink : σ)
  | unsubscribe (topic : String) (nth : Nat)
  | dropSink (sinkId : UInt64)
  | replay (topic : String) (first last : Int64)
  | headOffset (topic : String)
  | maintain (now : Int64)

/-- What a caller and the subscriptions of a topic get to see of a call. Every frame
comes with the subscription it is delivered on. -/
inductive Outcome (σ : Type)
  | published (result : Except RiftError PublishOutcome) (frames : List (Nat × σ × Bytes))
  | subscribed (result : Except RiftError Nat)
  | unsubscribed (removed : Bool)
  | dropped
  | replayed (payloads : List Bytes)
  | head (offset : Int64)
  | maintained
  deriving DecidableEq

namespace Call

variable {σ : Type}

/-- The clock reading of a call that takes one. -/
def time : Call σ → Option Int64
  | publish now _ | maintain now => some now
  | _ => none

def isSubscribe : Call σ → Bool
  | subscribe .. => true
  | _ => false

/-- The call is on the topic, or drops a sink that may be on it. -/
def concerns (t : String) : Call σ → Bool
  | publish _ f => f.topic = some t
  | subscribe topic .. | unsubscribe topic _ | replay topic .. | headOffset topic => topic = t
  | dropSink _ => true
  | maintain _ => false

end Call

/-- The state of one topic. The live subscriptions stand in the order they were made. -/
structure Topic (σ : Type) where
  name : String
  profile : TopicProfile
  dedupeWindow : Nat
  maxPayloadBytes : Nat
  publishers : Nat
  next : Int64
  log : List LogEntry
  records : String → Option Int64
  subs : List (Nat × σ)
  made : Nat

namespace Topic

variable {σ : Type}

def new (name : String) (profile : TopicProfile) (dedupeWindow maxPayloadBytes : Nat) :
    Topic σ :=
  ⟨name, profile, dedupeWindow, maxPayloadBytes, 0, 1, [], fun _ => none, [], 0⟩

/-- The checks on a frame that names the topic; they give its message id. -/
def checkFrame (s : Topic σ) (now : Int64) (f : Frame) : Except RiftError String :=
  match f.messageId with
  | none => .error (.frame (.requiredFieldMissing "message_id"))
  | some messageId =>
    if s.maxPayloadBytes < f.payloadLen then
      .error (.message (.tooLarge f.payloadLen s.maxPayloadBytes))
    else if f.expired now then .error (.message .expired)
    else .ok messageId

/-- A message that took a publisher slot: it is numbered and logged, and delivered
unless its id is on record. -/
def accept (s : Topic σ) (now : Int64) (f : Frame) (messageId : String) :
    Topic σ × Outcome σ :=
  let fresh := (s.records messageId).all (· ≤ now)
  let entry := InMemoryBroker.logEntry f messageId s.next
  ({ s with
      publishers := s.publishers + 1
      next := s.next + 1
      log := retain now entry (s.log ++ [entry]) s.profile.retention
      records :=
        if fresh then
          Function.update s.records messageId (some (now + Int64.ofNat s.dedupeWindow))
        else s.records },
    .published (.ok ⟨s.next, !fresh⟩)
      (if fresh then s.subs.map fun x => (x.1, x.2, serializeFrameForFanout f s.next) else []))

def publish (s : Topic σ) (now : Int64) (f : Frame) : Topic σ × Outcome σ :=
  match s.checkFrame now f with
  | .error e => (s, .published (.error e) [])
  | .ok messageId =>
    match validateName s.name with
    | .error e => (s, .published (.error e) [])
    | .ok () =>
      if s.profile.maxPublishers.toNat ≤ s.publishers then
        (s, .published (.error (.topic (.publisherLimit s.name))) [])
      else s.accept now f messageId

def subscribe (s : Topic σ) (sink : σ) : Topic σ × Outcome σ :=
  match validateName s.name with
  | .error e => (s, .subscribed (.error e))
  | .ok () =>
    if s.profile.maxSubscribers.toNat ≤ s.subs.length then
      (s, .subscribed (.error (.topic (.subscriberLimit s.name))))
    else ({ s with subs := s.subs ++ [(s.made, sink)], made := s.made + 1 },
      .subscribed (.ok s.made))

/-- The answer of the topic to a call that concerns it. -/
def serve [FanoutSink σ] (s : Topic σ) : Call σ → Topic σ × Outcome σ
  | .publish now f => s.publish now f
  | .subscribe _ _ sink => s.subscribe sink
  | .unsubscribe _ nth =>
    ({ s with subs := s.subs.filter fun x => x.1 ≠ nth },
      .unsubscribed (s.subs.any fun x => x.1 = nth))
  | .dropSink k => ({ s with subs := s.subs.filter fun x => FanoutSink.id x.2 ≠ k }, .dropped)
  | .replay _ first last =>
    (s, .replayed ((s.log.filter fun e => first ≤ e.offset && e.offset ≤ last).map (·.payload)))
  | .headOffset _ => (s, .head (s.next - 1))
  | .maintain _ => (s, .maintained)

end Topic

end Rifts.Isolation
