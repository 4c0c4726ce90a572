import Rifts.Broker.MemoryBroker
import Rifts.Sync.Counter
import Rifts.Transition.Pool

/-! The broker's `publish`, cut at every access to what calls share. -/
namespace Rifts

/-- A frame that has passed the checks on it, with its topic and its message id. -/
structure Message where
  frame : Frame
  topic : String
  messageId : String

/-- Where a call stands; each phase names the access it makes next. -/
inductive PublishPhase (σ : Type)
  | validate (f : Frame)
  | route (m : Message)
  | load (m : Message)
  | attempt (m : Message) (seen : UInt64)
  | dedupe (m : Message)
  | alloc (m : Message) (fresh : Bool)
  | append (m : Message) (fresh : Bool) (offset : Int64)
  | capture (m : Message) (fresh : Bool) (offset : Int64) (profile : TopicProfile)
  | collect (m : Message) (offset : Int64)
  | offer (m : Message) (offset : Int64) (sinks : List (UInt64 × σ))
  | published (m : Message) (outcome : PublishOutcome)
  | refused (f : Frame) (e : RiftError)

/-- The broker, and the frames offered to sinks so far, each with its subscription. -/
structure PublishState (O L D S σ : Type) where
  broker : InMemoryBroker O L D S σ
  offers : List (UInt64 × σ × Bytes) := []

/-- What an access reads besides: the clock, and whether a compare-exchange fails
for no reason. -/
structure PublishInput where
  now : Int64
  spurious : Bool := false
  deriving DecidableEq, Repr

namespace PublishPhase

variable {O L D S σ : Type} [OffsetStore O] [LogStore L] [DedupeStore D] [SnapshotStore S]

/-- One access. The list of a topic's sinks is copied first; each sink is then
offered the frame on its own. -/
def next (s : PublishState O L D S σ) (phase : PublishPhase σ) (input : PublishInput) :
    Option (PublishState O L D S σ × PublishPhase σ) :=
  let b := s.broker
  match phase with
  | validate f =>
    match b.validatePublish input.now f with
    | .error e => some (s, refused f e)
    | .ok (topic, messageId) =>
      match validateName topic with
      | .error e => some (s, refused f e)
      | .ok () => some (s, route ⟨f, topic, messageId⟩)
  | route m =>
    match b.store.getOrCreate m.topic b.defaultProfile with
    | .error _ => some (s, refused m.frame (.topic (.notFound m.topic)))
    | .ok (store, _) => some ({ s with broker := { b with store } }, load m)
  | load m => (b.store.get m.topic).map fun entry => (s, attempt m entry.publisherCount)
  | attempt m seen =>
    match b.store.get m.topic with
    | none => none
    | some entry =>
      match BoundedCounter.attempt entry.profile.maxPublishers entry.publisherCount seen
          input.spurious with
      | .full => some (s, refused m.frame (.topic (.publisherLimit m.topic)))
      | .taken n =>
        let store := b.store.put m.topic { entry with publisherCount := n }
        some ({ s with broker := { b with store } }, dedupe m)
      | .retry seen => some (s, attempt m seen)
  | dedupe m =>
    let (recorded, fresh) :=
      DedupeStore.checkAndRecord b.dedupe input.now m.topic m.messageId b.dedupeWindow
    some ({ s with broker := { b with dedupe := recorded } }, alloc m fresh)
  | alloc m fresh =>
    let (offsets, offset) := OffsetStore.alloc b.offsets m.topic
    some ({ s with broker := { b with offsets } }, append m fresh offset)
  | append m fresh offset =>
    (b.store.get m.topic).map fun entry =>
      let log := LogStore.append b.log input.now m.topic
        (InMemoryBroker.logEntry m.frame m.messageId offset) entry.profile.retention
      ({ s with broker := { b with log } }, capture m fresh offset entry.profile)
  | capture m fresh offset profile =>
    let snapshots :=
      if profile.snapshotEnabled then
        (SnapshotStore.capture b.snapshots input.now m.topic b.store profile.snapshotTtl).1
      else b.snapshots
    some ({ s with broker := { b with snapshots } },
      if fresh then collect m offset else published m ⟨offset, true⟩)
  | collect m offset => some (s, offer m offset (b.fanout.subscribers m.topic))
  | offer m offset [] => some (s, published m ⟨offset, false⟩)
  | offer m offset ((id, sink) :: sinks) =>
    some ({ s with offers := s.offers ++ [(id, sink, serializeFrameForFanout m.frame offset)] },
      offer m offset sinks)
  | published .. => none
  | refused .. => none

def program :
    Transition.Program (PublishState O L D S σ) (PublishPhase σ) Frame PublishInput :=
  ⟨validate, next⟩

/-- The publisher slot is taken: from here on the call cannot fail. -/
def committed : PublishPhase σ → Bool
  | dedupe _ | alloc .. | append .. | capture .. | collect .. | offer .. | published .. => true
  | _ => false

def returned : PublishPhase σ → Bool
  | published .. | refused .. => true
  | _ => false

/-- The topic the call is about. -/
def topic : PublishPhase σ → Option String
  | validate f | refused f _ => f.topic
  | route m | load m | attempt m _ | dedupe m | alloc m _ | append m .. | capture m ..
  | collect m _ | offer m .. | published m _ => some m.topic

/-- The offset the call has been given. -/
def offset : PublishPhase σ → Option Int64
  | append _ _ offset | capture _ _ offset _ | collect _ offset | offer _ offset _ => some offset
  | published _ outcome => some outcome.offset
  | _ => none

/-- `next`, one rule an access. -/
inductive Access : PublishState O L D S σ → PublishPhase σ → PublishState O L D S σ →
    PublishPhase σ → Prop
  | refuse {s u} (f e) (hu : u.committed = false) : Access s u s (refused f e)
  | validate {s f} (m : Message) : Access s (validate f) s (route m)
  | route {s} (m : Message) {store entry}
      (h : s.broker.store.getOrCreate m.topic s.broker.defaultProfile = .ok (store, entry)) :
      Access s (route m) { s with broker := { s.broker with store } } (load m)
  | load {s} (m : Message) {entry} (h : s.broker.store.get m.topic = some entry) :
      Access s (load m) s (attempt m entry.publisherCount)
  | retry {s} (m : Message) (seen seen') : Access s (attempt m seen) s (attempt m seen')
  | take {s} (m : Message) {seen entry n} (h : s.broker.store.get m.topic = some entry)
      (hn : n.toNat = entry.publisherCount.toNat + 1) :
      Access s (attempt m seen)
        { s with broker := { s.broker with
            store := s.broker.store.put m.topic { entry with publisherCount := n } } } (dedupe m)
  | dedupe {s} (m : Message) {d fresh} : Access s (dedupe m)
      { s with broker := { s.broker with dedupe := d } } (alloc m fresh)
  | alloc {s} (m : Message) {fresh offsets offset}
      (h : OffsetStore.alloc s.broker.offsets m.topic = (offsets, offset)) :
      Access s (alloc m fresh) { s with broker := { s.broker with offsets } }
        (append m fresh offset)
  | append {s} (m : Message) {fresh offset entry} (now : Int64)
      (h : s.broker.store.get m.topic = some entry) :
      Access s (append m fresh offset)
        { s with broker := { s.broker with
            log := LogStore.append s.broker.log now m.topic
              (InMemoryBroker.logEntry m.frame m.messageId offset) entry.profile.retention } }
        (capture m fresh offset entry.profile)
  | capture {s} (m : Message) {offset profile snapshots} : Access s (capture m true offset profile)
      { s with broker := { s.broker with snapshots } } (collect m offset)
  | skip {s} (m : Message) {offset profile snapshots} : Access s (capture m false offset profile)
      { s with broker := { s.broker with snapshots } } (published m ⟨offset, true⟩)
  | collect {s} (m : Message) {offset} : Access s (collect m offset) s
      (offer m offset (s.broker.fanout.subscribers m.topic))
  | offer {s} (m : Message) (offset id sink sinks) : Access s (offer m offset ((id, sink) :: sinks))
      { s with offers := s.offers ++ [(id, sink, serializeFrameForFanout m.frame offset)] }
      (offer m offset sinks)
  | finish {s} (m : Message) {offset} : Access s (offer m offset []) s (published m ⟨offset, false⟩)

variable {s s' : PublishState O L D S σ} {u u' : PublishPhase σ} {input : PublishInput}

theorem access_of_next (h : next s u input = some (s', u')) : Access s u s' u' := by
  cases u with
  | validate f =>
    simp only [next] at h
    split at h
    · cases h
      exact .refuse f _ rfl
    · split at h
      · cases h
        exact .refuse f _ rfl
      · cases h
        exact .validate _
  | route m =>
    simp only [next] at h
    split at h
    · cases h
      exact .refuse m.frame _ rfl
    · next hg =>
      cases h
      exact .route m hg
  | load m =>
    simp only [next, Option.map_eq_some_iff] at h
    obtain ⟨entry, hg, h⟩ := h
    cases h
    exact .load m hg
  | attempt m seen =>
    simp only [next] at h
    split at h
    · cases h
    · next entry hg =>
      split at h
      · cases h
        exact .refuse m.frame _ rfl
      · next n hn =>
        cases h
        exact .take m hg (BoundedCounter.attempt_taken hn).1
      · cases h
        exact .retry m ..
  | dedupe m =>
    cases h
    exact .dedupe m
  | alloc m fresh =>
    cases h
    exact .alloc m rfl
  | append m fresh offset =>
    simp only [next, Option.map_eq_some_iff] at h
    obtain ⟨entry, hg, h⟩ := h
    cases h
    exact .append m input.now hg
  | capture m fresh offset profile =>
    cases fresh with
    | true =>
      cases h
      exact .capture m
    | false =>
      cases h
      exact .skip m
  | collect m offset =>
    cases h
    exact .collect m
  | offer m offset sinks =>
    cases sinks with
    | nil =>
      cases h
      exact .finish m
    | cons entry sinks =>
      cases h
      exact .offer m ..
  | published => cases h
  | refused => cases h

section Solo

open Transition Pool

theorem solo_offer (s : PublishState O L D S σ) (m : Message) (o : Int64)
    (sinks : List (UInt64 × σ)) (now : Int64) :
    ∃ inputs, run (solo program) (s, offer m o sinks) inputs =
      some ({ s with
          offers := s.offers ++ sinks.map fun e => (e.1, e.2, serializeFrameForFanout m.frame o) },
        published m ⟨o, false⟩) := by
  induction sinks generalizing s with
  | nil => exact ⟨[⟨now, false⟩], by simp [run, solo, program, next]⟩
  | cons entry sinks ih =>
    obtain ⟨inputs, hrun⟩ :=
      ih { s with offers := s.offers ++ [(entry.1, entry.2, serializeFrameForFanout m.frame o)] }
    refine ⟨⟨now, false⟩ :: inputs, run_cons_iff.mpr ⟨_, rfl, ?_⟩⟩
    rw [hrun]
    simp

/-- From the slot on, a call does what `record` does. -/
theorem solo_record (s : PublishState O L D S σ) (m : Message) (now : Int64) {entry : TopicEntry}
    (hg : s.broker.store.get m.topic = some entry) :
    ∃ inputs offers, run (solo program) (s, dedupe m) inputs =
        some (⟨(s.broker.record now m.frame m.topic m.messageId entry.profile).1,
          s.offers ++ offers⟩,
          published m (s.broker.record now m.frame m.topic m.messageId entry.profile).2.1) ∧
      offers.map Prod.snd =
        (s.broker.record now m.frame m.topic m.messageId entry.profile).2.2 := by
  rcases hd : DedupeStore.checkAndRecord s.broker.dedupe now m.topic m.messageId
    s.broker.dedupeWindow with ⟨d, fresh⟩
  rcases ha : OffsetStore.alloc s.broker.offsets m.topic with ⟨offsets, o⟩
  cases fresh with
  | false =>
    refine ⟨List.replicate 4 ⟨now, false⟩, [], ?_, ?_⟩
    · simp [run, solo, program, next, InMemoryBroker.record, hd, ha, hg]
    · simp [InMemoryBroker.record, hd]
  | true =>
    obtain ⟨inputs, hrun⟩ := solo_offer
      ⟨(s.broker.record now m.frame m.topic m.messageId entry.profile).1, s.offers⟩ m o
      (s.broker.fanout.subscribers m.topic) now
    refine ⟨List.replicate 5 ⟨now, false⟩ ++ inputs, (s.broker.fanout.subscribers m.topic).map
      fun e => (e.1, e.2, serializeFrameForFanout m.frame o), ?_, ?_⟩
    · have hfirst : run (solo program) (s, dedupe m) (List.replicate 5 ⟨now, false⟩) =
          some (⟨(s.broker.record now m.frame m.topic m.messageId entry.profile).1, s.offers⟩,
            offer m o (s.broker.fanout.subscribers m.topic)) := by
        simp [run, solo, program, next, InMemoryBroker.record, hd, ha, hg]
      rw [run_append hfirst, hrun]
      simp [InMemoryBroker.record, hd, ha]
    · simp [InMemoryBroker.record, hd, ha, FanoutEngine.deliver]

/-- A call that no other call interrupts gets a slot that is free. -/
theorem solo_slot (s : PublishState O L D S σ) {now : Int64} {f : Frame} {t messageId : String}
    {store : TopicStore} {entry : TopicEntry} {n : UInt64}
    (hv : s.broker.validatePublish now f = .ok (t, messageId)) (hn : validateName t = .ok ())
    (hg : s.broker.store.getOrCreate t s.broker.defaultProfile = .ok (store, entry))
    (hi : tryInc entry.publisherCount entry.profile.maxPublishers = some n) :
    run (solo program) (s, validate f) (List.replicate 4 ⟨now, false⟩) =
      some ({ s with broker := { s.broker with
        store := store.put t { entry with publisherCount := n } } }, dedupe ⟨f, t, messageId⟩) := by
  have hget := TopicStore.get_of_getOrCreate hg
  have hattempt := attempt_solo entry.profile.maxPublishers entry.publisherCount
  rw [hi] at hattempt
  simp [run, solo, program, next, hv, hn, hg, hget, hattempt]

/-- A call that no other call interrupts does what `publish` does. -/
theorem solo_publish (s : PublishState O L D S σ) (now : Int64) (f : Frame) :
    ∃ inputs offers u, run (solo program) (s, validate f) inputs =
        some (⟨(s.broker.publish now f).1, s.offers ++ offers⟩, u) ∧
      offers.map Prod.snd = (s.broker.publish now f).2.2 ∧
      match (s.broker.publish now f).2.1 with
      | .ok outcome => ∃ m, m.frame = f ∧ u = published m outcome
      | .error e => u = refused f e := by
  cases hv : s.broker.validatePublish now f with
  | error e =>
    refine ⟨[⟨now, false⟩], [], refused f e, ?_, ?_, ?_⟩ <;>
      simp [run, solo, program, next, InMemoryBroker.publish, hv]
  | ok r =>
    obtain ⟨t, messageId⟩ := r
    cases hn : validateName t with
    | error e =>
      refine ⟨[⟨now, false⟩], [], refused f e, ?_, ?_, ?_⟩ <;>
        simp [run, solo, program, next, InMemoryBroker.publish, hv, hn]
    | ok _ =>
      cases hg : s.broker.store.getOrCreate t s.broker.defaultProfile with
      | error e =>
        refine ⟨List.replicate 2 ⟨now, false⟩, [], refused f (.topic (.notFound t)), ?_, ?_, ?_⟩ <;>
          simp [run, solo, program, next, InMemoryBroker.publish, hv, hn, hg]
      | ok r =>
        obtain ⟨store, entry⟩ := r
        have hget := TopicStore.get_of_getOrCreate hg
        have hattempt := attempt_solo entry.profile.maxPublishers entry.publisherCount
        cases hi : tryInc entry.publisherCount entry.profile.maxPublishers with
        | none =>
          rw [hi] at hattempt
          refine ⟨List.replicate 4 ⟨now, false⟩, [], refused f (.topic (.publisherLimit t)),
            ?_, ?_, ?_⟩ <;>
            simp [run, solo, program, next, InMemoryBroker.publish, hv, hn, hg, hget, hattempt,
              TopicEntry.tryIncPublisher, hi]
        | some n =>
          obtain ⟨inputs, offers, hrun, hoffers⟩ := solo_record
            { s with broker := { s.broker with
                store := store.put t { entry with publisherCount := n } } }
            ⟨f, t, messageId⟩ now TopicStore.get_put_self
          have hpub : s.broker.publish now f =
              (let r := InMemoryBroker.record { s.broker with
                store := store.put t { entry with publisherCount := n } } now f t messageId
                entry.profile
              (r.1, .ok r.2.1, r.2.2)) := by
            simp [InMemoryBroker.publish, hv, hn, hg, TopicEntry.tryIncPublisher, hi]
          rw [hpub]
          exact ⟨_, offers, _, (run_append (solo_slot s hv hn hg hi)).trans hrun, hoffers, _, rfl,
            rfl⟩

end Solo

end PublishPhase

namespace PublishRace

open Transition

abbrev Calls (O L D S σ : Type) := Pool (PublishState O L D S σ) (PublishPhase σ)

abbrev Act := Pool.Act Frame PublishInput

def Act.isPublish : Act → Bool
  | .spawn _ => true
  | .advance .. => false

variable {O L D S σ : Type} [OffsetStore O] [LogStore L] [DedupeStore D] [SnapshotStore S]
  {p p' : Calls O L D S σ} {a : Act}

def step (p : Calls O L D S σ) (a : Act) : Option (Calls O L D S σ) :=
  Pool.step PublishPhase.program p a

theorem step_cases (h : step p a = some p') :
    (∃ f, a = .spawn f ∧ p' = ⟨p.shared, p.threads ++ [.validate f]⟩) ∨
    ∃ pre u post input s u', a = .advance pre.length input ∧ p.threads = pre ++ u :: post ∧
      PublishPhase.Access p.shared u s u' ∧ p' = ⟨s, pre ++ u' :: post⟩ := by
  rcases Pool.step_cases h with hspawn | ⟨pre, u, post, input, s, u', ha, hp, hn, hp'⟩
  · exact .inl hspawn
  · exact .inr ⟨pre, u, post, input, s, u', ha, hp, PublishPhase.access_of_next hn, hp'⟩

theorem length_step (h : step p a = some p') :
    p'.threads.length = p.threads.length + if Act.isPublish a then 1 else 0 := by
  rcases step_cases h with ⟨f, rfl, rfl⟩ | ⟨pre, u, post, input, s, u', rfl, hp, ha, rfl⟩
  · simp [Act.isPublish]
  · simp [hp, Act.isPublish]

/-- The first `n` accesses that call `i` has left. -/
def accesses (i n : Nat) : List Act := List.replicate n (.advance i ⟨0, false⟩)

/-- Two publishes to "t". -/
def twoPublishes : List Act :=
  [.spawn { topic := some "t", messageId := some "a", payload := some [1] },
    .spawn { topic := some "t", messageId := some "b", payload := some [2] }]

end PublishRace

end Rifts
