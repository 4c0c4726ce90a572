import Rifts.Broker.Restart
import Rifts.Broker.Slots
import Rifts.Broker.SnapshotHistory
import Rifts.Storage.Dedupe
import Rifts.Storage.Snapshot

/-! The broker over other stores than those in memory: what makes a store as good as one in
memory, and that a broker on such stores cannot be told from one in memory. -/
namespace Rifts

open Transition

/-- A dedupe store with the sweep that `maintain` runs. -/
class SweptStore (D : Type) extends DedupeStore D where
  sweep : D → Int64 → D × Nat

instance : SweptStore DedupeTable := ⟨DedupeTable.sweep⟩

/-- The default broker with lists of the keys in its dedupe store and its snapshot store. -/
abbrev LocalBroker (σ : Type) :=
  InMemoryBroker MemoryOffsetStore MemoryLogStore DedupeTable SnapshotTable σ

/-- The calls of the `Broker` trait, and a restart of the process. -/
inductive BrokerCall (σ : Type)
  | publish (now : Int64) (f : Frame)
  | subscribe (topic : String) (intent : SubscribeIntent) (sink : σ)
  | unsubscribe (id : UInt64)
  | dropSink (id : UInt64)
  | replay (topic : String) (first last : Int64)
  | snapshot (now : Int64) (topic : String)
  | subscriberCount (topic : String)
  | headOffset (topic : String)
  | decPublisher (topic : String)
  | maintain (now : Int64)
  | restart (defaultProfile : TopicProfile) (dedupeWindow maxPayloadBytes : Nat)
  deriving DecidableEq

/-- The answer to a call. That of a publish comes with what was offered to the sinks. -/
inductive BrokerAnswer (σ : Type)
  | published (result : Except RiftError PublishOutcome) (offers : List (σ × Bytes))
  | subscribed (result : Except RiftError UInt64)
  | unsubscribed (removed : Bool)
  | dropped (count : Nat)
  | replayed (payloads : List Bytes)
  | snapshot (found : Option StoredSnapshot)
  | subscribers (count : Nat)
  | head (offset : Int64)
  | maintained (swept : Nat)
  | done
  deriving DecidableEq

namespace BrokerCall

variable {σ : Type}

def isPublish : BrokerCall σ → Bool
  | publish .. => true
  | _ => false

/-- A store is asked only for topics with valid names: the broker checks the name of a publish
and of a subscribe itself. The topics of a new process are created under a policy that every
store has. -/
def Admissible : BrokerCall σ → Prop
  | replay topic .. | snapshot _ topic | headOffset topic => validateName topic = .ok ()
  | restart defaultProfile .. => defaultProfile.retention.isSize = false
  | _ => True

instance : DecidablePred (Admissible (σ := σ))
  | replay topic .. | snapshot _ topic | headOffset topic =>
    inferInstanceAs (Decidable (validateName topic = .ok ()))
  | restart defaultProfile .. =>
    inferInstanceAs (Decidable (defaultProfile.retention.isSize = false))
  | publish .. | subscribe .. | unsubscribe _ | dropSink _ | subscriberCount _ | decPublisher _
  | maintain _ => .isTrue trivial

end BrokerCall

namespace InMemoryBroker

variable {O L D S σ : Type} [OffsetStore O] [LogStore L] [SweptStore D] [SnapshotStore S]
  [FanoutSink σ]

def maintain (b : InMemoryBroker O L D S σ) (now : Int64) : InMemoryBroker O L D S σ × Nat :=
  match SweptStore.sweep b.dedupe now with
  | (dedupe, removed) => ({ b with dedupe }, removed)

/-- A restart builds a broker over the stores of the old one, whose offset store is opened
again. Topics and subscriptions are those of the process. -/
def serve (reopen : O → O) (b : InMemoryBroker O L D S σ) :
    BrokerCall σ → InMemoryBroker O L D S σ × BrokerAnswer σ
  | .publish now f =>
    match b.publish now f with
    | (b, result, offers) => (b, .published result offers)
  | .subscribe topic intent sink =>
    match b.subscribe topic intent sink with
    | (b, result) => (b, .subscribed result)
  | .unsubscribe id =>
    match b.unsubscribe id with
    | (b, removed) => (b, .unsubscribed removed)
  | .dropSink id =>
    match b.dropSink id with
    | (b, count) => (b, .dropped count)
  | .replay topic first last => (b, .replayed (b.replay topic first last))
  | .snapshot now topic => (b, .snapshot (b.snapshot now topic))
  | .subscriberCount topic => (b, .subscribers (b.subscriberCount topic))
  | .headOffset topic => (b, .head (b.headOffset topic))
  | .decPublisher topic => (b.decPublisher topic, .done)
  | .maintain now =>
    match b.maintain now with
    | (b, swept) => (b, .maintained swept)
  | .restart defaultProfile dedupeWindow maxPayloadBytes =>
    (.withStores defaultProfile dedupeWindow maxPayloadBytes (reopen b.offsets) b.log b.dedupe
      b.snapshots, .done)

end InMemoryBroker

/-- What makes an offset store as good as one in memory. `Shows m o` says that `o` has the
counters of `m`. -/
structure OffsetBacking (O : Type) [OffsetStore O] where
  Shows : MemoryOffsetStore → O → Prop
  reopen : O → O
  alloc : ∀ {m o t}, Shows m o → validateName t = .ok () →
    Shows (OffsetStore.alloc m t).1 (OffsetStore.alloc o t).1 ∧
      (OffsetStore.alloc o t).2 = (OffsetStore.alloc m t).2
  head : ∀ {m o t}, Shows m o → validateName t = .ok () →
    OffsetStore.head o t = OffsetStore.head m t
  reopened : ∀ {m o}, Shows m o → Shows m (reopen o)

/-- The same of a log store, for appends as the broker makes them: with offsets that ascend and
are not negative, without an append time, and not under a size limit. -/
structure LogBacking (L : Type) [LogStore L] where
  Shows : MemoryLogStore → L → Prop
  append : ∀ {m l t} now entry policy, Shows m l → validateName t = .ok () →
    (∀ e ∈ m.logOf t, e.offset < entry.offset) → 0 ≤ entry.offset.toInt →
    entry.appendedAt = none → policy.isSize = false →
    Shows (LogStore.append m now t entry policy) (LogStore.append l now t entry policy)
  range : ∀ {m l t lo hi}, Shows m l → validateName t = .ok () →
    LogStore.range l t lo hi = LogStore.range m t lo hi

structure DedupeBacking (D : Type) [SweptStore D] where
  Shows : DedupeTable → D → Prop
  check : ∀ {m d t} now key window, Shows m d → validateName t = .ok () →
    Shows (DedupeStore.checkAndRecord m now t key window).1
        (DedupeStore.checkAndRecord d now t key window).1 ∧
      (DedupeStore.checkAndRecord d now t key window).2 =
        (DedupeStore.checkAndRecord m now t key window).2
  sweep : ∀ {m d} now, Shows m d →
    Shows (SweptStore.sweep m now).1 (SweptStore.sweep d now).1 ∧
      (SweptStore.sweep d now).2 = (SweptStore.sweep m now).2

structure SnapshotBacking (S : Type) [SnapshotStore S] where
  Shows : SnapshotTable → S → Prop
  capture : ∀ {m s now t store ttl}, Shows m s → validateName t = .ok () →
    Shows (SnapshotStore.capture m now t store ttl).1 (SnapshotStore.capture s now t store ttl).1
  get : ∀ {m s now t}, Shows m s → validateName t = .ok () →
    SnapshotStore.get s now t = SnapshotStore.get m now t

/-- A choice of stores for a broker, each as good as the one in memory. -/
structure Backing (O L D S : Type) [OffsetStore O] [LogStore L] [SweptStore D]
    [SnapshotStore S] where
  offsets : OffsetBacking O
  log : LogBacking L
  dedupe : DedupeBacking D
  snapshots : SnapshotBacking S

structure Backing.Shows {O L D S : Type} [OffsetStore O] [LogStore L] [SweptStore D]
    [SnapshotStore S] (B : Backing O L D S)
    (ms : MemoryOffsetStore × MemoryLogStore × DedupeTable × SnapshotTable) (ss : O × L × D × S) :
    Prop where
  offsets : B.offsets.Shows ms.1 ss.1
  log : B.log.Shows ms.2.1 ss.2.1
  dedupe : B.dedupe.Shows ms.2.2.1 ss.2.2.1
  snapshots : B.snapshots.Shows ms.2.2.2 ss.2.2.2

namespace InMemoryBroker

section Registry

variable {O L D S σ : Type}

def stores (b : InMemoryBroker O L D S σ) : O × L × D × S :=
  (b.offsets, b.log, b.dedupe, b.snapshots)

/-- The broker with other stores. -/
def onStores (b : LocalBroker σ) (stores : O × L × D × S) : InMemoryBroker O L D S σ where
  store := b.store
  offsets := stores.1
  log := stores.2.1
  dedupe := stores.2.2.1
  snapshots := stores.2.2.2
  fanout := b.fanout
  defaultProfile := b.defaultProfile
  dedupeWindow := b.dedupeWindow
  maxPayloadBytes := b.maxPayloadBytes

variable {b : LocalBroker σ} {ss : O × L × D × S} {topic : String} {id : UInt64}

theorem decPublisher_onStores :
    (b.onStores ss).decPublisher topic = (b.decPublisher topic).onStores ss := by
  have hentry : (b.onStores ss).store.get topic = b.store.get topic := rfl
  simp only [decPublisher, hentry]
  cases b.store.get topic <;> rfl

theorem stores_decPublisher : (b.decPublisher topic).stores = b.stores := by
  unfold decPublisher
  split <;> rfl

variable [FanoutSink σ] {intent : SubscribeIntent} {sink : σ}

theorem subscribe_onStores : (b.onStores ss).subscribe topic intent sink =
    ((b.subscribe topic intent sink).1.onStores ss, (b.subscribe topic intent sink).2) := by
  have hroute : (b.onStores ss).store.getOrCreate topic (b.onStores ss).defaultProfile =
    b.store.getOrCreate topic b.defaultProfile := rfl
  simp only [subscribe, hroute]
  cases validateName topic with
  | error e => rfl
  | ok =>
    rcases b.store.getOrCreate topic b.defaultProfile with e | ⟨store, entry⟩
    · rfl
    · cases hi : entry.tryIncSubscriber <;> simp only [hi] <;> rfl

theorem stores_subscribe : (b.subscribe topic intent sink).1.stores = b.stores := by
  obtain ⟨store, ⟨e, hsub⟩ | hsub⟩ := b.subscribe_cases topic intent sink <;> rw [hsub] <;> rfl

theorem unsubscribe_onStores : (b.onStores ss).unsubscribe id =
    ((b.unsubscribe id).1.onStores ss, (b.unsubscribe id).2) := by
  have hengine : (b.onStores ss).fanout.unsubscribe id = b.fanout.unsubscribe id := rfl
  simp only [unsubscribe, hengine]
  rcases b.fanout.unsubscribe id with ⟨fanout, topic | topic⟩ <;> rfl

theorem stores_unsubscribe : (b.unsubscribe id).1.stores = b.stores := by
  unfold unsubscribe
  split <;> rfl

end Registry

variable {O L D S σ : Type} [OffsetStore O] [LogStore L] [SweptStore D] [SnapshotStore S]
  {B : Backing O L D S} {b b' : LocalBroker σ} {ss : O × L × D × S} {n : Nat} {now : Int64}
  {f : Frame} {t topic messageId : String} {call : BrokerCall σ} {calls : List (BrokerCall σ)}

/-- At most `n` offsets were given out on each topic, every entry has one of its topic's, and no
topic is under a size limit. -/
structure Numbered (n : Nat) (b : LocalBroker σ) : Prop where
  counters : ∀ t, ∃ k ≤ n, (b.offsets.inner t).getD 1 = nthOffset k ∧
    ∀ e ∈ b.log.logOf t, ∃ j < k, e.offset = nthOffset j
  unsized : ∀ t, (b.store.profileOf b.defaultProfile t).retention.isSize = false

theorem Numbered.of_same (h : Numbered n b) (hs : b'.stores = b.stores)
    (hp : ∀ t, b'.store.profileOf b'.defaultProfile t = b.store.profileOf b.defaultProfile t) :
    Numbered n b' := by
  have hoffsets : b'.offsets = b.offsets := congrArg Prod.fst hs
  have hlog : b'.log = b.log := congrArg (·.2.1) hs
  refine ⟨?_, fun t => by rw [hp t]; exact h.unsized t⟩
  intro t
  rw [hoffsets, hlog]
  exact h.counters t

/-- The next offset of a topic is above those in its log, as long as the numbers fit an `i64`. -/
theorem Numbered.next (h : Numbered n b) (hn : n + 1 < 2 ^ 63) (t : String) :
    0 ≤ (OffsetStore.alloc b.offsets t).2.toInt ∧
      ∀ e ∈ b.log.logOf t, e.offset < (OffsetStore.alloc b.offsets t).2 := by
  obtain ⟨k, hk, hnext, hlog⟩ := h.counters t
  have halloc : (OffsetStore.alloc b.offsets t).2 = nthOffset k := hnext
  have hint := toInt_nthOffset (m := k) (by omega)
  rw [halloc]
  refine ⟨by omega, ?_⟩
  intro e he
  obtain ⟨j, hj, hoffset⟩ := hlog e he
  rw [hoffset, Int64.lt_iff_toInt_lt, toInt_nthOffset (by omega), hint]
  omega

/-- A message that is recorded has the next offset of its topic. -/
theorem numbered_record {profile : TopicProfile} {store : TopicStore} (h : Numbered n b)
    (hp : ∀ u, store.profileOf b.defaultProfile u = b.store.profileOf b.defaultProfile u) :
    Numbered (n + 1) (record { b with store } now f t messageId profile).1 := by
  refine ⟨?_, fun u => by rw [← h.unsized u, ← hp u]; rfl⟩
  intro u
  obtain ⟨k, hk, hnext, hlog⟩ := h.counters u
  have hoffsets : (record { b with store } now f t messageId profile).1.offsets.inner =
      Function.update b.offsets.inner t (some ((b.offsets.inner t).getD 1 + 1)) := rfl
  have hlogs : (record { b with store } now f t messageId profile).1.log =
      LogStore.append b.log now t (logEntry f messageId ((b.offsets.inner t).getD 1))
        profile.retention := rfl
  rw [hoffsets, hlogs]
  by_cases hu : u = t
  · subst hu
    refine ⟨k + 1, by omega, ?_, ?_⟩
    · simp [hnext, nthOffset_succ]
    · intro e he
      rw [MemoryLogStore.logOf_append_self] at he
      rcases List.mem_append.mp (retain_sublist.subset he) with he | he
      · obtain ⟨j, hj, hoffset⟩ := hlog e he
        exact ⟨j, by omega, hoffset⟩
      · rw [List.mem_singleton.mp he]
        exact ⟨k, by omega, hnext⟩
  · refine ⟨k, by omega, ?_, ?_⟩
    · rwa [Function.update_of_ne hu]
    · rwa [MemoryLogStore.logOf_append_of_ne hu]

theorem numbered_publish (h : Numbered n b) : Numbered (n + 1) (b.publish now f).1 := by
  obtain ⟨store, hp, ⟨e, hpub⟩ | ⟨t, messageId, b', outcome, offers, -, hr, hpub⟩⟩ :=
    publish_cases b now f
  · rw [hpub]
    refine ⟨?_, fun t => by rw [hp t]; exact h.unsized t⟩
    intro t
    obtain ⟨k, hk, hrest⟩ := h.counters t
    exact ⟨k, by omega, hrest⟩
  · rw [hpub]
    have hb : b' = (record { b with store } now f t messageId
        (b.store.profileOf b.defaultProfile t)).1 := by
      rw [hr]
    rw [hb]
    exact numbered_record h hp

section

variable {D' S' : Type} [DedupeStore D'] [SnapshotStore S']

/-- The checks of a publish and the slot it takes: the topics afterwards, and what is to be
recorded under which profile. -/
def takeSlot (b : InMemoryBroker O L D' S' σ) (now : Int64) (f : Frame) :
    TopicStore × Except RiftError (String × String × TopicProfile) :=
  match b.validatePublish now f with
  | .error e => (b.store, .error e)
  | .ok (topic, messageId) =>
    match validateName topic with
    | .error e => (b.store, .error e)
    | .ok () =>
      match b.store.getOrCreate topic b.defaultProfile with
      | .error _ => (b.store, .error (.topic (.notFound topic)))
      | .ok (store, entry) =>
        match entry.tryIncPublisher with
        | none => (store, .error (.topic (.publisherLimit topic)))
        | some entry => (store.put topic entry, .ok (topic, messageId, entry.profile))

theorem publish_eq_takeSlot (b : InMemoryBroker O L D' S' σ) (now : Int64) (f : Frame) :
    b.publish now f =
      match b.takeSlot now f with
      | (store, .error e) => ({ b with store }, .error e, [])
      | (store, .ok (topic, messageId, profile)) =>
        ((record { b with store } now f topic messageId profile).1,
          .ok (record { b with store } now f topic messageId profile).2.1,
          (record { b with store } now f topic messageId profile).2.2) := by
  cases hv : b.validatePublish now f with
  | error e => simp only [publish, takeSlot, hv]
  | ok target =>
    obtain ⟨topic, messageId⟩ := target
    cases hname : validateName topic with
    | error e => simp only [publish, takeSlot, hv, hname]
    | ok =>
      cases hg : b.store.getOrCreate topic b.defaultProfile with
      | error e => simp only [publish, takeSlot, hv, hname, hg]
      | ok routed =>
        obtain ⟨store, entry⟩ := routed
        cases hi : entry.tryIncPublisher <;> simp only [publish, takeSlot, hv, hname, hg, hi]

omit [OffsetStore O] [LogStore L] [DedupeStore D'] [SnapshotStore S'] in
/-- A slot is taken on a topic with a valid name, under the profile of the topic. -/
theorem takeSlot_ok {b : InMemoryBroker O L D' S' σ} {store : TopicStore} {profile : TopicProfile}
    (h : b.takeSlot now f = (store, .ok (topic, messageId, profile))) :
    validateName topic = .ok () ∧ profile = b.store.profileOf b.defaultProfile topic := by
  unfold takeSlot at h
  split at h
  · cases h
  · split at h
    · cases h
    · next hname =>
      split at h
      · cases h
      · next store' entry hg =>
        split at h
        · cases h
        · next entry' hi =>
          cases h
          simp only [TopicEntry.tryIncPublisher, Option.map_eq_some_iff] at hi
          obtain ⟨count, -, rfl⟩ := hi
          have hprofile := TopicStore.profile_of_getOrCreate hg
          exact ⟨hname, hprofile⟩

end

/-- A message is recorded in both brokers with the same outcome, and offered to the same
sinks. -/
theorem shown_record {profile : TopicProfile} (now : Int64) (f : Frame) (messageId : String)
    (h : B.Shows b.stores ss) (hname : validateName t = .ok ())
    (hnonneg : 0 ≤ (OffsetStore.alloc b.offsets t).2.toInt)
    (hbelow : ∀ e ∈ b.log.logOf t, e.offset < (OffsetStore.alloc b.offsets t).2)
    (hsize : profile.retention.isSize = false) :
    ∃ ss', B.Shows (record b now f t messageId profile).1.stores ss' ∧
      record (b.onStores ss) now f t messageId profile =
        ((record b now f t messageId profile).1.onStores ss',
          (record b now f t messageId profile).2) := by
  obtain ⟨offsets, log, dedupe, snapshots⟩ := ss
  obtain ⟨ho, hl, hd, hs⟩ := h
  obtain ⟨ho, hoffset⟩ := B.offsets.alloc ho hname
  obtain ⟨hd, hfresh⟩ := B.dedupe.check now messageId b.dedupeWindow hd hname
  have hl := B.log.append now (logEntry f messageId (OffsetStore.alloc b.offsets t).2)
    profile.retention hl hname hbelow hnonneg rfl hsize
  have hs : B.snapshots.Shows
      (if profile.snapshotEnabled then
        (SnapshotStore.capture b.snapshots now t b.store profile.snapshotTtl).1 else b.snapshots)
      (if profile.snapshotEnabled then
        (SnapshotStore.capture snapshots now t b.store profile.snapshotTtl).1
        else snapshots) := by
    split
    · exact B.snapshots.capture hs hname
    · exact hs
  refine ⟨(_, _, _, _), ⟨ho, hl, hd, hs⟩, ?_⟩
  simp only [record, onStores, stores, hoffset, hfresh]
  rfl

theorem shown_publish (now : Int64) (f : Frame) (h : B.Shows b.stores ss) (hb : Numbered n b)
    (hn : n + 1 < 2 ^ 63) : ∃ ss', B.Shows (b.publish now f).1.stores ss' ∧
      (b.onStores ss).publish now f =
        ((b.publish now f).1.onStores ss', (b.publish now f).2) := by
  have hslot : (b.onStores ss).takeSlot now f = b.takeSlot now f := rfl
  rw [publish_eq_takeSlot, publish_eq_takeSlot, hslot]
  rcases htaken : b.takeSlot now f with ⟨store, e | ⟨topic, messageId, profile⟩⟩
  · exact ⟨ss, h, rfl⟩
  · obtain ⟨hname, hprofile⟩ := takeSlot_ok htaken
    obtain ⟨hnonneg, hbelow⟩ := hb.next hn topic
    obtain ⟨ss', hshown, hrecord⟩ := shown_record (b := { b with store }) now f messageId h hname
      hnonneg hbelow (hprofile ▸ hb.unsized topic)
    have hstore : { b.onStores ss with store } = ({ b with store } : LocalBroker σ).onStores ss :=
      rfl
    exact ⟨ss', hshown, by simp only [hstore, hrecord]⟩

variable [FanoutSink σ]

theorem numbered_unsubscribe (h : Numbered n b) (id : UInt64) :
    Numbered n (b.unsubscribe id).1 := by
  cases hid : b.fanout.byId id with
  | none => rwa [unsubscribe_unknown hid]
  | some entry =>
    rw [unsubscribe_known hid]
    exact h.of_same rfl fun t => profileOf_releaseSubscriber

theorem numbered_subscribe (h : Numbered n b) (intent : SubscribeIntent) (sink : σ) :
    Numbered n (b.subscribe topic intent sink).1 := by
  have hprofile (t : String) : (b.subscribe topic intent sink).1.store.profileOf
      b.defaultProfile t = b.store.profileOf b.defaultProfile t := profileOf_subscribe
  obtain ⟨store, ⟨e, hsub⟩ | hsub⟩ := b.subscribe_cases topic intent sink
  all_goals
    simp only [hsub] at hprofile ⊢
    exact h.of_same rfl hprofile

omit [FanoutSink σ] in
theorem numbered_decPublisher (h : Numbered n b) : Numbered n (b.decPublisher topic) := by
  unfold decPublisher
  split
  · next entry hg => exact h.of_same rfl fun t => TopicStore.profileOf_put hg rfl
  · exact h

theorem numbered_serve (h : Numbered n b) (hc : call.Admissible) :
    Numbered (n + if call.isPublish then 1 else 0) (b.serve id call).1 := by
  cases call with
  | publish now f => exact numbered_publish h
  | subscribe topic intent sink => exact numbered_subscribe h intent sink
  | unsubscribe id => exact numbered_unsubscribe h id
  | dropSink id =>
    exact dropSink_induction (P := Numbered n) (fun _ id hb => numbered_unsubscribe hb id) h
  | replay | snapshot | subscriberCount | headOffset => exact h
  | decPublisher topic => exact numbered_decPublisher h
  | maintain now => exact ⟨h.counters, h.unsized⟩
  | restart profile window maxPayloadBytes => exact ⟨h.counters, fun t => hc⟩

/-- The second broker is the first one on stores that show its own. -/
def ShownBy (B : Backing O L D S) (b : LocalBroker σ) (d : InMemoryBroker O L D S σ) : Prop :=
  ∃ ss, B.Shows b.stores ss ∧ d = b.onStores ss

/-- Every call is answered alike, and leaves brokers that are alike. -/
theorem shownBy_serve {d : InMemoryBroker O L D S σ} (h : ShownBy B b d)
    (hc : call.Admissible ∧ (call.isPublish = true → ∃ n, Numbered n b ∧ n + 1 < 2 ^ 63)) :
    ShownBy B (b.serve id call).1 (d.serve B.offsets.reopen call).1 ∧
      (d.serve B.offsets.reopen call).2 = (b.serve id call).2 := by
  obtain ⟨ss, h, rfl⟩ := h
  obtain ⟨hcall, hbudget⟩ := hc
  cases call with
  | publish now f =>
    obtain ⟨n, hb, hn⟩ := hbudget rfl
    obtain ⟨ss', hshown, hpublish⟩ := shown_publish now f h hb hn
    simp only [serve, hpublish]
    exact ⟨⟨ss', hshown, rfl⟩, trivial⟩
  | subscribe topic intent sink =>
    simp only [serve, subscribe_onStores]
    exact ⟨⟨ss, by rwa [stores_subscribe], rfl⟩, trivial⟩
  | unsubscribe id =>
    simp only [serve, unsubscribe_onStores]
    exact ⟨⟨ss, by rwa [stores_unsubscribe], rfl⟩, trivial⟩
  | dropSink id => exact ⟨⟨ss, h, rfl⟩, rfl⟩
  | replay topic first last =>
    refine ⟨⟨ss, h, rfl⟩, ?_⟩
    simp only [serve, replay, onStores, B.log.range h.log hcall]
    rfl
  | snapshot now topic => exact ⟨⟨ss, h, rfl⟩, congrArg _ (B.snapshots.get h.snapshots hcall)⟩
  | subscriberCount topic => exact ⟨⟨ss, h, rfl⟩, rfl⟩
  | headOffset topic => exact ⟨⟨ss, h, rfl⟩, congrArg _ (B.offsets.head h.offsets hcall)⟩
  | decPublisher topic =>
    simp only [serve, decPublisher_onStores]
    exact ⟨⟨ss, by rwa [stores_decPublisher], rfl⟩, trivial⟩
  | maintain now =>
    obtain ⟨hd, hswept⟩ := B.dedupe.sweep now h.dedupe
    exact ⟨⟨(ss.1, ss.2.1, (SweptStore.sweep ss.2.2.1 now).1, ss.2.2.2),
      ⟨h.offsets, h.log, hd, h.snapshots⟩, rfl⟩, congrArg _ hswept⟩
  | restart profile window maxPayloadBytes =>
    exact ⟨⟨(B.offsets.reopen ss.1, ss.2),
      ⟨B.offsets.reopened h.offsets, h.log, h.dedupe, h.snapshots⟩, rfl⟩, rfl⟩

theorem numbered_after (h : Numbered 0 b) (hcalls : ∀ c ∈ calls, c.Admissible) :
    Numbered (calls.countP BrokerCall.isPublish) (after (serve id) b calls) := by
  induction calls using List.reverseRecOn with
  | nil => exact h
  | append_singleton calls c ih =>
    rw [after_concat, List.countP_append, List.countP_singleton]
    exact numbered_serve (ih fun c hc => hcalls c (List.mem_append_left _ hc)) (hcalls c (by simp))

/-- A broker on any such choice of stores answers as the one in memory. -/
theorem answers_eq_of_shownBy {d : InMemoryBroker O L D S σ} (h : ShownBy B b d)
    (hb : Numbered 0 b) (hcalls : ∀ c ∈ calls, c.Admissible)
    (hcount : calls.countP BrokerCall.isPublish < 2 ^ 63) :
    answers (serve B.offsets.reopen) d calls = answers (serve id) b calls := by
  have hok : Admits (serve id)
      (fun b c => c.Admissible ∧ (c.isPublish = true → ∃ n, Numbered n b ∧ n + 1 < 2 ^ 63))
      b calls := by
    rintro pre c post rfl
    refine ⟨hcalls c (by simp), fun hpublish => ⟨pre.countP BrokerCall.isPublish, ?_, ?_⟩⟩
    · exact numbered_after hb fun c hc => hcalls c (List.mem_append_left _ hc)
    · rw [List.countP_append, List.countP_cons_of_pos hpublish] at hcount
      omega
  exact answers_eq_of_simulation (fun _ _ _ h hc => shownBy_serve h hc) hok h

end InMemoryBroker

/-- The dedupe tree. Every value in it is an expiry of eight bytes, as the store writes them:
with any other the loop of `check_and_record` may not return. -/
structure SledDedupeStore where
  tree : SledTree
  settled : ∀ x ∈ tree.entries, x.2.length = 8

namespace SledDedupe

variable {tree tree' : SledTree} {now : Int64} {topic key : String} {window : Nat} {fresh : Bool}

/-- On such a tree the loop returns in its first turn, and leaves such a tree. -/
theorem checkAndRecord_settled (h : ∀ x ∈ tree.entries, x.2.length = 8) :
    ∃ tree' fresh, checkAndRecord tree now topic key window 1 = some (tree', fresh) ∧
      ∀ x ∈ tree'.entries, x.2.length = 8 := by
  have hput : ∀ x ∈ (tree.put (Encode.dedupeKey topic key)
      (BigEndian.ofInt64 (now + Int64.ofNat window))).entries, x.2.length = 8 := by
    intro x hx
    rcases SortedMap.mem_put.mp hx with rfl | ⟨hx, -⟩
    · simp
    · exact h x hx
  by_cases hlive : ∃ v, tree.get (Encode.dedupeKey topic key) = some v ∧ now < BigEndian.toInt64 v
  · obtain ⟨v, hv, hlt⟩ := hlive
    have hlen : v.length = 8 := h _ (SortedMap.mem_entries.mpr hv)
    exact ⟨tree, false, checkAndRecord_live hv (by omega) hlt 0, h⟩
  · refine ⟨_, true, checkAndRecord_replaces ?_ 0, hput⟩
    intro v hv
    have hlen : v.length = 8 := h _ (SortedMap.mem_entries.mpr hv)
    exact ⟨by omega, Int64.not_lt.mp fun hlt => hlive ⟨v, hv, hlt⟩⟩

theorem isSome_checkAndRecord (h : ∀ x ∈ tree.entries, x.2.length = 8) :
    (checkAndRecord tree now topic key window 1).isSome := by
  obtain ⟨tree', fresh, hcheck, -⟩ := checkAndRecord_settled h
  rw [hcheck]
  rfl

theorem settled_checkAndRecord (h : ∀ x ∈ tree.entries, x.2.length = 8) :
    ∀ x ∈ ((checkAndRecord tree now topic key window 1).get (isSome_checkAndRecord h)).1.entries,
      x.2.length = 8 := by
  obtain ⟨tree', fresh, hcheck, hsettled⟩ := checkAndRecord_settled h
  rw [Option.get_of_eq_some (isSome_checkAndRecord h) hcheck]
  exact hsettled

theorem settled_sweep (h : ∀ x ∈ tree.entries, x.2.length = 8) :
    ∀ x ∈ (sweep tree now).1.entries, x.2.length = 8 := by
  rw [sweep, foldl_sweepTopic]
  exact fun x hx => h x (List.mem_of_mem_filter hx)

end SledDedupe

namespace SledDedupeStore

def checkAndRecord (s : SledDedupeStore) (now : Int64) (topic key : String) (window : Nat) :
    SledDedupeStore × Bool :=
  let r := (SledDedupe.checkAndRecord s.tree now topic key window 1).get
    (SledDedupe.isSome_checkAndRecord s.settled)
  (⟨r.1, SledDedupe.settled_checkAndRecord s.settled⟩, r.2)

def sweep (s : SledDedupeStore) (now : Int64) : SledDedupeStore × Nat :=
  (⟨(SledDedupe.sweep s.tree now).1, SledDedupe.settled_sweep s.settled⟩,
    (SledDedupe.sweep s.tree now).2)

instance : SweptStore SledDedupeStore where
  checkAndRecord := checkAndRecord
  sweep := sweep

end SledDedupeStore

/-- The snapshots on a sled tree as a store of the broker. -/
structure SledSnapshotStore (K : Codec StoredSnapshot) where
  tree : SledTree

instance (K : Codec StoredSnapshot) : SnapshotStore (SledSnapshotStore K) where
  capture s now topic store ttl :=
    (⟨(SledSnapshot.capture K s.tree now topic store ttl).1⟩,
      (SledSnapshot.capture K s.tree now topic store ttl).2)
  get s now topic := SledSnapshot.get K s.tree now topic

section Sled

open Encode

variable (lossy : Utf8.Lossy) (J : Codec LogEntry) (K : Codec StoredSnapshot)

def OffsetBacking.sled : OffsetBacking SledOffsetStore where
  Shows := SledOffsetStore.Mirrors
  reopen s := .new lossy s.tree
  alloc h hname := SledOffsetStore.mirrors_alloc h (separable_of_validateName hname)
  head h hname := SledOffsetStore.head_eq h (separable_of_validateName hname)
  reopened h := SledOffsetStore.mirrors_new h

def LogBacking.sled : LogBacking (SledLogStore J) where
  Shows m l := SledLog.Mirrors J m l.tree
  append _ _ _ h hname hbelow hnonneg hstamp hsize :=
    SledLog.mirrors_append h (separable_of_validateName hname) hbelow hnonneg hstamp hsize
  range h hname := by
    simp only [LogStore.range, SledLog.range,
      SledLog.entriesOf_eq h (separable_of_validateName hname)]
    rfl

def DedupeBacking.sled : DedupeBacking SledDedupeStore where
  Shows m d := Dedupe.Mirrors m d.tree
  check {m d t} now key window h hname := by
    obtain ⟨tree, hcheck, hm⟩ := Dedupe.mirrors_checkAndRecord h
      (separable_of_validateName hname) now key window 0
    have hresult := Option.get_of_eq_some (SledDedupe.isSome_checkAndRecord d.settled) hcheck
    have htree : (d.checkAndRecord now t key window).1.tree = tree := congrArg Prod.fst hresult
    exact ⟨htree ▸ hm, congrArg Prod.snd hresult⟩
  sweep now h := ⟨(Dedupe.mirrors_sweep h now).2, (Dedupe.mirrors_sweep h now).1⟩

def SnapshotBacking.sled : SnapshotBacking (SledSnapshotStore K) where
  Shows m s := SledSnapshot.Mirrors K m s.tree
  capture {m s now t store ttl} h hname := by
    simp only [SnapshotStore.capture, SledSnapshot.capture, SnapshotTable.capture]
    cases snapshotOf now t store ttl with
    | none => exact h
    | some snap => exact SledSnapshot.mirrors_insert h (separable_of_validateName hname)
  get h hname := SledSnapshot.get_eq h (separable_of_validateName hname)

def Backing.sled : Backing SledOffsetStore (SledLogStore J) SledDedupeStore
    (SledSnapshotStore K) :=
  ⟨.sled lossy, .sled J, .sled, .sled K⟩

end Sled

def LocalBroker.new {σ : Type} (defaultProfile : TopicProfile)
    (dedupeWindow maxPayloadBytes : Nat) : LocalBroker σ :=
  .withStores defaultProfile dedupeWindow maxPayloadBytes ⟨fun _ => none⟩ ⟨fun _ => none⟩ .new .new

/-- A broker over empty trees. -/
def SledBroker.new {σ : Type} (lossy : Utf8.Lossy) (J : Codec LogEntry) (K : Codec StoredSnapshot)
    (defaultProfile : TopicProfile) (dedupeWindow maxPayloadBytes : Nat) :
    SledBroker J SledDedupeStore (SledSnapshotStore K) σ :=
  .withStores defaultProfile dedupeWindow maxPayloadBytes (.new lossy .empty) ⟨.empty⟩
    ⟨.empty, by simp [SortedMap.empty]⟩ ⟨.empty⟩

namespace InMemoryBroker

section New

variable {σ : Type} {profile : TopicProfile} {window maxPayloadBytes : Nat}

theorem numbered_new (hprofile : profile.retention.isSize = false) :
    Numbered 0 (LocalBroker.new (σ := σ) profile window maxPayloadBytes) := by
  refine ⟨fun t => ⟨0, Nat.le_refl 0, rfl, ?_⟩, fun t => hprofile⟩
  simp [LocalBroker.new, withStores, MemoryLogStore.logOf]

theorem shownBy_sled {lossy : Utf8.Lossy} {J : Codec LogEntry} {K : Codec StoredSnapshot} :
    ShownBy (.sled lossy J K) (LocalBroker.new (σ := σ) profile window maxPayloadBytes)
      (SledBroker.new lossy J K profile window maxPayloadBytes) := by
  refine ⟨(.new lossy .empty, ⟨.empty⟩, ⟨.empty, by simp [SortedMap.empty]⟩, ⟨.empty⟩), ?_, rfl⟩
  exact ⟨SledOffsetStore.mirrors_empty, SledLog.mirrors_new, Dedupe.mirrors_new,
    SledSnapshot.mirrors_new⟩

end New

variable {σ : Type} [FanoutSink σ]

/-- A broker on sled trees, restarted anywhere among the calls, answers every call of the
`Broker` trait as the broker in memory whose stores are never lost. -/
theorem sled_broker_agrees (lossy : Utf8.Lossy) (J : Codec LogEntry) (K : Codec StoredSnapshot)
    (profile : TopicProfile) (window maxPayloadBytes : Nat)
    (hprofile : profile.retention.isSize = false) (calls : List (BrokerCall σ))
    (hcalls : ∀ c ∈ calls, c.Admissible)
    (hcount : calls.countP BrokerCall.isPublish < 2 ^ 63) :
    answers (serve (OffsetBacking.sled lossy).reopen)
        (SledBroker.new lossy J K profile window maxPayloadBytes) calls =
      answers (serve id) (LocalBroker.new profile window maxPayloadBytes) calls := by
  exact answers_eq_of_shownBy shownBy_sled (numbered_new hprofile) hcalls hcount

/-- A message that is sent twice, a restart, and another message. -/
def acrossRestart : List (BrokerCall MpscSink) :=
  [.subscribe "t" .live ⟨0, 7, .json⟩,
    .publish 0 { topic := some "t", messageId := some "m", payload := some [1] },
    .publish 1 { topic := some "t", messageId := some "m", payload := some [1] },
    .restart { retention := .count 2 } 60000 65536, .subscriberCount "t", .headOffset "t",
    .publish 2 { topic := some "t", messageId := some "m", payload := some [1] },
    .publish 3 { topic := some "t", messageId := some "n", payload := some [2] },
    .replay "t" 0 9, .maintain 60000, .snapshot 4 "t"]

theorem across_restart_agrees :
    answers (serve (OffsetBacking.sled .replacing).reopen)
        (SledBroker.new .replacing SledLog.fieldCodec SledSnapshot.fieldCodec
          { retention := .count 2 } 60000 65536) acrossRestart =
      [.subscribed (.ok 1),
        .published (.ok ⟨1, false⟩) [(⟨0, 7, .json⟩, [79, 70, 70, 58, 0, 0, 0, 0, 0, 0, 0, 1, 1])],
        .published (.ok ⟨2, true⟩) [], .done, .subscribers 0, .head 2,
        .published (.ok ⟨3, true⟩) [], .published (.ok ⟨4, false⟩) [], .replayed [[1], [2]],
        .maintained 1, .snapshot none] := by
  rw [sled_broker_agrees .replacing SledLog.fieldCodec SledSnapshot.fieldCodec
    { retention := .count 2 } 60000 65536 rfl acrossRestart (by decide) (by decide)]
  decide

end InMemoryBroker

end Rifts
