import Rifts.Bytes.BigEndian
import Rifts.Broker.Fanout
import Rifts.Storage.Memory

/-! The single-process broker, generic over its stores and its sinks. -/
namespace Rifts

/-- "OFF:", the offset in eight bytes, and the payload. -/
def serializeFrameForFanout (f : Frame) (offset : Int64) : Bytes :=
  [79, 70, 70, 58] ++ BigEndian.toBytes 8 offset.toUInt64.toNat ++ f.payload.getD []

structure PublishOutcome where
  offset : Int64
  duplicate : Bool
  deriving DecidableEq, Repr

/-- The router is the local one over `store`, so only its default profile is kept. -/
structure InMemoryBroker (O L D S σ : Type) where
  store : TopicStore
  offsets : O
  log : L
  dedupe : D
  snapshots : S
  fanout : FanoutEngine σ
  defaultProfile : TopicProfile
  dedupeWindow : Nat
  maxPayloadBytes : Nat

abbrev DefaultBroker (σ : Type) :=
  InMemoryBroker MemoryOffsetStore MemoryLogStore MemoryDedupeStore MemorySnapshotStore σ

def InMemoryBroker.withStores {O L D S σ : Type} (defaultProfile : TopicProfile)
    (dedupeWindow maxPayloadBytes : Nat) (offsets : O) (log : L) (dedupe : D) (snapshots : S) :
    InMemoryBroker O L D S σ where
  store := .new
  offsets := offsets
  log := log
  dedupe := dedupe
  snapshots := snapshots
  fanout := .new
  defaultProfile := defaultProfile
  dedupeWindow := dedupeWindow
  maxPayloadBytes := maxPayloadBytes

def DefaultBroker.new {σ : Type} (defaultProfile : TopicProfile)
    (dedupeWindow maxPayloadBytes : Nat) : DefaultBroker σ :=
  .withStores defaultProfile dedupeWindow maxPayloadBytes ⟨fun _ => none⟩ ⟨fun _ => none⟩
    ⟨fun _ => none⟩ ⟨fun _ => none⟩

/-- A broker with the default profile, a minute of deduplication and 64 KiB payloads. -/
def emptyBroker : DefaultBroker MpscSink := .new {} 60000 65536

namespace InMemoryBroker

variable {O L D S σ : Type}

def validatePublish (b : InMemoryBroker O L D S σ) (now : Int64) (f : Frame) :
    Except RiftError (String × String) :=
  match f.topic with
  | none => .error (.frame (.requiredFieldMissing "topic"))
  | some topic =>
    match f.messageId with
    | none => .error (.frame (.requiredFieldMissing "message_id"))
    | some messageId =>
      if b.maxPayloadBytes < f.payloadLen then
        .error (.message (.tooLarge f.payloadLen b.maxPayloadBytes))
      else if f.expired now then .error (.message .expired)
      else .ok (topic, messageId)

def logEntry (f : Frame) (messageId : String) (offset : Int64) : LogEntry where
  offset := offset
  publisherSession := f.sessionId
  messageId := messageId
  class_ := "event"
  event := f.event
  payload := f.payload.getD []
  timestamp := f.timestamp
  appendedAt := none

/-- The part of `publish` after the publisher slot has been taken: it cannot fail. -/
def record [OffsetStore O] [LogStore L] [DedupeStore D] [SnapshotStore S]
    (b : InMemoryBroker O L D S σ) (now : Int64) (f : Frame) (topic messageId : String)
    (profile : TopicProfile) :
    InMemoryBroker O L D S σ × PublishOutcome × List (σ × Bytes) :=
  let (dedupe, fresh) :=
    DedupeStore.checkAndRecord b.dedupe now topic messageId b.dedupeWindow
  let (offsets, offset) := OffsetStore.alloc b.offsets topic
  let log := LogStore.append b.log now topic (logEntry f messageId offset) profile.retention
  let snapshots :=
    if profile.snapshotEnabled then
      (SnapshotStore.capture b.snapshots now topic b.store profile.snapshotTtl).1
    else b.snapshots
  ({ b with dedupe, offsets, log, snapshots }, ⟨offset, !fresh⟩,
    if fresh then b.fanout.deliver topic (serializeFrameForFanout f offset) else [])

/-- The broker after a publish, its answer, and the frames offered to sinks. -/
def publish [OffsetStore O] [LogStore L] [DedupeStore D] [SnapshotStore S]
    (b : InMemoryBroker O L D S σ) (now : Int64) (f : Frame) :
    InMemoryBroker O L D S σ × Except RiftError PublishOutcome × List (σ × Bytes) :=
  match b.validatePublish now f with
  | .error e => (b, .error e, [])
  | .ok (topic, messageId) =>
    match validateName topic with
    | .error e => (b, .error e, [])
    | .ok () =>
      match b.store.getOrCreate topic b.defaultProfile with
      | .error _ => (b, .error (.topic (.notFound topic)), [])
      | .ok (store, entry) =>
        match entry.tryIncPublisher with
        | none => ({ b with store }, .error (.topic (.publisherLimit topic)), [])
        | some entry =>
          match record { b with store := store.put topic entry } now f topic messageId
              entry.profile with
          | (b, outcome, offers) => (b, .ok outcome, offers)

def subscribe [FanoutSink σ] (b : InMemoryBroker O L D S σ) (topic : String)
    (intent : SubscribeIntent) (sink : σ) : InMemoryBroker O L D S σ × Except RiftError UInt64 :=
  match validateName topic with
  | .error e => (b, .error e)
  | .ok () =>
    match b.store.getOrCreate topic b.defaultProfile with
    | .error _ => (b, .error (.topic (.notFound topic)))
    | .ok (store, entry) =>
      match entry.tryIncSubscriber with
      | none => ({ b with store }, .error (.topic (.subscriberLimit topic)))
      | some entry =>
        match b.fanout.subscribe topic intent sink with
        | (fanout, id) => ({ b with store := store.put topic entry, fanout }, .ok id)

/-- `dec_subscriber` on the topic's entry, if it is still there. -/
def releaseSubscriber (store : TopicStore) (topic : String) : TopicStore :=
  match store.get topic with
  | some entry => store.put topic entry.decSubscriber
  | none => store

def unsubscribe [FanoutSink σ] (b : InMemoryBroker O L D S σ) (id : UInt64) :
    InMemoryBroker O L D S σ × Bool :=
  match b.fanout.unsubscribe id with
  | (fanout, some topic) => ({ b with fanout, store := releaseSubscriber b.store topic }, true)
  | (fanout, none) => ({ b with fanout }, false)

def dropSink [FanoutSink σ] (b : InMemoryBroker O L D S σ) (sinkId : UInt64) :
    InMemoryBroker O L D S σ × Nat :=
  match b.fanout.dropSink sinkId with
  | (fanout, topics) => ({ b with fanout, store := topics.foldl releaseSubscriber b.store },
      topics.length)

def replay [LogStore L] (b : InMemoryBroker O L D S σ) (topic : String) (first last : Int64) :
    List Bytes :=
  (LogStore.range b.log topic first last).map (·.payload)

def headOffset [OffsetStore O] (b : InMemoryBroker O L D S σ) (topic : String) : Int64 :=
  OffsetStore.head b.offsets topic

def decPublisher (b : InMemoryBroker O L D S σ) (topic : String) : InMemoryBroker O L D S σ :=
  match b.store.get topic with
  | some entry => { b with store := b.store.put topic entry.decPublisher }
  | none => b

/-- The retention policy of a topic. -/
def retentionOf (b : InMemoryBroker O L D S σ) (topic : String) : RetentionPolicy :=
  (b.store.profileOf b.defaultProfile topic).retention

/-- The entries retained for a topic. -/
def logOf (b : InMemoryBroker O MemoryLogStore D S σ) (topic : String) : List LogEntry :=
  (b.log.inner topic).getD []

section

variable {b b' : InMemoryBroker O MemoryLogStore D S σ} {now : Int64} {t u : String}
  {entry : LogEntry} {policy : RetentionPolicy}

theorem logOf_append_self (h : b'.log = LogStore.append b.log now t entry policy) :
    b'.logOf t = retain now entry (b.logOf t ++ [entry]) policy := by
  rw [logOf, h]
  simp [LogStore.append, logOf]

theorem logOf_append_of_ne (h : b'.log = LogStore.append b.log now t entry policy) (hu : u ≠ t) :
    b'.logOf u = b.logOf u := by
  rw [logOf, h]
  simp [LogStore.append, logOf, hu]

end

/-- The topic of a frame that passes every check of `publish` but the publisher limit. -/
def target (b : InMemoryBroker O L D S σ) (now : Int64) (f : Frame) : Option String :=
  match b.validatePublish now f with
  | .error _ => none
  | .ok (topic, _) =>
    match validateName topic with
    | .error _ => none
    | .ok () => some topic

section

variable {b : InMemoryBroker O L D S σ} {now : Int64} {f : Frame} {t topic messageId : String}

theorem validatePublish_ok (h : b.validatePublish now f = .ok (topic, messageId)) :
    f.topic = some topic ∧ f.messageId = some messageId := by
  unfold validatePublish at h
  split at h
  · cases h
  · next ht =>
    split at h
    · cases h
    · next hm =>
      split at h
      · cases h
      · split at h
        · cases h
        · cases h
          exact ⟨ht, hm⟩

theorem validatePublish_of_fields (ht : f.topic = some topic) (hm : f.messageId = some messageId)
    (hsize : f.payloadLen ≤ b.maxPayloadBytes) (he : f.expired now = false) :
    b.validatePublish now f = .ok (topic, messageId) := by
  simp [validatePublish, ht, hm, Nat.not_lt.mpr hsize, he]

theorem topic_of_target (h : b.target now f = some t) :
    f.topic = some t ∧ validateName t = .ok () := by
  unfold target at h
  split at h
  · cases h
  · next hv =>
    split at h
    · cases h
    · next hn =>
      cases h
      exact ⟨(validatePublish_ok hv).1, hn⟩

theorem validatePublish_error {e : RiftError} (h : b.validatePublish now f = .error e) :
    e ≠ .topic (.publisherLimit t) := by
  unfold validatePublish at h
  split at h
  · cases h; simp
  · split at h
    · cases h; simp
    · split at h
      · cases h; simp
      · split at h
        · cases h; simp
        · cases h

theorem validateName_error {e : RiftError} (h : validateName topic = .error e) :
    e ≠ .topic (.publisherLimit t) := by
  obtain ⟨reason, rfl⟩ := invalidName_of_validateName h
  simp

theorem publishers_decPublisher (h : 0 < b.store.publishers t) (u : String) :
    (b.decPublisher t).store.publishers u = b.store.publishers u - if u = t then 1 else 0 := by
  unfold decPublisher
  split
  · next entry hg =>
    by_cases hu : u = t
    · subst hu
      have hle : (1 : UInt64) ≤ entry.publisherCount := by
        rw [UInt64.le_iff_toNat_le]
        simp only [TopicStore.publishers, hg, Option.map_some, Option.getD_some] at h
        exact h
      simp only [TopicStore.publishers_put_self, TopicEntry.decPublisher,
        UInt64.toNat_sub_of_le _ _ hle]
      simp [TopicStore.publishers, hg]
    · simp [hu]
  · next hg => simp [TopicStore.publishers, hg] at h

theorem publishers_releaseSubscriber {st : TopicStore} {u : String} :
    (releaseSubscriber st t).publishers u = st.publishers u := by
  unfold releaseSubscriber
  split
  · next entry hg =>
    by_cases hu : u = t
    · subst hu
      simp [TopicEntry.decSubscriber, TopicStore.publishers, hg]
    · exact TopicStore.publishers_put_of_ne hu
  · rfl

/-- A slot that is taken can be given back. -/
theorem releaseSubscriber_of_pos {st : TopicStore} (h : 0 < st.subscribers t) :
    ∃ entry, st.get t = some entry ∧ releaseSubscriber st t = st.put t entry.decSubscriber ∧
      entry.decSubscriber.subscriberCount.toNat + 1 = entry.subscriberCount.toNat := by
  cases hg : st.get t with
  | none => simp [TopicStore.subscribers, hg] at h
  | some entry =>
    simp only [TopicStore.subscribers, hg, Option.map_some, Option.getD_some] at h
    have hle : (1 : UInt64) ≤ entry.subscriberCount := UInt64.le_iff_toNat_le.mpr h
    refine ⟨entry, rfl, by simp only [releaseSubscriber, hg], ?_⟩
    rw [TopicEntry.decSubscriber, UInt64.toNat_sub_of_le _ _ hle]
    exact Nat.sub_add_cancel h

theorem subscribers_releaseSubscriber {st : TopicStore} (h : 0 < st.subscribers t) (u : String) :
    (releaseSubscriber st t).subscribers u + (if u = t then 1 else 0) = st.subscribers u := by
  obtain ⟨entry, hg, hr, hcount⟩ := releaseSubscriber_of_pos h
  rw [hr]
  by_cases hu : u = t
  · subst hu
    simpa [TopicStore.subscribers, hg] using hcount
  · simp [hu]

theorem get_releaseSubscriber_of_ne {st : TopicStore} {u : String} (h : u ≠ t) :
    (releaseSubscriber st t).get u = st.get u := by
  unfold releaseSubscriber
  split
  · exact TopicStore.get_put_of_ne h
  · rfl

theorem subscribers_releaseSubscriber_of_ne {st : TopicStore} {u : String} (h : u ≠ t) :
    (releaseSubscriber st t).subscribers u = st.subscribers u := by
  rw [TopicStore.subscribers, get_releaseSubscriber_of_ne h, TopicStore.subscribers]

theorem withinLimits_releaseSubscriber {st : TopicStore} (h : 0 < st.subscribers t)
    (hw : st.WithinLimits) : (releaseSubscriber st t).WithinLimits := by
  obtain ⟨entry, hg, hr, hcount⟩ := releaseSubscriber_of_pos h
  rw [hr]
  refine TopicStore.withinLimits_put hw ?_
  have hold := UInt64.le_iff_toNat_le.mp (hw t entry hg)
  exact UInt64.le_iff_toNat_le.mpr (by change _ ≤ entry.profile.maxSubscribers.toNat; omega)

section

variable [FanoutSink σ]

/-- A subscribe is refused, or entered in the fanout engine. -/
theorem subscribe_cases (b : InMemoryBroker O L D S σ) (t : String) (intent : SubscribeIntent)
    (sink : σ) : ∃ store, (∃ e, b.subscribe t intent sink = ({ b with store }, .error e)) ∨
      b.subscribe t intent sink =
        ({ b with store, fanout := (b.fanout.subscribe t intent sink).1 },
          .ok (b.fanout.seq + 1)) := by
  unfold subscribe
  split
  · exact ⟨b.store, .inl ⟨_, rfl⟩⟩
  · split
    · exact ⟨b.store, .inl ⟨_, rfl⟩⟩
    · split
      · exact ⟨_, .inl ⟨_, rfl⟩⟩
      · exact ⟨_, .inr rfl⟩

/-- A subscribe that is refused leaves the fanout engine alone. -/
theorem fanout_subscribe {intent : SubscribeIntent} {sink : σ} :
    (b.subscribe t intent sink).1.fanout = b.fanout ∨
      (b.subscribe t intent sink).1.fanout = (b.fanout.subscribe t intent sink).1 := by
  obtain ⟨store, ⟨e, h⟩ | h⟩ := subscribe_cases b t intent sink
  · exact .inl (by rw [h])
  · exact .inr (by rw [h])

theorem fanout_unsubscribe {id : UInt64} :
    (b.unsubscribe id).1.fanout = (b.fanout.unsubscribe id).1 := by
  unfold unsubscribe
  split <;> simp_all

theorem publishers_subscribe {intent : SubscribeIntent} {sink : σ} {u : String} :
    (b.subscribe t intent sink).1.store.publishers u = b.store.publishers u := by
  unfold subscribe
  split
  · rfl
  · split
    · rfl
    · next store entry hg =>
      split
      · exact TopicStore.publishers_getOrCreate hg
      · next entry' hi =>
        simp only [TopicEntry.tryIncSubscriber, Option.map_eq_some_iff] at hi
        obtain ⟨n, -, rfl⟩ := hi
        by_cases hu : u = t
        · subst hu
          have hcount := TopicStore.publisherCount_of_getOrCreate hg
          exact TopicStore.publishers_put_self.trans hcount
        · exact (TopicStore.publishers_put_of_ne hu).trans (TopicStore.publishers_getOrCreate hg)

theorem publishers_unsubscribe {id : UInt64} {u : String} :
    (b.unsubscribe id).1.store.publishers u = b.store.publishers u := by
  unfold unsubscribe
  split
  · exact publishers_releaseSubscriber
  · rfl

theorem publishers_dropSink {id : UInt64} {u : String} :
    (b.dropSink id).1.store.publishers u = b.store.publishers u := by
  have hfold (topics : List String) (st : TopicStore) :
      (topics.foldl releaseSubscriber st).publishers u = st.publishers u := by
    induction topics generalizing st with
    | nil => rfl
    | cons t topics ih => exact (ih _).trans publishers_releaseSubscriber
  exact hfold _ _

end

variable [OffsetStore O] [LogStore L] [DedupeStore D] [SnapshotStore S]

/-- A frame that fails one of the checks changes nothing and is offered to nobody. -/
theorem publish_of_no_target (h : b.target now f = none) :
    ∃ e, b.publish now f = (b, .error e, []) ∧ ∀ t, e ≠ .topic (.publisherLimit t) := by
  unfold target at h
  split at h
  · next e hv => exact ⟨e, by simp only [publish, hv], fun t => validatePublish_error hv⟩
  · next topic messageId hv =>
    split at h
    · next e hn => exact ⟨e, by simp only [publish, hv, hn], fun t => validateName_error hn⟩
    · cases h

/-- Any other frame is refused at the publisher limit of its topic, or recorded
after it has taken a slot. -/
theorem publish_of_target (h : b.target now f = some t) :
    ∃ messageId store entry, b.validatePublish now f = .ok (t, messageId) ∧
      b.store.getOrCreate t b.defaultProfile = .ok (store, entry) ∧
      ((entry.tryIncPublisher = none ∧
          b.publish now f = ({ b with store }, .error (.topic (.publisherLimit t)), [])) ∨
        ∃ entry' b' outcome offers, entry.tryIncPublisher = some entry' ∧
          record { b with store := store.put t entry' } now f t messageId entry'.profile =
            (b', outcome, offers) ∧
          b.publish now f = (b', .ok outcome, offers)) := by
  unfold target at h
  split at h
  · cases h
  · next topic messageId hv =>
    split at h
    · cases h
    · next hn =>
      cases h
      cases hg : b.store.getOrCreate t b.defaultProfile with
      | error e =>
        have := TopicStore.getOrCreate_error hg
        simp [hn] at this
      | ok r =>
        obtain ⟨store, entry⟩ := r
        refine ⟨messageId, store, entry, hv, rfl, ?_⟩
        cases hi : entry.tryIncPublisher with
        | none => exact .inl ⟨rfl, by simp only [publish, hv, hn, hg, hi]⟩
        | some entry' =>
          exact .inr ⟨entry', _, _, _, rfl, rfl, by simp only [publish, hv, hn, hg, hi]; rfl⟩

/-- A publish is refused, or recorded under the profile of its topic. -/
theorem publish_cases (b : InMemoryBroker O L D S σ) (now : Int64) (f : Frame) :
    ∃ store, (∀ u, store.profileOf b.defaultProfile u = b.store.profileOf b.defaultProfile u) ∧
      ((∃ e, b.publish now f = ({ b with store }, .error e, [])) ∨
        ∃ t messageId b' outcome offers, f.topic = some t ∧
          record { b with store } now f t messageId (b.store.profileOf b.defaultProfile t) =
            (b', outcome, offers) ∧
          b.publish now f = (b', .ok outcome, offers)) := by
  cases ht : b.target now f with
  | none =>
    obtain ⟨e, hp, -⟩ := publish_of_no_target ht
    exact ⟨b.store, fun u => rfl, .inl ⟨e, hp⟩⟩
  | some t =>
    obtain ⟨messageId, store, entry, -, hg, ⟨-, hp⟩ | ⟨entry', b', outcome, offers, hi, hr, hp⟩⟩ :=
      publish_of_target ht
    · exact ⟨store, fun u => TopicStore.profileOf_getOrCreate hg, .inl ⟨_, hp⟩⟩
    · simp only [TopicEntry.tryIncPublisher, Option.map_eq_some_iff] at hi
      obtain ⟨n, -, rfl⟩ := hi
      have hget := TopicStore.get_of_getOrCreate hg
      have hprofile := TopicStore.profile_of_getOrCreate hg
      rw [hprofile] at hr
      refine ⟨_, ?_, .inr ⟨t, messageId, b', outcome, offers, (topic_of_target ht).1, hr, hp⟩⟩
      intro u
      rw [TopicStore.profileOf_put hget hprofile.symm, TopicStore.profileOf_getOrCreate hg]

theorem profileOf_publish :
    (b.publish now f).1.store.profileOf (b.publish now f).1.defaultProfile t =
      b.store.profileOf b.defaultProfile t := by
  obtain ⟨store, hprofile, ⟨e, hp⟩ | ⟨u, messageId, b', outcome, offers, -, hr, hp⟩⟩ :=
    publish_cases b now f
  · rw [hp]
    exact hprofile t
  · rw [hp]
    cases hr
    exact hprofile t

/-- A recorded message is offered to the subscribers of its topic unless it is a duplicate. -/
theorem offers_record {b' : InMemoryBroker O L D S σ} {profile : TopicProfile}
    {outcome : PublishOutcome} {offers : List (σ × Bytes)}
    (h : record b now f topic messageId profile = (b', outcome, offers)) :
    b'.fanout = b.fanout ∧ offers = if outcome.duplicate then [] else
      b.fanout.deliver topic (serializeFrameForFanout f outcome.offset) := by
  simp only [record, Prod.mk.injEq] at h
  obtain ⟨rfl, rfl, rfl⟩ := h
  refine ⟨rfl, ?_⟩
  cases (DedupeStore.checkAndRecord b.dedupe now topic messageId b.dedupeWindow).2 <;> rfl

/-- An accepted frame passed every check; its payload and its offset go to the sinks. -/
theorem publish_ok {b' : InMemoryBroker O L D S σ} {outcome : PublishOutcome}
    {offers : List (σ × Bytes)} (h : b.publish now f = (b', .ok outcome, offers)) :
    (∃ t, b.target now f = some t) ∧
      ∀ o ∈ offers, o.2 = serializeFrameForFanout f outcome.offset := by
  cases ht : b.target now f with
  | none =>
    obtain ⟨e, hp, -⟩ := publish_of_no_target ht
    cases hp.symm.trans h
  | some t =>
    refine ⟨⟨t, rfl⟩, ?_⟩
    intro o ho
    obtain ⟨messageId, store, entry, -, -, ⟨-, hp⟩ | ⟨entry', b'', outcome', offers', -, hr, hp⟩⟩ :=
      publish_of_target ht
    · cases hp.symm.trans h
    · cases hp.symm.trans h
      rw [(offers_record hr).2] at ho
      split at ho
      · cases ho
      · exact FanoutEngine.snd_of_mem_deliver ho

/-- A frame that passes the checks is accepted on a topic nobody has used, and
logged under its own topic, message id and event. -/
theorem publish_fresh (hv : b.validatePublish now f = .ok (t, messageId))
    (hname : validateName t = .ok ()) (hfresh : b.store.get t = none)
    (hslots : 0 < b.defaultProfile.maxPublishers) :
    ∃ b' outcome offers, b.publish now f = (b', .ok outcome, offers) ∧
      b'.log = LogStore.append b.log now t (logEntry f messageId outcome.offset)
        b.defaultProfile.retention := by
  have htarget : b.target now f = some t := by
    simp [target, hv, hname]
  obtain ⟨messageId', store, entry, hv', hg, h⟩ := publish_of_target htarget
  cases hv.symm.trans hv'
  obtain ⟨hsome, -⟩ | ⟨-, rfl, rfl⟩ := TopicStore.getOrCreate_ok hg
  · cases hfresh.symm.trans hsome
  · have hinc : ¬ b.defaultProfile.maxPublishers ≤ 0 := UInt64.not_le.mpr hslots
    obtain ⟨hnone, -⟩ | ⟨entry', b', outcome, offers, hi, hr, hp⟩ := h
    · simp [TopicEntry.tryIncPublisher, tryInc, hinc] at hnone
    · simp only [TopicEntry.tryIncPublisher, tryInc, hinc, if_false, Option.map_some,
        Option.some.injEq] at hi
      subst hi
      refine ⟨b', outcome, offers, hp, ?_⟩
      cases hr
      rfl

/-- The publisher limit is met only when every slot is taken. -/
theorem full_of_publisherLimit (ht : b.target now f = some t)
    (h : (b.publish now f).2.1 = .error (.topic (.publisherLimit t))) :
    (b.store.profileOf b.defaultProfile t).maxPublishers.toNat ≤ b.store.publishers t := by
  obtain ⟨messageId, store, entry, -, hg, ⟨hfull, -⟩ | ⟨entry', b', outcome, offers, -, -, hp⟩⟩ :=
    publish_of_target ht
  · have hprofile := TopicStore.profile_of_getOrCreate hg
    rw [TopicEntry.tryIncPublisher, Option.map_eq_none_iff, tryInc_eq_none_iff] at hfull
    rwa [← hprofile, ← TopicStore.publisherCount_of_getOrCreate hg]
  · rw [hp] at h
    cases h

/-- What a publish does to the publisher slots: it takes one on its topic or none. -/
theorem publishers_publish (h : b.target now f = some t) :
    ((b.publish now f).2.1 = .error (.topic (.publisherLimit t)) ∧
        ∀ u, (b.publish now f).1.store.publishers u = b.store.publishers u) ∨
      ((∃ outcome, (b.publish now f).2.1 = .ok outcome) ∧
        ∀ u, (b.publish now f).1.store.publishers u =
          b.store.publishers u + if u = t then 1 else 0) := by
  obtain ⟨messageId, store, entry, -, hg, ⟨-, hp⟩ | ⟨entry', b', outcome, offers, hi, hr, hp⟩⟩ :=
    publish_of_target h
  · exact .inl ⟨by rw [hp], fun u => by rw [hp]; exact TopicStore.publishers_getOrCreate hg⟩
  · refine .inr ⟨⟨outcome, by rw [hp]⟩, ?_⟩
    intro u
    have hstore : b'.store = store.put t entry' := by
      cases hr
      rfl
    rw [hp, hstore]
    by_cases hu : u = t
    · subst hu
      simp only [TopicEntry.tryIncPublisher, Option.map_eq_some_iff] at hi
      obtain ⟨n, hn, rfl⟩ := hi
      rw [TopicStore.publishers_put_self, if_pos rfl,
        ← TopicStore.publisherCount_of_getOrCreate hg]
      exact toNat_of_tryInc hn
    · rw [TopicStore.publishers_put_of_ne hu, if_neg hu, TopicStore.publishers_getOrCreate hg,
        Nat.add_zero]

end

end InMemoryBroker

end Rifts
