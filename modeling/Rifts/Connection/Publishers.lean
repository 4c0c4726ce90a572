import Mathlib.Data.Finset.Insert
import Mathlib.Data.Finset.Erase
import Rifts.Broker.MemoryBroker
import Rifts.Transition.Run

/-! The publisher slots of the topics, over connections that publish and close. -/
namespace Rifts

/-- Where a connection is between reading a frame and the end of its teardown. -/
inductive PublisherPhase
  | live
  /-- `publish` has returned, and the topic is about to be noted. -/
  | recording (topic : String)
  /-- The reader has ended and `published_topics` is being drained. -/
  | closing
  deriving DecidableEq

structure Publisher where
  phase : PublisherPhase := .live
  publishedTopics : Finset String := ∅

namespace Publisher

def holds (c : Publisher) (t : String) : Bool :=
  decide (t ∈ c.publishedTopics) || decide (c.phase = .recording t)

/-- Between two frames, or done with its teardown. -/
def settled (c : Publisher) : Bool :=
  match c.phase with
  | .live => true
  | .recording _ => false
  | .closing => decide (c.publishedTopics = ∅)

end Publisher

structure Publishers (O L D S σ : Type) where
  broker : InMemoryBroker O L D S σ
  conns : List Publisher

namespace Publishers

variable {O L D S σ : Type}

/-- The steps of the connections over one broker. The reader looks at the clock
before the broker does. -/
inductive Act (σ : Type)
  | connect
  | data (i : Nat) (readAt publishAt : Int64) (f : Frame)
  | record (i : Nat)
  | finish (i : Nat)
  | release (i : Nat) (topic : String)
  | subscribe (topic : String) (intent : SubscribeIntent) (sink : σ)
  | unsubscribe (id : UInt64)
  | dropSink (sinkId : UInt64)

def holders (s : Publishers O L D S σ) (t : String) : Nat := s.conns.countP fun c => c.holds t

/-- The live connections that have published to the topic. -/
def liveOn (s : Publishers O L D S σ) (t : String) : Nat :=
  s.conns.countP fun c => decide (c.phase = .live) && decide (t ∈ c.publishedTopics)

def setConn (s : Publishers O L D S σ) (i : Nat) (c : Publisher) : Publishers O L D S σ :=
  { s with conns := s.conns.set i c }

/-- The `Data` branch of `reader_task`, up to the note it takes of the topic. -/
def onData [OffsetStore O] [LogStore L] [DedupeStore D] [SnapshotStore S]
    (s : Publishers O L D S σ) (i : Nat) (c : Publisher) (readAt publishAt : Int64) (f : Frame) :
    Publishers O L D S σ :=
  if f.expired readAt then s
  else
    match s.broker.publish publishAt f with
    | (broker, .error _, _) => { s with broker }
    | (broker, .ok _, _) =>
      match f.topic with
      | some t => { s with broker }.setConn i { c with phase := .recording t }
      | none => { s with broker }

def step [OffsetStore O] [LogStore L] [DedupeStore D] [SnapshotStore S] [FanoutSink σ]
    (s : Publishers O L D S σ) : Act σ → Option (Publishers O L D S σ)
  | .connect => some { s with conns := s.conns ++ [{}] }
  | .data i readAt publishAt f =>
    match s.conns[i]? with
    | some ⟨.live, topics⟩ =>
      if f.frameType = .data then some (s.onData i ⟨.live, topics⟩ readAt publishAt f) else none
    | _ => none
  | .record i =>
    match s.conns[i]? with
    | some ⟨.recording t, topics⟩ => some (s.setConn i ⟨.live, insert t topics⟩)
    | _ => none
  | .finish i =>
    match s.conns[i]? with
    | some ⟨.live, topics⟩ => some (s.setConn i ⟨.closing, topics⟩)
    | _ => none
  | .release i t =>
    match s.conns[i]? with
    | some ⟨.closing, topics⟩ =>
      if t ∈ topics then
        some ({ s with broker := s.broker.decPublisher t }.setConn i ⟨.closing, topics.erase t⟩)
      else none
    | _ => none
  | .subscribe topic intent sink =>
    some { s with broker := (s.broker.subscribe topic intent sink).1 }
  | .unsubscribe id => some { s with broker := (s.broker.unsubscribe id).1 }
  | .dropSink sinkId => some { s with broker := (s.broker.dropSink sinkId).1 }

/-- A broker that has just been made, and no connections. -/
def initial (profile : TopicProfile) (window maxPayload : Nat) (offsets : O) (log : L)
    (dedupe : D) (snapshots : S) : Publishers O L D S σ :=
  ⟨.withStores profile window maxPayload offsets log dedupe snapshots, []⟩

/-- Every topic's counter is the number of connections that hold a slot on it. -/
def Accounted (s : Publishers O L D S σ) : Prop :=
  ∀ t, s.broker.store.publishers t = s.holders t

/-- No connection is turned away from a topic it holds a slot on. -/
def KeepsSlot [OffsetStore O] [LogStore L] [DedupeStore D] [SnapshotStore S]
    (s : Publishers O L D S σ) : Act σ → Prop
  | .data i readAt publishAt f =>
    ∀ c t, s.conns[i]? = some c → c.holds t → f.expired readAt = false →
      (s.broker.publish publishAt f).2.1 ≠ .error (.topic (.publisherLimit t))
  | _ => True

/-- A connection publishes to a topic only if it does not hold a slot on it yet. -/
def once (s : Publishers O L D S σ) : Act σ → Bool
  | .data i readAt publishAt f =>
    match s.conns[i]?, s.broker.target publishAt f with
    | some c, some t => f.expired readAt || !c.holds t
    | _, _ => true
  | _ => true

variable {s s' : Publishers O L D S σ} {i : Nat} {c c' : Publisher} {t : String} {a : Act σ}
  {topics : Finset String} {f : Frame} {readAt publishAt : Int64}

/-- Replacing one connection moves a count by what that connection gains or loses. -/
theorem holders_setConn (hc : s.conns[i]? = some c) (c' : Publisher) (t : String) :
    (s.setConn i c').holders t + (c.holds t).toNat = s.holders t + (c'.holds t).toNat := by
  obtain ⟨hi, rfl⟩ := List.getElem?_eq_some_iff.mp hc
  have hpos : (s.conns[i]).holds t → 0 < s.holders t := fun h =>
    List.countP_pos_iff.mpr ⟨_, List.getElem_mem hi, h⟩
  simp only [setConn, holders, List.countP_set hi] at hpos ⊢
  cases h : (s.conns[i]).holds t <;> cases h' : c'.holds t <;> simp_all

theorem holders_setConn_of_eq (hc : s.conns[i]? = some c) (h : c'.holds t = c.holds t) :
    (s.setConn i c').holders t = s.holders t := by
  have := holders_setConn hc c' t
  rw [h] at this
  omega

section

variable [OffsetStore O] [LogStore L] [DedupeStore D] [SnapshotStore S]

theorem onData_error {e : RiftError} (he : f.expired readAt = false)
    (h : (s.broker.publish publishAt f).2.1 = .error e) :
    s.onData i c readAt publishAt f = { s with broker := (s.broker.publish publishAt f).1 } := by
  rw [onData, if_neg (by simp [he])]
  generalize s.broker.publish publishAt f = r at h ⊢
  obtain ⟨broker, res, offers⟩ := r
  obtain rfl : res = .error e := h
  rfl

theorem onData_ok {outcome : PublishOutcome} (he : f.expired readAt = false)
    (h : (s.broker.publish publishAt f).2.1 = .ok outcome) (ht : f.topic = some t) :
    s.onData i c readAt publishAt f =
      { s with broker := (s.broker.publish publishAt f).1 }.setConn i
        { c with phase := .recording t } := by
  rw [onData, if_neg (by simp [he]), ht]
  generalize s.broker.publish publishAt f = r at h ⊢
  obtain ⟨broker, res, offers⟩ := r
  obtain rfl : res = .ok outcome := h
  rfl

/-- A frame the broker checks keeps the accounts straight and its publisher
welcome exactly when the publisher holds no slot on its topic. -/
theorem accounted_published (hs : Accounted s) (hc : s.conns[i]? = some ⟨.live, topics⟩)
    (he : f.expired readAt = false) (ht : s.broker.target publishAt f = some t) :
    Accounted (s.onData i ⟨.live, topics⟩ readAt publishAt f) ∧
        KeepsSlot s (.data i readAt publishAt f) ↔ t ∉ topics := by
  rcases InMemoryBroker.publishers_publish ht with ⟨hres, hpub⟩ | ⟨⟨outcome, hres⟩, hpub⟩
  · -- refused at the limit: the accounts stand, and a holder has been turned away
    have hacc : Accounted (s.onData i ⟨.live, topics⟩ readAt publishAt f) := by
      rw [onData_error he hres]
      exact fun u => (hpub u).trans (hs u)
    rw [and_iff_right hacc]
    constructor
    · exact fun hk hmem => hk _ t hc (by simp [Publisher.holds, hmem]) he hres
    · rintro hnot c u hc' hu - hlimit
      cases hc.symm.trans hc'
      cases hres.symm.trans hlimit
      simp [Publisher.holds, hnot] at hu
  · -- accepted: one more slot, and one more holder only if it did not hold one
    have hkeep : KeepsSlot s (.data i readAt publishAt f) := fun _ _ _ _ _ h => by
      cases hres.symm.trans h
    rw [and_iff_left hkeep, onData_ok he hres (InMemoryBroker.topic_of_target ht).1]
    have hcount := holders_setConn hc ⟨.recording t, topics⟩
    constructor
    · intro hacc hmem
      have h₁ := (hacc t).symm.trans ((hpub t).trans (by rw [hs t, if_pos rfl]))
      have h₂ := hcount t
      simp [Publisher.holds, hmem] at h₂
      change (s.setConn i ⟨.recording t, topics⟩).holders t = _ at h₁
      omega
    · intro hnot u
      refine (hpub u).trans ?_
      have h₂ := hcount u
      change _ = (s.setConn i ⟨.recording t, topics⟩).holders u
      rw [hs u]
      by_cases hu : u = t
      · subst hu
        simp [Publisher.holds, hnot] at h₂ ⊢
        omega
      · simp [Publisher.holds, hu, Ne.symm hu] at h₂ ⊢
        omega

theorem accounted_data (hs : Accounted s) (hc : s.conns[i]? = some ⟨.live, topics⟩) :
    Accounted (s.onData i ⟨.live, topics⟩ readAt publishAt f) ∧
        KeepsSlot s (.data i readAt publishAt f) ↔ s.once (.data i readAt publishAt f) := by
  cases he : f.expired readAt with
  | true =>
    refine iff_of_true ⟨by simpa [onData, he] using hs, fun c t _ _ h => ?_⟩ ?_
    · cases he.symm.trans h
    · simp only [once, he]
      split <;> rfl
  | false =>
    cases ht : s.broker.target publishAt f with
    | none =>
      obtain ⟨e, hp, hne⟩ := InMemoryBroker.publish_of_no_target ht
      refine iff_of_true ⟨?_, fun c t _ _ _ h => ?_⟩ (by simp [once, ht])
      · rw [onData_error he (by rw [hp]), hp]
        exact hs
      · rw [hp] at h
        exact hne t (Except.error.inj h)
    | some t =>
      rw [accounted_published hs hc he ht]
      simp [once, hc, ht, he, Publisher.holds]

end

theorem accounted_setConn (hs : Accounted s) (hc : s.conns[i]? = some c)
    (h : ∀ t, c'.holds t = c.holds t) : Accounted (s.setConn i c') :=
  fun t => (hs t).trans (holders_setConn_of_eq hc (h t)).symm

theorem accounted_release (hs : Accounted s) (hc : s.conns[i]? = some ⟨.closing, topics⟩)
    (ht : t ∈ topics) :
    Accounted ({ s with broker := s.broker.decPublisher t }.setConn i
      ⟨.closing, topics.erase t⟩) := by
  intro u
  have hcount := holders_setConn hc ⟨.closing, topics.erase t⟩ u
  have hpos : 0 < s.broker.store.publishers t := by
    rw [hs t]
    exact List.countP_pos_iff.mpr ⟨_, List.mem_of_getElem? hc, by simp [Publisher.holds, ht]⟩
  have hdec := InMemoryBroker.publishers_decPublisher hpos u
  change (s.broker.decPublisher t).store.publishers u =
    (s.setConn i ⟨.closing, topics.erase t⟩).holders u
  rw [hdec, hs u]
  by_cases hu : u = t
  · subst hu
    rw [hs u] at hpos
    simp [Publisher.holds, ht] at hcount ⊢
    omega
  · simp [Publisher.holds, hu] at hcount ⊢
    omega

variable [OffsetStore O] [LogStore L] [DedupeStore D] [SnapshotStore S] [FanoutSink σ]

theorem accounted_step (h : step s a = some s') (hs : Accounted s) :
    Accounted s' ∧ KeepsSlot s a ↔ s.once a := by
  cases a with
  | connect =>
    cases h
    refine iff_of_true ⟨fun t => (hs t).trans ?_, trivial⟩ rfl
    simp [holders, Publisher.holds]
  | data i readAt publishAt f =>
    simp only [step] at h
    split at h
    · next topics hc =>
      split at h
      · cases h
        exact accounted_data hs hc
      · cases h
    · cases h
  | record i =>
    simp only [step] at h
    split at h
    · next t topics hc =>
      cases h
      refine iff_of_true ⟨accounted_setConn hs hc fun u => ?_, trivial⟩ rfl
      simp [Publisher.holds, Bool.or_comm, eq_comm]
    · cases h
  | finish i =>
    simp only [step] at h
    split at h
    · next topics hc =>
      cases h
      exact iff_of_true ⟨accounted_setConn hs hc fun u => by simp [Publisher.holds], trivial⟩ rfl
    · cases h
  | release i t =>
    simp only [step] at h
    split at h
    · next topics hc =>
      split at h
      · next ht =>
        cases h
        exact iff_of_true ⟨accounted_release hs hc ht, trivial⟩ rfl
      · cases h
    · cases h
  | subscribe topic intent sink =>
    cases h
    exact iff_of_true ⟨fun t => InMemoryBroker.publishers_subscribe.trans (hs t), trivial⟩ rfl
  | unsubscribe id =>
    cases h
    exact iff_of_true ⟨fun t => InMemoryBroker.publishers_unsubscribe.trans (hs t), trivial⟩ rfl
  | dropSink id =>
    cases h
    exact iff_of_true ⟨fun t => InMemoryBroker.publishers_dropSink.trans (hs t), trivial⟩ rfl

omit [OffsetStore O] [LogStore L] [DedupeStore D] [SnapshotStore S] [FanoutSink σ] in
theorem accounted_initial {profile : TopicProfile} {window maxPayload : Nat} {offsets : O}
    {log : L} {dedupe : D} {snapshots : S} :
    Accounted (initial profile window maxPayload offsets log dedupe snapshots :
      Publishers O L D S σ) := fun _ => rfl

theorem accounted_run {as : List (Act σ)} (hg : Transition.Guarded step (fun s a => s.once a) s as)
    (hr : Transition.run step s as = some s') (hs : Accounted s) : Accounted s' :=
  Transition.run_invariant_of_guarded (fun _ _ _ h hok hi => ((accounted_step h hi).mpr hok).1)
    hg hr hs

omit [OffsetStore O] [LogStore L] [DedupeStore D] [SnapshotStore S] [FanoutSink σ] in
/-- When no connection is halfway through a frame or its teardown, the slots are
held by live connections. -/
theorem holders_of_settled (h : ∀ c ∈ s.conns, c.settled) : s.holders t = s.liveOn t := by
  refine List.countP_congr fun c hc => ?_
  have := h c hc
  obtain ⟨phase, topics⟩ := c
  cases phase <;> simp_all [Publisher.settled, Publisher.holds]

/-- Over one broker and any number of connections, the counters are right
throughout and no holder is turned away exactly when no connection publishes
again to a topic it holds a slot on. In such a run, when the connections are
settled, a counter is the number of live connections that published, and it is
back to zero when all of them have closed. -/
theorem publisher_slots (profile : TopicProfile) (window maxPayload : Nat) (offsets : O) (log : L)
    (dedupe : D) (snapshots : S) (acts : List (Act σ)) :
    (Transition.Throughout step Accounted
          (initial profile window maxPayload offsets log dedupe snapshots) acts ∧
        Transition.Guarded step KeepsSlot
          (initial profile window maxPayload offsets log dedupe snapshots) acts ↔
      Transition.Guarded step (fun s a => s.once a)
        (initial profile window maxPayload offsets log dedupe snapshots) acts) ∧
    ∀ s, Transition.run step
        (initial profile window maxPayload offsets log dedupe snapshots) acts = some s →
      Transition.Guarded step (fun s a => s.once a)
        (initial profile window maxPayload offsets log dedupe snapshots) acts →
      (∀ c ∈ s.conns, c.settled) →
      ∀ t, s.broker.store.publishers t = s.liveOn t ∧
        ((∀ c ∈ s.conns, c.phase = .closing) → s.broker.store.publishers t = 0) := by
  refine ⟨Transition.throughout_and_guarded_iff (fun _ _ _ h hs => accounted_step h hs)
    accounted_initial, ?_⟩
  intro s hr hg hsettled t
  have hcount := (accounted_run hg hr accounted_initial t).trans
    (holders_of_settled hsettled)
  refine ⟨hcount, ?_⟩
  intro hclosed
  have hnone : s.liveOn t = 0 := by
    refine List.countP_eq_zero.mpr ?_
    intro c hc
    simp [hclosed c hc]
  rw [hcount, hnone]

/-- A message for topic "t". -/
def note (messageId : String) : Frame :=
  { frameType := .data, topic := some "t", messageId := some messageId }

def onDefaultBroker (profile : TopicProfile) :
    Publishers MemoryOffsetStore MemoryLogStore MemoryDedupeStore MemorySnapshotStore MpscSink :=
  initial profile 60000 65536 ⟨fun _ => none⟩ ⟨fun _ => none⟩ ⟨fun _ => none⟩ ⟨fun _ => none⟩

/-- Two connections publish to "t", and the first one closes. -/
def onePublishEach : List (Act MpscSink) :=
  [.connect, .connect, .data 0 0 0 (note "a"), .data 1 0 0 (note "b"), .record 0, .record 1,
    .finish 0, .release 0 "t"]

theorem closed_publisher_gives_slot_back :
    ∃ s, Transition.run step (onDefaultBroker {}) onePublishEach = some s ∧
      s.broker.store.publishers "t" = s.liveOn "t" ∧ s.liveOn "t" = 1 := by
  refine ⟨_, rfl, ?_, by decide⟩
  exact ((publisher_slots {} 60000 65536 _ _ _ _ onePublishEach).2 _ rfl (by decide) (by decide)
    "t").1

/-- One connection publishes to "t" twice and closes: its second slot stays taken.
Where the topic has a single slot, the second message is refused. -/
theorem second_publish_keeps_a_slot :
    (∃ s, Transition.run step (onDefaultBroker {})
        [.connect, .data 0 0 0 (note "a"), .record 0, .data 0 0 0 (note "b"), .record 0,
          .finish 0, .release 0 "t"] = some s ∧
      (∀ c ∈ s.conns, c.phase = .closing ∧ c.publishedTopics = ∅) ∧
      s.broker.store.publishers "t" = 1) ∧
    ∃ s, Transition.run step (onDefaultBroker { maxPublishers := 1 })
        [.connect, .data 0 0 0 (note "a"), .record 0] = some s ∧
      (∃ c, s.conns = [c] ∧ c.holds "t") ∧
      (s.broker.publish 0 (note "b")).2.1 = .error (.topic (.publisherLimit "t")) := by
  refine ⟨⟨_, rfl, by decide, rfl⟩, _, rfl, ⟨_, rfl, by decide⟩, rfl⟩

end Publishers

end Rifts
