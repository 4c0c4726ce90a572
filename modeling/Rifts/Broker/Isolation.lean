import Rifts.Broker.LoneTopic
import Rifts.Broker.Slots
import Rifts.Storage.Dedupe

/-! Topics share a broker without seeing each other: what concerns one of them is what
the topic would answer by itself. -/
namespace Rifts.Isolation

variable {σ : Type}

/-- The default broker, over a dedupe store that can be swept. -/
abbrev SweptBroker (σ : Type) :=
  InMemoryBroker MemoryOffsetStore MemoryLogStore DedupeTable MemorySnapshotStore σ

def maintain (b : SweptBroker σ) (now : Int64) : SweptBroker σ × Nat :=
  match b.dedupe.sweep now with
  | (dedupe, removed) => ({ b with dedupe }, removed)

/-- A broker, and the ids it has given out on each topic. -/
structure State (σ : Type) where
  broker : SweptBroker σ
  made : String → List UInt64

namespace State

def new (defaultProfile : TopicProfile) (dedupeWindow maxPayloadBytes : Nat) : State σ where
  broker := .withStores defaultProfile dedupeWindow maxPayloadBytes ⟨fun _ => none⟩
    ⟨fun _ => none⟩ .new ⟨fun _ => none⟩
  made _ := []

/-- The live subscriptions of a topic, by the order they were made in. -/
def subs (s : State σ) (t : String) : List (Nat × σ) :=
  (s.broker.fanout.subscribers t).map fun entry => ((s.made t).idxOf entry.1, entry.2)

variable [FanoutSink σ]

def subscribe (s : State σ) (topic : String) (intent : SubscribeIntent) (sink : σ) :
    State σ × Outcome σ :=
  match s.broker.subscribe topic intent sink with
  | (broker, .error e) => (⟨broker, s.made⟩, .subscribed (.error e))
  | (broker, .ok id) =>
    (⟨broker, Function.update s.made topic (s.made topic ++ [id])⟩,
      .subscribed (.ok (s.made topic).length))

/-- An id that was not given out is no subscription of the broker either. -/
def unsubscribe (s : State σ) (topic : String) (nth : Nat) : State σ × Outcome σ :=
  match (s.made topic)[nth]? with
  | none => (s, .unsubscribed false)
  | some id =>
    match s.broker.unsubscribe id with
    | (broker, removed) => (⟨broker, s.made⟩, .unsubscribed removed)

def serve (s : State σ) : Call σ → State σ × Outcome σ
  | .publish now f =>
    match s.broker.publish now f with
    | (broker, result, offers) =>
      (⟨broker, s.made⟩,
        .published result (((s.subs (f.topic.getD "")).map Prod.fst).zip offers))
  | .subscribe topic intent sink => s.subscribe topic intent sink
  | .unsubscribe topic nth => s.unsubscribe topic nth
  | .dropSink k => (⟨(s.broker.dropSink k).1, s.made⟩, .dropped)
  | .replay topic first last => (s, .replayed (s.broker.replay topic first last))
  | .headOffset topic => (s, .head (s.broker.headOffset topic))
  | .maintain now => (⟨(maintain s.broker now).1, s.made⟩, .maintained)

end State

variable {s : State σ} {b : SweptBroker σ} {n nth : Nat} {t topic u : String} {id k : UInt64}
  {sink : σ} {intent : SubscribeIntent} {now : Int64} {f : Frame} {a : Topic σ}
  {call : Call σ} {calls : List (Call σ)}

section

variable [FanoutSink σ]

/-- The ids given out are the first `n`, none of them twice, and every subscription has
one of its topic's. -/
structure Kept (n : Nat) (s : State σ) : Prop where
  tidy : s.broker.Tidy n
  numbered : ∀ u, ∀ id ∈ s.made u, ∃ m, 0 < m ∧ m ≤ n ∧ id = UInt64.ofNat m
  nodup : ∀ u, (s.made u).Nodup
  oneTopic : ∀ u v id, id ∈ s.made u → id ∈ s.made v → u = v
  filed : ∀ id u sink, s.broker.fanout.byId id = some (u, sink) → id ∈ s.made u

theorem kept_new (profile : TopicProfile) (window maxPayloadBytes : Nat) :
    Kept 0 (State.new profile window maxPayloadBytes : State σ) where
  tidy := InMemoryBroker.tidy_new rfl fun _ => rfl
  numbered u id h := by cases h
  nodup u := .nil
  oneTopic u v id h := by cases h
  filed id u sink h := by cases h

/-- What a call keeps that makes no subscription. -/
theorem Kept.of_broker {b' : SweptBroker σ} (h : Kept n s) (htidy : b'.Tidy n)
    (hids : ∀ id x, b'.fanout.byId id = some x → s.broker.fanout.byId id = some x) :
    Kept n ⟨b', s.made⟩ :=
  ⟨htidy, h.numbered, h.nodup, h.oneTopic, fun id u sink hid => h.filed id u sink (hids id _ hid)⟩

theorem Kept.unsubscribe (h : Kept n s) (id : UInt64) :
    Kept n ⟨(s.broker.unsubscribe id).1, s.made⟩ := by
  refine h.of_broker (h.tidy.unsubscribe id) ?_
  intro sid x hx
  rw [InMemoryBroker.fanout_unsubscribe, FanoutEngine.byId_unsubscribe] at hx
  split at hx
  · cases hx
  · exact hx

theorem Kept.dropSink (h : Kept n s) (k : UInt64) :
    Kept n ⟨(s.broker.dropSink k).1, s.made⟩ :=
  InMemoryBroker.dropSink_induction (P := fun b => Kept n ⟨b, s.made⟩)
    (fun _ id hb => Kept.unsubscribe hb id) h

/-- A subscription that is made has an id no other was given. -/
theorem Kept.fresh (h : Kept n s) (hn : n < 2 ^ 64) (u : String) :
    s.broker.fanout.seq + 1 ∉ s.made u := by
  intro hmem
  obtain ⟨m, hpos, hle, hid⟩ := h.numbered u _ hmem
  rw [h.tidy.drawn.seq] at hid
  exact FanoutEngine.next_ne_ofNat hpos hle hn hid

theorem mem_update_append {made : String → List UInt64} :
    k ∈ Function.update made topic (made topic ++ [id]) u ↔ k ∈ made u ∨ u = topic ∧ k = id := by
  by_cases hu : u = topic
  · subst hu
    simp
  · simp [hu]

theorem nodup_update_append {made : String → List UInt64} (hn : ∀ u, (made u).Nodup)
    (hid : id ∉ made topic) (u : String) :
    (Function.update made topic (made topic ++ [id]) u).Nodup := by
  by_cases hu : u = topic
  · subst hu
    rw [Function.update_self, ← List.concat_eq_append]
    exact (hn u).concat hid
  · rw [Function.update_of_ne hu]
    exact hn u

theorem Kept.enter (h : Kept n s) (hn : n < 2 ^ 64)
    (hf : (s.broker.subscribe topic intent sink).1.fanout =
      (s.broker.fanout.subscribe topic intent sink).1) :
    Kept (n + 1) ⟨(s.broker.subscribe topic intent sink).1,
      Function.update s.made topic (s.made topic ++ [s.broker.fanout.seq + 1])⟩ where
  tidy := h.tidy.enter hn hf
  numbered u sid hsid := by
    obtain hold | ⟨-, rfl⟩ := mem_update_append.mp hsid
    · obtain ⟨m, hpos, hle, hm⟩ := h.numbered u sid hold
      exact ⟨m, hpos, by omega, hm⟩
    · refine ⟨n + 1, by omega, Nat.le_refl _, ?_⟩
      rw [h.tidy.drawn.seq, UInt64.ofNat_add]
      rfl
  nodup := nodup_update_append h.nodup (h.fresh hn topic)
  oneTopic u v sid hu hv := by
    obtain hold | ⟨htopic, rfl⟩ := mem_update_append.mp hu
    · obtain hold' | ⟨-, rfl⟩ := mem_update_append.mp hv
      · exact h.oneTopic u v sid hold hold'
      · exact absurd hold (h.fresh hn u)
    · obtain hold' | ⟨htopic', -⟩ := mem_update_append.mp hv
      · exact absurd hold' (h.fresh hn v)
      · exact htopic.trans htopic'.symm
  filed sid u sink' hid := by
    refine mem_update_append.mpr ?_
    rw [hf, FanoutEngine.byId_subscribe] at hid
    split at hid
    · next hsid =>
      cases hid
      exact .inr ⟨rfl, hsid⟩
    · exact .inl (h.filed sid u sink' hid)

theorem kept_serve (h : Kept n s) (hn : call.isSubscribe = true → n < 2 ^ 64) :
    ∃ m ≤ n + (if call.isSubscribe then 1 else 0), Kept m (s.serve call).1 := by
  cases call with
  | publish now f =>
    have hfanout : (s.broker.publish now f).1.fanout = s.broker.fanout :=
      InMemoryBroker.fanout_publish now f
    have hkept : Kept n ⟨(s.broker.publish now f).1, s.made⟩ :=
      h.of_broker (h.tidy.of_same hfanout (InMemoryBroker.subscribers_publish now f))
        fun id x hx => by rwa [hfanout] at hx
    exact ⟨n, Nat.le_refl n, hkept⟩
  | subscribe topic intent sink =>
    have hlt := hn rfl
    obtain ⟨store, ⟨e, hsub⟩ | hsub⟩ := s.broker.subscribe_cases topic intent sink
    · refine ⟨n, Nat.le_succ n, ?_⟩
      have hkept : Kept n ⟨(s.broker.subscribe topic intent sink).1, s.made⟩ :=
        h.of_broker (h.tidy.refuse (congrArg (·.1.fanout) hsub))
          fun id x hx => by rwa [hsub] at hx
      simp only [State.serve, State.subscribe, hsub] at hkept ⊢
      exact hkept
    · refine ⟨n + 1, Nat.le_refl _, ?_⟩
      have hkept := h.enter hlt (congrArg (·.1.fanout) hsub)
      simp only [State.serve, State.subscribe, hsub] at hkept ⊢
      exact hkept
  | unsubscribe topic nth =>
    refine ⟨n, Nat.le_refl n, ?_⟩
    simp only [State.serve, State.unsubscribe]
    split
    · exact h
    · exact h.unsubscribe _
  | dropSink k => exact ⟨n, Nat.le_refl n, h.dropSink k⟩
  | replay topic first last => exact ⟨n, Nat.le_refl n, h⟩
  | headOffset topic => exact ⟨n, Nat.le_refl n, h⟩
  | maintain now =>
    exact ⟨n, Nat.le_refl n, h.of_broker (h.tidy.of_same rfl fun _ => rfl) fun _ _ hx => hx⟩

end

/-- A record of the topic, as the broker has it and as the topic by itself does. A sweep
may have taken it from the broker, but then it has expired for every call to come. -/
def SameRecord (calls : List (Call σ)) (swept kept : Option Int64) : Prop :=
  swept = kept ∨ swept = none ∧ ∃ e, kept = some e ∧ ∀ now ∈ calls.filterMap Call.time, e ≤ now

theorem SameRecord.tail {swept kept : Option Int64} (h : SameRecord (call :: calls) swept kept) :
    SameRecord calls swept kept := by
  obtain h | ⟨hnone, e, he, hexp⟩ := h
  · exact .inl h
  · refine .inr ⟨hnone, e, he, fun now hnow => hexp now ?_⟩
    obtain ⟨c, hc, hnow⟩ := List.mem_filterMap.mp hnow
    exact List.mem_filterMap.mpr ⟨c, List.mem_cons_of_mem _ hc, hnow⟩

/-- What two brokers have in common that differ in other topics and in subscriptions. -/
structure SameTopic (t : String) (b b' : SweptBroker σ) : Prop where
  dedupeWindow : b'.dedupeWindow = b.dedupeWindow
  maxPayloadBytes : b'.maxPayloadBytes = b.maxPayloadBytes
  profile : b'.store.profileOf b'.defaultProfile t = b.store.profileOf b.defaultProfile t
  publishers : b'.store.publishers t = b.store.publishers t
  next : b'.offsets.inner t = b.offsets.inner t
  log : b'.log.inner t = b.log.inner t
  records : ∀ m, b'.dedupe.inner (t, m) = b.dedupe.inner (t, m)

/-- The topic by itself is what the broker shows of it. -/
structure Shows (t : String) (calls : List (Call σ)) (s : State σ) (a : Topic σ) : Prop where
  name : t = a.name
  dedupeWindow : s.broker.dedupeWindow = a.dedupeWindow
  maxPayloadBytes : s.broker.maxPayloadBytes = a.maxPayloadBytes
  profile : s.broker.store.profileOf s.broker.defaultProfile t = a.profile
  publishers : s.broker.store.publishers t = a.publishers
  next : (s.broker.offsets.inner t).getD 1 = a.next
  log : s.broker.logOf t = a.log
  records : ∀ m, SameRecord calls (s.broker.dedupe.inner (t, m)) (a.records m)
  subs : s.subs t = a.subs
  made : (s.made t).length = a.made

theorem shows_new (t : String) (calls : List (Call σ)) (profile : TopicProfile)
    (window maxPayloadBytes : Nat) :
    Shows t calls (.new profile window maxPayloadBytes) (.new t profile window maxPayloadBytes) :=
  ⟨rfl, rfl, rfl, rfl, rfl, rfl, rfl, fun _ => .inl rfl, rfl, rfl⟩

/-- A call that concerns subscriptions at most. -/
theorem Shows.of_same {b' : SweptBroker σ} (h : Shows t (call :: calls) s a)
    (hb : SameTopic t s.broker b') (made' : String → List UInt64) :
    Shows t calls ⟨b', made'⟩
      { a with subs := State.subs ⟨b', made'⟩ t, made := (made' t).length } where
  name := h.name
  dedupeWindow := hb.dedupeWindow.trans h.dedupeWindow
  maxPayloadBytes := hb.maxPayloadBytes.trans h.maxPayloadBytes
  profile := hb.profile.trans h.profile
  publishers := hb.publishers.trans h.publishers
  next := by rw [hb.next, h.next]
  log := by
    rw [← h.log, InMemoryBroker.logOf, hb.log]
    rfl
  records m := by
    rw [hb.records]
    exact (h.records m).tail
  subs := rfl
  made := rfl

theorem Shows.of_same_subs {b' : SweptBroker σ} {made' : String → List UInt64}
    (h : Shows t (call :: calls) s a) (hb : SameTopic t s.broker b')
    (hsubs : State.subs ⟨b', made'⟩ t = s.subs t) (hmade : made' t = s.made t) :
    Shows t calls ⟨b', made'⟩ a := by
  have hshows := h.of_same hb made'
  rwa [hsubs, hmade, h.subs, h.made] at hshows

theorem SameTopic.refl (t : String) (b : SweptBroker σ) : SameTopic t b b :=
  ⟨rfl, rfl, rfl, rfl, rfl, rfl, fun _ => rfl⟩

theorem SameTopic.trans {b₁ b₂ b₃ : SweptBroker σ} (h : SameTopic t b₁ b₂)
    (h' : SameTopic t b₂ b₃) : SameTopic t b₁ b₃ :=
  ⟨h'.dedupeWindow.trans h.dedupeWindow, h'.maxPayloadBytes.trans h.maxPayloadBytes,
    h'.profile.trans h.profile, h'.publishers.trans h.publishers, h'.next.trans h.next,
    h'.log.trans h.log, fun m => (h'.records m).trans (h.records m)⟩

section

variable [FanoutSink σ]

theorem sameTopic_subscribe (b : SweptBroker σ) (topic : String) (intent : SubscribeIntent)
    (sink : σ) : SameTopic t b (b.subscribe topic intent sink).1 := by
  have hprofile : (b.subscribe topic intent sink).1.store.profileOf b.defaultProfile t =
      b.store.profileOf b.defaultProfile t := InMemoryBroker.profileOf_subscribe
  have hpublishers : (b.subscribe topic intent sink).1.store.publishers t = b.store.publishers t :=
    InMemoryBroker.publishers_subscribe
  obtain ⟨store, ⟨e, h⟩ | h⟩ := b.subscribe_cases topic intent sink
  all_goals
    rw [h] at hprofile hpublishers ⊢
    exact ⟨rfl, rfl, hprofile, hpublishers, rfl, rfl, fun _ => rfl⟩

theorem sameTopic_unsubscribe (b : SweptBroker σ) (id : UInt64) :
    SameTopic t b (b.unsubscribe id).1 := by
  cases hid : b.fanout.byId id with
  | none =>
    rw [InMemoryBroker.unsubscribe_unknown hid]
    exact .refl t b
  | some x =>
    rw [InMemoryBroker.unsubscribe_known hid]
    exact ⟨rfl, rfl, InMemoryBroker.profileOf_releaseSubscriber,
      InMemoryBroker.publishers_releaseSubscriber, rfl, rfl, fun _ => rfl⟩

theorem sameTopic_dropSink (b : SweptBroker σ) (k : UInt64) :
    SameTopic t b (b.dropSink k).1 :=
  InMemoryBroker.dropSink_induction (P := SameTopic t b)
    (fun b' id h => h.trans (sameTopic_unsubscribe b' id)) (.refl t b)

/-! The subscriptions of a topic, call by call. -/

theorem Kept.mem_made (h : Kept n s) {entry : UInt64 × σ}
    (hentry : entry ∈ s.broker.fanout.subscribers t) : entry.1 ∈ s.made t :=
  h.filed entry.1 t entry.2 ((h.tidy.coherent.topics.mem t entry).mp hentry)

theorem Kept.subs_enter (h : Kept n s) (hn : n < 2 ^ 64) (intent : SubscribeIntent)
    (hf : b.fanout = (s.broker.fanout.subscribe topic intent sink).1) :
    State.subs ⟨b, Function.update s.made topic (s.made topic ++ [s.broker.fanout.seq + 1])⟩ t =
      if t = topic then s.subs t ++ [((s.made t).length, sink)] else s.subs t := by
  by_cases ht : t = topic
  · subst ht
    have hold : ∀ entry ∈ s.broker.fanout.subscribers t,
        (s.made t ++ [s.broker.fanout.seq + 1]).idxOf entry.1 = (s.made t).idxOf entry.1 :=
      fun entry hentry => List.idxOf_append_of_mem (h.mem_made hentry)
    have hnew : (s.made t ++ [s.broker.fanout.seq + 1]).idxOf (s.broker.fanout.seq + 1) =
        (s.made t).length := by
      rw [List.idxOf_append_of_notMem (h.fresh hn t)]
      simp
    simp only [if_true, State.subs, hf, FanoutEngine.subscribers_subscribe_self,
      Function.update_self, List.map_append, List.map_singleton, hnew]
    exact congrArg (· ++ _) (List.map_congr_left fun entry hentry => by rw [hold entry hentry])
  · simp only [if_neg ht, State.subs, hf, FanoutEngine.subscribers_subscribe_of_ne ht,
      Function.update_of_ne ht]

/-- The number of a subscription and its id say the same. -/
theorem Kept.idxOf_eq_iff (h : Kept n s) (hid : (s.made t)[nth]? = some id) {sid : UInt64} :
    (s.made t).idxOf sid = nth ↔ sid = id := by
  obtain ⟨hlt, hget⟩ := List.getElem?_eq_some_iff.mp hid
  constructor
  · rintro rfl
    rw [← hget]
    exact (List.getElem_idxOf hlt).symm
  · rintro rfl
    rw [← hget]
    exact (h.nodup t).idxOf_getElem nth hlt

theorem Kept.subs_unsubscribe_self (h : Kept n s) (hid : (s.made t)[nth]? = some id) :
    State.subs ⟨(s.broker.unsubscribe id).1, s.made⟩ t = (s.subs t).filter fun x => x.1 ≠ nth := by
  rw [State.subs, InMemoryBroker.fanout_unsubscribe,
    FanoutEngine.subscribers_unsubscribe h.tidy.coherent, State.subs, List.filter_map]
  refine congrArg _ (List.filter_congr ?_)
  intro entry _
  simp [h.idxOf_eq_iff hid]

/-- A subscription of one topic is none of another. -/
theorem Kept.subs_unsubscribe_of_ne (h : Kept n s) (hid : id ∈ s.made topic) (ht : t ≠ topic) :
    State.subs ⟨(s.broker.unsubscribe id).1, s.made⟩ t = s.subs t := by
  rw [State.subs, InMemoryBroker.fanout_unsubscribe,
    FanoutEngine.subscribers_unsubscribe h.tidy.coherent, State.subs, List.filter_eq_self.mpr]
  intro entry hentry
  refine decide_eq_true ?_
  rintro rfl
  exact ht (h.oneTopic t topic _ (h.mem_made hentry) hid)

theorem Kept.removed (h : Kept n s) (hid : (s.made t)[nth]? = some id) :
    (s.broker.unsubscribe id).2 = (s.subs t).any fun x => x.1 = nth := by
  have hmade : id ∈ s.made t := List.mem_of_getElem? hid
  cases hlive : s.broker.fanout.byId id with
  | none =>
    rw [InMemoryBroker.unsubscribe_unknown hlive, eq_comm, List.any_eq_false]
    intro x hx
    obtain ⟨entry, hentry, rfl⟩ := List.mem_map.mp hx
    have hfiled := (h.tidy.coherent.topics.mem t entry).mp hentry
    have hne : entry.1 ≠ id := by
      rintro rfl
      rw [hlive] at hfiled
      cases hfiled
    simpa [h.idxOf_eq_iff hid] using hne
  | some x =>
    obtain ⟨u, sink⟩ := x
    obtain rfl : u = t := h.oneTopic u t id (h.filed id u sink hlive) hmade
    rw [InMemoryBroker.unsubscribe_known hlive, eq_comm, List.any_eq_true]
    have hentry := (h.tidy.coherent.topics.mem u (id, sink)).mpr hlive
    exact ⟨_, List.mem_map.mpr ⟨_, hentry, rfl⟩,
      decide_eq_true ((h.idxOf_eq_iff hid).mpr rfl)⟩

theorem Kept.subs_dropSink (h : Kept n s) (k : UInt64) :
    State.subs ⟨(s.broker.dropSink k).1, s.made⟩ t =
      (s.subs t).filter fun x => FanoutSink.id x.2 ≠ k := by
  have hfanout : (s.broker.dropSink k).1.fanout = (s.broker.fanout.dropSink k).1 := rfl
  rw [State.subs, hfanout, FanoutEngine.subscribers_dropSink h.tidy.coherent, State.subs,
    List.filter_map]
  rfl

end

/-- A publish on another topic. -/
theorem sameTopic_publish (hf : f.topic ≠ some t) (b : SweptBroker σ) (now : Int64) :
    SameTopic t b (b.publish now f).1 := by
  cases ht : b.target now f with
  | none =>
    obtain ⟨e, hp, -⟩ := InMemoryBroker.publish_of_no_target ht
    rw [hp]
    exact .refl t b
  | some u =>
    have hne : t ≠ u := by
      rintro rfl
      exact hf (InMemoryBroker.topic_of_target ht).1
    have hprofile : (b.publish now f).1.store.profileOf (b.publish now f).1.defaultProfile t =
        b.store.profileOf b.defaultProfile t := InMemoryBroker.profileOf_publish
    have hpublishers : (b.publish now f).1.store.publishers t = b.store.publishers t := by
      obtain ⟨-, h⟩ | ⟨-, h⟩ := InMemoryBroker.publishers_publish ht
      · exact h t
      · simpa [hne] using h t
    obtain ⟨messageId, store, entry, -, -, ⟨-, hp⟩ | ⟨entry', b', outcome, offers, -, hr, hp⟩⟩ :=
      InMemoryBroker.publish_of_target ht
    · rw [hp] at hprofile hpublishers ⊢
      exact ⟨rfl, rfl, hprofile, hpublishers, rfl, rfl, fun _ => rfl⟩
    · rw [hp] at hprofile hpublishers ⊢
      cases hr
      refine ⟨rfl, rfl, hprofile, hpublishers, Function.update_of_ne hne .., ?_, ?_⟩
      · exact Function.update_of_ne hne ..
      · intro m
        have hkey : (t, m) ≠ (u, messageId) := fun heq => hne (Prod.mk.inj heq).1
        obtain ⟨-, -, h⟩ | ⟨-, -, h⟩ :=
          b.dedupe.checkAndRecord_cases now u messageId b.dedupeWindow
        · exact congrFun h (t, m)
        · exact (congrFun h (t, m)).trans (Function.update_of_ne hkey ..)

/-- The sweep takes what has expired by now, and so for every later call. -/
theorem SameRecord.sweep {records : Option Int64} {d : DedupeTable} {key : String × String}
    (hclock : ((Call.maintain now :: calls : List (Call σ)).filterMap Call.time).Pairwise (· ≤ ·))
    (h : SameRecord (.maintain now :: calls) (d.inner key) records) :
    SameRecord calls ((d.sweep now).1.inner key) records := by
  have hlater : ∀ now' ∈ calls.filterMap Call.time, now ≤ now' := by
    have hcons : (now :: calls.filterMap Call.time).Pairwise (· ≤ ·) := hclock
    exact (List.pairwise_cons.mp hcons).1
  rw [(d.sweep_spec now).2 key]
  obtain h | ⟨hnone, hexp⟩ := h.tail
  · cases he : d.inner key with
    | none => exact .inl (by rw [← h, he]; rfl)
    | some e =>
      rw [he] at h
      by_cases hle : now < e
      · exact .inl (by rw [← h, Option.filter_some, if_pos (decide_eq_true hle)])
      · refine .inr ⟨by rw [Option.filter_some, if_neg (by simpa using hle)], e, h.symm, ?_⟩
        intro now' hnow'
        exact Int64.le_trans (Int64.not_lt.mp hle) (hlater now' hnow')
  · exact .inr ⟨by rw [hnone]; rfl, hexp⟩

/-- A call that does not concern the topic leaves no trace on it. -/
theorem Shows.elsewhere [FanoutSink σ] (h : Shows t (call :: calls) s a) (hk : Kept n s)
    (hn : call.isSubscribe = true → n < 2 ^ 64)
    (hclock : ((call :: calls).filterMap Call.time).Pairwise (· ≤ ·))
    (hc : call.concerns t = false) : Shows t calls (s.serve call).1 a := by
  cases call with
  | publish now f =>
    have hf : f.topic ≠ some t := of_decide_eq_false hc
    have hfanout : (s.broker.publish now f).1.fanout = s.broker.fanout :=
      InMemoryBroker.fanout_publish now f
    have hshows : Shows t calls ⟨(s.broker.publish now f).1, s.made⟩ a := by
      refine h.of_same_subs (sameTopic_publish hf s.broker now) ?_ rfl
      rw [State.subs, hfanout, State.subs]
    exact hshows
  | subscribe topic intent sink =>
    have ht : t ≠ topic := fun heq => of_decide_eq_false hc heq.symm
    have hsame := sameTopic_subscribe (t := t) s.broker topic intent sink
    obtain ⟨store, ⟨e, hsub⟩ | hsub⟩ := s.broker.subscribe_cases topic intent sink
    · simp only [State.serve, State.subscribe, hsub] at hsame ⊢
      exact h.of_same_subs hsame rfl rfl
    · simp only [State.serve, State.subscribe, hsub] at hsame ⊢
      refine h.of_same_subs hsame ?_ (Function.update_of_ne ht ..)
      exact (hk.subs_enter (hn rfl) intent rfl).trans (if_neg ht)
  | unsubscribe topic nth =>
    have ht : t ≠ topic := fun heq => of_decide_eq_false hc heq.symm
    simp only [State.serve, State.unsubscribe]
    split
    · exact h.of_same_subs (.refl t _) rfl rfl
    · next id hid =>
      refine h.of_same_subs (sameTopic_unsubscribe s.broker id) ?_ rfl
      exact hk.subs_unsubscribe_of_ne (List.mem_of_getElem? hid) ht
  | dropSink k => cases hc
  | replay topic first last => exact h.of_same_subs (.refl t _) rfl rfl
  | headOffset topic => exact h.of_same_subs (.refl t _) rfl rfl
  | maintain now =>
    have hrest : Shows t calls s a := h.of_same_subs (.refl t _) rfl rfl
    exact { hrest with records := fun m => (h.records m).sweep hclock }

theorem Shows.validatePublish (h : Shows t calls s a) (ht : f.topic = some t) :
    s.broker.validatePublish now f = (a.checkFrame now f).map fun messageId => (t, messageId) := by
  unfold InMemoryBroker.validatePublish Topic.checkFrame
  rw [ht, h.maxPayloadBytes]
  cases f.messageId with
  | none => rfl
  | some messageId =>
    dsimp only
    split
    · rfl
    · split <;> rfl

/-- The dedupe store of the broker takes a message for new when the topic does. -/
theorem Shows.checkAndRecord (h : Shows t (.publish now f :: calls) s a) (messageId : String)
    (window : Nat) :
    (s.broker.dedupe.checkAndRecord now t messageId window).2 =
        (a.records messageId).all (· ≤ now) ∧
      ∀ m, SameRecord calls ((s.broker.dedupe.checkAndRecord now t messageId window).1.inner (t, m))
        ((if (a.records messageId).all (· ≤ now) then
          Function.update a.records messageId (some (now + Int64.ofNat window))
        else a.records) m) := by
  obtain ⟨hdup, ⟨e, he, hlt⟩, hinner⟩ | ⟨hnew, hexp, hinner⟩ :=
    s.broker.dedupe.checkAndRecord_cases now t messageId window
  · have hkept : a.records messageId = some e := by
      obtain hsame | ⟨hnone, -⟩ := h.records messageId
      · exact hsame.symm.trans he
      · cases hnone.symm.trans he
    have hall : (a.records messageId).all (· ≤ now) = false := by
      simpa [hkept] using hlt
    rw [hdup, hall]
    refine ⟨rfl, fun m => ?_⟩
    rw [hinner]
    exact (h.records m).tail
  · have hall : (a.records messageId).all (· ≤ now) = true := by
      obtain hsame | ⟨-, e, he, hlater⟩ := h.records messageId
      · rw [← hsame]
        cases he : s.broker.dedupe.inner (t, messageId) with
        | none => rfl
        | some e => simpa using hexp e he
      · simpa [he] using hlater now (List.mem_filterMap.mpr ⟨_, List.mem_cons_self, rfl⟩)
    rw [hnew, hall]
    refine ⟨rfl, fun m => ?_⟩
    rw [hinner, if_pos rfl]
    by_cases hm : m = messageId
    · subst hm
      exact .inl (by rw [Function.update_self, Function.update_self])
    · have hkey : (t, m) ≠ (t, messageId) := fun heq => hm (Prod.mk.inj heq).2
      rw [Function.update_of_ne hkey, Function.update_of_ne hm]
      exact (h.records m).tail

theorem zip_deliver {data : Bytes} :
    ((s.subs t).map Prod.fst).zip (s.broker.fanout.deliver t data) =
      (s.subs t).map fun x => (x.1, x.2, data) := by
  rw [State.subs, FanoutEngine.deliver, List.map_map, List.map_map, List.zip_map']
  rfl

/-- A message that took its slot gets the offset and the verdict the topic gives it. -/
theorem Shows.outcome_record {store : TopicStore} (h : Shows t (.publish now f :: calls) s a)
    {messageId : String} {profile : TopicProfile} {b' : SweptBroker σ} {outcome : PublishOutcome}
    {offers : List (σ × Bytes)}
    (hr : InMemoryBroker.record { s.broker with store } now f t messageId profile =
      (b', outcome, offers)) :
    outcome = ⟨a.next, !(a.records messageId).all (· ≤ now)⟩ := by
  have hfresh := (h.checkAndRecord messageId s.broker.dedupeWindow).1
  have hoffset : outcome.offset = a.next := by
    cases hr
    exact h.next
  have hduplicate : outcome.duplicate = !(a.records messageId).all (· ≤ now) := by
    cases hr
    exact congrArg (!·) hfresh
  rw [← hoffset, ← hduplicate]

/-- It is recorded as the topic records it. -/
theorem Shows.record {store : TopicStore} (h : Shows t (.publish now f :: calls) s a)
    (messageId : String) (hprofile : store.profileOf s.broker.defaultProfile t = a.profile)
    (hpublishers : store.publishers t = a.publishers + 1) {b' : SweptBroker σ}
    {outcome : PublishOutcome} {offers : List (σ × Bytes)}
    (hr : InMemoryBroker.record { s.broker with store } now f t messageId a.profile =
      (b', outcome, offers)) :
    Shows t calls ⟨b', s.made⟩ (a.accept now f messageId).1 ∧
      (a.accept now f messageId).2 =
        .published (.ok outcome) (((s.subs t).map Prod.fst).zip offers) := by
  obtain ⟨hfanout, hoffers⟩ := InMemoryBroker.offers_record hr
  have houtcome := h.outcome_record hr
  constructor
  · have hlog : b'.logOf t = retain now (InMemoryBroker.logEntry f messageId outcome.offset)
        (s.broker.logOf t ++ [InMemoryBroker.logEntry f messageId outcome.offset])
        a.profile.retention := by
      cases hr
      exact InMemoryBroker.logOf_append_self (b := s.broker) rfl
    have hnext : (b'.offsets.inner t).getD 1 = outcome.offset + 1 := by
      cases hr
      simp
    have hsubs : State.subs ⟨b', s.made⟩ t = s.subs t := by
      rw [State.subs, hfanout, State.subs]
    refine ⟨h.name, ?_, ?_, ?_, ?_, ?_, ?_, ?_, hsubs.trans h.subs, h.made⟩
    · cases hr
      exact h.dedupeWindow
    · cases hr
      exact h.maxPayloadBytes
    · cases hr
      exact hprofile
    · cases hr
      exact hpublishers
    · rw [hnext, houtcome]
      rfl
    · rw [hlog, houtcome, h.log]
      rfl
    · intro m
      have hrecord := (h.checkAndRecord messageId s.broker.dedupeWindow).2 m
      rw [Topic.accept, ← h.dedupeWindow]
      cases hr
      exact hrecord
  · rw [Topic.accept, hoffers, houtcome, ← h.subs]
    cases (a.records messageId).all (· ≤ now) with
    | false => simp
    | true => simp [zip_deliver]

/-- A frame that passes the checks is refused at the publisher limit or recorded. -/
theorem Shows.publish_of_target [FanoutSink σ] {messageId : String}
    (h : Shows a.name (.publish now f :: calls) s a) (htopic : f.topic = some a.name)
    (hv : s.broker.validatePublish now f = .ok (a.name, messageId))
    (hname : validateName a.name = .ok ()) (hcheck : a.checkFrame now f = .ok messageId) :
    Shows a.name calls (s.serve (.publish now f)).1 (a.publish now f).1 ∧
      (a.publish now f).2 = (s.serve (.publish now f)).2 := by
  have htarget : s.broker.target now f = some a.name := by
    simp only [InMemoryBroker.target, hv, hname]
  obtain ⟨messageId', store, entry, hv', hg, hcases⟩ := InMemoryBroker.publish_of_target htarget
  cases hv.symm.trans hv'
  have hprofile : entry.profile = a.profile :=
    (TopicStore.profile_of_getOrCreate hg).trans h.profile
  have hcount : entry.publisherCount.toNat = a.publishers :=
    (TopicStore.publisherCount_of_getOrCreate hg).trans h.publishers
  obtain ⟨hfull, hp⟩ | ⟨entry', b', outcome, offers, hi, hr, hp⟩ := hcases
  · rw [TopicEntry.tryIncPublisher, Option.map_eq_none_iff, tryInc_eq_none_iff, hprofile,
      hcount] at hfull
    simp only [State.serve, hp, Topic.publish, hcheck, hname, if_pos hfull, List.zip_nil_right]
    refine ⟨h.of_same_subs ⟨rfl, rfl, ?_, ?_, rfl, rfl, fun _ => rfl⟩ rfl rfl, trivial⟩
    · exact TopicStore.profileOf_getOrCreate hg
    · exact TopicStore.publishers_getOrCreate hg
  · simp only [TopicEntry.tryIncPublisher, Option.map_eq_some_iff] at hi
    obtain ⟨count, hinc, rfl⟩ := hi
    have hroom : ¬ a.profile.maxPublishers.toNat ≤ a.publishers := by
      rw [← hprofile, ← hcount, ← tryInc_eq_none_iff, hinc]
      simp
    simp only [State.serve, hp, Topic.publish, hcheck, hname, if_neg hroom, htopic,
      Option.getD_some]
    rw [hprofile] at hr
    refine h.record messageId ?_ ?_ hr
    · exact ((TopicStore.profileOf_put (TopicStore.get_of_getOrCreate hg) hprofile.symm).trans
        (TopicStore.profileOf_getOrCreate hg)).trans h.profile
    · rw [TopicStore.publishers_put_self, toNat_of_tryInc hinc, hcount]

theorem Shows.publish [FanoutSink σ] (h : Shows t (.publish now f :: calls) s a)
    (ht : f.topic = some t) :
    Shows t calls (s.serve (.publish now f)).1 (a.publish now f).1 ∧
      (a.publish now f).2 = (s.serve (.publish now f)).2 := by
  obtain rfl := h.name
  have hv : s.broker.validatePublish now f =
      (a.checkFrame now f).map fun messageId => (a.name, messageId) := h.validatePublish ht
  have hrest : Shows a.name calls s a := h.of_same_subs (.refl _ _) rfl rfl
  cases hcheck : a.checkFrame now f with
  | error e =>
    rw [hcheck] at hv
    have hp : s.broker.publish now f = (s.broker, .error e, []) := by
      simp only [InMemoryBroker.publish, hv, Except.map]
    simp only [State.serve, hp, Topic.publish, hcheck, List.zip_nil_right]
    exact ⟨hrest, trivial⟩
  | ok messageId =>
    rw [hcheck] at hv
    cases hname : validateName a.name with
    | error e =>
      have hp : s.broker.publish now f = (s.broker, .error e, []) := by
        simp only [InMemoryBroker.publish, hv, Except.map, hname]
      simp only [State.serve, hp, Topic.publish, hcheck, hname, List.zip_nil_right]
      exact ⟨hrest, trivial⟩
    | ok _ => exact h.publish_of_target ht hv hname hcheck

theorem Shows.subscribe [FanoutSink σ] (h : Shows t (.subscribe t intent sink :: calls) s a)
    (hk : Kept n s) (hn : n < 2 ^ 64) :
    Shows t calls (s.subscribe t intent sink).1 (a.subscribe sink).1 ∧
      (a.subscribe sink).2 = (s.subscribe t intent sink).2 := by
  obtain rfl := h.name
  have hsame := sameTopic_subscribe (t := a.name) s.broker a.name intent sink
  cases hname : validateName a.name with
  | error e =>
    simp only [State.subscribe, InMemoryBroker.subscribe_of_bad_name hname, Topic.subscribe, hname]
    exact ⟨h.of_same_subs (.refl _ _) rfl rfl, trivial⟩
  | ok _ =>
    obtain ⟨store, entry, hg, hcases⟩ :=
      InMemoryBroker.subscribe_of_name (b := s.broker) hname intent sink
    have hprofile : entry.profile = a.profile :=
      (TopicStore.profile_of_getOrCreate hg).trans h.profile
    have hcount : entry.subscriberCount.toNat = a.subs.length := by
      rw [TopicStore.subscriberCount_of_getOrCreate hg, hk.tidy.counted, ← h.subs, State.subs,
        List.length_map]
    obtain ⟨hfull, hsub⟩ | ⟨entry', hi, hsub⟩ := hcases
    · rw [TopicEntry.tryIncSubscriber, Option.map_eq_none_iff, tryInc_eq_none_iff, hprofile,
        hcount] at hfull
      rw [hsub] at hsame
      simp only [State.subscribe, hsub, Topic.subscribe, hname, if_pos hfull]
      exact ⟨h.of_same_subs hsame rfl rfl, trivial⟩
    · have hroom : ¬ a.profile.maxSubscribers.toNat ≤ a.subs.length := by
        simp only [TopicEntry.tryIncSubscriber, Option.map_eq_some_iff] at hi
        obtain ⟨count, hinc, -⟩ := hi
        rw [← hprofile, ← hcount, ← tryInc_eq_none_iff, hinc]
        simp
      have hsubs := hk.subs_enter (t := a.name) hn intent (congrArg (·.1.fanout) hsub)
      rw [if_pos rfl, h.subs, h.made] at hsubs
      have hshows := h.of_same hsame
        (Function.update s.made a.name (s.made a.name ++ [s.broker.fanout.seq + 1]))
      rw [hsubs, Function.update_self, List.length_append, h.made, hsub] at hshows
      simp only [State.subscribe, hsub, Topic.subscribe, hname, if_neg hroom, h.made]
      exact ⟨hshows, trivial⟩

theorem Kept.lt_of_mem_subs [FanoutSink σ] (h : Kept n s) {x : Nat × σ} (hx : x ∈ s.subs t) :
    x.1 < (s.made t).length := by
  obtain ⟨entry, hentry, rfl⟩ := List.mem_map.mp hx
  exact List.idxOf_lt_length_of_mem (h.mem_made hentry)

theorem Shows.unsubscribe [FanoutSink σ] (h : Shows t (call :: calls) s a) (hk : Kept n s) :
    Shows t calls (s.unsubscribe t nth).1 { a with subs := a.subs.filter fun x => x.1 ≠ nth } ∧
      .unsubscribed (a.subs.any fun x => x.1 = nth) = (s.unsubscribe t nth).2 := by
  unfold State.unsubscribe
  split
  · next hnone =>
    have hne : ∀ x ∈ a.subs, x.1 ≠ nth := by
      intro x hx
      rw [← h.subs] at hx
      exact Nat.ne_of_lt (Nat.lt_of_lt_of_le (hk.lt_of_mem_subs hx)
        (List.getElem?_eq_none_iff.mp hnone))
    have hfilter : a.subs.filter (fun x => x.1 ≠ nth) = a.subs := by
      simpa [List.filter_eq_self] using hne
    have hany : (a.subs.any fun x => x.1 = nth) = false := by
      simpa using hne
    rw [hfilter, hany]
    exact ⟨h.of_same_subs (.refl t _) rfl rfl, rfl⟩
  · next id hid =>
    have hshows := h.of_same (sameTopic_unsubscribe s.broker id) s.made
    rw [hk.subs_unsubscribe_self hid, h.subs, h.made] at hshows
    rw [← h.subs, ← hk.removed hid, h.subs]
    exact ⟨hshows, rfl⟩

/-- The broker answers a call that concerns the topic as the topic does. -/
theorem Shows.here [FanoutSink σ] (h : Shows t (call :: calls) s a) (hk : Kept n s)
    (hn : call.isSubscribe = true → n < 2 ^ 64) (hc : call.concerns t = true) :
    Shows t calls (s.serve call).1 (a.serve call).1 ∧ (a.serve call).2 = (s.serve call).2 := by
  have hrest : Shows t calls s a := h.of_same_subs (.refl t _) rfl rfl
  cases call with
  | publish now f => exact h.publish (of_decide_eq_true hc)
  | subscribe topic intent sink =>
    obtain rfl : topic = t := of_decide_eq_true hc
    exact h.subscribe hk (hn rfl)
  | unsubscribe topic nth =>
    obtain rfl : topic = t := of_decide_eq_true hc
    exact h.unsubscribe hk
  | dropSink k =>
    have hshows := h.of_same (sameTopic_dropSink s.broker k) s.made
    rw [hk.subs_dropSink k, h.subs, h.made] at hshows
    exact ⟨hshows, rfl⟩
  | replay topic first last =>
    obtain rfl : topic = t := of_decide_eq_true hc
    refine ⟨hrest, ?_⟩
    rw [Topic.serve, ← h.log]
    rfl
  | headOffset topic =>
    obtain rfl : topic = t := of_decide_eq_true hc
    refine ⟨hrest, ?_⟩
    rw [Topic.serve, ← h.next, ← head_eq]
    rfl
  | maintain now => cases hc

section

variable [FanoutSink σ]

/-- The broker and the topic by itself, with the calls that are still to come: the clock
does not run back, and the ids last. -/
structure Related (t : String) (calls : List (Call σ)) (s : State σ) (a : Topic σ) : Prop where
  topic : Shows t calls s a
  clock : (calls.filterMap Call.time).Pairwise (· ≤ ·)
  kept : ∃ n, n + calls.countP Call.isSubscribe ≤ 2 ^ 64 ∧ Kept n s

theorem Related.kept_next (h : Related t (call :: calls) s a) :
    (∃ n, Kept n s ∧ (call.isSubscribe = true → n < 2 ^ 64)) ∧
      ∃ n, n + calls.countP Call.isSubscribe ≤ 2 ^ 64 ∧ Kept n (s.serve call).1 := by
  obtain ⟨n, hle, hk⟩ := h.kept
  rw [List.countP_cons] at hle
  have hn : call.isSubscribe = true → n < 2 ^ 64 := by
    intro hsub
    rw [if_pos hsub] at hle
    omega
  obtain ⟨m, hm, hk'⟩ := kept_serve hk hn
  exact ⟨⟨n, hk, hn⟩, m, by omega, hk'⟩

omit [FanoutSink σ] in
theorem clock_tail (h : ((call :: calls).filterMap Call.time).Pairwise (· ≤ ·)) :
    (calls.filterMap Call.time).Pairwise (· ≤ ·) :=
  h.sublist ((List.sublist_cons_self call calls).filterMap Call.time)

/-- The broker answers what concerns the topic as the topic does by itself. -/
theorem Related.here (h : Related t (call :: calls) s a) (hc : call.concerns t = true) :
    Related t calls (s.serve call).1 (a.serve call).1 ∧
      (a.serve call).2 = (s.serve call).2 := by
  obtain ⟨⟨n, hk, hn⟩, hkept⟩ := h.kept_next
  obtain ⟨hshows, hanswer⟩ := h.topic.here hk hn hc
  exact ⟨⟨hshows, clock_tail h.clock, hkept⟩, hanswer⟩

theorem Related.elsewhere (h : Related t (call :: calls) s a) (hc : call.concerns t = false) :
    Related t calls (s.serve call).1 a := by
  obtain ⟨⟨n, hk, hn⟩, hkept⟩ := h.kept_next
  exact ⟨h.topic.elsewhere hk hn h.clock hc, clock_tail h.clock, hkept⟩

theorem related_new (t : String) (profile : TopicProfile) (window maxPayloadBytes : Nat)
    (hclock : (calls.filterMap Call.time).Pairwise (· ≤ ·))
    (hsubs : calls.countP Call.isSubscribe ≤ 2 ^ 64) :
    Related t calls (.new profile window maxPayloadBytes)
      (.new t profile window maxPayloadBytes) :=
  ⟨shows_new t calls profile window maxPayloadBytes, hclock, 0, by omega,
    kept_new profile window maxPayloadBytes⟩

/-- Topics are isolated: in a run with a clock that does not run back and no more than
2^64 subscribes, leaving out the calls on other topics and the maintenance changes no
outcome that concerns a topic. -/
theorem topic_isolation (profile : TopicProfile) (window maxPayloadBytes : Nat)
    (calls : List (Call σ)) (hclock : (calls.filterMap Call.time).Pairwise (· ≤ ·))
    (hsubs : calls.countP Call.isSubscribe ≤ 2 ^ 64) (t : String) :
    ((Transition.transcript State.serve (.new profile window maxPayloadBytes) calls).filter
        fun x => x.1.concerns t).map Prod.snd =
      Transition.answers State.serve (.new profile window maxPayloadBytes)
        (calls.filter fun c => c.concerns t) := by
  have hsublist : List.Sublist (calls.filter fun c => c.concerns t) calls := List.filter_sublist
  refine Transition.answers_filter_eq (R := Related t) (fun _ _ _ _ hc h => h.here hc)
    (fun _ _ _ _ hc h => h.elsewhere hc) (related_new t profile window maxPayloadBytes hclock hsubs)
    (related_new t profile window maxPayloadBytes ?_ ?_)
  · exact hclock.sublist (hsublist.filterMap Call.time)
  · exact hsublist.countP_le.trans hsubs

end

/-- Three subscriptions on two topics, one of them cancelled and one dropped with its sink,
and a message that is sent before and after its record expires, with a sweep each time. -/
def twoTopics : List (Call MpscSink) :=
  [.subscribe "u" .live ⟨1, 8, .json⟩, .subscribe "t" .live ⟨0, 7, .json⟩,
    .subscribe "t" .live ⟨1, 8, .json⟩,
    .publish 0 { topic := some "t", messageId := some "m" }, .maintain 5,
    .publish 5 { topic := some "u", messageId := some "m" }, .unsubscribe "u" 0,
    .publish 9 { topic := some "t", messageId := some "m" }, .dropSink 8, .maintain 12,
    .publish 12 { topic := some "t", messageId := some "m" }, .headOffset "t"]

theorem two_topics_isolated :
    (Transition.answers State.serve (.new {} 10 100 : State MpscSink)
        (twoTopics.filter fun c => c.concerns "t")).length = 7 ∧
      ((Transition.transcript State.serve (.new {} 10 100) twoTopics).filter
          fun x => x.1.concerns "t").map Prod.snd =
        Transition.answers State.serve (.new {} 10 100)
          (twoTopics.filter fun c => c.concerns "t") :=
  ⟨by rw [Transition.length_answers]; decide,
    topic_isolation {} 10 100 twoTopics (by decide) (by decide) "t"⟩

section Wrap

def firstCalls : List (Call MpscSink) :=
  [.subscribe "t" .live ⟨0, 7, .json⟩, .subscribe "u" .live ⟨1, 8, .json⟩, .unsubscribe "u" 0]

/-- Subscription 1 is on "t", and there was one on "u". -/
def sharing : SweptBroker MpscSink :=
  (Transition.after State.serve (.new {} 10 100) firstCalls).broker

theorem fanout_sharing : sharing.fanout =
    (((FanoutEngine.new.subscribe "t" .live (⟨0, 7, .json⟩ : MpscSink)).1.subscribe "u" .live
      ⟨1, 8, .json⟩).1.unsubscribe 2).1 := rfl

theorem byId_sharing (hid : id ≠ 1) : sharing.fanout.byId id = none := by
  rw [fanout_sharing, FanoutEngine.byId_unsubscribe]
  by_cases htwo : id = 2
  · exact if_pos htwo
  · rw [if_neg htwo, FanoutEngine.byId_subscribe, FanoutEngine.byId_subscribe]
    exact (if_neg htwo).trans (if_neg hid)

theorem coherent_sharing (n : UInt64) : (sharing.atSeq n).fanout.Coherent := by
  have hc : sharing.fanout.Coherent := by
    rw [fanout_sharing]
    exact FanoutEngine.coherent_unsubscribe (FanoutEngine.coherent_subscribe
      (FanoutEngine.coherent_subscribe FanoutEngine.coherent_new rfl) rfl)
  exact ⟨hc.topics, hc.sinks⟩

/-- Another subscription on "u" comes and goes, as long as its id is not 1. -/
theorem serve_round {seq : UInt64} {made : String → List UInt64} (hseq : seq ≠ 0) :
    ((State.serve (State.serve ⟨sharing.atSeq seq, made⟩ (.subscribe "u" .live ⟨1, 8, .json⟩)).1
        (.unsubscribe "u" (made "u").length)).1 : State MpscSink) =
      ⟨sharing.atSeq (seq + 1), Function.update made "u" (made "u" ++ [seq + 1])⟩ := by
  obtain ⟨entry, hg, hroom⟩ : ∃ entry, (sharing.atSeq seq).store.get "u" = some entry ∧
      entry.subscriberCount < entry.profile.maxSubscribers := ⟨_, rfl, by decide⟩
  have hfresh : (sharing.atSeq seq).fanout.byId (seq + 1) = none :=
    byId_sharing (add_one_ne_one hseq)
  have hback : (((sharing.atSeq seq).subscribe "u" .live ⟨1, 8, .json⟩).1.unsubscribe
      (seq + 1)).1 = sharing.atSeq (seq + 1) :=
    InMemoryBroker.unsubscribe_subscribe rfl hg hroom (coherent_sharing seq) hfresh
  have hsub : State.serve ⟨sharing.atSeq seq, made⟩ (.subscribe "u" .live ⟨1, 8, .json⟩) =
      (⟨((sharing.atSeq seq).subscribe "u" .live ⟨1, 8, .json⟩).1,
        Function.update made "u" (made "u" ++ [seq + 1])⟩,
        .subscribed (.ok (made "u").length)) := by
    have hok : (sharing.atSeq seq).subscribe "u" .live ⟨1, 8, .json⟩ = _ :=
      InMemoryBroker.subscribe_of_room rfl hg hroom
    simp only [State.serve, State.subscribe, hok]
    rfl
  have hid : (Function.update made "u" (made "u" ++ [seq + 1]) "u")[(made "u").length]? =
      some (seq + 1) := by
    rw [Function.update_self]
    simp
  rw [hsub]
  simp only [State.serve, State.unsubscribe, hid, hback]

/-- Calls that make `k` subscriptions, all but the first on "u", and use no clock. -/
structure Rounds (k : Nat) (calls : List (Call MpscSink)) (made : String → List UInt64) : Prop where
  after : Transition.after State.serve (.new {} 10 100) calls = ⟨sharing.atSeq (.ofNat k), made⟩
  made : made "t" = [1]
  subscribes : calls.countP Call.isSubscribe = k
  times : calls.filterMap Call.time = []
  concerning : (calls.filter fun c => c.concerns "t") = [.subscribe "t" .live ⟨0, 7, .json⟩]

theorem rounds_to_seq (k : Nat) (hk : k + 2 ≤ 2 ^ 64) :
    ∃ calls made, Rounds (k + 2) calls made := by
  induction k with
  | zero => exact ⟨firstCalls, _, rfl, by decide, by decide, by decide, rfl⟩
  | succ k ih =>
    obtain ⟨calls, made, hr⟩ := ih (by omega)
    have hseq : UInt64.ofNat (k + 2) ≠ 0 := ofNat_succ_ne_zero (by omega)
    refine ⟨(calls ++ [.subscribe "u" .live ⟨1, 8, .json⟩]) ++ [.unsubscribe "u" (made "u").length],
      Function.update made "u" (made "u" ++ [.ofNat (k + 2) + 1]), ?_, ?_, ?_, ?_, ?_⟩
    · rw [Transition.after_concat, Transition.after_concat, hr.after, serve_round hseq]
      exact congrArg (fun seq => State.mk (sharing.atSeq seq) _) (UInt64.ofNat_add (k + 2) 1).symm
    · rw [Function.update_of_ne (by decide)]
      exact hr.made
    · rw [List.countP_append, List.countP_append, hr.subscribes]
      rfl
    · rw [List.filterMap_append, List.filterMap_append, hr.times]
      rfl
    · rw [List.filter_append, List.filter_append, hr.concerning]
      rfl

def lastFrame : Frame := { topic := some "t", messageId := some "m" }

/-- The subscription on "u" has the id of the one on "t". Cancelling that one cancels
the other, and the message on "t" is still delivered. -/
theorem serve_reused {made : String → List UInt64} (hmade : made "t" = [1]) :
    (State.serve (State.serve (State.serve ⟨sharing.atSeq 0, made⟩
        (.subscribe "u" .live ⟨1, 8, .json⟩)).1 (.unsubscribe "t" 0)).1 (.publish 0 lastFrame)).2 =
      .published (.ok ⟨1, false⟩)
        [(0, ⟨0, 7, .json⟩, serializeFrameForFanout lastFrame 1)] := by
  have hmade' : Function.update made "u" (made "u" ++ [1]) "t" = [1] := by
    rw [Function.update_of_ne (by decide), hmade]
  have hsub : (State.serve ⟨sharing.atSeq 0, made⟩ (.subscribe "u" .live ⟨1, 8, .json⟩)).1 =
      ⟨((sharing.atSeq 0).subscribe "u" .live ⟨1, 8, .json⟩).1,
        Function.update made "u" (made "u" ++ [1])⟩ := rfl
  have hun : (State.serve ⟨((sharing.atSeq 0).subscribe "u" .live ⟨1, 8, .json⟩).1,
        Function.update made "u" (made "u" ++ [1])⟩ (.unsubscribe "t" 0)).1 =
      ⟨(((sharing.atSeq 0).subscribe "u" .live ⟨1, 8, .json⟩).1.unsubscribe 1).1,
        Function.update made "u" (made "u" ++ [1])⟩ := by
    simp only [State.serve, State.unsubscribe, hmade']
    rfl
  have htopic : lastFrame.topic.getD "" = "t" := rfl
  rw [hsub, hun]
  simp only [State.serve, State.subs, htopic, hmade']
  rfl

/-- After 2^64 subscribes the first id is given out again, on another topic. The
subscription that had it can no longer be cancelled and still gets messages. -/
theorem reused_id_reaches_other_topic :
    ∃ calls : List (Call MpscSink), calls.countP Call.isSubscribe = 2 ^ 64 + 1 ∧
      (calls.filterMap Call.time).Pairwise (· ≤ ·) ∧
      ((Transition.transcript State.serve (.new {} 10 100) calls).filter
          fun x => x.1.concerns "t").map Prod.snd ≠
        Transition.answers State.serve (.new {} 10 100)
          (calls.filter fun c => c.concerns "t") := by
  obtain ⟨calls, made, hr⟩ := rounds_to_seq (2 ^ 64 - 2) (by omega)
  have hafter : Transition.after State.serve (.new {} 10 100) calls =
      ⟨sharing.atSeq 0, made⟩ := hr.after
  refine ⟨calls ++ [.subscribe "u" .live ⟨1, 8, .json⟩] ++ [.unsubscribe "t" 0] ++
    [.publish 0 lastFrame], ?_, ?_, ?_⟩
  · simp only [List.countP_append, hr.subscribes]
    rfl
  · simp only [List.filterMap_append, hr.times]
    decide
  · have hlast : (((Transition.transcript State.serve (.new {} 10 100)
        (calls ++ [.subscribe "u" .live ⟨1, 8, .json⟩] ++ [.unsubscribe "t" 0] ++
          [.publish 0 lastFrame])).filter fun x => x.1.concerns "t").map Prod.snd).getLast? =
        some (.published (.ok ⟨1, false⟩)
          [(0, ⟨0, 7, .json⟩, serializeFrameForFanout lastFrame 1)]) := by
      rw [Transition.transcript_concat, Transition.after_concat, Transition.after_concat, hafter,
        serve_reused hr.made, List.filter_append, List.map_append, List.getLast?_append]
      rfl
    intro heq
    rw [heq] at hlast
    simp only [List.filter_append, hr.concerning] at hlast
    revert hlast
    decide

end Wrap

end Rifts.Isolation
