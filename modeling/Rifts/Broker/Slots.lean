import Rifts.Broker.Delivery

/-! The subscriber count of a topic is the length of its list in the fanout engine,
when the calls on a broker come one after the other. -/
namespace Rifts.InMemoryBroker

variable {O L D S σ : Type} {b : InMemoryBroker O L D S σ} {t topic : String} {id k : UInt64}
  {sink : σ} {intent : SubscribeIntent}

/-- The broker's own answer is read off the fanout engine. -/
def subscriberCount (b : InMemoryBroker O L D S σ) (topic : String) : Nat :=
  (b.fanout.subscribers topic).length

/-- The slots of the topic are held by its subscriptions. -/
def CountedAt (b : InMemoryBroker O L D S σ) (t : String) : Prop :=
  b.store.subscribers t = (b.fanout.subscribers t).length

/-- Every subscription holds one slot of its topic, and every slot is held. -/
def Counted (b : InMemoryBroker O L D S σ) : Prop := ∀ t, b.CountedAt t

variable [FanoutSink σ]

theorem unsubscribe_unknown (h : b.fanout.byId id = none) : b.unsubscribe id = (b, false) := by
  simp only [unsubscribe, FanoutEngine.unsubscribe_unknown h]

theorem unsubscribe_known (h : b.fanout.byId id = some (topic, sink)) :
    b.unsubscribe id = ({ b with
      fanout := (b.fanout.unsubscribe id).1, store := releaseSubscriber b.store topic }, true) := by
  simp only [unsubscribe, FanoutEngine.unsubscribe, h]

/-- The engine's removals come first and the slots are given back afterwards. That is
the same as unsubscribing one id after the other. -/
theorem foldl_unsubscribe (ids : List UInt64) (topics : List String) (e : FanoutEngine σ) :
    ids.foldl (fun b id => (unsubscribe b id).1)
        { b with fanout := e, store := topics.foldl releaseSubscriber b.store } =
      { b with
        fanout := (e.removeAll ids topics).1
        store := (e.removeAll ids topics).2.foldl releaseSubscriber b.store } := by
  induction ids generalizing e topics with
  | nil => rfl
  | cons id ids ih =>
    rw [List.foldl_cons]
    cases h : e.byId id with
    | none =>
      rw [FanoutEngine.removeAll_unknown h, unsubscribe_unknown h]
      exact ih topics e
    | some entry =>
      obtain ⟨topic, sink⟩ := entry
      rw [FanoutEngine.removeAll_known h, unsubscribe_known h, ← ih]
      simp only [List.foldl_append, List.foldl_cons, List.foldl_nil]

theorem dropSink_eq_foldl :
    (b.dropSink k).1 = (b.fanout.held k).foldl (fun b id => (unsubscribe b id).1) b :=
  (foldl_unsubscribe (b.fanout.held k) [] b.fanout).symm

/-- What an unsubscribe keeps, `drop_sink` keeps. -/
theorem dropSink_induction {P : InMemoryBroker O L D S σ → Prop}
    (hstep : ∀ b id, P b → P (unsubscribe b id).1) (h : P b) : P (b.dropSink k).1 := by
  rw [dropSink_eq_foldl]
  exact List.foldlRecOn (motive := P) _ _ h fun b hb id _ => hstep b id hb

theorem subscribe_of_bad_name {e : RiftError} (hname : validateName t = .error e) :
    b.subscribe t intent sink = (b, .error e) := by
  simp only [subscribe, hname]

/-- A subscribe to a topic with a good name is refused at its limit, or takes a slot. -/
theorem subscribe_of_name (hname : validateName t = .ok ()) (intent : SubscribeIntent) (sink : σ) :
    ∃ store entry, b.store.getOrCreate t b.defaultProfile = .ok (store, entry) ∧
      ((entry.tryIncSubscriber = none ∧ b.subscribe t intent sink =
          ({ b with store }, .error (.topic (.subscriberLimit t)))) ∨
        ∃ entry', entry.tryIncSubscriber = some entry' ∧ b.subscribe t intent sink =
          ({ b with
              store := store.put t entry', fanout := (b.fanout.subscribe t intent sink).1 },
            .ok (b.fanout.seq + 1))) := by
  cases hg : b.store.getOrCreate t b.defaultProfile with
  | error e =>
    have := TopicStore.getOrCreate_error hg
    simp [hname] at this
  | ok r =>
    obtain ⟨store, entry⟩ := r
    refine ⟨store, entry, rfl, ?_⟩
    cases hi : entry.tryIncSubscriber with
    | none => exact .inl ⟨rfl, by simp only [subscribe, hname, hg, hi]⟩
    | some entry' =>
      refine .inr ⟨entry', rfl, ?_⟩
      simp only [subscribe, hname, hg, hi]
      rfl

/-- Below the limit of a topic a subscribe under a good name is entered. -/
theorem subscribe_of_slot (hname : validateName t = .ok ())
    (hslot : b.store.subscribers t < (b.store.profileOf b.defaultProfile t).maxSubscribers.toNat)
    (intent : SubscribeIntent) (sink : σ) :
    ∃ store, b.subscribe t intent sink =
      ({ b with store, fanout := (b.fanout.subscribe t intent sink).1 },
        .ok (b.fanout.seq + 1)) := by
  obtain ⟨store, entry, hg, ⟨hfull, -⟩ | ⟨entry', -, hsub⟩⟩ :=
    subscribe_of_name (b := b) hname intent sink
  · rw [TopicEntry.tryIncSubscriber, Option.map_eq_none_iff, tryInc_eq_none_iff,
      TopicStore.profile_of_getOrCreate hg, TopicStore.subscriberCount_of_getOrCreate hg] at hfull
    exact absurd hslot (Nat.not_lt.mpr hfull)
  · exact ⟨_, hsub⟩

/-- At the limit of a topic a subscribe is refused, and no count changes. -/
theorem subscribe_of_full (hname : validateName t = .ok ())
    (hfull : (b.store.profileOf b.defaultProfile t).maxSubscribers.toNat ≤ b.store.subscribers t)
    (intent : SubscribeIntent) (sink : σ) :
    ∃ store, b.subscribe t intent sink =
        ({ b with store }, .error (.topic (.subscriberLimit t))) ∧
      ∀ u, store.subscribers u = b.store.subscribers u := by
  obtain ⟨store, entry, hg, ⟨-, hsub⟩ | ⟨entry', hi, -⟩⟩ :=
    subscribe_of_name (b := b) hname intent sink
  · exact ⟨store, hsub, fun u => TopicStore.subscribers_getOrCreate hg⟩
  · have hnone : tryInc entry.subscriberCount entry.profile.maxSubscribers = none := by
      rwa [tryInc_eq_none_iff, TopicStore.profile_of_getOrCreate hg,
        TopicStore.subscriberCount_of_getOrCreate hg]
    simp [TopicEntry.tryIncSubscriber, hnone] at hi

theorem countedAt_subscribe {u : String} (h : CountedAt b u) :
    CountedAt (b.subscribe t intent sink).1 u := by
  cases hname : validateName t with
  | error e =>
    rw [subscribe_of_bad_name hname]
    exact h
  | ok _ =>
    obtain ⟨store, entry, hg, ⟨-, hsub⟩ | ⟨entry', hi, hsub⟩⟩ :=
      subscribe_of_name (b := b) hname intent sink
    · rw [hsub]
      exact (TopicStore.subscribers_getOrCreate hg).trans h
    · rw [hsub]
      simp only [TopicEntry.tryIncSubscriber, Option.map_eq_some_iff] at hi
      obtain ⟨n, hn, rfl⟩ := hi
      unfold CountedAt at h ⊢
      by_cases ht : u = t
      · subst ht
        rw [TopicStore.subscribers_put_self, FanoutEngine.subscribers_subscribe_self,
          List.length_append, ← h, toNat_of_tryInc hn,
          TopicStore.subscriberCount_of_getOrCreate hg]
        rfl
      · rw [TopicStore.subscribers_put_of_ne ht, FanoutEngine.subscribers_subscribe_of_ne ht,
          ← h]
        exact TopicStore.subscribers_getOrCreate hg

/-- The id of a subscription marks one entry of its topic's list. -/
theorem length_subscribers_unsubscribe (hc : b.fanout.Coherent)
    (hid : b.fanout.byId id = some (topic, sink)) :
    ((b.fanout.unsubscribe id).1.subscribers topic).length + 1 =
      (b.fanout.subscribers topic).length := by
  have hone := (hc.listedOnce_iff.mp hid).1
  have hsplit := List.length_eq_length_filter_add (l := b.fanout.subscribers topic)
    fun entry => decide (entry.1 = id)
  rw [hone, List.length_singleton] at hsplit
  rw [FanoutEngine.subscribers_unsubscribe hc, hsplit, Nat.add_comm]
  simp

/-- The topic of a subscription has a slot to give back, when its slots are counted. -/
theorem CountedAt.pos (hc : b.fanout.Coherent) (hid : b.fanout.byId id = some (topic, sink))
    (h : CountedAt b topic) : 0 < b.store.subscribers topic := by
  have hlen := length_subscribers_unsubscribe hc hid
  unfold CountedAt at h
  omega

theorem countedAt_unsubscribe {u : String} (hc : b.fanout.Coherent) (h : CountedAt b u) :
    CountedAt (b.unsubscribe id).1 u := by
  cases hid : b.fanout.byId id with
  | none =>
    rw [unsubscribe_unknown hid]
    exact h
  | some entry =>
    obtain ⟨topic, sink⟩ := entry
    rw [unsubscribe_known hid]
    by_cases ht : u = topic
    · subst ht
      have hu := subscribers_releaseSubscriber (h.pos hc hid) u
      rw [if_pos rfl, h] at hu
      exact Nat.succ.inj (hu.trans (length_subscribers_unsubscribe hc hid).symm)
    · exact (subscribers_releaseSubscriber_of_ne ht).trans
        (h.trans (congrArg List.length (FanoutEngine.subscribers_unsubscribe_of_ne hid ht)).symm)

omit [FanoutSink σ] in
theorem profileOf_releaseSubscriber {st : TopicStore} {p : TopicProfile} {u : String} :
    (releaseSubscriber st t).profileOf p u = st.profileOf p u := by
  unfold releaseSubscriber
  split
  · next hg => exact TopicStore.profileOf_put hg rfl
  · rfl

theorem profileOf_subscribe {u : String} :
    (b.subscribe t intent sink).1.store.profileOf b.defaultProfile u =
      b.store.profileOf b.defaultProfile u := by
  cases hname : validateName t with
  | error e => rw [subscribe_of_bad_name hname]
  | ok _ =>
    obtain ⟨store, entry, hg, ⟨-, hsub⟩ | ⟨entry', hi, hsub⟩⟩ :=
      subscribe_of_name (b := b) hname intent sink
    · rw [hsub]
      exact TopicStore.profileOf_getOrCreate hg
    · rw [hsub]
      simp only [TopicEntry.tryIncSubscriber, Option.map_eq_some_iff] at hi
      obtain ⟨n, -, rfl⟩ := hi
      have hput : (store.put t { entry with subscriberCount := n }).profileOf b.defaultProfile u =
          store.profileOf b.defaultProfile u :=
        TopicStore.profileOf_put (TopicStore.get_of_getOrCreate hg) rfl
      exact hput.trans (TopicStore.profileOf_getOrCreate hg)

/-- What holds after calls one after the other, `n` of them successful subscribes. -/
structure Tidy (n : Nat) (b : InMemoryBroker O L D S σ) : Prop where
  coherent : b.fanout.Coherent
  drawn : b.fanout.Drawn n
  counted : b.Counted

theorem tidy_new (hfanout : b.fanout = .new) (hstore : ∀ t, b.store.subscribers t = 0) :
    Tidy 0 b where
  coherent := hfanout ▸ FanoutEngine.coherent_new
  drawn := hfanout ▸ FanoutEngine.drawn_new
  counted t := by
    rw [CountedAt, hfanout, hstore]
    rfl

/-- A subscribe that is refused. -/
theorem Tidy.refuse {n : Nat} (h : Tidy n b)
    (hf : (b.subscribe t intent sink).1.fanout = b.fanout) :
    Tidy n (b.subscribe t intent sink).1 where
  coherent := hf ▸ h.coherent
  drawn := hf ▸ h.drawn
  counted u := countedAt_subscribe (h.counted u)

/-- A subscribe that draws an id. -/
theorem Tidy.enter {n : Nat} (h : Tidy n b) (hn : n < 2 ^ 64)
    (hf : (b.subscribe t intent sink).1.fanout = (b.fanout.subscribe t intent sink).1) :
    Tidy (n + 1) (b.subscribe t intent sink).1 where
  coherent := hf ▸ FanoutEngine.coherent_subscribe h.coherent (h.drawn.fresh hn)
  drawn := hf ▸ FanoutEngine.drawn_subscribe h.drawn
  counted u := countedAt_subscribe (h.counted u)

omit [FanoutSink σ] in
/-- A publish takes no subscriber slot and gives none back. -/
theorem subscribers_publish [OffsetStore O] [LogStore L] [DedupeStore D] [SnapshotStore S]
    (now : Int64) (f : Frame) (u : String) :
    (b.publish now f).1.store.subscribers u = b.store.subscribers u := by
  cases ht : b.target now f with
  | none =>
    obtain ⟨e, hp, -⟩ := publish_of_no_target ht
    rw [hp]
  | some t =>
    obtain ⟨messageId, store, entry, -, hg, ⟨-, hp⟩ | ⟨entry', b', outcome, offers, hi, hr, hp⟩⟩ :=
      publish_of_target ht
    · rw [hp]
      exact TopicStore.subscribers_getOrCreate hg
    · have hstore : b'.store = store.put t entry' := by
        cases hr
        rfl
      simp only [TopicEntry.tryIncPublisher, Option.map_eq_some_iff] at hi
      obtain ⟨n, -, rfl⟩ := hi
      have hu : store.subscribers u = b.store.subscribers u :=
        TopicStore.subscribers_getOrCreate hg
      rw [hp, hstore, ← hu]
      by_cases hut : u = t
      · subst hut
        simp [TopicStore.subscribers, TopicStore.get_of_getOrCreate hg]
      · rw [TopicStore.subscribers_put_of_ne hut]

omit [FanoutSink σ] in
theorem fanout_publish [OffsetStore O] [LogStore L] [DedupeStore D] [SnapshotStore S]
    (now : Int64) (f : Frame) : (b.publish now f).1.fanout = b.fanout := by
  obtain ⟨store, -, ⟨e, hp⟩ | ⟨t, messageId, b', outcome, offers, -, hr, hp⟩⟩ :=
    publish_cases b now f
  · rw [hp]
  · rw [hp]
    exact (offers_record hr).1

/-- What a call that leaves the subscriptions and the slots alone keeps. -/
theorem Tidy.of_same {n : Nat} {b' : InMemoryBroker O L D S σ} (h : Tidy n b)
    (hfanout : b'.fanout = b.fanout)
    (hstore : ∀ t, b'.store.subscribers t = b.store.subscribers t) : Tidy n b' where
  coherent := hfanout ▸ h.coherent
  drawn := hfanout ▸ h.drawn
  counted t := by
    rw [CountedAt, hstore, hfanout]
    exact h.counted t

theorem Tidy.unsubscribe {n : Nat} (h : Tidy n b) (id : UInt64) :
    Tidy n (b.unsubscribe id).1 := by
  refine ⟨?_, ?_, fun u => countedAt_unsubscribe h.coherent (h.counted u)⟩
  · rw [fanout_unsubscribe]
    exact FanoutEngine.coherent_unsubscribe h.coherent
  · rw [fanout_unsubscribe]
    exact FanoutEngine.drawn_unsubscribe h.drawn

theorem Tidy.dropSink {n : Nat} (h : Tidy n b) (k : UInt64) : Tidy n (b.dropSink k).1 :=
  dropSink_induction (fun _ id h => Tidy.unsubscribe h id) h

end Rifts.InMemoryBroker
