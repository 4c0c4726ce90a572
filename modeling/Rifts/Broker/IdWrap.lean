import Rifts.Broker.FanoutIndex
import Rifts.Broker.MemoryBroker

/-! Subscription ids are drawn from a 64-bit sequence, which comes around. -/
namespace Rifts

namespace FanoutEngine

variable {σ : Type} [FanoutSink σ] {e : FanoutEngine σ} {topic : String}
  {intent : SubscribeIntent} {sink : σ}

/-- A subscription that is cancelled at once has used up an id, and that is all. -/
theorem unsubscribe_subscribe (hc : Coherent e) (hfresh : e.byId (e.seq + 1) = none) :
    (e.subscribe topic intent sink).1.unsubscribe (e.seq + 1) =
      ({ e with seq := e.seq + 1 }, some topic) := by
  have hid : (e.subscribe topic intent sink).1.byId (e.seq + 1) = some (topic, sink) := by
    rw [byId_subscribe, if_pos rfl]
  have hidle : ∀ t s, e.byId (e.seq + 1) ≠ some (t, s) := by simp [hfresh]
  have htopics : KeyedLists.retain (KeyedLists.push e.byTopic topic (e.seq + 1, sink)) topic
      (fun entry => entry.1 != e.seq + 1) = e.byTopic := by
    refine KeyedLists.retain_push (hc.topics.nonempty topic) ?_ (by simp)
    intro entry hentry
    have hfiled := (hc.topics.mem topic entry).mp hentry
    have hne : entry.1 ≠ e.seq + 1 := fun h => hidle _ _ (h ▸ hfiled)
    simpa using hne
  have hsinks : KeyedLists.retain (KeyedLists.push e.bySink (FanoutSink.id sink) (e.seq + 1))
      (FanoutSink.id sink) (fun sid => sid != e.seq + 1) = e.bySink := by
    refine KeyedLists.retain_push (hc.sinks.nonempty _) ?_ (by simp)
    intro sid hsid
    obtain ⟨t, s, hs, -⟩ := (hc.sinks.mem _ sid).mp hsid
    have hne : sid ≠ e.seq + 1 := fun h => hidle _ _ (h ▸ hs)
    simpa using hne
  have hids : Function.update (Function.update e.byId (e.seq + 1) (some (topic, sink))) (e.seq + 1)
      none = e.byId := by
    rw [Function.update_idem, ← hfresh, Function.update_eq_self]
  have hun : (e.subscribe topic intent sink).1.unsubscribe (e.seq + 1) =
      (⟨KeyedLists.retain (KeyedLists.push e.byTopic topic (e.seq + 1, sink)) topic
          fun entry => entry.1 != e.seq + 1,
        Function.update (Function.update e.byId (e.seq + 1) (some (topic, sink))) (e.seq + 1) none,
        KeyedLists.retain (KeyedLists.push e.bySink (FanoutSink.id sink) (e.seq + 1))
          (FanoutSink.id sink) fun sid => sid != e.seq + 1,
        e.seq + 1⟩, some topic) := by
    simp only [unsubscribe, hid]
    rfl
  rw [hun, htopics, hids, hsinks]

end FanoutEngine

namespace InMemoryBroker

variable {O L D S σ : Type} [FanoutSink σ] {b : InMemoryBroker O L D S σ} {t : String}
  {entry : TopicEntry} {intent : SubscribeIntent} {sink : σ}

omit [FanoutSink σ] in
/-- The broker with its id sequence elsewhere. -/
def atSeq (b : InMemoryBroker O L D S σ) (n : UInt64) : InMemoryBroker O L D S σ :=
  { b with fanout := { b.fanout with seq := n } }

/-- A topic with room takes a subscription. -/
theorem subscribe_of_room (hname : validateName t = .ok ()) (hg : b.store.get t = some entry)
    (hroom : entry.subscriberCount < entry.profile.maxSubscribers) :
    b.subscribe t intent sink =
      ({ b with
          store := b.store.put t { entry with subscriberCount := entry.subscriberCount + 1 }
          fanout := (b.fanout.subscribe t intent sink).1 }, .ok (b.fanout.seq + 1)) := by
  have hroute : b.store.getOrCreate t b.defaultProfile = .ok (b.store, entry) := by
    simp only [TopicStore.getOrCreate, hname, hg]
  have hinc : entry.tryIncSubscriber =
      some { entry with subscriberCount := entry.subscriberCount + 1 } := by
    simp [TopicEntry.tryIncSubscriber, tryInc, UInt64.not_le.mpr hroom]
  simp only [subscribe, hname, hroute, hinc]
  rfl

theorem unsubscribe_subscribe (hname : validateName t = .ok ()) (hg : b.store.get t = some entry)
    (hroom : entry.subscriberCount < entry.profile.maxSubscribers)
    (hc : FanoutEngine.Coherent b.fanout) (hfresh : b.fanout.byId (b.fanout.seq + 1) = none) :
    ((b.subscribe t intent sink).1.unsubscribe (b.fanout.seq + 1)).1 =
      b.atSeq (b.fanout.seq + 1) := by
  rw [subscribe_of_room hname hg hroom]
  have hstore : releaseSubscriber
      (b.store.put t { entry with subscriberCount := entry.subscriberCount + 1 }) t = b.store := by
    simp only [releaseSubscriber, TopicStore.get_put_self, TopicStore.put_put,
      TopicEntry.decSubscriber, UInt64.add_sub_cancel]
    exact TopicStore.put_of_get hg
  simp only [unsubscribe, FanoutEngine.unsubscribe_subscribe hc hfresh, hstore]
  rfl

end InMemoryBroker

/-- Subscription 1 is on "t". -/
def holdingOne : DefaultBroker MpscSink := (emptyBroker.subscribe "t" .live ⟨0, 7, .json⟩).1

theorem coherent_holdingOne (n : UInt64) :
    FanoutEngine.Coherent (holdingOne.atSeq n).fanout := by
  have hc : FanoutEngine.Coherent
      (FanoutEngine.new.subscribe "t" .live (⟨0, 7, .json⟩ : MpscSink)).1 :=
    FanoutEngine.coherent_subscribe FanoutEngine.coherent_new rfl
  exact ⟨hc.topics, hc.sinks⟩

theorem room_holdingOne (n : UInt64) : ∃ entry, (holdingOne.atSeq n).store.get "t" = some entry ∧
    entry.subscriberCount < entry.profile.maxSubscribers :=
  ⟨_, rfl, by decide⟩

theorem add_one_ne_one {n : UInt64} (hn : n ≠ 0) : n + 1 ≠ 1 := by
  intro h
  apply hn
  rw [← UInt64.add_sub_cancel (a := n) (b := 1), h]
  rfl

theorem ofNat_succ_ne_zero {k : Nat} (hk : k + 1 < 2 ^ 64) : UInt64.ofNat (k + 1) ≠ 0 := by
  intro h
  have hnat := congrArg UInt64.toNat h
  rw [UInt64.toNat_ofNat'] at hnat
  simp only [UInt64.toNat_zero] at hnat
  omega

/-- Another subscription may come and go, as long as its id is not 1. -/
theorem holdingOne_next {n : UInt64} (hn : n ≠ 0) (sink : MpscSink) :
    (((holdingOne.atSeq n).subscribe "t" .live sink).1.unsubscribe (n + 1)).1 =
      holdingOne.atSeq (n + 1) := by
  obtain ⟨entry, hg, hroom⟩ := room_holdingOne n
  have hfresh : (holdingOne.atSeq n).fanout.byId (n + 1) = none :=
    Function.update_of_ne (add_one_ne_one hn) ..
  exact InMemoryBroker.unsubscribe_subscribe rfl hg hroom (coherent_holdingOne n) hfresh

end Rifts
