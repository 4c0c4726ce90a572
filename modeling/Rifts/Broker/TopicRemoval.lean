import Rifts.Broker.Slots
import Rifts.Transition.Run

/-! Topics that are removed and created again while subscriptions to them go on. -/
namespace Rifts

open Transition

/-- A call on a broker, or on the topic store that it shares. -/
inductive TopicCall (σ : Type)
  | subscribe (topic : String) (intent : SubscribeIntent) (sink : σ)
  | unsubscribe (id : UInt64)
  | dropSink (sinkId : UInt64)
  | publish (now : Int64) (frame : Frame)
  | remove (topic : String)

/-- Giving back a slot of each of the topics takes some count below zero. -/
def TopicStore.wraps (st : TopicStore) : List String → Bool
  | [] => false
  | t :: ts =>
    (st.get t).any (fun e => e.subscriberCount = 0) ||
      (InMemoryBroker.releaseSubscriber st t).wraps ts

theorem TopicStore.wraps_append {st : TopicStore} {ts us : List String} :
    st.wraps (ts ++ us) =
      (st.wraps ts || (ts.foldl InMemoryBroker.releaseSubscriber st).wraps us) := by
  induction ts generalizing st with
  | nil => rfl
  | cons t ts ih => simp [wraps, ih, Bool.or_assoc]

namespace TopicCall

variable {O L D S σ : Type} [FanoutSink σ]

/-- A topic is not created while there are subscriptions to it, which only a removal can have left
behind. The id that a subscribe draws is not in use: the last draw of it was 2 ^ 64 ids ago. -/
def Settled (b : InMemoryBroker O L D S σ) : TopicCall σ → Prop
  | subscribe t _ _ =>
    (b.store.get t = none → b.fanout.subscribers t = []) ∧ b.fanout.byId (b.fanout.seq + 1) = none
  | publish now f => ∀ t ∈ b.target now f, b.store.get t = none → b.fanout.subscribers t = []
  | unsubscribe _ | dropSink _ | remove _ => True

instance {b : InMemoryBroker O L D S σ} : ∀ c, Decidable (Settled b c)
  | subscribe _ _ _ => inferInstanceAs (Decidable (_ ∧ _))
  | publish now f => inferInstanceAs (Decidable (∀ t ∈ b.target now f, _))
  | unsubscribe _ | dropSink _ | remove _ => .isTrue trivial

/-- A call takes no subscriber count below zero, and refuses no subscription for a limit that the
live ones are under. -/
def Sane (b : InMemoryBroker O L D S σ) : TopicCall σ → Prop
  | subscribe t intent sink =>
    (b.subscribe t intent sink).2 = .error (.topic (.subscriberLimit t)) →
      (b.store.profileOf b.defaultProfile t).maxSubscribers.toNat ≤
        (b.fanout.subscribers t).length
  | unsubscribe id => b.store.wraps (b.fanout.unsubscribe id).2.toList = false
  | dropSink sinkId => b.store.wraps (b.fanout.dropSink sinkId).2 = false
  | publish _ _ | remove _ => True

variable [OffsetStore O] [LogStore L] [DedupeStore D] [SnapshotStore S]

def step (b : InMemoryBroker O L D S σ) : TopicCall σ → Option (InMemoryBroker O L D S σ)
  | subscribe t intent sink => some (b.subscribe t intent sink).1
  | unsubscribe id => some (b.unsubscribe id).1
  | dropSink sinkId => some (b.dropSink sinkId).1
  | publish now f => some (b.publish now f).1
  | remove t => some { b with store := (b.store.remove t).1 }

end TopicCall

namespace InMemoryBroker

variable {O L D S σ : Type} [FanoutSink σ] {b : InMemoryBroker O L D S σ} {t u : String}
  {id : UInt64} {sink : σ} {intent : SubscribeIntent}

/-- The slots of the topics that there are entries for are held by their subscriptions. -/
structure Balanced (b : InMemoryBroker O L D S σ) : Prop where
  coherent : b.fanout.Coherent
  counted : ∀ t, b.store.get t ≠ none → b.CountedAt t

theorem balanced_new (hfanout : b.fanout = .new) (hstore : ∀ t, b.store.subscribers t = 0) :
    Balanced b where
  coherent := hfanout ▸ FanoutEngine.coherent_new
  counted t _ := by
    rw [CountedAt, hfanout, hstore]
    rfl

/-- Without an entry there is nothing to count, and without subscriptions nothing is missed. -/
theorem Balanced.countedAt (h : Balanced b)
    (ht : b.store.get t = none → b.fanout.subscribers t = []) : b.CountedAt t := by
  by_cases hg : b.store.get t = none
  · rw [CountedAt, ht hg, TopicStore.subscribers, hg]
    rfl
  · exact h.counted t hg

theorem balanced_remove (h : Balanced b) : Balanced { b with store := (b.store.remove t).1 } where
  coherent := h.coherent
  counted u hu := by
    have hne : u ≠ t := by
      rintro rfl
      exact hu TopicStore.get_remove_self
    rw [TopicStore.get_remove_of_ne hne] at hu
    rw [CountedAt, TopicStore.subscribers, TopicStore.get_remove_of_ne hne]
    exact h.counted u hu

theorem get_subscribe_of_ne (hu : u ≠ t) :
    (b.subscribe t intent sink).1.store.get u = b.store.get u := by
  cases hname : validateName t with
  | error e => rw [subscribe_of_bad_name hname]
  | ok _ =>
    obtain ⟨store, entry, hg, ⟨-, hsub⟩ | ⟨entry', -, hsub⟩⟩ :=
      subscribe_of_name (b := b) hname intent sink
    · rw [hsub]
      exact TopicStore.get_getOrCreate_of_ne hg hu
    · rw [hsub]
      exact (TopicStore.get_put_of_ne hu).trans (TopicStore.get_getOrCreate_of_ne hg hu)

theorem balanced_subscribe (h : Balanced b)
    (ht : b.store.get t = none → b.fanout.subscribers t = [])
    (hfresh : b.fanout.byId (b.fanout.seq + 1) = none) :
    Balanced (b.subscribe t intent sink).1 := by
  constructor
  · obtain ⟨store, ⟨e, hsub⟩ | hsub⟩ := subscribe_cases b t intent sink
    · rw [hsub]
      exact h.coherent
    · have hcoherent : (b.fanout.subscribe t intent sink).1.Coherent :=
        FanoutEngine.coherent_subscribe h.coherent hfresh
      rw [hsub]
      exact hcoherent
  · intro u hu
    apply countedAt_subscribe
    by_cases hut : u = t
    · subst hut
      exact h.countedAt ht
    · rw [get_subscribe_of_ne hut] at hu
      exact h.counted u hu

theorem get_unsubscribe_eq_none_iff :
    (b.unsubscribe id).1.store.get u = none ↔ b.store.get u = none := by
  cases hid : b.fanout.byId id with
  | none => rw [unsubscribe_unknown hid]
  | some entry =>
    obtain ⟨t, sink⟩ := entry
    rw [unsubscribe_known hid]
    by_cases hut : u = t
    · subst hut
      unfold releaseSubscriber
      split
      · next hg => simp [hg]
      · rfl
    · rw [get_releaseSubscriber_of_ne hut]

theorem Balanced.unsubscribe (h : Balanced b) (id : UInt64) : Balanced (b.unsubscribe id).1 where
  coherent := by
    rw [fanout_unsubscribe]
    exact FanoutEngine.coherent_unsubscribe h.coherent
  counted u hu := by
    rw [ne_eq, get_unsubscribe_eq_none_iff] at hu
    exact countedAt_unsubscribe h.coherent (h.counted u hu)

/-- An entry that is charged for the end of a subscription has counted it. -/
theorem Balanced.not_wraps (h : Balanced b) (hid : b.fanout.byId id = some (t, sink)) :
    b.store.wraps [t] = false := by
  simp only [TopicStore.wraps, Bool.or_false]
  cases hg : b.store.get t with
  | none => rfl
  | some e =>
    have hpos := (h.counted t (by simp [hg])).pos h.coherent hid
    rw [TopicStore.subscribers, hg] at hpos
    simp only [Option.any_some, decide_eq_false_iff_not]
    intro hzero
    simp [hzero] at hpos

/-- The releases of `drop_sink` are those of unsubscribing one id after the other: the broker is
balanced when `topics` have been given back and the rest of the ids is still to come. -/
theorem not_wraps_removeAll (ids : List UInt64) (topics : List String) (e : FanoutEngine σ)
    (h : Balanced { b with fanout := e, store := topics.foldl releaseSubscriber b.store })
    (hw : b.store.wraps topics = false) : b.store.wraps (e.removeAll ids topics).2 = false := by
  induction ids generalizing e topics with
  | nil => exact hw
  | cons id ids ih =>
    cases hid : e.byId id with
    | none =>
      rw [FanoutEngine.removeAll_unknown hid]
      exact ih topics e h hw
    | some entry =>
      obtain ⟨t, sink⟩ := entry
      rw [FanoutEngine.removeAll_known hid]
      apply ih
      · have hnext := h.unsubscribe id
        rw [unsubscribe_known hid] at hnext
        simpa only [List.foldl_append, List.foldl_cons, List.foldl_nil] using hnext
      · rw [TopicStore.wraps_append, hw, h.not_wraps hid]
        rfl

section

variable [OffsetStore O] [LogStore L] [DedupeStore D] [SnapshotStore S] {now : Int64} {f : Frame}

omit [FanoutSink σ] in
theorem get_publish_of_ne_target (hu : b.target now f ≠ some u) :
    (b.publish now f).1.store.get u = b.store.get u := by
  cases ht : b.target now f with
  | none =>
    obtain ⟨e, hp, -⟩ := publish_of_no_target ht
    rw [hp]
  | some t =>
    have hut : u ≠ t := by
      rintro rfl
      exact hu ht
    obtain ⟨messageId, store, entry, -, hg, ⟨-, hp⟩ | ⟨entry', b', outcome, offers, -, hr, hp⟩⟩ :=
      publish_of_target ht
    · rw [hp]
      exact TopicStore.get_getOrCreate_of_ne hg hut
    · rw [hp]
      cases hr
      exact (TopicStore.get_put_of_ne hut).trans (TopicStore.get_getOrCreate_of_ne hg hut)

theorem balanced_publish (h : Balanced b)
    (ht : ∀ t ∈ b.target now f, b.store.get t = none → b.fanout.subscribers t = []) :
    Balanced (b.publish now f).1 where
  coherent := by
    rw [fanout_publish]
    exact h.coherent
  counted u hu := by
    rw [CountedAt, subscribers_publish, fanout_publish]
    by_cases hut : b.target now f = some u
    · exact h.countedAt (ht u hut)
    · rw [get_publish_of_ne_target hut] at hu
      exact h.counted u hu

end

/-- A topic that refuses a subscription has as many as its limit. -/
theorem Balanced.full_of_refused (h : Balanced b)
    (ht : b.store.get t = none → b.fanout.subscribers t = [])
    (hrefused : (b.subscribe t intent sink).2 = .error (.topic (.subscriberLimit t))) :
    (b.store.profileOf b.defaultProfile t).maxSubscribers.toNat ≤
      (b.fanout.subscribers t).length := by
  by_contra hslot
  rw [← h.countedAt ht, Nat.not_le] at hslot
  cases hname : validateName t with
  | error e =>
    obtain ⟨reason, rfl⟩ := invalidName_of_validateName hname
    rw [subscribe_of_bad_name hname] at hrefused
    cases hrefused
  | ok _ =>
    obtain ⟨store, hsub⟩ := subscribe_of_slot hname hslot intent sink
    rw [hsub] at hrefused
    cases hrefused

end InMemoryBroker

namespace TopicCall

open InMemoryBroker (Balanced)

variable {O L D S σ : Type} [FanoutSink σ] {b b' : InMemoryBroker O L D S σ} {c : TopicCall σ}

theorem sane_of_settled (h : Balanced b) (hc : Settled b c) : Sane b c := by
  cases c with
  | subscribe t intent sink => exact h.full_of_refused hc.1
  | unsubscribe id =>
    change b.store.wraps (b.fanout.unsubscribe id).2.toList = false
    cases hid : b.fanout.byId id with
    | none =>
      rw [FanoutEngine.unsubscribe_unknown hid]
      rfl
    | some entry =>
      obtain ⟨t, sink⟩ := entry
      have htopic : (b.fanout.unsubscribe id).2 = some t := by
        simp only [FanoutEngine.unsubscribe, hid]
      rw [htopic]
      exact h.not_wraps hid
  | dropSink k => exact InMemoryBroker.not_wraps_removeAll (b.fanout.held k) [] b.fanout h rfl
  | publish | remove => trivial

variable [OffsetStore O] [LogStore L] [DedupeStore D] [SnapshotStore S]

theorem balanced_step (hstep : step b c = some b') (hc : Settled b c) (h : Balanced b) :
    Balanced b' := by
  cases c with
  | subscribe t intent sink =>
    cases hstep
    exact InMemoryBroker.balanced_subscribe h hc.1 hc.2
  | unsubscribe id =>
    cases hstep
    exact h.unsubscribe id
  | dropSink k =>
    cases hstep
    exact InMemoryBroker.dropSink_induction (fun _ id h => h.unsubscribe id) h
  | publish now f =>
    cases hstep
    exact InMemoryBroker.balanced_publish h hc
  | remove t =>
    cases hstep
    exact InMemoryBroker.balanced_remove h

/-- When no topic is created while there are subscriptions to it, no count ever goes below zero,
and a topic below its limit refuses no subscription. -/
theorem settled_calls_keep_counts_sane (b : InMemoryBroker O L D S σ) (hfanout : b.fanout = .new)
    (hstore : ∀ t, b.store.subscribers t = 0) (calls : List (TopicCall σ))
    (hg : Guarded step Settled b calls) : Guarded step Sane b calls := by
  refine guarded_of_guarded ?_ hg (InMemoryBroker.balanced_new hfanout hstore)
  intro b c b' hstep hc h
  exact ⟨balanced_step hstep hc h, sane_of_settled h hc⟩

def subscribeTo (sinkId : UInt64) : TopicCall MpscSink :=
  subscribe "t" .live ⟨1, sinkId, .json⟩

def publishTo (messageId : String) : TopicCall MpscSink :=
  publish 0 { frameType := .data, topic := some "t", messageId := some messageId
              payload := some [1] }

/-- The topic is removed and created again after its subscriber has gone. -/
theorem counts_of_resettled_topic :
    Guarded step Sane emptyBroker
        [subscribeTo 11, remove "t", unsubscribe 1, publishTo "a", subscribeTo 12, dropSink 12] ∧
      ∃ b, run step emptyBroker
          [subscribeTo 11, remove "t", unsubscribe 1, publishTo "a", subscribeTo 12] = some b ∧
        b.store.subscribers "t" = 1 :=
  ⟨settled_calls_keep_counts_sane emptyBroker rfl (fun _ => rfl) _ (by decide +kernel),
    _, rfl, by decide +kernel⟩

/-- The subscription of the first entry is charged to the second. Nobody is subscribed afterwards,
and nobody can be. -/
theorem count_of_recreated_topic_wraps :
    ∃ b, run step emptyBroker [subscribeTo 11, remove "t", publishTo "a"] = some b ∧
      ¬ Sane b (unsubscribe 1) ∧
      ∃ b', run step b [unsubscribe 1] = some b' ∧ b'.store.subscribers "t" = 2 ^ 64 - 1 ∧
        b'.fanout.subscribers "t" = [] ∧ ¬ Sane b' (subscribeTo 12) ∧
        (b'.subscribe "t" .live ⟨1, 12, .json⟩).2 = .error (.topic (.subscriberLimit "t")) := by
  refine ⟨_, rfl, ?_, _, rfl, by decide +kernel, by decide +kernel, ?_, by decide +kernel⟩
  · exact ne_of_beq_false (by decide +kernel)
  · intro hsane
    have hfull := hsane (by decide +kernel)
    revert hfull
    decide +kernel

end TopicCall

end Rifts
