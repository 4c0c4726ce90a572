import Rifts.Broker.FanoutSteps
import Rifts.Broker.MemoryBroker
import Rifts.Sync.Counter

/-! The broker's subscribe, unsubscribe and drop_sink, cut at every atomic access.
The router lock, which keeps two subscribes from reserving at once, is left out:
without it there are only more schedules. -/
namespace Rifts

/-- Where a call stands. A `release` has yet to give back the slots of `todo`. -/
inductive BrokerPhase (σ : Type)
  | validate (topic : String) (sink : σ)
  | route (topic : String) (sink : σ)
  | load (topic : String) (sink : σ)
  | attempt (topic : String) (sink : σ) (seen : UInt64)
  | fanout (th : FanoutThread σ)
  | release (todo done : List (UInt64 × String))
  | refused (e : RiftError)

namespace BrokerPhase

variable {O L D S σ : Type} [FanoutSink σ]

omit [FanoutSink σ] in
def start : FanoutOp σ → BrokerPhase σ
  | .subscribe topic _ sink => validate topic sink
  | .unsubscribe id => fanout (.start (.unsubscribe id))
  | .dropSink sinkId => fanout (.start (.dropSink sinkId))

/-- One access; the input says whether a compare-exchange fails spuriously. -/
def next (b : InMemoryBroker O L D S σ) (phase : BrokerPhase σ) (spurious : Bool) :
    Option (InMemoryBroker O L D S σ × BrokerPhase σ) :=
  match phase with
  | validate topic sink =>
    match validateName topic with
    | .error e => some (b, refused e)
    | .ok () => some (b, route topic sink)
  | route topic sink =>
    match b.store.getOrCreate topic b.defaultProfile with
    | .error _ => some (b, refused (.topic (.notFound topic)))
    | .ok (store, _) => some ({ b with store }, load topic sink)
  | load topic sink =>
    (b.store.get topic).map fun entry => (b, attempt topic sink entry.subscriberCount)
  | attempt topic sink seen =>
    match b.store.get topic with
    | none => none
    | some entry =>
      match BoundedCounter.attempt entry.profile.maxSubscribers entry.subscriberCount seen
          spurious with
      | .full => some (b, refused (.topic (.subscriberLimit topic)))
      | .taken n =>
        some ({ b with store := b.store.put topic { entry with subscriberCount := n } },
          fanout ⟨[], .draw topic sink⟩)
      | .retry seen => some (b, attempt topic sink seen)
  | fanout ⟨_, .removed taken⟩ => some (b, release taken [])
  | fanout th => (th.next b.fanout ()).map fun x => ({ b with fanout := x.1 }, fanout x.2)
  | release [] _ => none
  | release ((id, topic) :: todo) done =>
    some ({ b with store := InMemoryBroker.releaseSubscriber b.store topic },
      release todo (done ++ [(id, topic)]))
  | refused _ => none

def program :
    Transition.Program (InMemoryBroker O L D S σ) (BrokerPhase σ) (FanoutOp σ) Bool :=
  ⟨start, next⟩

end BrokerPhase

/-- What a call has done so far: the topic it has a slot on, the id it has drawn,
the subscription it has put in `byId`, those it has taken out of it, and those
whose slots it has given back. -/
structure Tally where
  slot : Option String := none
  drawn : List UInt64 := []
  inserted : List (UInt64 × String) := []
  taken : List (UInt64 × String) := []
  released : List (UInt64 × String) := []
  deriving DecidableEq, Repr

def FanoutPhase.tally {σ : Type} : FanoutPhase σ → Tally
  | draw topic _ => { slot := some topic }
  | pushTopic id topic _ | insertId id topic _ => { slot := some topic, drawn := [id] }
  | pushSink id topic _ | subscribed id topic _ =>
    { slot := some topic, drawn := [id], inserted := [(id, topic)] }
  | collect _ => {}
  | removeId _ taken | removed taken => { taken }
  | retainTopic r | removeTopic r | retainSink r | removeSink r =>
    { taken := r.taken ++ [(r.id, r.topic)] }

namespace BrokerPhase

variable {O L D S σ : Type}

def tally : BrokerPhase σ → Tally
  | fanout th => th.phase.tally
  | release todo done => { taken := done ++ todo, released := done }
  | _ => {}

/-- What an access does to the subscriptions, the ids and the slots. -/
inductive Effect : InMemoryBroker O L D S σ → BrokerPhase σ → InMemoryBroker O L D S σ →
    BrokerPhase σ → Prop
  | quiet {b u b' u'} (hseq : b'.fanout.seq = b.fanout.seq) (hid : b'.fanout.byId = b.fanout.byId)
      (hstore : ∀ t, b'.store.subscribers t = b.store.subscribers t) (hu : u'.tally = u.tally) :
      Effect b u b' u'
  | reserve {b u b' u'} (t : String) (hfan : b'.fanout = b.fanout)
      (hstore : ∀ t', b'.store.subscribers t' = b.store.subscribers t' + if t' = t then 1 else 0)
      (hu : u.tally = {}) (hu' : u'.tally = { slot := some t }) : Effect b u b' u'
  | draw {b u b' u'} (t : String) (hseq : b'.fanout.seq = b.fanout.seq + 1)
      (hid : b'.fanout.byId = b.fanout.byId) (hstore : b'.store = b.store)
      (hu : u.tally = { slot := some t })
      (hu' : u'.tally = { slot := some t, drawn := [b.fanout.seq + 1] }) : Effect b u b' u'
  | insert {b u b' u'} (id : UInt64) (t : String) (sink : σ) (hseq : b'.fanout.seq = b.fanout.seq)
      (hid : b'.fanout.byId = Function.update b.fanout.byId id (some (t, sink)))
      (hstore : b'.store = b.store) (hu : u.tally = { slot := some t, drawn := [id] })
      (hu' : u'.tally = { slot := some t, drawn := [id], inserted := [(id, t)] }) :
      Effect b u b' u'
  | take {b u b' u'} (id : UInt64) (t : String) (sink : σ) (hseq : b'.fanout.seq = b.fanout.seq)
      (hold : b.fanout.byId id = some (t, sink))
      (hid : b'.fanout.byId = Function.update b.fanout.byId id none) (hstore : b'.store = b.store)
      (hu : u'.tally = { u.tally with taken := u.tally.taken ++ [(id, t)] }) : Effect b u b' u'
  | release {b u b' u'} (id : UInt64) (t : String) (todo : List (UInt64 × String))
      (hfan : b'.fanout = b.fanout)
      (hstore : b'.store = InMemoryBroker.releaseSubscriber b.store t)
      (hu : u.tally.taken = u.tally.released ++ (id, t) :: todo)
      (hu' : u'.tally = { u.tally with released := u.tally.released ++ [(id, t)] }) :
      Effect b u b' u'

variable [FanoutSink σ] {b b' : InMemoryBroker O L D S σ} {u u' : BrokerPhase σ} {spurious : Bool}

/-- A call inside the engine makes an access there, or is done with it. -/
theorem next_fanout_cases {th : FanoutThread σ} (h : next b (fanout th) spurious = some (b', u')) :
    (∃ taken, th.phase = .removed taken ∧ b' = b ∧ u' = release taken []) ∨
      ∃ e th', FanoutThread.Access b.fanout th e th' ∧ b' = { b with fanout := e } ∧
        u' = fanout th' := by
  obtain ⟨ts, phase⟩ := th
  cases phase with
  | removed taken =>
    cases h
    exact .inl ⟨taken, rfl, rfl, rfl⟩
  | _ =>
    simp only [next, Option.map_eq_some_iff] at h
    obtain ⟨⟨e, th'⟩, hn, h⟩ := h
    cases h
    exact .inr ⟨e, th', FanoutThread.access_of_next hn, rfl, rfl⟩

/-- An access of the engine, seen from the broker. -/
theorem effect_of_access {th : FanoutThread σ} {e : FanoutEngine σ} {th' : FanoutThread σ}
    (h : FanoutThread.Access b.fanout th e th') :
    Effect b (fanout th) { b with fanout := e } (fanout th') := by
  cases h with
  | draw topic sink => exact .draw topic rfl rfl rfl rfl rfl
  | pushTopic | pushSink | collect | finish | skip | removeTopic =>
    exact .quiet rfl rfl (fun _ => rfl) rfl
  | insertId id topic sink => exact .insert id topic sink rfl rfl rfl rfl rfl
  | take id rest taken topic sink hid => exact .take id topic sink rfl hid rfl rfl rfl
  | retainTopic r hp | retainSink r hp =>
    rcases hp with rfl | rfl <;> exact .quiet rfl rfl (fun _ => rfl) rfl
  | removeSink r => exact .quiet rfl rfl (fun _ => rfl) rfl

theorem effect_of_next (h : next b u spurious = some (b', u')) : Effect b u b' u' := by
  cases u with
  | validate topic sink =>
    simp only [next] at h
    split at h <;> cases h <;> exact .quiet rfl rfl (fun _ => rfl) rfl
  | route topic sink =>
    simp only [next] at h
    split at h
    · cases h
      exact .quiet rfl rfl (fun _ => rfl) rfl
    · next hg =>
      cases h
      exact .quiet rfl rfl (fun _ => TopicStore.subscribers_getOrCreate hg) rfl
  | load topic sink =>
    simp only [next, Option.map_eq_some_iff] at h
    obtain ⟨entry, -, h⟩ := h
    cases h
    exact .quiet rfl rfl (fun _ => rfl) rfl
  | attempt topic sink seen =>
    simp only [next] at h
    split at h
    · cases h
    · next entry hg =>
      split at h
      · cases h
        exact .quiet rfl rfl (fun _ => rfl) rfl
      · next n hn =>
        cases h
        refine .reserve topic rfl ?_ rfl rfl
        intro t
        by_cases ht : t = topic
        · subst ht
          simp [TopicStore.subscribers, hg, (BoundedCounter.attempt_taken hn).1]
        · simp [ht]
      · cases h
        exact .quiet rfl rfl (fun _ => rfl) rfl
  | fanout th =>
    rcases next_fanout_cases h with ⟨taken, hp, rfl, rfl⟩ | ⟨e, th', ha, rfl, rfl⟩
    · refine .quiet rfl rfl (fun _ => rfl) ?_
      simp only [tally, hp, FanoutPhase.tally, List.nil_append]
    · exact effect_of_access ha
  | release todo done =>
    cases todo with
    | nil => cases h
    | cons x todo =>
      cases h
      refine .release x.1 x.2 todo rfl rfl rfl ?_
      simp [tally]
  | refused e => cases h

/-- A counter is raised below its limit only. -/
theorem withinLimits_next (h : next b u spurious = some (b', u')) (hw : b.store.WithinLimits)
    (hpos : ∀ id t todo done, u = release ((id, t) :: todo) done → 0 < b.store.subscribers t) :
    b'.store.WithinLimits := by
  cases u with
  | validate topic sink =>
    simp only [next] at h
    split at h <;> cases h <;> exact hw
  | route topic sink =>
    simp only [next] at h
    split at h
    · cases h
      exact hw
    · next hg =>
      cases h
      exact TopicStore.withinLimits_getOrCreate hg hw
  | load topic sink =>
    simp only [next, Option.map_eq_some_iff] at h
    obtain ⟨entry, -, h⟩ := h
    cases h
    exact hw
  | attempt topic sink seen =>
    simp only [next] at h
    split at h
    · cases h
    · next entry hg =>
      split at h
      · cases h
        exact hw
      · next n hn =>
        cases h
        have hle := (BoundedCounter.attempt_taken hn).2
        exact TopicStore.withinLimits_put hw (UInt64.le_iff_toNat_le.mpr hle)
      · cases h
        exact hw
  | fanout th =>
    rcases next_fanout_cases h with ⟨taken, -, rfl, rfl⟩ | ⟨e, th', -, rfl, rfl⟩
    · exact hw
    · exact hw
  | release todo done =>
    cases todo with
    | nil => cases h
    | cons x todo =>
      cases h
      exact InMemoryBroker.withinLimits_releaseSubscriber (hpos x.1 x.2 todo done rfl) hw
  | refused e => cases h

section Solo

open Transition Pool

theorem next_fanout {th th' : FanoutThread σ} {e : FanoutEngine σ}
    (h : th.next b.fanout () = some (e, th')) :
    next b (fanout th) spurious = some ({ b with fanout := e }, fanout th') := by
  obtain ⟨ts, phase⟩ := th
  cases phase <;> first | cases h; done | simp only [next, h, Option.map_some]

/-- The engine's part of a call. -/
theorem solo_fanout {e e' : FanoutEngine σ} {th th' : FanoutThread σ} {inputs : List Unit}
    (b : InMemoryBroker O L D S σ)
    (h : run (solo FanoutThread.program) (e, th) inputs = some (e', th')) :
    run (solo program) ({ b with fanout := e }, fanout th) (inputs.map fun _ => false) =
      some ({ b with fanout := e' }, fanout th') := by
  induction inputs generalizing e th with
  | nil =>
    cases h
    rfl
  | cons input inputs ih =>
    obtain ⟨⟨e₁, th₁⟩, hn, hrest⟩ := run_cons_iff.mp h
    exact run_cons_iff.mpr ⟨_, next_fanout hn, ih hrest⟩

theorem solo_release (b : InMemoryBroker O L D S σ) (todo done : List (UInt64 × String)) :
    run (solo program) (b, release todo done) (todo.map fun _ => false) =
      some ({ b with store := (todo.map Prod.snd).foldl InMemoryBroker.releaseSubscriber b.store },
        release [] (done ++ todo)) := by
  induction todo generalizing b done with
  | nil => simp
  | cons x todo ih =>
    refine run_cons_iff.mpr ⟨_, rfl, ?_⟩
    rw [ih, List.append_assoc]
    rfl

theorem solo_unsubscribe (b : InMemoryBroker O L D S σ) (id : UInt64) :
    ∃ inputs done, run (solo program) (b, start (.unsubscribe id)) inputs =
      some ((b.unsubscribe id).1, release [] done) := by
  obtain ⟨inputs, taken, hrun, htopics⟩ := FanoutThread.solo_removeId b.fanout [id] [id] []
  rw [List.map_nil, FanoutThread.removeAll_singleton] at hrun htopics
  refine ⟨(inputs.map fun _ => false) ++ false :: taken.map fun _ => false, taken, ?_⟩
  have hrun' : run (solo program) (b, start (.unsubscribe id)) (inputs.map fun _ => false) =
      some ({ b with fanout := (b.fanout.unsubscribe id).1 }, fanout ⟨[id], .removed taken⟩) :=
    solo_fanout b hrun
  rw [run_append hrun']
  refine run_cons_iff.mpr ⟨_, rfl, ?_⟩
  rw [solo_release, htopics]
  simp only [InMemoryBroker.unsubscribe, List.nil_append]
  rcases b.fanout.unsubscribe id with ⟨e, topic | _⟩ <;> rfl

theorem solo_dropSink (b : InMemoryBroker O L D S σ) (k : UInt64) :
    ∃ inputs done, run (solo program) (b, start (.dropSink k)) inputs =
      some ((b.dropSink k).1, release [] done) := by
  obtain ⟨inputs, taken, hrun, htopics⟩ :=
    FanoutThread.solo_removeId b.fanout (b.fanout.held k) (b.fanout.held k) []
  refine ⟨false :: (inputs.map fun _ => false) ++ false :: taken.map fun _ => false, taken, ?_⟩
  have hrun' : run (solo program) (b, start (.dropSink k)) (false :: inputs.map fun _ => false) =
      some ({ b with fanout := (b.fanout.dropSink k).1 },
        fanout ⟨b.fanout.held k, .removed taken⟩) :=
    run_cons_iff.mpr ⟨_, rfl, solo_fanout b hrun⟩
  rw [run_append hrun']
  refine run_cons_iff.mpr ⟨_, rfl, ?_⟩
  rw [solo_release, htopics]
  rfl

theorem solo_subscribe (b : InMemoryBroker O L D S σ) (topic : String) (intent : SubscribeIntent)
    (sink : σ) :
    ∃ inputs, run (solo program) (b, start (.subscribe topic intent sink)) inputs =
      some ((b.subscribe topic intent sink).1,
        match (b.subscribe topic intent sink).2 with
        | .ok id => fanout ⟨[], .subscribed id topic sink⟩
        | .error e => refused e) := by
  cases hv : validateName topic with
  | error e =>
    exact ⟨[false], by simp [run, solo, program, start, next, InMemoryBroker.subscribe, hv]⟩
  | ok _ =>
    cases hg : b.store.getOrCreate topic b.defaultProfile with
    | error e =>
      exact ⟨[false, false],
        by simp [run, solo, program, start, next, InMemoryBroker.subscribe, hv, hg]⟩
    | ok r =>
      obtain ⟨store, entry⟩ := r
      have hget := TopicStore.get_of_getOrCreate hg
      have hattempt := attempt_solo entry.profile.maxSubscribers entry.subscriberCount
      cases hi : tryInc entry.subscriberCount entry.profile.maxSubscribers with
      | none =>
        rw [hi] at hattempt
        refine ⟨[false, false, false, false], ?_⟩
        simp [run, solo, program, start, next, InMemoryBroker.subscribe, hv, hg, hget, hattempt,
          TopicEntry.tryIncSubscriber, hi]
      | some n =>
        rw [hi] at hattempt
        refine ⟨[false, false, false, false, false, false, false, false], ?_⟩
        simp [run, solo, program, start, next, InMemoryBroker.subscribe, hv, hg, hget, hattempt,
          TopicEntry.tryIncSubscriber, hi]
        rfl

end Solo

end BrokerPhase

end Rifts
