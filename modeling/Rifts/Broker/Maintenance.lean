import Rifts.Broker.Backends

/-! The sweeps of the maintenance task, and what the callers of the broker can see of them. -/
namespace Rifts

open Transition

namespace BrokerCall

variable {σ : Type}

def isMaintain : BrokerCall σ → Bool
  | maintain _ => true
  | _ => false

/-- The clock reading of a call that goes to the dedupe store. -/
def dedupeClock : BrokerCall σ → Option Int64
  | publish now _ | maintain now => some now
  | _ => none

/-- The dedupe store is called with the time going on. -/
def Timely (calls : List (BrokerCall σ)) : Prop :=
  (calls.filterMap dedupeClock).Pairwise (· ≤ ·)

instance (calls : List (BrokerCall σ)) : Decidable (Timely calls) :=
  inferInstanceAs (Decidable ((calls.filterMap dedupeClock).Pairwise (· ≤ ·)))

variable {call : BrokerCall σ} {calls : List (BrokerCall σ)} {now : Int64}

theorem Timely.tail (h : Timely (call :: calls)) : Timely calls :=
  List.Pairwise.sublist ((List.sublist_cons_self call calls).filterMap dedupeClock) h

theorem Timely.le (h : Timely (call :: calls)) (hnow : call.dedupeClock = some now) :
    ∀ n ∈ calls.filterMap dedupeClock, now ≤ n := by
  rw [Timely, List.filterMap_cons_some hnow, List.pairwise_cons] at h
  exact h.1

end BrokerCall

namespace DedupeTable

/-- The second store has the records of the first, and others that have expired by the first of
the clock readings to come. -/
structure Outlived (clocks : List Int64) (s s' : DedupeTable) : Prop where
  kept : ∀ k e, s.inner k = some e → s'.inner k = some e
  expired : ∀ k e, s'.inner k = some e → s.inner k = none → ∀ now ∈ clocks, e ≤ now

variable {clocks : List Int64} {s s' : DedupeTable} {now : Int64}

theorem Outlived.refl (clocks : List Int64) (s : DedupeTable) : Outlived clocks s s := by
  refine ⟨fun k e he => he, ?_⟩
  intro k e he hnone
  rw [hnone] at he
  cases he

theorem Outlived.mono {clocks' : List Int64} (h : Outlived clocks s s')
    (hsub : clocks' ⊆ clocks) : Outlived clocks' s s' :=
  ⟨h.kept, fun k e he hnone now hnow => h.expired k e he hnone now (hsub hnow)⟩

/-- A check cannot tell a record that has expired from none. -/
theorem Outlived.check (h : Outlived clocks s s') (hnow : now ∈ clocks) (topic key : String)
    (window : Nat) :
    Outlived clocks (s.checkAndRecord now topic key window).1
        (s'.checkAndRecord now topic key window).1 ∧
      (s'.checkAndRecord now topic key window).2 = (s.checkAndRecord now topic key window).2 := by
  obtain ⟨hdup, ⟨e, he, hlt⟩, hinner⟩ | ⟨hfresh, hle, hinner⟩ :=
    checkAndRecord_cases s now topic key window
  all_goals obtain ⟨hdup', ⟨e', he', hlt'⟩, hinner'⟩ | ⟨hfresh', hle', hinner'⟩ :=
    checkAndRecord_cases s' now topic key window
  · exact ⟨⟨by rw [hinner, hinner']; exact h.kept, by rw [hinner, hinner']; exact h.expired⟩,
      by rw [hdup, hdup']⟩
  · exact absurd hlt (Int64.not_lt.mpr (hle' e (h.kept _ e he)))
  · have hnone : s.inner (topic, key) = none := by
      cases hs : s.inner (topic, key) with
      | none => rfl
      | some e =>
        cases (h.kept _ e hs).symm.trans he'
        exact absurd hlt' (Int64.not_lt.mpr (hle e' hs))
    exact absurd hlt' (Int64.not_lt.mpr (h.expired _ e' he' hnone now hnow))
  · refine ⟨⟨?_, ?_⟩, by rw [hfresh, hfresh']⟩
    all_goals
      intro k e
      rw [hinner, hinner']
      by_cases hk : k = (topic, key)
    · subst hk
      simp
    · simpa [hk] using h.kept k e
    · subst hk
      simp
    · simpa [hk] using h.expired k e

/-- A sweep takes only records that no later check finds. -/
theorem Outlived.sweep (h : Outlived clocks s s') (hnow : ∀ n ∈ clocks, now ≤ n) :
    Outlived clocks (s.sweep now).1 s' := by
  obtain ⟨-, hinner⟩ := sweep_spec s now
  refine ⟨?_, ?_⟩
  · intro k e he
    rw [hinner, Option.filter_eq_some_iff] at he
    exact h.kept k e he.1
  · intro k e he hnone n hn
    cases hs : s.inner k with
    | none => exact h.expired k e he hs n hn
    | some x =>
      cases (h.kept k x hs).symm.trans he
      rw [hinner, hs, Option.filter_eq_none_iff] at hnone
      have hle : e ≤ now := by simpa using hnone e rfl
      exact Int64.le_trans hle (hnow n hn)

end DedupeTable

namespace InMemoryBroker

open BrokerCall DedupeTable

variable {σ : Type} {b b' : LocalBroker σ} {now : Int64} {call : BrokerCall σ}
  {calls : List (BrokerCall σ)}

/-- The broker with another dedupe store. -/
def withDedupe (b : LocalBroker σ) (dedupe : DedupeTable) : LocalBroker σ :=
  b.onStores (b.offsets, b.log, dedupe, b.snapshots)

/-- The calls to come are made as time goes on, and the second broker is the first one with
records that none of them will find. -/
def Unswept (calls : List (BrokerCall σ)) (b b' : LocalBroker σ) : Prop :=
  Timely calls ∧ ∃ dedupe, Outlived (calls.filterMap dedupeClock) b.dedupe dedupe ∧
    b' = b.withDedupe dedupe

theorem unswept_publish {dedupe : DedupeTable} {clocks : List Int64} (f : Frame)
    (h : Outlived clocks b.dedupe dedupe) (hnow : now ∈ clocks) :
    ∃ dedupe', Outlived clocks (b.publish now f).1.dedupe dedupe' ∧
      (b.withDedupe dedupe).publish now f =
        ((b.publish now f).1.withDedupe dedupe', (b.publish now f).2) := by
  have hslot : (b.withDedupe dedupe).takeSlot now f = b.takeSlot now f := rfl
  rw [publish_eq_takeSlot, publish_eq_takeSlot, hslot]
  rcases b.takeSlot now f with ⟨store, e | ⟨topic, messageId, profile⟩⟩
  · exact ⟨dedupe, h, rfl⟩
  · obtain ⟨hout, hfresh⟩ := h.check hnow topic messageId b.dedupeWindow
    refine ⟨_, hout, ?_⟩
    have hcheck : (DedupeStore.checkAndRecord dedupe now topic messageId b.dedupeWindow).2 =
      (DedupeStore.checkAndRecord b.dedupe now topic messageId b.dedupeWindow).2 := hfresh
    simp only [record, withDedupe, onStores, hcheck]
    rfl

/-- A broker whose stores are still those of an earlier one, with records that no call to come
will find. -/
theorem unswept_of_stores {dedupe : DedupeTable} (htime : Timely calls)
    (hout : Outlived (calls.filterMap dedupeClock) b.dedupe dedupe) (hs : b'.stores = b.stores) :
    Unswept calls b' (b'.onStores (b.offsets, b.log, dedupe, b.snapshots)) := by
  simp only [stores, Prod.mk.injEq] at hs
  obtain ⟨hoffsets, hlog, hdedupe, hsnapshots⟩ := hs
  refine ⟨htime, dedupe, by rwa [hdedupe], ?_⟩
  rw [withDedupe, hoffsets, hlog, hsnapshots]

variable [FanoutSink σ]

/-- A call other than a sweep cannot tell the two brokers apart. -/
theorem unswept_serve (hcall : call.isMaintain = false) (h : Unswept (call :: calls) b b') :
    Unswept calls (b.serve id call).1 (b'.serve id call).1 ∧
      (b'.serve id call).2 = (b.serve id call).2 := by
  obtain ⟨htime, dedupe, hout, rfl⟩ := h
  have hlater : calls.filterMap dedupeClock ⊆ (call :: calls).filterMap dedupeClock :=
    ((List.sublist_cons_self call calls).filterMap dedupeClock).subset
  have hrest := hout.mono hlater
  cases call with
  | publish now f =>
    have hnow : now ∈ (.publish now f :: calls).filterMap dedupeClock := by simp [dedupeClock]
    obtain ⟨dedupe', hout', hpublish⟩ := unswept_publish f hout hnow
    simp only [serve, hpublish]
    exact ⟨⟨htime.tail, dedupe', hout'.mono hlater, rfl⟩, trivial⟩
  | subscribe topic intent sink =>
    simp only [serve, withDedupe, subscribe_onStores]
    exact ⟨unswept_of_stores htime.tail hrest stores_subscribe, trivial⟩
  | unsubscribe id =>
    simp only [serve, withDedupe, unsubscribe_onStores]
    exact ⟨unswept_of_stores htime.tail hrest stores_unsubscribe, trivial⟩
  | decPublisher topic =>
    simp only [serve, withDedupe, decPublisher_onStores]
    exact ⟨unswept_of_stores htime.tail hrest stores_decPublisher, trivial⟩
  | dropSink id => exact ⟨⟨htime.tail, dedupe, hrest, rfl⟩, rfl⟩
  | replay | snapshot | subscriberCount | headOffset | restart =>
    exact ⟨⟨htime.tail, dedupe, hrest, rfl⟩, rfl⟩
  | maintain now => cases hcall

/-- A sweep leaves the broker as good as the one that was not swept. -/
theorem unswept_maintain (hcall : call.isMaintain = true) (h : Unswept (call :: calls) b b') :
    Unswept calls (b.serve id call).1 b' := by
  obtain ⟨htime, dedupe, hout, rfl⟩ := h
  cases call with
  | maintain now =>
    have hlater : calls.filterMap dedupeClock ⊆ (.maintain now :: calls).filterMap dedupeClock :=
      ((List.sublist_cons_self _ calls).filterMap dedupeClock).subset
    exact ⟨htime.tail, dedupe, (hout.mono hlater).sweep (htime.le rfl), rfl⟩
  | _ => cases hcall

variable {O L D S : Type} [OffsetStore O] [LogStore L] [SweptStore D] [SnapshotStore S]

/-- As long as the clock does not go back, a broker that is swept at any moments answers every
other call as a broker in memory that is never swept. -/
theorem sweeps_unnoticed (B : Backing O L D S) (profile : TopicProfile)
    (window maxPayloadBytes : Nat) (d : InMemoryBroker O L D S σ)
    (hd : ShownBy B (LocalBroker.new profile window maxPayloadBytes) d)
    (hprofile : profile.retention.isSize = false) (calls : List (BrokerCall σ))
    (hcalls : ∀ c ∈ calls, c.Admissible) (hcount : calls.countP BrokerCall.isPublish < 2 ^ 63)
    (htime : Timely calls) :
    ((transcript (serve B.offsets.reopen) d calls).filter fun x => !x.1.isMaintain).map Prod.snd =
      answers (serve id) (LocalBroker.new profile window maxPayloadBytes)
        (calls.filter fun c => !c.isMaintain) := by
  rw [transcript, answers_eq_of_shownBy hd (numbered_new hprofile) hcalls hcount]
  generalize LocalBroker.new profile window maxPayloadBytes = b
  have hstart : Unswept calls b b := ⟨htime, b.dedupe, .refl _ _, rfl⟩
  refine answers_filter_of_simulation (p := fun c : BrokerCall σ => !c.isMaintain) ?_ ?_ hstart
  · intro b b' call calls hcall h
    exact unswept_serve (by simpa using hcall) h
  · intro b b' call calls hcall h
    exact unswept_maintain (by simpa using hcall) h

/-- Two messages, each sent again after it has expired, the first with a sweep in between. -/
def aroundSweeps : List (BrokerCall MpscSink) :=
  [.publish 0 { topic := some "t", messageId := some "m", payload := some [1] },
    .publish 1 { topic := some "t", messageId := some "n", payload := some [2] },
    .publish 9 { topic := some "t", messageId := some "m", payload := some [1] },
    .maintain 10, .headOffset "t", .restart {} 10 65536,
    .publish 11 { topic := some "t", messageId := some "m", payload := some [1] },
    .publish 11 { topic := some "t", messageId := some "n", payload := some [2] }, .maintain 21]

/-- On sled trees the sweep of the first record cannot be told from its expiry. -/
theorem swept_sled_unnoticed :
    ((transcript (serve (OffsetBacking.sled .replacing).reopen)
        (SledBroker.new .replacing SledLog.fieldCodec SledSnapshot.fieldCodec {} 10 65536)
        aroundSweeps).filter fun x => !x.1.isMaintain).map Prod.snd =
      [.published (.ok ⟨1, false⟩) [], .published (.ok ⟨2, false⟩) [],
        .published (.ok ⟨3, true⟩) [], .head 3, .done, .published (.ok ⟨4, false⟩) [],
        .published (.ok ⟨5, false⟩) []] := by
  have hshown := sweeps_unnoticed (.sled .replacing SledLog.fieldCodec SledSnapshot.fieldCodec) {}
    10 65536 _ shownBy_sled rfl aroundSweeps (by decide) (by decide) (by decide)
  exact hshown.trans (by decide)

end InMemoryBroker

end Rifts
