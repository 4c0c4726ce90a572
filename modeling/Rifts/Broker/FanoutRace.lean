import Rifts.Broker.FanoutSteps

/-! Subscriptions under concurrent calls on the fanout engine. -/
namespace Rifts

open Transition

namespace FanoutRace

variable {σ : Type} [FanoutSink σ]

abbrev Calls (σ : Type) := Pool (FanoutEngine σ) (FanoutThread σ)

abbrev Act (σ : Type) := Pool.Act (FanoutOp σ) Unit

def step (p : Calls σ) (a : Act σ) : Option (Calls σ) := Pool.step FanoutThread.program p a

omit [FanoutSink σ] in
/-- Some call, running or completed, is out to remove the subscription. -/
def Targeted (p : Calls σ) (id : UInt64) : Prop := ∃ u ∈ p.threads, id ∈ u.targets

/-- A subscription whose subscribe has returned and that nobody has targeted can be
reached by a delivery and by a `drop_sink`. -/
def NoLostSubscription (p : Calls σ) : Prop :=
  ∀ u ∈ p.threads, ∀ id topic sink, u.phase = .subscribed id topic sink → ¬ Targeted p id →
    (id, sink) ∈ p.shared.subscribers topic ∧ id ∈ p.shared.held (FanoutSink.id sink)

/-- A key is removed while its list is still as empty as when it was tested. -/
def stillEmpty (p : Calls σ) : Act σ → Bool
  | .spawn _ => true
  | .advance i _ =>
    match p.threads[i]? with
    | some ⟨_, .removeTopic r⟩ => (p.shared.subscribers r.topic).isEmpty
    | some ⟨_, .removeSink r⟩ => (p.shared.held (FanoutSink.id r.sink)).isEmpty
    | _ => true

omit [FanoutSink σ] in
/-- The subscribe has pushed its subscription on the topic's list. -/
def Listed (u : FanoutThread σ) (id : UInt64) (topic : String) (sink : σ) : Prop :=
  u.phase = .insertId id topic sink ∨ u.phase = .pushSink id topic sink ∨
    u.phase = .subscribed id topic sink

structure Kept (p : Calls σ) : Prop where
  aimed : ∀ u ∈ p.threads, u.Aimed
  listed : ∀ u ∈ p.threads, ∀ id topic sink, Listed u id topic sink → ¬ Targeted p id →
    (id, sink) ∈ p.shared.subscribers topic
  held : ∀ u ∈ p.threads, ∀ id topic sink, u.phase = .subscribed id topic sink →
    ¬ Targeted p id → id ∈ p.shared.held (FanoutSink.id sink)

variable {p p' : Calls σ} {a : Act σ} {acts : List (Act σ)} {id : UInt64}

theorem targeted_step (h : step p a = some p') (ht : Targeted p id) : Targeted p' id := by
  rcases Pool.step_cases h with ⟨call, rfl, rfl⟩ | ⟨pre, t, post, ⟨⟩, e, t', rfl, hp, hn, rfl⟩
  · obtain ⟨u, hu, hid⟩ := ht
    exact ⟨u, List.mem_append_left _ hu, hid⟩
  · rw [Targeted, hp, Pool.exists_mem_split] at ht
    rw [Targeted, Pool.exists_mem_split]
    refine ht.imp_left fun hid => ?_
    exact FanoutThread.targets_access (FanoutThread.access_of_next hn) hid

/-- What was listed stays listed, as long as nobody targets it. -/
theorem mem_subscribers_step {topic : String} {sink : σ} (h : step p a = some p')
    (hok : stillEmpty p a) (hk : Kept p) (hid : ¬ Targeted p id)
    (hm : (id, sink) ∈ p.shared.subscribers topic) :
    (id, sink) ∈ p'.shared.subscribers topic := by
  rcases Pool.step_cases h with ⟨call, rfl, rfl⟩ | ⟨pre, t, post, ⟨⟩, e, t', rfl, hp, hn, rfl⟩
  · exact hm
  · have ht : t ∈ p.threads := hp ▸ Pool.mem_split
    rcases FanoutThread.mem_subscribers_access (FanoutThread.access_of_next hn) (hk.aimed t ht) hm
      with hkept | htarget | ⟨r, hr, rfl⟩
    · exact hkept
    · exact absurd ⟨t, ht, htarget⟩ hid
    · obtain ⟨ts, phase⟩ := t
      obtain rfl : phase = .removeTopic r := hr
      have hempty : p.shared.subscribers r.topic = [] := by simpa [stillEmpty, hp] using hok
      simp [hempty] at hm

theorem mem_held_step {k : UInt64} (h : step p a = some p') (hok : stillEmpty p a) (hk : Kept p)
    (hid : ¬ Targeted p id) (hm : id ∈ p.shared.held k) : id ∈ p'.shared.held k := by
  rcases Pool.step_cases h with ⟨call, rfl, rfl⟩ | ⟨pre, t, post, ⟨⟩, e, t', rfl, hp, hn, rfl⟩
  · exact hm
  · have ht : t ∈ p.threads := hp ▸ Pool.mem_split
    rcases FanoutThread.mem_held_access (FanoutThread.access_of_next hn) (hk.aimed t ht) hm
      with hkept | htarget | ⟨r, hr, rfl⟩
    · exact hkept
    · exact absurd ⟨t, ht, htarget⟩ hid
    · obtain ⟨ts, phase⟩ := t
      obtain rfl : phase = .removeSink r := hr
      have hempty : p.shared.held (FanoutSink.id r.sink) = [] := by
        simpa [stillEmpty, hp] using hok
      simp [hempty] at hm

/-- A subscribe is on the topic's list from the access that pushes it there. -/
theorem listed_access {e e' : FanoutEngine σ} {u u' : FanoutThread σ} {topic : String} {sink : σ}
    (h : FanoutThread.Access e u e' u') (hl : Listed u' id topic sink) :
    Listed u id topic sink ∨ (id, sink) ∈ e'.subscribers topic := by
  cases h with
  | pushTopic id' topic' sink' =>
    obtain ⟨rfl, rfl, rfl⟩ : id' = id ∧ topic' = topic ∧ sink' = sink := by
      simpa [Listed] using hl
    right
    change _ ∈ KeyedLists.listed _ _
    simp
  | insertId id' topic' sink' => exact .inl (.inl (by simpa [Listed] using hl))
  | pushSink id' topic' sink' => exact .inl (.inr (.inl (by simpa [Listed] using hl)))
  | retainTopic r hp => rcases hp with rfl | rfl <;> simp [Listed] at hl
  | retainSink r hp => rcases hp with rfl | rfl <;> simp [Listed] at hl
  | _ => simp [Listed] at hl

theorem held_access {e e' : FanoutEngine σ} {u u' : FanoutThread σ} {topic : String} {sink : σ}
    (h : FanoutThread.Access e u e' u') (hs : u'.phase = .subscribed id topic sink) :
    id ∈ e'.held (FanoutSink.id sink) := by
  cases h with
  | pushSink id' topic' sink' =>
    obtain ⟨rfl, rfl, rfl⟩ : id' = id ∧ topic' = topic ∧ sink' = sink := by simpa using hs
    simp [FanoutEngine.held]
  | retainTopic r hp => rcases hp with rfl | rfl <;> cases hs
  | retainSink r hp => rcases hp with rfl | rfl <;> cases hs
  | _ => cases hs

theorem kept_step (h : step p a = some p') (hok : stillEmpty p a) (hk : Kept p) : Kept p' := by
  have hnot : ∀ {id}, ¬ Targeted p' id → ¬ Targeted p id := fun hn ht => hn (targeted_step h ht)
  constructor
  · intro u hu
    rcases Pool.thread_step h hu with hold | ⟨call, -, rfl, -⟩ | ⟨pre, t, post, ⟨⟩, -, hp, hn⟩
    · exact hk.aimed u hold
    · exact FanoutThread.aimed_start
    · exact FanoutThread.aimed_access (FanoutThread.access_of_next hn)
        (hk.aimed t (hp ▸ Pool.mem_split))
  · intro u hu id topic sink hl hid
    rcases Pool.thread_step h hu with hold | ⟨call, -, rfl, -⟩ | ⟨pre, t, post, ⟨⟩, -, hp, hn⟩
    · exact mem_subscribers_step h hok hk (hnot hid) (hk.listed u hold id topic sink hl (hnot hid))
    · cases call <;> simp [Listed, FanoutThread.program, FanoutThread.start] at hl
    · rcases listed_access (FanoutThread.access_of_next hn) hl with hold | hnew
      · have ht : t ∈ p.threads := hp ▸ Pool.mem_split
        exact mem_subscribers_step h hok hk (hnot hid)
          (hk.listed t ht id topic sink hold (hnot hid))
      · exact hnew
  · intro u hu id topic sink hs hid
    rcases Pool.thread_step h hu with hold | ⟨call, -, rfl, -⟩ | ⟨pre, t, post, ⟨⟩, -, hp, hn⟩
    · exact mem_held_step h hok hk (hnot hid) (hk.held u hold id topic sink hs (hnot hid))
    · cases call <;> cases hs
    · exact held_access (FanoutThread.access_of_next hn) hs

/-- However calls interleave, a subscription is lost to nobody as long as keys are
removed only while their lists are still empty. -/
theorem no_lost_subscription (e : FanoutEngine σ) (acts : List (Act σ))
    (hg : Guarded step (fun p a => stillEmpty p a) ⟨e, []⟩ acts) :
    Throughout step NoLostSubscription ⟨e, []⟩ acts := by
  have hstart : Kept (⟨e, []⟩ : Calls σ) := by
    constructor <;> intro u hu <;> cases hu
  refine throughout_mono (throughout_of_guarded (fun p a p' => kept_step) hg hstart) ?_
  intro p hk u hu id topic sink hs hid
  exact ⟨hk.listed u hu id topic sink (.inr (.inr hs)) hid, hk.held u hu id topic sink hs hid⟩

/-- A call by thread `i`, in as many accesses as are given. -/
def accesses (i n : Nat) : List (Act MpscSink) := List.replicate n (.advance i ())

/-- A subscription on "t" is made and removed, and then another one is made. -/
def oneAfterTheOther : List (Act MpscSink) :=
  .spawn (.subscribe "t" .live ⟨0, 7, .json⟩) :: accesses 0 4 ++
    .spawn (.unsubscribe 1) :: accesses 1 6 ++
    .spawn (.subscribe "t" .live ⟨1, 8, .json⟩) :: accesses 2 4

theorem later_subscription_is_listed :
    ∃ p, run step ⟨.new, []⟩ oneAfterTheOther = some p ∧
      Throughout step NoLostSubscription ⟨.new, []⟩ oneAfterTheOther ∧
      p.shared.subscribers "t" = [(2, ⟨1, 8, .json⟩)] :=
  ⟨_, rfl, no_lost_subscription .new oneAfterTheOther (by decide), rfl⟩

/-- Between the test of the list of "t" and the removal of the key, another
subscribe puts its subscription on the list. -/
def subscribeInTheGap : List (Act MpscSink) :=
  .spawn (.subscribe "t" .live ⟨0, 7, .json⟩) :: accesses 0 4 ++
    .spawn (.unsubscribe 1) :: accesses 1 2 ++
    .spawn (.subscribe "t" .live ⟨1, 8, .json⟩) :: accesses 2 4 ++ accesses 1 4

/-- All three calls have returned, nobody has targeted subscription 2, and a
message on "t" is offered to no one. -/
theorem subscription_in_the_gap_is_lost :
    ∃ p, run step ⟨.new, []⟩ subscribeInTheGap = some p ∧
      (∃ u ∈ p.threads, u.phase = .subscribed 2 "t" ⟨1, 8, .json⟩) ∧ ¬ Targeted p 2 ∧
      p.shared.byId 2 = some ("t", ⟨1, 8, .json⟩) ∧ p.shared.deliver "t" [0] = [] ∧
      ¬ NoLostSubscription p := by
  obtain ⟨p, hrun, ⟨u, hu, hs⟩, htargets, hid, hlist⟩ :
      ∃ p, run step ⟨.new, []⟩ subscribeInTheGap = some p ∧
        (∃ u, p.threads[2]? = some u ∧ u.phase = .subscribed 2 "t" ⟨1, 8, .json⟩) ∧
        p.threads.map (·.targets) = [[], [1], []] ∧
        p.shared.byId 2 = some ("t", ⟨1, 8, .json⟩) ∧ p.shared.subscribers "t" = [] :=
    ⟨_, rfl, ⟨_, rfl, rfl⟩, rfl, rfl, rfl⟩
  have hmem : u ∈ p.threads := List.mem_of_getElem? hu
  have hfree : ¬ Targeted p 2 := by
    rintro ⟨v, hv, hv2⟩
    have hin : v.targets ∈ p.threads.map (·.targets) := List.mem_map_of_mem hv
    rw [htargets] at hin
    rcases List.mem_cons.mp hin with h | h
    · simp [h] at hv2
    · rcases List.mem_cons.mp h with h | h <;> simp_all
  refine ⟨p, hrun, ⟨u, hmem, hs⟩, hfree, hid, by simp [FanoutEngine.deliver, hlist], ?_⟩
  intro h
  have hin := (h u hmem 2 "t" _ hs hfree).1
  simp [hlist] at hin

end FanoutRace

end Rifts
