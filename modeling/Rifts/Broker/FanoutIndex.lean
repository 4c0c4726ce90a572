import Rifts.Broker.Fanout

/-! The three indexes of the fanout engine describe one set of subscriptions. -/
namespace Rifts

/-- A call on the engine, run to completion. -/
inductive FanoutOp (σ : Type)
  | subscribe (topic : String) (intent : SubscribeIntent) (sink : σ)
  | unsubscribe (id : UInt64)
  | dropSink (sinkId : UInt64)

def FanoutOp.isSubscribe {σ : Type} : FanoutOp σ → Bool
  | subscribe .. => true
  | _ => false

namespace FanoutEngine

variable {σ : Type} {e : FanoutEngine σ} {id sid k : UInt64} {topic t : String}
  {intent : SubscribeIntent} {sink : σ} {ops : List (FanoutOp σ)}

/-- The subscriptions filed under a sink id. -/
def held (e : FanoutEngine σ) (k : UInt64) : List UInt64 := KeyedLists.listed e.bySink k

/-- The id is the mark of one entry of the topic's list, with this sink, and of no
entry of another list. -/
def ListedOnce (e : FanoutEngine σ) (id : UInt64) (topic : String) (sink : σ) : Prop :=
  (e.subscribers topic).filter (fun entry => entry.1 = id) = [(id, sink)] ∧
    ∀ t, t ≠ topic → ∀ entry ∈ e.subscribers t, entry.1 ≠ id

/-- The id occurs once in the list of the sink id, and in no other. -/
def HeldOnce (e : FanoutEngine σ) (id k : UInt64) : Prop :=
  (e.held k).count id = 1 ∧ ∀ k', k' ≠ k → id ∉ e.held k'

/-- The ids handed out are the first `n`. -/
structure Drawn (n : Nat) (e : FanoutEngine σ) : Prop where
  seq : e.seq = UInt64.ofNat n
  ids : ∀ id x, e.byId id = some x → ∃ m, 0 < m ∧ m ≤ n ∧ id = UInt64.ofNat m

theorem drawn_new : Drawn 0 (new : FanoutEngine σ) := ⟨rfl, by simp [new]⟩

/-- The id after the first `n` is none of them until all 64-bit ids have been handed out. -/
theorem next_ne_ofNat {m n : Nat} (hpos : 0 < m) (hle : m ≤ n) (hn : n < 2 ^ 64) :
    UInt64.ofNat n + 1 ≠ UInt64.ofNat m := by
  intro hm
  have hnat := congrArg UInt64.toNat hm
  rw [UInt64.toNat_add, UInt64.toNat_ofNat', UInt64.toNat_ofNat'] at hnat
  simp only [UInt64.reduceToNat] at hnat
  omega

theorem Drawn.fresh {n : Nat} (h : Drawn n e) (hn : n < 2 ^ 64) : e.byId (e.seq + 1) = none := by
  by_contra hne
  obtain ⟨x, hx⟩ := Option.ne_none_iff_exists'.mp hne
  obtain ⟨m, hpos, hle, hm⟩ := h.ids _ _ hx
  rw [h.seq] at hm
  exact next_ne_ofNat hpos hle hn hm

variable [FanoutSink σ]

def exec (e : FanoutEngine σ) : FanoutOp σ → FanoutEngine σ
  | .subscribe topic intent sink => (e.subscribe topic intent sink).1
  | .unsubscribe id => (e.unsubscribe id).1
  | .dropSink sinkId => (e.dropSink sinkId).1

/-- Some subscription of a sink with this id has this id. -/
def Holds (e : FanoutEngine σ) (k id : UInt64) : Prop :=
  ∃ topic sink, e.byId id = some (topic, sink) ∧ FanoutSink.id sink = k

/-- The topic and sink lists are filed by `byId`. -/
structure Coherent (e : FanoutEngine σ) : Prop where
  topics : KeyedLists.Filed e.byTopic Prod.fst fun topic entry =>
    e.byId entry.1 = some (topic, entry.2)
  sinks : KeyedLists.Filed e.bySink (fun sid => sid) e.Holds

theorem coherent_new : Coherent (new : FanoutEngine σ) := by
  constructor
  · exact KeyedLists.filed_empty.congr (by simp [new])
  · exact KeyedLists.filed_empty.congr (by simp [new, Holds])

theorem byId_subscribe : (e.subscribe topic intent sink).1.byId sid =
    if sid = e.seq + 1 then some (topic, sink) else e.byId sid := by
  simp [subscribe, Function.update_apply]

theorem byId_unsubscribe :
    (e.unsubscribe id).1.byId sid = if sid = id then none else e.byId sid := by
  unfold unsubscribe
  split
  · next h =>
    split
    · next hs => rw [hs, h]
    · rfl
  · simp [Function.update_apply]

theorem seq_unsubscribe : (e.unsubscribe id).1.seq = e.seq := by
  unfold unsubscribe
  split <;> rfl

/-- A subscription is filed in all three indexes when its id is not in use. -/
theorem coherent_subscribe (hc : Coherent e) (hfresh : e.byId (e.seq + 1) = none) :
    Coherent (e.subscribe topic intent sink).1 := by
  constructor
  · have hnew : ∀ entry : UInt64 × σ, e.byId entry.1 = some (topic, entry.2) →
        entry.1 ≠ (e.seq + 1, sink).1 := by
      rintro entry hentry hid
      rw [hid, hfresh] at hentry
      cases hentry
    refine (hc.topics.push hnew).congr ?_
    rintro t ⟨sid, s⟩
    rw [byId_subscribe]
    by_cases hid : sid = e.seq + 1
    · subst hid
      simp [hfresh, eq_comm]
    · simp [hid]
  · have hnew : ∀ sid, e.Holds (FanoutSink.id sink) sid → sid ≠ e.seq + 1 := by
      rintro sid ⟨t, s, hs, -⟩ hid
      rw [hid, hfresh] at hs
      cases hs
    refine (hc.sinks.push hnew).congr ?_
    intro k sid
    simp only [Holds, byId_subscribe]
    by_cases hid : sid = e.seq + 1
    · subst hid
      simp [hfresh, eq_comm]
    · simp [hid]

theorem coherent_unsubscribe (hc : Coherent e) : Coherent (e.unsubscribe id).1 := by
  cases h : e.byId id with
  | none =>
    rw [unsubscribe_unknown h]
    exact hc
  | some entry =>
    obtain ⟨topic, sink⟩ := entry
    constructor
    · have hone : ∀ t (entry : UInt64 × σ), e.byId entry.1 = some (t, entry.2) → entry.1 = id →
          t = topic := by
        rintro t entry hentry rfl
        exact (Prod.mk.inj (Option.some.inj (hentry.symm.trans h))).1
      have hkeep : ∀ entry : UInt64 × σ, (entry.1 != id) = true ↔ entry.1 ≠ id := by simp
      have hfiled := hc.topics.retain hkeep hone
      have hmap : (e.unsubscribe id).1.byTopic =
          KeyedLists.retain e.byTopic topic fun entry => entry.1 != id := by
        simp only [unsubscribe, h]
      rw [hmap]
      refine hfiled.congr ?_
      rintro t ⟨sid, s⟩
      rw [byId_unsubscribe]
      by_cases hid : sid = id <;> simp [hid]
    · have hone : ∀ k sid, e.Holds k sid → sid = id → k = FanoutSink.id sink := by
        rintro k sid ⟨t, s, hs, rfl⟩ rfl
        cases hs.symm.trans h
        rfl
      have hkeep : ∀ sid : UInt64, (sid != id) = true ↔ sid ≠ id := by simp
      have hfiled := hc.sinks.retain hkeep hone
      have hmap : (e.unsubscribe id).1.bySink =
          KeyedLists.retain e.bySink (FanoutSink.id sink) fun sid => sid != id := by
        simp only [unsubscribe, h]
      rw [hmap]
      refine hfiled.congr ?_
      intro k sid
      simp only [Holds, byId_unsubscribe]
      by_cases hid : sid = id <;> simp [hid]

/-- The loop of `drop_sink` over the ids it has read. -/
def removeAll (e : FanoutEngine σ) (ids : List UInt64) (topics : List String) :
    FanoutEngine σ × List String :=
  ids.foldl (fun (e, topics) id =>
    match e.unsubscribe id with
    | (e, some topic) => (e, topics ++ [topic])
    | (e, none) => (e, topics)) (e, topics)

theorem dropSink_eq : e.dropSink k = e.removeAll (e.held k) [] := rfl

theorem removeAll_unknown {ids : List UInt64} {topics : List String} (h : e.byId id = none) :
    e.removeAll (id :: ids) topics = e.removeAll ids topics := by
  simp only [removeAll, List.foldl_cons, unsubscribe_unknown h]

theorem removeAll_known {ids : List UInt64} {topics : List String}
    (h : e.byId id = some (topic, sink)) :
    e.removeAll (id :: ids) topics = (e.unsubscribe id).1.removeAll ids (topics ++ [topic]) := by
  have htopic : (e.unsubscribe id).2 = some topic := by
    simp only [unsubscribe, h]
  rcases hu : e.unsubscribe id with ⟨e', o⟩
  obtain rfl : o = some topic := by rw [← htopic, hu]
  simp only [removeAll, List.foldl_cons, hu]

theorem removeAll_cons (id : UInt64) (ids : List UInt64) (topics : List String) :
    ∃ topics', e.removeAll (id :: ids) topics = (e.unsubscribe id).1.removeAll ids topics' := by
  cases h : e.byId id with
  | none =>
    refine ⟨topics, ?_⟩
    rw [removeAll_unknown h, unsubscribe_unknown h]
  | some entry => exact ⟨_, removeAll_known h⟩

/-- What the unsubscribes of `drop_sink` keep, it keeps. -/
theorem dropSink_induction {P : FanoutEngine σ → Prop}
    (hstep : ∀ e id, P e → P (e.unsubscribe id).1) (h : P e) : P (e.dropSink k).1 := by
  have hall (ids : List UInt64) (topics : List String) (e : FanoutEngine σ) (h : P e) :
      P (e.removeAll ids topics).1 := by
    induction ids generalizing e topics with
    | nil => exact h
    | cons id ids ih =>
      obtain ⟨topics', hcons⟩ := removeAll_cons (e := e) id ids topics
      rw [hcons]
      exact ih topics' _ (hstep e id h)
  exact hall _ _ e h

theorem coherent_dropSink (hc : Coherent e) : Coherent (e.dropSink k).1 :=
  dropSink_induction (fun _ _ h => coherent_unsubscribe h) hc

theorem drawn_subscribe {n : Nat} (h : Drawn n e) :
    Drawn (n + 1) (e.subscribe topic intent sink).1 := by
  have hid : e.seq + 1 = UInt64.ofNat (n + 1) := by
    rw [h.seq, UInt64.ofNat_add]
    rfl
  refine ⟨hid, ?_⟩
  intro sid x hx
  rw [byId_subscribe] at hx
  split at hx
  · next hs => exact ⟨n + 1, by omega, by omega, hs.trans hid⟩
  · obtain ⟨m, hpos, hle, hm⟩ := h.ids sid x hx
    exact ⟨m, hpos, by omega, hm⟩

theorem drawn_unsubscribe {n : Nat} (h : Drawn n e) : Drawn n (e.unsubscribe id).1 := by
  refine ⟨seq_unsubscribe.trans h.seq, ?_⟩
  intro sid x hx
  rw [byId_unsubscribe] at hx
  split at hx
  · cases hx
  · exact h.ids sid x hx

/-- Calls from an empty engine, one after the other. -/
def after (ops : List (FanoutOp σ)) : FanoutEngine σ := ops.foldl exec new

theorem coherent_after (hops : ops.countP FanoutOp.isSubscribe ≤ 2 ^ 64) :
    Coherent (after ops) ∧ Drawn (ops.countP FanoutOp.isSubscribe) (after ops) := by
  induction ops using List.reverseRecOn with
  | nil => exact ⟨coherent_new, drawn_new⟩
  | append_singleton ops op ih =>
    rw [List.countP_append] at hops
    obtain ⟨hc, hd⟩ := ih (by omega)
    rw [after, List.foldl_append, ← after, List.countP_append]
    cases op with
    | subscribe topic intent sink =>
      have hlt : ops.countP FanoutOp.isSubscribe < 2 ^ 64 := by
        simp only [List.countP_singleton, FanoutOp.isSubscribe, if_true] at hops
        omega
      exact ⟨coherent_subscribe hc (hd.fresh hlt), drawn_subscribe hd⟩
    | unsubscribe id => exact ⟨coherent_unsubscribe hc, drawn_unsubscribe hd⟩
    | dropSink k =>
      exact ⟨coherent_dropSink hc, dropSink_induction (fun _ _ h => drawn_unsubscribe h) hd⟩

theorem Coherent.listedOnce_iff (hc : Coherent e) :
    e.byId id = some (topic, sink) ↔ ListedOnce e id topic sink := by
  constructor
  · intro h
    refine ⟨hc.topics.filter_mark (x := (id, sink)) h, ?_⟩
    rintro t ht ⟨sid, s⟩ hmem rfl
    have heq := ((hc.topics.mem t _).mp hmem).symm.trans h
    exact ht (Prod.mk.inj (Option.some.inj heq)).1
  · rintro ⟨h, -⟩
    have hmem : (id, sink) ∈ e.subscribers topic := by
      refine List.mem_of_mem_filter (p := fun entry => entry.1 = id) ?_
      rw [h]
      exact List.mem_singleton_self _
    exact (hc.topics.mem topic _).mp hmem

theorem Coherent.heldOnce_iff (hc : Coherent e) : e.Holds k id ↔ HeldOnce e id k := by
  constructor
  · intro h
    have hmem : id ∈ e.held k := (hc.sinks.mem k id).mpr h
    have hn : (e.held k).Nodup := by
      have := hc.sinks.nodup k
      rwa [List.map_id'] at this
    refine ⟨List.count_eq_one_of_mem hn hmem, ?_⟩
    intro k' hk' hmem'
    obtain ⟨t, s, hs, rfl⟩ := h
    obtain ⟨t', s', hs', rfl⟩ := (hc.sinks.mem k' id).mp hmem'
    cases hs.symm.trans hs'
    exact hk' rfl
  · rintro ⟨h, -⟩
    have hmem : id ∈ e.held k := List.count_pos_iff.mp (by omega)
    exact (hc.sinks.mem k id).mp hmem

theorem Coherent.bySink_eq_none (hc : Coherent e) (h : ∀ id, id ∉ e.held k) :
    e.bySink k = none := by
  have hnil : e.held k = [] := List.eq_nil_iff_forall_not_mem.mpr h
  cases hk : e.bySink k with
  | none => rfl
  | some ids =>
    rw [held, KeyedLists.listed, hk, Option.getD_some] at hnil
    exact absurd (hnil ▸ hk) (hc.sinks.nonempty k)

/-- After any calls with fewer than 2^64 subscribes among them, the three indexes
list the same subscriptions, each once, and no key has an empty list. -/
theorem fanout_index_coherent (ops : List (FanoutOp σ))
    (hops : ops.countP FanoutOp.isSubscribe < 2 ^ 64) :
    (∀ id topic sink, (after ops).byId id = some (topic, sink) ↔
      ListedOnce (after ops) id topic sink) ∧
    (∀ id k, (∃ topic sink, (after ops).byId id = some (topic, sink) ∧ FanoutSink.id sink = k) ↔
      HeldOnce (after ops) id k) ∧
    (∀ topic entry, entry ∈ (after ops).subscribers topic →
      (after ops).byId entry.1 = some (topic, entry.2)) ∧
    (∀ k id, id ∈ (after ops).held k →
      ∃ topic sink, (after ops).byId id = some (topic, sink) ∧ FanoutSink.id sink = k) ∧
    (∀ topic, (after ops).byTopic topic ≠ some []) ∧ ∀ k, (after ops).bySink k ≠ some [] := by
  have hc : Coherent (after ops) := (coherent_after (by omega)).1
  refine ⟨?_, ?_, ?_, ?_, hc.topics.nonempty, hc.sinks.nonempty⟩
  · intro id topic sink
    exact hc.listedOnce_iff
  · intro id k
    exact hc.heldOnce_iff
  · intro topic entry hmem
    exact (hc.topics.mem topic entry).mp hmem
  · intro k id hmem
    exact (hc.sinks.mem k id).mp hmem

/-- One sink on a topic twice, another sink with the same id on it too, a repeated
unsubscribe and a dropped sink. -/
def sharedSinkIds : List (FanoutOp MpscSink) :=
  [.subscribe "a" .live ⟨0, 7, .json⟩, .subscribe "a" .live ⟨0, 7, .json⟩,
    .subscribe "a" .live ⟨1, 7, .json⟩, .subscribe "b" .live ⟨2, 8, .json⟩, .unsubscribe 2,
    .unsubscribe 2, .dropSink 8]

theorem shared_sink_ids_stay_listed :
    ListedOnce (after sharedSinkIds) 3 "a" ⟨1, 7, .json⟩ ∧ HeldOnce (after sharedSinkIds) 1 7 := by
  have h := fanout_index_coherent sharedSinkIds (by decide)
  exact ⟨(h.1 3 "a" ⟨1, 7, .json⟩).mp rfl, (h.2.1 1 7).mp ⟨"a", ⟨0, 7, .json⟩, rfl, rfl⟩⟩

end FanoutEngine

end Rifts
