import Rifts.Redis.Copies

/-! How many copies of a publish a subscription receives. -/
namespace Rifts

namespace FanoutEngine

variable {σ : Type} [FanoutSink σ] {e : FanoutEngine σ} {id : UInt64} {topic : String} {sink : σ}

theorem Coherent.countP_eq_one (hc : Coherent e) (h : e.byId id = some (topic, sink)) :
    (e.subscribers topic).countP (fun entry => entry.1 = id) = 1 := by
  rw [List.countP_eq_length_filter, (hc.listedOnce_iff.mp h).1]
  rfl

theorem Coherent.byId_of_countP_pos (hc : Coherent e)
    (h : 0 < (e.subscribers topic).countP fun entry => entry.1 = id) :
    ∃ sink, e.byId id = some (topic, sink) := by
  obtain ⟨entry, hmem, hid⟩ := List.countP_pos_iff.mp h
  obtain rfl : entry.1 = id := of_decide_eq_true hid
  exact ⟨entry.2, (hc.topics.mem topic entry).mp hmem⟩

theorem byId_of_unsubscribe {sid : UInt64} {x : String × σ}
    (h : (e.unsubscribe sid).1.byId id = some x) : e.byId id = some x := by
  rw [byId_unsubscribe] at h
  split at h
  · cases h
  · exact h

theorem byId_of_dropSink {k : UInt64} {x : String × σ} (h : (e.dropSink k).1.byId id = some x) :
    e.byId id = some x :=
  dropSink_induction (P := fun e' => e'.byId id = some x → e.byId id = some x)
    (fun _ _ ih hx => ih (byId_of_unsubscribe hx)) (fun hx => hx) h

theorem Coherent.countP_le_one (hc : Coherent e) :
    (e.subscribers topic).countP (fun entry => entry.1 = id) ≤ 1 := by
  rcases Nat.eq_zero_or_pos ((e.subscribers topic).countP fun entry => entry.1 = id) with
    hzero | hpos
  · omega
  · obtain ⟨sink, hid⟩ := hc.byId_of_countP_pos hpos
    exact le_of_eq (hc.countP_eq_one hid)

end FanoutEngine

namespace RedisCluster

open Transition RedisPhase

variable {ι σ : Type}

section

variable {u : RedisPhase ι σ} {pre post : List (RedisPhase ι σ)} {p : Calls ι σ} {n : Nat}

theorem count_returned_le_one (h : p.threads.Pairwise OwnNumber) :
    (p.threads.filterMap returned).count n ≤ 1 := by
  refine List.nodup_iff_count_le_one.mp ?_ n
  refine List.Pairwise.filterMap _ ?_ h
  intro u v huv a ha b hb hab
  obtain ⟨x, hx⟩ := route_of_returned ha
  obtain ⟨y, hy⟩ := route_of_returned hb
  subst hab
  exact huv _ x y hx hy

theorem count_returned_split : ((pre ++ u :: post).filterMap returned).count n =
    (if returned u = some n then 1 else 0) + ((pre ++ post).filterMap returned).count n := by
  rw [List.perm_middle.filterMap returned |>.count_eq n, List.filterMap_cons]
  cases hu : returned u with
  | none => simp
  | some k =>
    rw [List.count_cons]
    simp only [beq_iff_eq, Option.some.injEq]
    omega

end

variable [DecidableEq ι]

/-- How many copies of a publish a subscription has received. -/
def copies (s : Cluster ι σ) (j : ι) (id : UInt64) (n : Nat) : Nat :=
  s.received.countP fun r => r.node = j ∧ r.subscription = id ∧ r.publish = n

/-- How many messages of a publish wait for the listener of an instance. -/
def waiting (s : Cluster ι σ) (j : ι) (n : Nat) : Nat :=
  (s.inbox j).countP fun x => x.publish = n

/-- A subscription made before a publish went out receives no more than one copy of it. If
it is on the topic of the publish, it has received one when its own instance has sent the
publish, or when the publish has returned and the listener has no message of it left. -/
def ExactlyOnce (p : Calls ι σ) : Prop :=
  ∀ j id n, p.shared.since j id ≤ n → copies p.shared j id n ≤ 1 ∧
    ∀ fan sink, p.shared.fanned[n]? = some fan →
      (p.shared.fanout j).byId id = some (fan.topic, sink) →
      (j = fan.origin ∨ (∃ m outcome, published (some n) m outcome ∈ p.threads) ∧
        waiting p.shared j n = 0) → copies p.shared j id n = 1

/-- A listener takes a message that its own instance published only when no subscription
made before that publish is on the topic there, and a subscription is given an id that
is not in use. -/
def unechoed (s : Cluster ι σ) (u : RedisPhase ι σ) (input : RedisInput) : Prop :=
  match u with
  | listening j => ∀ x ∈ (s.inbox j)[input.pick]?, ∀ fan ∈ s.fanned[x.publish]?, fan.origin = j →
      ∀ entry ∈ (s.fanout j).subscribers fan.topic, x.publish < s.since j entry.1
  | registry i (.subscribe ..) => ((s.fanout i).byId ((s.fanout i).seq + 1)).isNone
  | _ => True

instance (s : Cluster ι σ) (u : RedisPhase ι σ) (input : RedisInput) :
    Decidable (unechoed s u input) :=
  match u with
  | listening j => inferInstanceAs (Decidable (∀ x ∈ (s.inbox j)[input.pick]?,
      ∀ fan ∈ s.fanned[x.publish]?, fan.origin = j →
        ∀ entry ∈ (s.fanout j).subscribers fan.topic, x.publish < s.since j entry.1))
  | registry i (.subscribe ..) =>
    inferInstanceAs (Decidable (((s.fanout i).byId ((s.fanout i).seq + 1)).isNone = true))
  | registry _ (.unsubscribe _) | registry _ (.dropSink _) | validate .. | dedupe .. | alloc ..
  | append .. | deliver .. | announce .. | published .. | refused .. | done => .isTrue trivial

section

variable [FanoutSink σ]

/-- The messages of a publish are with every listener once it has returned, and the
copies that a subscription has received are the one of its own instance and those of its
listener. -/
structure Accounted (p : Calls ι σ) : Prop where
  coherent : ∀ j, (p.shared.fanout j).Coherent
  routed : ∀ j n, waiting p.shared j n + (p.shared.heard j).count n =
    (p.threads.filterMap returned).count n
  once : ∀ j id n, p.shared.since j id ≤ n → copies p.shared j id n ≤ 1
  exact : ∀ j id n fan sink, p.shared.fanned[n]? = some fan →
    (p.shared.fanout j).byId id = some (fan.topic, sink) → p.shared.since j id ≤ n →
    copies p.shared j id n = (if j = fan.origin then 1 else 0) + (p.shared.heard j).count n

end

variable {d : RedisDeployment ι} {s s' : Cluster ι σ} {u u' v : RedisPhase ι σ}
  {pre post : List (RedisPhase ι σ)} {input : RedisInput} {p p' : Calls ι σ} {j k : ι}
  {id : UInt64} {n m : Nat} {topic : String} {data : Bytes} {op : FanoutOp σ}

/-- A delivery adds one copy for each entry of the subscription in the topic's list. -/
theorem copies_hand : copies (s.hand k topic m data) j id n = copies s j id n +
    if j = k ∧ n = m then ((s.fanout k).subscribers topic).countP fun entry => entry.1 = id
    else 0 := by
  simp only [copies, Cluster.hand, List.countP_append, List.countP_map]
  congr 1
  by_cases hjn : j = k ∧ n = m
  · rw [if_pos hjn]
    refine List.countP_congr ?_
    simp [hjn.1, hjn.2]
  · rw [if_neg hjn, List.countP_eq_zero]
    intro entry _
    simp only [Function.comp_apply, decide_eq_true_eq, not_and]
    rintro rfl - rfl
    exact hjn ⟨rfl, rfl⟩

theorem copies_eq_zero (h : Traced d p) (hn : p.shared.fanned.length ≤ n) :
    copies p.shared j id n = 0 := by
  refine List.countP_eq_zero.mpr ?_
  intro r hr
  have hlt := h.copies r hr
  simp only [decide_eq_true_eq, not_and]
  intro _ _ hpublish
  omega

variable [FanoutSink σ]

theorem exactlyOnce_of_accounted (ht : Traced d p) (h : Accounted p) : ExactlyOnce p := by
  intro j id n hsince
  refine ⟨h.once j id n hsince, ?_⟩
  intro fan sink hfan hid hdone
  have hcopies := h.exact j id n fan sink hfan hid hsince
  have honce := h.once j id n hsince
  rcases hdone with horigin | ⟨⟨m, outcome, hmem⟩, hnone⟩
  · rw [if_pos horigin] at hcopies
    omega
  · have hpos : 0 < (p.threads.filterMap returned).count n :=
      List.count_pos_iff.mpr (List.mem_filterMap.mpr ⟨_, hmem, rfl⟩)
    have hle := count_returned_le_one (n := n) ht.own
    have hrouted := h.routed j n
    omega

/-- A step with which no publish returns. -/
theorem Accounted.routed_of_eq (h : Accounted ⟨s, pre ++ u :: post⟩)
    (hreturned : returned u' = returned u) (j : ι) (n : Nat) :
    waiting s j n + (s.heard j).count n = ((pre ++ u' :: post).filterMap returned).count n := by
  have hrouted := h.routed j n
  simp only [count_returned_split, hreturned] at hrouted ⊢
  exact hrouted

theorem Accounted.coherent_update {e : FanoutEngine σ} (h : Accounted p) (hc : e.Coherent)
    (j : ι) : (Function.update p.shared.fanout k e j).Coherent := by
  by_cases hj : j = k
  · subst hj
    rwa [Function.update_self]
  · rw [Function.update_of_ne hj]
    exact h.coherent j

/-- A step that moves no message and makes no copy. -/
theorem Accounted.quiet (h : Accounted ⟨s, pre ++ u :: post⟩) (hfanned : s'.fanned = s.fanned)
    (hreceived : s'.received = s.received) (hinbox : s'.inbox = s.inbox)
    (hheard : s'.heard = s.heard) (hfanout : s'.fanout = s.fanout) (hsince : s'.since = s.since)
    (hreturned : returned u' = returned u) : Accounted ⟨s', pre ++ u' :: post⟩ := by
  have hr := h.routed_of_eq hreturned
  obtain ⟨hc, -, ho, he⟩ := h
  refine ⟨?_, ?_, ?_, ?_⟩
  · simpa only [hfanout] using hc
  · simpa only [waiting, hinbox, hheard] using hr
  · simpa only [copies, hreceived, hsince] using ho
  · simpa only [copies, hreceived, hsince, hfanned, hfanout, hheard] using he

theorem heard_lt (ht : Traced d p) (h : Accounted p) (hn : p.shared.fanned.length ≤ n) :
    (p.shared.heard j).count n = 0 := by
  have hrouted := h.routed j n
  have hzero : (p.threads.filterMap returned).count n = 0 := by
    refine List.count_eq_zero.mpr ?_
    intro hmem
    obtain ⟨u, hu, hr⟩ := List.mem_filterMap.mp hmem
    obtain ⟨x, hx⟩ := route_of_returned hr
    have hlt := ht.lt_of_route hu hx
    omega
  omega

theorem accounted_deliver {i : ι} {m : Message} {offset : Int64}
    (ht : Traced d ⟨s, pre ++ deliver i m offset :: post⟩)
    (h : Accounted ⟨s, pre ++ deliver i m offset :: post⟩) :
    Accounted ⟨{ s.hand i m.topic s.fanned.length (serializeFrameForFanout m.frame offset) with
        fanned := s.fanned ++ [⟨i, m.topic, offset⟩] },
      pre ++ announce s.fanned.length m offset :: post⟩ := by
  have hnone (j : ι) (id : UInt64) : copies s j id s.fanned.length = 0 :=
    copies_eq_zero ht (le_refl _)
  refine ⟨h.coherent, h.routed_of_eq rfl, ?_, ?_⟩
  · intro j id n hsince
    change copies (s.hand _ _ _ _) j id n ≤ 1
    rw [copies_hand]
    split
    · next hjn =>
      rw [hjn.2, hnone, Nat.zero_add]
      exact (h.coherent i).countP_le_one
    · exact h.once j id n hsince
  · intro j id n fan sink hfan hid hsince
    change copies (s.hand _ _ _ _) j id n = (if j = fan.origin then 1 else 0) + (s.heard j).count n
    rw [copies_hand]
    by_cases hn : n = s.fanned.length
    · subst hn
      obtain rfl := Option.some.inj (List.getElem?_concat_length.symm.trans hfan)
      have hheard : (s.heard j).count s.fanned.length = 0 := heard_lt ht h (le_refl _)
      rw [hnone, hheard]
      by_cases hj : j = i
      · subst hj
        rw [if_pos ⟨rfl, rfl⟩, (h.coherent j).countP_eq_one hid, if_pos rfl]
      · rw [if_neg (fun hjn => hj hjn.1), if_neg hj]
    · have hlt : n < s.fanned.length := by
        have := (List.getElem?_eq_some_iff.mp hfan).1
        rw [List.length_append, List.length_singleton] at this
        omega
      rw [if_neg (fun hjn => hn hjn.2)]
      rw [List.getElem?_append_left hlt] at hfan
      exact h.exact j id n fan sink hfan hid hsince

theorem accounted_announce {n : Nat} {m : Message} {offset : Int64} {channel : String}
    {payload : Bytes} (h : Accounted ⟨s, pre ++ announce n m offset :: post⟩) :
    Accounted ⟨{ s with inbox := fun j => s.inbox j ++ [⟨n, channel, payload⟩] },
      pre ++ published (some n) m ⟨offset, false⟩ :: post⟩ := by
  refine ⟨h.coherent, ?_, h.once, h.exact⟩
  intro j k
  have hrouted := h.routed j k
  simp only [count_returned_split, waiting, List.countP_append, List.countP_singleton, returned,
    decide_eq_true_eq, Option.some.injEq] at hrouted ⊢
  simp only [reduceCtorEq, if_false] at hrouted
  omega

/-- A listener takes a message that waits for it, so it has not taken it before. -/
theorem heard_eq_zero {x : Envelope} (ht : Traced d p) (h : Accounted p)
    (hx : x ∈ p.shared.inbox j) : (p.shared.heard j).count x.publish = 0 := by
  have hpos : 0 < waiting p.shared j x.publish :=
    List.countP_pos_iff.mpr ⟨x, hx, decide_eq_true rfl⟩
  have hrouted := h.routed j x.publish
  have hle := count_returned_le_one (n := x.publish) ht.own
  omega

theorem waiting_eraseIdx {x : Envelope} {inbox : List Envelope} {i : Nat}
    (hx : inbox[i]? = some x) :
    (inbox.eraseIdx i).countP (fun y => y.publish = n) + (if x.publish = n then 1 else 0) =
      inbox.countP fun y => y.publish = n := by
  obtain ⟨hlt, rfl⟩ := List.getElem?_eq_some_iff.mp hx
  rw [← (List.getElem_cons_eraseIdx_perm hlt).countP_eq, List.countP_cons]
  simp

/-- A message that a listener may hand out has not reached the subscription before: it is
from another instance. -/
theorem copies_eq_zero_of_unechoed {x : Envelope} {fan : Fanned ι} {sink : σ}
    (hx : (s.inbox k)[input.pick]? = some x) (hok : unechoed s (listening k) input)
    (ht : Traced d ⟨s, pre ++ listening k :: post⟩)
    (h : Accounted ⟨s, pre ++ listening k :: post⟩) (hfan : s.fanned[x.publish]? = some fan)
    (hid : (s.fanout k).byId id = some (fan.topic, sink)) (hsince : s.since k id ≤ x.publish) :
    copies s k id x.publish = 0 := by
  have hcopies : copies s k id x.publish = (if k = fan.origin then 1 else 0) +
      (s.heard k).count x.publish := h.exact k id x.publish fan sink hfan hid hsince
  have hzero : (s.heard k).count x.publish = 0 := heard_eq_zero ht h (List.mem_of_getElem? hx)
  have hother : k ≠ fan.origin := by
    intro horigin
    have hentry := ((h.coherent k).topics.mem fan.topic (id, sink)).mpr hid
    have hlate := hok x hx fan hfan horigin.symm _ hentry
    exact absurd hsince (Nat.not_le.mpr hlate)
  rw [hcopies, if_neg hother, hzero]

theorem accounted_listen {x : Envelope} {frame : Frame}
    (hx : (s.inbox k)[input.pick]? = some x) (hok : unechoed s (listening k) input)
    (ht : Traced d ⟨s, pre ++ listening k :: post⟩)
    (h : Accounted ⟨s, pre ++ listening k :: post⟩) :
    Accounted ⟨{ s.hand k (FanoutBridge.topicOf d.pre x.channel) x.publish
          (serializeFrameForFanout frame 0) with
        inbox := Function.update s.inbox k ((s.inbox k).eraseIdx input.pick)
        heard := Function.update s.heard k (s.heard k ++ [x.publish]) },
      pre ++ done :: post⟩ := by
  have hmem : x ∈ s.inbox k := List.mem_of_getElem? hx
  obtain ⟨m, outcome, i, -, hfanned, hchannel⟩ := ht.mem_returned hmem
  rw [hchannel, FanoutBridge.topicOf_topicKey]
  refine ⟨h.coherent, ?_, ?_, ?_⟩
  · intro j n
    have hrouted := h.routed j n
    simp only [count_returned_split, returned, waiting, reduceCtorEq, if_false] at hrouted ⊢
    by_cases hj : j = k
    · subst hj
      have herase := waiting_eraseIdx (n := n) hx
      simp only [Function.update_self, List.count_append, List.count_singleton, beq_iff_eq]
      omega
    · simpa only [Function.update_of_ne hj] using hrouted
  · intro j id n hsince
    change copies (s.hand k m.topic _ _) j id n ≤ 1
    rw [copies_hand]
    split
    · next hjn =>
      obtain ⟨rfl, rfl⟩ := hjn
      rcases Nat.eq_zero_or_pos (((s.fanout j).subscribers m.topic).countP fun entry =>
        entry.1 = id) with hnone | hpos
      · rw [hnone]
        exact h.once j id x.publish hsince
      · obtain ⟨sink, hid⟩ := (h.coherent j).byId_of_countP_pos hpos
        rw [copies_eq_zero_of_unechoed hx hok ht h hfanned hid hsince,
          (h.coherent j).countP_eq_one hid]
    · exact h.once j id n hsince
  · intro j id n fan sink hfan hid hsince
    change copies (s.hand k m.topic _ _) j id n = (if j = fan.origin then 1 else 0) +
      (Function.update s.heard k (s.heard k ++ [x.publish]) j).count n
    have hcopies : copies s j id n = (if j = fan.origin then 1 else 0) + (s.heard j).count n :=
      h.exact j id n fan sink hfan hid hsince
    rw [copies_hand]
    by_cases hj : j = k
    · subst hj
      have hnew : (if j = j ∧ n = x.publish then ((s.fanout j).subscribers m.topic).countP
          fun entry => entry.1 = id else 0) = [x.publish].count n := by
        by_cases hn : n = x.publish
        · subst hn
          obtain rfl := Option.some.inj (hfanned.symm.trans hfan)
          rw [if_pos ⟨rfl, rfl⟩, (h.coherent j).countP_eq_one hid, List.count_singleton_self]
        · rw [if_neg (fun hjn => hn hjn.2), List.count_eq_zero.mpr (by simpa using hn)]
      rw [Function.update_self, List.count_append, hcopies, hnew, Nat.add_assoc]
    · rw [if_neg (fun hjn => hj hjn.1), Function.update_of_ne hj]
      exact hcopies

/-- An instance that only gives up subscriptions. -/
theorem Accounted.shrink {e : FanoutEngine σ} (h : Accounted ⟨s, pre ++ registry k op :: post⟩)
    (hc : e.Coherent) (hsub : ∀ id x, e.byId id = some x → (s.fanout k).byId id = some x) :
    Accounted ⟨{ s with fanout := Function.update s.fanout k e }, pre ++ done :: post⟩ := by
  refine ⟨h.coherent_update hc, h.routed_of_eq rfl, h.once, ?_⟩
  intro j id n fan sink hfan hid hsince
  refine h.exact j id n fan sink hfan ?_ hsince
  by_cases hj : j = k
  · subst hj
    simp only [Function.update_self] at hid
    exact hsub id _ hid
  · simpa only [Function.update_of_ne hj] using hid

/-- No publish has a number that a new subscription could have been made before. -/
theorem accounted_subscribe {intent : SubscribeIntent} {sink : σ}
    (hfree : (s.fanout k).byId ((s.fanout k).seq + 1) = none)
    (ht : Traced d ⟨s, pre ++ registry k op :: post⟩)
    (h : Accounted ⟨s, pre ++ registry k op :: post⟩) :
    Accounted ⟨{ s with
        fanout := Function.update s.fanout k ((s.fanout k).subscribe topic intent sink).1
        since := Function.update s.since k
          (Function.update (s.since k) ((s.fanout k).seq + 1) s.fanned.length) },
      pre ++ done :: post⟩ := by
  refine ⟨h.coherent_update (FanoutEngine.coherent_subscribe (h.coherent k) hfree),
    h.routed_of_eq rfl, ?_, ?_⟩
  · intro j id n hsince
    change copies s j id n ≤ 1
    by_cases hnew : j = k ∧ id = (s.fanout k).seq + 1
    · obtain ⟨rfl, rfl⟩ := hnew
      simp only [Function.update_self] at hsince
      have hzero : copies s j ((s.fanout j).seq + 1) n = 0 := copies_eq_zero ht hsince
      omega
    · refine h.once j id n ?_
      by_cases hj : j = k
      · subst hj
        simpa only [Function.update_self, Function.update_of_ne (fun hid => hnew ⟨rfl, hid⟩)]
          using hsince
      · simpa only [Function.update_of_ne hj] using hsince
  · intro j id n fan sink' hfan hid hsince
    have hlt : n < s.fanned.length := (List.getElem?_eq_some_iff.mp hfan).1
    by_cases hj : j = k
    · subst hj
      simp only [Function.update_self] at hid hsince
      have hne : id ≠ (s.fanout j).seq + 1 := by
        rintro rfl
        rw [Function.update_self] at hsince
        omega
      rw [FanoutEngine.byId_subscribe, if_neg hne] at hid
      rw [Function.update_of_ne hne] at hsince
      exact h.exact j id n fan sink' hfan hid hsince
    · simp only [Function.update_of_ne hj] at hid hsince
      exact h.exact j id n fan sink' hfan hid hsince

theorem accounted_register (hok : unechoed s (registry k op) input)
    (ht : Traced d ⟨s, pre ++ registry k op :: post⟩)
    (h : Accounted ⟨s, pre ++ registry k op :: post⟩) :
    Accounted ⟨s.register k op, pre ++ done :: post⟩ := by
  cases op with
  | subscribe topic intent sink =>
    unfold Cluster.register
    dsimp only
    split
    · exact h.quiet rfl rfl rfl rfl rfl rfl rfl
    · exact accounted_subscribe (Option.isNone_iff_eq_none.mp hok) ht h
  | unsubscribe id =>
    exact h.shrink (FanoutEngine.coherent_unsubscribe (h.coherent k)) fun _ _ =>
      FanoutEngine.byId_of_unsubscribe
  | dropSink sinkId =>
    exact h.shrink (FanoutEngine.coherent_dropSink (h.coherent k)) fun _ _ =>
      FanoutEngine.byId_of_dropSink

theorem accounted_next (hn : next d s u input = some (s', u')) (hok : unechoed s u input)
    (ht : Traced d ⟨s, pre ++ u :: post⟩) (h : Accounted ⟨s, pre ++ u :: post⟩) :
    Accounted ⟨s', pre ++ u' :: post⟩ := by
  cases moves_of_next hn with
  | refuse | validate | dedupe | alloc => exact h.quiet rfl rfl rfl rfl rfl rfl rfl
  | append i m duplicate offset | unappended i m duplicate offset =>
    cases duplicate <;> exact h.quiet rfl rfl rfl rfl rfl rfl rfl
  | deliver i m offset => exact accounted_deliver ht h
  | announce n m offset => exact accounted_announce h
  | listen j envelope henv frame => exact accounted_listen henv hok ht h
  | registry i op => exact accounted_register hok ht h

theorem accounted_spawn {ts : List (RedisPhase ι σ)} (call : RedisCall ι σ)
    (h : Accounted ⟨s, ts⟩) : Accounted ⟨s, ts ++ [start call]⟩ := by
  refine ⟨h.coherent, ?_, h.once, h.exact⟩
  intro j n
  have hcall : returned (start call) = none := by cases call <;> rfl
  rw [List.filterMap_append, List.filterMap_cons_none hcall, List.filterMap_nil, List.append_nil]
  exact h.routed j n

/-- In every run of publishes, listeners and registrations at any instances, in which no
listener brings a publish back to subscriptions that its own instance has served, every
subscription receives each publish to its topic exactly once. -/
theorem fanout_reaches_once (d : RedisDeployment ι) (keys : RedisKeys)
    (offsets : String → Option Int64) (sets : RedisSets) (acts : List (Act ι σ))
    (hg : Guarded (step d) (Pool.Allows unechoed) ⟨.start keys offsets sets, []⟩ acts) :
    Throughout (step d) ExactlyOnce ⟨.start keys offsets sets, []⟩ acts := by
  have hstart : Accounted (⟨.start keys offsets sets, []⟩ : Calls ι σ) :=
    ⟨fun _ => FanoutEngine.coherent_new, by simp [waiting, Cluster.start],
      by simp [copies, Cluster.start], by simp [Cluster.start]⟩
  have hkept := throughout_of_guarded (P := fun p => Traced d p ∧ Accounted p) ?_ hg
    ⟨traced_start keys offsets sets, hstart⟩
  · exact throughout_mono hkept fun _ hp => exactlyOnce_of_accounted hp.1 hp.2
  · intro p a p' h hok hp
    refine Pool.invariant_step (I := fun p => Traced d p ∧ Accounted p) ?_ ?_ h hok hp
    · rintro s ts call ⟨ht, hs⟩
      exact ⟨traced_spawn call ht, accounted_spawn call hs⟩
    · rintro s pre u post input s' u' hn hok ⟨ht, hs⟩
      exact ⟨traced_next hn ht, accounted_next hn hok ht hs⟩

/-- Each instance has a subscriber and publishes once, and no listener takes what its own
instance has sent. -/
def crossTraffic : List (Act Bool MpscSink) :=
  subscribeCall false 0 ++ subscribeCall true 1 ++ publishCall false "a" "m" 2 ++
    listenCall true 3 ++ publishCall true "a" "n" 4 ++
    [.spawn (.listen false), .advance 5 { pick := 1 }]

theorem cross_traffic_arrives_once :
    ∃ p, run (step twoNodes) ⟨.start (fun _ => none) (fun _ => none) (fun _ => .empty), []⟩
        crossTraffic = some p ∧
      p.shared.received.map (fun r => (r.node, r.subscription, r.publish)) =
        [(false, 1, 0), (true, 1, 0), (true, 1, 1), (false, 1, 1)] ∧ ExactlyOnce p := by
  obtain ⟨p, hrun, hreceived⟩ : ∃ p, run (step twoNodes)
      ⟨.start (fun _ => none) (fun _ => none) (fun _ => .empty), []⟩ crossTraffic = some p ∧
      p.shared.received.map (fun r => (r.node, r.subscription, r.publish)) =
        [(false, 1, 0), (true, 1, 0), (true, 1, 1), (false, 1, 1)] := by decide +kernel
  refine ⟨p, hrun, hreceived, ?_⟩
  exact throughout_last (fanout_reaches_once twoNodes (fun _ => none) (fun _ => none)
    (fun _ => .empty) _ (by decide +kernel)) hrun

/-- One instance, one subscriber and one publish: the subscriber receives it from `publish`
and again from the listener. -/
theorem own_listener_delivers_again :
    ∃ p, run (step twoNodes) ⟨.start (fun _ => none) (fun _ => none) (fun _ => .empty), []⟩
        (subscribeCall false 0 ++ publishCall false "a" "m" 1 ++ listenCall false 2) = some p ∧
      p.threads[1]? = some (.published (some 0) ⟨plainFrame "a" "m", "a", "m"⟩ ⟨1, false⟩) ∧
      copies p.shared false 1 0 = 2 ∧ ¬ ExactlyOnce p := by
  obtain ⟨p, hrun, hthread, hsince, htwo⟩ : ∃ p, run (step twoNodes)
      ⟨.start (fun _ => none) (fun _ => none) (fun _ => .empty), []⟩
        (subscribeCall false 0 ++ publishCall false "a" "m" 1 ++ listenCall false 2) = some p ∧
      p.threads[1]? = some (.published (some 0) ⟨plainFrame "a" "m", "a", "m"⟩ ⟨1, false⟩) ∧
      p.shared.since false 1 = 0 ∧ copies p.shared false 1 0 = 2 :=
    ⟨_, rfl, rfl, by decide +kernel, by decide +kernel⟩
  refine ⟨p, hrun, hthread, htwo, ?_⟩
  intro honce
  have hle := (honce false 1 0 (le_of_eq hsince)).1
  omega

end RedisCluster

end Rifts
