import Mathlib.Data.Set.Card
import Mathlib.Data.Multiset.Range
import Rifts.Broker.IdWrap
import Rifts.Broker.SubscribeSteps
import Rifts.Sync.Sequence

/-! Subscriber counts under concurrent subscribes, unsubscribes and drops. -/
namespace Rifts

open Transition

namespace SubscriberCount

variable {O L D S σ : Type}

abbrev Calls (O L D S σ : Type) := Pool (InMemoryBroker O L D S σ) (BrokerPhase σ)

abbrev Act (σ : Type) := Pool.Act (FanoutOp σ) Bool

def step [FanoutSink σ] (p : Calls O L D S σ) (a : Act σ) : Option (Calls O L D S σ) :=
  Pool.step BrokerPhase.program p a

def Act.isSubscribe : Act σ → Bool
  | .spawn op => op.isSubscribe
  | .advance .. => false

/-- The call has returned to its caller. -/
def returned : BrokerPhase σ → Bool
  | .fanout ⟨_, .subscribed ..⟩ | .release [] _ | .refused _ => true
  | _ => false

/-- The call is a subscribe. -/
def subscribing : BrokerPhase σ → Bool
  | .validate .. | .route .. | .load .. | .attempt .. | .refused _ => true
  | .fanout ⟨_, .draw ..⟩ | .fanout ⟨_, .pushTopic ..⟩ | .fanout ⟨_, .insertId ..⟩
  | .fanout ⟨_, .pushSink ..⟩ | .fanout ⟨_, .subscribed ..⟩ => true
  | _ => false

/-- The subscription is in `byId`, on this topic. -/
def Live (b : InMemoryBroker O L D S σ) (t : String) (id : UInt64) : Prop :=
  (b.fanout.byId id).map Prod.fst = some t

instance {b : InMemoryBroker O L D S σ} {t : String} {id : UInt64} : Decidable (Live b t id) :=
  inferInstanceAs (Decidable (_ = _))

/-- One field of the tallies, over all calls. -/
def sumOf {α : Type} (f : Tally → List α) (ts : List (BrokerPhase σ)) : Multiset α :=
  Pool.total (fun u => (f u.tally : Multiset α)) ts

def drawn (ts : List (BrokerPhase σ)) : Multiset UInt64 := sumOf Tally.drawn ts

def inserted (ts : List (BrokerPhase σ)) : Multiset (UInt64 × String) := sumOf Tally.inserted ts

def taken (ts : List (BrokerPhase σ)) : Multiset (UInt64 × String) := sumOf Tally.taken ts

/-- The decrements made so far, each with the subscription it was made for. -/
def released (ts : List (BrokerPhase σ)) : Multiset (UInt64 × String) := sumOf Tally.released ts

def slots (ts : List (BrokerPhase σ)) : Multiset String := sumOf (fun x => x.slot.toList) ts

/-- The accounts at one point of a run. No counter is above its limit, one that is
about to be decremented is not zero, and no subscription is decremented twice. When
all calls have returned, the counters are the numbers of entries in `byId`, a
subscription was decremented if and only if it has left `byId`, and every
decrement was for a subscription. -/
structure Accounted (p : Calls O L D S σ) : Prop where
  limit : p.shared.store.WithinLimits
  positive : ∀ id t todo done, .release ((id, t) :: todo) done ∈ p.threads →
    0 < p.shared.store.subscribers t
  once : ∀ id t, (released p.threads).count (id, t) ≤ 1
  count : (∀ u ∈ p.threads, returned u) → ∀ t,
    p.shared.store.subscribers t = Set.ncard {id | Live p.shared t id}
  gone : (∀ u ∈ p.threads, returned u) → ∀ ts id t sink,
    .fanout ⟨ts, .subscribed id t sink⟩ ∈ p.threads →
    ((released p.threads).count (id, t) = 1 ↔ ¬ Live p.shared t id)
  owned : (∀ u ∈ p.threads, returned u) → ∀ id t, (id, t) ∈ released p.threads →
    ∃ ts sink, .fanout ⟨ts, .subscribed id t sink⟩ ∈ p.threads

section Tallies

variable {u : BrokerPhase σ} {ts : List (BrokerPhase σ)}

/-- A subscription is put in `byId` by the call that has drawn its id and has a
slot on its topic. -/
theorem inserted_tally : u.tally.inserted = [] ∨
    ∃ id t, u.tally.inserted = [(id, t)] ∧ u.tally.drawn = [id] ∧ u.tally.slot = some t := by
  rcases u with _ | _ | _ | _ | ⟨_, phase⟩ | _ | _
  case fanout => cases phase <;> simp [BrokerPhase.tally, FanoutPhase.tally]
  all_goals exact .inl rfl

/-- Slots are given back for subscriptions that were taken out of `byId`. -/
theorem released_tally : u.tally.released <+: u.tally.taken := by
  rcases u with _ | _ | _ | _ | ⟨_, phase⟩ | ⟨todo, done⟩ | _
  case fanout => cases phase <;> exact List.nil_prefix
  case release => exact List.prefix_append done todo
  all_goals exact List.nil_prefix

theorem drawn_tally : u.tally.drawn.length ≤ if subscribing u then 1 else 0 := by
  rcases u with _ | _ | _ | _ | ⟨_, phase⟩ | _ | _
  case fanout => cases phase <;> simp [BrokerPhase.tally, FanoutPhase.tally, subscribing]
  all_goals simp [BrokerPhase.tally]

theorem returned_tally (h : returned u) : u.tally.taken = u.tally.released ∧
    (u.tally.inserted.map Prod.snd) = u.tally.slot.toList ∧
    ∀ id t, (id, t) ∈ u.tally.inserted → ∃ ts sink, u = .fanout ⟨ts, .subscribed id t sink⟩ := by
  rcases u with _ | _ | _ | _ | ⟨_, phase⟩ | ⟨todo, done⟩ | _
  case fanout => cases phase <;> simp [BrokerPhase.tally, FanoutPhase.tally, returned] at h ⊢
  case release =>
    cases todo with
    | nil => simp [BrokerPhase.tally]
    | cons => simp [returned] at h
  all_goals simp [BrokerPhase.tally, returned] at h ⊢

theorem mem_sumOf {α : Type} {f : Tally → List α} {x : α} :
    x ∈ sumOf f ts ↔ ∃ u ∈ ts, x ∈ f u.tally := Pool.mem_total

theorem map_sumOf {α β : Type} {f : Tally → List α} (g : α → β) :
    (sumOf f ts).map g = sumOf (fun x => (f x).map g) ts :=
  Pool.map_total (Multiset.mapAddMonoidHom g)

theorem sumOf_mono {α : Type} {f g : Tally → List α}
    (h : ∀ u ∈ ts, List.Sublist (f u.tally) (g u.tally)) : sumOf f ts ≤ sumOf g ts :=
  Pool.total_mono fun u hu => Multiset.coe_le.mpr (h u hu).subperm

theorem released_le : released ts ≤ taken ts := sumOf_mono fun _ _ => released_tally.sublist

theorem ids_inserted_le : (inserted ts).map Prod.fst ≤ drawn ts := by
  rw [inserted, map_sumOf]
  refine sumOf_mono ?_
  intro u _
  rcases inserted_tally (u := u) with h | ⟨id, t, h, hd, -⟩
  · simp [h]
  · simp [h, hd]

theorem topics_inserted_le : (inserted ts).map Prod.snd ≤ slots ts := by
  rw [inserted, map_sumOf]
  refine sumOf_mono ?_
  intro u _
  rcases inserted_tally (u := u) with h | ⟨id, t, h, -, hs⟩
  · simp [h]
  · simp [h, hs]

theorem taken_of_returned (h : ∀ u ∈ ts, returned u) : taken ts = released ts := by
  refine le_antisymm (sumOf_mono ?_) released_le
  intro u hu
  rw [(returned_tally (h u hu)).1]

theorem slots_of_returned (h : ∀ u ∈ ts, returned u) : slots ts = (inserted ts).map Prod.snd := by
  refine le_antisymm ?_ topics_inserted_le
  rw [inserted, map_sumOf]
  refine sumOf_mono ?_
  intro u hu
  rw [(returned_tally (h u hu)).2.1]

end Tallies

/-- When `I` is `T` and one of each pair of a relation, the relation makes up the
difference of their marks. -/
theorem count_add_ncard {α β : Type} [DecidableEq α] [DecidableEq β] {I T : Multiset (α × β)}
    {R : β → α → Prop} [∀ y x, Decidable (R y x)]
    (h : ∀ x y, T.count (x, y) + (if R y x then 1 else 0) = I.count (x, y)) (y : β) :
    (T.map Prod.snd).count y + Set.ncard {x | R y x} = (I.map Prod.snd).count y := by
  have hle : T ≤ I := by
    rw [Multiset.le_iff_count]
    rintro ⟨x, y⟩
    have := h x y
    omega
  obtain ⟨K, rfl⟩ := Multiset.le_iff_exists_add.mp hle
  have hK : ∀ x y, K.count (x, y) = if R y x then 1 else 0 := by
    intro x y
    have := h x y
    rw [Multiset.count_add] at this
    omega
  have hmem : ∀ x y, (x, y) ∈ K ↔ R y x := by
    intro x y
    rw [← Multiset.count_pos, hK]
    split <;> simp_all
  have hnodup : K.Nodup := by
    rw [Multiset.nodup_iff_count_le_one]
    rintro ⟨x, y⟩
    rw [hK]
    split <;> omega
  have hxs : ((K.filter fun e => y = e.2).map Prod.fst).Nodup := by
    refine (hnodup.filter _).map_on ?_
    intro e he e' he' hfst
    have hsnd : e.2 = e'.2 :=
      (Multiset.mem_filter.mp he).2.symm.trans (Multiset.mem_filter.mp he').2
    exact Prod.ext hfst hsnd
  have hset : {x | R y x} = ((⟨_, hxs⟩ : Finset α) : Set α) := by
    ext x
    simp [hmem]
  have hcount : (K.map Prod.snd).count y = ((K.filter fun e => y = e.2).map Prod.fst).card := by
    rw [Multiset.count_map, Multiset.card_map]
  rw [hset, Set.ncard_coe_finset, Multiset.map_add, Multiset.count_add, hcount]
  rfl

/-- The ids in the order they are drawn. -/
def nthId (m : Nat) : UInt64 := UInt64.ofNat (m + 1)

theorem nthId_succ (m : Nat) : nthId (m + 1) = nthId m + 1 := UInt64.ofNat_add (m + 1) 1

theorem nthId_inj {m n : Nat} (hm : m < 2 ^ 64) (hn : n < 2 ^ 64) (h : nthId m = nthId n) :
    m = n := by
  have hnat := congrArg UInt64.toNat h
  rw [nthId, nthId, UInt64.toNat_ofNat', UInt64.toNat_ofNat'] at hnat
  omega

/-- The accounts behind the counters. -/
structure Books (p : Calls O L D S σ) : Prop where
  ids : Sequence.Issued nthId (p.shared.fanout.seq + 1) (drawn p.threads)
  live : ∀ id t, (taken p.threads).count (id, t) + (if Live p.shared t id then 1 else 0) =
    (inserted p.threads).count (id, t)
  slots : ∀ t, p.shared.store.subscribers t + ((released p.threads).map Prod.snd).count t =
    (slots p.threads).count t
  limit : p.shared.store.WithinLimits

section Step

variable {p p' : Calls O L D S σ} {b b' : InMemoryBroker O L D S σ} {u u' : BrokerPhase σ}
  {pre post : List (BrokerPhase σ)} {id : UInt64} {t : String} {todo : List (UInt64 × String)}

theorem sumOf_split {α : Type} {f : Tally → List α} :
    sumOf f (pre ++ u :: post) = f u.tally + sumOf f (pre ++ post) := Pool.total_split

theorem Books.taken_le (hb : Books p) : taken p.threads ≤ inserted p.threads := by
  rw [Multiset.le_iff_count]
  rintro ⟨id, t⟩
  have := hb.live id t
  omega

/-- The subscription a call is about to decrement for has left `byId` and still has
its slot. -/
theorem Books.positive (hb : Books p) (hu : u ∈ p.threads)
    (h : u.tally.taken = u.tally.released ++ (id, t) :: todo) :
    0 < p.shared.store.subscribers t := by
  obtain ⟨pre, post, hp⟩ := List.append_of_mem hu
  have hlt : {(id, t)} + released p.threads ≤ taken p.threads := by
    have hown : {(id, t)} + (u.tally.released : Multiset (UInt64 × String)) ≤ u.tally.taken := by
      rw [h, Multiset.singleton_add, Multiset.cons_coe, Multiset.coe_le,
        List.perm_middle.subperm_left]
      exact ((List.sublist_append_left _ todo).cons_cons _).subperm
    rw [hp, released, taken, sumOf_split, sumOf_split, ← add_assoc]
    exact add_le_add hown released_le
  have hslots : ({(id, t)} + released p.threads).map Prod.snd ≤ SubscriberCount.slots p.threads :=
    (Multiset.map_le_map (hlt.trans hb.taken_le)).trans topics_inserted_le
  have hcount := Multiset.le_iff_count.mp hslots t
  have hs := hb.slots t
  simp only [Multiset.map_add, Multiset.map_singleton, Multiset.count_add,
    Multiset.count_singleton_self] at hcount
  omega

theorem Books.drawn_nodup (hb : Books p) (hle : (drawn p.threads).card ≤ 2 ^ 64) :
    (drawn p.threads).Nodup := by
  refine hb.ids.nodup ?_
  intro m n hm hn
  exact nthId_inj (by omega) (by omega)

/-- An id that a call has drawn and not yet put in `byId` is not in `byId`. -/
theorem fresh_of_drawn (hb : Books ⟨b, pre ++ u :: post⟩)
    (hn : (drawn (pre ++ u :: post)).Nodup) (hd : u.tally.drawn = [id])
    (hi : u.tally.inserted = []) : ¬ Live b t id := by
  intro hlive
  have hcount : _ + (if Live b t id then 1 else 0) = _ := hb.live id t
  rw [if_pos hlive] at hcount
  have hmem : (id, t) ∈ inserted (pre ++ u :: post) :=
    Multiset.count_pos.mp (hcount ▸ Nat.succ_pos _)
  rw [inserted, sumOf_split, hi, Multiset.mem_add] at hmem
  have hid : id ∈ drawn (pre ++ post) := by
    refine Multiset.mem_of_le ids_inserted_le (Multiset.mem_map.mpr ⟨(id, t), ?_, rfl⟩)
    exact hmem.resolve_left (Multiset.notMem_zero _)
  rw [drawn, sumOf_split, Multiset.nodup_add, hd] at hn
  exact Multiset.disjoint_left.mp hn.2.2 (Multiset.mem_coe.mpr (List.mem_singleton_self id)) hid

/-- `byId` before and after a subscription is put in it. -/
theorem live_update {id₀ : UInt64} {t₀ : String} {sink : σ} (hnone : b.fanout.byId id₀ = none)
    (hid : b'.fanout.byId = Function.update b.fanout.byId id₀ (some (t₀, sink))) :
    (if Live b' t id then 1 else 0) =
      Multiset.count (id, t) {(id₀, t₀)} + if Live b t id then 1 else 0 := by
  rw [Multiset.count_singleton]
  by_cases hx : id = id₀
  · subst hx
    have hold : ¬ Live b t id := by simp [Live, hnone]
    have hnew : Live b' t id ↔ t = t₀ := by simp [Live, hid, eq_comm]
    simp [hold, hnew]
  · have hsame : Live b' t id ↔ Live b t id := by simp [Live, hid, hx]
    simp [hsame, hx]

theorem live_effect (he : BrokerPhase.Effect b u b' u') (hb : Books ⟨b, pre ++ u :: post⟩)
    (hn : (drawn (pre ++ u :: post)).Nodup) (id : UInt64) (t : String) :
    (taken (pre ++ u' :: post)).count (id, t) + (if Live b' t id then 1 else 0) =
      (inserted (pre ++ u' :: post)).count (id, t) := by
  have hold : _ + (if Live b t id then 1 else 0) = _ := hb.live id t
  have hsame : b'.fanout.byId = b.fanout.byId → (Live b' t id ↔ Live b t id) := by
    intro h
    rw [Live, Live, h]
  simp only [taken, inserted, sumOf_split, Multiset.count_add] at hold ⊢
  cases he with
  | quiet hseq hid hstore hu => simpa only [hsame hid, hu] using hold
  | reserve t₀ hfan hstore hu hu' => simpa only [hsame (by rw [hfan]), hu, hu'] using hold
  | draw t₀ hseq hid hstore hu hu' => simpa only [hsame hid, hu, hu'] using hold
  | insert id₀ t₀ sink hseq hid hstore hu hu' =>
    have hnone : b.fanout.byId id₀ = none := by
      by_contra hne
      obtain ⟨x, hx⟩ := Option.ne_none_iff_exists'.mp hne
      have hlive : Live b x.1 id₀ := congrArg (Option.map Prod.fst) hx
      exact fresh_of_drawn hb hn (by rw [hu]) (by rw [hu]) hlive
    have hlive : (if Live b' t id then 1 else 0) = _ := live_update hnone hid
    simp only [hu, hu', Multiset.coe_nil, Multiset.coe_singleton, Multiset.count_zero] at hold ⊢
    omega
  | take id₀ t₀ sink hseq hbyId hid hstore hu =>
    have hnone : b'.fanout.byId id₀ = none := by simp [hid]
    have hback : b.fanout.byId = Function.update b'.fanout.byId id₀ (some (t₀, sink)) := by
      simp [hid, ← hbyId]
    have hlive : (if Live b t id then 1 else 0) = _ := live_update hnone hback
    simp only [hu, ← Multiset.coe_add, Multiset.coe_singleton, Multiset.count_add]
    omega
  | release id₀ t₀ todo hfan hstore hu hu' => simpa only [hsame (by rw [hfan]), hu'] using hold

theorem ids_effect (he : BrokerPhase.Effect b u b' u') (hb : Books ⟨b, pre ++ u :: post⟩) :
    Sequence.Issued nthId (b'.fanout.seq + 1) (drawn (pre ++ u' :: post)) := by
  have hold : Sequence.Issued nthId (b.fanout.seq + 1) (drawn (pre ++ u :: post)) := hb.ids
  rw [drawn, sumOf_split] at hold ⊢
  cases he with
  | quiet hseq hid hstore hu => simpa only [hseq, hu] using hold
  | reserve t₀ hfan hstore hu hu' => simpa only [hfan, hu, hu'] using hold
  | draw t₀ hseq hid hstore hu hu' =>
    rw [hu, Multiset.coe_nil, zero_add] at hold
    rw [hseq, hu', Multiset.coe_singleton, Multiset.singleton_add]
    have hnext := hold.issue
    rw [nthId_succ, ← hold.next] at hnext
    exact hnext
  | insert id₀ t₀ sink hseq hid hstore hu hu' => simpa only [hseq, hu, hu'] using hold
  | take id₀ t₀ sink hseq hbyId hid hstore hu => simpa only [hseq, hu] using hold
  | release id₀ t₀ todo hfan hstore hu hu' => simpa only [hfan, hu'] using hold

theorem slots_effect (he : BrokerPhase.Effect b u b' u') (hb : Books ⟨b, pre ++ u :: post⟩)
    (t : String) :
    b'.store.subscribers t + ((released (pre ++ u' :: post)).map Prod.snd).count t =
      (slots (pre ++ u' :: post)).count t := by
  have hold : b.store.subscribers t + ((released (pre ++ u :: post)).map Prod.snd).count t =
      (slots (pre ++ u :: post)).count t := hb.slots t
  simp only [released, slots, sumOf_split, Multiset.map_add, Multiset.count_add] at hold ⊢
  cases he with
  | quiet hseq hid hstore hu => simpa only [hstore, hu] using hold
  | reserve t₀ hfan hstore hu hu' =>
    simp only [hu, Option.toList_none, Multiset.coe_nil, Multiset.map_zero, Multiset.count_zero]
      at hold
    simp only [hu', hstore, Option.toList_some, Multiset.coe_nil, Multiset.coe_singleton,
      Multiset.map_zero, Multiset.count_zero, Multiset.count_singleton]
    omega
  | draw t₀ hseq hid hstore hu hu' => simpa only [hstore, hu, hu'] using hold
  | insert id₀ t₀ sink hseq hid hstore hu hu' => simpa only [hstore, hu, hu'] using hold
  | take id₀ t₀ sink hseq hbyId hid hstore hu => simpa only [hstore, hu] using hold
  | release id₀ t₀ todo hfan hstore hu hu' =>
    have hpos : 0 < b.store.subscribers t₀ := hb.positive Pool.mem_split hu
    have hdec := InMemoryBroker.subscribers_releaseSubscriber hpos t
    simp only [hstore, hu', ← Multiset.coe_add, Multiset.coe_singleton, Multiset.map_add,
      Multiset.map_singleton, Multiset.count_add, Multiset.count_singleton]
    omega

theorem tally_start (call : FanoutOp σ) : (BrokerPhase.start call).tally = {} := by
  cases call <;> rfl

theorem card_drawn_le {ts : List (BrokerPhase σ)} :
    (drawn ts).card ≤ ts.countP subscribing := by
  induction ts with
  | nil => exact le_rfl
  | cons u ts ih =>
    have hown := drawn_tally (u := u)
    rw [drawn, sumOf, Pool.total_cons, Multiset.card_add, Multiset.coe_card, List.countP_cons]
    exact (Nat.add_le_add hown ih).trans_eq (Nat.add_comm _ _)

variable [FanoutSink σ] {a : Act σ} {spurious : Bool}

theorem subscribing_access {e e' : FanoutEngine σ} {th th' : FanoutThread σ}
    (h : FanoutThread.Access e th e' th') :
    subscribing (.fanout th') = subscribing (.fanout th) := by
  cases h with
  | retainTopic r hp => rcases hp with rfl | rfl <;> rfl
  | retainSink r hp => rcases hp with rfl | rfl <;> rfl
  | _ => rfl

/-- A call stays the call it is. -/
theorem subscribing_next (h : BrokerPhase.next b u spurious = some (b', u')) :
    subscribing u' = subscribing u := by
  cases u with
  | validate | route =>
    simp only [BrokerPhase.next] at h
    split at h <;> cases h <;> rfl
  | load =>
    simp only [BrokerPhase.next, Option.map_eq_some_iff] at h
    obtain ⟨entry, -, h⟩ := h
    cases h
    rfl
  | attempt =>
    simp only [BrokerPhase.next] at h
    split at h
    · cases h
    · split at h <;> cases h <;> rfl
  | fanout th =>
    rcases BrokerPhase.next_fanout_cases h with ⟨taken, hp, rfl, rfl⟩ | ⟨e, th', ha, rfl, rfl⟩
    · obtain ⟨ts, phase⟩ := th
      obtain rfl : phase = .removed taken := hp
      rfl
    · exact subscribing_access ha
  | release todo done =>
    cases todo with
    | nil => cases h
    | cons x todo =>
      cases h
      rfl
  | refused => cases h

theorem step_cases (h : step p a = some p') :
    (∃ call, a = .spawn call ∧ p' = ⟨p.shared, p.threads ++ [BrokerPhase.start call]⟩) ∨
    ∃ pre u post spurious b' u', a = .advance pre.length spurious ∧
      p.threads = pre ++ u :: post ∧ BrokerPhase.next p.shared u spurious = some (b', u') ∧
      p' = ⟨b', pre ++ u' :: post⟩ :=
  Pool.step_cases h

theorem countP_step (h : step p a = some p') :
    p'.threads.countP subscribing =
      p.threads.countP subscribing + if Act.isSubscribe a then 1 else 0 := by
  rcases step_cases h with ⟨call, rfl, rfl⟩ | ⟨pre, u, post, spurious, b', u', rfl, hp, hn, rfl⟩
  · have hstart : subscribing (BrokerPhase.start call) = call.isSubscribe := by cases call <;> rfl
    rw [List.countP_append, List.countP_singleton, hstart]
    rfl
  · have hsame : subscribing u' = subscribing u := subscribing_next hn
    simp [hp, List.countP_append, List.countP_cons, hsame, Act.isSubscribe]

theorem books_step (h : step p a = some p') (hle : p'.threads.countP subscribing ≤ 2 ^ 64)
    (hb : Books p) : Books p' := by
  have hnodup : (drawn p.threads).Nodup := by
    have hcount := countP_step h
    have hcard : (drawn p.threads).card ≤ p.threads.countP subscribing := card_drawn_le
    exact hb.drawn_nodup (by omega)
  obtain ⟨b, threads⟩ := p
  rcases step_cases h with ⟨call, rfl, rfl⟩ | ⟨pre, u, post, spurious, b', u', rfl, hp, hn, rfl⟩
  · have hnew : ∀ {α : Type} {f : Tally → List α}, f {} = [] →
        sumOf f (threads ++ [BrokerPhase.start call]) = sumOf f threads := by
      intro α f hf
      rw [sumOf_split, tally_start, hf, Multiset.coe_nil, zero_add, List.append_nil]
    obtain ⟨hids, hlive, hslots, hlimit⟩ := hb
    constructor
    · rw [drawn, hnew rfl]
      exact hids
    · rw [taken, inserted, hnew rfl, hnew rfl]
      exact hlive
    · rw [released, slots, hnew rfl, hnew rfl]
      exact hslots
    · exact hlimit
  · obtain rfl : threads = pre ++ u :: post := hp
    have he := BrokerPhase.effect_of_next hn
    refine ⟨ids_effect he hb, live_effect he hb hnodup, slots_effect he hb, ?_⟩
    refine BrokerPhase.withinLimits_next hn hb.limit ?_
    rintro id t todo done rfl
    exact hb.positive Pool.mem_split rfl

end Step

section Accounts

variable {p : Calls O L D S σ}

theorem books_initial {b : InMemoryBroker O L D S σ} (hfanout : b.fanout = .new)
    (hstore : ∀ t, b.store.subscribers t = 0) : Books ⟨b, []⟩ := by
  constructor
  · rw [hfanout]
    exact ⟨rfl, rfl⟩
  · intro id t
    have hnone : ¬ Live b t id := by simp [Live, hfanout, FanoutEngine.new]
    rw [if_neg hnone]
    rfl
  · intro t
    exact hstore t
  · intro t entry hg
    have hzero := hstore t
    simp only [TopicStore.subscribers, hg, Option.map_some, Option.getD_some] at hzero
    exact UInt64.le_iff_toNat_le.mpr (hzero ▸ Nat.zero_le _)

theorem accounted_of_books (hb : Books p) (hle : p.threads.countP subscribing ≤ 2 ^ 64) :
    Accounted p := by
  have hnodup : (inserted p.threads).Nodup := by
    have hids : (drawn p.threads).Nodup := hb.drawn_nodup (card_drawn_le.trans hle)
    exact Multiset.Nodup.of_map Prod.fst (Multiset.nodup_of_le ids_inserted_le hids)
  have hreleased : released p.threads ≤ inserted p.threads := released_le.trans hb.taken_le
  refine ⟨hb.limit, ?_, ?_, ?_, ?_, ?_⟩
  · intro id t todo done hu
    exact hb.positive hu rfl
  · intro id t
    exact Multiset.nodup_iff_count_le_one.mp (Multiset.nodup_of_le hreleased hnodup) (id, t)
  · intro hret t
    have hslots := hb.slots t
    have hlive := count_add_ncard hb.live t
    rw [slots_of_returned hret] at hslots
    rw [taken_of_returned hret] at hlive
    omega
  · intro hret ts id t sink hu
    have hmem : (id, t) ∈ inserted p.threads := mem_sumOf.mpr ⟨_, hu, List.mem_singleton_self _⟩
    have hone := Multiset.count_eq_one_of_mem hnodup hmem
    have hlive := hb.live id t
    rw [taken_of_returned hret, hone] at hlive
    split at hlive <;> simp_all
  · intro hret id t hmem
    obtain ⟨u, hu, hin⟩ := mem_sumOf.mp (Multiset.mem_of_le hreleased hmem)
    obtain ⟨ts, sink, rfl⟩ := (returned_tally (hret u hu)).2.2 id t hin
    exact ⟨ts, sink, hu⟩

/-- However subscribes, unsubscribes and drops interleave, the subscriber counts
are right at every point, as long as no more than 2^64 subscribes are made. -/
theorem subscriber_accounting [FanoutSink σ] (b : InMemoryBroker O L D S σ)
    (hfanout : b.fanout = .new) (hstore : ∀ t, b.store.subscribers t = 0) (acts : List (Act σ))
    (hacts : acts.countP Act.isSubscribe ≤ 2 ^ 64) :
    Throughout step Accounted ⟨b, []⟩ acts := by
  have hrun : Throughout step
      (fun p : Calls O L D S σ => Books p ∧ p.threads.countP subscribing ≤ 2 ^ 64)
      ⟨b, []⟩ acts := by
    refine throughout_of_budget (fun p a p' => countP_step) (fun p a p' => books_step)
      (books_initial hfanout hstore) ?_
    simpa using hacts
  refine throughout_mono hrun ?_
  rintro p ⟨hb, hle⟩
  exact accounted_of_books hb hle

/-- An unsubscribe and a drop race for subscription 1, and the drop wins. -/
def racingRemovals : List (Act MpscSink) :=
  .spawn (.subscribe "t" .live ⟨0, 7, .json⟩) :: List.replicate 8 (.advance 0 false) ++
    [.spawn (.unsubscribe 1), .spawn (.dropSink 7), .advance 2 false, .advance 2 false,
      .advance 1 false] ++ List.replicate 7 (.advance 2 false) ++
    List.replicate 2 (.advance 1 false)

theorem racing_removals_release_one_slot :
    Throughout step Accounted ⟨emptyBroker, []⟩ racingRemovals ∧
      ∃ p, run step ⟨emptyBroker, []⟩ racingRemovals = some p ∧
        (∀ u ∈ p.threads, returned u) ∧ p.shared.store.subscribers "t" = 0 ∧
        released p.threads = {(1, "t")} := by
  refine ⟨subscriber_accounting emptyBroker rfl (fun _ => rfl) racingRemovals (by decide), ?_⟩
  exact ⟨_, rfl, by decide, rfl, rfl⟩

end Accounts

section Wrap

/-- A subscribe that runs to its end while the others wait. -/
theorem run_subscribe [FanoutSink σ] (b : InMemoryBroker O L D S σ) (ts : List (BrokerPhase σ))
    (t : String) (intent : SubscribeIntent) (sink : σ) :
    ∃ acts u, run step ⟨b, ts⟩ acts = some ⟨(b.subscribe t intent sink).1, ts ++ [u]⟩ ∧
      returned u := by
  obtain ⟨inputs, hrun⟩ := BrokerPhase.solo_subscribe b t intent sink
  have hcall := Pool.run_call (P := BrokerPhase.program) (FanoutOp.subscribe t intent sink) ts hrun
  refine ⟨_, _, hcall, ?_⟩
  cases (b.subscribe t intent sink).2 <;> rfl

theorem run_unsubscribe [FanoutSink σ] (b : InMemoryBroker O L D S σ) (ts : List (BrokerPhase σ))
    (id : UInt64) :
    ∃ acts u, run step ⟨b, ts⟩ acts = some ⟨(b.unsubscribe id).1, ts ++ [u]⟩ ∧ returned u := by
  obtain ⟨inputs, done, hrun⟩ := BrokerPhase.solo_unsubscribe b id
  have hcall := Pool.run_call (P := BrokerPhase.program) (FanoutOp.unsubscribe id) ts hrun
  exact ⟨_, _, hcall, rfl⟩

/-- While subscription 1 stays, others come and go until the ids come around. -/
theorem run_to_seq (k : Nat) (hk : k < 2 ^ 64) :
    ∃ acts ts, run step ⟨emptyBroker, []⟩ acts =
      some ⟨holdingOne.atSeq (UInt64.ofNat (k + 1)), ts⟩ ∧ ∀ u ∈ ts, returned u := by
  induction k with
  | zero =>
    obtain ⟨acts, u, hrun, hu⟩ := run_subscribe emptyBroker [] "t" .live (⟨0, 7, .json⟩ : MpscSink)
    exact ⟨acts, [u], hrun, by simpa using hu⟩
  | succ k ih =>
    obtain ⟨acts, ts, hrun, hts⟩ := ih (by omega)
    have hn : UInt64.ofNat (k + 1) ≠ 0 := ofNat_succ_ne_zero hk
    obtain ⟨acts₁, u₁, hrun₁, hu₁⟩ := run_subscribe (holdingOne.atSeq (UInt64.ofNat (k + 1))) ts
      "t" .live (⟨1, 8, .json⟩ : MpscSink)
    obtain ⟨acts₂, u₂, hrun₂, hu₂⟩ := run_unsubscribe
      ((holdingOne.atSeq (UInt64.ofNat (k + 1))).subscribe "t" .live ⟨1, 8, .json⟩).1 (ts ++ [u₁])
      (UInt64.ofNat (k + 1) + 1)
    rw [holdingOne_next hn] at hrun₂
    refine ⟨acts ++ (acts₁ ++ acts₂), ts ++ [u₁] ++ [u₂], ?_, ?_⟩
    · rw [run_append hrun, run_append hrun₁, hrun₂, UInt64.ofNat_add (k + 1) 1]
      rfl
    · intro u hu
      simp only [List.mem_append, List.mem_singleton] at hu
      rcases hu with (hu | rfl) | rfl
      · exact hts u hu
      · exact hu₁
      · exact hu₂

/-- After 2^64 subscribes the next one is given the id of the first, which is still
subscribed: two slots are taken on "t", and `byId` has one entry. -/
theorem reused_id_is_counted_twice :
    ∃ acts p, run step (⟨emptyBroker, []⟩ : Calls _ _ _ _ _) acts = some p ∧
      (∀ u ∈ p.threads, returned u) ∧ p.shared.store.subscribers "t" = 2 ∧
      Set.ncard {id | Live p.shared "t" id} = 1 := by
  obtain ⟨acts, ts, hrun, hts⟩ := run_to_seq (2 ^ 64 - 1) (by omega)
  obtain ⟨acts₁, u, hrun₁, hu⟩ := run_subscribe (holdingOne.atSeq 0) ts "t" .live
    (⟨1, 9, .json⟩ : MpscSink)
  have hzero : UInt64.ofNat (2 ^ 64 - 1 + 1) = 0 := rfl
  rw [hzero] at hrun
  refine ⟨acts ++ acts₁, _, (run_append hrun).trans hrun₁, ?_, rfl, ?_⟩
  · intro v hv
    rcases List.mem_append.mp hv with hv | hv
    · exact hts v hv
    · rwa [List.mem_singleton.mp hv]
  · have hset : {id | Live ((holdingOne.atSeq 0).subscribe "t" .live ⟨1, 9, .json⟩).1 "t" id} =
        {1} := by
      ext id
      by_cases hid : id = 1
      · subst hid
        exact iff_of_true rfl rfl
      · have hnone : ((holdingOne.atSeq 0).subscribe "t" .live ⟨1, 9, .json⟩).1.fanout.byId id =
            none :=
          (Function.update_of_ne hid ..).trans (Function.update_of_ne hid ..)
        simp [Live, hnone, hid]
    rw [hset, Set.ncard_singleton]

end Wrap

end SubscriberCount

end Rifts
