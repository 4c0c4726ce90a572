import Mathlib.Algebra.Order.Group.Multiset
import Rifts.Broker.PublishSteps
import Rifts.Sync.Sequence

/-! Concurrent publishes: offsets are given out in order, and a publish that fails
has left nothing behind. -/
namespace Rifts

open Transition

/-- The offset of a call on the topic. -/
def PublishPhase.offsetOn {σ : Type} (t : String) (u : PublishPhase σ) : Multiset Int64 :=
  if u.topic = some t then u.offset.toList else 0

/-- The offset an accepted publish to the topic has answered with. -/
def PublishPhase.acceptedOn {σ : Type} (t : String) : PublishPhase σ → Multiset Int64
  | published m outcome => if m.topic = t then {outcome.offset} else 0
  | _ => 0

namespace PublishRace

variable {O L D S σ : Type}

def offsets (t : String) (ts : List (PublishPhase σ)) : Multiset Int64 :=
  Pool.total (PublishPhase.offsetOn t) ts

def accepted (t : String) (ts : List (PublishPhase σ)) : Multiset Int64 :=
  Pool.total (PublishPhase.acceptedOn t) ts

/-- On every topic whose calls have all returned, the accepted ones were given the
offsets from 1 to the head, each once. -/
def Settled (p : Calls MemoryOffsetStore L D S σ) : Prop :=
  ∀ t, (∀ u ∈ p.threads, u.topic = some t → u.returned) →
    (accepted t p.threads).Nodup ∧
    (∀ o : Int64, o ∈ accepted t p.threads ↔
      1 ≤ o.toInt ∧ o.toInt ≤ (accepted t p.threads).card) ∧
    (p.shared.broker.headOffset t).toInt = (accepted t p.threads).card

/-- No offset counter, log, dedupe entry, snapshot or publisher count has changed,
and no sink was offered anything. -/
structure Untouched (s s' : PublishState O L D S σ) : Prop where
  offsets : s'.broker.offsets = s.broker.offsets
  log : s'.broker.log = s.broker.log
  dedupe : s'.broker.dedupe = s.broker.dedupe
  snapshots : s'.broker.snapshots = s.broker.snapshots
  publishers : ∀ t, s'.broker.store.publishers t = s.broker.store.publishers t
  offers : s'.offers = s.offers

section Refusal

variable [OffsetStore O] [LogStore L] {s s' : PublishState O L D S σ} {u u' : PublishPhase σ}

/-- A call that has its slot keeps going to its end. -/
theorem committed_access (h : PublishPhase.Access s u s' u') (hc : u.committed) :
    u'.committed := by
  cases h with
  | refuse f e hu => rw [hu] at hc; cases hc
  | validate | route | load | retry => cases hc
  | _ => rfl

/-- Up to the slot, an access changes nothing that lasts. -/
theorem untouched_access (h : PublishPhase.Access s u s' u') (hc : u'.committed = false) :
    Untouched s s' := by
  cases h with
  | refuse | validate | load | retry => exact ⟨rfl, rfl, rfl, rfl, fun _ => rfl, rfl⟩
  | route m hg =>
    exact ⟨rfl, rfl, rfl, rfl, fun t => TopicStore.publishers_getOrCreate hg, rfl⟩
  | _ => cases hc

variable [DedupeStore D] [SnapshotStore S] {p p' q : Calls O L D S σ} {i : Nat}
  {input : PublishInput} {acts : List Act} {f : Frame} {e : RiftError}

/-- An access of a call that goes on to fail changes nothing that lasts. -/
theorem untouched_of_refused (hstep : step p (.advance i input) = some p')
    (hrun : run step p' acts = some q) (hq : q.threads[i]? = some (.refused f e)) :
    Untouched p.shared p'.shared := by
  rcases step_cases hstep with ⟨f, ha, -⟩ | ⟨pre, u, post, input', s, u', ha, hp, hacc, rfl⟩
  · cases ha
  · cases ha
    refine untouched_access hacc ?_
    by_contra hc
    have hcommitted : ∃ v : PublishPhase σ,
        q.threads[pre.length]? = some v ∧ v.committed = true := by
      refine Pool.thread_run ?_ hrun ⟨u', by simp, by simpa using hc⟩
      intro s v input s' v' hn hv
      exact committed_access (PublishPhase.access_of_next hn) hv
    obtain ⟨v, hv, hvc⟩ := hcommitted
    cases hq.symm.trans hv
    cases hvc

end Refusal

section Numbering

variable {u : PublishPhase σ} {ts : List (PublishPhase σ)} {t : String}
  {p : Calls MemoryOffsetStore L D S σ}

/-- The topic's counter is where the offsets given out so far have put it. -/
def Numbered (p : Calls MemoryOffsetStore L D S σ) : Prop :=
  ∀ t, Sequence.Issued nthOffset ((p.shared.broker.offsets.inner t).getD 1) (offsets t p.threads)

theorem offsetOn_of_none (h : u.offset = none) : u.offsetOn t = 0 := by
  simp [PublishPhase.offsetOn, h]

theorem offset_of_uncommitted (h : u.committed = false) : u.offset = none := by
  cases u <;> first | rfl | cases h

theorem card_offsets_le : (offsets t ts).card ≤ ts.length := by
  induction ts with
  | nil => exact le_rfl
  | cons u ts ih =>
    have hown : (u.offsetOn t).card ≤ 1 := by
      unfold PublishPhase.offsetOn
      split
      · cases u.offset <;> simp
      · simp
    rw [offsets, Pool.total_cons, Multiset.card_add, List.length_cons]
    exact (Nat.add_le_add hown ih).trans_eq (Nat.add_comm _ _)

/-- A call without an offset leaves one less than there are calls. -/
theorem card_offsets_lt (hu : u ∈ ts) (h : u.offset = none) :
    (offsets t ts).card < ts.length := by
  obtain ⟨pre, post, rfl⟩ := List.append_of_mem hu
  have hle : (offsets t (pre ++ post)).card ≤ (pre ++ post).length := card_offsets_le
  rw [offsets, Pool.total_split, offsetOn_of_none h, zero_add]
  rw [offsets, List.length_append] at hle
  rw [List.length_append, List.length_cons]
  omega

theorem acceptedOn_eq (h : u.topic = some t → u.returned) : u.acceptedOn t = u.offsetOn t := by
  by_cases ht : u.topic = some t
  · cases u with
    | published m outcome =>
      have htopic : m.topic = t := Option.some.inj ht
      simp [PublishPhase.acceptedOn, PublishPhase.offsetOn, PublishPhase.topic,
        PublishPhase.offset, htopic]
    | refused f e => exact (offsetOn_of_none rfl).symm
    | _ => exact absurd (h ht) (by simp [PublishPhase.returned])
  · have hzero : u.offsetOn t = 0 := if_neg ht
    cases u with
    | published m outcome =>
      have htopic : m.topic ≠ t := fun h => ht (congrArg some h)
      simp [PublishPhase.acceptedOn, htopic, hzero]
    | _ => exact hzero.symm

/-- A call that has returned was accepted with its offset, or has none. -/
theorem accepted_of_returned (h : ∀ u ∈ ts, u.topic = some t → u.returned) :
    accepted t ts = offsets t ts := by
  have hmap : ts.map (PublishPhase.acceptedOn t) = ts.map (PublishPhase.offsetOn t) :=
    List.map_congr_left fun u hu => acceptedOn_eq (h u hu)
  rw [accepted, offsets, Pool.total, Pool.total, hmap]

theorem headOffset_of_numbered (hn : Numbered p) :
    p.shared.broker.headOffset t = Int64.ofNat (offsets t p.threads).card :=
  head_of_next (hn t).next

theorem settled_of_numbered (hn : Numbered p) (hlen : p.threads.length ≤ 2 ^ 63 - 1) :
    Settled p := by
  intro t hret
  rw [accepted_of_returned hret]
  have hcard : (offsets t p.threads).card < 2 ^ 63 := by
    have hle : (offsets t p.threads).card ≤ p.threads.length := card_offsets_le
    omega
  refine ⟨(hn t).nodup ?_, ?_, ?_⟩
  · intro m n hm hn heq
    have hint := congrArg Int64.toInt heq
    rw [toInt_nthOffset (by omega), toInt_nthOffset (by omega)] at hint
    omega
  · intro o
    rw [(hn t).mem_iff]
    constructor
    · rintro ⟨m, hm, rfl⟩
      rw [toInt_nthOffset (by omega)]
      omega
    · rintro ⟨hpos, hle⟩
      refine ⟨(o.toInt - 1).toNat, by omega, ?_⟩
      apply Int64.toInt_inj.mp
      rw [toInt_nthOffset (by omega)]
      omega
  · rw [headOffset_of_numbered hn, Int64.toInt_ofNat_of_lt hcard]

variable [LogStore L] {u' : PublishPhase σ} {pre post : List (PublishPhase σ)}

/-- Only `alloc` gives a call an offset. -/
theorem offsets_access [OffsetStore O] {s s' : PublishState O L D S σ}
    (h : PublishPhase.Access s u s' u') :
    (s'.broker.offsets = s.broker.offsets ∧ ∀ t, u'.offsetOn t = u.offsetOn t) ∨
      ∃ m fresh o, u = .alloc m fresh ∧ u' = .append m fresh o ∧
        OffsetStore.alloc s.broker.offsets m.topic = (s'.broker.offsets, o) := by
  cases h with
  | refuse f e hu =>
    refine .inl ⟨rfl, fun t => ?_⟩
    rw [offsetOn_of_none (offset_of_uncommitted hu), offsetOn_of_none rfl]
  | validate | route | load | retry | take | dedupe =>
    exact .inl ⟨rfl, fun t => by rw [offsetOn_of_none rfl, offsetOn_of_none rfl]⟩
  | alloc m h => exact .inr ⟨m, _, _, rfl, rfl, h⟩
  | append | capture | skip | collect | offer | finish => exact .inl ⟨rfl, fun t => rfl⟩

omit [LogStore L] in
/-- A counter in memory moves on with the offset it gives to a call. -/
theorem issued_alloc {c : MemoryOffsetStore} {m : Message} {fresh : Bool}
    (h : ∀ t, Sequence.Issued nthOffset ((c.inner t).getD 1)
      (offsets (σ := σ) t (pre ++ .alloc m fresh :: post))) (t : String) :
    Sequence.Issued nthOffset (((OffsetStore.alloc c m.topic).1.inner t).getD 1)
      (offsets t (pre ++ .append m fresh (OffsetStore.alloc c m.topic).2 :: post)) := by
  have hold := h t
  rw [offsets, Pool.total_split, offsetOn_of_none rfl, zero_add] at hold
  rw [offsets, Pool.total_split]
  by_cases ht : m.topic = t
  · subst ht
    have hnew : (PublishPhase.append m fresh (OffsetStore.alloc c m.topic).2 :
        PublishPhase σ).offsetOn m.topic = {(c.inner m.topic).getD 1} := by
      simp only [PublishPhase.offsetOn, PublishPhase.topic, PublishPhase.offset]
      rfl
    have hnext : ((OffsetStore.alloc c m.topic).1.inner m.topic).getD 1 =
        (c.inner m.topic).getD 1 + 1 := by
      simp [OffsetStore.alloc]
    have hissue := hold.issue
    rw [nthOffset_succ, ← hold.next] at hissue
    rw [hnew, hnext, Multiset.singleton_add]
    exact hissue
  · have hnone : (PublishPhase.append m fresh (OffsetStore.alloc c m.topic).2 :
        PublishPhase σ).offsetOn t = 0 := by
      simp [PublishPhase.offsetOn, PublishPhase.topic, ht]
    have hsame : (OffsetStore.alloc c m.topic).1.inner t = c.inner t :=
      Function.update_of_ne (Ne.symm ht) ..
    rwa [hnone, hsame, zero_add]

theorem numbered_access {s s' : PublishState MemoryOffsetStore L D S σ}
    (h : PublishPhase.Access s u s' u') (hn : Numbered ⟨s, pre ++ u :: post⟩) :
    Numbered ⟨s', pre ++ u' :: post⟩ := by
  rcases offsets_access h with ⟨hsame, hon⟩ | ⟨m, fresh, o, rfl, rfl, halloc⟩
  · intro t
    have hold : Sequence.Issued nthOffset ((s.broker.offsets.inner t).getD 1)
        (offsets t (pre ++ u :: post)) := hn t
    change Sequence.Issued nthOffset ((s'.broker.offsets.inner t).getD 1)
      (offsets t (pre ++ u' :: post))
    rw [offsets, Pool.total_split] at hold ⊢
    rwa [hsame, hon]
  · intro t
    have hissued := issued_alloc (c := s.broker.offsets) hn t
    rw [halloc] at hissued
    exact hissued

variable [DedupeStore D] [SnapshotStore S] {p' : Calls MemoryOffsetStore L D S σ} {a : Act}

theorem numbered_step (h : step p a = some p') (hn : Numbered p) : Numbered p' := by
  rcases step_cases h with ⟨f, rfl, rfl⟩ | ⟨pre, u, post, input, s, u', rfl, hp, hacc, rfl⟩
  · intro t
    have hnew : offsets t (p.threads ++ [.validate f]) = offsets t p.threads := by
      rw [offsets, Pool.total_concat, offsetOn_of_none rfl, zero_add]
      rfl
    change Sequence.Issued nthOffset _ (offsets t (p.threads ++ [.validate f]))
    rw [hnew]
    exact hn t
  · obtain ⟨shared, threads⟩ := p
    obtain rfl : threads = pre ++ u :: post := hp
    exact numbered_access hacc hn

/-- However publishes interleave, fewer than 2^63 of them: the accepted ones on a
topic are numbered from 1 to its head, and those that fail leave no trace. -/
theorem publish_atomicity (b : InMemoryBroker MemoryOffsetStore L D S σ)
    (hb : ∀ t, b.offsets.inner t = none) (acts : List Act)
    (hacts : acts.countP Act.isPublish < 2 ^ 63) :
    Throughout step Settled ⟨⟨b, []⟩, []⟩ acts ∧
    ∀ before i input after p p' q f e, acts = before ++ .advance i input :: after →
      run step ⟨⟨b, []⟩, []⟩ before = some p → step p (.advance i input) = some p' →
      run step p' after = some q → q.threads[i]? = some (.refused f e) →
      Untouched p.shared p'.shared := by
  constructor
  · have hstart : Numbered (⟨⟨b, []⟩, []⟩ : Calls MemoryOffsetStore L D S σ) := by
      intro t
      change Sequence.Issued nthOffset ((b.offsets.inner t).getD 1) 0
      rw [hb t]
      exact Sequence.issued_zero
    have hrun : Throughout step (fun p : Calls MemoryOffsetStore L D S σ =>
        Numbered p ∧ p.threads.length ≤ 2 ^ 63 - 1) ⟨⟨b, []⟩, []⟩ acts := by
      refine throughout_of_budget (fun p a p' => length_step)
        (fun p a p' h _ => numbered_step h) hstart ?_
      change 0 + acts.countP Act.isPublish ≤ 2 ^ 63 - 1
      omega
    refine throughout_mono hrun ?_
    rintro p ⟨hn, hlen⟩
    exact settled_of_numbered hn hlen
  · intro before i input after p p' q f e _ _ hstep hrun hq
    exact untouched_of_refused hstep hrun hq

/-- Two publishes to "t" whose steps alternate, while a third that names no topic
waits. -/
def alternatingPublishes : List Act :=
  [.spawn { topic := some "t", messageId := some "a", payload := some [1] },
    .spawn { topic := some "t", messageId := some "b", payload := some [2] },
    .spawn { messageId := some "c" }] ++
    (List.replicate 10 [Pool.Act.advance 1 ⟨0, false⟩, .advance 0 ⟨0, false⟩]).flatten ++
    [.advance 0 ⟨0, false⟩]

theorem alternating_publishes_are_numbered :
    Throughout step Settled ⟨⟨emptyBroker, []⟩, []⟩
        (alternatingPublishes ++ [.advance 2 ⟨0, false⟩]) ∧
      ∃ p p' f e, run step ⟨⟨emptyBroker, []⟩, []⟩ alternatingPublishes = some p ∧
        step p (.advance 2 ⟨0, false⟩) = some p' ∧ (∀ u ∈ p'.threads, u.returned) ∧
        accepted "t" p'.threads = {2, 1} ∧ p'.threads[2]? = some (.refused f e) ∧
        Untouched p.shared p'.shared := by
  have h := publish_atomicity emptyBroker (fun _ => rfl)
    (alternatingPublishes ++ [.advance 2 ⟨0, false⟩]) (by decide)
  obtain ⟨p, p', f, e, hrun, hstep, hret, hacc, hthird⟩ :
      ∃ p p' f e, run step ⟨⟨emptyBroker, []⟩, []⟩ alternatingPublishes = some p ∧
        step p (.advance 2 ⟨0, false⟩) = some p' ∧ (∀ u ∈ p'.threads, u.returned) ∧
        accepted "t" p'.threads = {2, 1} ∧ p'.threads[2]? = some (.refused f e) :=
    ⟨_, _, _, _, rfl, rfl, by decide, rfl, rfl⟩
  refine ⟨h.1, p, p', f, e, hrun, hstep, hret, hacc, hthird, ?_⟩
  exact h.2 alternatingPublishes 2 ⟨0, false⟩ [] p p' p' f e rfl hrun hstep rfl hthird

end Numbering

end PublishRace

end Rifts
