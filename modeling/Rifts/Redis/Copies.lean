import Rifts.Redis.Cluster

/-! The copies of a publish: where they come from, and the offset they carry. -/
namespace Rifts

/-- The offset in a buffer that is handed to a sink, after "OFF:". -/
def offsetOf (data : Bytes) : Int64 := BigEndian.toInt64 (data.drop 4)

@[simp] theorem offsetOf_serializeFrameForFanout (f : Frame) (offset : Int64) :
    offsetOf (serializeFrameForFanout f offset) = offset := by
  have hdrop : (serializeFrameForFanout f offset).drop 4 =
      BigEndian.ofInt64 offset ++ f.payload.getD [] := by
    simp [serializeFrameForFanout, BigEndian.ofInt64]
  rw [offsetOf, hdrop, BigEndian.toInt64_append]

namespace RedisCluster

open Transition RedisPhase

variable {ι σ : Type}

/-- The number of a publish that went out, with its topic and its offset. -/
def route : RedisPhase ι σ → Option (Nat × String × Int64)
  | announce n m offset => some (n, m.topic, offset)
  | published (some n) m outcome => some (n, m.topic, outcome.offset)
  | _ => none

/-- The number of a publish whose message is with Redis. -/
def returned : RedisPhase ι σ → Option Nat
  | published n _ _ => n
  | _ => none

/-- Two calls do not share a number. -/
def OwnNumber (u v : RedisPhase ι σ) : Prop :=
  ∀ n x y, route u = some (n, x) → route v ≠ some (n, y)

/-- Every publish that went out is recorded under a number of its own, and every message
of a listener and every copy is from one of them. -/
structure Traced (d : RedisDeployment ι) (p : Calls ι σ) : Prop where
  sent : ∀ u ∈ p.threads, ∀ n t offset, route u = some (n, t, offset) →
    ∃ i, p.shared.fanned[n]? = some ⟨i, t, offset⟩
  own : p.threads.Pairwise OwnNumber
  mail : ∀ j, ∀ x ∈ p.shared.inbox j, ∃ u ∈ p.threads, returned u = some x.publish ∧
    ∃ t offset, route u = some (x.publish, t, offset) ∧
      x.channel = RedisPool.topicKey d.pre "fanout" t
  copies : ∀ r ∈ p.shared.received, r.publish < p.shared.fanned.length

variable {d : RedisDeployment ι} {s s' : Cluster ι σ} {u u' v : RedisPhase ι σ}
  {pre post : List (RedisPhase ι σ)} {input : RedisInput} {p p' : Calls ι σ}

theorem ownNumber_symm (u v : RedisPhase ι σ) (h : OwnNumber u v) : OwnNumber v u :=
  fun n x y hv hu => h n y x hu hv

instance : Std.Symm (OwnNumber (ι := ι) (σ := σ)) := ⟨ownNumber_symm⟩

theorem ownNumber_of_route_eq_none (h : route u = none) : OwnNumber u v := by
  intro n x y hu
  rw [h] at hu
  cases hu

theorem route_of_returned {n : Nat} (h : returned u = some n) : ∃ x, route u = some (n, x) := by
  cases u with
  | published k m outcome =>
    cases h
    exact ⟨_, rfl⟩
  | _ => cases h

theorem Traced.lt_of_route (h : Traced d p) (hu : u ∈ p.threads) {n : Nat} {x : String × Int64}
    (hr : route u = some (n, x)) : n < p.shared.fanned.length := by
  obtain ⟨i, hi⟩ := h.sent u hu n x.1 x.2 hr
  exact (List.getElem?_eq_some_iff.mp hi).1

/-- A step by which nothing goes out and no copy is made, and which takes no message to
a listener that was not there. -/
theorem Traced.quiet (h : Traced d ⟨s, pre ++ u :: post⟩) (hfanned : s'.fanned = s.fanned)
    (hreceived : ∀ r ∈ s'.received, r.publish < s.fanned.length)
    (hinbox : ∀ j, ∀ x ∈ s'.inbox j, x ∈ s.inbox j) (hroute : route u' = route u)
    (hreturned : returned u' = returned u) : Traced d ⟨s', pre ++ u' :: post⟩ := by
  obtain ⟨hu, hrest⟩ := Pool.forall_mem_split.mp h.sent
  obtain ⟨hown, hothers⟩ := (Pool.pairwise_split ownNumber_symm).mp h.own
  refine ⟨?_, ?_, ?_, ?_⟩
  · simp only [hfanned]
    exact Pool.forall_mem_split.mpr ⟨fun n t offset hr => hu n t offset (hroute ▸ hr), hrest⟩
  · refine (Pool.pairwise_split ownNumber_symm).mpr ⟨?_, hothers⟩
    intro v hv n x y hr
    exact hown v hv n x y (hroute ▸ hr)
  · intro j x hx
    have hmail := Pool.exists_mem_split.mp (h.mail j x (hinbox j x hx))
    rw [← hroute, ← hreturned] at hmail
    exact Pool.exists_mem_split.mpr hmail
  · simp only [hfanned]
    exact hreceived

/-- The copies that a delivery hands out are of the publish it is for. -/
theorem publish_of_mem_hand {j : ι} {topic : String} {n : Nat} {data : Bytes} {r : Receipt ι}
    (h : r ∈ (s.hand j topic n data).received) :
    r ∈ s.received ∨ r.publish = n ∧ r.data = data ∧
      ∃ entry ∈ (s.fanout j).subscribers topic, r = ⟨j, entry.1, n, data⟩ := by
  rcases List.mem_append.mp h with hold | hnew
  · exact .inl hold
  · obtain ⟨entry, hentry, rfl⟩ := List.mem_map.mp hnew
    exact .inr ⟨rfl, rfl, entry, hentry, rfl⟩

theorem traced_deliver {i : ι} {m : Message} {offset : Int64}
    (h : Traced d ⟨s, pre ++ deliver i m offset :: post⟩) :
    Traced d ⟨{ s.hand i m.topic s.fanned.length (serializeFrameForFanout m.frame offset) with
        fanned := s.fanned ++ [⟨i, m.topic, offset⟩] },
      pre ++ announce s.fanned.length m offset :: post⟩ := by
  obtain ⟨-, hrest⟩ := Pool.forall_mem_split.mp h.sent
  obtain ⟨-, hothers⟩ := (Pool.pairwise_split ownNumber_symm).mp h.own
  refine ⟨Pool.forall_mem_split.mpr ⟨?_, ?_⟩,
    (Pool.pairwise_split ownNumber_symm).mpr ⟨?_, hothers⟩, ?_, ?_⟩
  · rintro n t o ⟨⟩
    exact ⟨i, List.getElem?_concat_length⟩
  · intro v hv n t o hr
    obtain ⟨k, hk⟩ := hrest v hv n t o hr
    have hlt := (List.getElem?_eq_some_iff.mp hk).1
    exact ⟨k, by rw [List.getElem?_append_left hlt, hk]⟩
  · rintro v hv n x y ⟨⟩ hr
    -- the numbers in use are below the new one
    exact absurd (h.lt_of_route (Pool.mem_split_of_mem hv) hr) (Nat.lt_irrefl _)
  · intro j x hx
    rcases Pool.exists_mem_split.mp (h.mail j x hx) with ⟨hr, -⟩ | hmail
    · cases hr
    · exact Pool.exists_mem_split.mpr (.inr hmail)
  · intro r hr
    rw [List.length_append, List.length_singleton]
    rcases publish_of_mem_hand hr with hold | ⟨hnew, -⟩
    · exact Nat.lt_succ_of_lt (h.copies r hold)
    · omega

theorem traced_announce {n : Nat} {m : Message} {offset : Int64} {payload : Bytes}
    (h : Traced d ⟨s, pre ++ announce n m offset :: post⟩) :
    Traced d ⟨{ s with
        inbox := fun j =>
          s.inbox j ++ [⟨n, RedisPool.topicKey d.pre "fanout" m.topic, payload⟩] },
      pre ++ published (some n) m ⟨offset, false⟩ :: post⟩ := by
  obtain ⟨hu, hrest⟩ := Pool.forall_mem_split.mp h.sent
  obtain ⟨hown, hothers⟩ := (Pool.pairwise_split ownNumber_symm).mp h.own
  refine ⟨Pool.forall_mem_split.mpr ⟨hu, hrest⟩,
    (Pool.pairwise_split ownNumber_symm).mpr ⟨hown, hothers⟩, ?_, h.copies⟩
  intro j x hx
  refine Pool.exists_mem_split.mpr ?_
  rcases List.mem_append.mp hx with hold | hnew
  · rcases Pool.exists_mem_split.mp (h.mail j x hold) with ⟨hr, -⟩ | hmail
    · cases hr
    · exact .inr hmail
  · rw [List.mem_singleton.mp hnew]
    exact .inl ⟨rfl, _, _, rfl, rfl⟩

theorem traced_spawn {ts : List (RedisPhase ι σ)} (call : RedisCall ι σ) (h : Traced d ⟨s, ts⟩) :
    Traced d ⟨s, ts ++ [start call]⟩ := by
  have hcall : route (start call) = none := by cases call <;> rfl
  refine ⟨?_, ?_, ?_, h.copies⟩
  · intro u hu n t offset hr
    rcases List.mem_append.mp hu with hold | hnew
    · exact h.sent u hold n t offset hr
    · rw [List.mem_singleton.mp hnew, hcall] at hr
      cases hr
  · refine List.pairwise_append.mpr ⟨h.own, List.pairwise_singleton _ _, ?_⟩
    intro u hu v hv
    rw [List.mem_singleton.mp hv]
    exact ownNumber_symm _ _ (ownNumber_of_route_eq_none hcall)
  · intro j x hx
    obtain ⟨u, hu, hmail⟩ := h.mail j x hx
    exact ⟨u, List.mem_append_left _ hu, hmail⟩

theorem traced_start (keys : RedisKeys) (offsets : String → Option Int64) (sets : RedisSets) :
    Traced d (⟨.start keys offsets sets, []⟩ : Calls ι σ) where
  sent := by simp
  own := .nil
  mail := by simp [Cluster.start]
  copies := by simp [Cluster.start]

section

variable [DecidableEq ι] [FanoutSink σ]

theorem fanned_register (i : ι) (op : FanoutOp σ) :
    (s.register i op).fanned = s.fanned ∧ (s.register i op).received = s.received ∧
      (s.register i op).inbox = s.inbox ∧ (s.register i op).heard = s.heard := by
  cases op with
  | subscribe topic intent sink =>
    unfold Cluster.register
    dsimp only
    split <;> exact ⟨rfl, rfl, rfl, rfl⟩
  | unsubscribe | dropSink => exact ⟨rfl, rfl, rfl, rfl⟩

theorem traced_next (hn : next d s u input = some (s', u'))
    (h : Traced d ⟨s, pre ++ u :: post⟩) : Traced d ⟨s', pre ++ u' :: post⟩ := by
  cases moves_of_next hn with
  | refuse | validate | dedupe | alloc =>
    exact h.quiet rfl h.copies (fun _ _ hx => hx) rfl rfl
  | append i m duplicate offset | unappended i m duplicate offset =>
    cases duplicate <;> exact h.quiet rfl h.copies (fun _ _ hx => hx) rfl rfl
  | deliver i m offset => exact traced_deliver h
  | announce n m offset => exact traced_announce h
  | listen j envelope henv frame =>
    refine h.quiet rfl ?_ ?_ rfl rfl
    · intro r hr
      rcases publish_of_mem_hand hr with hold | ⟨hnew, -⟩
      · exact h.copies r hold
      · obtain ⟨v, hv, -, t, offset, hroute, -⟩ := h.mail j envelope (List.mem_of_getElem? henv)
        rw [hnew]
        exact h.lt_of_route hv hroute
    · intro k x hx
      by_cases hk : k = j
      · subst hk
        simp only [Function.update_self] at hx
        exact List.mem_of_mem_eraseIdx hx
      · simpa only [Function.update_of_ne hk] using hx
  | registry i op =>
    obtain ⟨hfanned, hreceived, hinbox, -⟩ := fanned_register (s := s) i op
    refine h.quiet hfanned (hreceived ▸ h.copies) ?_ rfl rfl
    intro j x hx
    rwa [hinbox] at hx

end

/-- The copies of a publish carry an offset. -/
def Carry (s : Cluster ι σ) (n : Nat) (offset : Int64) : Prop :=
  ∀ r ∈ s.received, r.publish = n → offsetOf r.data = offset

/-- The number of a publish that has returned, and the offset it returned. -/
def answered : RedisPhase ι σ → Option (Nat × Int64)
  | published (some n) _ outcome => some (n, outcome.offset)
  | _ => none

/-- The number and the offset of a publish whose message is not with Redis yet. -/
def pending : RedisPhase ι σ → Option (Nat × Int64)
  | announce n _ offset => some (n, offset)
  | _ => none

/-- Every copy of a publish that is given an offset by `label` carries that offset. -/
def Agree (label : RedisPhase ι σ → Option (Nat × Int64)) (p : Calls ι σ) : Prop :=
  ∀ u ∈ p.threads, ∀ n offset, label u = some (n, offset) → Carry p.shared n offset

/-- Every copy of a publish that has returned carries the offset it returned. -/
def OffsetsAgree (p : Calls ι σ) : Prop := Agree answered p

/-- A listener that takes a message has no subscription to hand it to, unless its offset
is 0. -/
def unlabelled (d : RedisDeployment ι) (s : Cluster ι σ) (u : RedisPhase ι σ)
    (input : RedisInput) : Prop :=
  match u with
  | listening j => ∀ x ∈ (s.inbox j)[input.pick]?,
      (s.fanout j).subscribers (FanoutBridge.topicOf d.pre x.channel) = [] ∨
        ∀ fan ∈ s.fanned[x.publish]?, fan.offset = 0
  | _ => True

instance (d : RedisDeployment ι) (s : Cluster ι σ) (u : RedisPhase ι σ) (input : RedisInput) :
    Decidable (unlabelled d s u input) :=
  match u with
  | listening j => inferInstanceAs (Decidable (∀ x ∈ (s.inbox j)[input.pick]?,
      (s.fanout j).subscribers (FanoutBridge.topicOf d.pre x.channel) = [] ∨
        ∀ fan ∈ s.fanned[x.publish]?, fan.offset = 0))
  | validate .. | dedupe .. | alloc .. | append .. | deliver .. | announce .. | published ..
  | refused .. | registry .. | done => .isTrue trivial

section Offsets

variable {j : ι} {topic : String} {n k : Nat} {data : Bytes} {offset : Int64} {x : Envelope}

/-- A new copy leaves alone the publishes it is not of. -/
theorem Carry.hand (h : Carry s k offset) (hne : k ≠ n) :
    Carry (s.hand j topic n data) k offset := by
  intro r hr hk
  rcases publish_of_mem_hand hr with hold | ⟨hnew, -⟩
  · exact h r hold hk
  · exact absurd (hk.symm.trans hnew) hne

theorem carry_hand_iff (h : Carry s n offset) : Carry (s.hand j topic n data) n offset ↔
    (s.fanout j).subscribers topic = [] ∨ offsetOf data = offset := by
  constructor
  · intro hall
    cases hsub : (s.fanout j).subscribers topic with
    | nil => exact .inl rfl
    | cons entry rest =>
      refine .inr (hall ⟨j, entry.1, n, data⟩ (List.mem_append_right _ ?_) rfl)
      rw [hsub]
      exact List.mem_cons_self
  · intro hdata r hr hn
    rcases publish_of_mem_hand hr with hold | ⟨-, hnew, entry, hentry, -⟩
    · exact h r hold hn
    · rcases hdata with hnone | hoffset
      · rw [hnone] at hentry
        cases hentry
      · rw [hnew, hoffset]

/-- The publish of a message that a listener takes. -/
theorem Traced.mem_returned (h : Traced d ⟨s, pre ++ listening j :: post⟩) (hx : x ∈ s.inbox j) :
    ∃ m outcome i, published (some x.publish) m outcome ∈ pre ++ post ∧
      s.fanned[x.publish]? = some ⟨i, m.topic, outcome.offset⟩ ∧
      x.channel = RedisPool.topicKey d.pre "fanout" m.topic := by
  obtain ⟨-, hsent⟩ := Pool.forall_mem_split.mp h.sent
  rcases Pool.exists_mem_split.mp (h.mail j x hx) with ⟨hr, -⟩ | ⟨v, hv, hr, t, offset, hroute, hc⟩
  · cases hr
  · cases v with
    | published n m outcome =>
      obtain rfl : n = some x.publish := hr
      cases hroute
      obtain ⟨i, hi⟩ := hsent _ hv _ _ _ rfl
      exact ⟨m, outcome, i, hv, hi, hc⟩
    | _ => cases hr

/-- Two threads with one number are one. -/
theorem Traced.eq_of_route (h : Traced d p) (hu : u ∈ p.threads) (hv : v ∈ p.threads)
    {y z : String × Int64} (hur : route u = some (n, y)) (hvr : route v = some (n, z)) : u = v := by
  by_contra hne
  exact h.own.forall hu hv hne n y z hur hvr

/-- A step that makes no copy. -/
theorem Agree.quiet {label : RedisPhase ι σ → Option (Nat × Int64)}
    (h : Agree label ⟨s, pre ++ u :: post⟩) (hreceived : s'.received = s.received)
    (hu : ∀ x, label u' = some x → label u = some x) : Agree label ⟨s', pre ++ u' :: post⟩ := by
  obtain ⟨hold, hrest⟩ := Pool.forall_mem_split.mp h
  have hcarry {n : Nat} {offset : Int64} (hc : Carry s n offset) : Carry s' n offset := by
    intro r hr
    exact hc r (hreceived ▸ hr)
  exact Pool.forall_mem_split.mpr ⟨fun n offset hl => hcarry (hold n offset (hu _ hl)),
    fun v hv n offset hl => hcarry (hrest v hv n offset hl)⟩

/-- A delivery of one publish does not touch the copies of the other threads' publishes. -/
theorem Agree.hand_others {label : RedisPhase ι σ → Option (Nat × Int64)}
    (h : Agree label ⟨s, pre ++ u :: post⟩)
    (hne : ∀ v ∈ pre ++ post, ∀ k offset, label v = some (k, offset) → k ≠ n) :
    ∀ v ∈ pre ++ post, ∀ k offset, label v = some (k, offset) →
      Carry (s.hand j topic n data) k offset := by
  intro v hv k offset hl
  exact ((Pool.forall_mem_split.mp h).2 v hv k offset hl).hand (hne v hv k offset hl)

theorem route_of_answered (h : answered u = some (n, offset)) :
    ∃ t, route u = some (n, t, offset) := by
  cases u with
  | published k m outcome =>
    cases k with
    | none => cases h
    | some k =>
      cases h
      exact ⟨_, rfl⟩
  | _ => cases h

theorem route_of_pending (h : pending u = some (n, offset)) :
    ∃ t, route u = some (n, t, offset) := by
  cases u with
  | announce =>
    cases h
    exact ⟨_, rfl⟩
  | _ => cases h

/-- The copies that `publish` makes carry the offset it was given, under a number that is
not in use. -/
theorem agree_deliver {label : RedisPhase ι σ → Option (Nat × Int64)} {i : ι} {m : Message}
    (hlabel : ∀ v k o, label v = some (k, o) → ∃ t, route v = some (k, t, o))
    (ht : Traced d ⟨s, pre ++ deliver i m offset :: post⟩)
    (h : Agree label ⟨s, pre ++ deliver i m offset :: post⟩) :
    Agree label ⟨{ s.hand i m.topic s.fanned.length (serializeFrameForFanout m.frame offset) with
        fanned := s.fanned ++ [⟨i, m.topic, offset⟩] },
      pre ++ announce s.fanned.length m offset :: post⟩ := by
  refine Pool.forall_mem_split.mpr ⟨?_, ?_⟩
  · intro k o hl
    obtain ⟨t, hroute⟩ := hlabel _ k o hl
    cases hroute
    have hfresh : Carry s s.fanned.length offset := by
      intro r hr hn
      exact absurd (hn ▸ ht.copies r hr) (Nat.lt_irrefl _)
    exact (carry_hand_iff hfresh).mpr (.inr (offsetOf_serializeFrameForFanout _ _))
  · refine h.hand_others ?_
    intro v hv k o hl
    obtain ⟨t, hroute⟩ := hlabel v k o hl
    exact Nat.ne_of_lt (ht.lt_of_route (Pool.mem_split_of_mem hv) hroute)

/-- The publish of a message that a listener takes has returned, so its number is not
pending. -/
theorem Traced.ne_of_pending (h : Traced d ⟨s, pre ++ listening j :: post⟩) (hx : x ∈ s.inbox j)
    (hv : v ∈ pre ++ post) (hl : pending v = some (k, offset)) : k ≠ x.publish := by
  rintro rfl
  obtain ⟨m, outcome, i, hm, -, -⟩ := h.mem_returned hx
  obtain ⟨t, hroute⟩ := route_of_pending hl
  have heq := h.eq_of_route (Pool.mem_split_of_mem hv) (Pool.mem_split_of_mem hm) hroute rfl
  subst heq
  cases hl

theorem agree_spawn {label : RedisPhase ι σ → Option (Nat × Int64)} {ts : List (RedisPhase ι σ)}
    (call : RedisCall ι σ) (hcall : label (start call) = none) (h : Agree label ⟨s, ts⟩) :
    Agree label ⟨s, ts ++ [start call]⟩ := by
  intro u hu n offset hl
  rcases List.mem_append.mp hu with hold | hnew
  · exact h u hold n offset hl
  · rw [List.mem_singleton.mp hnew, hcall] at hl
    cases hl

section

variable [DecidableEq ι]

/-- A listener hands out copies with offset 0. The copies of its publish carried the
offset that was returned, and still do if there are no new ones or 0 was returned. -/
theorem offsetsAgree_listen {envelope : Envelope} {frame : Frame}
    (henv : (s.inbox j)[input.pick]? = some envelope)
    (ht : Traced d ⟨s, pre ++ listening j :: post⟩)
    (h : OffsetsAgree ⟨s, pre ++ listening j :: post⟩) :
    OffsetsAgree ⟨{ s.hand j (FanoutBridge.topicOf d.pre envelope.channel) envelope.publish
          (serializeFrameForFanout frame 0) with
        inbox := Function.update s.inbox j ((s.inbox j).eraseIdx input.pick)
        heard := Function.update s.heard j (s.heard j ++ [envelope.publish]) },
      pre ++ done :: post⟩ ↔ unlabelled d s (listening j) input := by
  obtain ⟨m, outcome, i, hm, hfanned, -⟩ := ht.mem_returned (List.mem_of_getElem? henv)
  have hrest := (Pool.forall_mem_split.mp h).2
  have hzero : offsetOf (serializeFrameForFanout frame 0) = outcome.offset ↔
      outcome.offset = 0 := by
    rw [offsetOf_serializeFrameForFanout, eq_comm]
  have hiff : Carry (s.hand j (FanoutBridge.topicOf d.pre envelope.channel) envelope.publish
      (serializeFrameForFanout frame 0)) envelope.publish outcome.offset ↔ _ :=
    carry_hand_iff (hrest _ hm _ _ rfl)
  simp only [unlabelled, henv, Option.mem_some_iff, forall_eq', hfanned]
  rw [← hzero, ← hiff]
  constructor
  · intro hafter
    exact hafter _ (Pool.mem_split_of_mem hm) _ _ rfl
  · intro hcarry
    refine Pool.forall_mem_split.mpr ⟨by simp [answered], ?_⟩
    intro v hv k offset hl
    by_cases hk : k = envelope.publish
    · subst hk
      obtain ⟨t, hroute⟩ := route_of_answered hl
      obtain rfl := ht.eq_of_route (Pool.mem_split_of_mem hv) (Pool.mem_split_of_mem hm) hroute rfl
      cases hl
      exact hcarry
    · exact (hrest v hv k offset hl).hand hk

variable [FanoutSink σ]

theorem pending_next (hn : next d s u input = some (s', u'))
    (ht : Traced d ⟨s, pre ++ u :: post⟩) (h : Agree pending ⟨s, pre ++ u :: post⟩) :
    Agree pending ⟨s', pre ++ u' :: post⟩ := by
  cases moves_of_next hn with
  | refuse | validate | dedupe | alloc | announce => exact h.quiet rfl (by simp [pending])
  | append i m duplicate offset | unappended i m duplicate offset =>
    cases duplicate <;> exact h.quiet rfl (by simp [pending])
  | deliver i m offset => exact agree_deliver (fun _ _ _ => route_of_pending) ht h
  | listen j envelope henv frame =>
    refine Pool.forall_mem_split.mpr ⟨by simp [pending], h.hand_others ?_⟩
    intro v hv k offset hl
    exact ht.ne_of_pending (List.mem_of_getElem? henv) hv hl
  | registry i op => exact h.quiet (fanned_register i op).2.1 (by simp [pending])

theorem offsetsAgree_next (hn : next d s u input = some (s', u'))
    (ht : Traced d ⟨s, pre ++ u :: post⟩) (hd : Agree pending ⟨s, pre ++ u :: post⟩)
    (h : OffsetsAgree ⟨s, pre ++ u :: post⟩) :
    OffsetsAgree ⟨s', pre ++ u' :: post⟩ ↔ unlabelled d s u input := by
  cases moves_of_next hn with
  | refuse | validate | dedupe | alloc =>
    exact iff_of_true (h.quiet rfl (by simp [answered])) trivial
  | append i m duplicate offset | unappended i m duplicate offset =>
    cases duplicate <;> exact iff_of_true (h.quiet rfl (by simp [answered])) trivial
  | deliver i m offset =>
    exact iff_of_true (agree_deliver (fun _ _ _ => route_of_answered) ht h) trivial
  | announce n m offset =>
    refine iff_of_true (Pool.forall_mem_split.mpr ⟨?_, (Pool.forall_mem_split.mp h).2⟩) trivial
    rintro k o ⟨⟩
    exact hd _ Pool.mem_split _ _ rfl
  | listen j envelope henv frame => exact offsetsAgree_listen henv ht h
  | registry i op =>
    exact iff_of_true (h.quiet (fanned_register i op).2.1 (by simp [answered])) trivial

/-- What holds of the numbers, and of the copies made before a publish returns. -/
def Sent (d : RedisDeployment ι) (p : Calls ι σ) : Prop := Traced d p ∧ Agree pending p

theorem sent_step {a : Act ι σ} (h : step d p a = some p') (hp : Sent d p) : Sent d p' := by
  refine Pool.invariant_step_of_forall (I := Sent d) ?_ ?_ h hp
  · rintro s ts call ⟨ht, hd⟩
    exact ⟨traced_spawn call ht, agree_spawn call (by cases call <;> rfl) hd⟩
  · rintro s pre u post input s' u' hn ⟨ht, hd⟩
    exact ⟨traced_next hn ht, pending_next hn ht hd⟩

/-- Over any number of instances and any run of publishes, listeners and registrations,
every copy of a publish carries the offset it returned exactly when no listener hands a
message to a subscription, the message of an offset 0 apart. -/
theorem copies_carry_offset_iff (d : RedisDeployment ι) (keys : RedisKeys)
    (offsets : String → Option Int64) (sets : RedisSets) (acts : List (Act ι σ)) :
    Throughout (step d) OffsetsAgree ⟨.start keys offsets sets, []⟩ acts ↔
      Guarded (step d) (Pool.Allows (unlabelled d)) ⟨.start keys offsets sets, []⟩ acts := by
  refine throughout_iff_guarded_of_invariant (Q := Sent d) (fun _ _ _ => sent_step) ?_
    ⟨traced_start keys offsets sets, by simp [Agree]⟩ (by simp [OffsetsAgree, Agree])
  intro p a p' h hsent hagree
  refine Pool.kept_iff_allows (J := Sent d) ?_ ?_ h hsent hagree
  · intro s ts call hs
    exact agree_spawn call (by cases call <;> rfl) hs
  · rintro s pre u post input s' u' hn ⟨ht, hd⟩ hs
    exact offsetsAgree_next hn ht hd hs

end

end Offsets

/-- Two instances with a subscriber each: the publish returns 1, the subscriber of its own
instance is told 1, and the other one 0. -/
theorem other_instance_is_told_zero :
    ∃ p, run (step twoNodes) ⟨.start (fun _ => none) (fun _ => none) (fun _ => .empty), []⟩
        (subscribeCall false 0 ++ subscribeCall true 1 ++ publishCall false "a" "m" 2 ++
          listenCall true 3) = some p ∧
      p.threads[2]? = some (.published (some 0) ⟨plainFrame "a" "m", "a", "m"⟩ ⟨1, false⟩) ∧
      p.shared.received.map (fun r => (r.node, r.publish, offsetOf r.data)) =
        [(false, 0, 1), (true, 0, 0)] ∧ ¬ OffsetsAgree p := by
  obtain ⟨p, hrun, hthread, hreceived⟩ : ∃ p, run (step twoNodes)
      ⟨.start (fun _ => none) (fun _ => none) (fun _ => .empty), []⟩
        (subscribeCall false 0 ++ subscribeCall true 1 ++ publishCall false "a" "m" 2 ++
          listenCall true 3) = some p ∧
      p.threads[2]? = some (.published (some 0) ⟨plainFrame "a" "m", "a", "m"⟩ ⟨1, false⟩) ∧
      p.shared.received.map (fun r => (r.node, r.publish, offsetOf r.data)) =
        [(false, 0, 1), (true, 0, 0)] := ⟨_, rfl, rfl, by decide +kernel⟩
  refine ⟨p, hrun, hthread, hreceived, ?_⟩
  intro hagree
  obtain ⟨r, hr, heq⟩ : ∃ r ∈ p.shared.received, (r.node, r.publish, offsetOf r.data) =
      (true, 0, 0) := List.mem_map.mp (hreceived ▸ by decide)
  obtain ⟨-, hn, hoffset⟩ : r.node = true ∧ r.publish = 0 ∧ offsetOf r.data = 0 := by
    simpa using heq
  have hone := hagree _ (List.mem_of_getElem? hthread) 0 1 rfl r hr hn
  rw [hoffset] at hone
  exact absurd hone (by decide)

end RedisCluster

end Rifts
