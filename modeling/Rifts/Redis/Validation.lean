import Rifts.Redis.Cluster

/-! What the two brokers accept and refuse. -/
namespace Rifts

open Transition

/-- The error of a frame whose fields were checked, by the check of its topic's name. -/
def refusal : Except RiftError (String × String) → Option RiftError
  | .error e => some e
  | .ok (topic, _) =>
    match validateName topic with
    | .error e => some e
    | .ok () => none

namespace InMemoryBroker

variable {O L D S σ : Type} {b : InMemoryBroker O L D S σ} {now : Int64} {f : Frame}

/-- An expired frame is refused for that, unless an earlier check fails. -/
theorem refusal_eq_iff {max : Nat} (hmax : b.maxPayloadBytes = max) :
    refusal (b.validatePublish now f) = refusal (RedisBroker.validatePublish max f) ↔
      f.topic = none ∨ f.messageId = none ∨ max < f.payloadLen ∨ f.expired now = false := by
  subst hmax
  have hname (topic messageId : String) :
      refusal (.ok (topic, messageId)) ≠ some (.message .expired) := by
    simp only [refusal]
    split
    · next e hn =>
      obtain ⟨reason, rfl⟩ := invalidName_of_validateName hn
      simp
    · simp
  cases ht : f.topic with
  | none => simp [validatePublish, RedisBroker.validatePublish, ht]
  | some topic =>
    cases hm : f.messageId with
    | none => simp [validatePublish, RedisBroker.validatePublish, ht, hm]
    | some messageId =>
      by_cases hsize : b.maxPayloadBytes < f.payloadLen
      · simp [validatePublish, RedisBroker.validatePublish, ht, hm, hsize]
      · cases he : f.expired now with
        | false => simp [validatePublish, RedisBroker.validatePublish, ht, hm, hsize, he]
        | true =>
          have hne := (hname topic messageId).symm
          simpa [validatePublish, RedisBroker.validatePublish, ht, hm, hsize, he, refusal]
            using hne

/-- While there is a publisher slot, a publish fails by its checks only. -/
theorem publish_eq_refusal [OffsetStore O] [LogStore L] [DedupeStore D] [SnapshotStore S]
    (hroom : ∀ t, f.topic = some t →
      b.store.publishers t < (b.store.profileOf b.defaultProfile t).maxPublishers.toNat) :
    (∃ e, refusal (b.validatePublish now f) = some e ∧ (b.publish now f).2.1 = .error e) ∨
      refusal (b.validatePublish now f) = none ∧ ∃ o, (b.publish now f).2.1 = .ok o := by
  cases hv : b.validatePublish now f with
  | error e => exact .inl ⟨e, rfl, by simp only [publish, hv]⟩
  | ok x =>
    obtain ⟨topic, messageId⟩ := x
    cases hn : validateName topic with
    | error e =>
      refine .inl ⟨e, ?_, by simp only [publish, hv, hn]⟩
      simp only [refusal, hn]
    | ok =>
      have htarget : b.target now f = some topic := by simp only [target, hv, hn]
      refine .inr ⟨by simp only [refusal, hn], ?_⟩
      rcases publishers_publish htarget with ⟨hlimit, -⟩ | ⟨hok, -⟩
      · have hslot := hroom topic (topic_of_target htarget).1
        exact absurd (full_of_publisherLimit htarget hlimit) (Nat.not_le.mpr hslot)
      · exact hok

end InMemoryBroker

namespace RedisPhase

variable {ι σ : Type} [DecidableEq ι] [FanoutSink σ] {d : RedisDeployment ι}
  {s s' : Cluster ι σ} {i : ι} {f : Frame} {u u' : RedisPhase ι σ}

/-- The publish has returned. -/
def isReturned : RedisPhase ι σ → Bool
  | published .. | refused .. => true
  | _ => false

/-- The phases of a publish. -/
def isPublish : RedisPhase ι σ → Bool
  | listening _ | registry .. | done => false
  | _ => true

/-- The steps that a publish has to go at most. -/
def stepsLeft : RedisPhase ι σ → Nat
  | validate .. => 6
  | dedupe .. => 5
  | alloc .. => 4
  | append .. => 3
  | deliver .. => 2
  | announce .. => 1
  | _ => 0

/-- No step of a publish has to wait, and each brings it closer to its return. -/
theorem stepsLeft_next (s : Cluster ι σ) (u : RedisPhase ι σ) (input : RedisInput)
    (hu : isPublish u = true) (hleft : 0 < stepsLeft u) :
    ∃ s' u', next d s u input = some (s', u') ∧ isPublish u' = true ∧
      stepsLeft u' < stepsLeft u := by
  cases u with
  | validate i f =>
    simp only [next]
    split
    · exact ⟨_, _, rfl, rfl, hleft⟩
    · split
      · exact ⟨_, _, rfl, rfl, hleft⟩
      · exact ⟨_, _, rfl, rfl, Nat.lt_succ_self 5⟩
  | append i m duplicate offset =>
    cases duplicate with
    | true => exact ⟨_, _, rfl, rfl, hleft⟩
    | false => exact ⟨_, _, rfl, rfl, Nat.lt_succ_self 2⟩
  | dedupe | alloc | deliver | announce => exact ⟨_, _, rfl, rfl, Nat.lt_succ_self _⟩
  | published | refused => cases hleft
  | listening | registry | done => cases hu

/-- A publish on its own returns, whatever the clock and the commands do. -/
theorem exists_return (d : RedisDeployment ι) (s : Cluster ι σ) (i : ι) (f : Frame)
    {inputs : List RedisInput} (hlen : 6 ≤ inputs.length) :
    ∃ used s' u, used <+: inputs ∧
      run (Pool.solo (program d)) (s, validate i f) used = some (s', u) ∧
      isReturned u = true := by
  obtain ⟨used, s', u, hused, hrun, hpublish, hleft⟩ :=
    Pool.exists_solo_of_variant (I := fun u : RedisPhase ι σ => isPublish u = true)
      (P := program d) stepsLeft_next (t := validate i f) (s := s) rfl hlen
  refine ⟨used, s', u, hused, hrun, ?_⟩
  cases u with
  | published | refused => rfl
  | listening | registry | done => cases hpublish
  | _ => cases hleft

/-- The publish has passed its checks. -/
def isChecked : RedisPhase ι σ → Bool
  | dedupe .. | alloc .. | append .. | deliver .. | announce .. | published .. => true
  | _ => false

theorem isChecked_next {input : RedisInput} (h : next d s u input = some (s', u'))
    (hu : isChecked u = true) : isChecked u' = true := by
  cases moves_of_next h with
  | append i m duplicate offset | unappended i m duplicate offset => cases duplicate <;> rfl
  | refuse | validate | listen | registry => cases hu
  | dedupe | alloc | deliver | announce => rfl

/-- A publish on its own, once it has returned: after the checks nothing refuses it. -/
theorem solo_publish {inputs : List RedisInput} (hu : isReturned u = true)
    (h : run (Pool.solo (program d)) (s, validate i f) inputs = some (s', u)) :
    (∃ e, refusal (RedisBroker.validatePublish (d.maxPayloadBytes i) f) = some e ∧
        u = refused f e) ∨
      refusal (RedisBroker.validatePublish (d.maxPayloadBytes i) f) = none ∧
        ∃ n m o, u = published n m o := by
  cases inputs with
  | nil =>
    cases h
    cases hu
  | cons input inputs =>
    obtain ⟨⟨s₁, u₁⟩, hstep, hrest⟩ := run_cons_iff.mp h
    have hchecked (hu₁ : isChecked u₁ = true) : ∃ n m o, u = published n m o := by
      have hend := run_invariant (P := fun x : Cluster ι σ × RedisPhase ι σ => isChecked x.2 = true)
        (fun _ _ _ hs hx => isChecked_next hs hx) hrest hu₁
      cases u with
      | published n m o => exact ⟨n, m, o, rfl⟩
      | refused => cases hend
      | _ => cases hu
    have hrefused {e : RiftError} (hu₁ : u₁ = refused f e) : u = refused f e := by
      subst hu₁
      cases inputs with
      | nil => exact (Prod.mk.inj (Option.some.inj hrest)).2.symm
      | cons input' inputs =>
        obtain ⟨_, hnone, -⟩ := run_cons_iff.mp hrest
        cases hnone
    change next d s (validate i f) input = some (s₁, u₁) at hstep
    simp only [next] at hstep
    split at hstep
    · next e hv =>
      cases hstep
      exact .inl ⟨e, by rw [hv]; rfl, hrefused rfl⟩
    · next topic messageId hv =>
      split at hstep
      · next e hn =>
        cases hstep
        exact .inl ⟨e, by simp only [hv, refusal, hn], hrefused rfl⟩
      · next hn =>
        cases hstep
        exact .inr ⟨by simp only [hv, refusal, hn], hchecked rfl⟩

end RedisPhase

namespace BrokerAgreement

variable {ι σ τ : Type}

/-- Both brokers take the frame, or both refuse it with the same error. -/
def Agree : Except RiftError PublishOutcome → RedisPhase ι σ → Prop
  | .ok _, .published .. => True
  | .error e, .refused _ e' => e = e'
  | _, _ => False

/-- A publish to the one broker and a publish on its own to the other, which returns within six
steps, agree exactly when the frame has not expired, or is refused before its TTL would be
looked at. -/
theorem agree_iff {O L D S : Type} [OffsetStore O] [LogStore L] [DedupeStore D] [SnapshotStore S]
    [FanoutSink τ] [DecidableEq ι] [FanoutSink σ] (b : InMemoryBroker O L D S τ)
    (d : RedisDeployment ι) (i : ι) (hmax : b.maxPayloadBytes = d.maxPayloadBytes i) (now : Int64)
    (f : Frame) (hroom : ∀ t, f.topic = some t →
      b.store.publishers t < (b.store.profileOf b.defaultProfile t).maxPublishers.toNat)
    (s : Cluster ι σ) (inputs : List RedisInput) (hlen : 6 ≤ inputs.length) :
    ∃ used s' u, used <+: inputs ∧
      run (Pool.solo (RedisPhase.program d)) (s, .validate i f) used = some (s', u) ∧
      u.isReturned = true ∧
      (Agree (b.publish now f).2.1 u ↔
        f.topic = none ∨ f.messageId = none ∨ d.maxPayloadBytes i < f.payloadLen ∨
          f.expired now = false) := by
  obtain ⟨used, s', u, hused, hrun, hu⟩ := RedisPhase.exists_return d s i f hlen
  refine ⟨used, s', u, hused, hrun, hu, ?_⟩
  rw [← InMemoryBroker.refusal_eq_iff hmax]
  rcases InMemoryBroker.publish_eq_refusal hroom with ⟨e, hr, hp⟩ | ⟨hr, o, hp⟩ <;>
    rcases RedisPhase.solo_publish hu hrun with ⟨e', hr', rfl⟩ | ⟨hr', n, m, o', rfl⟩ <;>
    rw [hp, hr, hr'] <;> simp [Agree]

/-- A frame that was to live for ten milliseconds, sent at the first millisecond. -/
def shortLived : Frame :=
  { RedisCluster.plainFrame "a" "m" with timestamp := 1, ttlMs := some 10 }

def freshCluster : Cluster Bool MpscSink :=
  .start (fun _ => none) (fun _ => none) (fun _ => .empty)

/-- While it lives, both take it. -/
theorem shortLived_agree :
    ∃ used s' u, used <+: List.replicate 6 {} ∧
      run (Pool.solo (RedisPhase.program RedisCluster.twoNodes))
        (freshCluster, .validate false shortLived) used = some (s', u) ∧
      Agree (emptyBroker.publish 5 shortLived).2.1 u := by
  have hroom : ∀ t, shortLived.topic = some t → emptyBroker.store.publishers t <
      (emptyBroker.store.profileOf emptyBroker.defaultProfile t).maxPublishers.toNat := by
    rintro _ ⟨⟩
    decide
  obtain ⟨used, s', u, hused, hrun, -, hagree⟩ := agree_iff emptyBroker RedisCluster.twoNodes
    false rfl 5 shortLived hroom freshCluster (List.replicate 6 {}) le_rfl
  exact ⟨used, s', u, hused, hrun, hagree.mpr (by decide)⟩

/-- Long after that, one refuses it as expired and the other publishes it. -/
theorem expired_only_in_memory :
    (emptyBroker.publish 100 shortLived).2.1 = .error (.message .expired) ∧
      ∃ s' n m o, run (Pool.solo (RedisPhase.program RedisCluster.twoNodes))
        (freshCluster, .validate false shortLived) (List.replicate 6 {}) =
          some (s', .published n m o) := by
  obtain ⟨⟨s', u⟩, hrun, hu, hc⟩ : ∃ x, run (Pool.solo (RedisPhase.program RedisCluster.twoNodes))
      (freshCluster, .validate false shortLived) (List.replicate 6 {}) = some x ∧
        x.2.isReturned = true ∧ x.2.isChecked = true := by decide +kernel
  refine ⟨rfl, s', ?_⟩
  cases u with
  | published n m o => exact ⟨n, m, o, hrun⟩
  | refused => cases hc
  | _ => cases hu

end BrokerAgreement

end Rifts
