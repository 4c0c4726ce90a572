import Rifts.Bytes.Keys
import Rifts.Redis.Cluster

/-! Which messages the dedupe keys of Redis tell apart. -/
namespace Rifts

namespace RedisDedupe

/-- The second pair of a topic and a message id is the first with the front of the id
moved over to the topic. -/
def Shifted (k k' : String × String) : Prop :=
  ∃ s, k'.1 = k.1 ++ ":" ++ s ∧ k.2 = s ++ ":" ++ k'.2

instance (k k' : String × String) : Decidable (Shifted k k') :=
  -- what was moved is the rest of the longer topic
  let s := String.ofList (k'.1.toList.drop (k.1.length + 1))
  decidable_of_iff (k'.1 = k.1 ++ ":" ++ s ∧ k.2 = s ++ ":" ++ k'.2) <| by
    constructor
    · exact fun h => ⟨s, h⟩
    · rintro ⟨r, htopic, hid⟩
      have hs : s = r := by
        have hdrop : k'.1.toList.drop (k.1.length + 1) = r.toList := by
          rw [htopic, ← String.length_toList]
          simp
        rw [← String.ofList_toList (s := r), ← hdrop]
      exact hs ▸ ⟨htopic, hid⟩

theorem not_shifted_self (k : String × String) : ¬ Shifted k k := by
  rintro ⟨s, htopic, -⟩
  have hlength := congrArg String.length htopic
  simp only [String.length_append] at hlength
  have hcolon : ":".length = 1 := rfl
  omega

theorem toList_memberKey (pre t m : String) : (memberKey pre t m).toList =
    (pre ++ ":dedupe:").toList ++ (t.toList ++ ':' :: m.toList) := by
  simp [memberKey]

theorem shifted_iff {t m u n : String} : Shifted (t, m) (u, n) ↔
    ∃ s, u.toList = t.toList ++ ':' :: s ∧ m.toList = s ++ ':' :: n.toList := by
  constructor
  · rintro ⟨s, hu, hm⟩
    exact ⟨s.toList, (congrArg String.toList hu).trans (by simp),
      (congrArg String.toList hm).trans (by simp)⟩
  · rintro ⟨s, hu, hm⟩
    exact ⟨String.ofList s, String.toList_inj.mp (by simp [hu]),
      String.toList_inj.mp (by simp [hm])⟩

/-- Two pairs have one key when they are the same, or shifted against each other. -/
theorem memberKey_eq_iff {pre t m u n : String} : memberKey pre t m = memberKey pre u n ↔
    (t = u ∧ m = n) ∨ Shifted (t, m) (u, n) ∨ Shifted (u, n) (t, m) := by
  rw [← String.toList_inj, toList_memberKey, toList_memberKey, List.append_cancel_left_eq,
    Keys.append_sep_eq_iff, shifted_iff, shifted_iff, String.toList_inj, String.toList_inj]

theorem memberKey_injective_iff {pre t m u n : String} :
    (memberKey pre t m = memberKey pre u n → t = u ∧ m = n) ↔
      ¬ Shifted (t, m) (u, n) ∧ ¬ Shifted (u, n) (t, m) := by
  rw [memberKey_eq_iff]
  constructor
  · intro h
    constructor
    · intro hs
      obtain ⟨rfl, rfl⟩ := h (.inr (.inl hs))
      exact not_shifted_self _ hs
    · intro hs
      obtain ⟨rfl, rfl⟩ := h (.inr (.inr hs))
      exact not_shifted_self _ hs
  · rintro ⟨hs, hs'⟩ (h | h | h)
    · exact h
    · exact absurd h hs
    · exact absurd h hs'

/-- A key that is told apart is one that is live, if the command gets through. -/
theorem checkAndRecord_cases {pre : String} {keys keys' : RedisKeys} {now : ℤ} {t m : String}
    {window : Nat} {fresh : Bool}
    (h : checkAndRecord pre keys now t m window false = (keys', fresh)) :
    fresh = false ∧ keys' = keys ∧ (keys (memberKey pre t m)).isSome ∨
      fresh = true ∧
        ∃ deadline, keys' = Function.update keys (memberKey pre t m) (some deadline) := by
  rw [checkAndRecord, if_neg Bool.false_ne_true, setNx] at h
  split at h
  · next hlive =>
    cases h
    refine .inl ⟨rfl, rfl, ?_⟩
    cases hkey : keys (memberKey pre t m) with
    | none => simp [hkey] at hlive
    | some deadline => rfl
  · cases h
    exact .inr ⟨rfl, _, rfl⟩

end RedisDedupe

namespace RedisCluster

open Transition RedisPhase RedisDedupe

variable {ι σ : Type}

/-- The topic and the message id of a publish that was told it is a duplicate. -/
def flagged : RedisPhase ι σ → Option (String × String)
  | alloc _ m true | append _ m true _ | published _ m ⟨_, true⟩ => some (m.topic, m.messageId)
  | _ => none

/-- A message is only called a duplicate when it was checked before. -/
def OnlyRepeats (checks : List ((String × String) × Bool)) : Prop :=
  ∀ before k after, checks = before ++ (k, true) :: after → k ∈ before.map Prod.fst

/-- A publish that was reported as a duplicate came after one of the same message. -/
def DuplicatesRepeat (p : Calls ι σ) : Prop :=
  ∀ n m offset, published n m ⟨offset, true⟩ ∈ p.threads → ∃ before after,
    p.shared.checks = before ++ ((m.topic, m.messageId), true) :: after ∧
      (m.topic, m.messageId) ∈ before.map Prod.fst

/-- The `SET` goes through, and no message that was checked before is shifted against the one that
is checked now. -/
def unmixed (s : Cluster ι σ) (u : RedisPhase ι σ) (input : RedisInput) : Prop :=
  match u with
  | dedupe _ m => input.fails = false ∧ ∀ k ∈ s.checks.map Prod.fst,
      ¬ Shifted k (m.topic, m.messageId) ∧ ¬ Shifted (m.topic, m.messageId) k
  | _ => True

instance (s : Cluster ι σ) (u : RedisPhase ι σ) (input : RedisInput) :
    Decidable (unmixed s u input) :=
  match u with
  | dedupe _ m => inferInstanceAs (Decidable (input.fails = false ∧ ∀ k ∈ s.checks.map Prod.fst,
      ¬ Shifted k (m.topic, m.messageId) ∧ ¬ Shifted (m.topic, m.messageId) k))
  | validate .. | alloc .. | append .. | deliver .. | announce .. | published .. | refused ..
  | listening _ | registry .. | done => .isTrue trivial

/-- Every key belongs to a message that was checked, and every call that was told it is
a duplicate has its check on record. -/
structure Recorded (d : RedisDeployment ι) (p : Calls ι σ) : Prop where
  keys : ∀ key, (p.shared.keys key).isSome →
    ∃ k ∈ p.shared.checks.map Prod.fst, memberKey d.pre k.1 k.2 = key
  told : ∀ u ∈ p.threads, ∀ k, flagged u = some k → (k, true) ∈ p.shared.checks
  repeats : OnlyRepeats p.shared.checks

variable {d : RedisDeployment ι} {s s' : Cluster ι σ} {u u' : RedisPhase ι σ}
  {pre post : List (RedisPhase ι σ)} {input : RedisInput}

theorem OnlyRepeats.concat {checks : List ((String × String) × Bool)} {k : String × String}
    {b : Bool} (h : OnlyRepeats checks) (hk : b = true → k ∈ checks.map Prod.fst) :
    OnlyRepeats (checks ++ [(k, b)]) := by
  intro before k' after heq
  rcases List.eq_nil_or_concat' after with rfl | ⟨after, x, rfl⟩
  · obtain ⟨rfl, hlast⟩ := List.append_inj' heq rfl
    obtain ⟨rfl, rfl⟩ := Prod.mk.inj (List.cons.inj hlast).1
    exact hk rfl
  · rw [← List.cons_append, ← List.append_assoc] at heq
    exact h before k' after (List.append_inj' heq rfl).1

/-- A step that checks nothing. -/
theorem Recorded.quiet (h : Recorded d ⟨s, pre ++ u :: post⟩) (hkeys : s'.keys = s.keys)
    (hchecks : s'.checks = s.checks) (hflag : ∀ k, flagged u' = some k → flagged u = some k) :
    Recorded d ⟨s', pre ++ u' :: post⟩ := by
  obtain ⟨hu, hrest⟩ := Pool.forall_mem_split.mp h.told
  refine ⟨?_, ?_, ?_⟩
  · simp only [hkeys, hchecks]
    exact h.keys
  · simp only [hchecks]
    exact Pool.forall_mem_split.mpr ⟨fun k hk => hu k (hflag k hk), hrest⟩
  · simp only [hchecks]
    exact h.repeats

theorem recorded_dedupe {keys : RedisKeys} {fresh : Bool} {i : ι} {m : Message}
    (hcheck : checkAndRecord d.pre s.keys input.now m.topic m.messageId 60000 input.fails =
      (keys, fresh))
    (hok : unmixed s (dedupe i m) input) (h : Recorded d ⟨s, pre ++ dedupe i m :: post⟩) :
    Recorded d ⟨{ s with keys, checks := s.checks ++ [((m.topic, m.messageId), !fresh)] },
      pre ++ alloc i m (!fresh) :: post⟩ := by
  obtain ⟨hfails, hapart⟩ := hok
  rw [hfails] at hcheck
  obtain ⟨-, hrest⟩ := Pool.forall_mem_split.mp h.told
  refine ⟨?_, Pool.forall_mem_split.mpr ⟨?_, ?_⟩, ?_⟩
  · intro key hkey
    simp only [List.map_append, List.mem_append]
    rcases checkAndRecord_cases hcheck with ⟨-, rfl, -⟩ | ⟨-, deadline, rfl⟩
    · obtain ⟨k, hk, hkk⟩ := h.keys key hkey
      exact ⟨k, .inl hk, hkk⟩
    · by_cases hnew : key = memberKey d.pre m.topic m.messageId
      · exact ⟨(m.topic, m.messageId), .inr (by simp), hnew.symm⟩
      · simp only [Function.update_of_ne hnew] at hkey
        obtain ⟨k, hk, hkk⟩ := h.keys key hkey
        exact ⟨k, .inl hk, hkk⟩
  · intro k hk
    cases fresh with
    | true => cases hk
    | false =>
      cases hk
      exact List.mem_append_right _ (by simp)
  · intro v hv k hk
    exact List.mem_append_left _ (hrest v hv k hk)
  · refine h.repeats.concat ?_
    intro hdup
    rcases checkAndRecord_cases hcheck with ⟨-, -, hlive⟩ | ⟨hfresh, -⟩
    · -- the live key is that of an earlier check, which can only be of this message
      obtain ⟨k, hk, hkey⟩ := h.keys _ hlive
      obtain ⟨htopic, hid⟩ := memberKey_injective_iff.mpr (hapart k hk) hkey
      have hsame : k = (m.topic, m.messageId) := Prod.ext htopic hid
      exact hsame ▸ hk
    · rw [hfresh] at hdup
      cases hdup

variable [DecidableEq ι] [FanoutSink σ]

theorem recorded_next (hn : next d s u input = some (s', u')) (hok : unmixed s u input)
    (h : Recorded d ⟨s, pre ++ u :: post⟩) : Recorded d ⟨s', pre ++ u' :: post⟩ := by
  cases moves_of_next hn with
  | refuse i f e => exact h.quiet rfl rfl (by simp [flagged])
  | validate i f m => exact h.quiet rfl rfl (by simp [flagged])
  | dedupe i m hcheck => exact recorded_dedupe hcheck hok h
  | alloc i m duplicate =>
    refine h.quiet rfl rfl ?_
    cases duplicate <;> exact fun k hk => hk
  | append i m duplicate offset | unappended i m duplicate offset =>
    refine h.quiet rfl rfl ?_
    cases duplicate
    · rintro k ⟨⟩
    · exact fun k hk => hk
  | deliver i m offset => exact h.quiet rfl rfl (by simp [flagged])
  | announce n m offset => exact h.quiet rfl rfl (by simp [flagged])
  | listen j envelope henv frame => exact h.quiet rfl rfl (by simp [flagged])
  | registry i op =>
    refine h.quiet ?_ ?_ (by simp [flagged])
    all_goals
      cases op <;> simp only [Cluster.register]
      split <;> rfl

theorem recorded_step {p p' : Calls ι σ} {a : Act ι σ} (h : step d p a = some p')
    (hok : Pool.Allows unmixed p a) (hp : Recorded d p) : Recorded d p' := by
  refine Pool.invariant_step (I := Recorded d) ?_ ?_ h hok hp
  · intro s ts call hs
    refine ⟨hs.keys, ?_, hs.repeats⟩
    intro u hu
    rcases List.mem_append.mp hu with hold | hnew
    · exact hs.told u hold
    · rw [List.mem_singleton.mp hnew]
      cases call <;> exact fun k hk => nomatch hk
  · intro s pre u post input s' u' hn
    exact recorded_next hn

omit [DecidableEq ι] [FanoutSink σ] in
theorem duplicatesRepeat_of_recorded {p : Calls ι σ} (h : Recorded d p) : DuplicatesRepeat p := by
  intro n m offset hmem
  obtain ⟨before, after, heq⟩ := List.append_of_mem (h.told _ hmem _ rfl)
  exact ⟨before, after, heq, h.repeats _ _ _ heq⟩

/-- Two messages have different dedupe keys exactly when neither is the other with a part
of its id moved over to the topic. In every run of any number of instances in which every `SET`
goes through and no message is checked after one that is shifted against it, a publish is
reported as a duplicate only when the same topic and message id were published before. -/
theorem dedupe_separates (d : RedisDeployment ι) (offsets : String → Option Int64)
    (sets : RedisSets) :
    (∀ t u m n, (memberKey d.pre t m = memberKey d.pre u n → t = u ∧ m = n) ↔
      ¬ Shifted (t, m) (u, n) ∧ ¬ Shifted (u, n) (t, m)) ∧
    ∀ acts : List (Act ι σ),
      Guarded (step d) (Pool.Allows unmixed) ⟨.start (fun _ => none) offsets sets, []⟩ acts →
      Throughout (step d) DuplicatesRepeat ⟨.start (fun _ => none) offsets sets, []⟩ acts := by
  refine ⟨fun t u m n => memberKey_injective_iff, ?_⟩
  intro acts hg
  have hstart : Recorded d (⟨.start (fun _ => none) offsets sets, []⟩ : Calls ι σ) :=
    ⟨by simp [Cluster.start], by simp, by simp [OnlyRepeats, Cluster.start]⟩
  exact throughout_mono (throughout_of_guarded (fun _ _ _ => recorded_step) hg hstart)
    fun _ => duplicatesRepeat_of_recorded

/-- A message is published twice, at two instances. -/
def sameMessageTwice : List (Act Bool MpscSink) :=
  publishCall false "a" "m" 0 ++ .spawn (.publish true (plainFrame "a" "m")) ::
    List.replicate 4 (.advance 1 {})

/-- Two messages on two topics whose keys are the same. -/
def messagesOnTwoTopics : List (Act Bool MpscSink) :=
  publishCall false "a" "b:c" 0 ++ .spawn (.publish true (plainFrame "a:b" "c")) ::
    List.replicate 4 (.advance 1 {})

theorem second_publish_repeats :
    ∃ p, run (step twoNodes) ⟨.start (fun _ => none) (fun _ => none) (fun _ => .empty), []⟩
        sameMessageTwice = some p ∧
      (∃ m, p.threads[1]? = some (.published none m ⟨2, true⟩)) ∧ DuplicatesRepeat p := by
  obtain ⟨p, hrun, hdup⟩ : ∃ p, run (step twoNodes)
      ⟨.start (fun _ => none) (fun _ => none) (fun _ => .empty), []⟩ sameMessageTwice = some p ∧
        ∃ m, p.threads[1]? = some (.published none m ⟨2, true⟩) := ⟨_, rfl, _, rfl⟩
  refine ⟨p, hrun, hdup, ?_⟩
  exact throughout_last ((dedupe_separates twoNodes (fun _ => none) fun _ => .empty).2
    sameMessageTwice (by decide +kernel)) hrun

/-- Both topics are valid, nothing was published to "a:b", and the message there is
reported as a duplicate and reaches no one. -/
theorem other_topic_suppresses_message :
    validateName "a" = .ok () ∧ validateName "a:b" = .ok () ∧
    memberKey "rift" "a" "b:c" = memberKey "rift" "a:b" "c" ∧
    ∃ p, run (step twoNodes) ⟨.start (fun _ => none) (fun _ => none) (fun _ => .empty), []⟩
        messagesOnTwoTopics = some p ∧
      p.shared.checks = [(("a", "b:c"), false), (("a:b", "c"), true)] ∧
      p.threads[1]? = some (.published none ⟨plainFrame "a:b" "c", "a:b", "c"⟩ ⟨1, true⟩) ∧
      p.shared.fanned = [⟨false, "a", 1⟩] := by
  refine ⟨by decide, by decide, by decide +kernel, _, rfl, ?_, rfl, ?_⟩ <;> decide +kernel

end RedisCluster

end Rifts
