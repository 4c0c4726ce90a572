import Rifts.Redis.Cluster

/-! Offsets that the instances of a cluster draw from one hash of counters. -/
namespace Rifts

namespace RedisOffset

theorem lt_add_one {n : Int64} (h : n ≠ Int64.maxValue) : n < n + 1 := by
  have hmax : n.toInt ≠ Int64.maxValue.toInt := fun heq => h (Int64.toInt_inj.mp heq)
  have hle := n.toInt_le
  have hge := n.le_toInt
  have hone : (1 : Int64).toInt = 1 := rfl
  have htop : Int64.maxValue.toInt = 2 ^ 63 - 1 := rfl
  have hsum : (n + 1).toInt = n.toInt + 1 := by
    rw [Int64.toInt_add, hone, Int.bmod_eq_of_le (by omega) (by omega)]
  rw [Int64.lt_iff_toInt_lt, hsum]
  omega

/-- The command goes through, and the counter is not at its end. -/
def Succeeds (value : Option Int64) (fails : Bool) : Prop :=
  fails = false ∧ value.getD 0 ≠ Int64.maxValue

instance (value : Option Int64) (fails : Bool) : Decidable (Succeeds value fails) :=
  inferInstanceAs (Decidable (_ ∧ _))

theorem alloc_of_succeeds {offsets : String → Option Int64} {topic : String} {fails : Bool}
    (h : Succeeds (offsets topic) fails) : alloc offsets topic fails =
      (Function.update offsets topic (some ((offsets topic).getD 0 + 1)),
        (offsets topic).getD 0 + 1) := by
  simp [alloc, hincrby, h.1, h.2]

end RedisOffset

namespace RedisCluster

open Transition RedisPhase

variable {ι σ : Type}

/-- The topic of a publish and the offset it was given. -/
def numbered : RedisPhase ι σ → Option (String × Int64)
  | append _ m _ offset | deliver _ m offset | announce _ m offset => some (m.topic, offset)
  | published _ m outcome => some (m.topic, outcome.offset)
  | _ => none

/-- The same, once the log entry is appended. -/
def logged : RedisPhase ι σ → Option (String × Int64)
  | append .. => none
  | u => numbered u

/-- The topic and the offset of a publish that has returned. -/
def reported : RedisPhase ι σ → Option (String × Int64)
  | published _ m outcome => some (m.topic, outcome.offset)
  | _ => none

/-- Two calls have not been given one offset of one topic. -/
def Apart (u v : RedisPhase ι σ) : Prop := ∀ x, numbered u = some x → numbered v ≠ some x

/-- No two publishes to a topic report one offset, and no two entries of its log were
appended with one. -/
structure UniqueOffsets (p : Calls ι σ) : Prop where
  reports : p.threads.Pairwise fun u v => ∀ x, reported u = some x → reported v ≠ some x
  entries : (p.shared.appended.map fun x => (x.1, x.2.offset)).Nodup

def allocates (s : Cluster ι σ) (u : RedisPhase ι σ) (input : RedisInput) : Prop :=
  match u with
  | alloc _ m _ => RedisOffset.Succeeds (s.offsets m.topic) input.fails
  | _ => True

instance (s : Cluster ι σ) (u : RedisPhase ι σ) (input : RedisInput) :
    Decidable (allocates s u input) :=
  match u with
  | alloc _ m _ =>
    inferInstanceAs (Decidable (RedisOffset.Succeeds (s.offsets m.topic) input.fails))
  | validate .. | dedupe .. | append .. | deliver .. | announce .. | published .. | refused ..
  | listening _ | registry .. | done => .isTrue trivial

/-- The offsets given out are different, none is above the counter of its topic, and the
entries of the logs are those of publishes that got past their append. -/
structure Numbered (p : Calls ι σ) : Prop where
  below : ∀ u ∈ p.threads, ∀ t o, numbered u = some (t, o) → o ≤ (p.shared.offsets t).getD 0
  apart : p.threads.Pairwise Apart
  source : ∀ x ∈ p.shared.appended, ∃ u ∈ p.threads, logged u = some (x.1, x.2.offset)
  nodup : (p.shared.appended.map fun x => (x.1, x.2.offset)).Nodup

variable {s s' : Cluster ι σ} {u u' v : RedisPhase ι σ} {pre post : List (RedisPhase ι σ)}
  {input : RedisInput} {p p' : Calls ι σ}

theorem apart_symm (u v : RedisPhase ι σ) (h : Apart u v) : Apart v u :=
  fun x hv hu => h x hu hv

theorem apart_of_numbered_eq_none (h : numbered u = none) : Apart u v := by
  intro x hx
  rw [h] at hx
  cases hx

theorem numbered_of_logged {x : String × Int64} (h : logged u = some x) : numbered u = some x := by
  cases u with
  | append => cases h
  | _ => exact h

theorem numbered_of_reported {x : String × Int64} (h : reported u = some x) :
    numbered u = some x := by
  cases u with
  | published => exact h
  | _ => cases h

theorem uniqueOffsets_of_numbered (h : Numbered p) : UniqueOffsets p := by
  refine ⟨h.apart.imp ?_, h.nodup⟩
  intro u v huv x hu hv
  exact huv x (numbered_of_reported hu) (numbered_of_reported hv)

/-- A step that gives out no offset and appends nothing. -/
theorem Numbered.quiet (h : Numbered ⟨s, pre ++ u :: post⟩) (hoffsets : s'.offsets = s.offsets)
    (happended : s'.appended = s.appended)
    (hu : ∀ x, numbered u' = some x → numbered u = some x)
    (hlog : ∀ x, logged u = some x → logged u' = some x) : Numbered ⟨s', pre ++ u' :: post⟩ := by
  obtain ⟨hbelow, hrest⟩ := Pool.forall_mem_split.mp h.below
  obtain ⟨hapart, hothers⟩ := (Pool.pairwise_split apart_symm).mp h.apart
  refine ⟨?_, ?_, ?_, ?_⟩
  · simp only [hoffsets]
    exact Pool.forall_mem_split.mpr ⟨fun t o ho => hbelow t o (hu _ ho), hrest⟩
  · exact (Pool.pairwise_split apart_symm).mpr ⟨fun v hv x hx => hapart v hv x (hu x hx), hothers⟩
  · intro x hx
    rcases Pool.exists_mem_split.mp (h.source x (happended ▸ hx)) with hl | hl
    · exact Pool.exists_mem_split.mpr (.inl (hlog _ hl))
    · exact Pool.exists_mem_split.mpr (.inr hl)
  · simp only [happended]
    exact h.nodup

/-- What a publish that has not appended yet finds in the logs is from the others. -/
theorem Numbered.logged_by_other {x : String × LogEntry} (h : Numbered ⟨s, pre ++ u :: post⟩)
    (hu : logged u = none) (hx : x ∈ s.appended) :
    ∃ v ∈ pre ++ post, logged v = some (x.1, x.2.offset) := by
  rcases Pool.exists_mem_split.mp (h.source x hx) with hl | hl
  · cases hu.symm.trans hl
  · exact hl

theorem numbered_alloc {i : ι} {m : Message} {duplicate : Bool}
    (hok : allocates s (alloc i m duplicate) input)
    (h : Numbered ⟨s, pre ++ alloc i m duplicate :: post⟩) :
    Numbered ⟨{ s with offsets :=
        (Function.update s.offsets m.topic (some ((s.offsets m.topic).getD 0 + 1))) },
      pre ++ append i m duplicate ((s.offsets m.topic).getD 0 + 1) :: post⟩ := by
  have hlt : (s.offsets m.topic).getD 0 < (s.offsets m.topic).getD 0 + 1 :=
    RedisOffset.lt_add_one hok.2
  obtain ⟨-, hrest⟩ := Pool.forall_mem_split.mp h.below
  obtain ⟨-, hothers⟩ := (Pool.pairwise_split apart_symm).mp h.apart
  refine ⟨Pool.forall_mem_split.mpr ⟨?_, ?_⟩, (Pool.pairwise_split apart_symm).mpr ⟨?_, hothers⟩,
    ?_, h.nodup⟩
  · rintro t o ⟨⟩
    simp only [Function.update_self, Option.getD_some]
    exact Int64.le_refl _
  · intro v hv t o ho
    have hle := hrest v hv t o ho
    by_cases ht : t = m.topic
    · subst ht
      simp only [Function.update_self, Option.getD_some]
      exact Int64.le_trans hle (Int64.le_of_lt hlt)
    · simp only [Function.update_of_ne ht]
      exact hle
  · rintro v hv x ⟨⟩ hx
    exact Int64.not_le.mpr hlt (hrest v hv _ _ hx)
  · intro x hx
    exact Pool.exists_mem_split.mpr (.inr (h.logged_by_other rfl hx))

theorem numbered_append {i : ι} {m : Message} {duplicate : Bool} {offset : Int64}
    {sets : RedisSets} (h : Numbered ⟨s, pre ++ append i m duplicate offset :: post⟩) :
    Numbered ⟨{ s with
        sets
        appended := s.appended ++
          [(m.topic, InMemoryBroker.logEntry m.frame m.messageId offset)] },
      pre ++ (if duplicate then published none m ⟨offset, true⟩ else deliver i m offset) ::
        post⟩ := by
  obtain ⟨hbelow, hrest⟩ := Pool.forall_mem_split.mp h.below
  obtain ⟨hapart, hothers⟩ := (Pool.pairwise_split apart_symm).mp h.apart
  have hnew : logged (σ := σ) (if duplicate then published none m ⟨offset, true⟩
      else deliver i m offset) = some (m.topic, offset) := by
    cases duplicate <;> rfl
  have hnumbered (x : String × Int64) (hx : numbered (σ := σ) (if duplicate then
      published none m ⟨offset, true⟩ else deliver i m offset) = some x) :
      numbered (append (σ := σ) i m duplicate offset) = some x := by
    rw [numbered_of_logged hnew] at hx
    exact hx
  refine ⟨Pool.forall_mem_split.mpr ⟨fun t o ho => hbelow t o (hnumbered _ ho), hrest⟩,
    (Pool.pairwise_split apart_symm).mpr
      ⟨fun v hv x hx => hapart v hv x (hnumbered x hx), hothers⟩, ?_, ?_⟩
  · intro x hx
    rcases List.mem_append.mp hx with hold | hlast
    · exact Pool.exists_mem_split.mpr (.inr (h.logged_by_other rfl hold))
    · rw [List.mem_singleton.mp hlast]
      exact Pool.exists_mem_split.mpr (.inl hnew)
  · simp only [List.map_append, List.map_singleton]
    refine List.nodup_append.mpr ⟨h.nodup, List.nodup_singleton _, ?_⟩
    intro x hx y hy heq
    subst heq
    -- an entry with this offset would be that of another publish, which has it as well
    obtain ⟨e, he, rfl⟩ := List.mem_map.mp hx
    obtain ⟨v, hv, hl⟩ := h.logged_by_other rfl he
    refine hapart v hv (e.1, e.2.offset) ?_ (numbered_of_logged hl)
    rw [List.mem_singleton.mp hy]
    rfl

theorem numbered_start (call : RedisCall ι σ) : numbered (start call) = none := by
  cases call <;> rfl

variable [DecidableEq ι] [FanoutSink σ] {d : RedisDeployment ι}

theorem numbered_next (hn : next d s u input = some (s', u')) (hok : allocates s u input)
    (h : Numbered ⟨s, pre ++ u :: post⟩) : Numbered ⟨s', pre ++ u' :: post⟩ := by
  cases moves_of_next hn with
  | refuse | validate | dedupe | listen =>
    exact h.quiet rfl rfl (by simp [numbered]) (by simp [logged, numbered])
  | alloc i m duplicate halloc =>
    rw [RedisOffset.alloc_of_succeeds hok] at halloc
    cases halloc
    exact numbered_alloc hok h
  | append i m duplicate offset => exact numbered_append h
  | unappended i m duplicate offset =>
    cases duplicate <;> exact h.quiet rfl rfl (fun _ hx => hx) (by simp [logged])
  | deliver i m offset => exact h.quiet rfl rfl (fun _ hx => hx) fun _ hx => hx
  | announce n m offset => exact h.quiet rfl rfl (fun _ hx => hx) fun _ hx => hx
  | registry i op =>
    refine h.quiet ?_ ?_ (by simp [numbered]) (by simp [logged, numbered])
    all_goals
      cases op <;> simp only [Cluster.register]
      split <;> rfl

theorem numbered_step {a : Act ι σ} (h : step d p a = some p') (hok : Pool.Allows allocates p a)
    (hp : Numbered p) : Numbered p' := by
  refine Pool.invariant_step (I := Numbered) ?_ ?_ h hok hp
  · intro s ts call hs
    have hcall := numbered_start call
    refine ⟨?_, ?_, ?_, hs.nodup⟩
    · intro u hu t o ho
      rcases List.mem_append.mp hu with hold | hnew
      · exact hs.below u hold t o ho
      · rw [List.mem_singleton.mp hnew] at ho
        cases hcall.symm.trans ho
    · refine List.pairwise_append.mpr ⟨hs.apart, List.pairwise_singleton _ _, ?_⟩
      intro u hu v hv
      rw [List.mem_singleton.mp hv]
      exact apart_symm _ _ (apart_of_numbered_eq_none hcall)
    · intro x hx
      obtain ⟨u, hu, hl⟩ := hs.source x hx
      exact ⟨u, List.mem_append_left _ hu, hl⟩
  · intro s pre u post input s' u' hn
    exact numbered_next hn

/-- In every run of any number of publishes at any instances, over any counters, in which
every `HINCRBY` succeeds, no two publishes to a topic return one offset and no two
entries are appended to its log with one. -/
theorem offsets_stay_unique (d : RedisDeployment ι) (keys : RedisKeys)
    (offsets : String → Option Int64) (sets : RedisSets) (acts : List (Act ι σ))
    (hg : Guarded (step d) (Pool.Allows allocates) ⟨.start keys offsets sets, []⟩ acts) :
    Throughout (step d) UniqueOffsets ⟨.start keys offsets sets, []⟩ acts := by
  have hstart : Numbered (⟨.start keys offsets sets, []⟩ : Calls ι σ) :=
    ⟨by simp, .nil, by simp [Cluster.start], .nil⟩
  exact throughout_mono (throughout_of_guarded (fun _ _ _ => numbered_step) hg hstart)
    fun _ => uniqueOffsets_of_numbered

theorem two_publishes_get_two_offsets :
    ∃ p, run (step twoNodes) ⟨.start (fun _ => none) (fun _ => none) (fun _ => .empty), []⟩
        (publishCall false "a" "m" 0 ++ publishCall true "a" "n" 1) = some p ∧
      p.threads.filterMap reported = [("a", 1), ("a", 2)] ∧ UniqueOffsets p := by
  obtain ⟨p, hrun, hreports⟩ : ∃ p, run (step twoNodes)
      ⟨.start (fun _ => none) (fun _ => none) (fun _ => .empty), []⟩
        (publishCall false "a" "m" 0 ++ publishCall true "a" "n" 1) = some p ∧
      p.threads.filterMap reported = [("a", 1), ("a", 2)] := by decide +kernel
  refine ⟨p, hrun, hreports, ?_⟩
  exact throughout_last (offsets_stay_unique twoNodes (fun _ => none) (fun _ => none)
    (fun _ => .empty) _ (by decide +kernel)) hrun

/-- A publish whose `HINCRBY` fails. -/
def publishWithoutCounter (i : Bool) (topic messageId : String) (thread : Nat) :
    List (Act Bool MpscSink) :=
  .spawn (.publish i (plainFrame topic messageId)) ::
    [.advance thread {}, .advance thread {}, .advance thread { fails := true },
      .advance thread {}, .advance thread {}, .advance thread {}]

/-- The second publish is accepted, with the offset of the first. -/
theorem failed_increment_reuses_offset :
    ∃ p, run (step twoNodes) ⟨.start (fun _ => none) (fun _ => none) (fun _ => .empty), []⟩
        (publishCall false "a" "m" 0 ++ publishWithoutCounter true "a" "n" 1) = some p ∧
      p.threads[0]? = some (.published (some 0) ⟨plainFrame "a" "m", "a", "m"⟩ ⟨1, false⟩) ∧
      p.threads[1]? = some (.published (some 1) ⟨plainFrame "a" "n", "a", "n"⟩ ⟨1, false⟩) ∧
      p.shared.appended.map (fun x => (x.1, x.2.messageId, x.2.offset)) =
        [("a", "m", 1), ("a", "n", 1)] := by
  refine ⟨_, rfl, rfl, rfl, ?_⟩
  decide +kernel

end RedisCluster

end Rifts
