import Mathlib.Data.List.Sort
import Mathlib.Data.Set.List
import Rifts.Redis.Log

/-! What a replay reads from Redis while the instances of a cluster publish: the entries appended
so far in the order of their offsets, and no gap once the publishes in flight have appended. -/
namespace Rifts

namespace RedisBroker

def replay {ι : Type} (d : RedisDeployment ι) (sets : RedisSets) (topic : String)
    (first last : Int64) : List Bytes :=
  (RedisLog.range d.cbor d.double d.pre sets topic first last).map LogEntry.payload

/-- `HGET` on the hash of counters. -/
def headOffset (offsets : String → Option Int64) (topic : String) : Int64 :=
  (offsets topic).getD 0

end RedisBroker

namespace RedisCluster

open Transition RedisPhase RedisBroker
open RedisLog hiding append

variable {ι σ : Type}

/-- The entries appended to the log of a topic, in the order the server took them. -/
def appendedTo (s : Cluster ι σ) (t : String) : List LogEntry :=
  (s.appended.filter fun x => x.1 = t).map Prod.snd

/-- The publish has its offset, and its entry is not in the log yet. -/
def Pending (t : String) : RedisPhase ι σ → Prop
  | append _ m _ _ => m.topic = t
  | _ => False

instance (t : String) : DecidablePred (Pending (ι := ι) (σ := σ) t)
  | append _ m _ _ => inferInstanceAs (Decidable (m.topic = t))
  | validate .. | dedupe .. | alloc .. | deliver .. | announce .. | published .. | refused ..
  | listening _ | registry .. | done => .isFalse id

/-- The increment goes through, and the new value has a double of its own. -/
def countsUp (s : Cluster ι σ) (u : RedisPhase ι σ) (input : RedisInput) : Prop :=
  match u with
  | alloc _ m _ => input.fails = false ∧ ((s.offsets m.topic).getD 0).toInt + 1 < 2 ^ 53
  | _ => True

instance (s : Cluster ι σ) (u : RedisPhase ι σ) (input : RedisInput) :
    Decidable (countsUp s u input) :=
  match u with
  | alloc _ m _ => inferInstanceAs
      (Decidable (input.fails = false ∧ ((s.offsets m.topic).getD 0).toInt + 1 < 2 ^ 53))
  | validate .. | dedupe .. | append .. | deliver .. | announce .. | published .. | refused ..
  | listening _ | registry .. | done => .isTrue trivial

/-- The entry of a publish gets to its set. -/
def appends (_ : Cluster ι σ) (u : RedisPhase ι σ) (input : RedisInput) : Prop :=
  match u with
  | append .. => input.fails = false
  | _ => True

instance (s : Cluster ι σ) (u : RedisPhase ι σ) (input : RedisInput) :
    Decidable (appends s u input) :=
  match u with
  | append .. => inferInstanceAs (Decidable (input.fails = false))
  | validate .. | dedupe .. | alloc .. | deliver .. | announce .. | published .. | refused ..
  | listening _ | registry .. | done => .isTrue trivial

/-- What a replay of any range of a topic returns. -/
def InOrder (d : RedisDeployment ι) (p : Calls ι σ) (t : String) : Prop :=
  ∀ first last, ∃ log : List LogEntry,
    replay d p.shared.sets t first last = log.map LogEntry.payload ∧
      (log.Pairwise fun a b => a.offset < b.offset) ∧
      log.Perm ((appendedTo p.shared t).filter fun e => first ≤ e.offset && e.offset ≤ last)

/-- What a replay up to the head returns when no publish to the topic is between its two
commands. -/
def Complete (d : RedisDeployment ι) (p : Calls ι σ) (t : String) : Prop :=
  (∀ u ∈ p.threads, ¬Pending t u) → ∃ log : List LogEntry,
    replay d p.shared.sets t 1 (headOffset p.shared.offsets t) = log.map LogEntry.payload ∧
      log.Perm (appendedTo p.shared t) ∧
      log.map LogEntry.offset =
        (List.range (headOffset p.shared.offsets t).toInt.toNat).map nthOffset

/-- The sets hold the entries that were appended. -/
structure Filed (d : RedisDeployment ι) (p : Calls ι σ) : Prop where
  unique : Numbered p
  sets : ∀ t, (p.shared.sets (logKey d.pre t)).items.Perm
    ((appendedTo p.shared t).map (stored d.cbor d.double))
  counters : ∀ t, Small ((p.shared.offsets t).getD 0)
  positive : ∀ u ∈ p.threads, ∀ t o, numbered u = some (t, o) → 0 < o.toInt

/-- Every offset given out belongs to a call, and to an entry once the call is past its append. -/
structure Gapless (p : Calls ι σ) : Prop where
  given : ∀ t (o : Int64), 0 < o.toInt → o ≤ (p.shared.offsets t).getD 0 →
    ∃ u ∈ p.threads, numbered u = some (t, o)
  past : ∀ u ∈ p.threads, ∀ t o, logged u = some (t, o) →
    ∃ e ∈ appendedTo p.shared t, e.offset = o

variable {d : RedisDeployment ι} {s s' : Cluster ι σ} {u u' : RedisPhase ι σ}
  {pre post : List (RedisPhase ι σ)} {input : RedisInput} {p p' : Calls ι σ} {t : String}
  {e : LogEntry}

theorem mem_appendedTo : e ∈ appendedTo s t ↔ (t, e) ∈ s.appended := by
  simp [appendedTo]

theorem appendedTo_concat {topic : String} (h : s'.appended = s.appended ++ [(topic, e)]) :
    appendedTo s' t = if t = topic then appendedTo s t ++ [e] else appendedTo s t := by
  by_cases ht : t = topic
  · simp [appendedTo, h, ht]
  · simp [appendedTo, h, ht, Ne.symm ht]

/-- A step that gives out no offset and puts nothing in a set. -/
theorem Filed.quiet (h : Filed d ⟨s, pre ++ u :: post⟩)
    (hnumbered : Numbered ⟨s', pre ++ u' :: post⟩) (hoffsets : s'.offsets = s.offsets)
    (hsets : s'.sets = s.sets) (happended : s'.appended = s.appended)
    (hu : numbered u' = numbered u) : Filed d ⟨s', pre ++ u' :: post⟩ := by
  obtain ⟨hpositive, hrest⟩ := Pool.forall_mem_split.mp h.positive
  refine ⟨hnumbered, ?_, ?_, ?_⟩
  · intro t
    simp only [hsets, appendedTo, happended]
    exact h.sets t
  · intro t
    simp only [hoffsets]
    exact h.counters t
  · rw [Pool.forall_mem_split, hu]
    exact ⟨hpositive, hrest⟩

/-- A step that gives out no offset and is no append. -/
theorem Gapless.quiet (h : Gapless ⟨s, pre ++ u :: post⟩) (hoffsets : s'.offsets = s.offsets)
    (happended : s'.appended = s.appended) (hu : numbered u' = numbered u)
    (hlog : logged u' = logged u) : Gapless ⟨s', pre ++ u' :: post⟩ := by
  obtain ⟨hlogged, hothers⟩ := Pool.forall_mem_split.mp h.past
  constructor
  · intro t o ho hle
    simp only [hoffsets] at hle
    rw [Pool.exists_mem_split, hu]
    exact Pool.exists_mem_split.mp (h.given t o ho hle)
  · simp only [appendedTo, happended]
    rw [Pool.forall_mem_split, hlog]
    exact ⟨hlogged, hothers⟩

theorem allocates_of_countsUp (h : countsUp s u input) : allocates s u input := by
  cases u with
  | alloc i m duplicate =>
    obtain ⟨hfails, hroom⟩ := h
    refine ⟨hfails, fun heq => ?_⟩
    have htop : Int64.maxValue.toInt = 2 ^ 63 - 1 := rfl
    rw [heq, htop] at hroom
    omega
  | _ => trivial

/-- The counter goes up by one. -/
theorem toInt_succ {o : Int64} (hsmall : Small o) : (o + 1).toInt = o.toInt + 1 := by
  obtain ⟨hnonneg, hbound⟩ := hsmall
  have hone : (1 : Int64).toInt = 1 := rfl
  rw [Int64.toInt_add, hone, Int.bmod_eq_of_le (by omega) (by omega)]

/-- The counters after an increment. -/
theorem getD_update {offsets : String → Option Int64} {topic : String} {o : Int64} (t : String) :
    (Function.update offsets topic (some o) t).getD 0 =
      if t = topic then o else (offsets t).getD 0 := by
  rw [Function.update_apply]
  split <;> rfl

/-- The next offset of a topic is positive and goes to the call that asks for it. -/
theorem filed_alloc {i : ι} {m : Message} {duplicate : Bool}
    (hok : countsUp s (alloc i m duplicate) input)
    (h : Filed d ⟨s, pre ++ alloc i m duplicate :: post⟩) :
    Filed d ⟨{ s with offsets :=
        (Function.update s.offsets m.topic (some ((s.offsets m.topic).getD 0 + 1))) },
      pre ++ append i m duplicate ((s.offsets m.topic).getD 0 + 1) :: post⟩ := by
  have hsucc := toInt_succ (h.counters m.topic)
  have hunique := numbered_alloc (allocates_of_countsUp hok) h.unique
  obtain ⟨-, hroom⟩ := hok
  obtain ⟨hnonneg, -⟩ := h.counters m.topic
  simp only at hnonneg hsucc
  obtain ⟨-, hrest⟩ := Pool.forall_mem_split.mp h.positive
  refine ⟨hunique, h.sets, ?_, ?_⟩
  · intro t
    simp only [getD_update t]
    split
    · exact ⟨by omega, by omega⟩
    · exact h.counters t
  · refine Pool.forall_mem_split.mpr ⟨?_, hrest⟩
    rintro t o ⟨⟩
    omega

theorem gapless_alloc {i : ι} {m : Message} {duplicate : Bool}
    (hsmall : Small ((s.offsets m.topic).getD 0))
    (h : Gapless ⟨s, pre ++ alloc i m duplicate :: post⟩) :
    Gapless ⟨{ s with offsets :=
        (Function.update s.offsets m.topic (some ((s.offsets m.topic).getD 0 + 1))) },
      pre ++ append i m duplicate ((s.offsets m.topic).getD 0 + 1) :: post⟩ := by
  have hsucc := toInt_succ hsmall
  obtain ⟨-, hothers⟩ := Pool.forall_mem_split.mp h.past
  constructor
  · intro t o ho hle
    rw [Pool.exists_mem_split]
    simp only [getD_update t] at hle
    by_cases hnew : t = m.topic ∧ o = (s.offsets m.topic).getD 0 + 1
    · obtain ⟨rfl, rfl⟩ := hnew
      exact .inl rfl
    · -- any other offset was given out before, to another call
      have hold : o ≤ (s.offsets t).getD 0 := by
        split at hle
        · next ht =>
          subst ht
          have hne : o.toInt ≠ ((s.offsets m.topic).getD 0 + 1).toInt := fun heq =>
            hnew ⟨rfl, Int64.toInt_inj.mp heq⟩
          rw [Int64.le_iff_toInt_le] at hle ⊢
          omega
        · exact hle
      rcases Pool.exists_mem_split.mp (h.given t o ho hold) with hself | hother
      · cases hself
      · exact .inr hother
  · exact Pool.forall_mem_split.mpr ⟨by rintro t o ⟨⟩, hothers⟩

/-- The entry of a publish is a new member of the set of its topic. -/
theorem filed_append {i : ι} {m : Message} {duplicate : Bool} {offset : Int64}
    (h : Filed d ⟨s, pre ++ append i m duplicate offset :: post⟩)
    (hunique : Numbered ⟨s', pre ++ u' :: post⟩) (hoffsets : s'.offsets = s.offsets)
    (hsets : s'.sets = RedisLog.append d.cbor d.double d.pre s.sets m.topic e .durable)
    (happended : s'.appended = s.appended ++ [(m.topic, e)])
    (hu : numbered u' = some (m.topic, offset)) : Filed d ⟨s', pre ++ u' :: post⟩ := by
  obtain ⟨hpositive, hrest⟩ := Pool.forall_mem_split.mp h.positive
  have hmember : d.cbor.encode e ∉ (s.sets (logKey d.pre m.topic)).items.map Prod.snd := by
    intro hmem
    have hmem := ((h.sets m.topic).map Prod.snd).subset hmem
    rw [List.map_map] at hmem
    obtain ⟨e', he', heq⟩ := List.mem_map.mp hmem
    rw [d.cbor.encode_inj.mp heq, mem_appendedTo] at he'
    have hnodup := hunique.nodup
    rw [happended, List.map_append, List.nodup_append] at hnodup
    exact hnodup.2.2 _ (List.mem_map_of_mem he') _ (List.mem_singleton_self _) rfl
  refine ⟨hunique, ?_, ?_, ?_⟩
  · intro t
    simp only [hsets, append_apply, appendedTo_concat happended]
    split
    · next ht =>
      subst ht
      refine (ScoredSet.insert_perm hmember).trans ?_
      rw [List.map_append]
      exact ((h.sets m.topic).cons _).trans (List.perm_append_singleton _ _).symm
    · exact h.sets t
  · simp only [hoffsets]
    exact h.counters
  · rw [Pool.forall_mem_split, hu]
    exact ⟨hpositive, hrest⟩

theorem gapless_append {i : ι} {m : Message} {duplicate : Bool} {offset : Int64}
    (h : Gapless ⟨s, pre ++ append i m duplicate offset :: post⟩) (he : e.offset = offset)
    (hoffsets : s'.offsets = s.offsets) (happended : s'.appended = s.appended ++ [(m.topic, e)])
    (hlog : logged u' = some (m.topic, offset)) : Gapless ⟨s', pre ++ u' :: post⟩ := by
  obtain ⟨-, hothers⟩ := Pool.forall_mem_split.mp h.past
  constructor
  · intro t o ho hle
    simp only [hoffsets] at hle
    rw [Pool.exists_mem_split, numbered_of_logged hlog]
    exact Pool.exists_mem_split.mp (h.given t o ho hle)
  · rw [Pool.forall_mem_split, hlog]
    simp only [mem_appendedTo, happended]
    constructor
    · rintro t o ⟨⟩
      exact ⟨e, List.mem_append_right _ (List.mem_singleton_self _), he⟩
    · intro v hv t o ho
      obtain ⟨e', he', heq⟩ := hothers v hv t o ho
      exact ⟨e', List.mem_append_left _ (mem_appendedTo.mp he'), heq⟩

theorem Filed.small (h : Filed d p) (he : e ∈ appendedTo p.shared t) :
    0 < e.offset.toInt ∧ e.offset ≤ (p.shared.offsets t).getD 0 ∧ Small e.offset := by
  obtain ⟨u, hu, hlogged⟩ := h.unique.source _ (mem_appendedTo.mp he)
  have hpositive := h.positive u hu t e.offset (numbered_of_logged hlogged)
  have hbelow := h.unique.below u hu t e.offset (numbered_of_logged hlogged)
  have hcounter := (h.counters t).2
  have hle := Int64.le_iff_toInt_le.mp hbelow
  exact ⟨hpositive, hbelow, by omega, by omega⟩

theorem Filed.distinct (h : Filed d p) (t : String) :
    (appendedTo p.shared t).Pairwise fun a b => a.offset ≠ b.offset := by
  rw [appendedTo, List.pairwise_map]
  refine ((List.pairwise_map.mp h.unique.nodup).filter fun x => x.1 = t).imp_of_mem ?_
  intro x y hx hy hne heq
  have hx := of_decide_eq_true (List.mem_filter.mp hx).2
  have hy := of_decide_eq_true (List.mem_filter.mp hy).2
  exact hne (Prod.ext (hx.trans hy.symm) heq)

/-- The set of a topic, read from its lowest score on: the entries of the topic by offset. -/
theorem Filed.exists_log (hd : Exact d.double) (h : Filed d p) (t : String) :
    ∃ log : List LogEntry, (p.shared.sets (logKey d.pre t)).items =
        log.map (stored d.cbor d.double) ∧
      log.Perm (appendedTo p.shared t) ∧ log.Pairwise fun a b => a.offset < b.offset := by
  have hread : (p.shared.sets (logKey d.pre t)).items ∈
      Set.range (List.map (stored d.cbor d.double)) := by
    rw [Set.range_list_map]
    intro x hx
    obtain ⟨e, -, he⟩ := List.mem_map.mp ((h.sets t).subset hx)
    exact ⟨e, he⟩
  obtain ⟨log, hlog⟩ := hread
  have hinj : Function.Injective (stored d.cbor d.double) := fun a b hab =>
    d.cbor.encode_inj.mp (congrArg Prod.snd hab)
  have hperm : log.Perm (appendedTo p.shared t) :=
    (List.map_perm_map_iff hinj).mp (hlog ▸ h.sets t)
  refine ⟨log, hlog.symm, hperm, ?_⟩
  have hdistinct : log.Pairwise fun a b => a.offset ≠ b.offset :=
    (hperm.pairwise_iff Ne.symm).mpr (h.distinct t)
  have hranked := (p.shared.sets (logKey d.pre t)).ranked
  rw [← hlog, List.pairwise_map] at hranked
  refine (hranked.and hdistinct).imp_of_mem ?_
  rintro a b ha hb ⟨hlex, hne⟩
  by_contra hnot
  -- the scores would be the other way round
  have hlt : b.offset < a.offset := by
    rw [Int64.lt_iff_toInt_lt] at hnot ⊢
    have hne : a.offset.toInt ≠ b.offset.toInt := fun heq => hne (Int64.toInt_inj.mp heq)
    omega
  have hscore := hd.lt_of_lt (h.small (hperm.subset ha)).2.2 hlt
  rcases Prod.Lex.toLex_lt_toLex.mp hlex with hless | ⟨heq, -⟩
  · exact absurd hless (not_lt.mpr hscore.le)
  · exact absurd heq hscore.ne'

/-- An offset up to the head has its entry when no publish stands before its append. -/
theorem Gapless.exists_entry (h : Gapless p) (hidle : ∀ u ∈ p.threads, ¬Pending t u) {o : Int64}
    (ho : 0 < o.toInt) (hle : o ≤ (p.shared.offsets t).getD 0) :
    ∃ e ∈ appendedTo p.shared t, e.offset = o := by
  obtain ⟨u, hu, hnumbered⟩ := h.given t o ho hle
  refine h.past u hu t o ?_
  cases u with
  | append i m duplicate offset => exact absurd (by cases hnumbered; rfl) (hidle _ hu)
  | _ => exact hnumbered

/-- Without a publish before its append, the offsets in the log are those up to the head. -/
theorem Filed.offsets_eq (h : Filed d p) (hgapless : Gapless p)
    (hidle : ∀ u ∈ p.threads, ¬Pending t u)
    {log : List LogEntry} (hperm : log.Perm (appendedTo p.shared t))
    (hascending : log.Pairwise fun a b => a.offset < b.offset) :
    log.map LogEntry.offset =
      (List.range (headOffset p.shared.offsets t).toInt.toNat).map nthOffset := by
  have hbound : (headOffset p.shared.offsets t).toInt < 2 ^ 53 := (h.counters t).2
  -- both lists ascend, so it is enough that they have the same members
  refine List.Subset.antisymm_of_pairwise (r := fun a b : Int64 => a < b)
    (List.pairwise_map.mpr hascending) ?_ ?_ ?_
  · refine List.pairwise_map.mpr (List.pairwise_lt_range.imp_of_mem ?_)
    intro i j hi hj hlt
    have hi := List.mem_range.mp hi
    have hj := List.mem_range.mp hj
    rw [Int64.lt_iff_toInt_lt, toInt_nthOffset (by omega), toInt_nthOffset (by omega)]
    omega
  · intro o ho
    obtain ⟨e, he, rfl⟩ := List.mem_map.mp ho
    obtain ⟨hpositive, hbelow, -⟩ := h.small (hperm.subset he)
    have hle : e.offset.toInt ≤ (headOffset p.shared.offsets t).toInt :=
      Int64.le_iff_toInt_le.mp hbelow
    refine List.mem_map.mpr ⟨e.offset.toInt.toNat - 1, List.mem_range.mpr (by omega), ?_⟩
    apply Int64.toInt_inj.mp
    rw [toInt_nthOffset (by omega)]
    omega
  · intro o ho
    obtain ⟨i, hi, rfl⟩ := List.mem_map.mp ho
    have hi := List.mem_range.mp hi
    have hoffset := toInt_nthOffset (m := i) (by omega)
    have hle : nthOffset i ≤ headOffset p.shared.offsets t := Int64.le_iff_toInt_le.mpr (by omega)
    obtain ⟨e, he, heq⟩ := hgapless.exists_entry hidle (by omega) hle
    exact List.mem_map.mpr ⟨e, hperm.symm.subset he, heq⟩

/-- A replay, in terms of the entries in the set. -/
theorem Filed.exists_range (hd : Exact d.double) (h : Filed d p) (t : String) :
    ∃ log : List LogEntry, log.Perm (appendedTo p.shared t) ∧
      (log.Pairwise fun a b => a.offset < b.offset) ∧
      ∀ first last, replay d p.shared.sets t first last =
        (log.filter fun e => first ≤ e.offset && e.offset ≤ last).map LogEntry.payload := by
  obtain ⟨log, hitems, hperm, hascending⟩ := h.exists_log hd t
  refine ⟨log, hperm, hascending, ?_⟩
  intro first last
  rw [replay, range, hitems, filter_stored hd fun e he => (h.small (hperm.subset he)).2.2,
    filterMap_stored]

theorem Filed.inOrder (hd : Exact d.double) (h : Filed d p) (t : String) : InOrder d p t := by
  obtain ⟨log, hperm, hascending, hreplay⟩ := h.exists_range hd t
  exact fun first last => ⟨_, hreplay first last, hascending.filter _, hperm.filter _⟩

theorem Filed.complete (hd : Exact d.double) (h : Filed d p) (hgapless : Gapless p) (t : String) :
    Complete d p t := by
  obtain ⟨log, hperm, hascending, hreplay⟩ := h.exists_range hd t
  intro hidle
  have hone : (1 : Int64).toInt = 1 := rfl
  have hall : (log.filter fun e => 1 ≤ e.offset && e.offset ≤ headOffset p.shared.offsets t) =
      log := by
    rw [List.filter_eq_self]
    intro e he
    obtain ⟨hpositive, hbelow, -⟩ := h.small (hperm.subset he)
    have hfirst : 1 ≤ e.offset := Int64.le_iff_toInt_le.mpr (by omega)
    simp only [hfirst, decide_true, Bool.true_and, decide_eq_true_eq]
    exact hbelow
  refine ⟨log, ?_, hperm, h.offsets_eq hgapless hidle hperm hascending⟩
  rw [hreplay, hall]

variable [DecidableEq ι] [FanoutSink σ]

theorem filed_next (hn : next d s u input = some (s', u')) (hok : countsUp s u input)
    (h : Filed d ⟨s, pre ++ u :: post⟩) : Filed d ⟨s', pre ++ u' :: post⟩ := by
  have hallocates := allocates_of_countsUp hok
  have hunique := numbered_next hn hallocates h.unique
  cases moves_of_next hn with
  | refuse | validate | dedupe | deliver | announce | listen =>
    exact h.quiet hunique rfl rfl rfl rfl
  | alloc i m duplicate halloc =>
    rw [RedisOffset.alloc_of_succeeds hallocates] at halloc
    cases halloc
    exact filed_alloc hok h
  | append i m duplicate offset hfails hsets =>
    exact filed_append h hunique rfl hsets rfl (by cases duplicate <;> rfl)
  | unappended i m duplicate offset =>
    exact h.quiet hunique rfl rfl rfl (by cases duplicate <;> rfl)
  | registry i op =>
    refine h.quiet hunique ?_ ?_ ?_ rfl
    all_goals
      cases op <;> simp only [Cluster.register]
      split <;> rfl

theorem gapless_next (hn : next d s u input = some (s', u')) (hok : countsUp s u input)
    (hput : appends s u input) (hf : Filed d ⟨s, pre ++ u :: post⟩)
    (h : Gapless ⟨s, pre ++ u :: post⟩) : Gapless ⟨s', pre ++ u' :: post⟩ := by
  cases moves_of_next hn with
  | refuse | validate | dedupe | deliver | announce | listen => exact h.quiet rfl rfl rfl rfl
  | alloc i m duplicate halloc =>
    rw [RedisOffset.alloc_of_succeeds (allocates_of_countsUp hok)] at halloc
    cases halloc
    exact gapless_alloc (hf.counters m.topic) h
  | append i m duplicate offset => exact gapless_append h rfl rfl rfl (by cases duplicate <;> rfl)
  | unappended i m duplicate offset hfails => cases hfails.symm.trans hput
  | registry i op =>
    refine h.quiet ?_ ?_ rfl rfl
    all_goals
      cases op <;> simp only [Cluster.register]
      split <;> rfl

theorem filed_step {a : Act ι σ} (h : step d p a = some p') (hok : Pool.Allows countsUp p a)
    (hp : Filed d p) : Filed d p' := by
  refine Pool.invariant_step (I := Filed d) ?_ ?_ h hok hp
  · intro s ts call hs
    have hunique := numbered_step (p := ⟨s, ts⟩) (a := .spawn call) (d := d) rfl trivial hs.unique
    refine ⟨hunique, hs.sets, hs.counters, ?_⟩
    intro u hu t o hnumbered
    rcases List.mem_append.mp hu with hold | hnew
    · exact hs.positive u hold t o hnumbered
    · rw [List.mem_singleton.mp hnew] at hnumbered
      cases (numbered_start call).symm.trans hnumbered
  · intro s pre u post input s' u' hn
    exact filed_next hn

theorem gapless_step {a : Act ι σ} (h : step d p a = some p')
    (hok : Pool.Allows countsUp p a ∧ Pool.Allows appends p a) (hp : Filed d p ∧ Gapless p) :
    Filed d p' ∧ Gapless p' := by
  refine ⟨filed_step h hok.1 hp.1, ?_⟩
  rcases Pool.step_cases h with ⟨call, rfl, rfl⟩ | ⟨pre, u, post, input, s', u', rfl, ht, hn, rfl⟩
  · constructor
    · intro t o ho hle
      obtain ⟨u, hu, hnumbered⟩ := hp.2.given t o ho hle
      exact ⟨u, List.mem_append_left _ hu, hnumbered⟩
    · intro u hu t o hlogged
      rcases List.mem_append.mp hu with hold | hnew
      · exact hp.2.past u hold t o hlogged
      · rw [List.mem_singleton.mp hnew] at hlogged
        cases (numbered_start call).symm.trans (numbered_of_logged hlogged)
  · have hpool : p = ⟨p.shared, pre ++ u :: post⟩ := by rw [← ht]
    have hcounts := (Pool.allows_advance ht).mp hok.1
    have hput := (Pool.allows_advance ht).mp hok.2
    rw [hpool] at hp
    exact gapless_next hn hcounts hput hp.1 hp.2

/-- In every run of any number of publishes at any instances over an empty server, in which every
`HINCRBY` succeeds and no counter reaches `2 ^ 53`, and whatever the interleaving: a replay of any
range of any topic reads the entries appended so far in that range, by ascending offset. If every
`ZADD` succeeds as well, there is no gap between the first offset and the head when no publish
to the topic stands between its `HINCRBY` and its `ZADD`. -/
theorem replay_in_offset_order (d : RedisDeployment ι) (hd : Exact d.double) (keys : RedisKeys)
    (acts : List (Act ι σ))
    (hg : Guarded (step d) (Pool.Allows countsUp)
      ⟨.start keys (fun _ => none) (fun _ => .empty), []⟩ acts) :
    Throughout (step d) (fun p => ∀ t, InOrder d p t)
      ⟨.start keys (fun _ => none) (fun _ => .empty), []⟩ acts ∧
    (Guarded (step d) (Pool.Allows appends)
        ⟨.start keys (fun _ => none) (fun _ => .empty), []⟩ acts →
      Throughout (step d) (fun p => ∀ t, Complete d p t)
        ⟨.start keys (fun _ => none) (fun _ => .empty), []⟩ acts) := by
  have hfiled : Filed d (⟨.start keys (fun _ => none) (fun _ => .empty), []⟩ : Calls ι σ) :=
    ⟨⟨by simp, .nil, by simp [Cluster.start], .nil⟩, fun t => .nil,
      fun t => (by decide : Small 0), by simp⟩
  have hgapless : Gapless (⟨.start keys (fun _ => none) (fun _ => .empty), []⟩ : Calls ι σ) := by
    refine ⟨?_, by simp⟩
    intro t o ho hle
    have hle := Int64.le_iff_toInt_le.mp hle
    exact absurd ho (not_lt.mpr hle)
  constructor
  · exact throughout_mono (throughout_of_guarded (fun _ _ _ => filed_step) hg hfiled)
      fun _ hp t => hp.inOrder hd t
  · intro hput
    exact throughout_mono (throughout_of_guarded (fun _ _ _ => gapless_step)
      (guarded_and hg hput) ⟨hfiled, hgapless⟩) fun _ hp t => hp.1.complete hd hp.2 t

/-- The second publish appends its entry before the first one does. -/
def crossedPublishes : List (Act Bool MpscSink) :=
  [.spawn (.publish false (plainFrame "a" "m")), .advance 0 {}, .advance 0 {}, .advance 0 {}] ++
    publishCall true "a" "n" 1 ++ List.replicate 3 (.advance 0 {})

theorem crossed_publishes_in_order :
    ∃ p, run (step twoNodes) ⟨.start (fun _ => none) (fun _ => none) (fun _ => .empty), []⟩
        crossedPublishes = some p ∧
      p.shared.appended.map (fun x => x.2.offset) = [2, 1] ∧
      ∃ log : List LogEntry,
        replay twoNodes p.shared.sets "a" 1 2 = log.map LogEntry.payload ∧
          log.map LogEntry.offset = [1, 2] := by
  obtain ⟨p, hrun, happended, hidle, hhead⟩ : ∃ p, run (step twoNodes)
      ⟨.start (fun _ => none) (fun _ => none) (fun _ => .empty), []⟩ crossedPublishes = some p ∧
      p.shared.appended.map (fun x => x.2.offset) = [2, 1] ∧
      (∀ u ∈ p.threads, ¬Pending "a" u) ∧ headOffset p.shared.offsets "a" = 2 := by
    decide +kernel
  refine ⟨p, hrun, happended, ?_⟩
  have hreplay := throughout_last ((replay_in_offset_order twoNodes exact_toInt (fun _ => none)
    crossedPublishes (by decide +kernel)).2 (by decide +kernel)) hrun "a"
  obtain ⟨log, hlog, -, hoffsets⟩ := hreplay hidle
  rw [hhead] at hlog hoffsets
  exact ⟨log, hlog, hoffsets⟩

end RedisCluster

end Rifts
