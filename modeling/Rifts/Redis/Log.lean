import Mathlib.Data.List.Sort
import Rifts.Redis.Offset

/-! The message log in the sorted sets of Redis: how it agrees with the log in memory, and what
a replay reads while the instances of a cluster publish. -/
namespace Rifts

namespace RedisLog

variable (C : Codec LogEntry) (double : Int64 → ℤ) (pre : String)

/-- `ZRANGEBYSCORE`, with the entries that can be read. -/
def range (sets : RedisSets) (topic : String) (lo hi : Int64) : List LogEntry :=
  ((sets (logKey pre topic)).items.filter fun x => double lo ≤ x.1 && x.1 ≤ double hi).filterMap
    fun x => C.decode x.2

/-- `ZREVRANGE key 0 0`. -/
def latest (sets : RedisSets) (topic : String) : Option LogEntry :=
  (sets (logKey pre topic)).items.getLast?.bind fun x => C.decode x.2

def remove (sets : RedisSets) (topic : String) : RedisSets :=
  Function.update sets (logKey pre topic) .empty

/-- What is asked of the server's doubles: they keep the order of the integers, and the
integers up to `2 ^ 53` are exact. -/
structure Exact (double : Int64 → ℤ) : Prop where
  mono : ∀ {a b : Int64}, a ≤ b → double a ≤ double b
  exact : ∀ {a : Int64}, |a.toInt| ≤ 2 ^ 53 → double a = a.toInt

/-- An offset that doubles tell apart from its neighbours. -/
def Small (o : Int64) : Prop := 0 ≤ o.toInt ∧ o.toInt < 2 ^ 53

instance (o : Int64) : Decidable (Small o) := inferInstanceAs (Decidable (_ ∧ _))

/-- The policies that the store has a command for, and those that ask for none. A count is a
positive `i64`. -/
def Supports : RetentionPolicy → Prop
  | .count n => 0 < n ∧ n < 2 ^ 63
  | .none | .latest | .durable => True
  | .size _ | .ttl _ => False

instance : DecidablePred Supports
  | .count n => inferInstanceAs (Decidable (0 < n ∧ n < 2 ^ 63))
  | .none | .latest | .durable => .isTrue trivial
  | .size _ | .ttl _ => .isFalse id

/-- An entry as it stands in a set. -/
def stored (e : LogEntry) : ℤ × Bytes := (double e.offset, C.encode e)

variable {C double pre} {sets : RedisSets} {set : ScoredSet ℤ Bytes} {t u : String}
  {entry : LogEntry} {log : List LogEntry} {policy : RetentionPolicy} {lo hi o p : Int64}
  {s : MemoryLogStore} {now : Int64}

theorem logKey_inj : logKey pre t = logKey pre u ↔ t = u := by
  constructor
  · intro h
    have hlist := congrArg String.toList h
    simp only [logKey, RedisPool.topicKey, String.toList_append, List.append_cancel_left_eq]
      at hlist
    exact String.toList_inj.mp hlist
  · rintro rfl
    rfl

/-- The doubles of small integers are those integers. -/
theorem Exact.exists_eq (h : Exact double) {n : ℤ} (hn : |n| ≤ 2 ^ 53) :
    ∃ c : Int64, c.toInt = n ∧ double c = n := by
  have hbounds := abs_le.mp hn
  have hc : (Int64.ofInt n).toInt = n := Int64.toInt_ofInt_of_le (by omega) (by omega)
  refine ⟨Int64.ofInt n, hc, ?_⟩
  rw [h.exact (by rwa [hc]), hc]

/-- What is below an offset is at most the integer before it. -/
theorem Exact.lt_of_lt (h : Exact double) (ho : Small o) (hlt : p < o) : double p < double o := by
  obtain ⟨hnonneg, hbound⟩ := ho
  obtain ⟨c, hc, hdouble⟩ := h.exists_eq (n := o.toInt - 1) (abs_le.mpr (by omega))
  have hself := h.exact (a := o) (abs_le.mpr (by omega))
  have hle : p ≤ c := by
    rw [Int64.le_iff_toInt_le, hc]
    have := Int64.lt_iff_toInt_lt.mp hlt
    omega
  have hmono := h.mono hle
  omega

theorem Exact.gt_of_gt (h : Exact double) (ho : Small o) (hlt : o < p) : double o < double p := by
  obtain ⟨hnonneg, hbound⟩ := ho
  obtain ⟨c, hc, hdouble⟩ := h.exists_eq (n := o.toInt + 1) (abs_le.mpr (by omega))
  have hself := h.exact (a := o) (abs_le.mpr (by omega))
  have hle : c ≤ p := by
    rw [Int64.le_iff_toInt_le, hc]
    have := Int64.lt_iff_toInt_lt.mp hlt
    omega
  have hmono := h.mono hle
  omega

theorem Exact.le_iff (h : Exact double) (ho : Small o) : double p ≤ double o ↔ p ≤ o := by
  constructor
  · intro hle
    by_contra hnot
    exact absurd (h.gt_of_gt ho (Int64.not_le.mp hnot)) (not_lt.mpr hle)
  · exact h.mono

theorem Exact.ge_iff (h : Exact double) (ho : Small o) : double o ≤ double p ↔ o ≤ p := by
  constructor
  · intro hle
    by_contra hnot
    exact absurd (h.lt_of_lt ho (Int64.not_le.mp hnot)) (not_lt.mpr hle)
  · exact h.mono

theorem filterMap_stored : (log.map (stored C double)).filterMap (fun x => C.decode x.2) = log := by
  rw [List.filterMap_map]
  exact (List.filterMap_congr fun e _ => C.decode_encode e).trans List.filterMap_some

/-- The scores select what the offsets select. -/
theorem filter_stored (h : Exact double) (hsmall : ∀ e ∈ log, Small e.offset) :
    ((log.map (stored C double)).filter fun x => double lo ≤ x.1 && x.1 ≤ double hi) =
      (log.filter fun e => lo ≤ e.offset && e.offset ≤ hi).map (stored C double) := by
  rw [List.filter_map]
  congr 1
  apply List.filter_congr
  intro e he
  simp only [Function.comp_apply, stored, h.le_iff (hsmall e he), h.ge_iff (hsmall e he)]

/-- An append is to the set of its topic only. -/
theorem append_apply : append C double pre sets t entry policy (logKey pre u) =
    if u = t then trim ((sets (logKey pre t)).insert (double entry.offset) (C.encode entry)) policy
    else sets (logKey pre u) := by
  simp only [append, Function.update_apply, logKey_inj]

/-- The set of each topic is its log in memory. -/
structure Mirrors (C : Codec LogEntry) (double : Int64 → ℤ) (pre : String) (s : MemoryLogStore)
    (sets : RedisSets) : Prop where
  items : ∀ t, (sets (logKey pre t)).items = (s.logOf t).map (stored C double)
  ascending : ∀ t, (s.logOf t).Pairwise fun a b => a.offset < b.offset
  small : ∀ t, ∀ e ∈ s.logOf t, Small e.offset

theorem mirrors_new : Mirrors C double pre ⟨fun _ => none⟩ fun _ => .empty :=
  ⟨fun _ => rfl, fun _ => .nil, by simp [MemoryLogStore.logOf]⟩

/-- The commands that follow a `ZADD` leave what the policy leaves of the log in memory. -/
theorem items_trim (hpolicy : Supports policy) (hnew : ∀ e ∈ log, e.offset ≠ entry.offset)
    (h : set.items = (log ++ [entry]).map (stored C double)) :
    (trim set policy).items =
      (retain now entry (log ++ [entry]) policy).map (stored C double) := by
  cases policy with
  | none => rfl
  | durable => exact h
  | size | ttl => exact hpolicy.elim
  | count n =>
    have hstop := toInt_stop n
    have hn : n % 2 ^ 64 = n := Nat.mod_eq_of_lt (by have := hpolicy.2; omega)
    rw [hn, if_pos hpolicy.2] at hstop
    rw [trim, if_pos hpolicy.1, ScoredSet.items_removeRange_neg hstop, h, retain_count,
      List.rtake, List.rtake, List.map_drop, List.length_map]
  | latest =>
    have hstop : (-2 : ℤ) = -(((1 : ℕ) : ℤ) + 1) := rfl
    rw [trim, ScoredSet.items_removeRange_neg hstop, h, retain_latest hnew]
    simp [List.rtake]

theorem mirrors_append (hd : Exact double) (h : Mirrors C double pre s sets)
    (hpolicy : Supports policy) (hsmall : Small entry.offset)
    (hnew : ∀ e ∈ s.logOf t, e.offset < entry.offset) :
    Mirrors C double pre (LogStore.append s now t entry policy)
      (append C double pre sets t entry policy) := by
  have hne : ∀ e ∈ s.logOf t, e.offset ≠ entry.offset := fun e he heq =>
    Int64.lt_irrefl (heq ▸ hnew e he)
  have hitems : ((sets (logKey pre t)).insert (double entry.offset) (C.encode entry)).items =
      (s.logOf t ++ [entry]).map (stored C double) := by
    rw [List.map_append, ← h.items t]
    apply ScoredSet.items_insert_of_lt
    · rw [h.items t, List.map_map]
      intro hmem
      obtain ⟨e, he, heq⟩ := List.mem_map.mp hmem
      exact hne e he (congrArg LogEntry.offset (C.encode_inj.mp heq))
    · intro x hx
      rw [h.items t] at hx
      obtain ⟨e, he, rfl⟩ := List.mem_map.mp hx
      exact hd.lt_of_lt hsmall (hnew e he)
  have hlog (u : String) : (LogStore.append s now t entry policy).logOf u =
      if u = t then retain now entry (s.logOf t ++ [entry]) policy else s.logOf u := by
    split
    · next hut => rw [hut, MemoryLogStore.logOf_append_self]
    · next hut => exact MemoryLogStore.logOf_append_of_ne hut
  refine ⟨fun u => ?_, fun u => ?_, fun u => ?_⟩
  all_goals rw [hlog u]
  · rw [append_apply]
    split
    · exact items_trim hpolicy hne hitems
    · exact h.items u
  · split
    · refine List.Pairwise.sublist retain_sublist (List.pairwise_append.mpr ⟨h.ascending t, ?_, ?_⟩)
      · exact List.pairwise_singleton _ _
      · intro e he e' he'
        rw [List.mem_singleton.mp he']
        exact hnew e he
    · exact h.ascending u
  · split
    · intro e he
      rcases List.mem_append.mp (retain_sublist.subset he) with he | he
      · exact h.small t e he
      · rw [List.mem_singleton.mp he]
        exact hsmall
    · exact h.small u

theorem mirrors_remove (h : Mirrors C double pre s sets) :
    Mirrors C double pre (s.remove t) (remove pre sets t) := by
  have hlog (u : String) : (s.remove t).logOf u = if u = t then [] else s.logOf u := by
    split
    · next hut => rw [hut, MemoryLogStore.logOf_remove_self]
    · next hut => exact MemoryLogStore.logOf_remove_of_ne hut
  have hset (u : String) : remove pre sets t (logKey pre u) =
      if u = t then .empty else sets (logKey pre u) := by
    simp only [remove, Function.update_apply, logKey_inj]
  refine ⟨fun u => ?_, fun u => ?_, fun u => ?_⟩
  all_goals rw [hlog u]
  · rw [hset u]
    split
    · rfl
    · exact h.items u
  · split
    · exact .nil
    · exact h.ascending u
  · split
    · simp
    · exact h.small u

theorem range_eq (hd : Exact double) (h : Mirrors C double pre s sets) :
    range C double pre sets t lo hi = LogStore.range s t lo hi := by
  rw [range, h.items t, filter_stored hd (h.small t), filterMap_stored]
  rfl

theorem latest_eq (h : Mirrors C double pre s sets) : latest C pre sets t = s.latest t := by
  rw [latest, h.items t, List.getLast?_map, MemoryLogStore.latest]
  cases (s.logOf t).getLast? with
  | none => rfl
  | some e => exact C.decode_encode e

def serve (C : Codec LogEntry) (double : Int64 → ℤ) (pre : String) (sets : RedisSets) :
    LogCall → RedisSets × LogAnswer
  | .append _ topic entry retention => (append C double pre sets topic entry retention, .done)
  | .range topic lo hi => (sets, .entries (range C double pre sets topic lo hi))
  | .latest topic => (sets, .last (latest C pre sets topic))
  | .remove topic => (remove pre sets topic, .done)

/-- An append with an offset that has a double of its own, under a policy that the store has. -/
def Admissible : LogCall → Prop
  | .append _ _ entry retention => Small entry.offset ∧ Supports retention
  | .range .. | .latest _ | .remove _ => True

instance : DecidablePred Admissible
  | .append _ _ entry retention =>
    inferInstanceAs (Decidable (Small entry.offset ∧ Supports retention))
  | .range .. | .latest _ | .remove _ => .isTrue trivial

open Transition

theorem mirrors_serve {c : LogCall} (hd : Exact double) (h : Mirrors C double pre s sets)
    (hc : Admissible c ∧ SledLog.Ascending s c) :
    Mirrors C double pre (s.serve c).1 (serve C double pre sets c).1 ∧
      (serve C double pre sets c).2 = (s.serve c).2 := by
  obtain ⟨hcall, hnew⟩ := hc
  cases c with
  | append now t entry policy =>
    exact ⟨mirrors_append hd h hcall.2 hcall.1 (hnew t _ rfl), rfl⟩
  | range t lo hi => exact ⟨h, congrArg LogAnswer.entries (range_eq hd h)⟩
  | latest t => exact ⟨h, congrArg LogAnswer.last (latest_eq h)⟩
  | remove t => exact ⟨mirrors_remove h, rfl⟩

/-- The log in Redis gives the answers of the log in memory to any calls, on any topics, as long
as the offsets appended to a topic ascend and stay below `2 ^ 53`. -/
theorem redis_log_agrees (C : Codec LogEntry) (double : Int64 → ℤ) (pre : String)
    (hd : Exact double) (calls : List LogCall) (hcalls : ∀ c ∈ calls, Admissible c)
    (hoffsets : calls.Pairwise fun c c' => ∀ x ∈ c.appended, ∀ y ∈ c'.appended,
      x.1 = y.1 → x.2 < y.2) :
    answers (serve C double pre) (fun _ => .empty) calls =
      answers MemoryLogStore.serve ⟨fun _ => none⟩ calls := by
  have hok : Admits MemoryLogStore.serve (fun s c => Admissible c ∧ SledLog.Ascending s c)
      ⟨fun _ => none⟩ calls := by
    rintro pre c post rfl
    refine ⟨hcalls c (by simp), ?_⟩
    intro t o ho e he
    obtain ⟨c', hc', happ⟩ := SledLog.appended_of_mem_logOf pre he
    exact (List.pairwise_append.mp hoffsets).2.2 c' hc' c List.mem_cons_self _ happ _ ho rfl
  exact answers_eq_of_simulation (fun _ _ _ h hc => mirrors_serve hd h hc) hok mirrors_new

theorem exact_toInt : Exact Int64.toInt := ⟨Int64.le_iff_toInt_le.mp, fun _ => rfl⟩

/-- Two of three entries are kept, two topics do not mix, and a log that is removed starts over
with a higher offset. -/
theorem keeps_two_of_three :
    answers (serve SledLog.fieldCodec Int64.toInt "rift") (fun _ => .empty)
        [.append 0 "a" (SledLog.entryAt 9 [1]) (.count 2),
          .append 0 "a" (SledLog.entryAt 10 [2]) (.count 2),
          .append 0 "a:b" (SledLog.entryAt 1 [3]) .durable,
          .append 0 "a" (SledLog.entryAt 11 [4]) (.count 2), .range "a" 0 100, .remove "a",
          .append 5 "a" (SledLog.entryAt 12 [5]) .latest, .latest "a", .range "a:b" 1 1] =
      [.done, .done, .done, .done, .entries [SledLog.entryAt 10 [2], SledLog.entryAt 11 [4]],
        .done, .done, .last (some (SledLog.entryAt 12 [5])),
        .entries [SledLog.entryAt 1 [3]]] := by
  rw [redis_log_agrees SledLog.fieldCodec Int64.toInt "rift" exact_toInt _ (by decide) (by decide)]
  decide

end RedisLog

end Rifts
