import Rifts.Storage.RetentionBound

/-! Logs in memory under retention policies that change from one append to the next. -/
namespace Rifts

open Transition

/-- The eviction loop of `RetentionPolicy::Size` with a subtraction that is checked. -/
def dropOldestChecked (maxBytes : Nat) : Nat → List LogEntry → Option (List LogEntry)
  | _, [] => some []
  | total, e :: log =>
    if maxBytes < total then
      if e.payload.length ≤ total then dropOldestChecked maxBytes (total - e.payload.length) log
      else none
    else some (e :: log)

/-- The running total is what the rest of the log weighs, so that it covers the next entry. -/
theorem dropOldestChecked_eq (maxBytes : Nat) (log : List LogEntry) :
    dropOldestChecked maxBytes (log.map fun e => e.payload.length).sum log =
      some (dropOldest maxBytes (log.map fun e => e.payload.length).sum log) := by
  induction log with
  | nil => rfl
  | cons e log ih =>
    rw [List.map_cons, List.sum_cons, dropOldestChecked, dropOldest, Nat.add_sub_cancel_left]
    by_cases hlt : maxBytes < e.payload.length + (log.map fun e => e.payload.length).sum
    · rw [if_pos hlt, if_pos (Nat.le_add_right ..), if_pos hlt]
      exact ih
    · rw [if_neg hlt, if_neg hlt]

/-- The list is the longest end of another that has a property. -/
structure LongestSuffix (P : List LogEntry → Prop) (l log : List LogEntry) : Prop where
  suffix : l <:+ log
  holds : P l
  longest : ∀ l', l' <:+ log → P l' → l' <:+ l

section

variable {now : Int64} {entry : LogEntry} {log : List LogEntry} {policy : RetentionPolicy}

/-- Of two ends of a list the shorter is an end of the longer. -/
theorem longestSuffix_of_length {P : List LogEntry → Prop} {l : List LogEntry} (hl : l <:+ log)
    (hP : P l) (hlength : ∀ l', l' <:+ log → P l' → l'.length ≤ l.length) :
    LongestSuffix P l log :=
  ⟨hl, hP, fun l' hl' hP' => List.suffix_of_suffix_length_le hl' hl (hlength l' hl' hP')⟩

theorem eq_rtake_of_suffix {l : List LogEntry} (h : l <:+ log) : l = log.rtake l.length := by
  obtain ⟨pre, rfl⟩ := h
  simp [List.rtake]

/-- What an append leaves is the longest end of the log that the policy allows. -/
theorem longestSuffix_retain (hpolicy : policy.isTtl = false)
    (hnew : ∀ e ∈ log, e.offset < entry.offset) :
    LongestSuffix policy.Within (retain now entry (log ++ [entry]) policy) (log ++ [entry]) := by
  have hwithin : policy.Within (retain now entry (log ++ [entry]) policy) := within_retain hnew
  cases policy with
  | ttl ms => cases hpolicy
  | none =>
    refine longestSuffix_of_length List.nil_suffix hwithin ?_
    rintro l - rfl
    exact Nat.le_refl _
  | count n =>
    rw [retain_count] at hwithin ⊢
    refine longestSuffix_of_length Suffix.rtake_suffix hwithin ?_
    intro l hl hn
    rw [Suffix.length_rtake]
    exact Nat.le_min.mpr ⟨hn, hl.length_le⟩
  | size maxBytes =>
    rw [retain_size] at hwithin ⊢
    refine longestSuffix_of_length Suffix.rtake_suffix hwithin ?_
    intro l hl hweight
    rw [RetentionPolicy.Within, eq_rtake_of_suffix hl] at hweight
    rw [Suffix.length_rtake]
    exact Nat.le_min.mpr ⟨Suffix.le_fit hl.length_le hweight, hl.length_le⟩
  | latest =>
    rw [retain_latest fun e he => Int64.ne_of_lt (hnew e he)] at hwithin ⊢
    exact longestSuffix_of_length (List.suffix_append ..) hwithin fun l _ hl => hl
  | durable => exact longestSuffix_of_length List.suffix_rfl hwithin fun l hl _ => hl.length_le

end

/-- An append with the policy that the topic has at the time. -/
structure PolicyAppend where
  now : Int64
  topic : String
  entry : LogEntry
  policy : RetentionPolicy
  deriving DecidableEq, Repr

/-- A log store in memory, beside all that was ever appended to each topic. -/
structure LogHistory where
  store : MemoryLogStore
  history : String → List LogEntry

namespace LogHistory

def new : LogHistory := ⟨⟨fun _ => none⟩, fun _ => []⟩

/-- An append under a policy other than a TTL, with a higher offset than the topic has had. -/
def step (s : LogHistory) (c : PolicyAppend) : Option LogHistory :=
  if c.policy.isTtl = false ∧ ∀ e ∈ s.history c.topic, e.offset < c.entry.offset then
    some ⟨LogStore.append s.store c.now c.topic c.entry c.policy,
      Function.update s.history c.topic (s.history c.topic ++ [c.entry])⟩
  else none

/-- What an append has done to the log of its topic. -/
structure Trimmed (s : LogHistory) (c : PolicyAppend) (s' : LogHistory) : Prop where
  contiguous : s'.store.logOf c.topic <:+ s'.history c.topic
  longest : LongestSuffix c.policy.Within (s'.store.logOf c.topic)
    (s.store.logOf c.topic ++ [c.entry])
  checked : ∀ maxBytes, c.policy = .size maxBytes →
    dropOldestChecked maxBytes
        ((s.store.logOf c.topic ++ [c.entry]).map fun e => e.payload.length).sum
        (s.store.logOf c.topic ++ [c.entry]) =
      some (s'.store.logOf c.topic)

/-- Every log is an end of what was appended to it. -/
def Contiguous (s : LogHistory) : Prop := ∀ t, s.store.logOf t <:+ s.history t

variable {s s' : LogHistory} {c : PolicyAppend}

theorem step_cases (h : step s c = some s') :
    c.policy.isTtl = false ∧ (∀ e ∈ s.history c.topic, e.offset < c.entry.offset) ∧
      s'.store = LogStore.append s.store c.now c.topic c.entry c.policy ∧
      s'.history = Function.update s.history c.topic (s.history c.topic ++ [c.entry]) := by
  unfold step at h
  split at h
  · next hc =>
    cases h
    exact ⟨hc.1, hc.2, rfl, rfl⟩
  · cases h

theorem trimmed_step (h : step s c = some s') (hs : Contiguous s) : Trimmed s c s' := by
  obtain ⟨hpolicy, hnew, hstore, hhistory⟩ := step_cases h
  have hlog : s'.store.logOf c.topic =
      retain c.now c.entry (s.store.logOf c.topic ++ [c.entry]) c.policy := by
    rw [hstore, MemoryLogStore.logOf_append_self]
  have hlongest : LongestSuffix c.policy.Within (s'.store.logOf c.topic)
      (s.store.logOf c.topic ++ [c.entry]) := by
    rw [hlog]
    exact longestSuffix_retain hpolicy fun e he => hnew e ((hs c.topic).subset he)
  refine ⟨?_, hlongest, ?_⟩
  · rw [hhistory, Function.update_self]
    obtain ⟨pre, hpre⟩ := hs c.topic
    refine hlongest.suffix.trans ⟨pre, ?_⟩
    rw [← List.append_assoc, hpre]
  · intro maxBytes hsize
    rw [hlog, hsize, dropOldestChecked_eq]
    rfl

theorem contiguous_step (h : step s c = some s') (hs : Contiguous s) : Contiguous s' := by
  intro t
  by_cases ht : t = c.topic
  · rw [ht]
    exact (trimmed_step h hs).contiguous
  · obtain ⟨-, -, hstore, hhistory⟩ := step_cases h
    rw [hstore, MemoryLogStore.logOf_append_of_ne ht, hhistory, Function.update_of_ne ht]
    exact hs t

/-- Whatever policies a topic goes through, each append leaves the longest end of its log that the
policy of the moment allows, and that is an end of all that was appended. -/
theorem changing_policies_keep_tail (appends : List PolicyAppend) :
    Guarded step (fun s c => ∀ s', step s c = some s' → Trimmed s c s') new appends := by
  have hrun : Throughout step Contiguous new appends :=
    throughout_of_invariant (fun _ _ _ => contiguous_step) fun _ => List.nil_suffix
  exact guarded_of_throughout hrun fun s c _ _ hs s' h => trimmed_step h hs

-- a topic is kept whole, then by size with an oversized entry, then by count
example : (run step new
    [⟨0, "t", SledLog.entryAt 1 [1], .durable⟩, ⟨0, "t", SledLog.entryAt 2 [1, 1], .durable⟩,
      ⟨0, "t", SledLog.entryAt 3 [1], .size 3⟩, ⟨0, "t", SledLog.entryAt 4 [1, 1, 1, 1], .size 3⟩,
      ⟨0, "t", SledLog.entryAt 5 [], .count 2⟩]).map (fun s =>
        (s.store.logOf "t").map LogEntry.offset) = some [5] := by decide

end LogHistory

end Rifts
