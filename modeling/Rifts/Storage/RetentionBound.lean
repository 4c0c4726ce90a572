import Rifts.Data.ScoredSet
import Rifts.Storage.SledLog

/-! The bounds that the retention policies set, in each of the log stores. -/
namespace Rifts

/-- The sorted sets of a Redis server; a key that does not exist is an empty set. -/
abbrev RedisSets := String → ScoredSet ℤ Bytes

def RedisPool.topicKey (pre kind topic : String) : String := pre ++ ":" ++ kind ++ ":" ++ topic

namespace RedisLog

-- how `ciborium` writes an entry, the double that the server makes of an offset, and
-- the key prefix of the pool
variable (C : Codec LogEntry) (double : Int64 → ℤ) (pre : String)

def logKey (topic : String) : String := RedisPool.topicKey pre "log" topic

/-- The command that follows the `ZADD` of an append. -/
def trim (set : ScoredSet ℤ Bytes) : RetentionPolicy → ScoredSet ℤ Bytes
  | .none => .empty
  | .count n => if 0 < n then set.removeRange 0 (-(Int64.ofNat n + 1)).toInt else set
  | .latest => set.removeRange 0 (-2)
  | .size _ | .ttl _ | .durable => set

def append (sets : RedisSets) (topic : String) (entry : LogEntry) (retention : RetentionPolicy) :
    RedisSets :=
  let key := logKey pre topic
  let set := (sets key).insert (double entry.offset) (C.encode entry)
  Function.update sets key (trim set retention)

def entriesOf (sets : RedisSets) (topic : String) : List LogEntry :=
  (sets (logKey pre topic)).items.filterMap fun x => C.decode x.2

end RedisLog

/-- The implementations of `LogStore`. -/
inductive LogBackend
  | memory
  | sled (json : Codec LogEntry)
  | redis (cbor : Codec LogEntry) (double : Int64 → ℤ) (pre : String)

namespace LogBackend

def Store : LogBackend → Type
  | memory => MemoryLogStore
  | sled _ => SledTree
  | redis .. => RedisSets

def empty : (B : LogBackend) → B.Store
  | memory => (⟨fun _ => none⟩ : MemoryLogStore)
  | sled _ => (SortedMap.empty : SledTree)
  | redis .. => fun _ => .empty

def append : (B : LogBackend) → B.Store → Int64 → String → LogEntry → RetentionPolicy → B.Store
  | memory, s => LogStore.append (L := MemoryLogStore) s
  | sled json, tree => SledLog.append json tree
  | redis cbor double pre, sets => fun _ => RedisLog.append cbor double pre sets

def logOf : (B : LogBackend) → B.Store → String → List LogEntry
  | memory, s => MemoryLogStore.logOf s
  | sled json, tree => SledLog.entriesOf json tree
  | redis cbor _ pre, sets => RedisLog.entriesOf cbor pre sets

/-- The store after appends to one topic under one policy, each with its clock reading. -/
def after (B : LogBackend) (topic : String) (policy : RetentionPolicy)
    (appends : List (Int64 × LogEntry)) : B.Store :=
  appends.foldl (fun s x => B.append s x.1 topic x.2 policy) B.empty

/-- There is a branch that evicts entries under the policy, where it sets a bound. -/
def evicts : LogBackend → RetentionPolicy → Bool
  | memory, _ => true
  | sled _, policy => !policy.isSize
  | redis .., .size _ => false
  | redis .., .count n => 0 < n
  | redis .., _ => true

end LogBackend

/-- The bound that a policy sets; a TTL and durable retention set none. -/
def RetentionPolicy.Within : RetentionPolicy → List LogEntry → Prop
  | .none, log => log = []
  | .count n, log => log.length ≤ n
  | .size maxBytes, log => Suffix.weight LogEntry.size log ≤ maxBytes
  | .latest, log => log.length ≤ 1
  | .ttl _, _ | .durable, _ => True

instance : (policy : RetentionPolicy) → DecidablePred policy.Within
  | .none, log => inferInstanceAs (Decidable (log = []))
  | .count n, log => inferInstanceAs (Decidable (log.length ≤ n))
  | .size m, log => inferInstanceAs (Decidable (Suffix.weight LogEntry.size log ≤ m))
  | .latest, log => inferInstanceAs (Decidable (log.length ≤ 1))
  | .ttl _, _ | .durable, _ => inferInstanceAs (Decidable True)

theorem RetentionPolicy.Within.of_perm {policy : RetentionPolicy} {log log' : List LogEntry}
    (h : policy.Within log) (hperm : log.Perm log') : policy.Within log' := by
  cases policy with
  | none =>
    cases h
    exact hperm.nil_eq.symm
  | count n => exact hperm.length_eq.ge.trans h
  | size maxBytes =>
    have hweight : Suffix.weight LogEntry.size log = Suffix.weight LogEntry.size log' :=
      (hperm.map _).sum_eq
    exact hweight.ge.trans h
  | latest => exact hperm.length_eq.ge.trans h
  | ttl ms => trivial
  | durable => trivial

theorem RetentionPolicy.Within.of_append {policy : RetentionPolicy} {log rest : List LogEntry}
    (h : policy.Within (log ++ rest)) : policy.Within log := by
  cases policy with
  | none => exact (List.append_eq_nil_iff.mp h).1
  | count n => exact Nat.le_trans (by simp) h
  | size maxBytes =>
    refine Nat.le_trans ?_ h
    simp [Suffix.weight]
  | latest => exact Nat.le_trans (by simp) h
  | ttl ms => trivial
  | durable => trivial

section Memory

variable {now : Int64} {entry : LogEntry} {log : List LogEntry} {policy : RetentionPolicy}

/-- A log in memory is cut down to the bound when its offsets are below the new one. -/
theorem within_retain (hnew : ∀ e ∈ log, e.offset < entry.offset) :
    policy.Within (retain now entry (log ++ [entry]) policy) := by
  cases policy with
  | none => rfl
  | count n =>
    rw [retain_count, RetentionPolicy.Within, Suffix.length_rtake]
    exact Nat.min_le_left ..
  | size maxBytes =>
    rw [retain_size]
    exact Suffix.weight_fit
  | latest =>
    rw [retain_latest fun e he => Int64.ne_of_lt (hnew e he)]
    exact Nat.le_refl 1
  | ttl ms => trivial
  | durable => trivial

end Memory

namespace SledLog

open Encode

variable {J : Codec LogEntry} {tree : SledTree} {now : Int64} {t : String} {entry : LogEntry}
  {policy : RetentionPolicy}

/-- The policies other than a size limit are kept to, whatever the tree holds. -/
theorem within_append (hpolicy : policy.isSize = false) :
    policy.Within (entriesOf J (append J tree now t entry policy) t) := by
  obtain ⟨all, hall⟩ : ∃ all, SledTree.scanPrefix
    (tree.put (logKey t entry.offset) (J.encode entry)) (logPrefix t) = all := ⟨_, rfl⟩
  obtain ⟨keep, hdelete, hkeep⟩ := SortedMap.exists_foldl_delete
    ((evicted J now (logKey t entry.offset) all policy).map Prod.fst)
    (tree.put (logKey t entry.offset) (J.encode entry))
  have hscan : (append J tree now t entry policy).scanPrefix (logPrefix t) = all.filter keep := by
    rw [append, hall, hdelete, SledTree.scanPrefix, SortedMap.scan_filter, ← SledTree.scanPrefix,
      hall]
  have hkeys : (all.map Prod.fst).Nodup := by
    rw [← hall]
    exact SortedMap.nodup_keys.sublist (List.filter_sublist.map _)
  have hlength : (entriesOf J (append J tree now t entry policy) t).length ≤
      (all.filter keep).length := by
    rw [entriesOf, hscan]
    exact List.length_filterMap_le ..
  cases policy with
  | none =>
    have hnil : all.filter keep = [] := by
      rw [List.filter_eq_nil_iff]
      intro x hx hk
      exact (hkeep x).mp hk (List.mem_map_of_mem hx)
    rw [hnil] at hlength
    exact List.length_eq_zero_iff.mp (Nat.le_zero.mp hlength)
  | count n =>
    refine Nat.le_trans hlength ?_
    simp only [evicted] at hkeep
    split at hkeep
    · next hlt =>
      rw [filter_eq_drop hkeys hkeep, List.length_drop]
      omega
    · next hle => exact Nat.le_trans (List.length_filter_le ..) (Nat.not_lt.mp hle)
  | latest =>
    refine Nat.le_trans hlength ?_
    rw [filter_eq_filter_not hkeys hkeep]
    have hsub : (all.filter fun x => !decide (x.1 ≠ logKey t entry.offset)).map Prod.fst ⊆
        [logKey t entry.offset] := by
      intro k hk
      obtain ⟨x, hx, rfl⟩ := List.mem_map.mp hk
      simpa using (List.mem_filter.mp hx).2
    rw [← List.length_map Prod.fst]
    exact (List.subperm_of_subset (hkeys.sublist (List.filter_sublist.map _)) hsub).length_le
  | size maxBytes => cases hpolicy
  | ttl ms => trivial
  | durable => trivial

/-- Under a size limit nothing is evicted: the tree holds what was appended. -/
theorem put_perm_stored {log : List LogEntry} (h : tree.entries.Perm (log.map (stored J t)))
    (hnew : ∀ e ∈ log, e.offset ≠ entry.offset) :
    (tree.put (logKey t entry.offset) (J.encode entry)).entries.Perm
      ((log ++ [entry]).map (stored J t)) := by
  have hkey : tree.get (logKey t entry.offset) = none := by
    rw [Option.eq_none_iff_forall_ne_some]
    intro v hv
    obtain ⟨e, he, heq⟩ := List.mem_map.mp (h.subset (SortedMap.mem_entries.mpr hv))
    exact hnew e he (logKey_inj.mp (congrArg Prod.fst heq))
  refine (SortedMap.put_perm hkey).trans ((h.cons _).trans ?_)
  rw [List.map_append]
  exact (List.perm_append_singleton _ _).symm

theorem entriesOf_perm {log : List LogEntry} (h : tree.entries.Perm (log.map (stored J t))) :
    (entriesOf J tree t).Perm log := by
  have hscan : (tree.scanPrefix (logPrefix t)).Perm (log.map (stored J t)) := by
    refine (h.filter _).trans ?_
    rw [List.filter_eq_self.mpr]
    intro x hx
    obtain ⟨e, -, rfl⟩ := List.mem_map.mp hx
    exact isPrefixOf_topicKey_self
  refine (hscan.filterMap _).trans ?_
  rw [List.filterMap_map]
  have hread : log.filterMap ((fun x => J.decode x.2) ∘ stored J t) = log :=
    (List.filterMap_congr fun e _ => J.decode_encode e).trans List.filterMap_some
  rw [hread]

end SledLog

namespace RedisLog

variable {C : Codec LogEntry} {double : Int64 → ℤ} {pre t : String} {entry : LogEntry}
  {policy : RetentionPolicy} {sets : RedisSets} {set : ScoredSet ℤ Bytes}

theorem append_self : append C double pre sets t entry policy (logKey pre t) =
    trim ((sets (logKey pre t)).insert (double entry.offset) (C.encode entry)) policy :=
  Function.update_self ..

/-- The end of the range under `Count(n)`, with the wrap of the cast. -/
theorem toInt_stop (n : Nat) : (-(Int64.ofNat n + 1)).toInt =
    if n % 2 ^ 64 < 2 ^ 63 then -(((n % 2 ^ 64 : ℕ) : ℤ) + 1)
    else 2 ^ 64 - 1 - ((n % 2 ^ 64 : ℕ) : ℤ) := by
  have hone : Int64.toInt 1 = 1 := rfl
  rw [Int64.toInt_neg, Int64.toInt_add, Int64.toInt_ofNat', hone]
  simp only [Int.bmod_def, Int64.size]
  omega

/-- The number of entries to keep is counted from the end of the set. -/
theorem length_trim_count {n : Nat} (hn : 0 < n) (h : n % 2 ^ 64 < 2 ^ 63) :
    (trim set (.count n)).items.length ≤ n := by
  have hstop := toInt_stop n
  rw [if_pos h] at hstop
  rw [trim, if_pos hn]
  exact (ScoredSet.length_removeRange_neg hstop).trans (Nat.mod_le ..)

/-- A count that is negative as an `i64` makes the end of the range positive, so that
the lowest item always goes. -/
theorem trim_count_of_wide {n : Nat} (hn : 0 < n) (h : 2 ^ 63 ≤ n % 2 ^ 64)
    (hset : set.items.length ≤ 1) : (trim set (.count n)).items = [] := by
  have hstop := toInt_stop n
  rw [if_neg (by omega)] at hstop
  rw [trim, if_pos hn, ScoredSet.items_removeRange_zero, ScoredSet.rank, if_neg (by omega)]
  exact List.drop_eq_nil_of_le (by omega)

theorem items_append_of_wide {n : Nat} (hn : 0 < n) (h : 2 ^ 63 ≤ n % 2 ^ 64)
    (hsets : (sets (logKey pre t)).items = []) :
    (append C double pre sets t entry (.count n) (logKey pre t)).items = [] := by
  rw [append_self]
  apply trim_count_of_wide hn h
  rw [(ScoredSet.insert_perm (by simp [hsets])).length_eq, hsets]
  rfl

theorem length_entriesOf_le (C : Codec LogEntry) (pre t : String) (sets : RedisSets) :
    (entriesOf C pre sets t).length ≤ (sets (logKey pre t)).items.length :=
  List.length_filterMap_le ..

theorem within_append (hevicts : (LogBackend.redis C double pre).evicts policy = true)
    (hwide : ∀ n, policy = .count n → 2 ^ 63 ≤ n % 2 ^ 64 → (sets (logKey pre t)).items = []) :
    policy.Within (entriesOf C pre (append C double pre sets t entry policy) t) := by
  have hlength := length_entriesOf_le C pre t (append C double pre sets t entry policy)
  cases policy with
  | none =>
    rw [append_self] at hlength
    exact List.length_eq_zero_iff.mp (Nat.le_zero.mp hlength)
  | count n =>
    have hn : 0 < n := by simpa [LogBackend.evicts] using hevicts
    refine hlength.trans ?_
    rcases Nat.lt_or_ge (n % 2 ^ 64) (2 ^ 63) with hlt | hge
    · rw [append_self]
      exact length_trim_count hn hlt
    · rw [items_append_of_wide hn hge (hwide n rfl hge)]
      exact Nat.zero_le n
  | latest =>
    refine hlength.trans ?_
    rw [append_self]
    exact ScoredSet.length_removeRange_neg rfl
  | size maxBytes => cases hevicts
  | ttl ms => trivial
  | durable => trivial

/-- Without a branch for the policy the set holds what was appended. -/
theorem members_append {log : List LogEntry}
    (hevicts : (LogBackend.redis C double pre).evicts policy = false)
    (h : ((sets (logKey pre t)).items.map Prod.snd).Perm (log.map C.encode)) (hnew : entry ∉ log) :
    ((append C double pre sets t entry policy (logKey pre t)).items.map Prod.snd).Perm
      ((log ++ [entry]).map C.encode) := by
  have htrim : trim ((sets (logKey pre t)).insert (double entry.offset) (C.encode entry)) policy =
      (sets (logKey pre t)).insert (double entry.offset) (C.encode entry) := by
    cases policy with
    | size maxBytes => rfl
    | count n =>
      have hn : ¬0 < n := by simpa [LogBackend.evicts] using hevicts
      rw [trim, if_neg hn]
    | none => cases hevicts
    | latest => cases hevicts
    | ttl ms => cases hevicts
    | durable => cases hevicts
  have hmember : C.encode entry ∉ (sets (logKey pre t)).items.map Prod.snd := by
    intro hmem
    obtain ⟨e, he, heq⟩ := List.mem_map.mp (h.subset hmem)
    exact hnew (C.encode_inj.mp heq ▸ he)
  rw [append_self, htrim, List.map_append]
  refine ((ScoredSet.insert_perm hmember).map Prod.snd).trans ?_
  exact (h.cons _).trans (List.perm_append_singleton _ _).symm

theorem entriesOf_perm {log : List LogEntry}
    (h : ((sets (logKey pre t)).items.map Prod.snd).Perm (log.map C.encode)) :
    (entriesOf C pre sets t).Perm log := by
  have hread : log.filterMap (C.decode ∘ C.encode) = log :=
    (List.filterMap_congr fun e _ => C.decode_encode e).trans List.filterMap_some
  have hdecoded := h.filterMap C.decode
  rwa [List.filterMap_map, List.filterMap_map, hread] at hdecoded

end RedisLog

namespace LogBackend

variable {B : LogBackend} {topic : String} {policy : RetentionPolicy}
  {appends : List (Int64 × LogEntry)} {x : Int64 × LogEntry}

/-- Each append has a higher offset than those before it. -/
def Ascending (appends : List (Int64 × LogEntry)) : Prop :=
  appends.Pairwise fun x y => x.2.offset < y.2.offset

theorem Ascending.init (h : Ascending (appends ++ [x])) : Ascending appends :=
  (List.pairwise_append.mp h).1

theorem Ascending.lt (h : Ascending (appends ++ [x])) {e : LogEntry}
    (he : e ∈ appends.map Prod.snd) : e.offset < x.2.offset := by
  obtain ⟨y, hy, rfl⟩ := List.mem_map.mp he
  exact (List.pairwise_append.mp h).2.2 y hy x (List.mem_singleton_self x)

theorem after_concat : B.after topic policy (appends ++ [x]) =
    B.append (B.after topic policy appends) x.1 topic x.2 policy := by
  rw [after, List.foldl_append]
  rfl

/-- The log in memory holds some of the entries, in the order they came. -/
theorem memory_sublist :
    List.Sublist (logOf memory (memory.after topic policy appends) topic)
      (appends.map Prod.snd) := by
  induction appends using List.reverseRecOn with
  | nil => exact List.Sublist.refl []
  | append_singleton appends x ih =>
    have hlog : logOf memory (memory.after topic policy (appends ++ [x])) topic =
        retain x.1 x.2 (logOf memory (memory.after topic policy appends) topic ++ [x.2])
          policy := by
      rw [after_concat]
      exact MemoryLogStore.logOf_append_self
    rw [hlog, List.map_append]
    exact retain_sublist.trans (ih.append_right _)

theorem redis_items_of_wide {C : Codec LogEntry} {double : Int64 → ℤ} {pre : String} {n : Nat}
    (hn : 0 < n) (h : 2 ^ 63 ≤ n % 2 ^ 64) :
    (((redis C double pre).after topic (.count n) appends : RedisSets)
      (RedisLog.logKey pre topic)).items = [] := by
  induction appends using List.reverseRecOn with
  | nil => rfl
  | append_singleton appends x ih =>
    rw [after_concat]
    exact RedisLog.items_append_of_wide hn h ih

theorem within_of_evicts (hevicts : B.evicts policy = true) (h : Ascending (appends ++ [x])) :
    policy.Within (B.logOf (B.after topic policy (appends ++ [x])) topic) := by
  rw [after_concat]
  cases B with
  | memory =>
    have hlog : logOf memory (append memory (memory.after topic policy appends) x.1 topic x.2
        policy) topic = retain x.1 x.2
          (logOf memory (memory.after topic policy appends) topic ++ [x.2]) policy :=
      MemoryLogStore.logOf_append_self
    rw [hlog]
    exact within_retain fun e he => h.lt (memory_sublist.subset he)
  | sled json => exact SledLog.within_append (by simpa [evicts] using hevicts)
  | redis cbor double pre =>
    refine RedisLog.within_append hevicts ?_
    rintro n rfl hwide
    exact redis_items_of_wide (by simpa [evicts] using hevicts) hwide

/-- What a store without a branch for the policy keeps. -/
theorem perm_of_not_evicts (hevicts : B.evicts policy = false) (h : Ascending appends) :
    (B.logOf (B.after topic policy appends) topic).Perm (appends.map Prod.snd) := by
  cases B with
  | memory => cases hevicts
  | sled json =>
    have hsize : policy.isSize = true := by simpa [evicts] using hevicts
    apply SledLog.entriesOf_perm
    induction appends using List.reverseRecOn with
    | nil => exact .nil
    | append_singleton appends x ih =>
      cases policy with
      | size maxBytes =>
        rw [after_concat, List.map_append]
        exact SledLog.put_perm_stored (ih h.init) fun e he heq =>
          Int64.lt_irrefl (heq ▸ h.lt he)
      | _ => cases hsize
  | redis cbor double pre =>
    apply RedisLog.entriesOf_perm
    induction appends using List.reverseRecOn with
    | nil => exact .nil
    | append_singleton appends x ih =>
      rw [after_concat, List.map_append]
      exact RedisLog.members_append hevicts (ih h.init) fun hmem =>
        Int64.lt_irrefl (h.lt hmem)

/-- The bound of the policy holds after every append of a run just when the store has
a branch for it, or when all that is appended is within the bound. -/
theorem retention_bound (B : LogBackend) (topic : String) (policy : RetentionPolicy)
    (appends : List (Int64 × LogEntry)) (h : Ascending appends) :
    (∀ pre x post, appends = pre ++ x :: post →
      policy.Within (B.logOf (B.after topic policy (pre ++ [x])) topic)) ↔
    (B.evicts policy = true ∨ policy.Within (appends.map Prod.snd)) := by
  cases hevicts : B.evicts policy with
  | true =>
    refine iff_of_true ?_ (.inl rfl)
    rintro pre x post rfl
    rw [List.append_cons] at h
    exact within_of_evicts hevicts (List.pairwise_append.mp h).1
  | false =>
    simp only [Bool.false_eq_true, false_or]
    constructor
    · intro hall
      rcases List.eq_nil_or_concat' appends with rfl | ⟨pre, x, rfl⟩
      · cases policy <;> simp [RetentionPolicy.Within]
      · exact (hall pre x [] rfl).of_perm (perm_of_not_evicts hevicts h)
    · rintro hwithin pre x post rfl
      rw [List.append_cons] at h hwithin
      have hinit := (List.pairwise_append.mp h).1
      rw [List.map_append] at hwithin
      exact hwithin.of_append.of_perm (perm_of_not_evicts hevicts hinit).symm

/-- Two entries that are small enough together. -/
theorem small_entries_within_size :
    RetentionPolicy.Within (.size 3) (logOf (sled SledLog.fieldCodec)
      ((sled SledLog.fieldCodec).after "t" (.size 3)
        [(0, SledLog.entryAt 1 [1]), (0, SledLog.entryAt 2 [2])]) "t") := by
  refine (retention_bound (sled SledLog.fieldCodec) "t" (.size 3)
    [(0, SledLog.entryAt 1 [1]), (0, SledLog.entryAt 2 [2])] ?_).mpr ?_ [_] _ [] rfl
  · exact .cons (by decide) (.cons (by decide) .nil)
  · exact .inr (by decide)

/-- Two bytes stay in a log of at most one byte on sled and on Redis, and one entry
stays in a Redis log of at most none. -/
theorem bounds_not_kept :
    ¬RetentionPolicy.Within (.size 1) (logOf (sled SledLog.fieldCodec)
      ((sled SledLog.fieldCodec).after "t" (.size 1) [(0, SledLog.entryAt 1 [7, 7])]) "t") ∧
    ¬RetentionPolicy.Within (.size 1) (logOf (redis SledLog.fieldCodec Int64.toInt "rifts")
      ((redis SledLog.fieldCodec Int64.toInt "rifts").after "t" (.size 1)
        [(0, SledLog.entryAt 1 [7, 7])]) "t") ∧
    ¬RetentionPolicy.Within (.count 0) (logOf (redis SledLog.fieldCodec Int64.toInt "rifts")
      ((redis SledLog.fieldCodec Int64.toInt "rifts").after "t" (.count 0)
        [(0, SledLog.entryAt 1 [7, 7])]) "t") := by
  decide

end LogBackend

end Rifts
