import Rifts.Storage.Retention
import Rifts.Storage.Sled
import Rifts.Transition.Service

/-! The message log on a sled tree, and how it agrees with the one in memory. -/
namespace Rifts

namespace MemoryLogStore

def logOf (s : MemoryLogStore) (topic : String) : List LogEntry := (s.inner topic).getD []

def latest (s : MemoryLogStore) (topic : String) : Option LogEntry := (s.logOf topic).getLast?

def remove (s : MemoryLogStore) (topic : String) : MemoryLogStore :=
  ⟨Function.update s.inner topic none⟩

variable {s : MemoryLogStore} {now : Int64} {t u : String} {entry : LogEntry}
  {policy : RetentionPolicy}

theorem logOf_append_self : (LogStore.append s now t entry policy).logOf t =
    retain now entry (s.logOf t ++ [entry]) policy := by
  simp [LogStore.append, logOf]

theorem logOf_append_of_ne (h : u ≠ t) :
    (LogStore.append s now t entry policy).logOf u = s.logOf u := by
  simp [LogStore.append, logOf, h]

theorem logOf_remove_self : (s.remove t).logOf t = [] := by simp [remove, logOf]

theorem logOf_remove_of_ne (h : u ≠ t) : (s.remove t).logOf u = s.logOf u := by
  simp [remove, logOf, h]

end MemoryLogStore

def RetentionPolicy.isSize : RetentionPolicy → Bool
  | .size _ => true
  | _ => false

namespace SledLog

open Encode

-- how `serde_json` writes an entry
variable (J : Codec LogEntry)

/-- The entry is read back and is older than the TTL; one that cannot be read stays. -/
def stale (now : Int64) (ms : Nat) (x : Bytes × Bytes) : Bool :=
  match J.decode x.2 with
  | some e => Int64.ofNat ms < now - e.appendedAt.getD e.timestamp
  | none => false

/-- What an append deletes of the topic's entries. -/
def evicted (now : Int64) (key : Bytes) (all : List (Bytes × Bytes)) :
    RetentionPolicy → List (Bytes × Bytes)
  | .count n => if n < all.length then all.take (all.length - n) else []
  | .ttl ms => all.filter (stale J now ms)
  | .latest => all.filter fun x => x.1 ≠ key
  | .none => all
  | .size _ | .durable => []

def append (tree : SledTree) (now : Int64) (topic : String) (entry : LogEntry)
    (retention : RetentionPolicy) : SledTree :=
  let key := logKey topic entry.offset
  let tree : SledTree := tree.put key (J.encode entry)
  ((evicted J now key (tree.scanPrefix (logPrefix topic)) retention).map Prod.fst).foldl
    SortedMap.delete tree

/-- The entries under a topic's prefix, in the order of their keys. -/
def entriesOf (tree : SledTree) (topic : String) : List LogEntry :=
  (tree.scanPrefix (logPrefix topic)).filterMap fun x => J.decode x.2

def range (tree : SledTree) (topic : String) (lo hi : Int64) : List LogEntry :=
  (entriesOf J tree topic).filter fun e => lo ≤ e.offset && e.offset ≤ hi

/-- `sort_by_key` on the offsets, then `pop`. -/
def latest (tree : SledTree) (topic : String) : Option LogEntry :=
  ((entriesOf J tree topic).mergeSort fun a b => a.offset ≤ b.offset).getLast?

def remove (tree : SledTree) (topic : String) : SledTree := tree.deletePrefix (logPrefix topic)

variable {J} {tree : SledTree} {now : Int64} {t u topic : String} {entry : LogEntry}
  {policy : RetentionPolicy} {s : MemoryLogStore} {log : List LogEntry}

/-- An entry as it stands in the tree. -/
def stored (J : Codec LogEntry) (topic : String) (e : LogEntry) : Bytes × Bytes :=
  (logKey topic e.offset, J.encode e)

/-- Offsets ascend and are not negative, as the broker gives them out, and no entry
has an append time. -/
structure Numbered (log : List LogEntry) : Prop where
  ascending : log.Pairwise fun a b => a.offset < b.offset
  nonneg : ∀ e ∈ log, 0 ≤ e.offset.toInt
  unstamped : ∀ e ∈ log, e.appendedAt = none

theorem Numbered.sublist {log' : List LogEntry} (h : Numbered log) (hsub : List.Sublist log' log) :
    Numbered log' :=
  ⟨h.ascending.sublist hsub, fun e he => h.nonneg e (hsub.subset he),
    fun e he => h.unstamped e (hsub.subset he)⟩

section

variable {α β : Type} {f : α → β} {l : List α} {keep : α → Bool}

/-- The elements whose keys are not among the first ones' are the rest. -/
theorem filter_eq_drop (h : (l.map f).Nodup) {n : Nat}
    (hkeep : ∀ x, keep x = true ↔ f x ∉ (l.take n).map f) : l.filter keep = l.drop n := by
  have hdisjoint : ∀ x ∈ l.drop n, f x ∉ (l.take n).map f := by
    intro x hx hmem
    rw [← List.take_append_drop n l, List.map_append] at h
    exact (List.nodup_append.mp h).2.2 _ hmem _ (List.mem_map_of_mem hx) rfl
  calc l.filter keep
      = (l.take n).filter keep ++ (l.drop n).filter keep := by
        rw [← List.filter_append, List.take_append_drop]
    _ = [] ++ l.drop n := by
        congr 1
        · rw [List.filter_eq_nil_iff]
          intro x hx hk
          exact (hkeep x).mp hk (List.mem_map_of_mem hx)
        · rw [List.filter_eq_self]
          intro x hx
          exact (hkeep x).mpr (hdisjoint x hx)
    _ = l.drop n := List.nil_append _

theorem filter_eq_filter_not (h : (l.map f).Nodup) {q : α → Bool}
    (hkeep : ∀ x, keep x = true ↔ f x ∉ (l.filter q).map f) :
    l.filter keep = l.filter fun x => !q x := by
  apply List.filter_congr
  intro x hx
  have hmem : f x ∈ (l.filter q).map f ↔ q x = true := by
    constructor
    · intro hf
      obtain ⟨y, hy, hxy⟩ := List.mem_map.mp hf
      obtain ⟨hy, hqy⟩ := List.mem_filter.mp hy
      obtain rfl : y = x := List.inj_on_of_nodup_map h hy hx hxy
      exact hqy
    · intro hq
      exact List.mem_map_of_mem (List.mem_filter.mpr ⟨hx, hq⟩)
  have hiff := hkeep x
  rw [hmem] at hiff
  cases hk : keep x <;> cases hq : q x <;> simp_all

end

theorem Numbered.nodup_keys (h : Numbered log) (topic : String) :
    ((log.map (stored J topic)).map Prod.fst).Nodup := by
  rw [List.map_map]
  refine List.pairwise_map.mpr (h.ascending.imp ?_)
  intro a b hlt heq
  rw [Function.comp_apply, Function.comp_apply, stored, stored, logKey_inj] at heq
  exact Int64.lt_irrefl (heq ▸ hlt)

/-- The eviction on the tree is the eviction on the list. -/
theorem filter_evicted {keep : Bytes × Bytes → Bool} (h : Numbered log)
    (hpolicy : policy.isSize = false)
    (hkeep : ∀ x, keep x = true ↔ x.1 ∉ (evicted J now (logKey topic entry.offset)
      (log.map (stored J topic)) policy).map Prod.fst) :
    (log.map (stored J topic)).filter keep =
      (retain now entry log policy).map (stored J topic) := by
  have hkeys := h.nodup_keys (J := J) topic
  cases policy with
  | none =>
    have hall : (log.map (stored J topic)).filter (fun _ => true) = log.map (stored J topic) := by
      simp
    rw [evicted, ← hall] at hkeep
    rw [filter_eq_filter_not hkeys hkeep]
    simp [retain]
  | durable =>
    have hall : ∀ x, keep x = true := fun x => (hkeep x).mpr (by simp [evicted])
    simp [retain, hall]
  | size m => cases hpolicy
  | count n =>
    simp only [evicted, retain, List.length_map] at hkeep ⊢
    split
    · next hlt =>
      simp only [if_pos hlt] at hkeep
      rw [filter_eq_drop hkeys hkeep, List.map_drop]
    · next hle =>
      simp only [if_neg hle] at hkeep
      have hall : ∀ x, keep x = true := fun x => (hkeep x).mpr (by simp)
      simp [hall]
  | ttl ms =>
    rw [filter_eq_filter_not hkeys hkeep, List.filter_map, retain]
    congr 1
    apply List.filter_congr
    intro e he
    have hstale : stale J now ms (stored J topic e) =
        decide (Int64.ofNat ms < now - e.timestamp) := by
      simp [stale, stored, J.decode_encode, h.unstamped e he]
    rw [Function.comp_apply, hstale, ← decide_not, decide_eq_decide]
    exact Int64.not_lt
  | latest =>
    rw [filter_eq_filter_not hkeys hkeep, List.filter_map, retain]
    congr 1
    apply List.filter_congr
    intro e he
    simp [stored, logKey_inj, beq_eq_decide]

theorem evicted_subset {key : Bytes} {all : List (Bytes × Bytes)} :
    evicted J now key all policy ⊆ all := by
  cases policy with
  | none => exact List.Subset.refl all
  | count n =>
    simp only [evicted]
    split
    · exact List.take_subset ..
    · exact List.nil_subset all
  | ttl ms => exact List.filter_subset_self ..
  | latest => exact List.filter_subset_self ..
  | size m => exact List.nil_subset all
  | durable => exact List.nil_subset all

/-- An append to one topic leaves the entries of another as they are. -/
theorem scan_append_of_ne (ht : Separable t) (hu : Separable u) (hut : u ≠ t) :
    (append J tree now t entry policy).scanPrefix (logPrefix u) =
      tree.scanPrefix (logPrefix u) := by
  have hkey : (logPrefix u).isPrefixOf (logKey t entry.offset) = false :=
    isPrefixOf_topicKey_of_ne hu ht hut
  rw [append, SledTree.scanPrefix, SortedMap.scan_foldl_delete_of_disjoint,
    SortedMap.scan_put_of_not hkey, ← SledTree.scanPrefix]
  intro k hk
  obtain ⟨x, hx, rfl⟩ := List.mem_map.mp hk
  exact isPrefixOf_of_ne hu ht hut (SortedMap.mem_scan.mp (evicted_subset hx)).2

/-- The tree holds the entries of each log under the topic's prefix. -/
structure Mirrors (J : Codec LogEntry) (s : MemoryLogStore) (tree : SledTree) : Prop where
  scan : ∀ t, Separable t →
    tree.scanPrefix (logPrefix t) = (s.logOf t).map (stored J t)
  numbered : ∀ t, Numbered (s.logOf t)

theorem mirrors_new : Mirrors J ⟨fun _ => none⟩ .empty :=
  ⟨fun _ _ => rfl, fun _ => ⟨.nil, by simp [MemoryLogStore.logOf], by simp [MemoryLogStore.logOf]⟩⟩

theorem numbered_concat (h : Numbered log) (hnew : ∀ e ∈ log, e.offset < entry.offset)
    (hnonneg : 0 ≤ entry.offset.toInt) (hstamp : entry.appendedAt = none) :
    Numbered (log ++ [entry]) := by
  have hlast {P : LogEntry → Prop} (hlog : ∀ e ∈ log, P e) (hentry : P entry) :
      ∀ e ∈ log ++ [entry], P e := by
    intro e he
    rcases List.mem_append.mp he with he | he
    · exact hlog e he
    · rw [List.mem_singleton.mp he]
      exact hentry
  refine ⟨?_, hlast h.nonneg hnonneg, hlast h.unstamped hstamp⟩
  refine List.pairwise_append.mpr ⟨h.ascending, List.pairwise_singleton .., ?_⟩
  intro e he e' he'
  rw [List.mem_singleton.mp he']
  exact hnew e he

/-- An append with a new highest offset does the same to both logs. -/
theorem mirrors_append (h : Mirrors J s tree) (ht : Separable t)
    (hnew : ∀ e ∈ s.logOf t, e.offset < entry.offset) (hnonneg : 0 ≤ entry.offset.toInt)
    (hstamp : entry.appendedAt = none) (hpolicy : policy.isSize = false) :
    Mirrors J (LogStore.append s now t entry policy) (append J tree now t entry policy) := by
  have hnumbered := numbered_concat (h.numbered t) hnew hnonneg hstamp
  have hput : SledTree.scanPrefix (tree.put (logKey t entry.offset) (J.encode entry))
      (logPrefix t) = (s.logOf t ++ [entry]).map (stored J t) := by
    rw [List.map_append, ← h.scan t ht]
    refine SortedMap.scan_put_last isPrefixOf_topicKey_self ?_
    intro x hx
    have hx : x ∈ (s.logOf t).map (stored J t) := h.scan t ht ▸ hx
    obtain ⟨e, he, rfl⟩ := List.mem_map.mp hx
    exact (logKey_lt_iff ((h.numbered t).nonneg e he) hnonneg).mpr
      (Int64.lt_iff_toInt_lt.mp (hnew e he))
  constructor
  · intro u hu
    by_cases hut : u = t
    · subst hut
      obtain ⟨keep, hdelete, hkeep⟩ := SortedMap.exists_foldl_delete
        ((evicted J now (logKey u entry.offset) ((s.logOf u ++ [entry]).map (stored J u))
          policy).map Prod.fst) (tree.put (logKey u entry.offset) (J.encode entry))
      rw [MemoryLogStore.logOf_append_self, append, hput, hdelete, SledTree.scanPrefix,
        SortedMap.scan_filter, ← SledTree.scanPrefix, hput]
      exact filter_evicted hnumbered hpolicy hkeep
    · rw [MemoryLogStore.logOf_append_of_ne hut, ← h.scan u hu, scan_append_of_ne ht hu hut]
  · intro u
    by_cases hut : u = t
    · subst hut
      rw [MemoryLogStore.logOf_append_self]
      exact hnumbered.sublist retain_sublist
    · rw [MemoryLogStore.logOf_append_of_ne hut]
      exact h.numbered u

theorem mirrors_remove (h : Mirrors J s tree) (ht : Separable t) :
    Mirrors J (s.remove t) (remove tree t) := by
  constructor
  · intro u hu
    rw [remove, SledTree.deletePrefix_eq, SledTree.scanPrefix, SortedMap.scan_filter,
      ← SledTree.scanPrefix, h.scan u hu]
    by_cases hut : u = t
    · subst hut
      rw [MemoryLogStore.logOf_remove_self, List.map_nil, List.filter_eq_nil_iff]
      intro x hx
      obtain ⟨e, -, rfl⟩ := List.mem_map.mp hx
      simp [stored, logPrefix, logKey, isPrefixOf_topicKey_self]
    · rw [MemoryLogStore.logOf_remove_of_ne hut, List.filter_eq_self]
      intro x hx
      obtain ⟨e, -, rfl⟩ := List.mem_map.mp hx
      simp [stored, logPrefix, logKey, isPrefixOf_topicKey_of_ne ht hu (Ne.symm hut)]
  · intro u
    by_cases hut : u = t
    · subst hut
      rw [MemoryLogStore.logOf_remove_self]
      exact ⟨.nil, by simp, by simp⟩
    · rw [MemoryLogStore.logOf_remove_of_ne hut]
      exact h.numbered u

theorem entriesOf_eq (h : Mirrors J s tree) (ht : Separable t) :
    entriesOf J tree t = s.logOf t := by
  rw [entriesOf, h.scan t ht, List.filterMap_map]
  exact (List.filterMap_congr fun e _ => J.decode_encode e).trans List.filterMap_some

theorem latest_eq (h : Mirrors J s tree) (ht : Separable t) : latest J tree t = s.latest t := by
  have hsorted : (s.logOf t).mergeSort (fun a b => a.offset ≤ b.offset) = s.logOf t := by
    apply List.mergeSort_of_pairwise
    exact (h.numbered t).ascending.imp fun hlt => by simpa using Int64.le_of_lt hlt
  rw [latest, entriesOf_eq h ht, hsorted, MemoryLogStore.latest]

end SledLog

/-- The log on a sled tree as a store of the broker. -/
structure SledLogStore (J : Codec LogEntry) where
  tree : SledTree

instance (J : Codec LogEntry) : LogStore (SledLogStore J) where
  append s now topic entry retention := ⟨SledLog.append J s.tree now topic entry retention⟩
  range s topic lo hi := SledLog.range J s.tree topic lo hi

/-- A call on a log store, with the clock reading where it takes one. -/
inductive LogCall
  | append (now : Int64) (topic : String) (entry : LogEntry) (retention : RetentionPolicy)
  | range (topic : String) (lo hi : Int64)
  | latest (topic : String)
  | remove (topic : String)
  deriving DecidableEq, Repr

inductive LogAnswer
  | done
  | entries (found : List LogEntry)
  | last (found : Option LogEntry)
  deriving DecidableEq, Repr

namespace LogCall

def topic : LogCall → String
  | append _ topic .. | range topic .. | latest topic | remove topic => topic

/-- The topic and the offset of an append. -/
def appended : LogCall → Option (String × Int64)
  | append _ topic entry _ => some (topic, entry.offset)
  | _ => none

/-- The topic is accepted, and an append is one as the broker makes it, under a
policy that both stores have. -/
def Admissible (c : LogCall) : Prop :=
  validateName c.topic = .ok () ∧
    match c with
    | append _ _ entry retention =>
      0 ≤ entry.offset.toInt ∧ entry.appendedAt = none ∧ retention.isSize = false
    | _ => True

instance : DecidablePred Admissible
  | append _ topic entry retention => inferInstanceAs (Decidable (validateName topic = .ok () ∧
      0 ≤ entry.offset.toInt ∧ entry.appendedAt = none ∧ retention.isSize = false))
  | range topic _ _ => inferInstanceAs (Decidable (validateName topic = .ok () ∧ True))
  | latest topic => inferInstanceAs (Decidable (validateName topic = .ok () ∧ True))
  | remove topic => inferInstanceAs (Decidable (validateName topic = .ok () ∧ True))

end LogCall

def MemoryLogStore.serve (s : MemoryLogStore) : LogCall → MemoryLogStore × LogAnswer
  | .append now topic entry retention => (LogStore.append s now topic entry retention, .done)
  | .range topic lo hi => (s, .entries (LogStore.range s topic lo hi))
  | .latest topic => (s, .last (s.latest topic))
  | .remove topic => (s.remove topic, .done)

def SledLog.serve (J : Codec LogEntry) (tree : SledTree) : LogCall → SledTree × LogAnswer
  | .append now topic entry retention => (SledLog.append J tree now topic entry retention, .done)
  | .range topic lo hi => (tree, .entries (SledLog.range J tree topic lo hi))
  | .latest topic => (tree, .last (SledLog.latest J tree topic))
  | .remove topic => (SledLog.remove tree topic, .done)

namespace SledLog

open Transition Encode

variable {J : Codec LogEntry}

/-- An append comes with an offset above those in its log. -/
def Ascending (s : MemoryLogStore) (c : LogCall) : Prop :=
  ∀ t o, c.appended = some (t, o) → ∀ e ∈ s.logOf t, e.offset < o

theorem mirrors_serve {s : MemoryLogStore} {tree : SledTree} {c : LogCall} (h : Mirrors J s tree)
    (hc : c.Admissible ∧ Ascending s c) :
    Mirrors J (s.serve c).1 (serve J tree c).1 ∧ (serve J tree c).2 = (s.serve c).2 := by
  obtain ⟨⟨hname, hcall⟩, hnew⟩ := hc
  have ht := separable_of_validateName hname
  cases c with
  | append now t entry policy =>
    obtain ⟨hnonneg, hstamp, hpolicy⟩ := hcall
    exact ⟨mirrors_append h ht (hnew t _ rfl) hnonneg hstamp hpolicy, rfl⟩
  | range t lo hi =>
    refine ⟨h, ?_⟩
    simp only [serve, range, entriesOf_eq (t := t) h ht]
    rfl
  | latest t =>
    refine ⟨h, ?_⟩
    simp only [serve, latest_eq (t := t) h ht]
    rfl
  | remove t => exact ⟨mirrors_remove h ht, rfl⟩

/-- The offsets in a log are those of appends to its topic. -/
theorem appended_of_mem_logOf (calls : List LogCall) {t : String} {e : LogEntry}
    (he : e ∈ (after MemoryLogStore.serve ⟨fun _ => none⟩ calls).logOf t) :
    ∃ c ∈ calls, c.appended = some (t, e.offset) := by
  induction calls using List.reverseRecOn generalizing e with
  | nil => simp [after, MemoryLogStore.logOf] at he
  | append_singleton calls c ih =>
    rw [after_concat] at he
    have hold (h : e ∈ (after MemoryLogStore.serve ⟨fun _ => none⟩ calls).logOf t) :
        ∃ c' ∈ calls ++ [c], c'.appended = some (t, e.offset) := by
      obtain ⟨c', hc', happ⟩ := ih h
      exact ⟨c', List.mem_append_left _ hc', happ⟩
    cases c with
    | append now u entry policy =>
      simp only [MemoryLogStore.serve] at he
      by_cases hut : t = u
      · subst hut
        rw [MemoryLogStore.logOf_append_self] at he
        rcases List.mem_append.mp (retain_sublist.subset he) with he | he
        · exact hold he
        · cases List.mem_singleton.mp he
          exact ⟨_, List.mem_append_right _ (List.mem_singleton_self _), rfl⟩
      · rw [MemoryLogStore.logOf_append_of_ne hut] at he
        exact hold he
    | range => exact hold he
    | latest => exact hold he
    | remove u =>
      simp only [MemoryLogStore.serve] at he
      by_cases hut : t = u
      · subst hut
        rw [MemoryLogStore.logOf_remove_self] at he
        cases he
      · rw [MemoryLogStore.logOf_remove_of_ne hut] at he
        exact hold he

/-- The two logs give the same answers to any calls as long as the offsets appended
to a topic ascend. -/
theorem log_stores_agree (J : Codec LogEntry) (calls : List LogCall)
    (hcalls : ∀ c ∈ calls, c.Admissible)
    (hoffsets : calls.Pairwise fun c c' => ∀ x ∈ c.appended, ∀ y ∈ c'.appended,
      x.1 = y.1 → x.2 < y.2) :
    answers (serve J) .empty calls = answers MemoryLogStore.serve ⟨fun _ => none⟩ calls := by
  have hok : Admits MemoryLogStore.serve (fun s c => c.Admissible ∧ Ascending s c)
      ⟨fun _ => none⟩ calls := by
    rintro pre c post rfl
    refine ⟨hcalls c (by simp), ?_⟩
    intro t o ho e he
    obtain ⟨c', hc', happ⟩ := appended_of_mem_logOf pre he
    exact (List.pairwise_append.mp hoffsets).2.2 c' hc' c List.mem_cons_self _ happ _ ho rfl
  exact answers_eq_of_simulation (fun _ _ c h hc => mirrors_serve (c := c) h hc) hok mirrors_new

/-- An entry with this offset and payload. -/
def entryAt (offset : Int64) (payload : Bytes) : LogEntry :=
  ⟨offset, none, "m", "event", none, payload, 0, none⟩

/-- A way to write entries that runs. -/
def fieldCodec : Codec LogEntry := .ofFields
  (fun e => [BigEndian.ofInt64 e.offset, Codec.optional Utf8.encode e.publisherSession,
    Utf8.encode e.messageId, Utf8.encode e.class_, Codec.optional Utf8.encode e.event, e.payload,
    BigEndian.ofInt64 e.timestamp, Codec.optional BigEndian.ofInt64 e.appendedAt])
  (fun
    | [offset, session, messageId, class_, event, payload, timestamp, appendedAt] => do
      some ⟨BigEndian.toInt64 offset, ← Codec.unoptional Utf8.decode session,
        ← Utf8.decode messageId, ← Utf8.decode class_, ← Codec.unoptional Utf8.decode event,
        payload, BigEndian.toInt64 timestamp,
        ← Codec.unoptional (fun bs => some (BigEndian.toInt64 bs)) appendedAt⟩
    | _ => none)
  (fun e => by simp)

/-- One entry is kept of three, two topics do not mix, and a log that is removed
starts over with a higher offset. -/
theorem latest_two_topics :
    answers (serve fieldCodec) .empty
        [.append 0 "a" (entryAt 9 [1]) (.count 1), .append 0 "a" (entryAt 10 [2]) (.count 1),
          .append 0 "a/b" (entryAt 1 [3]) .durable, .range "a" 0 100, .remove "a",
          .append 5 "a" (entryAt 11 [4]) .latest, .latest "a", .latest "a/b"] =
      [.done, .done, .done, .entries [entryAt 10 [2]], .done, .done, .last (some (entryAt 11 [4])),
        .last (some (entryAt 1 [3]))] := by
  rw [log_stores_agree fieldCodec _ (by decide) (by decide)]
  decide

end SledLog

end Rifts
