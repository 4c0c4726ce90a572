import Rifts.Storage.Memory
import Rifts.Storage.Sled
import Rifts.Transition.Service

/-! The two local dedupe stores, one over a map of pairs and one over a sled tree. -/
namespace Rifts

/-- The in-memory store with a list of the keys it holds, over which `sweep` goes. -/
structure DedupeTable extends MemoryDedupeStore where
  keys : List (String × String)
  nodup : keys.Nodup
  mem_keys : ∀ k, k ∈ keys ↔ (inner k).isSome

namespace DedupeTable

def new : DedupeTable := ⟨⟨fun _ => none⟩, [], .nil, by simp⟩

theorem isSome_checkAndRecord (s : MemoryDedupeStore) (now : Int64) (topic key : String)
    (window : Nat) (k : String × String) :
    ((DedupeStore.checkAndRecord s now topic key window).1.inner k).isSome ↔
      k = (topic, key) ∨ (s.inner k).isSome := by
  simp only [DedupeStore.checkAndRecord]
  by_cases hk : k = (topic, key)
  · subst hk
    split
    · next hv => split <;> simp [hv]
    · simp
  · split
    · split <;> simp [hk]
    · simp [hk]

def checkAndRecord (s : DedupeTable) (now : Int64) (topic key : String) (window : Nat) :
    DedupeTable × Bool :=
  (⟨(DedupeStore.checkAndRecord s.toMemoryDedupeStore now topic key window).1,
    s.keys.insert (topic, key), s.nodup.insert, fun k => by
      rw [List.mem_insert_iff, isSome_checkAndRecord, s.mem_keys]⟩,
    (DedupeStore.checkAndRecord s.toMemoryDedupeStore now topic key window).2)

instance : DedupeStore DedupeTable := ⟨checkAndRecord⟩

def remove (s : DedupeTable) (k : String × String) : DedupeTable × Option Int64 :=
  (⟨⟨Function.update s.inner k none⟩, s.keys.erase k, s.nodup.erase k, fun k' => by
      rw [s.nodup.mem_erase_iff, s.mem_keys]
      by_cases hk : k' = k <;> simp [hk]⟩,
    s.inner k)

/-- The keys a sweep collects. -/
def expired (s : DedupeTable) (now : Int64) : List (String × String) :=
  s.keys.filter fun k => (s.inner k).any (· ≤ now)

def sweepKey : DedupeTable × Nat → String × String → DedupeTable × Nat
  | (s, removed), k =>
    match s.remove k with
    | (s, some _) => (s, removed + 1)
    | (s, none) => (s, removed)

def sweep (s : DedupeTable) (now : Int64) : DedupeTable × Nat :=
  (s.expired now).foldl sweepKey (s, 0)

variable {s : DedupeTable} {now : Int64} {topic key : String} {window : Nat}

/-- A record that has not expired stays and is a duplicate; otherwise there is a new one. -/
theorem checkAndRecord_cases (s : DedupeTable) (now : Int64) (topic key : String) (window : Nat) :
    ((s.checkAndRecord now topic key window).2 = false ∧
      (∃ e, s.inner (topic, key) = some e ∧ now < e) ∧
      (s.checkAndRecord now topic key window).1.inner = s.inner) ∨
    ((s.checkAndRecord now topic key window).2 = true ∧
      (∀ e, s.inner (topic, key) = some e → e ≤ now) ∧
      (s.checkAndRecord now topic key window).1.inner =
        Function.update s.inner (topic, key) (some (now + Int64.ofNat window))) := by
  simp only [checkAndRecord, DedupeStore.checkAndRecord]
  split
  · next e he =>
    split
    · next hle =>
      refine .inr ⟨rfl, ?_, rfl⟩
      rintro e' he'
      cases he.symm.trans he'
      exact hle
    · next hle => exact .inl ⟨rfl, ⟨e, he, Int64.not_le.mp hle⟩, rfl⟩
  · next he =>
    refine .inr ⟨rfl, ?_, rfl⟩
    rintro e he'
    cases he.symm.trans he'

theorem foldl_sweepKey {ks : List (String × String)} (hn : ks.Nodup)
    (h : ∀ k ∈ ks, (s.inner k).isSome) (n : Nat) :
    (ks.foldl sweepKey (s, n)).2 = n + ks.length ∧
      ∀ k, (ks.foldl sweepKey (s, n)).1.inner k = if k ∈ ks then none else s.inner k := by
  induction ks generalizing s n with
  | nil => simp
  | cons k ks ih =>
    obtain ⟨e, he⟩ := Option.isSome_iff_exists.mp (h k List.mem_cons_self)
    obtain ⟨hk, hn⟩ := List.nodup_cons.mp hn
    have hstep : sweepKey (s, n) k = ((s.remove k).1, n + 1) := by
      simp only [sweepKey, remove, he]
    have hrest : ∀ k' ∈ ks, ((s.remove k).1.inner k').isSome := by
      intro k' hk'
      have hne : k' ≠ k := by
        rintro rfl
        exact hk hk'
      simpa [remove, hne] using h k' (List.mem_cons_of_mem k hk')
    obtain ⟨hcount, hinner⟩ := ih hn hrest (n + 1)
    rw [List.foldl_cons, hstep]
    refine ⟨by rw [hcount, List.length_cons]; omega, ?_⟩
    intro k'
    rw [hinner k']
    by_cases hk' : k' = k <;> simp [remove, hk']

/-- A sweep removes the expired records and counts them. -/
theorem sweep_spec (s : DedupeTable) (now : Int64) :
    (s.sweep now).2 = (s.expired now).length ∧
      ∀ k, (s.sweep now).1.inner k = (s.inner k).filter (now < ·) := by
  have hmem (k : String × String) : k ∈ s.expired now ↔ ∃ e, s.inner k = some e ∧ e ≤ now := by
    rw [expired, List.mem_filter, s.mem_keys]
    cases s.inner k <;> simp
  have hsome : ∀ k ∈ s.expired now, (s.inner k).isSome := by
    intro k hk
    obtain ⟨e, he, -⟩ := (hmem k).mp hk
    simp [he]
  have hnodup : (s.expired now).Nodup := s.nodup.filter _
  obtain ⟨hcount, hinner⟩ := foldl_sweepKey hnodup hsome 0
  refine ⟨by rw [sweep, hcount, Nat.zero_add], ?_⟩
  intro k
  rw [sweep, hinner k]
  cases he : s.inner k with
  | none => simp
  | some e =>
    simp only [hmem, he, Option.some.injEq, exists_eq_left', Option.filter_some, decide_eq_true_eq]
    by_cases hle : e ≤ now
    · rw [if_pos hle, if_neg (Int64.not_lt.mpr hle)]
    · rw [if_neg hle, if_pos (Int64.not_le.mp hle)]

end DedupeTable

namespace SledDedupe

open Encode

/-- What `check_and_record` makes of the record it reads: nothing when the record has
not expired, and otherwise the value it expects to swap. -/
def expected (now : Int64) : Option Bytes → Option (Option Bytes)
  | none => some none
  | some v =>
    if 8 ≤ v.length then if now < BigEndian.toInt64 v then none else some (some v)
    else some none

/-- The loop, for a number of turns. -/
def checkAndRecord (tree : SledTree) (now : Int64) (topic key : String) (window : Nat) :
    Nat → Option (SledTree × Bool)
  | 0 => none
  | turns + 1 =>
    match expected now (tree.get (dedupeKey topic key)) with
    | none => some (tree, false)
    | some old =>
      match tree.cas (dedupeKey topic key) old (BigEndian.ofInt64 (now + Int64.ofNat window)) with
      | some tree => some (tree, true)
      | none => checkAndRecord tree now topic key window turns

section Turns

variable {tree : SledTree} {now : Int64} {topic key : String} {window : Nat} {v : Bytes}

/-- A value that is too short is taken for none, and the swap then expects none: every turn of
the loop fails as the one before. -/
theorem checkAndRecord_short (h : tree.get (dedupeKey topic key) = some v) (hv : v.length < 8)
    (turns : Nat) : checkAndRecord tree now topic key window turns = none := by
  induction turns with
  | zero => rfl
  | succ turns ih => simp [checkAndRecord, h, expected, Nat.not_le.mpr hv, SledTree.cas, ih]

/-- A record that has not expired is left alone. -/
theorem checkAndRecord_live (h : tree.get (dedupeKey topic key) = some v) (hv : 8 ≤ v.length)
    (hlive : now < BigEndian.toInt64 v) (turns : Nat) :
    checkAndRecord tree now topic key window (turns + 1) = some (tree, false) := by
  simp [checkAndRecord, h, expected, hv, hlive]

/-- No record, or an expired one, is replaced in the first turn. -/
theorem checkAndRecord_replaces
    (h : ∀ v, tree.get (dedupeKey topic key) = some v →
      8 ≤ v.length ∧ BigEndian.toInt64 v ≤ now) (turns : Nat) :
    checkAndRecord tree now topic key window (turns + 1) = some
      (tree.put (dedupeKey topic key) (BigEndian.ofInt64 (now + Int64.ofNat window)), true) := by
  cases hget : tree.get (dedupeKey topic key) with
  | none => simp [checkAndRecord, hget, expected, SledTree.cas]
  | some v =>
    obtain ⟨hv, hle⟩ := h v hget
    simp [checkAndRecord, hget, expected, hv, Int64.not_lt.mpr hle, SledTree.cas]

/-- The call returns and leaves an expiry of eight bytes under its key. -/
def Settles (tree : SledTree) (now : Int64) (topic key : String) (window : Nat) : Prop :=
  ∃ turns tree' fresh, checkAndRecord tree now topic key window turns = some (tree', fresh) ∧
    ∃ v, tree'.get (dedupeKey topic key) = some v ∧ v.length = 8

/-- The loop ends, and ends well, exactly when what is stored under the key is nothing, an
expiry of eight bytes, or a longer value whose first eight bytes have expired. -/
theorem settles_iff (tree : SledTree) (now : Int64) (topic key : String) (window : Nat) :
    Settles tree now topic key window ↔
      ∀ v, tree.get (dedupeKey topic key) = some v →
        v.length = 8 ∨ 8 < v.length ∧ BigEndian.toInt64 v ≤ now := by
  constructor
  · rintro ⟨turns, tree', fresh, hreturns, w, hw, hlen⟩ v hv
    have hlong : 8 ≤ v.length := by
      by_contra hshort
      rw [checkAndRecord_short hv (by omega)] at hreturns
      cases hreturns
    by_cases hle : BigEndian.toInt64 v ≤ now
    · exact (Nat.eq_or_lt_of_le hlong).imp Eq.symm fun hlt => ⟨hlt, hle⟩
    · cases turns with
      | zero => cases hreturns
      | succ turns =>
        rw [checkAndRecord_live hv hlong (Int64.not_le.mp hle)] at hreturns
        cases hreturns
        rw [hv] at hw
        cases hw
        exact .inl hlen
  · intro h
    by_cases hlive : ∃ v, tree.get (dedupeKey topic key) = some v ∧ now < BigEndian.toInt64 v
    · obtain ⟨v, hv, hlt⟩ := hlive
      have hlen : v.length = 8 := by
        rcases h v hv with h8 | ⟨-, hle⟩
        · exact h8
        · exact absurd hlt (Int64.not_lt.mpr hle)
      exact ⟨1, tree, false, checkAndRecord_live hv hlen.ge hlt 0, v, hv, hlen⟩
    · have hreplaces : ∀ v, tree.get (dedupeKey topic key) = some v →
          8 ≤ v.length ∧ BigEndian.toInt64 v ≤ now := by
        intro v hv
        refine ⟨?_, Int64.not_lt.mp fun hlt => hlive ⟨v, hv, hlt⟩⟩
        rcases h v hv with h8 | ⟨hlong, -⟩ <;> omega
      exact ⟨1, _, true, checkAndRecord_replaces hreplaces 0, _, SortedMap.get_put_self,
        BigEndian.length_ofInt64 _⟩

/-- One stray byte under the key, and the call never returns. -/
theorem stray_byte_spins :
    ¬ ∃ turns r, checkAndRecord (SortedMap.empty.put (dedupeKey "a" "m") [0]) 0 "a" "m" 60000
      turns = some r := by
  rintro ⟨turns, r, h⟩
  rw [checkAndRecord_short SortedMap.get_put_self (by decide)] at h
  cases h

end Turns

/-- The topic in front of the first separator. -/
def topicOf (k : Bytes) : Option String :=
  if sep ∈ k then Utf8.decode (k.takeWhile (· ≠ sep)) else none

def expiredRecord (now : Int64) (x : Bytes × Bytes) : Bool :=
  8 ≤ x.2.length && BigEndian.toInt64 x.2 ≤ now

def sweepTopic (now : Int64) : SledTree × Nat → String → SledTree × Nat
  | (tree, total), topic =>
    let keys := ((tree.scanPrefix (dedupePrefix topic)).filter (expiredRecord now)).map Prod.fst
    (keys.foldl SortedMap.delete tree, total + keys.length)

/-- The set of topics is walked in the order of their first keys. -/
def sweep (tree : SledTree) (now : Int64) : SledTree × Nat :=
  (tree.entries.filterMap fun x => topicOf x.1).dedup.foldl (sweepTopic now) (tree, 0)

variable {tree : SledTree} {now : Int64} {topic key : String} {window : Nat}

theorem topicOf_topicKey (h : Separable topic) (rest : Bytes) :
    topicOf (topicKey topic rest) = some topic := by
  rw [topicOf, if_pos (by simp [topicKey]), topicKey, Keys.takeWhile_append_sep h,
    Utf8.decode_encode]

/-- Elements counted by a first test, or else by a second. -/
theorem length_filter_add {α : Type} (l : List α) (p q : α → Bool) :
    (l.filter p).length + (l.filter fun x => q x && !p x).length =
      (l.filter fun x => p x || q x).length := by
  induction l with
  | nil => rfl
  | cons x l ih =>
    cases hp : p x <;> cases hq : q x <;> simp [hp, hq] <;> omega

/-- The topics swept so far have lost their expired records. -/
theorem foldl_sweepTopic (topics : List String) (tree : SledTree) (n : Nat) :
    topics.foldl (sweepTopic now) (tree, n) =
      (tree.filter fun x => !(expiredRecord now x &&
          topics.any fun t => (dedupePrefix t).isPrefixOf x.1),
        n + (tree.entries.filter fun x => expiredRecord now x &&
          topics.any fun t => (dedupePrefix t).isPrefixOf x.1).length) := by
  induction topics generalizing tree n with
  | nil => simp [SortedMap.filter]
  | cons t topics ih =>
    rw [List.foldl_cons, sweepTopic, SledTree.scanPrefix, SortedMap.foldl_delete_scan, ih,
      SortedMap.filter_filter]
    congr 1
    · apply SortedMap.filter_congr
      intro x _
      cases expiredRecord now x <;> simp
    · rw [List.length_map, SortedMap.scan, List.filter_filter, SortedMap.filter,
        List.filter_filter, Nat.add_assoc, length_filter_add]
      congr 2
      apply List.filter_congr
      intro x _
      cases expiredRecord now x <;> simp

/-- When the topics of all records are swept, every expired record goes. -/
theorem sweep_eq (h : ∀ x ∈ tree.entries, ∃ t rest, Separable t ∧ x.1 = topicKey t rest) :
    sweep tree now = (tree.filter fun x => !expiredRecord now x,
      (tree.entries.filter (expiredRecord now)).length) := by
  have hany : ∀ x ∈ tree.entries, ((tree.entries.filterMap fun x => topicOf x.1).dedup.any
      fun t => (dedupePrefix t).isPrefixOf x.1) = true := by
    intro x hx
    obtain ⟨t, rest, ht, hkey⟩ := h x hx
    refine List.any_eq_true.mpr ⟨t, List.mem_dedup.mpr (List.mem_filterMap.mpr ⟨x, hx, ?_⟩), ?_⟩
    · rw [hkey, topicOf_topicKey ht]
    · rw [hkey]
      exact isPrefixOf_topicKey_self
  rw [sweep, foldl_sweepTopic, Nat.zero_add]
  congr 1
  · apply SortedMap.filter_congr
    intro x hx
    rw [hany x hx, Bool.and_true]
  · congr 1
    apply List.filter_congr
    intro x hx
    rw [hany x hx, Bool.and_true]

end SledDedupe

namespace Dedupe

open Encode

/-- The tree holds the records of the table, each under its key, and no others. -/
structure Mirrors (s : DedupeTable) (tree : SledTree) : Prop where
  records : ∀ t key, Separable t →
    tree.get (dedupeKey t key) = (s.inner (t, key)).map BigEndian.ofInt64
  keys : ∀ x ∈ tree.entries, ∃ t key, Separable t ∧ x.1 = dedupeKey t key
  topics : ∀ k ∈ s.keys, Separable k.1

theorem mirrors_new : Mirrors .new .empty := by
  refine ⟨fun t key _ => rfl, ?_, ?_⟩ <;> simp [SortedMap.empty, DedupeTable.new]

variable {s : DedupeTable} {tree : SledTree} {now : Int64} {topic key : String} {window : Nat}

/-- A record as it stands in the tree. -/
def entryOf (s : DedupeTable) (k : String × String) : Option (Bytes × Bytes) :=
  (s.inner k).map fun e => (dedupeKey k.1 k.2, BigEndian.ofInt64 e)

theorem entryOf_eq_some {k : String × String} {b v : Bytes} : entryOf s k = some (b, v) ↔
    ∃ e, s.inner k = some e ∧ dedupeKey k.1 k.2 = b ∧ BigEndian.ofInt64 e = v := by
  simp [entryOf]

theorem Mirrors.entries_perm (h : Mirrors s tree) :
    tree.entries.Perm (s.keys.filterMap (entryOf s)) := by
  apply SortedMap.entries_perm
  · refine List.pairwise_filterMap.mpr (s.nodup.imp_of_mem ?_)
    rintro k k' hk hk' hne ⟨b, v⟩ hb ⟨b', v'⟩ hb' heq
    obtain ⟨e, -, rfl, rfl⟩ := entryOf_eq_some.mp hb
    obtain ⟨e', -, rfl, rfl⟩ := entryOf_eq_some.mp hb'
    have hkey := (Prod.mk.inj heq).1
    rw [dedupeKey_inj (h.topics k hk) (h.topics k' hk')] at hkey
    exact hne (Prod.ext hkey.1 hkey.2)
  · intro b v
    rw [List.mem_filterMap]
    constructor
    · rintro ⟨k, hk, hb⟩
      obtain ⟨e, he, rfl, rfl⟩ := entryOf_eq_some.mp hb
      rw [h.records k.1 k.2 (h.topics k hk), he]
      rfl
    · intro hget
      obtain ⟨t, key, ht, rfl⟩ := h.keys (b, v) (SortedMap.mem_entries.mpr hget)
      rw [h.records t key ht] at hget
      obtain ⟨e, he, rfl⟩ := Option.map_eq_some_iff.mp hget
      refine ⟨(t, key), (s.mem_keys _).mpr (by simp [he]), ?_⟩
      exact entryOf_eq_some.mpr ⟨e, he, rfl, rfl⟩

/-- Both sweeps find the same number of expired records. -/
theorem Mirrors.length_expired (h : Mirrors s tree) :
    (tree.entries.filter (SledDedupe.expiredRecord now)).length = (s.expired now).length := by
  rw [(h.entries_perm.filter _).length_eq, DedupeTable.expired, ← List.countP_eq_length_filter,
    ← List.countP_eq_length_filter, List.countP_filterMap]
  apply List.countP_congr
  intro k _
  cases he : s.inner k <;> simp [entryOf, he, SledDedupe.expiredRecord]

/-- Recording a pair in both stores. -/
theorem mirrors_put {s' : DedupeTable} {e : Int64} (h : Mirrors s tree) (ht : Separable topic)
    (hinner : s'.inner = Function.update s.inner (topic, key) (some e))
    (hkeys : ∀ k ∈ s'.keys, k = (topic, key) ∨ k ∈ s.keys) :
    Mirrors s' (tree.put (dedupeKey topic key) (BigEndian.ofInt64 e)) := by
  constructor
  · intro t key' ht'
    rw [hinner]
    by_cases hk : (t, key') = (topic, key)
    · cases hk
      simp
    · have hne : dedupeKey t key' ≠ dedupeKey topic key := by
        intro heq
        rw [dedupeKey_inj ht' ht] at heq
        exact hk (Prod.ext heq.1 heq.2)
      rw [SortedMap.get_put_of_ne hne, Function.update_of_ne hk, h.records t key' ht']
  · intro x hx
    rcases SortedMap.mem_put.mp hx with rfl | ⟨hx, -⟩
    · exact ⟨topic, key, ht, rfl⟩
    · exact h.keys x hx
  · intro k hk
    rcases hkeys k hk with rfl | hk
    · exact ht
    · exact h.topics k hk

/-- On a topic the keys can tell apart, the loop returns in its first turn, with
the answer of the table. -/
theorem mirrors_checkAndRecord (h : Mirrors s tree) (ht : Separable topic) (now : Int64)
    (key : String) (window turns : Nat) :
    ∃ tree', SledDedupe.checkAndRecord tree now topic key window (turns + 1) =
        some (tree', (s.checkAndRecord now topic key window).2) ∧
      Mirrors (s.checkAndRecord now topic key window).1 tree' := by
  have hget := h.records topic key ht
  have hkeys : ∀ k ∈ (s.checkAndRecord now topic key window).1.keys,
      k = (topic, key) ∨ k ∈ s.keys := fun k hk => List.mem_insert_iff.mp hk
  obtain ⟨hdup, ⟨e, he, hlt⟩, hinner⟩ | ⟨hfresh, hle, hinner⟩ :=
    DedupeTable.checkAndRecord_cases s now topic key window
  · rw [he] at hget
    refine ⟨tree, ?_, ?_, h.keys, ?_⟩
    · rw [hdup, SledDedupe.checkAndRecord_live hget (by simp) (by simpa using hlt)]
    · rw [hinner]
      exact h.records
    · intro k hk
      rcases hkeys k hk with rfl | hk
      · exact ht
      · exact h.topics k hk
  · refine ⟨_, ?_, mirrors_put h ht hinner hkeys⟩
    rw [hfresh]
    apply SledDedupe.checkAndRecord_replaces
    intro v hv
    rw [hget] at hv
    obtain ⟨e, he, rfl⟩ := Option.map_eq_some_iff.mp hv
    exact ⟨by simp, by simpa using hle e he⟩

/-- Both sweeps remove the same records. -/
theorem mirrors_sweep (h : Mirrors s tree) (now : Int64) :
    (SledDedupe.sweep tree now).2 = (s.sweep now).2 ∧
      Mirrors (s.sweep now).1 (SledDedupe.sweep tree now).1 := by
  obtain ⟨hcount, hinner⟩ := DedupeTable.sweep_spec s now
  have hkeys : ∀ x ∈ tree.entries, ∃ t rest, Separable t ∧ x.1 = topicKey t rest := by
    intro x hx
    obtain ⟨t, key, ht, hk⟩ := h.keys x hx
    exact ⟨t, _, ht, hk⟩
  rw [SledDedupe.sweep_eq hkeys, hcount]
  refine ⟨h.length_expired, ?_, ?_, ?_⟩
  · intro t key ht
    rw [SortedMap.get_filter, h.records t key ht, hinner]
    cases s.inner (t, key) with
    | none => rfl
    | some e =>
      simp [SledDedupe.expiredRecord, Option.filter_some]
  · intro x hx
    exact h.keys x (List.mem_of_mem_filter hx)
  · intro k hk
    rw [DedupeTable.mem_keys, hinner] at hk
    refine h.topics k ((s.mem_keys k).mpr ?_)
    cases he : s.inner k with
    | none => simp [he] at hk
    | some e => rfl

end Dedupe

/-- A call on a dedupe store, with the clock reading it is made at. -/
inductive DedupeCall
  | check (now : Int64) (topic key : String) (window : Nat)
  | sweep (now : Int64)
  deriving DecidableEq, Repr

inductive DedupeAnswer
  | fresh (isFresh : Bool)
  | swept (removed : Nat)
  deriving DecidableEq, Repr

namespace DedupeCall

def now : DedupeCall → Int64
  | check now .. | sweep now => now

/-- The topic is accepted, and the expiry fits an `i64`. -/
def Admissible : DedupeCall → Prop
  | check now topic _ window => validateName topic = .ok () ∧ now.toInt + window < 2 ^ 63
  | sweep _ => True

instance : DecidablePred Admissible
  | check now topic _ window =>
    inferInstanceAs (Decidable (validateName topic = .ok () ∧ now.toInt + window < 2 ^ 63))
  | sweep _ => .isTrue trivial

end DedupeCall

def DedupeTable.serve (s : DedupeTable) : DedupeCall → DedupeTable × DedupeAnswer
  | .check now topic key window =>
    let (s, isFresh) := s.checkAndRecord now topic key window
    (s, .fresh isFresh)
  | .sweep now =>
    let (s, removed) := s.sweep now
    (s, .swept removed)

/-- There is no answer when the loop has not returned after so many turns. -/
def SledDedupe.serve (turns : Nat) (tree : SledTree) :
    DedupeCall → SledTree × Option DedupeAnswer
  | .check now topic key window =>
    match SledDedupe.checkAndRecord tree now topic key window turns with
    | some (tree, isFresh) => (tree, some (.fresh isFresh))
    | none => (tree, none)
  | .sweep now =>
    let (tree, removed) := SledDedupe.sweep tree now
    (tree, some (.swept removed))

namespace Dedupe

open Transition

theorem mirrors_serve {s : DedupeTable} {tree : SledTree} {call : DedupeCall} (turns : Nat)
    (h : Mirrors s tree) (hcall : call.Admissible) :
    Mirrors (s.serve call).1 (SledDedupe.serve (turns + 1) tree call).1 ∧
      (SledDedupe.serve (turns + 1) tree call).2 = some (s.serve call).2 := by
  cases call with
  | check now topic key window =>
    obtain ⟨tree', hcheck, h'⟩ := mirrors_checkAndRecord h
      (Encode.separable_of_validateName hcall.1) now key window turns
    simp only [SledDedupe.serve, hcheck]
    exact ⟨h', rfl⟩
  | sweep now =>
    obtain ⟨hcount, h'⟩ := mirrors_sweep h now
    exact ⟨h', by simp [SledDedupe.serve, DedupeTable.serve, hcount]⟩

/-- A call that returned true recorded an expiry later than `n`. -/
def RecordedAfter (n : Int64) (topic key : String) (calls : List (DedupeCall × DedupeAnswer)) :
    Prop :=
  ∃ (now : Int64) (window : Nat), (.check now topic key window, .fresh true) ∈ calls ∧
    n.toInt < now.toInt + window

theorem toInt_expiry {now : Int64} {window : Nat} (h : now.toInt + window < 2 ^ 63) :
    (now + Int64.ofNat window).toInt = now.toInt + window := by
  have hge := now.le_toInt
  rw [Int64.toInt_add, Int64.toInt_ofNat', Int.add_bmod_bmod]
  exact Int.bmod_eq_of_le (by simp; omega) (by simp; omega)

theorem recordedAfter_concat {n : Int64} {topic key : String}
    {calls : List (DedupeCall × DedupeAnswer)} {x : DedupeCall × DedupeAnswer} :
    RecordedAfter n topic key (calls ++ [x]) ↔
      RecordedAfter n topic key calls ∨ RecordedAfter n topic key [x] := by
  simp only [RecordedAfter, List.mem_append, or_and_right, exists_or]

/-- A record that is live afterwards was live before, or has just been made. -/
theorem live_checkAndRecord (s : DedupeTable) {now n : Int64} {topic key t k : String}
    {window : Nat} (hfits : now.toInt + window < 2 ^ 63) (hn : now ≤ n) :
    (∃ e, (s.serve (.check now t k window)).1.inner (topic, key) = some e ∧ n < e) ↔
      (∃ e, s.inner (topic, key) = some e ∧ n < e) ∨
        RecordedAfter n topic key
          [(.check now t k window, (s.serve (.check now t k window)).2)] := by
  have hserve : s.serve (.check now t k window) =
    ((s.checkAndRecord now t k window).1, .fresh (s.checkAndRecord now t k window).2) := rfl
  rw [hserve]
  obtain ⟨hdup, -, hinner⟩ | ⟨hfresh, hle, hinner⟩ :=
    DedupeTable.checkAndRecord_cases s now t k window
  · rw [hinner, hdup]
    simp [RecordedAfter]
  · rw [hinner, hfresh]
    by_cases hk : (topic, key) = (t, k)
    · cases hk
      have hold : ¬ ∃ e, s.inner (topic, key) = some e ∧ n < e := by
        rintro ⟨e, he, hlt⟩
        exact Int64.not_lt.mpr (Int64.le_trans (hle e he) hn) hlt
      rw [or_iff_right hold]
      simp [RecordedAfter, Int64.lt_iff_toInt_lt, toInt_expiry hfits]
    · rw [Function.update_of_ne hk, or_iff_left]
      rintro ⟨now', window', hmem, -⟩
      simp only [List.mem_singleton, Prod.mk.injEq, DedupeCall.check.injEq] at hmem
      exact hk (Prod.ext hmem.1.2.1 hmem.1.2.2.1)

/-- A sweep leaves the records that are live. -/
theorem live_sweep (s : DedupeTable) {now n : Int64} {topic key : String} (hn : now ≤ n) :
    (∃ e, (s.serve (.sweep now)).1.inner (topic, key) = some e ∧ n < e) ↔
      (∃ e, s.inner (topic, key) = some e ∧ n < e) ∨
        RecordedAfter n topic key [(.sweep now, (s.serve (.sweep now)).2)] := by
  obtain ⟨-, hinner⟩ := DedupeTable.sweep_spec s now
  have hserve : (s.serve (.sweep now)).1 = (s.sweep now).1 := rfl
  have hnone : ¬ RecordedAfter n topic key [(.sweep now, (s.serve (.sweep now)).2)] := by
    simp [RecordedAfter]
  rw [or_iff_left hnone, hserve, hinner]
  apply exists_congr
  intro e
  rw [Option.filter_eq_some_iff, decide_eq_true_eq]
  constructor
  · rintro ⟨⟨he, -⟩, hlt⟩
    exact ⟨he, hlt⟩
  · rintro ⟨he, hlt⟩
    exact ⟨⟨he, Int64.lt_of_le_of_lt hn hlt⟩, hlt⟩

/-- What the table holds says, for every time that is not in the past, whether a
call recorded a later expiry. -/
theorem live_iff_recorded {calls : List DedupeCall} (hcalls : ∀ call ∈ calls, call.Admissible)
    (topic key : String) (n : Int64) (hn : ∀ call ∈ calls, call.now ≤ n) :
    (∃ e, (after DedupeTable.serve .new calls).inner (topic, key) = some e ∧ n < e) ↔
      RecordedAfter n topic key (transcript DedupeTable.serve .new calls) := by
  induction calls using List.reverseRecOn with
  | nil => simp [after, transcript, DedupeTable.new, RecordedAfter]
  | append_singleton calls call ih =>
    have ih := ih (fun c hc => hcalls c (List.mem_append_left _ hc))
      fun c hc => hn c (List.mem_append_left _ hc)
    have hcall := hcalls call (by simp)
    have hnow := hn call (by simp)
    rw [after_concat, transcript_concat, recordedAfter_concat, ← ih]
    generalize after DedupeTable.serve .new calls = s
    cases call with
    | check now t k window => exact live_checkAndRecord s hcall.2 hnow
    | sweep now => exact live_sweep s hnow

/-- The two stores give the same answers to any calls, and a call returns true
exactly when no earlier one that did has an expiry that is still to come. -/
theorem dedupe_stores_agree (calls : List DedupeCall) (hcalls : ∀ call ∈ calls, call.Admissible)
    (hclock : (calls.map DedupeCall.now).Pairwise (· ≤ ·)) (turns : Nat) :
    answers (SledDedupe.serve (turns + 1)) .empty calls =
        (answers DedupeTable.serve .new calls).map some ∧
      ∀ pre now topic key window post, calls = pre ++ .check now topic key window :: post →
        ((answers DedupeTable.serve .new calls)[pre.length]? = some (.fresh true) ↔
          ¬ RecordedAfter now topic key (transcript DedupeTable.serve .new pre)) := by
  refine ⟨answers_map_of_simulation (fun _ _ _ h hcall => mirrors_serve turns h hcall)
    (admits_of_forall hcalls) mirrors_new, ?_⟩
  rintro pre now topic key window post rfl
  have hpre : ∀ call ∈ pre, call.now ≤ now := by
    intro call hcall
    rw [List.map_append, List.pairwise_append] at hclock
    exact hclock.2.2 _ (List.mem_map_of_mem hcall) _ (by simp [DedupeCall.now])
  rw [answers_middle, ← live_iff_recorded (fun c hc => hcalls c (List.mem_append_left _ hc)) topic
    key now hpre]
  generalize after DedupeTable.serve .new pre = s
  have hserve : (s.serve (.check now topic key window)).2 =
    .fresh (s.checkAndRecord now topic key window).2 := rfl
  rw [hserve]
  obtain ⟨hdup, hlive, -⟩ | ⟨hfresh, hle, -⟩ :=
    DedupeTable.checkAndRecord_cases s now topic key window
  · simp [hdup, hlive]
  · have hnone : ¬ ∃ e, s.inner (topic, key) = some e ∧ now < e := by
      rintro ⟨e, he, hlt⟩
      exact Int64.not_lt.mpr (hle e he) hlt
    simp only [hfresh, hnone, not_false_iff]

/-- A key with a NUL byte in it is recorded, found again and swept when it has expired. -/
theorem nul_key_recorded_then_swept :
    answers (SledDedupe.serve 1) .empty
        [.check 0 "t" "a\x00b" 10, .check 9 "t" "a\x00b" 10, .sweep 10, .check 10 "t" "a\x00b" 10] =
      [some (.fresh true), some (.fresh false), some (.swept 1), some (.fresh true)] := by
  rw [(dedupe_stores_agree _ (by decide) (by decide) 0).1]
  decide

end Dedupe

end Rifts
