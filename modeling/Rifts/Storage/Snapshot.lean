import Rifts.Storage.Memory
import Rifts.Storage.Sled
import Rifts.Transition.Service

/-! Topics with their own logs, and the two local stores of their snapshots. -/
namespace Rifts

/-- What `TopicEntry::append` leaves of the log; durable topics keep a bounded window. -/
def TopicEntry.retain (now : Int64) (entry : LogEntry) (log : List LogEntry) :
    RetentionPolicy → List LogEntry
  | .ttl ms => log.filter fun e => now - e.appendedAt.getD e.timestamp ≤ Int64.ofNat ms
  | .durable => if 10000 < log.length then log.drop (log.length - 10000) else log
  | policy => Rifts.retain now entry log policy

/-- The entry and its log after an append. -/
def TopicEntry.append (e : TopicEntry) (log : List LogEntry) (now : Int64) (entry : LogEntry) :
    TopicEntry × List LogEntry :=
  let entry := { entry with
    timestamp := if entry.timestamp = 0 then now else entry.timestamp
    appendedAt := some now }
  (if e.profile.snapshotEnabled then { e with latestSnapshot := some entry } else e,
    TopicEntry.retain now entry (log ++ [entry]) e.profile.retention)

/-- A topic store whose entries have their logs. -/
structure TopicSpace where
  inner : String → Option (TopicEntry × List LogEntry)

namespace TopicSpace

def store (s : TopicSpace) : TopicStore := ⟨fun t => (s.inner t).map Prod.fst⟩

/-- An append to a topic, which is created when it is not there. -/
def append (s : TopicSpace) (now : Int64) (topic : String) (profile : TopicProfile)
    (entry : LogEntry) : TopicSpace :=
  match s.store.getOrCreate topic profile with
  | .error _ => s
  | .ok (_, e) =>
    let log := ((s.inner topic).map Prod.snd).getD []
    ⟨Function.update s.inner topic (some (e.append log now entry))⟩

end TopicSpace

/-- The in-memory store with a list of the topics it holds, which `list` goes over. -/
structure SnapshotTable extends MemorySnapshotStore where
  keys : List String
  nodup : keys.Nodup
  mem_keys : ∀ t, t ∈ keys ↔ (inner t).isSome

namespace SnapshotTable

def new : SnapshotTable := ⟨⟨fun _ => none⟩, [], .nil, by simp⟩

def insert (s : SnapshotTable) (topic : String) (snap : StoredSnapshot) : SnapshotTable :=
  ⟨⟨Function.update s.inner topic (some snap)⟩, s.keys.insert topic, s.nodup.insert, fun t => by
    rw [List.mem_insert_iff, s.mem_keys]
    by_cases ht : t = topic <;> simp [ht]⟩

def capture (s : SnapshotTable) (now : Int64) (topic : String) (store : TopicStore)
    (ttl : Option Nat) : SnapshotTable × Option StoredSnapshot :=
  match snapshotOf now topic store ttl with
  | none => (s, none)
  | some stored => (s.insert topic stored, some stored)

/-- The table is the in-memory store. -/
theorem toMemorySnapshotStore_capture (s : SnapshotTable) (now : Int64) (topic : String)
    (store : TopicStore) (ttl : Option Nat) :
    SnapshotStore.capture s.toMemorySnapshotStore now topic store ttl =
      ((s.capture now topic store ttl).1.toMemorySnapshotStore,
        (s.capture now topic store ttl).2) := by
  simp only [SnapshotStore.capture, capture]
  cases snapshotOf now topic store ttl <;> rfl

instance : SnapshotStore SnapshotTable :=
  ⟨capture, fun s => SnapshotStore.get s.toMemorySnapshotStore⟩

def remove (s : SnapshotTable) (topic : String) : SnapshotTable :=
  ⟨⟨Function.update s.inner topic none⟩, s.keys.erase topic, s.nodup.erase topic, fun t => by
    rw [s.nodup.mem_erase_iff, s.mem_keys]
    by_cases ht : t = topic <;> simp [ht]⟩

def list (s : SnapshotTable) : List StoredSnapshot := s.keys.filterMap s.inner

end SnapshotTable

namespace SledSnapshot

open Encode

-- how `serde_json` writes a snapshot
variable (J : Codec StoredSnapshot)

def capture (tree : SledTree) (now : Int64) (topic : String) (store : TopicStore)
    (ttl : Option Nat) : SledTree × Option StoredSnapshot :=
  match snapshotOf now topic store ttl with
  | none => (tree, none)
  | some stored =>
    let key := snapshotKey topic stored.snapshotId
    let tree : SledTree := tree.put key (J.encode stored)
    let others := (tree.scanPrefix (snapshotPrefix topic)).filter fun x => x.1 ≠ key
    ((others.map Prod.fst).foldl SortedMap.delete tree, some stored)

def unexpired (now : Int64) (snap : StoredSnapshot) : Bool :=
  snap.expiresAt.all fun expires => now ≤ expires

/-- Of two snapshots the one that was created later; the first of two at one time. -/
def later : Option StoredSnapshot → StoredSnapshot → Option StoredSnapshot
  | none, snap => some snap
  | some prev, snap => if prev.createdAt < snap.createdAt then some snap else some prev

def get (tree : SledTree) (now : Int64) (topic : String) : Option StoredSnapshot :=
  (((tree.scanPrefix (snapshotPrefix topic)).filterMap fun x => J.decode x.2).filter
    (unexpired now)).foldl later none

def remove (tree : SledTree) (topic : String) : SledTree :=
  tree.deletePrefix (snapshotPrefix topic)

def list (tree : SledTree) : List StoredSnapshot :=
  (tree.scanPrefix []).filterMap fun x => J.decode x.2

variable {J} {s : SnapshotTable} {tree : SledTree} {t : String} {now : Int64}
  {snap : StoredSnapshot}

/-- A snapshot as it stands in the tree. -/
def record (J : Codec StoredSnapshot) (topic : String) (snap : StoredSnapshot) : Bytes × Bytes :=
  (snapshotKey topic snap.snapshotId, J.encode snap)

/-- The tree has one record for each snapshot in the table, and no others. -/
structure Mirrors (J : Codec StoredSnapshot) (s : SnapshotTable) (tree : SledTree) : Prop where
  entries : tree.Holds (record J) s.inner
  names : ∀ t snap, s.inner t = some snap → Separable t

theorem mirrors_new : Mirrors J .new .empty :=
  ⟨by simp [SortedMap.Holds, SnapshotTable.new, SortedMap.empty], by simp [SnapshotTable.new]⟩

/-- What a capture leaves in the tree: the new record and those of the other topics. -/
theorem mem_capture {key value : Bytes} (hkey : (snapshotPrefix t).isPrefixOf key = true)
    (x : Bytes × Bytes) :
    x ∈ ((((SledTree.scanPrefix (tree.put key value) (snapshotPrefix t)).filter
        fun x => x.1 ≠ key).map Prod.fst).foldl SortedMap.delete (tree.put key value)).entries ↔
      x = (key, value) ∨ x ∈ tree.entries ∧ ¬(snapshotPrefix t).isPrefixOf x.1 = true := by
  rw [SledTree.scanPrefix, SortedMap.foldl_delete_scan]
  simp only [SortedMap.filter, List.mem_filter, SortedMap.mem_put]
  constructor
  · rintro ⟨rfl | ⟨hx, hne⟩, hkeep⟩
    · exact .inl rfl
    · have hout : (snapshotPrefix t).isPrefixOf x.1 = false := by simpa [hne] using hkeep
      exact .inr ⟨hx, Bool.eq_false_iff.mp hout⟩
  · rintro (rfl | ⟨hx, hout⟩)
    · exact ⟨.inl rfl, by simp⟩
    · have hne : x.1 ≠ key := fun heq => hout (heq ▸ hkey)
      have hout : (snapshotPrefix t).isPrefixOf x.1 = false := Bool.eq_false_iff.mpr hout
      exact ⟨.inr ⟨hx, hne⟩, by simp [hout]⟩

/-- A key stands under the prefix of the topic whose snapshot it is for. -/
theorem isPrefixOf_record (h : Mirrors J s tree) (ht : Separable t) (u : String)
    (snap : StoredSnapshot) (hu : s.inner u = some snap) :
    (snapshotPrefix t).isPrefixOf (record J u snap).1 = true ↔ u = t :=
  (isPrefixOf_topicKey ht (h.names u snap hu)).trans eq_comm

theorem mirrors_insert (h : Mirrors J s tree) (ht : Separable t) :
    Mirrors J (s.insert t snap) ((((SledTree.scanPrefix
      (tree.put (record J t snap).1 (record J t snap).2) (snapshotPrefix t)).filter
        fun x => x.1 ≠ (record J t snap).1).map Prod.fst).foldl SortedMap.delete
          (tree.put (record J t snap).1 (record J t snap).2)) := by
  constructor
  · exact h.entries.update (fun k => (snapshotPrefix t).isPrefixOf k = true)
      (isPrefixOf_record h ht) (mem_capture isPrefixOf_topicKey_self)
  · intro u snap' hu
    by_cases hut : u = t
    · exact hut ▸ ht
    · exact h.names u snap' ((Function.update_of_ne hut ..).symm.trans hu)

theorem mirrors_remove (h : Mirrors J s tree) (ht : Separable t) :
    Mirrors J (s.remove t) (remove tree t) := by
  constructor
  · refine h.entries.erase (fun k => (snapshotPrefix t).isPrefixOf k = true)
      (isPrefixOf_record h ht) ?_
    intro x
    rw [remove, SledTree.deletePrefix_eq, SortedMap.filter, List.mem_filter, Bool.not_eq_true',
      Bool.eq_false_iff]
  · intro u snap hu
    have hut : u ≠ t := by
      rintro rfl
      cases (Function.update_self ..).symm.trans hu
    exact h.names u snap ((Function.update_of_ne hut ..).symm.trans hu)

/-- The records under the prefix of a topic: at most one. -/
theorem scanPrefix_eq (h : Mirrors J s tree) (ht : Separable t) :
    tree.scanPrefix (snapshotPrefix t) = ((s.inner t).map (record J t)).toList := by
  refine SortedMap.eq_of_mem_iff SortedMap.sorted_scan ?_ ?_
  · cases s.inner t <;> simp
  · intro x
    rw [SledTree.scanPrefix, SortedMap.mem_scan, h.entries x]
    simp only [Option.mem_toList, Option.map_eq_some_iff]
    constructor
    · rintro ⟨⟨u, snap, hu, rfl⟩, hin⟩
      obtain rfl := (isPrefixOf_topicKey ht (h.names u snap hu)).mp hin
      exact ⟨snap, hu, rfl⟩
    · rintro ⟨snap, hsnap, rfl⟩
      exact ⟨⟨t, snap, hsnap, rfl⟩, isPrefixOf_topicKey_self⟩

theorem get_eq (h : Mirrors J s tree) (ht : Separable t) :
    get J tree now t = SnapshotStore.get s now t := by
  change _ = (s.inner t).filter (unexpired now)
  rw [get, scanPrefix_eq h ht]
  cases s.inner t with
  | none => rfl
  | some snap =>
    simp only [Option.map_some, Option.toList_some, record, List.filterMap_cons,
      List.filterMap_nil, J.decode_encode, Option.filter_some]
    cases hlive : unexpired now snap <;> simp [hlive, later]

/-- Both stores list the same snapshots, each in its own order. -/
theorem list_perm (h : Mirrors J s tree) : (list J tree).Perm s.list := by
  have hnodup : (s.keys.filterMap fun t => (s.inner t).map (record J t)).Nodup := by
    refine List.Nodup.filterMap ?_ s.nodup
    intro t u x hx hx'
    obtain ⟨snap, hsnap, rfl⟩ := Option.map_eq_some_iff.mp hx
    obtain ⟨snap', hsnap', heq⟩ := Option.map_eq_some_iff.mp hx'
    have hkey := congrArg Prod.fst heq
    exact ((topicKey_inj (h.names u snap' hsnap') (h.names t snap hsnap)).mp hkey).1.symm
  have hperm : tree.entries.Perm (s.keys.filterMap fun t => (s.inner t).map (record J t)) := by
    refine SortedMap.entries_perm hnodup ?_
    intro k v
    rw [← SortedMap.mem_entries, h.entries (k, v), List.mem_filterMap]
    constructor
    · rintro ⟨t, -, hx⟩
      obtain ⟨snap, hsnap, hrec⟩ := Option.map_eq_some_iff.mp hx
      exact ⟨t, snap, hsnap, hrec.symm⟩
    · rintro ⟨t, snap, hsnap, hrec⟩
      exact ⟨t, (s.mem_keys t).mpr (by simp [hsnap]), by simp [hsnap, hrec]⟩
  have hread : (s.keys.filterMap fun t => (s.inner t).map (record J t)).filterMap
      (fun x => J.decode x.2) = s.list := by
    rw [List.filterMap_filterMap, SnapshotTable.list]
    apply List.filterMap_congr
    intro t _
    cases s.inner t <;> simp [record, J.decode_encode]
  have hall : tree.scanPrefix [] = tree.entries := by simp [SledTree.scanPrefix, SortedMap.scan]
  rw [list, hall, ← hread]
  exact hperm.filterMap _

end SledSnapshot

/-- A call on a snapshot store, or an append to one of the topics it captures. -/
inductive SnapshotCall
  | append (now : Int64) (topic : String) (profile : TopicProfile) (entry : LogEntry)
  | capture (now : Int64) (topic : String) (ttl : Option Nat)
  | get (now : Int64) (topic : String)
  | remove (topic : String)
  | list
  deriving DecidableEq, Repr

inductive SnapshotAnswer
  | done
  | snapshot (found : Option StoredSnapshot)
  | listed (found : Multiset StoredSnapshot)
  deriving DecidableEq

def SnapshotCall.topic : SnapshotCall → Option String
  | append _ topic .. | capture _ topic _ | get _ topic | remove topic => some topic
  | list => none

def SnapshotTable.serve : TopicSpace × SnapshotTable → SnapshotCall →
    (TopicSpace × SnapshotTable) × SnapshotAnswer
  | (topics, s), .append now topic profile entry =>
    ((topics.append now topic profile entry, s), .done)
  | (topics, s), .capture now topic ttl =>
    ((topics, (s.capture now topic topics.store ttl).1),
      .snapshot (s.capture now topic topics.store ttl).2)
  | (topics, s), .get now topic => ((topics, s), .snapshot (SnapshotStore.get s now topic))
  | (topics, s), .remove topic => ((topics, s.remove topic), .done)
  | (topics, s), .list => ((topics, s), .listed s.list)

def SledSnapshot.serve (J : Codec StoredSnapshot) : TopicSpace × SledTree → SnapshotCall →
    (TopicSpace × SledTree) × SnapshotAnswer
  | (topics, tree), .append now topic profile entry =>
    ((topics.append now topic profile entry, tree), .done)
  | (topics, tree), .capture now topic ttl =>
    ((topics, (capture J tree now topic topics.store ttl).1),
      .snapshot (capture J tree now topic topics.store ttl).2)
  | (topics, tree), .get now topic => ((topics, tree), .snapshot (get J tree now topic))
  | (topics, tree), .remove topic => ((topics, remove tree topic), .done)
  | (topics, tree), .list => ((topics, tree), .listed (list J tree))

namespace SledSnapshot

open Transition Encode

variable {J : Codec StoredSnapshot}

/-- The same topics, and the snapshots of the one store in the other. -/
def Agree (J : Codec StoredSnapshot) (m : TopicSpace × SnapshotTable)
    (d : TopicSpace × SledTree) : Prop :=
  d.1 = m.1 ∧ Mirrors J m.2 d.2

theorem agree_serve {m : TopicSpace × SnapshotTable} {d : TopicSpace × SledTree}
    {c : SnapshotCall} (h : Agree J m d) (hc : ∀ t ∈ c.topic, validateName t = .ok ()) :
    Agree J (SnapshotTable.serve m c).1 (serve J d c).1 ∧
      (serve J d c).2 = (SnapshotTable.serve m c).2 := by
  obtain ⟨topics, s⟩ := m
  obtain ⟨topics', tree⟩ := d
  obtain ⟨rfl, h⟩ := h
  cases c with
  | append now t profile entry => exact ⟨⟨rfl, h⟩, rfl⟩
  | capture now t ttl =>
    have ht := separable_of_validateName (hc t rfl)
    simp only [serve, SnapshotTable.serve, capture, SnapshotTable.capture]
    cases snapshotOf now t topics'.store ttl with
    | none => exact ⟨⟨rfl, h⟩, rfl⟩
    | some snap => exact ⟨⟨rfl, mirrors_insert h ht⟩, rfl⟩
  | get now t =>
    have ht := separable_of_validateName (hc t rfl)
    exact ⟨⟨rfl, h⟩, congrArg SnapshotAnswer.snapshot (get_eq h ht)⟩
  | remove t =>
    have ht := separable_of_validateName (hc t rfl)
    exact ⟨⟨rfl, mirrors_remove h ht⟩, rfl⟩
  | list => exact ⟨⟨rfl, h⟩, congrArg SnapshotAnswer.listed (Multiset.coe_eq_coe.mpr (list_perm h))⟩

/-- The two stores give the same answers to any calls, and the tree never has two
records of one topic. -/
theorem snapshot_stores_agree (J : Codec StoredSnapshot) (topics : TopicSpace)
    (calls : List SnapshotCall) (hcalls : ∀ c ∈ calls, ∀ t ∈ c.topic, validateName t = .ok ()) :
    answers (serve J) (topics, .empty) calls =
        answers SnapshotTable.serve (topics, .new) calls ∧
      ∀ t, validateName t = .ok () →
        ((after (serve J) (topics, .empty) calls).2.scanPrefix (snapshotPrefix t)).length ≤ 1 := by
  have hok : Admits SnapshotTable.serve (fun _ c => ∀ t ∈ c.topic, validateName t = .ok ())
      (topics, .new) calls := admits_of_forall hcalls
  have hnew : Agree J (topics, .new) (topics, .empty) := ⟨rfl, mirrors_new⟩
  constructor
  · exact answers_eq_of_simulation (fun _ _ c h hc => agree_serve (c := c) h hc) hok hnew
  · intro t ht
    have hagree := after_of_simulation (R := Agree J)
      (fun _ _ c h hc => (agree_serve (c := c) h hc).1) hok hnew
    rw [scanPrefix_eq hagree.2 (separable_of_validateName ht)]
    cases (after SnapshotTable.serve (topics, .new) calls).2.inner t <;> simp

/-- A way to write snapshots that runs. -/
def fieldCodec : Codec StoredSnapshot := .ofFields
  (fun s => [Utf8.encode s.snapshotId, Utf8.encode s.topic, BigEndian.ofInt64 s.baseOffset,
    s.payload, BigEndian.ofInt64 s.createdAt, Codec.optional BigEndian.ofInt64 s.expiresAt])
  (fun
    | [snapshotId, topic, baseOffset, payload, createdAt, expiresAt] => do
      some ⟨← Utf8.decode snapshotId, ← Utf8.decode topic, BigEndian.toInt64 baseOffset, payload,
        BigEndian.toInt64 createdAt,
        ← Codec.unoptional (fun bs => some (BigEndian.toInt64 bs)) expiresAt⟩
    | _ => none)
  (fun s => by simp)

/-- Two captures at one offset, one that expires, and two topics where one name starts
with the other. -/
theorem recapture_and_expiry :
    answers (serve fieldCodec) (⟨fun _ => none⟩, .empty)
        [.capture 0 "a" none, .append 1 "a" {} ⟨5, none, "m", "event", none, [7], 0, none⟩,
          .capture 2 "a" none, .capture 3 "a" (some 10), .get 13 "a", .get 14 "a",
          .append 4 "a/b" {} ⟨1, none, "n", "event", none, [8], 0, none⟩, .capture 15 "a/b" none,
          .remove "a", .list] =
      [.snapshot none, .done, .snapshot (some ⟨"snap-5", "a", 5, [7], 2, none⟩),
        .snapshot (some ⟨"snap-5", "a", 5, [7], 3, some 13⟩),
        .snapshot (some ⟨"snap-5", "a", 5, [7], 3, some 13⟩), .snapshot none, .done,
        .snapshot (some ⟨"snap-1", "a/b", 1, [8], 15, none⟩), .done,
        .listed {⟨"snap-1", "a/b", 1, [8], 15, none⟩}] := by
  rw [(snapshot_stores_agree fieldCodec ⟨fun _ => none⟩ _ (by decide)).1]
  decide

end SledSnapshot

end Rifts
