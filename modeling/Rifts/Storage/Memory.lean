import Rifts.Core.Topic

/-! The storage traits the broker is generic over, and their in-memory backends.
A backend that reads the clock takes its value as an argument. -/
namespace Rifts

class OffsetStore (O : Type) where
  alloc : O → String → O × Int64
  head : O → String → Int64

class LogStore (L : Type) where
  append : L → Int64 → String → LogEntry → RetentionPolicy → L
  range : L → String → Int64 → Int64 → List LogEntry

class DedupeStore (D : Type) where
  checkAndRecord : D → Int64 → String → String → Nat → D × Bool

structure StoredSnapshot where
  snapshotId : String
  topic : String
  baseOffset : Int64
  payload : Bytes
  createdAt : Int64
  expiresAt : Option Int64
  deriving DecidableEq, Repr

class SnapshotStore (S : Type) where
  capture : S → Int64 → String → TopicStore → Option Nat → S × Option StoredSnapshot
  get : S → Int64 → String → Option StoredSnapshot

/-- The next offset of each topic that was ever allocated one. -/
structure MemoryOffsetStore where
  inner : String → Option Int64

instance : OffsetStore MemoryOffsetStore where
  alloc s topic :=
    let next := (s.inner topic).getD 1
    (⟨Function.update s.inner topic (some (next + 1))⟩, next)
  head s topic := ((s.inner topic).map (· - 1)).getD 0

/-- The offsets of a topic in the order they are given out. -/
def nthOffset (m : Nat) : Int64 := Int64.ofNat (m + 1)

theorem nthOffset_succ (m : Nat) : nthOffset (m + 1) = nthOffset m + 1 := Int64.ofNat_add (m + 1) 1

theorem toInt_nthOffset {m : Nat} (h : m + 1 < 2 ^ 63) : (nthOffset m).toInt = m + 1 := by
  rw [nthOffset, Int64.toInt_ofNat_of_lt h]
  rfl

/-- The head is one below the next offset, also where none was given out. -/
theorem head_eq (s : MemoryOffsetStore) (topic : String) :
    OffsetStore.head s topic = (s.inner topic).getD 1 - 1 := by
  change ((s.inner topic).map (· - 1)).getD 0 = _
  cases s.inner topic <;> rfl

/-- A counter that has given out `k` offsets has its head at `k`. -/
theorem head_of_next {s : MemoryOffsetStore} {topic : String} {k : Nat}
    (h : (s.inner topic).getD 1 = nthOffset k) : OffsetStore.head s topic = Int64.ofNat k := by
  rw [head_eq, h, nthOffset, Int64.ofNat_add]
  exact Int64.add_sub_cancel _ _

structure MemoryLogStore where
  inner : String → Option (List LogEntry)

/-- The eviction loop of `RetentionPolicy::Size`. -/
def dropOldest (maxBytes : Nat) : Nat → List LogEntry → List LogEntry
  | _, [] => []
  | total, e :: log =>
    if maxBytes < total then dropOldest maxBytes (total - e.payload.length) log else e :: log

/-- What a retention policy leaves of a log whose last entry has just been pushed. -/
def retain (now : Int64) (entry : LogEntry) (log : List LogEntry) :
    RetentionPolicy → List LogEntry
  | .none => []
  | .count n => if n < log.length then log.drop (log.length - n) else log
  | .size maxBytes => dropOldest maxBytes (log.map fun e => e.payload.length).sum log
  | .ttl ms => log.filter fun e => now - e.timestamp ≤ Int64.ofNat ms
  | .latest => log.filter fun e => e.offset == entry.offset
  | .durable => log

instance : LogStore MemoryLogStore where
  append s now topic entry retention :=
    ⟨Function.update s.inner topic
      (some (retain now entry ((s.inner topic).getD [] ++ [entry]) retention))⟩
  range s topic lo hi :=
    ((s.inner topic).getD []).filter fun e => lo ≤ e.offset && e.offset ≤ hi

/-- The time at which each recorded key of a topic expires. -/
structure MemoryDedupeStore where
  inner : String × String → Option Int64

instance : DedupeStore MemoryDedupeStore where
  checkAndRecord s now topic key window :=
    let expires := now + Int64.ofNat window
    match s.inner (topic, key) with
    | some v =>
      if v ≤ now then (⟨Function.update s.inner (topic, key) (some expires)⟩, true) else (s, false)
    | none => (⟨Function.update s.inner (topic, key) (some expires)⟩, true)

/-- The snapshot of a topic that a store makes of an entry of its log. -/
def StoredSnapshot.ofEntry (now : Int64) (topic : String) (ttl : Option Nat) (entry : LogEntry) :
    StoredSnapshot where
  snapshotId := "snap-" ++ toString entry.offset.toInt
  topic := topic
  baseOffset := entry.offset
  payload := entry.payload
  createdAt := now
  expiresAt := ttl.map fun ms => now + Int64.ofNat ms

/-- The snapshot that `capture` stores. -/
def snapshotOf (now : Int64) (topic : String) (store : TopicStore) (ttl : Option Nat) :
    Option StoredSnapshot :=
  ((store.get topic).bind (·.latestSnapshot)).map (.ofEntry now topic ttl)

structure MemorySnapshotStore where
  inner : String → Option StoredSnapshot

instance : SnapshotStore MemorySnapshotStore where
  capture s now topic store ttl :=
    match snapshotOf now topic store ttl with
    | none => (s, none)
    | some stored => (⟨Function.update s.inner topic (some stored)⟩, some stored)
  get s now topic :=
    (s.inner topic).filter fun snap => snap.expiresAt.all fun expires => now ≤ expires

end Rifts
