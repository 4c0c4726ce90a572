import Rifts.Core.Config
import Rifts.Storage.SledLog
import Rifts.Storage.TopicWindow

/-! Durations as the stores use them: whole milliseconds, cut down to an `i64`, and added to a
clock or compared with a difference of clock readings. -/
namespace Rifts

/-- `as_millis() as i64`. -/
def Duration.millis (d : Duration) : Int64 := Int64.ofNat d.asMillis

namespace Durations

/-- The entry under a TTL. -/
def withTtl (e : TopicEntry) (d : Duration) : TopicEntry :=
  { e with profile := { e.profile with retention := .ttl d.asMillis } }

/-- The second duration is nowhere stricter than the first, in calls that read the clock at
`now`. -/
structure NeverStricter (now : Int64) (d d' : Duration) : Prop where
  log : ∀ (s : MemoryLogStore) (t : String) (entry : LogEntry),
    (LogStore.append s now t entry (.ttl d.asMillis)).logOf t ⊆
      (LogStore.append s now t entry (.ttl d'.asMillis)).logOf t
  topic : ∀ (e : TopicEntry) (log : List LogEntry) (entry : LogEntry),
    ((withTtl e d).append log now entry).2 ⊆ ((withTtl e d').append log now entry).2
  dedupe : ∀ (s : MemoryDedupeStore) (t key : String) (later : Int64), now ≤ later →
    (DedupeStore.checkAndRecord s now t key d.asMillis).2 = true →
    (DedupeStore.checkAndRecord (DedupeStore.checkAndRecord s now t key d.asMillis).1 later t key
      d.asMillis).2 = false →
    (DedupeStore.checkAndRecord (DedupeStore.checkAndRecord s now t key d'.asMillis).1 later t key
      d'.asMillis).2 = false
  snapshot : ∀ (s : MemorySnapshotStore) (t : String) (store : TopicStore) (later : Int64),
    (SnapshotStore.capture s now t store (some d.asMillis)).2.isSome →
    (SnapshotStore.get (SnapshotStore.capture s now t store (some d.asMillis)).1 later t).isSome →
    (SnapshotStore.get (SnapshotStore.capture s now t store (some d'.asMillis)).1 later t).isSome

variable {now later : Int64} {t key : String} {d d' : Duration}

theorem mem_append {s : MemoryLogStore} {entry e : LogEntry} :
    e ∈ (LogStore.append s now t entry (.ttl d.asMillis)).logOf t ↔
      e ∈ s.logOf t ++ [entry] ∧ now - e.timestamp ≤ d.millis := by
  rw [MemoryLogStore.logOf_append_self, retain, List.mem_filter, decide_eq_true_eq]
  rfl

theorem mem_topic_append {e : TopicEntry} {log : List LogEntry} {entry x : LogEntry} :
    x ∈ ((withTtl e d).append log now entry).2 ↔
      x ∈ log ++ [TopicEntry.stamp now entry] ∧
        now - x.appendedAt.getD x.timestamp ≤ d.millis := by
  have happend : ((withTtl e d).append log now entry).2 =
      TopicEntry.retain now (TopicEntry.stamp now entry) (log ++ [TopicEntry.stamp now entry])
        (.ttl d.asMillis) := rfl
  rw [happend, TopicEntry.retain, List.mem_filter, decide_eq_true_eq]
  rfl

/-- A key is fresh when it is not recorded, or its record has expired. -/
theorem fresh_iff {s : MemoryDedupeStore} {window : Nat} :
    (DedupeStore.checkAndRecord s now t key window).2 = true ↔
      ∀ v, s.inner (t, key) = some v → v ≤ now := by
  simp only [DedupeStore.checkAndRecord]
  cases s.inner (t, key) with
  | none => simp
  | some v => by_cases hv : v ≤ now <;> simp [hv]

theorem inner_of_fresh {s : MemoryDedupeStore}
    (h : (DedupeStore.checkAndRecord s now t key d.asMillis).2 = true) :
    (DedupeStore.checkAndRecord s now t key d.asMillis).1.inner (t, key) =
      some (now + d.millis) := by
  have hv := fresh_iff.mp h
  simp only [DedupeStore.checkAndRecord]
  cases hs : s.inner (t, key) with
  | none => simp [Duration.millis]
  | some v => simp [hv v hs, Duration.millis]

/-- A key that was fresh is taken for a duplicate until its window is over. -/
theorem duplicate_iff {s : MemoryDedupeStore}
    (hfresh : (DedupeStore.checkAndRecord s now t key d.asMillis).2 = true) :
    (DedupeStore.checkAndRecord (DedupeStore.checkAndRecord s now t key d.asMillis).1 later t key
      d.asMillis).2 = false ↔ later < now + d.millis := by
  rw [← Bool.not_eq_true, fresh_iff, inner_of_fresh hfresh]
  simp

/-- A snapshot that was captured is returned until its time is over. -/
theorem returned_iff {s : MemorySnapshotStore} {store : TopicStore}
    (hcaptured : ((store.get t).bind (·.latestSnapshot)).isSome) :
    (SnapshotStore.get (SnapshotStore.capture s now t store (some d.asMillis)).1 later t).isSome ↔
      later ≤ now + d.millis := by
  obtain ⟨snap, hsnap⟩ := Option.isSome_iff_exists.mp hcaptured
  simp only [SnapshotStore.get, SnapshotStore.capture, snapshotOf, hsnap, Option.map_some]
  simp [StoredSnapshot.ofEntry, Option.isSome_filter, Duration.millis]

theorem captured_iff {s : MemorySnapshotStore} {store : TopicStore} {ttl : Option Nat} :
    (SnapshotStore.capture s now t store ttl).2.isSome ↔
      ((store.get t).bind (·.latestSnapshot)).isSome := by
  simp only [SnapshotStore.capture, snapshotOf]
  cases (store.get t).bind (·.latestSnapshot) <;> simp

/-- A topic whose snapshot is this entry. -/
def storeWith (entry : LogEntry) : TopicStore := TopicStore.new.put "t" ⟨"t", {}, 0, 0, some entry⟩

/-- An entry that is as old as the duration lets it be. -/
def oldest (now : Int64) (d : Duration) : LogEntry :=
  ⟨1, none, "m", "event", none, [], now - d.millis, none⟩

/-- An entry that the first duration just keeps is kept by the second. -/
theorem NeverStricter.millis_le (h : NeverStricter now d d') : d.millis ≤ d'.millis := by
  have hage : now - (oldest now d).timestamp = d.millis := by
    change now - (now - d.millis) = d.millis
    grind
  have hkept : oldest now d ∈ (LogStore.append (⟨fun _ => none⟩ : MemoryLogStore) now "t"
      (oldest now d) (.ttl d.asMillis)).logOf "t" :=
    mem_append.mpr ⟨List.mem_append_right _ (List.mem_singleton_self _), Int64.le_of_eq hage⟩
  have hlonger := (mem_append.mp (h.log _ _ _ hkept)).2
  rwa [hage] at hlonger

/-- A snapshot that is returned for the last time under the first is so under the second. -/
theorem NeverStricter.add_le (h : NeverStricter now d d') :
    now + d.millis ≤ now + d'.millis := by
  have hsnap : (((storeWith (oldest now d)).get "t").bind (·.latestSnapshot)).isSome := rfl
  have hreturned := h.snapshot ⟨fun _ => none⟩ "t" (storeWith (oldest now d)) (now + d.millis)
    (captured_iff.mpr hsnap) ((returned_iff hsnap).mpr (Int64.le_refl _))
  exact (returned_iff hsnap).mp hreturned

theorem neverStricter_of_le (hmillis : d.millis ≤ d'.millis)
    (hsum : now + d.millis ≤ now + d'.millis) : NeverStricter now d d' := by
  constructor
  · intro s t entry e he
    obtain ⟨hmem, hage⟩ := mem_append.mp he
    exact mem_append.mpr ⟨hmem, Int64.le_trans hage hmillis⟩
  · intro e log entry x hx
    obtain ⟨hmem, hage⟩ := mem_topic_append.mp hx
    exact mem_topic_append.mpr ⟨hmem, Int64.le_trans hage hmillis⟩
  · intro s t key later _ hfresh hduplicate
    have hfresh' : (DedupeStore.checkAndRecord s now t key d'.asMillis).2 = true :=
      fresh_iff.mpr (fresh_iff.mp hfresh)
    rw [duplicate_iff hfresh] at hduplicate
    exact (duplicate_iff hfresh').mpr (Int64.lt_of_lt_of_le hduplicate hsum)
  · intro s t store later hcaptured hreturned
    have hsnap := captured_iff.mp hcaptured
    exact (returned_iff hsnap).mpr (Int64.le_trans ((returned_iff hsnap).mp hreturned) hsum)

theorem toInt_add_millis (hmillis : d.asMillis < 2 ^ 63)
    (hsum : now.toInt + d.asMillis < 2 ^ 63) :
    (now + d.millis).toInt = now.toInt + d.asMillis := by
  have hd : d.millis.toInt = d.asMillis := Int64.toInt_ofNat_of_lt hmillis
  have hnow := now.le_toInt
  rw [Int64.toInt_add, hd, Int.bmod_def]
  omega

/-- The second duration is nowhere stricter exactly when it is not the shorter one as an `i64`, nor
after it is added to the clock; so it is not when that sum is an `i64`. -/
theorem longer_durations_never_stricter (now : Int64) (d d' : Duration) :
    (NeverStricter now d d' ↔ d.millis ≤ d'.millis ∧ now + d.millis ≤ now + d'.millis) ∧
    (d.nanos ≤ d'.nanos → d'.asMillis < 2 ^ 63 → now.toInt + d'.asMillis < 2 ^ 63 →
      NeverStricter now d d') := by
  refine ⟨⟨fun h => ⟨h.millis_le, h.add_le⟩, fun h => neverStricter_of_le h.1 h.2⟩, ?_⟩
  intro hle hmillis' hsum'
  have hless : d.asMillis ≤ d'.asMillis := Nat.div_le_div_right hle
  have hmillis : d.asMillis < 2 ^ 63 := by omega
  have hsum : now.toInt + d.asMillis < 2 ^ 63 := by omega
  apply neverStricter_of_le
  · rw [Int64.le_iff_toInt_le, Duration.millis, Duration.millis, Int64.toInt_ofNat_of_lt hmillis,
      Int64.toInt_ofNat_of_lt hmillis']
    exact Int.ofNat_le.mpr hless
  · rw [Int64.le_iff_toInt_le, toInt_add_millis hmillis hsum, toInt_add_millis hmillis' hsum']
    omega

/-- A TTL of no time at all keeps the message that is being published, and one of 2^63 ms does
not. -/
theorem longest_duration_keeps_nothing :
    (LogStore.append (⟨fun _ => none⟩ : MemoryLogStore) 1000 "t"
        (oldest 1000 ⟨0⟩) (.ttl (Duration.ofMillis 0).asMillis)).logOf "t" =
        [oldest 1000 ⟨0⟩] ∧
      (LogStore.append (⟨fun _ => none⟩ : MemoryLogStore) 1000 "t"
        (oldest 1000 ⟨0⟩) (.ttl (Duration.ofMillis (2 ^ 63)).asMillis)).logOf "t" = [] ∧
      ¬ NeverStricter 1000 (.ofMillis 0) (.ofMillis (2 ^ 63)) := by
  refine ⟨by decide, by decide, ?_⟩
  intro h
  have hle := h.millis_le
  revert hle
  decide

end Durations

end Rifts
