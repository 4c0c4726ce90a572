import Rifts.Storage.SledLog

/-! What a broker can rely on of its log store: which entries it holds, and what a TTL makes of
them. -/
namespace Rifts

open Encode

/-- The contents of a log store. `subtracted` are the times that an append under a TTL subtracts
from its clock reading. -/
class LogContents (L : Type) [LogStore L] where
  entries : L → String → List LogEntry
  time : LogEntry → Int64
  subtracted : L → String → LogEntry → List Int64
  /-- An entry at this offset takes no other's place. -/
  vacant : L → String → Int64 → Bool
  time_of_unstamped : ∀ {e : LogEntry}, e.appendedAt = none → time e = e.timestamp
  mem_subtracted : ∀ {s : L} {t : String} {entry : LogEntry} {x : Int64},
    x ∈ subtracted s t entry → ∃ e, (e ∈ entries s t ∨ e = entry) ∧ x = time e
  time_mem_subtracted : ∀ {s : L} {t : String} {entry : LogEntry}, time entry ∈ subtracted s t entry
  entries_append_of_ne : ∀ {s : L} {now : Int64} {t u : String} {entry : LogEntry}
    {policy : RetentionPolicy}, Separable t → Separable u → u ≠ t →
    entries (LogStore.append s now t entry policy) u = entries s u
  mem_append : ∀ {s : L} {now : Int64} {t : String} {entry e : LogEntry}
    {policy : RetentionPolicy}, e ∈ entries (LogStore.append s now t entry policy) t →
    e ∈ entries s t ∨ e = entry
  mem_append_ttl : ∀ {s : L} {now : Int64} {t : String} {entry e : LogEntry} {ms : Nat},
    vacant s t entry.offset = true →
    (e ∈ entries (LogStore.append s now t entry (.ttl ms)) t ↔
      (e ∈ entries s t ∨ e = entry) ∧ now - time e ≤ Int64.ofNat ms)

instance : LogContents MemoryLogStore where
  entries := MemoryLogStore.logOf
  time e := e.timestamp
  subtracted s t entry := (s.logOf t ++ [entry]).map LogEntry.timestamp
  vacant _ _ _ := true
  time_of_unstamped _ := rfl
  mem_subtracted h := by
    obtain ⟨e, he, rfl⟩ := List.mem_map.mp h
    exact ⟨e, by simpa using he, rfl⟩
  time_mem_subtracted :=
    List.mem_map_of_mem (List.mem_append_right _ (List.mem_singleton_self _))
  entries_append_of_ne _ _ h := MemoryLogStore.logOf_append_of_ne h
  mem_append h := by
    rw [MemoryLogStore.logOf_append_self] at h
    simpa using retain_sublist.subset h
  mem_append_ttl _ := by
    rw [MemoryLogStore.logOf_append_self, retain, List.mem_filter, decide_eq_true_eq]
    simp

namespace SledLog

variable {J : Codec LogEntry} {tree : SledTree} {now : Int64} {t : String} {entry e : LogEntry}
  {policy : RetentionPolicy} {ms : Nat} {x : Bytes × Bytes}

theorem mem_entriesOf : e ∈ entriesOf J tree t ↔
    ∃ x ∈ tree.entries, (logPrefix t).isPrefixOf x.1 = true ∧ J.decode x.2 = some e := by
  simp only [entriesOf, List.mem_filterMap, SledTree.scanPrefix, SortedMap.mem_scan, and_assoc]

/-- The entry that is put in the tree is read back under its topic. -/
theorem mem_entriesOf_put :
    e ∈ entriesOf J (tree.put (logKey t entry.offset) (J.encode entry)) t ↔
      e = entry ∨ ∃ x ∈ tree.entries, x.1 ≠ logKey t entry.offset ∧
        (logPrefix t).isPrefixOf x.1 = true ∧ J.decode x.2 = some e := by
  have hkey : (logPrefix t).isPrefixOf (logKey t entry.offset) = true := isPrefixOf_topicKey_self
  rw [mem_entriesOf]
  constructor
  · rintro ⟨x, hx, hp, hd⟩
    rcases SortedMap.mem_put.mp hx with rfl | ⟨hx, hne⟩
    · rw [J.decode_encode] at hd
      exact .inl (Option.some.inj hd).symm
    · exact .inr ⟨x, hx, hne, hp, hd⟩
  · rintro (rfl | ⟨x, hx, hne, hp, hd⟩)
    · exact ⟨_, SortedMap.mem_put.mpr (.inl rfl), hkey, J.decode_encode e⟩
    · exact ⟨x, SortedMap.mem_put.mpr (.inr ⟨hx, hne⟩), hp, hd⟩

theorem of_mem_entriesOf_put
    (h : e ∈ entriesOf J (tree.put (logKey t entry.offset) (J.encode entry)) t) :
    e ∈ entriesOf J tree t ∨ e = entry := by
  rcases mem_entriesOf_put.mp h with rfl | ⟨x, hx, -, hp, hd⟩
  · exact .inr rfl
  · exact .inl (mem_entriesOf.mpr ⟨x, hx, hp, hd⟩)

/-- With no entry at the offset before, nothing is lost. -/
theorem mem_entriesOf_put_of_vacant (h : tree.get (logKey t entry.offset) = none) :
    e ∈ entriesOf J (tree.put (logKey t entry.offset) (J.encode entry)) t ↔
      e ∈ entriesOf J tree t ∨ e = entry := by
  refine ⟨of_mem_entriesOf_put, ?_⟩
  rintro (he | rfl)
  · obtain ⟨x, hx, hp, hd⟩ := mem_entriesOf.mp he
    refine mem_entriesOf_put.mpr (.inr ⟨x, hx, ?_, hp, hd⟩)
    rintro heq
    have hget : tree.get x.1 = some x.2 := SortedMap.mem_entries.mp hx
    rw [heq, h] at hget
    cases hget
  · exact mem_entriesOf_put.mpr (.inl rfl)

theorem entries_append_subset (hx : x ∈ (append J tree now t entry policy).entries) :
    x ∈ (tree.put (logKey t entry.offset) (J.encode entry)).entries := by
  rw [append, SortedMap.foldl_delete] at hx
  exact List.mem_of_mem_filter hx

/-- A TTL deletes the stale entries of the topic. -/
theorem append_ttl : append J tree now t entry (.ttl ms) =
    (tree.put (logKey t entry.offset) (J.encode entry)).filter fun x =>
      !(stale J now ms x && (logPrefix t).isPrefixOf x.1) :=
  SortedMap.foldl_delete_scan

theorem mem_entriesOf_append_ttl : e ∈ entriesOf J (append J tree now t entry (.ttl ms)) t ↔
    e ∈ entriesOf J (tree.put (logKey t entry.offset) (J.encode entry)) t ∧
      now - e.appendedAt.getD e.timestamp ≤ Int64.ofNat ms := by
  have hstale {x : Bytes × Bytes} (hp : (logPrefix t).isPrefixOf x.1 = true)
      (hd : J.decode x.2 = some e) :
      (!(stale J now ms x && (logPrefix t).isPrefixOf x.1)) = true ↔
        now - e.appendedAt.getD e.timestamp ≤ Int64.ofNat ms := by
    simp [stale, hd, hp]
  rw [mem_entriesOf, mem_entriesOf, append_ttl]
  constructor
  · rintro ⟨x, hx, hp, hd⟩
    obtain ⟨hx, hkeep⟩ := List.mem_filter.mp hx
    exact ⟨⟨x, hx, hp, hd⟩, (hstale hp hd).mp hkeep⟩
  · rintro ⟨⟨x, hx, hp, hd⟩, hage⟩
    exact ⟨x, List.mem_filter.mpr ⟨hx, (hstale hp hd).mpr hage⟩, hp, hd⟩

end SledLog

instance (J : Codec LogEntry) : LogContents (SledLogStore J) where
  entries s := SledLog.entriesOf J s.tree
  time e := e.appendedAt.getD e.timestamp
  subtracted s t entry :=
    (SledLog.entriesOf J (s.tree.put (logKey t entry.offset) (J.encode entry)) t).map fun e =>
      e.appendedAt.getD e.timestamp
  vacant s t offset := (s.tree.get (logKey t offset)).isNone
  time_of_unstamped h := by rw [h, Option.getD_none]
  mem_subtracted h := by
    obtain ⟨e, he, rfl⟩ := List.mem_map.mp h
    exact ⟨e, SledLog.of_mem_entriesOf_put he, rfl⟩
  time_mem_subtracted {_ _ entry} :=
    List.mem_map.mpr ⟨entry, SledLog.mem_entriesOf_put.mpr (.inl rfl), rfl⟩
  entries_append_of_ne ht hu h := by
    simp only [SledLog.entriesOf, LogStore.append, SledLog.scan_append_of_ne ht hu h]
  mem_append h := by
    obtain ⟨x, hx, hp, hd⟩ := SledLog.mem_entriesOf.mp h
    exact SledLog.of_mem_entriesOf_put
      (SledLog.mem_entriesOf.mpr ⟨x, SledLog.entries_append_subset hx, hp, hd⟩)
  mem_append_ttl h := by
    rw [← SledLog.mem_entriesOf_put_of_vacant (Option.isNone_iff_eq_none.mp h)]
    exact SledLog.mem_entriesOf_append_ttl

end Rifts
