import Rifts.Storage.Memory
import Rifts.Storage.Sled
import Rifts.Transition.Service

/-! Offset counters on a sled tree, with a cache that every start of the store rebuilds. -/
namespace Rifts

def MemoryOffsetStore.remove (s : MemoryOffsetStore) (topic : String) : MemoryOffsetStore :=
  ⟨Function.update s.inner topic none⟩

/-- The heads as the tree has them, and the cache over it. -/
structure SledOffsetStore where
  tree : SledTree
  cache : String → Option Int64

namespace SledOffsetStore

open Encode

def readHead (value : Bytes) : Option Int64 :=
  if 8 ≤ value.length then some (BigEndian.toInt64 value) else none

/-- A record goes into the cache under what stands before the separator and "head". -/
def load (lossy : Utf8.Lossy) (cache : String → Option Int64) (x : Bytes × Bytes) :
    String → Option Int64 :=
  match readHead x.2 with
  | some head => Function.update cache (lossy.decode (x.1.take (x.1.length - 5))) (some head)
  | none => cache

def new (lossy : Utf8.Lossy) (tree : SledTree) : SledOffsetStore where
  tree := tree
  cache := ((tree.scanPrefix []).filter fun x => (Utf8.encode "head").isSuffixOf x.1).foldl
    (load lossy) fun _ => none

/-- The head that the tree has for a topic. -/
def storedHead (s : SledOffsetStore) (topic : String) : Int64 :=
  ((s.tree.get (offsetKey topic)).bind readHead).getD 0

def head (s : SledOffsetStore) (topic : String) : Int64 :=
  (s.cache topic).getD (s.storedHead topic)

def alloc (s : SledOffsetStore) (topic : String) : SledOffsetStore × Int64 :=
  let next :=
    match s.cache topic with
    | some h => h + 1
    | none => s.storedHead topic + 1
  (⟨s.tree.put (offsetKey topic) (BigEndian.ofInt64 next),
    Function.update s.cache topic (some next)⟩, next)

def remove (s : SledOffsetStore) (topic : String) : SledOffsetStore :=
  ⟨s.tree.delete (offsetKey topic), Function.update s.cache topic none⟩

instance : OffsetStore SledOffsetStore := ⟨alloc, head⟩

/-- The record of a topic whose next offset is `next`. -/
def record (topic : String) (next : Int64) : Bytes × Bytes :=
  (offsetKey topic, BigEndian.ofInt64 (next - 1))

/-- The tree and the cache both have the heads of the counters in memory. -/
structure Mirrors (s : MemoryOffsetStore) (d : SledOffsetStore) : Prop where
  entries : d.tree.Holds record s.inner
  cache : ∀ t, d.cache t = (s.inner t).map (· - 1)
  names : ∀ t n, s.inner t = some n → Separable t

variable {s : MemoryOffsetStore} {d : SledOffsetStore} {t u : String} {lossy : Utf8.Lossy}

theorem mirrors_empty : Mirrors ⟨fun _ => none⟩ (new lossy .empty) :=
  ⟨by simp [SortedMap.Holds, new, SortedMap.empty], fun _ => rfl, by simp⟩

theorem offsetKey_inj (ht : Separable t) (hu : Separable u) :
    offsetKey t = offsetKey u ↔ t = u := by
  rw [offsetKey, offsetKey, topicKey_inj ht hu, and_iff_left rfl]

/-- A topic without a counter has no record. -/
theorem storedHead_of_none (h : Mirrors s d) (ht : Separable t) (hnone : s.inner t = none) :
    d.storedHead t = 0 := by
  have hget : d.tree.get (offsetKey t) = none := by
    rw [Option.eq_none_iff_forall_ne_some]
    intro v hv
    obtain ⟨u, n, hu, heq⟩ := (h.entries _).mp (SortedMap.mem_entries.mpr hv)
    obtain rfl := (offsetKey_inj ht (h.names u n hu)).mp (congrArg Prod.fst heq)
    cases hnone.symm.trans hu
  rw [storedHead, hget]
  rfl

theorem head_eq (h : Mirrors s d) (ht : Separable t) : d.head t = OffsetStore.head s t := by
  change _ = ((s.inner t).map (· - 1)).getD 0
  rw [head, h.cache t]
  cases hs : s.inner t with
  | none => exact storedHead_of_none h ht hs
  | some n => rfl

/-- A new record beside those of the other topics. -/
theorem mirrors_alloc (h : Mirrors s d) (ht : Separable t) :
    Mirrors (OffsetStore.alloc s t).1 (d.alloc t).1 ∧
      (d.alloc t).2 = (OffsetStore.alloc s t).2 := by
  have hnext : (d.alloc t).2 = (s.inner t).getD 1 := by
    simp only [alloc, h.cache t]
    cases hs : s.inner t with
    | none => simp [storedHead_of_none h ht hs]
    | some n => simp
  have htree : (d.alloc t).1.tree =
      d.tree.put (offsetKey t) (BigEndian.ofInt64 ((s.inner t).getD 1)) := by
    rw [← hnext]
    rfl
  have hcache : (d.alloc t).1.cache = Function.update d.cache t (some ((s.inner t).getD 1)) := by
    rw [← hnext]
    rfl
  have hinner : (OffsetStore.alloc s t).1.inner =
      Function.update s.inner t (some ((s.inner t).getD 1 + 1)) := rfl
  have hrecord : record t ((s.inner t).getD 1 + 1) =
      (offsetKey t, BigEndian.ofInt64 ((s.inner t).getD 1)) := by
    simp [record]
  refine ⟨⟨?_, ?_, ?_⟩, hnext⟩
  · refine h.entries.update (· = offsetKey t)
      (fun u n hu => offsetKey_inj (h.names u n hu) ht) ?_
    intro x
    rw [htree, SortedMap.mem_put, hrecord]
  · intro u
    rw [hcache, hinner]
    by_cases hut : u = t
    · subst hut
      simp
    · simp [hut, h.cache u]
  · intro u n hu
    rw [hinner] at hu
    by_cases hut : u = t
    · exact hut ▸ ht
    · exact h.names u n ((Function.update_of_ne hut ..).symm.trans hu)

theorem mirrors_remove (h : Mirrors s d) (ht : Separable t) :
    Mirrors (s.remove t) (d.remove t) := by
  refine ⟨?_, ?_, ?_⟩
  · refine h.entries.erase (· = offsetKey t)
      (fun u n hu => offsetKey_inj (h.names u n hu) ht) ?_
    intro x
    simp [remove, SortedMap.delete, SortedMap.filter]
  · intro u
    by_cases hut : u = t
    · subst hut
      simp [remove, MemoryOffsetStore.remove]
    · simp [remove, MemoryOffsetStore.remove, hut, h.cache u]
  · intro u n hu
    have hut : u ≠ t := by
      rintro rfl
      cases (Function.update_self ..).symm.trans hu
    exact h.names u n ((Function.update_of_ne hut ..).symm.trans hu)

/-- What is loaded from a record is the topic's own head. -/
theorem load_record (cache : String → Option Int64) (n : Int64) :
    load lossy cache (record t n) = Function.update cache t (some (n - 1)) := by
  have htake : (record t n).1.take ((record t n).1.length - 5) = Utf8.encode t := by
    have hlength : (sep :: Utf8.encode "head").length = 5 := by decide
    rw [record, offsetKey, topicKey, List.length_append, hlength, Nat.add_sub_cancel,
      List.take_left']
    rfl
  have hread : readHead (record t n).2 = some (n - 1) := by simp [readHead, record]
  rw [load, hread]
  simp only [htake, lossy.decode_encode]

theorem foldl_load_of_ne {l : List (Bytes × Bytes)} (h : ∀ x ∈ l, ∃ u n, u ≠ t ∧ x = record u n)
    (cache : String → Option Int64) : l.foldl (load lossy) cache t = cache t := by
  induction l generalizing cache with
  | nil => rfl
  | cons x l ih =>
    obtain ⟨u, n, hut, rfl⟩ := h x List.mem_cons_self
    rw [List.foldl_cons, ih fun y hy => h y (List.mem_cons_of_mem _ hy), load_record]
    exact Function.update_of_ne (Ne.symm hut) ..

theorem foldl_load_of_mem {l : List (Bytes × Bytes)} {n : Int64}
    (h : ∀ x ∈ l, ∃ u m, s.inner u = some m ∧ x = record u m) (ht : s.inner t = some n)
    (cache : String → Option Int64) (hmem : record t n ∈ l ∨ cache t = some (n - 1)) :
    l.foldl (load lossy) cache t = some (n - 1) := by
  induction l generalizing cache with
  | nil => exact hmem.resolve_left List.not_mem_nil
  | cons x l ih =>
    obtain ⟨u, m, hu, rfl⟩ := h x List.mem_cons_self
    refine ih (fun y hy => h y (List.mem_cons_of_mem _ hy)) _ ?_
    rw [load_record]
    by_cases hut : t = u
    · subst hut
      cases ht.symm.trans hu
      exact .inr (Function.update_self ..)
    · rw [Function.update_of_ne hut]
      rcases hmem with hmem | hcache
      · rcases List.mem_cons.mp hmem with heq | hmem
        · have hkey : offsetKey t = offsetKey u := congrArg Prod.fst heq
          rw [offsetKey, offsetKey, topicKey, topicKey, List.append_left_inj,
            Utf8.encode_inj] at hkey
          exact absurd hkey hut
        · exact .inl hmem
      · exact .inr hcache

/-- A restart finds every head. -/
theorem mirrors_new (h : Mirrors s d) : Mirrors s (new lossy d.tree) := by
  refine ⟨h.entries, ?_, h.names⟩
  have hloaded : ∀ x ∈ (d.tree.scanPrefix []).filter
      (fun x => (Utf8.encode "head").isSuffixOf x.1),
      ∃ u n, s.inner u = some n ∧ x = record u n := by
    intro x hx
    exact (h.entries x).mp (SortedMap.mem_scan.mp (List.mem_filter.mp hx).1).1
  intro t
  cases ht : s.inner t with
  | none =>
    refine foldl_load_of_ne ?_ _
    intro x hx
    obtain ⟨u, n, hu, rfl⟩ := hloaded x hx
    refine ⟨u, n, ?_, rfl⟩
    rintro rfl
    cases ht.symm.trans hu
  | some n =>
    refine foldl_load_of_mem hloaded ht _ (.inl ?_)
    have hsuffix : (Utf8.encode "head").isSuffixOf (record t n).1 = true := by
      rw [List.isSuffixOf_iff_suffix]
      exact ⟨Utf8.encode t ++ [sep], by simp [record, offsetKey, topicKey]⟩
    refine List.mem_filter.mpr ⟨SortedMap.mem_scan.mpr ⟨?_, rfl⟩, hsuffix⟩
    exact (h.entries _).mpr ⟨t, n, ht, rfl⟩

end SledOffsetStore

/-- A call on an offset store, or a restart of the process. -/
inductive OffsetCall
  | alloc (topic : String)
  | head (topic : String)
  | remove (topic : String)
  | restart
  deriving DecidableEq, Repr

def OffsetCall.topic : OffsetCall → Option String
  | alloc topic | head topic | remove topic => some topic
  | restart => none

/-- The store in memory, whose process is never restarted. -/
def MemoryOffsetStore.serve (s : MemoryOffsetStore) : OffsetCall → MemoryOffsetStore × Option Int64
  | .alloc topic => ((OffsetStore.alloc s topic).1, some (OffsetStore.alloc s topic).2)
  | .head topic => (s, some (OffsetStore.head s topic))
  | .remove topic => (s.remove topic, none)
  | .restart => (s, none)

def SledOffsetStore.serve (lossy : Utf8.Lossy) (s : SledOffsetStore) :
    OffsetCall → SledOffsetStore × Option Int64
  | .alloc topic => ((s.alloc topic).1, some (s.alloc topic).2)
  | .head topic => (s, some (s.head topic))
  | .remove topic => (s.remove topic, none)
  | .restart => (.new lossy s.tree, none)

namespace SledOffsetStore

open Transition Encode

variable {lossy : Utf8.Lossy}

theorem mirrors_serve {s : MemoryOffsetStore} {d : SledOffsetStore} {c : OffsetCall}
    (h : Mirrors s d) (hc : ∀ t ∈ c.topic, validateName t = .ok ()) :
    Mirrors (s.serve c).1 (d.serve lossy c).1 ∧ (d.serve lossy c).2 = (s.serve c).2 := by
  cases c with
  | alloc t =>
    obtain ⟨hm, hnext⟩ := mirrors_alloc h (separable_of_validateName (hc t rfl))
    exact ⟨hm, congrArg some hnext⟩
  | head t => exact ⟨h, congrArg some (head_eq h (separable_of_validateName (hc t rfl)))⟩
  | remove t => exact ⟨mirrors_remove h (separable_of_validateName (hc t rfl)), rfl⟩
  | restart => exact ⟨mirrors_new h, rfl⟩

/-- With restarts anywhere among the calls the store answers as one in memory that is
never restarted. -/
theorem answers_eq (lossy : Utf8.Lossy) (calls : List OffsetCall)
    (hcalls : ∀ c ∈ calls, ∀ t ∈ c.topic, validateName t = .ok ()) :
    answers (serve lossy) (new lossy .empty) calls =
      answers MemoryOffsetStore.serve ⟨fun _ => none⟩ calls := by
  have hok : Admits MemoryOffsetStore.serve (fun _ c => ∀ t ∈ c.topic, validateName t = .ok ())
      ⟨fun _ => none⟩ calls := admits_of_forall hcalls
  exact answers_eq_of_simulation (fun _ _ c h hc => mirrors_serve (c := c) h hc) hok mirrors_empty

end SledOffsetStore

end Rifts
