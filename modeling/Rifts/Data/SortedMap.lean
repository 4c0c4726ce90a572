import Mathlib.Data.List.Nodup
import Mathlib.Data.List.Pairwise
import Mathlib.Logic.Function.Basic
import Mathlib.Order.Lattice

/-! Finite maps that list their entries in the order of the keys. -/

/-- A map as the list of its entries, in strictly ascending order of keys. -/
structure SortedMap (κ α : Type*) [LinearOrder κ] where
  entries : List (κ × α)
  sorted : entries.Pairwise fun x y => x.1 < y.1

namespace SortedMap

variable {κ α ι : Type*} [LinearOrder κ] {m : SortedMap κ α} {k k' : κ} {v w : α}
  {p : κ → Bool} {keep : κ × α → Bool}

def empty : SortedMap κ α := ⟨[], .nil⟩

def get (m : SortedMap κ α) (k : κ) : Option α :=
  (m.entries.find? fun x => x.1 = k).map Prod.snd

def filter (m : SortedMap κ α) (keep : κ × α → Bool) : SortedMap κ α :=
  ⟨m.entries.filter keep, m.sorted.filter _⟩

def delete (m : SortedMap κ α) (k : κ) : SortedMap κ α := m.filter fun x => x.1 ≠ k

/-- The entries below the key, the new entry, and the entries above the key. -/
def put (m : SortedMap κ α) (k : κ) (v : α) : SortedMap κ α where
  entries := m.entries.filter (fun x => x.1 < k) ++ (k, v) :: m.entries.filter fun x => k < x.1
  sorted := by
    refine List.pairwise_append.mpr ⟨m.sorted.filter _, ?_, ?_⟩
    · refine List.pairwise_cons.mpr ⟨fun x hx => ?_, m.sorted.filter _⟩
      simpa using (List.mem_filter.mp hx).2
    · intro x hx y hy
      have hxk : x.1 < k := by simpa using (List.mem_filter.mp hx).2
      rcases List.mem_cons.mp hy with rfl | hy
      · exact hxk
      · exact hxk.trans (by simpa using (List.mem_filter.mp hy).2)

/-- The entries whose keys satisfy a test, in the order of the keys. -/
def scan (m : SortedMap κ α) (p : κ → Bool) : List (κ × α) := m.entries.filter fun x => p x.1

theorem nodup_keys : (m.entries.map Prod.fst).Nodup :=
  List.pairwise_map.mpr (m.sorted.imp fun h => h.ne)

theorem mem_entries : (k, v) ∈ m.entries ↔ m.get k = some v := by
  constructor
  · intro h
    cases hf : m.entries.find? fun x => x.1 = k with
    | none => simpa using List.find?_eq_none.mp hf (k, v) h
    | some x =>
      have hx : x.1 = k := by simpa using List.find?_some hf
      have heq : x = (k, v) :=
        List.inj_on_of_nodup_map nodup_keys (List.mem_of_find?_eq_some hf) h hx
      simp [get, hf, heq]
  · intro h
    obtain ⟨x, hf, rfl⟩ := Option.map_eq_some_iff.mp h
    have hx : x.1 = k := by simpa using List.find?_some hf
    rw [← hx]
    exact List.mem_of_find?_eq_some hf

theorem mem_scan {x : κ × α} : x ∈ m.scan p ↔ x ∈ m.entries ∧ p x.1 = true := List.mem_filter

/-- Two maps agree at a key when they have the same entries there. -/
theorem get_congr {m' : SortedMap κ α} (h : ∀ v, (k, v) ∈ m.entries ↔ (k, v) ∈ m'.entries) :
    m.get k = m'.get k := by
  apply Option.ext
  intro v
  rw [← mem_entries, ← mem_entries]
  exact h v

@[simp] theorem get_empty : (empty : SortedMap κ α).get k = none := rfl

@[simp] theorem get_put_self : (m.put k v).get k = some v := by
  rw [← mem_entries]
  exact List.mem_append_right _ List.mem_cons_self

@[simp] theorem get_put_of_ne (h : k' ≠ k) : (m.put k v).get k' = m.get k' := by
  apply get_congr
  intro w
  simp only [put, List.mem_append, List.mem_cons, List.mem_filter, Prod.mk.injEq, h, false_and,
    false_or, decide_eq_true_eq, ← and_or_left]
  exact and_iff_left (lt_or_gt_of_ne h)

theorem get_filter : (m.filter keep).get k = (m.get k).filter fun v => keep (k, v) := by
  apply Option.ext
  intro v
  rw [← mem_entries, Option.filter_eq_some_iff, ← mem_entries]
  exact List.mem_filter

theorem filter_filter {keep' : κ × α → Bool} :
    (m.filter keep).filter keep' = m.filter fun x => keep x && keep' x := by
  simp only [filter, List.filter_filter, Bool.and_comm]

theorem filter_congr {keep' : κ × α → Bool} (h : ∀ x ∈ m.entries, keep x = keep' x) :
    m.filter keep = m.filter keep' := by
  simp only [filter, mk.injEq]
  exact List.filter_congr h

/-- Keys deleted one after the other. -/
theorem foldl_delete (ks : List κ) (m : SortedMap κ α) :
    ks.foldl delete m = m.filter fun x => x.1 ∉ ks := by
  induction ks generalizing m with
  | nil => simp [filter]
  | cons k ks ih =>
    rw [List.foldl_cons, ih, delete, filter_filter]
    apply filter_congr
    intro x _
    simp [not_or]

/-- The same, whatever test for membership is used. -/
theorem exists_foldl_delete (ks : List κ) (m : SortedMap κ α) :
    ∃ keep, ks.foldl delete m = m.filter keep ∧ ∀ x, keep x = true ↔ x.1 ∉ ks :=
  ⟨_, foldl_delete ks m, fun _ => decide_eq_true_iff⟩

theorem scan_filter : (m.filter keep).scan p = (m.scan p).filter keep := by
  simp only [scan, filter, List.filter_filter, Bool.and_comm]

/-- Deleting the keys of some entries of a scan leaves the others. -/
theorem foldl_delete_scan {q : κ × α → Bool} :
    (((m.scan p).filter q).map Prod.fst).foldl delete m = m.filter fun x => !(q x && p x.1) := by
  rw [foldl_delete]
  apply filter_congr
  intro x hx
  have hq : x.1 ∈ ((m.scan p).filter q).map Prod.fst ↔ (q x && p x.1) = true := by
    rw [Bool.and_eq_true]
    constructor
    · intro h
      obtain ⟨y, hy, hxy⟩ := List.mem_map.mp h
      obtain ⟨hy, hqy⟩ := List.mem_filter.mp hy
      obtain ⟨hy, hpy⟩ := mem_scan.mp hy
      obtain rfl : y = x := List.inj_on_of_nodup_map nodup_keys hy hx hxy
      exact ⟨hqy, hpy⟩
    · rintro ⟨hqx, hpx⟩
      exact List.mem_map_of_mem (List.mem_filter.mpr ⟨mem_scan.mpr ⟨hx, hpx⟩, hqx⟩)
  cases hqx : q x && p x.1 <;> simp [hq, hqx]

/-- A scan that the keys of the deleted entries do not meet is not changed. -/
theorem scan_foldl_delete_of_disjoint {ks : List κ} (h : ∀ k ∈ ks, p k = false) :
    (ks.foldl delete m).scan p = m.scan p := by
  rw [foldl_delete, scan_filter, List.filter_eq_self]
  intro x hx
  have hp := (mem_scan.mp hx).2
  simp only [decide_eq_true_eq]
  intro hmem
  rw [h x.1 hmem] at hp
  cases hp

theorem sorted_scan : (m.scan p).Pairwise fun x y => x.1 < y.1 := m.sorted.filter _

/-- Ascending lists of the same entries are equal. -/
theorem eq_of_mem_iff {l l' : List (κ × α)} (hl : l.Pairwise fun x y => x.1 < y.1)
    (hl' : l'.Pairwise fun x y => x.1 < y.1) (h : ∀ x, x ∈ l ↔ x ∈ l') : l = l' := by
  have hne {l : List (κ × α)} (hl : l.Pairwise fun x y => x.1 < y.1) : l.Nodup :=
    hl.imp fun hlt heq => absurd (congrArg Prod.fst heq) hlt.ne
  refine List.Perm.eq_of_pairwise (fun x y _ _ hxy hyx => absurd hxy hyx.not_gt) hl hl' ?_
  exact (List.perm_ext_iff_of_nodup (hne hl) (hne hl')).mpr h

theorem mem_put {x : κ × α} : x ∈ (m.put k v).entries ↔ x = (k, v) ∨ x ∈ m.entries ∧ x.1 ≠ k := by
  simp only [put, List.mem_append, List.mem_cons, List.mem_filter, decide_eq_true_eq,
    lt_or_lt_iff_ne.symm]
  tauto

theorem scan_put_of_not (h : p k = false) : (m.put k v).scan p = m.scan p := by
  refine eq_of_mem_iff sorted_scan sorted_scan ?_
  intro x
  rw [mem_scan, mem_scan, mem_put]
  constructor
  · rintro ⟨rfl | ⟨hx, -⟩, hp⟩
    · simp [h] at hp
    · exact ⟨hx, hp⟩
  · rintro ⟨hx, hp⟩
    refine ⟨.inr ⟨hx, ?_⟩, hp⟩
    rintro rfl
    simp [h] at hp

/-- A key above all keys of a scan is listed last. -/
theorem scan_put_last (hk : p k = true) (h : ∀ x ∈ m.scan p, x.1 < k) :
    (m.put k v).scan p = m.scan p ++ [(k, v)] := by
  refine eq_of_mem_iff sorted_scan ?_ ?_
  · refine List.pairwise_append.mpr ⟨sorted_scan, List.pairwise_singleton .., ?_⟩
    intro x hx y hy
    rw [List.mem_singleton.mp hy]
    exact h x hx
  · intro x
    rw [mem_scan, mem_put, List.mem_append, mem_scan, List.mem_singleton]
    constructor
    · rintro ⟨rfl | ⟨hx, -⟩, hp⟩
      · exact .inr rfl
      · exact .inl ⟨hx, hp⟩
    · rintro (⟨hx, hp⟩ | rfl)
      · exact ⟨.inr ⟨hx, (h x (mem_scan.mpr ⟨hx, hp⟩)).ne⟩, hp⟩
      · exact ⟨.inl rfl, hk⟩

/-- The entries are those of any list without repetitions that has the same ones. -/
theorem entries_perm {l : List (κ × α)} (hn : l.Nodup) (h : ∀ k v, (k, v) ∈ l ↔ m.get k = some v) :
    m.entries.Perm l := by
  have hm : m.entries.Nodup := m.sorted.imp fun hlt heq => absurd (congrArg Prod.fst heq) hlt.ne
  refine (List.perm_ext_iff_of_nodup hm hn).mpr ?_
  rintro ⟨k, v⟩
  rw [mem_entries, h]

/-- A map is what it says of each key. -/
theorem ext_get {m' : SortedMap κ α} (h : ∀ k, m.get k = m'.get k) : m = m' := by
  have hentries : m.entries = m'.entries := by
    refine eq_of_mem_iff m.sorted m'.sorted ?_
    rintro ⟨k, v⟩
    rw [mem_entries, mem_entries, h]
  cases m
  cases m'
  congr

theorem eq_empty (h : m.entries = []) : m = empty := by
  refine ext_get fun k => ?_
  rw [get, h]
  rfl

@[simp] theorem get_delete_self : (m.delete k).get k = none := by
  simp [delete, get_filter]

@[simp] theorem get_delete_of_ne (h : k' ≠ k) : (m.delete k).get k' = m.get k' := by
  cases hg : m.get k' <;> simp [delete, get_filter, h, hg]

theorem delete_put : (m.put k v).delete k = m.delete k := by
  refine ext_get fun k' => ?_
  by_cases hk : k' = k
  · subst hk
    simp
  · simp [hk]

theorem delete_of_get_none (h : m.get k = none) : m.delete k = m := by
  refine ext_get fun k' => ?_
  by_cases hk : k' = k
  · subst hk
    simp [h]
  · simp [hk]

/-- The entry of a key, and the entries of the others. -/
theorem perm_delete (h : m.get k = some v) : m.entries.Perm ((k, v) :: (m.delete k).entries) := by
  have hout : ∀ w, (k, w) ∉ (m.delete k).entries := by
    intro w hw
    rw [mem_entries, get_delete_self] at hw
    cases hw
  refine entries_perm (List.nodup_cons.mpr ⟨hout v, List.Nodup.of_map _ nodup_keys⟩) ?_
  intro k' w
  by_cases hk : k' = k
  · subst hk
    simp [hout, h, eq_comm]
  · simp [hk, mem_entries]

theorem put_perm_delete : (m.put k v).entries.Perm ((k, v) :: (m.delete k).entries) := by
  rw [← delete_put]
  exact perm_delete get_put_self

/-- A new key is one more entry. -/
theorem put_perm (h : m.get k = none) : (m.put k v).entries.Perm ((k, v) :: m.entries) := by
  have hperm := put_perm_delete (m := m) (k := k) (v := v)
  rwa [delete_of_get_none h] at hperm

theorem length_put_of_none (h : m.get k = none) :
    (m.put k v).entries.length = m.entries.length + 1 :=
  (put_perm h).length_eq

theorem length_delete_of_some (h : m.get k = some v) :
    m.entries.length = (m.delete k).entries.length + 1 :=
  (perm_delete h).length_eq

/-- A key that is put again is not counted twice. -/
theorem length_put_of_some (h : m.get k = some w) :
    (m.put k v).entries.length = m.entries.length := by
  rw [put_perm_delete.length_eq, length_delete_of_some h]
  rfl

theorem length_filter_le : (m.filter keep).entries.length ≤ m.entries.length :=
  List.length_filter_le ..

/-- A loop that puts a value for every key of a list. -/
theorem get_foldl_put {f : α → α} {l : List (κ × α)} (hl : (l.map Prod.fst).Nodup) :
    (l.foldl (fun g x => g.put x.1 (f x.2)) m).get k =
      ((l.find? fun x => x.1 = k).map fun x => f x.2).or (m.get k) := by
  induction l generalizing m with
  | nil => rfl
  | cons x l ih =>
    obtain ⟨hx, hl⟩ := List.nodup_cons.mp hl
    rw [List.foldl_cons, ih hl, List.find?_cons]
    by_cases hk : x.1 = k
    · have hnone : (l.find? fun y => y.1 = k) = none := by
        refine List.find?_eq_none.mpr fun y hy => ?_
        rw [decide_eq_true_eq, ← hk]
        intro hyx
        exact hx (hyx ▸ List.mem_map_of_mem hy)
      simp [hk, hnone]
    · simp [hk, Ne.symm hk]

/-- A loop that changes every value in place. -/
theorem get_foldl_put_entries {f : α → α} :
    (m.entries.foldl (fun g x => g.put x.1 (f x.2)) m).get k = (m.get k).map f := by
  rw [get_foldl_put nodup_keys, get]
  cases m.entries.find? fun x => x.1 = k <;> rfl

theorem length_foldl_put {f : α → α} {l : List (κ × α)} (hl : ∀ x ∈ l, m.get x.1 ≠ none) :
    (l.foldl (fun g x => g.put x.1 (f x.2)) m).entries.length = m.entries.length := by
  induction l generalizing m with
  | nil => rfl
  | cons x l ih =>
    obtain ⟨w, hw⟩ := Option.ne_none_iff_exists'.mp (hl x List.mem_cons_self)
    rw [List.foldl_cons, ih, length_put_of_some hw]
    intro y hy
    by_cases hyx : y.1 = x.1
    · simp [hyx]
    · rw [get_put_of_ne hyx]
      exact hl y (List.mem_cons_of_mem x hy)

section Records

variable {β : Type*} [DecidableEq ι] {m' : SortedMap κ α} {r : ι → β → κ × α} {f : ι → Option β}
  {i : ι} {b : β}

/-- The entries are the records of a partial function: one for each of its values. -/
def Holds (m : SortedMap κ α) (r : ι → β → κ × α) (f : ι → Option β) : Prop :=
  ∀ x, x ∈ m.entries ↔ ∃ i b, f i = some b ∧ x = r i b

/-- A new record takes the place of the one that its index had. -/
theorem Holds.update (h : m.Holds r f) (own : κ → Prop)
    (hown : ∀ j b, f j = some b → (own (r j b).1 ↔ j = i))
    (hmem : ∀ x, x ∈ m'.entries ↔ x = r i b ∨ x ∈ m.entries ∧ ¬own x.1) :
    m'.Holds r (Function.update f i (some b)) := by
  intro x
  rw [hmem, h x]
  constructor
  · rintro (rfl | ⟨⟨j, c, hj, rfl⟩, hout⟩)
    · exact ⟨i, b, Function.update_self .., rfl⟩
    · have hji : j ≠ i := fun hji => hout ((hown j c hj).mpr hji)
      exact ⟨j, c, (Function.update_of_ne hji ..).trans hj, rfl⟩
  · rintro ⟨j, c, hj, rfl⟩
    by_cases hji : j = i
    · subst hji
      cases (Function.update_self ..).symm.trans hj
      exact .inl rfl
    · have hj : f j = some c := (Function.update_of_ne hji ..).symm.trans hj
      exact .inr ⟨⟨j, c, hj, rfl⟩, fun hin => hji ((hown j c hj).mp hin)⟩

theorem Holds.erase (h : m.Holds r f) (own : κ → Prop)
    (hown : ∀ j b, f j = some b → (own (r j b).1 ↔ j = i))
    (hmem : ∀ x, x ∈ m'.entries ↔ x ∈ m.entries ∧ ¬own x.1) :
    m'.Holds r (Function.update f i none) := by
  intro x
  rw [hmem, h x]
  constructor
  · rintro ⟨⟨j, c, hj, rfl⟩, hout⟩
    have hji : j ≠ i := fun hji => hout ((hown j c hj).mpr hji)
    exact ⟨j, c, (Function.update_of_ne hji ..).trans hj, rfl⟩
  · rintro ⟨j, c, hj, rfl⟩
    have hji : j ≠ i := by
      rintro rfl
      cases (Function.update_self ..).symm.trans hj
    have hj : f j = some c := (Function.update_of_ne hji ..).symm.trans hj
    exact ⟨⟨j, c, hj, rfl⟩, fun hin => hji ((hown j c hj).mp hin)⟩

end Records

end SortedMap
