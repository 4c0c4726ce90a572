import Mathlib.Data.List.DropRight
import Mathlib.Data.List.Nodup
import Mathlib.Data.Prod.Lex

/-! Sets whose members are ranked by a score, with removal by rank. -/

/-- Members with their scores, in ascending order of scores; members with the same
score are in their own order. -/
structure ScoredSet (σ α : Type*) [LinearOrder σ] [LinearOrder α] where
  items : List (σ × α)
  nodup : (items.map Prod.snd).Nodup
  ranked : items.Pairwise fun x y => toLex x < toLex y

namespace ScoredSet

variable {σ α : Type*} [LinearOrder σ] [LinearOrder α] {s : ScoredSet σ α} {score : σ} {a : α}
  {stop : ℤ}

def empty : ScoredSet σ α := ⟨[], .nil, .nil⟩

def sublist (s : ScoredSet σ α) (items : List (σ × α)) (h : List.Sublist items s.items) :
    ScoredSet σ α :=
  ⟨items, s.nodup.sublist (h.map _), s.ranked.sublist h⟩

/-- The new member and the others, in their order. -/
def placed (items : List (σ × α)) (x : σ × α) : List (σ × α) :=
  items.filter (fun y => toLex y < toLex x) ++ x :: items.filter fun y => toLex x < toLex y

theorem placed_perm {items : List (σ × α)} {x : σ × α} (h : x ∉ items) :
    (placed items x).Perm (x :: items) := by
  have hsplit : (items.filter fun y => toLex x < toLex y) =
      items.filter fun y => !decide (toLex y < toLex x) := by
    apply List.filter_congr
    intro y hy
    have hne : toLex x ≠ toLex y := fun heq => h (toLex.injective heq ▸ hy)
    rw [← decide_not, decide_eq_decide, not_lt]
    exact ⟨fun hlt => hlt.le, fun hle => lt_of_le_of_ne hle hne⟩
  rw [placed, hsplit]
  exact List.perm_middle.trans ((List.filter_append_perm _ _).cons x)

/-- The items without a member. -/
def without (s : ScoredSet σ α) (a : α) : List (σ × α) := s.items.filter fun y => y.2 ≠ a

theorem notMem_without (s : ScoredSet σ α) (score : σ) (a : α) : (score, a) ∉ s.without a := by
  intro h
  simpa using (List.mem_filter.mp h).2

/-- A member gets a score, whether or not it had one before. -/
def insert (s : ScoredSet σ α) (score : σ) (a : α) : ScoredSet σ α where
  items := placed (s.without a) (score, a)
  nodup := by
    have hperm := (placed_perm (notMem_without s score a)).map Prod.snd
    refine hperm.nodup_iff.mpr (List.nodup_cons.mpr ⟨?_, ?_⟩)
    · intro hmem
      obtain ⟨y, hy, hya⟩ := List.mem_map.mp hmem
      simpa [hya] using (List.mem_filter.mp hy).2
    · exact s.nodup.sublist (List.filter_sublist.map _)
  ranked := by
    have hrest := s.ranked.sublist (List.filter_sublist (p := fun y => y.2 ≠ a))
    refine List.pairwise_append.mpr ⟨hrest.filter _, ?_, ?_⟩
    · refine List.pairwise_cons.mpr ⟨fun y hy => ?_, hrest.filter _⟩
      simpa using (List.mem_filter.mp hy).2
    · intro y hy z hz
      have hlt : toLex y < toLex (score, a) := by simpa using (List.mem_filter.mp hy).2
      rcases List.mem_cons.mp hz with rfl | hz
      · exact hlt
      · exact hlt.trans (by simpa using (List.mem_filter.mp hz).2)

theorem without_of_notMem (h : a ∉ s.items.map Prod.snd) : s.without a = s.items := by
  rw [without, List.filter_eq_self]
  intro y hy
  simp only [ne_eq, decide_eq_true_eq]
  rintro rfl
  exact h (List.mem_map_of_mem hy)

/-- A new member is one more item. -/
theorem insert_perm (h : a ∉ s.items.map Prod.snd) :
    (s.insert score a).items.Perm ((score, a) :: s.items) := by
  refine (placed_perm (notMem_without s score a)).trans ?_
  rw [without_of_notMem h]

/-- A new member with the highest score comes last. -/
theorem items_insert_of_lt (h : a ∉ s.items.map Prod.snd) (hlt : ∀ x ∈ s.items, x.1 < score) :
    (s.insert score a).items = s.items ++ [(score, a)] := by
  have hlex : ∀ x ∈ s.items, toLex x < toLex (score, a) := fun x hx =>
    Prod.Lex.toLex_lt_toLex.mpr (.inl (hlt x hx))
  have hbelow : s.items.filter (fun x => toLex x < toLex (score, a)) = s.items := by
    simpa [List.filter_eq_self] using hlex
  have habove : s.items.filter (fun x => toLex (score, a) < toLex x) = [] := by
    simpa [List.filter_eq_nil_iff] using fun x y hx => (hlex (x, y) hx).le
  change placed (s.without a) (score, a) = _
  rw [without_of_notMem h, placed, hbelow, habove]

/-- A rank, where negative ones count from the end. -/
def rank (s : ScoredSet σ α) (i : ℤ) : ℤ := if i < 0 then s.items.length + i else i

/-- The items from one rank to another, both included, are removed. -/
def removeRange (s : ScoredSet σ α) (start stop : ℤ) : ScoredSet σ α :=
  let lo := (s.rank start).toNat
  let hi := (s.rank stop + 1).toNat
  s.sublist (s.items.take lo ++ s.items.drop (max lo hi)) <| by
    have hdrop := List.drop_sublist_drop_left s.items (Nat.le_max_left lo hi)
    have happend := (List.Sublist.refl (s.items.take lo)).append hdrop
    rwa [List.take_append_drop] at happend

/-- Removal from the lowest rank on leaves the items of the highest ranks. -/
theorem items_removeRange_zero :
    (s.removeRange 0 stop).items = s.items.drop (s.rank stop + 1).toNat := by
  simp [removeRange, sublist, rank]

/-- A negative end keeps so many of the highest ranks. -/
theorem items_removeRange_neg {n : ℕ} (h : stop = -((n : ℤ) + 1)) :
    (s.removeRange 0 stop).items = s.items.rtake n := by
  have hneg : stop < 0 := by omega
  rw [items_removeRange_zero, rank, if_pos hneg, List.rtake]
  congr 1
  omega

/-- A negative end keeps the items of the ranks above it. -/
theorem length_removeRange_neg {n : ℕ} (h : stop = -((n : ℤ) + 1)) :
    (s.removeRange 0 stop).items.length ≤ n := by
  have hneg : stop < 0 := by omega
  rw [items_removeRange_zero, List.length_drop, rank, if_pos hneg]
  omega

end ScoredSet
