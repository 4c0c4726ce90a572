import Mathlib.Algebra.GroupWithZero.Nat
import Mathlib.Data.List.DropRight
import Mathlib.Data.Multiset.AddSub
import Mathlib.Data.Nat.Find

/-! The end of a list, cut by length or by weight. -/
namespace Suffix

variable {α : Type*} {l : List α} {x : α} {w : α → Nat} {m n k : Nat}

theorem length_rtake : (l.rtake n).length = min n l.length := by
  rw [List.rtake, List.length_drop]
  omega

theorem rtake_suffix : l.rtake n <:+ l := List.drop_suffix ..

theorem rtake_of_length_le (h : l.length ≤ n) : l.rtake n = l := by
  rw [List.rtake, Nat.sub_eq_zero_of_le h, List.drop_zero]

theorem rtake_rtake (h : k ≤ n) : (l.rtake n).rtake k = l.rtake k := by
  rw [List.rtake, length_rtake, List.rtake, List.drop_drop, List.rtake]
  congr 1
  omega

theorem rtake_cons (h : k ≤ l.length) : (x :: l).rtake k = l.rtake k := by
  rw [List.rtake, List.rtake, List.length_cons, Nat.succ_sub h, List.drop_succ_cons]

/-- A list that is cut after every addition is as if it was cut once. -/
theorem rtake_concat_rtake : (l.rtake n ++ [x]).rtake n = (l ++ [x]).rtake n := by
  cases n with
  | zero => rw [List.rtake_zero, List.rtake_zero]
  | succ n =>
    rw [List.rtake_concat_succ, List.rtake_concat_succ, rtake_rtake (Nat.le_succ n)]

def weight (w : α → Nat) (l : List α) : Nat := (l.map w).sum

@[simp] theorem weight_nil : weight w [] = 0 := rfl

theorem weight_concat : weight w (l ++ [x]) = weight w l + w x := by
  simp [weight]

/-- How many of the last elements weigh at most `m` together. -/
def fit (w : α → Nat) (m : Nat) (l : List α) : Nat :=
  Nat.findGreatest (fun k => weight w (l.rtake k) ≤ m) l.length

theorem fit_le : fit w m l ≤ l.length := Nat.findGreatest_le ..

theorem le_fit (hk : k ≤ l.length) (h : weight w (l.rtake k) ≤ m) : k ≤ fit w m l :=
  Nat.le_findGreatest hk h

theorem weight_fit : weight w (l.rtake (fit w m l)) ≤ m := by
  have hzero : weight w (l.rtake 0) ≤ m := by
    rw [List.rtake_zero, weight_nil]
    exact Nat.zero_le m
  exact Nat.findGreatest_spec (P := fun k => weight w (l.rtake k) ≤ m) (Nat.zero_le _) hzero

theorem fit_of_weight_le (h : weight w l ≤ m) : fit w m l = l.length := by
  refine Nat.le_antisymm fit_le (le_fit (Nat.le_refl _) ?_)
  rwa [rtake_of_length_le (Nat.le_refl _)]

theorem map_rtake {β : Type*} {f : α → β} : (l.rtake n).map f = (l.map f).rtake n := by
  rw [List.rtake, List.rtake, List.map_drop, List.length_map]

theorem fit_map {β : Type*} {f : β → α} {l : List β} :
    fit w m (l.map f) = fit (fun y => w (f y)) m l := by
  simp only [fit, ← map_rtake, weight, List.map_map, List.length_map]
  rfl

/-- A first element that makes the list too heavy is never part of the cut. -/
theorem fit_cons_of_lt (h : m < weight w (x :: l)) : fit w m (x :: l) = fit w m l := by
  have hlt : fit w m (x :: l) ≤ l.length := by
    by_contra hgt
    have hall : (x :: l).rtake (fit w m (x :: l)) = x :: l :=
      rtake_of_length_le (by rw [List.length_cons]; omega)
    have hw : weight w ((x :: l).rtake (fit w m (x :: l))) ≤ m := weight_fit
    rw [hall] at hw
    omega
  apply Nat.le_antisymm
  · refine le_fit hlt ?_
    rw [← rtake_cons (x := x) hlt]
    exact weight_fit
  · refine le_fit (fit_le.trans (Nat.le_succ _)) ?_
    rw [rtake_cons fit_le]
    exact weight_fit

/-- Cutting by weight after every addition is cutting once, too. -/
theorem fit_concat_rtake : fit w m (l.rtake (fit w m l) ++ [x]) = fit w m (l ++ [x]) := by
  have hcut : l.rtake (fit w m l) ++ [x] = (l ++ [x]).rtake (fit w m l + 1) :=
    (List.rtake_concat_succ ..).symm
  have hlen : (l.rtake (fit w m l) ++ [x]).length = fit w m l + 1 := by
    rw [List.length_append, length_rtake, Nat.min_eq_left fit_le, List.length_singleton]
  apply Nat.le_antisymm
  · have hle : fit w m (l.rtake (fit w m l) ++ [x]) ≤ fit w m l + 1 := hlen ▸ fit_le
    have hw : weight w ((l.rtake (fit w m l) ++ [x]).rtake (fit w m (l.rtake (fit w m l) ++ [x]))) ≤
      m := weight_fit
    refine le_fit ?_ ?_
    · rw [List.length_append, List.length_singleton]
      exact hle.trans (Nat.succ_le_succ fit_le)
    · rw [hcut] at hle hw ⊢
      rwa [rtake_rtake hle] at hw
  · have hle : fit w m (l ++ [x]) ≤ fit w m l + 1 := by
      cases hk : fit w m (l ++ [x]) with
      | zero => exact Nat.zero_le _
      | succ k =>
        have hw : weight w ((l ++ [x]).rtake (fit w m (l ++ [x]))) ≤ m := weight_fit
        have hlen' : fit w m (l ++ [x]) ≤ (l ++ [x]).length := fit_le
        rw [hk, List.rtake_concat_succ, weight_concat] at hw
        rw [hk, List.length_append, List.length_singleton] at hlen'
        exact Nat.succ_le_succ (le_fit (by omega) (by omega))
    refine le_fit (hlen ▸ hle) ?_
    rw [hcut, rtake_rtake hle]
    exact weight_fit

/-- In a list numbered from 1 on, the elements from some place on are those with
the higher numbers. -/
theorem drop_eq_filter {number : α → Int} {j : Nat}
    (h : l.map number = (List.range l.length).map fun i : Nat => (i : Int) + 1) :
    l.drop j = l.filter fun x => j < number x := by
  have hnumber : ∀ i (hi : i < l.length), number l[i] = i + 1 := by
    intro i hi
    have hmap := congrArg (·[i]?) h
    simpa [hi] using hmap
  have hfirst : (l.take j).filter (fun x => j < number x) = [] := by
    rw [List.filter_eq_nil_iff]
    intro x hx
    obtain ⟨i, hi, rfl⟩ := List.mem_take_iff_getElem.mp hx
    rw [hnumber i (by omega), decide_eq_true_eq]
    omega
  have hlast : (l.drop j).filter (fun x => j < number x) = l.drop j := by
    rw [List.filter_eq_self]
    intro x hx
    obtain ⟨i, hi, rfl⟩ := List.mem_drop_iff_getElem.mp hx
    rw [hnumber (j + i) (by omega), decide_eq_true_eq]
    omega
  conv_rhs => rw [← List.take_append_drop j l, List.filter_append, hfirst, hlast]
  rfl

/-- The list holds the `n` largest of the elements, or all if there are fewer. -/
structure Highest [LT α] [DecidableEq α] (n : Nat) (l : List α) (all : Multiset α) : Prop where
  le : (l : Multiset α) ≤ all
  length : l.length = min n all.card
  above : ∀ x ∈ l, ∀ y ∈ all - l, y < x

theorem highest_rtake [LT α] [DecidableEq α] (h : l.Pairwise (· < ·)) :
    Highest n (l.rtake n) l := by
  have hsplit : l.take (l.length - n) ++ l.rtake n = l := List.take_append_drop ..
  refine ⟨Multiset.coe_le.mpr rtake_suffix.sublist.subperm, length_rtake, ?_⟩
  intro x hx y hy
  have hrest : (l : Multiset α) - (l.rtake n : Multiset α) =
      (l.take (l.length - n) : Multiset α) := by
    nth_rewrite 1 [← hsplit]
    rw [← Multiset.coe_add, Multiset.add_sub_cancel_right]
  rw [hrest, Multiset.mem_coe] at hy
  rw [← hsplit, List.pairwise_append] at h
  exact h.2.2 y hy x hx

end Suffix
