import Mathlib.Algebra.Group.Nat.Defs
import Mathlib.Order.Basic

/-! Atomic machine words: the weak compare-exchange, and counters that only grow. -/
namespace Atomic

/-- `compare_exchange_weak` on a cell: the new value, or the one that was seen instead. It may
fail for no reason, and then reports the value it was given. -/
def compareExchangeWeak {α : Type*} [DecidableEq α] (cell prev next : α) (spurious : Bool) :
    Except α α :=
  if cell = prev ∧ spurious = false then .ok next else .error cell

section Exchange

variable {α : Type*} [DecidableEq α] {cell prev next new seen : α} {spurious : Bool}

theorem compareExchangeWeak_ok (h : compareExchangeWeak cell prev next spurious = .ok new) :
    cell = prev ∧ new = next := by
  unfold compareExchangeWeak at h
  split at h
  · next hc =>
    cases h
    exact ⟨hc.1, rfl⟩
  · cases h

theorem compareExchangeWeak_error
    (h : compareExchangeWeak cell prev next spurious = .error seen) : seen = cell := by
  unfold compareExchangeWeak at h
  split at h
  · cases h
  · cases h
    rfl

end Exchange

/-- Subtraction that stops at zero. -/
def saturatingSub (a b : UInt64) : UInt64 := if b ≤ a then a - b else 0

theorem toNat_saturatingSub (a b : UInt64) : (saturatingSub a b).toNat = a.toNat - b.toNat := by
  unfold saturatingSub
  split
  · next h => exact UInt64.toNat_sub_of_le _ _ h
  · next h =>
    rw [UInt64.le_iff_toNat_le] at h
    change 0 = a.toNat - b.toNat
    omega

/-- An addition that stays in the word is exact. -/
theorem toNat_add_of_lt {a b : UInt64} (h : a.toNat + b.toNat < 2 ^ 64) :
    (a + b).toNat = a.toNat + b.toNat := by
  rw [UInt64.toNat_add]
  exact Nat.mod_eq_of_lt h

theorem toNat_succ {a : UInt64} (h : a.toNat + 1 < 2 ^ 64) : (a + 1).toNat = a.toNat + 1 :=
  toNat_add_of_lt h

end Atomic
