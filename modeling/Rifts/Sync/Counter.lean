import Rifts.Sync.Atomic

/-! A counter with a limit: a load, then weak compare-exchanges until one succeeds
or the value seen is at the limit. -/
namespace BoundedCounter

inductive Attempt
  | full
  | taken (count : UInt64)
  | retry (seen : UInt64)
  deriving DecidableEq, Repr

/-- One turn of the loop: the counter holds `count`, the caller has last seen
`seen`, and the exchange may fail for no reason. -/
def attempt (limit count seen : UInt64) (spurious : Bool) : Attempt :=
  if limit ≤ seen then .full
  else
    match Atomic.compareExchangeWeak count seen (seen + 1) spurious with
    | .ok next => .taken next
    | .error current => .retry current

theorem toNat_add_one {count limit : UInt64} (h : ¬ limit ≤ count) :
    (count + 1).toNat = count.toNat + 1 ∧ count.toNat + 1 ≤ limit.toNat := by
  rw [UInt64.le_iff_toNat_le] at h
  have := limit.toNat_lt
  exact ⟨Atomic.toNat_succ (by omega), by omega⟩

theorem attempt_taken {limit count seen n : UInt64} {spurious : Bool}
    (h : attempt limit count seen spurious = .taken n) :
    n.toNat = count.toNat + 1 ∧ n.toNat ≤ limit.toNat := by
  unfold attempt at h
  split at h
  · cases h
  · next hlimit =>
    split at h
    · next next hx =>
      cases h
      obtain ⟨rfl, rfl⟩ := Atomic.compareExchangeWeak_ok hx
      obtain ⟨hn, hle⟩ := toNat_add_one hlimit
      exact ⟨hn, hn ▸ hle⟩
    · cases h

end BoundedCounter
