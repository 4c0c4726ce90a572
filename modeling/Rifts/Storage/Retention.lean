import Rifts.Data.Suffix
import Rifts.Storage.Memory

/-! What the retention policies leave of a history of appends. -/
namespace Rifts

def LogEntry.size (e : LogEntry) : Nat := e.payload.length

/-- How many of the latest entries a policy keeps. A TTL goes by the clock and is
not of this kind. -/
def RetentionPolicy.kept (history : List LogEntry) : RetentionPolicy → Nat
  | .none => 0
  | .count n => n
  | .size maxBytes => Suffix.fit LogEntry.size maxBytes history
  | .latest => 1
  | .durable | .ttl _ => history.length

def RetentionPolicy.isTtl : RetentionPolicy → Bool
  | .ttl _ => true
  | _ => false

variable {now : Int64} {entry : LogEntry} {log history : List LogEntry} {policy : RetentionPolicy}

theorem dropOldest_eq (maxBytes : Nat) (log : List LogEntry) :
    dropOldest maxBytes (Suffix.weight LogEntry.size log) log =
      log.rtake (Suffix.fit LogEntry.size maxBytes log) := by
  induction log with
  | nil => rfl
  | cons e log ih =>
    unfold dropOldest
    split
    · next hlt =>
      have hrest : Suffix.weight LogEntry.size (e :: log) - e.payload.length =
          Suffix.weight LogEntry.size log := Nat.add_sub_cancel_left ..
      rw [hrest, ih, Suffix.fit_cons_of_lt hlt, Suffix.rtake_cons Suffix.fit_le]
    · next hle =>
      rw [Suffix.fit_of_weight_le (Nat.not_lt.mp hle),
        Suffix.rtake_of_length_le (Nat.le_refl _)]

theorem retain_count (n : Nat) : retain now entry log (.count n) = log.rtake n := by
  change (if n < log.length then log.drop (log.length - n) else log) = log.rtake n
  split
  · rfl
  · next hle => rw [Suffix.rtake_of_length_le (Nat.not_lt.mp hle)]

theorem retain_size (maxBytes : Nat) : retain now entry log (.size maxBytes) =
    log.rtake (Suffix.fit LogEntry.size maxBytes log) :=
  dropOldest_eq maxBytes log

/-- An entry with a new offset replaces all others. -/
theorem retain_latest (hnew : ∀ e ∈ log, e.offset ≠ entry.offset) :
    retain now entry (log ++ [entry]) .latest = [entry] := by
  have hold : log.filter (fun e => e.offset == entry.offset) = [] := by
    rw [List.filter_eq_nil_iff]
    intro e he heq
    exact hnew e he (by simpa using heq)
  simp [retain, List.filter_append, hold]

/-- A policy thins a log out and never reorders it. -/
theorem retain_sublist : List.Sublist (retain now entry log policy) log := by
  cases policy with
  | none => exact List.nil_sublist log
  | ttl ms => exact List.filter_sublist
  | count n =>
    rw [retain_count]
    exact Suffix.rtake_suffix.sublist
  | size maxBytes =>
    rw [retain_size]
    exact Suffix.rtake_suffix.sublist
  | durable => exact List.Sublist.refl log
  | latest => exact List.filter_sublist

/-- Appending to what is kept of a history leaves what is kept of the longer one. -/
theorem retain_concat (hpolicy : policy.isTtl = false)
    (hnew : policy = .latest → ∀ e ∈ history, e.offset ≠ entry.offset) :
    retain now entry (history.rtake (policy.kept history) ++ [entry]) policy =
      (history ++ [entry]).rtake (policy.kept (history ++ [entry])) := by
  cases policy with
  | none => exact (List.rtake_zero _).symm
  | ttl ms => cases hpolicy
  | count n =>
    rw [retain_count]
    exact Suffix.rtake_concat_rtake
  | size maxBytes =>
    have hle : Suffix.fit LogEntry.size maxBytes (history ++ [entry]) ≤
        Suffix.fit LogEntry.size maxBytes history + 1 := by
      rw [← Suffix.fit_concat_rtake]
      refine Suffix.fit_le.trans ?_
      rw [List.length_append, Suffix.length_rtake]
      exact Nat.succ_le_succ (Nat.min_le_left ..)
    rw [retain_size, RetentionPolicy.kept, RetentionPolicy.kept, Suffix.fit_concat_rtake,
      ← List.rtake_concat_succ, Suffix.rtake_rtake hle]
  | durable =>
    have hall : history.rtake history.length = history :=
      Suffix.rtake_of_length_le (Nat.le_refl _)
    rw [RetentionPolicy.kept, RetentionPolicy.kept, hall,
      Suffix.rtake_of_length_le (Nat.le_refl _)]
    rfl
  | latest =>
    have hlast : retain now entry (history.rtake 1 ++ [entry]) .latest = [entry] :=
      retain_latest fun e he => hnew rfl e (Suffix.rtake_suffix.subset he)
    rw [RetentionPolicy.kept, hlast, RetentionPolicy.kept, List.rtake_concat_succ,
      List.rtake_zero]
    rfl

end Rifts
