import Mathlib.Logic.Basic

/-! A bounded multi-producer channel with one receiver. -/
namespace Channel

variable {α : Type*} {n : Nat}

inductive SendError
  | full | closed
  deriving DecidableEq, Repr

/-- The queue never holds more than the capacity. -/
structure Bounded (α : Type*) (n : Nat) where
  queue : List α
  receiver : Bool
  bounded : queue.length ≤ n
  deriving DecidableEq, Repr

namespace Bounded

variable {c d : Bounded α n} {x : α}

def empty : Bounded α n := ⟨[], true, Nat.zero_le n⟩

/-- Send without waiting. A channel whose receiver is gone is closed even when full. -/
def trySend (c : Bounded α n) (x : α) : Except SendError (Bounded α n) :=
  if c.receiver then
    if h : c.queue.length < n then .ok ⟨c.queue ++ [x], true, by rwa [List.length_append]⟩
    else .error .full
  else .error .closed

/-- Take the oldest message. -/
def recv (c : Bounded α n) : Option (α × Bounded α n) :=
  match c with
  | ⟨[], _, _⟩ => none
  | ⟨x :: q, r, h⟩ => some (x, ⟨q, r, Nat.le_of_succ_le h⟩)

/-- Dropping the receiver drops what it had not taken. -/
def dropReceiver (_ : Bounded α n) : Bounded α n := ⟨[], false, Nat.zero_le n⟩

theorem queue_of_trySend (h : c.trySend x = .ok d) : d.queue = c.queue ++ [x] := by
  unfold trySend at h
  split at h
  · split at h
    · cases h
      rfl
    · cases h
  · cases h

theorem receiver_of_trySend (h : c.trySend x = .ok d) :
    c.receiver = true ∧ d.receiver = true := by
  unfold trySend at h
  split at h
  · next hopen =>
    split at h
    · cases h
      exact ⟨hopen, rfl⟩
    · cases h
  · cases h

theorem exists_trySend (x : α) (hopen : c.receiver = true) (hlt : c.queue.length < n) :
    ∃ d, c.trySend x = .ok d := by
  simp only [trySend, if_pos hopen, dif_pos hlt]
  exact ⟨_, rfl⟩

theorem receiver_of_closed (h : c.trySend x = .error .closed) : c.receiver = false := by
  unfold trySend at h
  split at h
  · split at h <;> cases h
  · next hclosed => exact Bool.eq_false_iff.mpr hclosed

theorem le_length_of_trySend (h : c.trySend x = .error .full) : n ≤ c.queue.length := by
  unfold trySend at h
  split at h
  · split at h
    · cases h
    · omega
  · cases h

theorem queue_of_recv (h : c.recv = some (x, d)) : c.queue = x :: d.queue := by
  obtain ⟨q, r, hq⟩ := c
  cases q with
  | nil => cases h
  | cons y q =>
    cases h
    rfl

theorem receiver_of_recv (h : c.recv = some (x, d)) : d.receiver = c.receiver := by
  obtain ⟨q, r, hq⟩ := c
  cases q with
  | nil => cases h
  | cons y q =>
    cases h
    rfl

theorem queue_of_recv_none (h : c.recv = none) : c.queue = [] := by
  obtain ⟨q, r, hq⟩ := c
  cases q with
  | nil => rfl
  | cons x q => cases h

theorem recv_of_ne_nil (h : c.queue ≠ []) : ∃ x d, c.recv = some (x, d) := by
  obtain ⟨q, r, hq⟩ := c
  cases q with
  | nil => exact absurd rfl h
  | cons x q => exact ⟨x, _, rfl⟩

@[simp] theorem queue_dropReceiver : c.dropReceiver.queue = [] := rfl

end Bounded

end Channel
