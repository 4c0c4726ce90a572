import Mathlib.Logic.Basic

/-! A channel for one value, with one sender and one receiver. -/

structure Oneshot (α : Type*) where
  value : Option α := none
  sender : Bool := true
  receiver : Bool := true
  deriving DecidableEq, Repr

namespace Oneshot

variable {α : Type*} {c : Oneshot α} {x y : α}

inductive Poll (α : Type*)
  | pending
  | ready (x : α)
  | closed
  deriving DecidableEq, Repr

/-- Sending uses the sender up; the value is lost when nobody can receive it. -/
def send (c : Oneshot α) (x : α) : Oneshot α :=
  if c.receiver then { c with value := some x, sender := false } else { c with sender := false }

def dropSender (c : Oneshot α) : Oneshot α := { c with sender := false }

def dropReceiver (c : Oneshot α) : Oneshot α := { c with value := none, receiver := false }

def poll (c : Oneshot α) : Poll α :=
  match c.value with
  | some x => .ready x
  | none => if c.sender then .pending else .closed

theorem value_of_poll (h : c.poll = .ready x) : c.value = some x := by
  unfold poll at h
  split at h
  · next y hy =>
    cases h
    exact hy
  · split at h <;> cases h

theorem value_send (h : (c.send x).value = some y) : y = x ∨ c.value = some y := by
  unfold send at h
  split at h
  · exact .inl (Option.some.inj h).symm
  · exact .inr h

end Oneshot
