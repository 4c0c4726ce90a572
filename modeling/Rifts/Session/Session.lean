import Mathlib.Logic.Function.Basic
import Rifts.Core.Frame

/-! Sessions and the store that outlives their connections. -/
namespace Rifts

inductive SessionState
  | open | hello | authenticated | resuming | ready | active | draining | closed
  deriving DecidableEq, Repr

structure Session where
  id : String
  clientId : String
  epoch : UInt32
  state : SessionState
  createdAt : Int64
  lastActive : UInt64
  deriving DecidableEq, Repr

namespace Session

def new (id clientId : String) (now : Int64) : Session :=
  ⟨id, clientId, 1, .open, now, now.toUInt64⟩

def touch (s : Session) (now : Int64) : Session := { s with lastActive := now.toUInt64 }

def setState (s : Session) (state : SessionState) (now : Int64) : Session :=
  { s with state := state }.touch now

/-- `fetch_add` on an `AtomicU32`, which wraps. -/
def bumpEpoch (s : Session) : Session := { s with epoch := s.epoch + 1 }

def isAlive (s : Session) : Bool := s.state != .closed

@[simp] theorem state_setState {s : Session} {state : SessionState} {now : Int64} :
    (s.setState state now).state = state := rfl

@[simp] theorem epoch_setState {s : Session} {state : SessionState} {now : Int64} :
    (s.setState state now).epoch = s.epoch := rfl

@[simp] theorem clientId_setState {s : Session} {state : SessionState} {now : Int64} :
    (s.setState state now).clientId = s.clientId := rfl

end Session

/-- Session objects live in a heap of shared references, so that a connection
keeps its session when the store drops or replaces the entry. Only references
below `next` have been handed out. -/
structure SessionStore where
  heap : Nat → Session
  next : Nat
  inner : String → Option Nat
  bound : ∀ sid r, inner sid = some r → r < next ∧ (heap r).id = sid

namespace SessionStore

variable {st : SessionStore} {r r' : Nat} {sid : String}

def new : SessionStore := ⟨fun _ => .new "" "" 0, 0, fun _ => none, by simp⟩

def get (st : SessionStore) (sid : String) : Option Nat := st.inner sid

/-- Update one session object in place; its id never changes. -/
def modify (st : SessionStore) (r : Nat) (f : Session → Session)
    (hf : ∀ s, (f s).id = s.id) : SessionStore where
  heap := Function.update st.heap r (f (st.heap r))
  next := st.next
  inner := st.inner
  bound := by
    intro sid r' h
    by_cases hr : r' = r
    · subst hr
      simpa [hf] using st.bound sid r' h
    · simpa [hr] using st.bound sid r' h

def setState (st : SessionStore) (r : Nat) (state : SessionState) (now : Int64) : SessionStore :=
  st.modify r (·.setState state now) fun _ => rfl

def bumpEpoch (st : SessionStore) (r : Nat) : SessionStore :=
  st.modify r (·.bumpEpoch) fun _ => rfl

def touch (st : SessionStore) (r : Nat) (now : Int64) : SessionStore :=
  st.modify r (·.touch now) fun _ => rfl

/-- `Arc::new` followed by `insert`; the new reference is `st.next`. -/
def insert (st : SessionStore) (s : Session) : SessionStore where
  heap := Function.update st.heap st.next s
  next := st.next + 1
  inner := Function.update st.inner s.id (some st.next)
  bound := by
    intro sid r h
    by_cases hs : sid = s.id
    · subst hs
      simp only [Function.update_self, Option.some.injEq] at h
      simp [← h]
    · rw [Function.update_of_ne hs] at h
      obtain ⟨hlt, hid⟩ := st.bound sid r h
      refine ⟨by omega, ?_⟩
      rw [Function.update_of_ne (by omega), hid]

def remove (st : SessionStore) (sid : String) : SessionStore where
  heap := st.heap
  next := st.next
  inner := Function.update st.inner sid none
  bound := by
    intro sid' r h
    by_cases hs : sid' = sid
    · simp [hs] at h
    · rw [Function.update_of_ne hs] at h
      exact st.bound sid' r h

@[simp] theorem get_setState {state : SessionState} {now : Int64} :
    (st.setState r state now).get sid = st.get sid := rfl

@[simp] theorem get_bumpEpoch : (st.bumpEpoch r).get sid = st.get sid := rfl

@[simp] theorem heap_setState_self {state : SessionState} {now : Int64} :
    (st.setState r state now).heap r = (st.heap r).setState state now := by
  simp [setState, modify]

theorem heap_setState_of_ne {state : SessionState} {now : Int64} (h : r' ≠ r) :
    (st.setState r state now).heap r' = st.heap r' := by
  simp [setState, modify, h]

@[simp] theorem heap_bumpEpoch_self : (st.bumpEpoch r).heap r = (st.heap r).bumpEpoch := by
  simp [bumpEpoch, modify]

theorem heap_bumpEpoch_of_ne (h : r' ≠ r) : (st.bumpEpoch r).heap r' = st.heap r' := by
  simp [bumpEpoch, modify, h]

theorem state_setState_self {state : SessionState} {now : Int64} :
    ((st.setState r state now).heap r).state = state := by
  simp

/-- Updates in place keep the owner of every session. -/
theorem clientId_modify {f : Session → Session} {hf : ∀ s, (f s).id = s.id}
    (h : ∀ s, (f s).clientId = s.clientId) :
    ((st.modify r f hf).heap r').clientId = (st.heap r').clientId := by
  by_cases hr : r' = r
  · subst hr
    simp [modify, h]
  · simp [modify, hr]

theorem clientId_setState {state : SessionState} {now : Int64} :
    ((st.setState r state now).heap r').clientId = (st.heap r').clientId :=
  clientId_modify fun _ => rfl

theorem clientId_bumpEpoch : ((st.bumpEpoch r).heap r').clientId = (st.heap r').clientId :=
  clientId_modify fun _ => rfl

theorem clientId_touch {now : Int64} :
    ((st.touch r now).heap r').clientId = (st.heap r').clientId :=
  clientId_modify fun _ => rfl

theorem state_modify {f : Session → Session} {hf : ∀ s, (f s).id = s.id}
    (h : ∀ s, (f s).state = s.state) :
    ((st.modify r f hf).heap r').state = (st.heap r').state := by
  by_cases hr : r' = r
  · subst hr
    simp [modify, h]
  · simp [modify, hr]

theorem state_bumpEpoch : ((st.bumpEpoch r).heap r').state = (st.heap r').state :=
  state_modify fun _ => rfl

theorem state_touch {now : Int64} : ((st.touch r now).heap r').state = (st.heap r').state :=
  state_modify fun _ => rfl

theorem heap_insert_of_ne {s : Session} (h : r ≠ st.next) : (st.insert s).heap r = st.heap r := by
  simp [insert, h]

@[simp] theorem heap_insert_next {s : Session} : (st.insert s).heap st.next = s := by
  simp [insert]

theorem get_lt (h : st.get sid = some r) : r < st.next := (st.bound sid r h).1

end SessionStore

end Rifts
