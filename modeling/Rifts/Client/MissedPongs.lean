import Mathlib.Data.UInt
import Rifts.Transition.Run

/-! The client's heartbeat loop and the counter it shares with the reader. -/
namespace Rifts

open Transition

/-- What `heartbeat_loop` does next: sleep and send a ping, look at the counter after the pong
timeout, increment it, compare it with the limit. -/
inductive HeartbeatPhase
  | pinging | checking | counting | comparing | closed
  deriving DecidableEq, Repr

/-- `HeartbeatState`, and where the loop is. -/
structure Heartbeat where
  missedPongs : UInt32
  phase : HeartbeatPhase
  deriving DecidableEq, Repr

/-- A turn of the loop, or a pong that the reader sees. -/
inductive HeartbeatEvent
  | advance | pong
  deriving DecidableEq, Repr

namespace Heartbeat

def new : Heartbeat := ⟨0, .pinging⟩

def resetMissed (s : Heartbeat) : Heartbeat := { s with missedPongs := 0 }

/-- One access of the loop to what it shares, when pings can be written. -/
def advance (maxMissed : UInt32) (s : Heartbeat) : Option Heartbeat :=
  match s.phase with
  | .pinging => some { s with phase := .checking }
  | .checking => some { s with phase := if s.missedPongs = 0 then .pinging else .counting }
  | .counting => some ⟨s.missedPongs + 1, .comparing⟩
  | .comparing =>
    some { s with phase := if maxMissed ≤ s.missedPongs then .closed else .pinging }
  | .closed => none

end Heartbeat

/-- The loop beside a record of its cycles: whether the one under way has had a pong, how many
in a row have gone by without one, and whether there have ever been as many as are allowed. -/
structure WatchedHeartbeat where
  loop : Heartbeat
  heard : Bool
  silent : Nat
  overdue : Bool
  deriving DecidableEq, Repr

namespace WatchedHeartbeat

def new : WatchedHeartbeat := ⟨.new, false, 0, false⟩

/-- The cycles without a pong, once the one under way is over. -/
def streak (s : WatchedHeartbeat) : Nat := if s.heard then 0 else s.silent + 1

def ends (phase : HeartbeatPhase) : Bool :=
  match phase with
  | .pinging | .closed => true
  | _ => false

def step (maxMissed : UInt32) (s : WatchedHeartbeat) : HeartbeatEvent → Option WatchedHeartbeat
  | .pong => some { s with loop := s.loop.resetMissed, heard := true }
  | .advance =>
    (s.loop.advance maxMissed).map fun loop =>
      if ends loop.phase then
        ⟨loop, false, s.streak, s.overdue || decide (maxMissed.toNat ≤ s.streak)⟩
      else { s with loop }

/-- The connection is closed when as many cycles in a row as are allowed went by without a pong,
and not before. -/
def Prompt (s : WatchedHeartbeat) : Prop := s.loop.phase = .closed ↔ s.overdue = true

/-- The event does not end a cycle that is one too many without a pong. -/
def Tolerated (maxMissed : UInt32) (s : WatchedHeartbeat) (e : HeartbeatEvent) : Prop :=
  e = .advance → s.loop.phase = .checking → s.streak < maxMissed.toNat

instance {maxMissed : UInt32} {s : WatchedHeartbeat} {e : HeartbeatEvent} :
    Decidable (Tolerated maxMissed s e) :=
  inferInstanceAs (Decidable (_ → _ → _))

/-- The counter is never counted up: it starts at 0, and at 0 the loop takes it that a pong
has come. -/
structure Idle (s : WatchedHeartbeat) : Prop where
  missed : s.loop.missedPongs = 0
  phase : s.loop.phase = .pinging ∨ s.loop.phase = .checking

variable {maxMissed : UInt32} {s s' : WatchedHeartbeat} {e : HeartbeatEvent}

theorem Idle.phase_ne_closed (h : Idle s) : s.loop.phase ≠ .closed := by
  rcases h.phase with hp | hp <;> simp [hp]

theorem Idle.prompt_iff (h : Idle s) : Prompt s ↔ s.overdue = false := by
  rw [Prompt, iff_false_left h.phase_ne_closed, Bool.not_eq_true]

/-- What a step does while the counter is 0. -/
theorem Idle.step_cases (h : Idle s) (hstep : step maxMissed s e = some s') :
    (e = .pong ∧ s' = { s with heard := true }) ∨
      (e = .advance ∧ s.loop.phase = .pinging ∧ s' = { s with loop := ⟨0, .checking⟩ }) ∨
      (e = .advance ∧ s.loop.phase = .checking ∧
        s' = ⟨⟨0, .pinging⟩, false, s.streak,
          s.overdue || decide (maxMissed.toNat ≤ s.streak)⟩) := by
  obtain ⟨⟨missed, phase⟩, heard, silent, overdue⟩ := s
  obtain rfl : missed = 0 := h.missed
  cases e with
  | pong =>
    cases hstep
    exact .inl ⟨rfl, rfl⟩
  | advance =>
    rcases h.phase with hp | hp
    · obtain rfl : phase = .pinging := hp
      cases hstep
      exact .inr (.inl ⟨rfl, rfl, rfl⟩)
    · obtain rfl : phase = .checking := hp
      cases hstep
      exact .inr (.inr ⟨rfl, rfl, rfl⟩)

theorem idle_step (hstep : step maxMissed s e = some s') (h : Idle s) : Idle s' := by
  obtain ⟨-, rfl⟩ | ⟨-, -, rfl⟩ | ⟨-, -, rfl⟩ := h.step_cases hstep
  · exact ⟨h.missed, h.phase⟩
  · exact ⟨rfl, .inr rfl⟩
  · exact ⟨rfl, .inl rfl⟩

theorem prompt_step (hstep : step maxMissed s e = some s') (h : Idle s) (hs : Prompt s) :
    Prompt s' ↔ Tolerated maxMissed s e := by
  rw [(idle_step hstep h).prompt_iff]
  have hold := h.prompt_iff.mp hs
  obtain ⟨rfl, rfl⟩ | ⟨rfl, hp, rfl⟩ | ⟨rfl, hp, rfl⟩ := h.step_cases hstep
  · simp [Tolerated, hold]
  · simp [Tolerated, hold, hp]
  · simp [Tolerated, hold, hp]

theorem idle_new : Idle new := ⟨rfl, .inl rfl⟩

/-- Whenever pongs arrive, the loop closes on time exactly when it never has to: it stays open
whatever happens. -/
theorem heartbeat_closes_on_time_iff (maxMissed : UInt32) (events : List HeartbeatEvent) :
    (Throughout (step maxMissed) Prompt new events ↔
      Guarded (step maxMissed) (Tolerated maxMissed) new events) ∧
    Throughout (step maxMissed) (fun s => s.loop.phase ≠ .closed) new events := by
  constructor
  · exact throughout_iff_guarded_of_invariant (fun _ _ _ => idle_step) (fun _ _ _ => prompt_step)
      idle_new (idle_new.prompt_iff.mpr rfl)
  · have hidle : Throughout (step maxMissed) Idle new events :=
      throughout_of_invariant (fun _ _ _ => idle_step) idle_new
    exact throughout_mono hidle fun _ h => h.phase_ne_closed

/-- Two cycles pass without a pong where two are allowed, and the loop goes on. -/
theorem silent_connection_stays_open :
    ∃ s, run (step 2) new (List.replicate 4 .advance) = some s ∧ s.silent = 2 ∧
      s.overdue = true ∧ s.loop = ⟨0, .pinging⟩ ∧ ¬ Prompt s := by
  refine ⟨⟨⟨0, .pinging⟩, false, 2, true⟩, by decide, rfl, rfl, rfl, ?_⟩
  simp [Prompt]

end WatchedHeartbeat

end Rifts
