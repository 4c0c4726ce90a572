import Rifts.Sync.Atomic
import Rifts.Transition.Pool

/-! The backpressure controller of a connection's outbound queue. -/
namespace Rifts

open Transition

inductive BackpressureStrategy
  | pause | dropVolatile | coalesceState | downgrade | disconnect | snapshotLater
  deriving DecidableEq, Repr

inductive BackpressureAction
  | accept | pause | dropVolatile | coalesceState | downgrade | disconnect | snapshotLater
  deriving DecidableEq, Repr

structure BackpressureController where
  maxBytes : UInt64
  currentBytes : UInt64 := 0
  strategy : BackpressureStrategy := .pause
  applied : UInt64 := 0
  dropped : UInt64 := 0
  slowConsumer : UInt64 := 0
  flowPause : UInt64 := 0
  flowResume : UInt64 := 0
  volatileDrop : UInt64 := 0
  stateCoalesce : UInt64 := 0
  deriving DecidableEq, Repr

/-- The actions that count as a dropped message. -/
def BackpressureAction.drops : BackpressureAction → Bool
  | .dropVolatile | .coalesceState | .disconnect => true
  | .accept | .pause | .downgrade | .snapshotLater => false

def BackpressureStrategy.action : BackpressureStrategy → BackpressureAction
  | .pause => .pause
  | .dropVolatile => .dropVolatile
  | .coalesceState => .coalesceState
  | .downgrade => .downgrade
  | .disconnect => .disconnect
  | .snapshotLater => .snapshotLater

namespace BackpressureController

def new (maxBytes : UInt64) : BackpressureController := { maxBytes }

/-- Ninety per cent of the capacity, rounded up. -/
def highWater (c : BackpressureController) : UInt64 := c.maxBytes - c.maxBytes / 10

def isOverloaded (c : BackpressureController) : Bool :=
  if c.maxBytes = 0 then false else decide (c.maxBytes - c.maxBytes / 10 ≤ c.currentBytes)

def recordApplied (c : BackpressureController) : BackpressureController :=
  { c with applied := c.applied + 1 }

def recordDropped (c : BackpressureController) : BackpressureController :=
  { c with dropped := c.dropped + 1 }

/-- The counter that a strategy has for itself. -/
def recordStrategy (c : BackpressureController) : BackpressureStrategy → BackpressureController
  | .pause => { c with flowPause := c.flowPause + 1 }
  | .dropVolatile => { c with volatileDrop := c.volatileDrop + 1 }
  | .coalesceState => { c with stateCoalesce := c.stateCoalesce + 1 }
  | .disconnect => { c with slowConsumer := c.slowConsumer + 1 }
  | .downgrade | .snapshotLater => c

/-- The rest of `try_enqueue` once the queue is found full. -/
def mitigate (c : BackpressureController) : BackpressureController × BackpressureAction :=
  match c.strategy with
  | .pause => (c.recordStrategy .pause, .pause)
  | .dropVolatile => (c.recordDropped.recordStrategy .dropVolatile, .dropVolatile)
  | .coalesceState => (c.recordDropped.recordStrategy .coalesceState, .coalesceState)
  | .downgrade => (c, .downgrade)
  | .disconnect => (c.recordDropped.recordStrategy .disconnect, .disconnect)
  | .snapshotLater => (c, .snapshotLater)

/-- `try_enqueue` while no other call is in progress: its first exchange succeeds. -/
def tryEnqueue (c : BackpressureController) (payloadBytes : UInt64) :
    BackpressureController × BackpressureAction :=
  if c.currentBytes + payloadBytes ≤ c.maxBytes then
    ({ c with currentBytes := c.currentBytes + payloadBytes }, .accept)
  else c.recordApplied.mitigate

/-- `release` while no other call is in progress. -/
def release (c : BackpressureController) (bytes : UInt64) : BackpressureController :=
  let next := Atomic.saturatingSub c.currentBytes bytes
  let d := { c with currentBytes := next }
  if c.highWater ≤ c.currentBytes ∧ next < c.highWater then
    { d with flowResume := d.flowResume + 1 }
  else d

theorem toNat_highWater (c : BackpressureController) :
    c.highWater.toNat = c.maxBytes.toNat - c.maxBytes.toNat / 10 := by
  have hle : c.maxBytes / 10 ≤ c.maxBytes := by
    rw [UInt64.le_iff_toNat_le, UInt64.toNat_div]
    exact Nat.div_le_self _ _
  rw [highWater, UInt64.toNat_sub_of_le _ _ hle, UInt64.toNat_div]
  rfl

theorem highWater_le (c : BackpressureController) : c.highWater ≤ c.maxBytes := by
  rw [UInt64.le_iff_toNat_le, toNat_highWater]
  omega

/-- The mark is reached at nine tenths of the capacity, at every capacity. -/
theorem isOverloaded_iff {c : BackpressureController} (h : 0 < c.maxBytes) :
    c.isOverloaded = true ↔ 9 * c.maxBytes.toNat ≤ 10 * c.currentBytes.toNat := by
  have hne : c.maxBytes ≠ 0 := by
    intro h0
    rw [h0] at h
    exact absurd h (by decide)
  have hmark := c.toNat_highWater
  rw [isOverloaded, if_neg hne, decide_eq_true_eq, UInt64.le_iff_toNat_le]
  change c.highWater.toNat ≤ _ ↔ _
  -- the last digit of the capacity is rounded the same way on both sides
  omega

end BackpressureController

/-- The calls that move the queue. -/
inductive QueueOp
  | tryEnqueue (payloadBytes : UInt64)
  | release (bytes : UInt64)
  deriving DecidableEq, Repr

inductive FlowCall
  | queue (op : QueueOp)
  | setStrategy (strategy : BackpressureStrategy)
  deriving DecidableEq, Repr

/-- Where a call stands: in front of a load, an exchange, a counter or the lock, or returned.
A call that has moved the queue keeps what it moved it by, a release also from where to where. -/
inductive FlowPhase
  | enqueueLoad (payloadBytes : UInt64)
  | enqueueExchange (payloadBytes prev : UInt64)
  | recordApplied (payloadBytes : UInt64)
  | readStrategy (payloadBytes : UInt64)
  | recordDropped (payloadBytes : UInt64)
      (strategy : { s : BackpressureStrategy // s.action.drops = true })
  | recordStrategy (payloadBytes : UInt64) (strategy : BackpressureStrategy)
  | returned (payloadBytes : UInt64) (action : BackpressureAction)
  | releaseLoad (bytes : UInt64)
  | releaseExchange (bytes prev : UInt64)
  | recordResume (bytes prev next : UInt64)
  | released (bytes prev next : UInt64)
  | setStrategy (strategy : BackpressureStrategy)
  | strategySet
  deriving DecidableEq, Repr

namespace FlowPhase

def start : FlowCall → FlowPhase
  | .queue (.tryEnqueue payloadBytes) => .enqueueLoad payloadBytes
  | .queue (.release bytes) => .releaseLoad bytes
  | .setStrategy strategy => .setStrategy strategy

/-- What is left of a `try_enqueue` that has read the strategy. -/
def mitigating (payloadBytes : UInt64) (s : BackpressureStrategy) : FlowPhase :=
  if h : s.action.drops = true then .recordDropped payloadBytes ⟨s, h⟩
  else if s = .pause then .recordStrategy payloadBytes s
  else .returned payloadBytes s.action

/-- What is left of a `release` that has moved the queue. -/
def releasing (highWater bytes prev next : UInt64) : FlowPhase :=
  if highWater ≤ prev ∧ next < highWater then .recordResume bytes prev next
  else .released bytes prev next

/-- One step of a call; the input says whether an exchange fails for no reason. -/
def next (c : BackpressureController) (u : FlowPhase) (spurious : Bool) :
    Option (BackpressureController × FlowPhase) :=
  match u with
  | .enqueueLoad n => some (c, .enqueueExchange n c.currentBytes)
  | .enqueueExchange n prev =>
    if prev + n ≤ c.maxBytes then
      match Atomic.compareExchangeWeak c.currentBytes prev (prev + n) spurious with
      | .ok next => some ({ c with currentBytes := next }, .returned n .accept)
      | .error current => some (c, .enqueueExchange n current)
    else some (c, .recordApplied n)
  | .recordApplied n => some (c.recordApplied, .readStrategy n)
  | .readStrategy n => some (c, mitigating n c.strategy)
  | .recordDropped n s => some (c.recordDropped, .recordStrategy n s)
  | .recordStrategy n s => some (c.recordStrategy s, .returned n s.action)
  | .releaseLoad n => some (c, .releaseExchange n c.currentBytes)
  | .releaseExchange n prev =>
    match Atomic.compareExchangeWeak c.currentBytes prev (Atomic.saturatingSub prev n)
        spurious with
    | .ok next => some ({ c with currentBytes := next }, releasing c.highWater n prev next)
    | .error current => some (c, .releaseExchange n current)
  | .recordResume n prev next =>
    some ({ c with flowResume := c.flowResume + 1 }, .released n prev next)
  | .setStrategy s => some ({ c with strategy := s }, .strategySet)
  | .returned .. | .released .. | .strategySet => none

def program : Program BackpressureController FlowPhase FlowCall Bool := ⟨start, next⟩

/-- Everything a step can do. An exchange that succeeds has found the value it was given. -/
inductive Moves (c : BackpressureController) :
    FlowPhase → BackpressureController → FlowPhase → Prop
  | loadEnqueue (n) : Moves c (.enqueueLoad n) c (.enqueueExchange n c.currentBytes)
  | accept (n) (hroom : c.currentBytes + n ≤ c.maxBytes) :
      Moves c (.enqueueExchange n c.currentBytes)
        { c with currentBytes := c.currentBytes + n } (.returned n .accept)
  | retryEnqueue (n prev) :
      Moves c (.enqueueExchange n prev) c (.enqueueExchange n c.currentBytes)
  | decline (n prev) (hfull : ¬ prev + n ≤ c.maxBytes) :
      Moves c (.enqueueExchange n prev) c (.recordApplied n)
  | apply (n) : Moves c (.recordApplied n) c.recordApplied (.readStrategy n)
  | readStrategy (n) : Moves c (.readStrategy n) c (mitigating n c.strategy)
  | drop (n s) : Moves c (.recordDropped n s) c.recordDropped (.recordStrategy n s)
  | count (n s) : Moves c (.recordStrategy n s) (c.recordStrategy s) (.returned n s.action)
  | loadRelease (n) : Moves c (.releaseLoad n) c (.releaseExchange n c.currentBytes)
  | release (n) :
      Moves c (.releaseExchange n c.currentBytes)
        { c with currentBytes := Atomic.saturatingSub c.currentBytes n }
        (releasing c.highWater n c.currentBytes (Atomic.saturatingSub c.currentBytes n))
  | retryRelease (n prev) :
      Moves c (.releaseExchange n prev) c (.releaseExchange n c.currentBytes)
  | resume (n prev next) :
      Moves c (.recordResume n prev next) { c with flowResume := c.flowResume + 1 }
        (.released n prev next)
  | setStrategy (s) : Moves c (.setStrategy s) { c with strategy := s } .strategySet

theorem moves_of_next {c c' : BackpressureController} {u u' : FlowPhase} {spurious : Bool}
    (h : next c u spurious = some (c', u')) : Moves c u c' u' := by
  cases u with
  | enqueueExchange n prev =>
    simp only [next] at h
    split at h
    · next hroom =>
      split at h
      · next new hx =>
        obtain ⟨rfl, rfl⟩ := Atomic.compareExchangeWeak_ok hx
        cases h
        exact .accept n hroom
      · next seen hx =>
        obtain rfl := Atomic.compareExchangeWeak_error hx
        cases h
        exact .retryEnqueue n prev
    · next hfull =>
      cases h
      exact .decline n prev hfull
  | releaseExchange n prev =>
    simp only [next] at h
    split at h
    · next new hx =>
      obtain ⟨rfl, rfl⟩ := Atomic.compareExchangeWeak_ok hx
      cases h
      exact .release n
    · next seen hx =>
      obtain rfl := Atomic.compareExchangeWeak_error hx
      cases h
      exact .retryRelease n prev
  | returned | released | strategySet => cases h
  | _ =>
    cases h
    constructor

/-- The call has returned. -/
def isOver : FlowPhase → Bool
  | .returned .. | .released .. | .strategySet => true
  | _ => false

/-- The answer of a `try_enqueue` that has returned. -/
def action : FlowPhase → Option BackpressureAction
  | .returned _ a => some a
  | _ => none

/-- The result a call on its own is bound to, from where it stands. -/
def Owes (r : BackpressureController × Option BackpressureAction) :
    BackpressureController × FlowPhase → Prop
  | (c, .enqueueLoad n) => r = (c.tryEnqueue n).map id some
  | (c, .enqueueExchange n prev) => prev = c.currentBytes ∧ r = (c.tryEnqueue n).map id some
  | (c, .recordApplied _) => r = c.recordApplied.mitigate.map id some
  | (c, .readStrategy _) => r = c.mitigate.map id some
  | (c, .recordDropped _ s) => r = (c.recordDropped.recordStrategy s, some s.1.action)
  | (c, .recordStrategy _ s) => r = (c.recordStrategy s, some s.action)
  | (c, .releaseLoad n) => r = (c.release n, none)
  | (c, .releaseExchange n prev) => prev = c.currentBytes ∧ r = (c.release n, none)
  | (c, .recordResume ..) => r = ({ c with flowResume := c.flowResume + 1 }, none)
  | (c, .setStrategy s) => r = ({ c with strategy := s }, none)
  | (c, .returned _ a) => r = (c, some a)
  | (c, .released ..) | (c, .strategySet) => r = (c, none)

variable {c c' : BackpressureController} {u u' : FlowPhase}
  {r : BackpressureController × Option BackpressureAction}

theorem owes_mitigating (n : UInt64) (h : r = c.mitigate.map id some) :
    Owes r (c, mitigating n c.strategy) := by
  rw [h, BackpressureController.mitigate]
  cases c.strategy <;> rfl

theorem owes_releasing {n : UInt64} (h : r = (c.release n, none)) :
    Owes r ({ c with currentBytes := Atomic.saturatingSub c.currentBytes n },
      releasing c.highWater n c.currentBytes (Atomic.saturatingSub c.currentBytes n)) := by
  rw [h, BackpressureController.release]
  unfold releasing
  split <;> rfl

theorem owes_moves (h : Moves c u c' u') (ho : Owes r (c, u)) : Owes r (c', u') := by
  cases h with
  | loadEnqueue | loadRelease => exact ⟨rfl, ho⟩
  | accept n hroom =>
    obtain ⟨-, rfl⟩ := ho
    simp [Owes, BackpressureController.tryEnqueue, hroom]
  | retryEnqueue | retryRelease => exact ⟨rfl, ho.2⟩
  | decline n prev hfull =>
    obtain ⟨rfl, rfl⟩ := ho
    simp [Owes, BackpressureController.tryEnqueue, hfull]
  | readStrategy n => exact owes_mitigating n ho
  | release => exact owes_releasing ho.2
  | apply | drop | count | resume | setStrategy => exact ho

end FlowPhase

namespace BackpressureController

def queue (c : BackpressureController) :
    QueueOp → BackpressureController × Option BackpressureAction
  | .tryEnqueue n => (c.tryEnqueue n).map id some
  | .release n => (c.release n, none)

/-- What a call does when no other is in progress. -/
def call (c : BackpressureController) :
    FlowCall → BackpressureController × Option BackpressureAction
  | .queue op => c.queue op
  | .setStrategy s => ({ c with strategy := s }, none)

/-- However many of its exchanges fail for no reason, a call on its own does the same. -/
theorem call_of_solo {c c' : BackpressureController} {u : FlowPhase} {k : FlowCall}
    {inputs : List Bool} (hover : u.isOver = true)
    (h : run (Pool.solo FlowPhase.program) (c, FlowPhase.start k) inputs = some (c', u)) :
    c.call k = (c', u.action) := by
  have howes : FlowPhase.Owes (c.call k) (c', u) := by
    refine run_invariant (P := FlowPhase.Owes (c.call k)) ?_ h ?_
    · rintro ⟨c, u⟩ input ⟨c', u'⟩ hstep ho
      exact FlowPhase.owes_moves (FlowPhase.moves_of_next hstep) ho
    · cases k with
      | queue op => cases op <;> rfl
      | setStrategy => rfl
  cases u with
  | returned | released | strategySet => exact howes
  | _ => cases hover

end BackpressureController

end Rifts
