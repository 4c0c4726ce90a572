import Mathlib.Algebra.Group.Prod
import Mathlib.Data.UInt
import Mathlib.Tactic.Ring
import Rifts.Transition.Pool

/-! The counters of connections over every accepted transport: from the limit that
`spawn_connection` tests to the end of `Connection::run`. -/
namespace Rifts.Census

open Transition
open scoped UInt64.CommRing

/-- The ways a connection ends. -/
inductive Ending
  | handshakeFailed | peerClosed | readError | idleTimeout
  deriving DecidableEq, Repr

/-- `max_connections` and the three counters. -/
structure Counters where
  maxConnections : UInt64
  activeConnections : UInt64 := 0
  connectionOpenTotal : UInt64 := 0
  connectionCloseTotal : UInt64 := 0
  deriving DecidableEq, Repr

/-- Where a transport is: before the test of the limit, turned away, in a task that has not
started, and along `Connection::run`. -/
inductive Phase
  | arriving
  | rejected
  | spawned
  /-- `connection_open_total` has counted it. -/
  | opened
  | handshaking
  /-- The handshake has failed and `connection_close_total` has counted it. -/
  | failing
  | reading
  /-- The reader has ended. -/
  | tearing (how : Ending)
  | closing (how : Ending)
  /-- `active_connections` no longer counts it, and the transport or the writer is not done. -/
  | draining (how : Ending)
  | ended (how : Ending)
  /-- The task has panicked, in the teardown after the given ending if there is one. -/
  | panicked (how : Option Ending)
  deriving DecidableEq, Repr

/-- What a step meets: nothing, a handshake that fails, the end of the reader, or a panic. -/
inductive Input
  | go
  | refuse
  | finish (how : Ending)
  | panic
  deriving DecidableEq, Repr

namespace Phase

/-- The limit is reached. -/
def full (c : Counters) : Prop := 0 < c.maxConnections ∧ c.maxConnections ≤ c.activeConnections

instance : DecidablePred full := fun _ => inferInstanceAs (Decidable (_ ∧ _))

def next (c : Counters) : Phase → Input → Option (Counters × Phase)
  | arriving, .go => if full c then some (c, rejected) else some (c, spawned)
  | spawned, .go => some ({ c with connectionOpenTotal := c.connectionOpenTotal + 1 }, opened)
  | opened, .go => some ({ c with activeConnections := c.activeConnections + 1 }, handshaking)
  | handshaking, .go => some (c, reading)
  | handshaking, .refuse =>
    some ({ c with connectionCloseTotal := c.connectionCloseTotal + 1 }, failing)
  | failing, .go =>
    some ({ c with activeConnections := c.activeConnections - 1 }, draining .handshakeFailed)
  | reading, .finish .handshakeFailed => none
  -- The reader counts the close of an idle connection itself.
  | reading, .finish .idleTimeout =>
    some ({ c with connectionCloseTotal := c.connectionCloseTotal + 1 }, tearing .idleTimeout)
  | reading, .finish how => some (c, tearing how)
  | tearing how, .go =>
    some ({ c with connectionCloseTotal := c.connectionCloseTotal + 1 }, closing how)
  | closing how, .go => some ({ c with activeConnections := c.activeConnections - 1 }, draining how)
  | draining how, .go => some (c, ended how)
  | handshaking, .panic | reading, .panic => some (c, panicked none)
  | tearing how, .panic => some (c, panicked (some how))
  | _, _ => none

/-- The steps of a connection, one rule each. -/
inductive Moves (c : Counters) : Phase → Input → Counters → Phase → Prop
  | reject (h : full c) : Moves c arriving .go c rejected
  | accept (h : ¬ full c) : Moves c arriving .go c spawned
  | start : Moves c spawned .go { c with connectionOpenTotal := c.connectionOpenTotal + 1 } opened
  | activate :
    Moves c opened .go { c with activeConnections := c.activeConnections + 1 } handshaking
  | greet : Moves c handshaking .go c reading
  | refuse : Moves c handshaking .refuse
      { c with connectionCloseTotal := c.connectionCloseTotal + 1 } failing
  | giveUp : Moves c failing .go { c with activeConnections := c.activeConnections - 1 }
      (draining .handshakeFailed)
  | timeOut : Moves c reading (.finish .idleTimeout)
      { c with connectionCloseTotal := c.connectionCloseTotal + 1 } (tearing .idleTimeout)
  | quit (how : Ending) (h : how ≠ .idleTimeout) : Moves c reading (.finish how) c (tearing how)
  | close (how : Ending) : Moves c (tearing how) .go
      { c with connectionCloseTotal := c.connectionCloseTotal + 1 } (closing how)
  | release (how : Ending) : Moves c (closing how) .go
      { c with activeConnections := c.activeConnections - 1 } (draining how)
  | finish (how : Ending) : Moves c (draining how) .go c (ended how)
  | fail (u : Phase) (h : u = handshaking ∨ u = reading) : Moves c u .panic c (panicked none)
  | failLate (how : Ending) : Moves c (tearing how) .panic c (panicked (some how))

theorem moves_of_next {c c' : Counters} {u u' : Phase} {input : Input}
    (h : next c u input = some (c', u')) : Moves c u input c' u' := by
  unfold next at h
  split at h
  · split at h
    · next hfull =>
      cases h
      exact .reject hfull
    · next hfull =>
      cases h
      exact .accept hfull
  · cases h
    exact .start
  · cases h
    exact .activate
  · cases h
    exact .greet
  · cases h
    exact .refuse
  · cases h
    exact .giveUp
  · cases h
  · cases h
    exact .timeOut
  · next how _ hidle =>
    cases h
    exact .quit how hidle
  · next how =>
    cases h
    exact .close how
  · next how =>
    cases h
    exact .release how
  · next how =>
    cases h
    exact .finish how
  · cases h
    exact .fail handshaking (.inl rfl)
  · cases h
    exact .fail reading (.inr rfl)
  · next how =>
    cases h
    exact .failLate how
  · cases h

def program : Program Counters Phase Unit Input := ⟨fun _ => arriving, next⟩

/-- Accepted, not turned away and not over. -/
def live : Phase → Bool
  | spawned | opened | handshaking | failing | reading | tearing _ | closing _ | draining _ => true
  | arriving | rejected | ended _ | panicked _ => false

/-- The connection has been opened. -/
def started : Phase → Bool
  | arriving | rejected | spawned => false
  | _ => true

/-- The connection has been closed. -/
def finished : Phase → Bool
  | draining _ | ended _ => true
  | _ => false

/-- The reader found the connection idle. -/
def timedOut : Phase → Bool
  | tearing how | closing how | draining how | ended how => how == .idleTimeout
  | panicked how => how == some .idleTimeout
  | arriving | rejected | spawned | opened | handshaking | failing | reading => false

/-- Between two updates of the counters. An idle connection is from its first count as closed. -/
def between : Phase → Bool
  | opened | failing | closing _ => true
  | tearing how => how == .idleTimeout
  | panicked how => how == some .idleTimeout
  | _ => false

/-- What `active_connections` counts. A task that panics is counted for good. -/
def counted : Phase → Bool
  | handshaking | failing | reading | tearing _ | closing _ | panicked _ => true
  | arriving | rejected | spawned | opened | draining _ | ended _ => false

/-- How often `connection_close_total` has counted the connection. -/
def closes (u : Phase) : Nat :=
  u.timedOut.toNat + match u with
    | failing | closing _ | draining _ | ended _ => 1
    | _ => 0

/-- The share of a connection in the three counters. -/
def share (u : Phase) : UInt64 × UInt64 × UInt64 :=
  (u.counted.toNat, u.started.toNat, u.closes)

end Phase

abbrev Tasks := Pool Counters Phase

abbrev Act := Pool.Act Unit Input

def step (p : Tasks) (a : Act) : Option Tasks := Pool.step Phase.program p a

/-- A server that has just started. -/
def initial (maxConnections : UInt64) : Tasks := ⟨{ maxConnections }, []⟩

def Counters.totals (c : Counters) : UInt64 × UInt64 × UInt64 :=
  (c.activeConnections, c.connectionOpenTotal, c.connectionCloseTotal)

open Rifts.Census.Phase

variable {c c' : Counters} {u u' : Phase} {input : Input} {p p' : Tasks} {a : Act}

theorem maxConnections_next (hn : next c u input = some (c', u')) :
    c'.maxConnections = c.maxConnections := by
  cases moves_of_next hn <;> rfl

/-- Every step adds to the counters what it adds to the share of its connection. -/
theorem totals_next (hn : next c u input = some (c', u')) :
    c'.totals + u.share = c.totals + u'.share := by
  cases moves_of_next hn with
  | fail u h => rcases h with rfl | rfl <;> rfl
  | giveUp =>
    have hidle : (Ending.handshakeFailed == Ending.idleTimeout) = false := rfl
    simp [share, Counters.totals, counted, started, closes, timedOut, hidle]
  | quit how h =>
    have hidle : (how == Ending.idleTimeout) = false := by simpa using h
    simp [share, counted, started, closes, timedOut, hidle]
  | close how =>
    simp [share, Counters.totals, counted, started, closes, timedOut]
    ring
  | _ => simp [share, Counters.totals, counted, started, closes, timedOut]

/-- The counters are the sums of the shares. -/
def Tallied (p : Tasks) : Prop := p.shared.totals = Pool.total share p.threads

theorem tallied_step (h : step p a = some p') (hp : Tallied p) : Tallied p' :=
  Pool.tally_step (fun _ => rfl) (fun _ _ _ _ _ => totals_next) h hp

/-- How many connections are at a kind of place. -/
def count (place : Phase → Bool) (p : Tasks) : Nat :=
  Pool.total (fun u => (place u).toNat) p.threads

theorem cast_count (place : Phase → Bool) (p : Tasks) :
    (count place p : UInt64) = Pool.total (fun u => ((place u).toNat : UInt64)) p.threads :=
  Pool.map_total (Nat.castAddMonoidHom UInt64)

theorem Tallied.active (h : Tallied p) : p.shared.activeConnections = count counted p := by
  rw [cast_count]
  exact (congrArg Prod.fst h).trans (Pool.map_total (AddMonoidHom.fst UInt64 (UInt64 × UInt64)))

theorem Tallied.opens (h : Tallied p) : p.shared.connectionOpenTotal = count started p := by
  rw [cast_count]
  exact (congrArg (fun x => x.2.1) h).trans (Pool.map_total
    ((AddMonoidHom.fst UInt64 UInt64).comp (AddMonoidHom.snd UInt64 (UInt64 × UInt64))))

theorem Tallied.closed (h : Tallied p) :
    p.shared.connectionCloseTotal = Pool.total (fun u => (closes u : UInt64)) p.threads :=
  (congrArg (fun x => x.2.2) h).trans (Pool.map_total
    ((AddMonoidHom.snd UInt64 UInt64).comp (AddMonoidHom.snd UInt64 (UInt64 × UInt64))))

/-- No connection is between two updates of the counters. -/
def Quiet (p : Tasks) : Prop := ∀ u ∈ p.threads, between u = false

/-- The connections that are open are those opened and not closed, and each total has counted
every connection it should once. -/
structure Balanced (p : Tasks) : Prop where
  active : p.shared.activeConnections =
    p.shared.connectionOpenTotal - p.shared.connectionCloseTotal
  opens : p.shared.connectionOpenTotal = count started p
  closes : p.shared.connectionCloseTotal = count finished p

/-- An idle timeout of a reader. -/
def isIdleTimeout : Act → Bool
  | .advance _ (.finish .idleTimeout) => true
  | _ => false

theorem timedOut_next (hn : next c u input = some (c', u')) :
    (timedOut u').toNat = (timedOut u).toNat + (input == .finish .idleTimeout).toNat := by
  cases moves_of_next hn with
  | fail u h => rcases h with rfl | rfl <;> rfl
  | quit how => cases how <;> rfl
  | _ => rfl

theorem timedOut_step (h : step p a = some p') :
    count timedOut p' = count timedOut p + (isIdleTimeout a).toNat := by
  rcases Pool.step_cases h with ⟨call, rfl, rfl⟩ | ⟨pre, t, post, input, s, t', rfl, ht, hn, rfl⟩
  · simp only [count, Pool.total_concat]
    exact Nat.add_comm _ _
  · have hinput : isIdleTimeout (.advance pre.length input) = (input == .finish .idleTimeout) := by
      rcases input with _ | _ | how | _
      · rfl
      · rfl
      · cases how <;> rfl
      · rfl
    simp only [count, ht, Pool.total_split, timedOut_next hn, hinput]
    omega

theorem timedOut_run {acts : List Act} (h : run step p acts = some p') :
    count timedOut p' = count timedOut p + acts.countP isIdleTimeout := by
  induction acts generalizing p with
  | nil =>
    cases h
    rfl
  | cons a acts ih =>
    obtain ⟨q, hq, hrest⟩ := run_cons_iff.mp h
    rw [ih hrest, timedOut_step hq, List.countP_cons]
    cases isIdleTimeout a <;> simp +arith

/-- A connection that was found idle is counted as closed once too often. -/
theorem closes_of_settled (h : between u = false) :
    closes u = (timedOut u).toNat + (finished u).toNat := by
  cases u <;> first | rfl | simp [between] at h

theorem counted_of_settled (h : between u = false) :
    (counted u).toNat + (finished u).toNat = (started u).toNat := by
  cases u <;> first | rfl | simp [between] at h

theorem count_of_settled (hq : Quiet p) : count counted p + count finished p = count started p := by
  rw [count, count, count, ← Pool.total_add]
  exact Pool.total_congr fun u hu => counted_of_settled (hq u hu)

theorem Tallied.closed_of_settled (h : Tallied p) (hq : Quiet p) :
    p.shared.connectionCloseTotal = count timedOut p + count finished p := by
  rw [h.closed, cast_count, cast_count, ← Pool.total_add]
  refine Pool.total_congr fun u hu => ?_
  rw [closes_of_settled (hq u hu), Nat.cast_add]

theorem Tallied.balanced_iff (h : Tallied p) (hq : Quiet p) :
    Balanced p ↔ (count timedOut p : UInt64) = 0 := by
  have hclosed := h.closed_of_settled hq
  constructor
  · intro hb
    have hcloses := hb.closes
    rw [hclosed] at hcloses
    exact add_eq_right.mp hcloses
  · intro hidle
    rw [hidle, zero_add] at hclosed
    refine ⟨?_, h.opens, hclosed⟩
    rw [h.active, h.opens, hclosed, eq_sub_iff_add_eq, ← Nat.cast_add, count_of_settled hq]

/-- In every run, at every moment when no connection is between two updates of the counters,
they balance exactly when the number of idle timeouts so far is a multiple of 2⁶⁴: each of them
is counted as two closes. -/
theorem metrics_balance_iff (m : UInt64) (acts : List Act) (p : Tasks)
    (h : run step (initial m) acts = some p) (hq : Quiet p) :
    Balanced p ↔ acts.countP isIdleTimeout % 2 ^ 64 = 0 := by
  have htallied : Tallied p := run_invariant (fun _ _ _ => tallied_step) h rfl
  have hidle : count timedOut p = acts.countP isIdleTimeout := by
    rw [timedOut_run h]
    exact Nat.zero_add _
  rw [htallied.balanced_iff hq, hidle, ← UInt64.toNat_inj]
  change (UInt64.ofNat _).toNat = 0 ↔ _
  rw [UInt64.toNat_ofNat']

/-- One connection from its transport to its end. -/
def lifetime (how : Ending) : List Act :=
  [.spawn (), .advance 0 .go, .advance 0 .go, .advance 0 .go, .advance 0 .go,
    .advance 0 (.finish how), .advance 0 .go, .advance 0 .go, .advance 0 .go]

theorem closed_connection_balances :
    ∃ p, run step (initial 0) (lifetime .peerClosed) = some p ∧ Quiet p ∧ Balanced p ∧
      p.shared.connectionCloseTotal = 1 := by
  obtain ⟨p, hrun, hthreads, hclose⟩ : ∃ p, run step (initial 0) (lifetime .peerClosed) = some p ∧
      p.threads = [ended .peerClosed] ∧ p.shared.connectionCloseTotal = 1 := by
    decide +kernel
  have hq : Quiet p := by simp [Quiet, hthreads, between]
  exact ⟨p, hrun, hq, (metrics_balance_iff 0 _ p hrun hq).mpr rfl, hclose⟩

/-- One connection was opened and timed out: none is active, and two were closed. -/
theorem idle_connection_closes_twice :
    ∃ p, run step (initial 0) (lifetime .idleTimeout) = some p ∧ Quiet p ∧
      p.threads = [ended .idleTimeout] ∧ p.shared.activeConnections = 0 ∧
      p.shared.connectionOpenTotal = 1 ∧ p.shared.connectionCloseTotal = 2 ∧ ¬ Balanced p := by
  obtain ⟨p, hrun, hthreads, hactive, hopen, hclose⟩ : ∃ p,
      run step (initial 0) (lifetime .idleTimeout) = some p ∧ p.threads = [ended .idleTimeout] ∧
        p.shared.activeConnections = 0 ∧ p.shared.connectionOpenTotal = 1 ∧
        p.shared.connectionCloseTotal = 2 := by
    decide +kernel
  refine ⟨p, hrun, by simp [Quiet, hthreads, between], hthreads, hactive, hopen, hclose, ?_⟩
  intro hb
  have hbalance := hb.active
  rw [hactive, hopen, hclose] at hbalance
  exact absurd hbalance (by decide)

end Rifts.Census
