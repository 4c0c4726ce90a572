import Rifts.Connection.Census

/-! The limit on connections: the counter it is tested against moves in other tasks. -/
namespace Rifts.Census

open Transition Rifts.Census.Phase
open scoped UInt64.CommRing

/-- The number of accepted connections that are not over is within the limit. -/
def WithinLimit (p : Tasks) : Prop := count live p ≤ p.shared.maxConnections.toNat

/-- Accepted, and not in the counter: the task has not counted itself yet, or it has taken
itself off and is not over. -/
def uncounted : Phase → Bool
  | spawned | opened | draining _ => true
  | _ => false

/-- A transport arrives at the test only while every accepted connection is counted. -/
def settledArrival (p : Tasks) : Act → Prop
  | .spawn _ => True
  | .advance i _ => p.threads[i]? = some arriving → ∀ u ∈ p.threads, uncounted u = false

instance (p : Tasks) : DecidablePred (settledArrival p)
  | .spawn _ => .isTrue trivial
  | .advance i _ => inferInstanceAs (Decidable
      (p.threads[i]? = some arriving → ∀ u ∈ p.threads, uncounted u = false))

/-- Live, or counted for good. -/
def held : Phase → Bool
  | panicked _ => true
  | u => live u

/-- The limit with the connections that a panic has left in the counter. -/
structure Capped (p : Tasks) : Prop where
  tallied : Tallied p
  limited : 0 < p.shared.maxConnections
  within : count held p ≤ p.shared.maxConnections.toNat

variable {c c' : Counters} {u u' : Phase} {input : Input} {p p' : Tasks} {a : Act}

theorem live_le_held (u : Phase) : (live u).toNat ≤ (held u).toNat := by
  cases u <;> simp [live, held]

theorem Capped.withinLimit (h : Capped p) : WithinLimit p :=
  (Pool.total_mono fun u _ => live_le_held u).trans h.within

/-- Only an arrival that passes the test takes a place. -/
theorem held_next (hn : next c u input = some (c', u')) (hu : u ≠ arriving) :
    (held u').toNat ≤ (held u).toNat := by
  cases moves_of_next hn with
  | reject | accept => exact absurd rfl hu
  | fail u h => rcases h with rfl | rfl <;> simp [held, live]
  | _ => simp [held, live]

theorem arrival_next (hn : next c arriving input = some (c', u')) :
    u' = rejected ∨ u' = spawned ∧ ¬ full c := by
  cases moves_of_next hn with
  | reject => exact .inl rfl
  | accept hfull => exact .inr ⟨rfl, hfull⟩
  | fail _ h => simp at h

theorem held_of_counted (h : uncounted u = false) : (held u).toNat = (counted u).toNat := by
  cases u <;> first | rfl | simp [uncounted] at h

/-- With every accepted connection counted, the counter is the number of places taken. -/
theorem Capped.active (h : Capped p) (hall : ∀ u ∈ p.threads, uncounted u = false) :
    p.shared.activeConnections.toNat = count held p := by
  have hheld : count held p = count counted p :=
    Pool.total_congr fun u hu => held_of_counted (hall u hu)
  have hlt : count counted p < 2 ^ 64 :=
    hheld ▸ h.within.trans_lt p.shared.maxConnections.toNat_lt
  rw [h.tallied.active, hheld]
  exact UInt64.toNat_ofNat_of_lt' hlt

theorem capped_step (h : step p a = some p') (hok : settledArrival p a) (hp : Capped p) :
    Capped p' := by
  have htallied := tallied_step h hp.tallied
  rcases Pool.step_cases h with ⟨call, rfl, rfl⟩ | ⟨pre, u, post, input, c, u', rfl, ht, hn, rfl⟩
  · refine ⟨htallied, hp.limited, ?_⟩
    rw [count, Pool.total_concat]
    exact (Nat.zero_add _).trans_le hp.within
  · have hmax : c.maxConnections = p.shared.maxConnections := maxConnections_next hn
    refine ⟨htallied, by rw [hmax]; exact hp.limited, ?_⟩
    rw [hmax]
    have hwithin := hp.within
    simp only [count, ht, Pool.total_split] at hwithin ⊢
    by_cases hu : u = arriving
    · subst hu
      have hall : ∀ v ∈ p.threads, uncounted v = false := hok (by simp [ht])
      have hactive := hp.active hall
      simp only [count, ht, Pool.total_split] at hactive
      rcases arrival_next hn with rfl | ⟨rfl, hfull⟩
      · exact hwithin
      ·
        -- The test has passed, and the counter it read is the number of places taken.
        have hbelow : p.shared.activeConnections.toNat < p.shared.maxConnections.toNat :=
          Nat.lt_of_not_le fun hle => hfull ⟨hp.limited, UInt64.le_iff_toNat_le.mpr hle⟩
        rw [hactive] at hbelow
        simp only [held, live, Bool.toNat_false, Bool.toNat_true] at hbelow ⊢
        omega
    · have hle := held_next hn hu
      omega

/-- With a limit on the connections, every run in which transports arrive only while each
accepted connection has started and is in the counter keeps the limit: no run accepts more
connections that are not over than that. -/
theorem connections_within_limit (m : UInt64) (hm : 0 < m) (acts : List Act)
    (h : Guarded step settledArrival (initial m) acts) :
    Throughout step WithinLimit (initial m) acts :=
  throughout_mono (throughout_of_guarded (fun _ _ _ => capped_step) h ⟨rfl, hm, Nat.zero_le _⟩)
    fun _ => Capped.withinLimit

/-- One connection, and then another. -/
def twoInTurn : List Act :=
  lifetime .peerClosed ++ [.spawn (), .advance 1 .go, .advance 1 .go, .advance 1 .go]

theorem two_in_turn_within_limit :
    Guarded step settledArrival (initial 1) twoInTurn ∧
      Throughout step WithinLimit (initial 1) twoInTurn :=
  have h : Guarded step settledArrival (initial 1) twoInTurn := by decide +kernel
  ⟨h, connections_within_limit 1 (by decide) twoInTurn h⟩

/-- Two transports, both tested before the task of the first has run. -/
def twoAtOnce : List Act := [.spawn (), .spawn (), .advance 0 .go, .advance 1 .go]

/-- The limit is one, and two connections are accepted. -/
theorem two_at_once_pass_the_limit :
    ∃ p, run step (initial 1) twoAtOnce = some p ∧ p.threads = [spawned, spawned] ∧
      p.shared.maxConnections = 1 ∧ count live p = 2 ∧ ¬ WithinLimit p := by
  obtain ⟨p, hrun, hthreads, hmax⟩ : ∃ p, run step (initial 1) twoAtOnce = some p ∧
      p.threads = [spawned, spawned] ∧ p.shared.maxConnections = 1 := by
    decide +kernel
  have hlive : count live p = 2 := by rw [count, hthreads]; rfl
  refine ⟨p, hrun, hthreads, hmax, hlive, ?_⟩
  rw [WithinLimit, hlive, hmax]
  decide

end Rifts.Census
