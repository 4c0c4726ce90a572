import Rifts.Flow.Backpressure

/-! The counters of a backpressure controller under concurrent calls. -/
namespace Rifts

open Transition

namespace FlowTally

abbrev Calls := Pool BackpressureController FlowPhase

abbrev Act := Pool.Act FlowCall Bool

def step (p : Calls) (a : Act) : Option Calls := Pool.step FlowPhase.program p a

def new (maxBytes : UInt64) : Calls := ⟨.new maxBytes, []⟩

/-- The bytes that a call has put in the queue. -/
def accepted : FlowPhase → ℕ
  | .returned n .accept => n.toNat
  | _ => 0

/-- The bytes that a call was to take out, once it has done so. -/
def released : FlowPhase → ℕ
  | .recordResume n _ _ | .released n _ _ => n.toNat
  | _ => 0

def refused : FlowPhase → ℕ
  | .returned _ a => if a = .accept then 0 else 1
  | _ => 0

def dropped : FlowPhase → ℕ
  | .returned _ a => if a.drops then 1 else 0
  | _ => 0

/-- The call is a release that took the queue from the mark or above to below it. -/
def crossed (mark : UInt64) : FlowPhase → ℕ
  | .released _ prev next => if mark ≤ prev ∧ next < mark then 1 else 0
  | _ => 0

/-- The accounts at one point of a run. -/
structure Exact (p : Calls) : Prop where
  bounded : p.shared.currentBytes ≤ p.shared.maxBytes
  balance : p.shared.currentBytes.toNat + Pool.total released p.threads =
    Pool.total accepted p.threads
  applied : (∀ u ∈ p.threads, u.isOver = true) →
    p.shared.applied.toNat = Pool.total refused p.threads
  dropped : (∀ u ∈ p.threads, u.isOver = true) →
    p.shared.dropped.toNat = Pool.total dropped p.threads
  resumed : (∀ u ∈ p.threads, u.isOver = true) →
    p.shared.flowResume.toNat = Pool.total (crossed p.shared.highWater) p.threads
  overloaded : 0 < p.shared.maxBytes →
    (p.shared.isOverloaded = true ↔
      9 * p.shared.maxBytes.toNat ≤ 10 * p.shared.currentBytes.toNat)

/-- The addition that a call is about to make stays within the word. -/
def InRange (c : BackpressureController) : FlowPhase → Prop
  | .enqueueExchange n prev => prev.toNat + n.toNat < 2 ^ 64
  | .recordApplied _ => c.applied.toNat + 1 < 2 ^ 64
  | .recordDropped .. => c.dropped.toNat + 1 < 2 ^ 64
  | .recordResume .. => c.flowResume.toNat + 1 < 2 ^ 64
  | _ => True

instance {c : BackpressureController} : DecidablePred (InRange c)
  | .enqueueExchange .. | .recordApplied _ | .recordDropped .. | .recordResume .. => Nat.decLt _ _
  | .enqueueLoad _ | .readStrategy _ | .recordStrategy .. | .returned .. | .releaseLoad _
  | .releaseExchange .. | .released .. | .setStrategy _ | .strategySet => .isTrue trivial

/-- No addition leaves the word, and no more is released than was accepted. -/
def Fair (p : Calls) (a : Act) : Prop :=
  Pool.Allows (fun c u _ => InRange c u) p a ∧
    ∀ q ∈ step p a, Pool.total released q.threads ≤ Pool.total accepted q.threads

instance {p : Calls} {a : Act} : Decidable (Fair p a) := inferInstanceAs (Decidable (_ ∧ _))

/-- The share of a call in `applied`, also while it is in progress. -/
def appliedShare : FlowPhase → ℕ
  | .readStrategy _ | .recordDropped .. | .recordStrategy .. => 1
  | u => refused u

def droppedShare : FlowPhase → ℕ
  | .recordStrategy _ s => if s.action.drops then 1 else 0
  | u => dropped u

theorem appliedShare_of_isOver {u : FlowPhase} (h : u.isOver = true) :
    appliedShare u = refused u := by
  cases u <;> first | rfl | cases h

theorem droppedShare_of_isOver {u : FlowPhase} (h : u.isOver = true) :
    droppedShare u = dropped u := by
  cases u <;> first | rfl | cases h

section Shares

variable (mark n prev next : UInt64) (s : BackpressureStrategy)

theorem shares_mitigating : accepted (.mitigating n s) = 0 ∧ released (.mitigating n s) = 0 ∧
    appliedShare (.mitigating n s) = 1 ∧ droppedShare (.mitigating n s) = 0 ∧
    crossed mark (.mitigating n s) = 0 := by
  cases s <;> exact ⟨rfl, rfl, rfl, rfl, rfl⟩

theorem shares_action : accepted (.returned n s.action) = 0 ∧
    appliedShare (.returned n s.action) = 1 ∧
    droppedShare (.returned n s.action) = droppedShare (.recordStrategy n s) := by
  cases s <;> exact ⟨rfl, rfl, rfl⟩

/-- A release that crosses the mark is counted in a step of its own. -/
theorem shares_releasing : accepted (.releasing mark n prev next) = 0 ∧
    released (.releasing mark n prev next) = n.toNat ∧
    appliedShare (.releasing mark n prev next) = 0 ∧
    droppedShare (.releasing mark n prev next) = 0 ∧
    crossed mark (.releasing mark n prev next) = 0 := by
  unfold FlowPhase.releasing
  split
  · exact ⟨rfl, rfl, rfl, rfl, rfl⟩
  · next h => exact ⟨rfl, rfl, rfl, rfl, if_neg h⟩

end Shares

variable {c c' : BackpressureController} {u u' : FlowPhase} {p p' : Calls} {a : Act}

theorem maxBytes_moves (h : FlowPhase.Moves c u c' u') : c'.maxBytes = c.maxBytes := by
  cases h with
  | count n s => cases s <;> rfl
  | _ => rfl

/-- The queue moves by what the call accounts for, as long as there is as much to take out. -/
theorem currentBytes_moves (h : FlowPhase.Moves c u c' u') (hr : InRange c u) :
    accepted u ≤ accepted u' ∧ released u ≤ released u' ∧
      c'.currentBytes.toNat =
        c.currentBytes.toNat + (accepted u' - accepted u) - (released u' - released u) := by
  cases h with
  | accept n => exact ⟨Nat.zero_le _, le_rfl, Atomic.toNat_add_of_lt hr⟩
  | readStrategy n =>
    obtain ⟨ha, hrel, -⟩ := shares_mitigating 0 n c.strategy
    rw [ha, hrel]
    exact ⟨le_rfl, le_rfl, rfl⟩
  | count n s =>
    rw [(shares_action n s).1]
    refine ⟨le_rfl, le_rfl, ?_⟩
    cases s <;> rfl
  | release n =>
    obtain ⟨ha, hrel, -⟩ := shares_releasing c.highWater n c.currentBytes
      (Atomic.saturatingSub c.currentBytes n)
    rw [ha, hrel]
    exact ⟨le_rfl, Nat.zero_le _, Atomic.toNat_saturatingSub _ _⟩
  | resume n prev next =>
    have hkeeps : released (.released n prev next) - released (.recordResume n prev next) = 0 :=
      Nat.sub_self _
    rw [hkeeps]
    exact ⟨le_rfl, le_rfl, rfl⟩
  | _ => exact ⟨le_rfl, le_rfl, rfl⟩

theorem bounded_moves (h : FlowPhase.Moves c u c' u') (hc : c.currentBytes ≤ c.maxBytes) :
    c'.currentBytes ≤ c'.maxBytes := by
  cases h with
  | accept n hroom => exact hroom
  | release n =>
    rw [UInt64.le_iff_toNat_le] at hc ⊢
    change (Atomic.saturatingSub c.currentBytes n).toNat ≤ c.maxBytes.toNat
    rw [Atomic.toNat_saturatingSub]
    omega
  | count n s => cases s <;> exact hc
  | _ => exact hc

theorem applied_moves (h : FlowPhase.Moves c u c' u') (hr : InRange c u) :
    c'.applied.toNat + appliedShare u = c.applied.toNat + appliedShare u' := by
  cases h with
  | apply n => exact Atomic.toNat_succ hr
  | readStrategy n => rw [(shares_mitigating 0 n c.strategy).2.2.1]; rfl
  | count n s =>
    rw [(shares_action n s).2.1]
    cases s <;> rfl
  | release n => rw [(shares_releasing ..).2.2.1]; rfl
  | _ => rfl

theorem dropped_moves (h : FlowPhase.Moves c u c' u') (hr : InRange c u) :
    c'.dropped.toNat + droppedShare u = c.dropped.toNat + droppedShare u' := by
  cases h with
  | drop n s =>
    have hshare : droppedShare (.recordStrategy n s) = 1 := if_pos s.2
    rw [hshare]
    exact Atomic.toNat_succ hr
  | readStrategy n => rw [(shares_mitigating 0 n c.strategy).2.2.2.1]; rfl
  | count n s =>
    rw [(shares_action n s).2.2]
    cases s <;> rfl
  | release n => rw [(shares_releasing ..).2.2.2.1]; rfl
  | _ => rfl

/-- A call that is about to count a resume has crossed the mark. -/
def Crossing (mark : UInt64) (u : FlowPhase) : Prop :=
  ∀ n prev next, u = .recordResume n prev next → mark ≤ prev ∧ next < mark

theorem crossing_moves (h : FlowPhase.Moves c u c' u') : Crossing c.highWater u' := by
  cases h with
  | readStrategy n =>
    intro n' prev next hu
    cases hs : c.strategy <;> rw [hs] at hu <;> cases hu
  | release n =>
    intro n' prev next hu
    unfold FlowPhase.releasing at hu
    split at hu
    · next hcross =>
      cases hu
      exact hcross
    · cases hu
  | _ =>
    intro n prev next hu
    cases hu

/-- A release is counted when it has crossed the mark, and no other is. -/
theorem flowResume_moves (h : FlowPhase.Moves c u c' u') (hr : InRange c u)
    (hu : Crossing c.highWater u) :
    c'.flowResume.toNat + crossed c.highWater u = c.flowResume.toNat + crossed c.highWater u' := by
  cases h with
  | resume n prev next =>
    have hcrossed : crossed c.highWater (.released n prev next) = 1 := if_pos (hu _ _ _ rfl)
    rw [hcrossed]
    exact Atomic.toNat_succ hr
  | readStrategy n => rw [(shares_mitigating _ n c.strategy).2.2.2.2]; rfl
  | count n s => cases s <;> rfl
  | release n => rw [(shares_releasing ..).2.2.2.2]; rfl
  | _ => rfl

/-- The accounts with the shares of the calls in progress. -/
structure Sound (p : Calls) : Prop where
  bounded : p.shared.currentBytes ≤ p.shared.maxBytes
  balance : p.shared.currentBytes.toNat + Pool.total released p.threads =
    Pool.total accepted p.threads
  applied : p.shared.applied.toNat = Pool.total appliedShare p.threads
  dropped : p.shared.dropped.toNat = Pool.total droppedShare p.threads
  crossing : ∀ u ∈ p.threads, Crossing p.shared.highWater u
  resumed : p.shared.flowResume.toNat = Pool.total (crossed p.shared.highWater) p.threads

theorem sound_new (maxBytes : UInt64) : Sound (new maxBytes) where
  bounded := UInt64.le_iff_toNat_le.mpr (Nat.zero_le _)
  balance := rfl
  applied := rfl
  dropped := rfl
  crossing := by simp [new]
  resumed := rfl

theorem total_start {f : FlowPhase → ℕ} (hf : ∀ k, f (.start k) = 0) (ts : List FlowPhase)
    (k : FlowCall) : Pool.total f (ts ++ [.start k]) = Pool.total f ts := by
  rw [Pool.total_concat, hf, zero_add]

theorem sound_spawn {ts : List FlowPhase} (k : FlowCall) (hs : Sound ⟨c, ts⟩) :
    Sound ⟨c, ts ++ [.start k]⟩ where
  bounded := hs.bounded
  balance := by
    rw [total_start (by rintro (⟨_ | _⟩ | _) <;> rfl),
      total_start (by rintro (⟨_ | _⟩ | _) <;> rfl)]
    exact hs.balance
  applied := by
    rw [total_start (by rintro (⟨_ | _⟩ | _) <;> rfl)]
    exact hs.applied
  dropped := by
    rw [total_start (by rintro (⟨_ | _⟩ | _) <;> rfl)]
    exact hs.dropped
  crossing := by
    intro u hu
    rcases List.mem_append.mp hu with hold | hnew
    · exact hs.crossing u hold
    · rw [List.mem_singleton.mp hnew]
      intro n prev next hstart
      rcases k with ⟨_ | _⟩ | _ <;> cases hstart
  resumed := by
    rw [total_start (by rintro (⟨_ | _⟩ | _) <;> rfl)]
    exact hs.resumed

theorem sound_moves {pre post : List FlowPhase} (h : FlowPhase.Moves c u c' u')
    (hr : InRange c u)
    (hcover : Pool.total released (pre ++ u' :: post) ≤ Pool.total accepted (pre ++ u' :: post))
    (hs : Sound ⟨c, pre ++ u :: post⟩) : Sound ⟨c', pre ++ u' :: post⟩ := by
  obtain ⟨hbounded, hbalance, happlied, hdropped, hcrossing, hresumed⟩ := hs
  have hmark : c'.highWater = c.highWater := by
    rw [BackpressureController.highWater, BackpressureController.highWater, maxBytes_moves h]
  simp only [Pool.total_split] at hbalance happlied hdropped hresumed hcover
  have hcross := Pool.forall_mem_split.mp hcrossing
  constructor
  · exact bounded_moves h hbounded
  · simp only [Pool.total_split]
    obtain ⟨ha, hrel, hcurrent⟩ := currentBytes_moves h hr
    omega
  · simp only [Pool.total_split]
    have := applied_moves h hr
    omega
  · simp only [Pool.total_split]
    have := dropped_moves h hr
    omega
  · rw [hmark]
    exact Pool.forall_mem_split.mpr ⟨crossing_moves h, hcross.2⟩
  · simp only [Pool.total_split, hmark]
    have := flowResume_moves h hr hcross.1
    omega

theorem sound_step (h : step p a = some p') (hf : Fair p a) (hs : Sound p) : Sound p' := by
  refine Pool.invariant_step_of_guard (fun c ts k _ => sound_spawn k) ?_ h hf hs
  rintro c pre u post input c' u' hn ⟨hrange, hcover⟩
  exact sound_moves (FlowPhase.moves_of_next hn) ((Pool.allows_advance rfl).mp hrange)
    (hcover _ (Pool.step_advance hn))

theorem exact_of_sound (hs : Sound p) : Exact p where
  bounded := hs.bounded
  balance := hs.balance
  applied hover := by
    rw [hs.applied]
    exact Pool.total_congr fun u hu => appliedShare_of_isOver (hover u hu)
  dropped hover := by
    rw [hs.dropped]
    exact Pool.total_congr fun u hu => droppedShare_of_isOver (hover u hu)
  resumed _ := hs.resumed
  overloaded := BackpressureController.isOverloaded_iff

/-- The counters are exact in every interleaving of calls. -/
theorem throughout_exact (maxBytes : UInt64) (as : List Act)
    (hf : Guarded step Fair (new maxBytes) as) : Throughout step Exact (new maxBytes) as := by
  have hsound := throughout_of_guarded (P := Sound) (fun _ _ _ => sound_step) hf
    (sound_new maxBytes)
  exact throughout_mono hsound fun _ => exact_of_sound

/-- Two calls race for the last bytes: one takes them between the load and the exchange of the
other, which is refused, and a release crosses the mark. -/
def raced : List Act :=
  [.spawn (.queue (.tryEnqueue 6)), .spawn (.queue (.tryEnqueue 9)), .advance 0 false,
    .advance 1 false, .advance 1 true, .advance 1 false, .advance 0 false, .advance 0 false,
    .advance 0 false, .spawn (.setStrategy .disconnect), .advance 2 false, .advance 0 false,
    .advance 0 false, .advance 0 false, .spawn (.queue (.release 9)), .advance 3 false,
    .advance 3 false, .advance 3 false]

theorem raced_exact : Throughout step Exact (new 10) raced ∧
    ∃ p, run step (new 10) raced = some p ∧ (∀ u ∈ p.threads, u.isOver = true) ∧
      p.shared.applied = 1 ∧ p.shared.dropped = 1 ∧ p.shared.flowResume = 1 :=
  ⟨throughout_exact 10 raced (by decide +kernel), by decide +kernel⟩

end FlowTally

end Rifts
