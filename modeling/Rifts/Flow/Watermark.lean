import Rifts.Flow.Backpressure

/-! Pause and resume events of calls that are made one after the other. -/
namespace Rifts

open Transition

namespace Watermark

def step (c : BackpressureController) (op : QueueOp) : Option BackpressureController :=
  some (c.queue op).1

/-- The queue comes from below the mark to it, or further. -/
def Rises (c d : BackpressureController) : Prop :=
  c.currentBytes < c.highWater ∧ c.highWater ≤ d.currentBytes

/-- The queue comes from the mark or above to below it. -/
def Falls (c d : BackpressureController) : Prop :=
  c.highWater ≤ c.currentBytes ∧ d.currentBytes < c.highWater

instance {c d : BackpressureController} : Decidable (Rises c d) :=
  inferInstanceAs (Decidable (_ ∧ _))

instance {c d : BackpressureController} : Decidable (Falls c d) :=
  inferInstanceAs (Decidable (_ ∧ _))

/-- A pause is recorded when the queue rises to the mark, a resume when it falls below. -/
def Records (c : BackpressureController) (op : QueueOp) : Prop :=
  ∀ d ∈ step c op, d.flowPause = c.flowPause + (if Rises c d then 1 else 0) ∧
    d.flowResume = c.flowResume + if Falls c d then 1 else 0

/-- A resume answers a pause. -/
def Paired (c : BackpressureController) : Prop :=
  c.flowResume.toNat ≤ c.flowPause.toNat ∧ c.flowPause.toNat ≤ c.flowResume.toNat + 1

instance : DecidablePred Paired := fun _ => inferInstanceAs (Decidable (_ ≤ _ ∧ _ ≤ _))

/-- The message leaves the queue below the mark. -/
def StaysBelow (c : BackpressureController) : QueueOp → Prop
  | .tryEnqueue n => c.currentBytes + n < c.highWater
  | .release _ => True

instance {c : BackpressureController} : DecidablePred (StaysBelow c)
  | .tryEnqueue _ => UInt64.decLt _ _
  | .release _ => .isTrue trivial

/-- Nothing has been recorded, and the queue is below the mark. -/
structure Calm (c : BackpressureController) : Prop where
  strategy : c.strategy = .pause
  below : c.currentBytes < c.highWater
  pause : c.flowPause = 0
  resume : c.flowResume = 0

theorem calm_new {maxBytes : UInt64} (h : 0 < maxBytes) : Calm (.new maxBytes) where
  strategy := rfl
  below := by
    rw [UInt64.lt_iff_toNat_lt] at h ⊢
    rw [BackpressureController.toNat_highWater]
    change 0 < maxBytes.toNat at h
    change 0 < maxBytes.toNat - maxBytes.toNat / 10
    omega
  pause := rfl
  resume := rfl

theorem paired_of_calm {c : BackpressureController} (h : Calm c) : Paired c := by
  rw [Paired, h.pause, h.resume]
  decide

section Step

variable {c d : BackpressureController} {n : UInt64} {op : QueueOp}

theorem not_falls (h : c.currentBytes < c.highWater) : ¬ Falls c d := by
  rintro ⟨hle, -⟩
  exact absurd h (UInt64.not_lt.mpr hle)

/-- A message that is accepted moves the queue and records nothing. -/
theorem accepted_step (hroom : c.currentBytes + n ≤ c.maxBytes) (hc : Calm c) :
    (Records c (.tryEnqueue n) ↔ StaysBelow c (.tryEnqueue n)) ∧
      (StaysBelow c (.tryEnqueue n) → Calm (c.tryEnqueue n).1) := by
  have hd : (c.tryEnqueue n).1 = { c with currentBytes := c.currentBytes + n } := by
    rw [BackpressureController.tryEnqueue, if_pos hroom]
  refine ⟨?_, fun hstays => ?_⟩
  · have hrec : Records c (.tryEnqueue n) ↔ ¬ Rises c (c.tryEnqueue n).1 := by
      simp [Records, step, BackpressureController.queue, not_falls hc.below, hd]
    rw [hrec, hd]
    change ¬ (c.currentBytes < c.highWater ∧ c.highWater ≤ c.currentBytes + n) ↔
      c.currentBytes + n < c.highWater
    rw [and_iff_right hc.below, UInt64.not_le]
  · rw [hd]
    exact ⟨hc.strategy, hstays, hc.pause, hc.resume⟩

/-- A message that is refused records a pause and leaves the queue where it is. -/
theorem refused_step (hfull : ¬ c.currentBytes + n ≤ c.maxBytes) (hc : Calm c) :
    ¬ Records c (.tryEnqueue n) ∧ ¬ StaysBelow c (.tryEnqueue n) := by
  have hd : (c.tryEnqueue n).1 = { c.recordApplied with flowPause := c.flowPause + 1 } := by
    rw [BackpressureController.tryEnqueue, if_neg hfull, BackpressureController.mitigate]
    simp [BackpressureController.recordApplied, hc.strategy, BackpressureController.recordStrategy]
  constructor
  · intro hrec
    obtain ⟨hpause, -⟩ := hrec (c.tryEnqueue n).1 rfl
    have hrises : ¬ Rises c (c.tryEnqueue n).1 := by
      rw [hd]
      rintro ⟨hlt, hle⟩
      exact absurd hlt (UInt64.not_lt.mpr hle)
    rw [if_neg hrises, hd, hc.pause] at hpause
    change (0 : UInt64) + 1 = 0 + 0 at hpause
    exact absurd hpause (by decide)
  · intro hstays
    exact hfull (UInt64.le_of_lt (UInt64.lt_of_lt_of_le hstays c.highWater_le))

theorem release_step (hc : Calm c) : Records c (.release n) ∧ Calm (c.release n) := by
  have hle : Atomic.saturatingSub c.currentBytes n ≤ c.currentBytes := by
    rw [UInt64.le_iff_toNat_le, Atomic.toNat_saturatingSub]
    omega
  have hd : c.release n = { c with currentBytes := Atomic.saturatingSub c.currentBytes n } := by
    rw [BackpressureController.release, if_neg]
    rintro ⟨hmark, -⟩
    exact absurd hc.below (UInt64.not_lt.mpr hmark)
  have hbelow : (c.release n).currentBytes < c.highWater := by
    rw [hd]
    exact UInt64.lt_of_le_of_lt hle hc.below
  refine ⟨?_, ?_⟩
  · intro d hstep
    obtain rfl : c.release n = d := Option.some.inj hstep
    have hrises : ¬ Rises c (c.release n) := fun h => absurd hbelow (UInt64.not_lt.mpr h.2)
    rw [if_neg hrises, if_neg (not_falls hc.below), hd]
    simp
  · rw [hd] at hbelow ⊢
    exact ⟨hc.strategy, hbelow, hc.pause, hc.resume⟩

theorem calm_step (h : step c op = some d) (hc : Calm c) :
    (Records c op ↔ StaysBelow c op) ∧ (StaysBelow c op → Calm d) := by
  cases op with
  | tryEnqueue n =>
    cases h
    by_cases hroom : c.currentBytes + n ≤ c.maxBytes
    · exact accepted_step hroom hc
    · obtain ⟨hrec, hstays⟩ := refused_step hroom hc
      exact ⟨iff_of_false hrec hstays, fun h => absurd h hstays⟩
  | release n =>
    cases h
    obtain ⟨hrec, hcalm⟩ := release_step hc
    exact ⟨iff_of_true hrec trivial, fun _ => hcalm⟩

end Step

/-- The events are those of the mark exactly in the runs in which no message would take the
queue to it: an accepted one records no pause, and a refused one records a pause for nothing. -/
theorem paired_iff_staysBelow (maxBytes : UInt64) (h : 0 < maxBytes) (ops : List QueueOp) :
    Throughout step Paired (.new maxBytes) ops ∧ Guarded step Records (.new maxBytes) ops ↔
      Guarded step StaysBelow (.new maxBytes) ops := by
  constructor
  · rintro ⟨-, hrec⟩
    refine guarded_of_guarded (P := Calm) ?_ hrec (calm_new h)
    intro c op d hstep hop hc
    have hstays := (calm_step hstep hc).1.mp hop
    exact ⟨(calm_step hstep hc).2 hstays, hstays⟩
  · intro hstays
    constructor
    · have hcalm := throughout_of_guarded (P := Calm)
        (fun c op d hstep hop hc => (calm_step hstep hc).2 hop) hstays (calm_new h)
      exact throughout_mono hcalm fun _ => paired_of_calm
    · refine guarded_of_guarded (P := Calm) ?_ hstays (calm_new h)
      intro c op d hstep hop hc
      exact ⟨(calm_step hstep hc).2 hop, (calm_step hstep hc).1.mpr hop⟩

theorem paired_below_mark :
    Throughout step Paired (.new 10) [.tryEnqueue 8, .release 3, .tryEnqueue 3] ∧
      Guarded step Records (.new 10) [.tryEnqueue 8, .release 3, .tryEnqueue 3] :=
  (paired_iff_staysBelow 10 (by decide) _).mpr (by decide)

/-- A queue that is filled to the mark and drained resumes without having paused. -/
theorem resume_without_pause :
    ∃ c, run step (.new 10) [.tryEnqueue 9, .release 9] = some c ∧
      c.flowPause = 0 ∧ c.flowResume = 1 ∧ ¬ Paired c := by
  decide

end Watermark

end Rifts
