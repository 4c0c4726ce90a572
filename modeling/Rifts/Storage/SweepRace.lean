import Rifts.Storage.Dedupe
import Rifts.Transition.Pool

/-! Sweeps of the in-memory dedupe store, cut where other calls can get in between. -/
namespace Rifts

inductive DedupeTask
  | check (topic key : String) (window : Nat)
  | sweep
  deriving DecidableEq, Repr

/-- A `check_and_record` is one access to its map entry. A sweep collects the expired
keys and then removes them one by one. -/
inductive DedupePhase
  | check (topic key : String) (window : Nat)
  | checked (now : Int64) (topic key : String) (window : Nat) (fresh : Bool)
  | collect
  | remove (keys : List (String × String)) (removed : Nat)
  | swept (removed : Nat)
  deriving DecidableEq, Repr

/-- The store, and the last reading of the clock. -/
structure SweepState where
  table : DedupeTable
  clock : Int64

namespace DedupePhase

def start : DedupeTask → DedupePhase
  | .check topic key window => check topic key window
  | .sweep => collect

/-- One access, at a reading of the clock that is not before the last one. -/
def next (s : SweepState) (u : DedupePhase) (now : Int64) : Option (SweepState × DedupePhase) :=
  if now < s.clock then none
  else
    match u with
    | check topic key window =>
      let (table, fresh) := s.table.checkAndRecord now topic key window
      some (⟨table, now⟩, checked now topic key window fresh)
    | collect => some (⟨s.table, now⟩, remove (s.table.expired now) 0)
    | remove (k :: keys) removed =>
      let (table, removed) := DedupeTable.sweepKey (s.table, removed) k
      some (⟨table, now⟩, remove keys removed)
    | remove [] removed => some (⟨s.table, now⟩, swept removed)
    | checked .. | swept _ => none

def program : Transition.Program SweepState DedupePhase DedupeTask Int64 := ⟨start, next⟩

/-- A sweep that nobody interrupts does what `sweep` does. -/
theorem solo_sweep (s : SweepState) {now : Int64} (h : s.clock ≤ now) :
    ∃ inputs, Transition.run (Transition.Pool.solo program) (s, collect) inputs =
      some (⟨(s.table.sweep now).1, now⟩, swept (s.table.sweep now).2) := by
  have hremove (keys : List (String × String)) (table : DedupeTable) (n : Nat) :
      ∃ inputs, Transition.run (Transition.Pool.solo program) (⟨table, now⟩, remove keys n) inputs =
        some (⟨(keys.foldl DedupeTable.sweepKey (table, n)).1, now⟩,
          swept (keys.foldl DedupeTable.sweepKey (table, n)).2) := by
    induction keys generalizing table n with
    | nil => exact ⟨[now], by simp [Transition.run, Transition.Pool.solo, program, next]⟩
    | cons k keys ih =>
      obtain ⟨inputs, hrun⟩ := ih (DedupeTable.sweepKey (table, n) k).1
        (DedupeTable.sweepKey (table, n) k).2
      refine ⟨now :: inputs, Transition.run_cons_iff.mpr ⟨_, ?_, hrun⟩⟩
      simp [Transition.Pool.solo, program, next]
  obtain ⟨inputs, hrun⟩ := hremove (s.table.expired now) s.table 0
  refine ⟨now :: inputs, Transition.run_cons_iff.mpr ⟨_, ?_, hrun⟩⟩
  simp [Transition.Pool.solo, program, next, Int64.not_lt.mpr h]

/-- The clock reading, the key and the window of a call that returned true. -/
def accepted : DedupePhase → Option (Int64 × (String × String) × Nat)
  | checked now topic key window true => some (now, (topic, key), window)
  | _ => none

/-- Two calls that returned true for one key under one window are a window apart. -/
def Apart (u v : DedupePhase) : Prop :=
  ∀ (now now' : Int64) (k : String × String) (window : Nat), u.accepted = some (now, k, window) →
    v.accepted = some (now', k, window) →
    now.toInt + window ≤ now'.toInt ∨ now'.toInt + window ≤ now.toInt

theorem apart_symm (u v : DedupePhase) (h : Apart u v) : Apart v u :=
  fun now now' k window hv hu => (h now' now k window hu hv).symm

theorem apart_of_accepted_eq_none {u v : DedupePhase} (h : u.accepted = none) : Apart u v := by
  intro now now' k window hu
  rw [h] at hu
  cases hu

/-- Where a call that returned true has no live record to show, its window is over. -/
def Covered (s : SweepState) (u : DedupePhase) : Prop :=
  ∀ (now : Int64) (k : String × String) (window : Nat), u.accepted = some (now, k, window) →
    ∀ n, s.clock ≤ n → (∀ e, s.table.inner k = some e → e ≤ n) → now.toInt + window ≤ n.toInt

end DedupePhase

namespace SweepRace

open Transition DedupePhase

abbrev Calls := Pool SweepState DedupePhase

abbrev Act := Pool.Act DedupeTask Int64

def step (p : Calls) (a : Act) : Option Calls := Pool.step program p a

/-- A check's expiry fits an `i64`, and a sweep removes a record that is gone or has
expired by the clock it is removed at. -/
def safe (p : Calls) : Act → Bool
  | .spawn _ => true
  | .advance i now =>
    match p.threads[i]? with
    | some (.check _ _ window) => now.toInt + window < 2 ^ 63
    | some (.remove (k :: _) _) => (p.shared.table.inner k).all (· ≤ now)
    | _ => true

structure Spaced (p : Calls) : Prop where
  apart : p.threads.Pairwise Apart
  covered : ∀ u ∈ p.threads, Covered p.shared u

variable {p p' : Calls} {a : Act} {s : SweepState} {u v : DedupePhase} {now : Int64}

/-- A step that takes live records from no one leaves every call covered. -/
theorem covered_mono (hclock : p.shared.clock ≤ s.clock)
    (hinner : ∀ k n, s.clock ≤ n → (∀ e, s.table.inner k = some e → e ≤ n) →
      ∀ e, p.shared.table.inner k = some e → e ≤ n) (h : Covered p.shared u) : Covered s u := by
  intro now k window hu n hn hexpired
  exact h now k window hu n (Int64.le_trans hclock hn) (hinner k n hn hexpired)

/-- A step of a thread that does not return true. -/
theorem spaced_quiet {pre post : List DedupePhase} (hp : p.threads = pre ++ u :: post)
    (hv : v.accepted = none)
    (hcovered : ∀ w ∈ pre ++ post, Covered p.shared w → Covered s w) (h : Spaced p) :
    Spaced ⟨s, pre ++ v :: post⟩ := by
  obtain ⟨hapart, hall⟩ := h
  rw [hp, Pool.pairwise_split apart_symm] at hapart
  rw [hp, Pool.forall_mem_split] at hall
  constructor
  · rw [Pool.pairwise_split apart_symm]
    exact ⟨fun w _ => apart_of_accepted_eq_none hv, hapart.2⟩
  · refine Pool.forall_mem_split.mpr ⟨?_, fun w hw => hcovered w hw (hall.2 w hw)⟩
    intro now k window hacc
    rw [hv] at hacc
    cases hacc

/-- A call that returns true comes a window after every other on its key. -/
theorem spaced_accept {pre post : List DedupePhase} {k : String × String} {window : Nat}
    (hp : p.threads = pre ++ u :: post) (hv : v.accepted = some (now, k, window))
    (hclock : p.shared.clock ≤ now) (hfits : now.toInt + window < 2 ^ 63)
    (hfresh : ∀ e, p.shared.table.inner k = some e → e ≤ now)
    (hs : s.clock = now)
    (hinner : s.table.inner =
      Function.update p.shared.table.inner k (some (now + Int64.ofNat window)))
    (h : Spaced p) : Spaced ⟨s, pre ++ v :: post⟩ := by
  obtain ⟨hapart, hall⟩ := h
  rw [hp, Pool.pairwise_split apart_symm] at hapart
  rw [hp, Pool.forall_mem_split] at hall
  have hexp : (now + Int64.ofNat window).toInt = now.toInt + window := Dedupe.toInt_expiry hfits
  constructor
  · rw [Pool.pairwise_split apart_symm]
    refine ⟨?_, hapart.2⟩
    intro w hw now₁ now₂ k' window' hvacc hwacc
    cases hv.symm.trans hvacc
    exact .inr (hall.2 w hw now₂ k window hwacc now hclock hfresh)
  · refine Pool.forall_mem_split.mpr ⟨?_, ?_⟩
    · intro now' k' window' hacc n hn hexpired
      cases hv.symm.trans hacc
      have hle := Int64.le_iff_toInt_le.mp (hexpired _ (by rw [hinner, Function.update_self]))
      omega
    · intro w hw
      refine covered_mono (hs ▸ hclock) ?_ (hall.2 w hw)
      intro k' n hn hexpired e he
      by_cases hk : k' = k
      · subst hk
        exact Int64.le_trans (hfresh e he) (hs ▸ hn)
      · refine hexpired e ?_
        rw [hinner, Function.update_of_ne hk]
        exact he

theorem spaced_spawn (h : Spaced p) (task : DedupeTask) :
    Spaced ⟨p.shared, p.threads ++ [start task]⟩ := by
  have hnone : (start task).accepted = none := by cases task <;> rfl
  constructor
  · refine List.pairwise_append.mpr ⟨h.apart, List.pairwise_singleton .., ?_⟩
    intro u hu v hv
    rw [List.mem_singleton.mp hv]
    exact apart_symm _ _ (apart_of_accepted_eq_none hnone)
  · intro u hu
    rcases List.mem_append.mp hu with hu | hu
    · exact h.covered u hu
    · rw [List.mem_singleton.mp hu]
      intro now k window hacc
      rw [hnone] at hacc
      cases hacc

/-- A sweep only takes away records, and here only ones that have expired. -/
theorem expired_of_sweepKey {table : DedupeTable} {k : String × String} {removed : Nat}
    (h : (table.inner k).all (· ≤ now) = true) (k' : String × String) (n : Int64) (hn : now ≤ n)
    (hexpired : ∀ e, (DedupeTable.sweepKey (table, removed) k).1.inner k' = some e → e ≤ n)
    (e : Int64) (he : table.inner k' = some e) : e ≤ n := by
  have hinner : (DedupeTable.sweepKey (table, removed) k).1.inner =
      Function.update table.inner k none := by
    cases hk : table.inner k <;> simp [DedupeTable.sweepKey, DedupeTable.remove, hk]
  by_cases hk : k' = k
  · subst hk
    rw [he] at h
    exact Int64.le_trans (by simpa using h) hn
  · exact hexpired e (by rw [hinner, Function.update_of_ne hk, he])

theorem spaced_step (h : step p a = some p') (hsafe : safe p a = true) (hs : Spaced p) :
    Spaced p' := by
  rcases Pool.step_cases h with ⟨task, rfl, rfl⟩ | ⟨pre, u, post, now, s, v, rfl, hp, hn, rfl⟩
  · exact spaced_spawn hs task
  · simp only [safe, hp, List.getElem?_append_right le_rfl, Nat.sub_self,
      List.getElem?_cons_zero] at hsafe
    change next p.shared u now = some (s, v) at hn
    unfold next at hn
    split at hn
    · cases hn
    · next hclock =>
      have hclock := Int64.not_lt.mp hclock
      cases u with
      | check topic key window =>
        obtain ⟨rfl, rfl⟩ : s = ⟨(p.shared.table.checkAndRecord now topic key window).1, now⟩ ∧
            v = checked now topic key window
              (p.shared.table.checkAndRecord now topic key window).2 := by
          cases hn
          exact ⟨rfl, rfl⟩
        obtain ⟨hdup, -, hinner⟩ | ⟨hfresh, hle, hinner⟩ :=
          DedupeTable.checkAndRecord_cases p.shared.table now topic key window
        · refine spaced_quiet hp (by rw [hdup]; rfl) (fun w _ => covered_mono hclock ?_) hs
          intro k n _ hexpired e he
          exact hexpired e (by rw [hinner]; exact he)
        · exact spaced_accept hp (by rw [hfresh]; rfl) hclock (of_decide_eq_true hsafe) hle rfl
            hinner hs
      | collect =>
        cases hn
        exact spaced_quiet hp rfl (fun w _ => covered_mono hclock fun _ _ _ h => h) hs
      | remove keys removed =>
        cases keys with
        | nil =>
          cases hn
          exact spaced_quiet hp rfl (fun w _ => covered_mono hclock fun _ _ _ h => h) hs
        | cons k keys =>
          cases hn
          refine spaced_quiet hp rfl (fun w _ => covered_mono hclock ?_) hs
          exact expired_of_sweepKey hsafe
      | checked => cases hn
      | swept => cases hn

/-- Whatever calls and sweeps run at once on a store, while every step is safe the
calls that returned true for one key under one window stay a window apart. -/
theorem sweep_keeps_windows (s : SweepState) (acts : List Act)
    (h : Guarded step (fun p a => safe p a = true) ⟨s, []⟩ acts) :
    Throughout step (fun p => p.threads.Pairwise Apart) ⟨s, []⟩ acts := by
  have hspaced : Throughout step Spaced ⟨s, []⟩ acts :=
    throughout_of_guarded (fun _ _ _ hstep hok hs => spaced_step hstep hok hs) h ⟨.nil, by simp⟩
  exact throughout_mono hspaced fun _ hs => hs.apart

/-- A key expires at 10 and a sweep finds it then. It is recorded again at 10, and
checked once more after the sweep has removed what it found. -/
def refreshedDuringSweep (removed checked : Int64) : List Act :=
  [.spawn (.check "t" "m" 10), .advance 0 0, .spawn .sweep, .advance 1 10,
    .spawn (.check "t" "m" 10), .advance 2 10, .advance 1 removed, .spawn (.check "t" "m" 10),
    .advance 3 checked]

/-- No harm is done when the sweep is so slow that the new record has expired too. -/
theorem late_removal_keeps_windows :
    ∃ p, run step ⟨⟨.new, 0⟩, []⟩ (refreshedDuringSweep 20 20) = some p ∧
      (p.threads.map accepted).reduceOption =
        [(0, ("t", "m"), 10), (10, ("t", "m"), 10), (20, ("t", "m"), 10)] ∧
      Throughout step (fun p => p.threads.Pairwise Apart) ⟨⟨.new, 0⟩, []⟩
        (refreshedDuringSweep 20 20) := by
  exact ⟨_, rfl, by decide, sweep_keeps_windows _ _ (by decide)⟩

/-- The sweep removes the new record, and the key is accepted twice at 10. -/
theorem sweep_reopens_window :
    ∃ p, run step ⟨⟨.new, 0⟩, []⟩ (refreshedDuringSweep 10 10) = some p ∧
      ¬ p.threads.Pairwise Apart := by
  obtain ⟨p, hrun, hthreads⟩ : ∃ p, run step ⟨⟨.new, 0⟩, []⟩ (refreshedDuringSweep 10 10) = some p ∧
      p.threads = [.checked 0 "t" "m" 10 true, .remove [] 1, .checked 10 "t" "m" 10 true,
        .checked 10 "t" "m" 10 true] := ⟨_, rfl, by decide⟩
  refine ⟨p, hrun, ?_⟩
  rw [hthreads]
  intro h
  simp only [List.pairwise_cons] at h
  have hapart := h.2.2.1 _ (List.mem_singleton_self _) 10 10 ("t", "m") 10 rfl rfl
  simp at hapart

end SweepRace

end Rifts
