import Rifts.Client.Ledger

/-! What `close` leaves to a `try_reconnect` that is under way. -/
namespace Rifts

namespace Ledger

open Transition ClientPhase RiftClient

/-- From the return of `close` to the next `connect` the slot is empty, and every connection
that `try_reconnect` has opened was shut by a `close` or has ended. -/
def Final (p : Tasks) : Prop :=
  p.shared.2.final = true → p.shared.1.inner = none ∧
    ∀ n ∈ p.shared.2.reopened, n ∈ p.shared.2.shut ∨ p.shared.1.ended n = true

/-- In a `connect` that has the lock of the slot. -/
def locking : ClientPhase → Bool
  | dialing | greeting => true
  | _ => false

/-- In `try_reconnect` and past its last look at `closed`. -/
def reopening : ClientPhase → Bool
  | redialing _ | regreeting _ | installing .. => true
  | _ => false

/-- `close` takes the slot while the client is still marked as closed and no `try_reconnect` is
past its last look at the mark, and none puts its connection over an open one of another. -/
def timely (p : Tasks) : ClientPhase → Prop
  | emptying => p.shared.1.closed = true ∧ ∀ t ∈ p.threads, reopening t.1 = false
  | installing .. =>
    ∀ n ∈ p.shared.1.inner, n ∈ p.shared.2.reopened → p.shared.1.ended n = true
  | _ => True

instance (p : Tasks) : DecidablePred (timely p)
  | emptying => inferInstanceAs (Decidable
      (p.shared.1.closed = true ∧ ∀ t ∈ p.threads, reopening t.1 = false))
  | installing .. => inferInstanceAs (Decidable
      (∀ n ∈ p.shared.1.inner, n ∈ p.shared.2.reopened → p.shared.1.ended n = true))
  | connecting | dialing | greeting | failed _ | waiting _ | woken | looping _ | sleeping _
  | redialing _ | regreeting _ | closing | reading _ | done => .isTrue trivial

def undisturbed (p : Tasks) : RiftClient.Act → Prop
  | .spawn _ => True
  | .advance i _ => ∀ t ∈ p.threads[i]?, timely p t.1

instance (p : Tasks) : DecidablePred (undisturbed p)
  | .spawn _ => .isTrue trivial
  | .advance i _ => inferInstanceAs (Decidable (∀ t ∈ p.threads[i]?, timely p t.1))

/-- The lock is held by the one `connect` that is in its handshake, and then the slot is
empty. -/
structure Locked (p : Tasks) : Prop where
  held : Pool.total (fun t => (locking t.1).toNat) p.threads = p.shared.1.locked.toNat
  empty : p.shared.1.locked = true → p.shared.1.inner = none

/-- A connection was shut, has ended, is in the slot, or a task is about to put it there. -/
def Placed (s : RiftClient × Notes) (ts : List (ClientPhase × Option Nat)) (n : Nat) : Prop :=
  n ∈ s.2.shut ∨ s.1.ended n = true ∨ s.1.inner = some n ∨
    ∃ t ∈ ts, ∃ sessionId epoch, t.1 = installing n sessionId epoch

/-- Every connection that `try_reconnect` opened has its place. -/
def Accounted (p : Tasks) : Prop := ∀ n ∈ p.shared.2.reopened, Placed p.shared p.threads n

/-- After `close` the mark stands, and no task is about to fill the slot. -/
def Calm (p : Tasks) : Prop :=
  p.shared.2.final = true → p.shared.1.closed = true ∧ p.shared.1.inner = none ∧
    ∀ t ∈ p.threads, locking t.1 = false ∧ reopening t.1 = false

variable {s s' : RiftClient × Notes} {t t' : ClientPhase × Option Nat} {input : ClientInput}
  {p p' : Tasks} {a : RiftClient.Act} {pre post : List (ClientPhase × Option Nat)}

theorem final_of_calm (hc : Calm p) (ha : Accounted p) : Final p := by
  intro hfinal
  obtain ⟨-, hinner, hidle⟩ := hc hfinal
  refine ⟨hinner, fun n hn => ?_⟩
  rcases ha n hn with hshut | hended | hslot | ⟨t, ht, sessionId, epoch, hphase⟩
  · exact .inl hshut
  · exact .inr hended
  · rw [hinner] at hslot
    cases hslot
  · have hreopen := (hidle t ht).2
    rw [hphase] at hreopen
    cases hreopen

/-- A task that has the lock is the only one. -/
theorem Locked.holder (h : Locked ⟨s, pre ++ t :: post⟩) (ht : locking t.1 = true) :
    s.1.locked = true ∧ Pool.total (fun t => (locking t.1).toNat) (pre ++ post) = 0 := by
  have hheld := h.held
  rw [Pool.total_split] at hheld
  simp only [ht, Bool.toNat_true] at hheld
  have hle := Bool.toNat_le s.1.locked
  refine ⟨?_, by omega⟩
  cases hl : s.1.locked with
  | true => rfl
  | false =>
    simp only [hl, Bool.toNat_false] at hheld
    omega

theorem Locked.idle (h : Locked p) (hfree : p.shared.1.locked = false) :
    ∀ t ∈ p.threads, locking t.1 = false := by
  have hzero := h.held
  rw [hfree, Bool.toNat_false] at hzero
  intro t ht
  simpa using Pool.total_eq_zero hzero t ht

/-- A step that neither takes nor gives back the lock. -/
theorem Locked.kept (h : Locked ⟨s, pre ++ t :: post⟩) (hlock : s'.1.locked = s.1.locked)
    (hphase : locking t'.1 = locking t.1)
    (hinner : s'.1.locked = true → s'.1.inner = s.1.inner) : Locked ⟨s', pre ++ t' :: post⟩ where
  held := by
    have hheld := h.held
    rw [Pool.total_split] at hheld ⊢
    rw [hphase, hheld]
    exact congrArg Bool.toNat hlock.symm
  empty hl := (hinner hl).trans (h.empty (hlock ▸ hl))

/-- A step that gives the lock back. -/
theorem Locked.released (h : Locked ⟨s, pre ++ t :: post⟩) (ht : locking t.1 = true)
    (ht' : locking t'.1 = false) (hlock : s'.1.locked = false) :
    Locked ⟨s', pre ++ t' :: post⟩ where
  held := by
    rw [Pool.total_split, (h.holder ht).2]
    simp [ht', hlock]
  empty hl := by
    rw [hlock] at hl
    cases hl

theorem locked_next (hm : Moves s t s' t') (h : Locked ⟨s, pre ++ t :: post⟩) :
    Locked ⟨s', pre ++ t' :: post⟩ := by
  cases hm with
  | lock hinner hfree =>
    refine ⟨?_, fun _ => hinner⟩
    have hheld := h.held
    rw [Pool.total_split] at hheld ⊢
    simp only [hfree, locking, Bool.toNat_false, Bool.toNat_true, Nat.zero_add] at hheld ⊢
    rw [hheld]
  | dialFailed | greetFailed | greet => exact h.released rfl rfl rfl
  | install n sessionId epoch hfree =>
    refine h.kept rfl rfl fun hl => ?_
    exact absurd hl (by simp [emit, hfree])
  | empty hfree =>
    refine h.kept rfl rfl fun hl => ?_
    exact absurd hl (by simp [hfree])
  | _ => exact h.kept rfl rfl fun _ => rfl

/-- A connection keeps its place over a step that does not install it, if it has one after the
slot was its place. -/
theorem Placed.step {n : Nat} (h : Placed s (pre ++ t :: post) n) (hg : Grows s s')
    (ht : ∀ sessionId epoch, t.1 ≠ installing n sessionId epoch)
    (hshut : n ∈ s.2.shut → n ∈ s'.2.shut)
    (hslot : s.1.inner = some n → Placed s' (pre ++ t' :: post) n) :
    Placed s' (pre ++ t' :: post) n := by
  rcases h with hold | hended | hinner | hinstall
  · exact .inl (hshut hold)
  · exact .inr (.inl (hg.ended n hended))
  · exact hslot hinner
  · rcases Pool.exists_mem_split.mp hinstall with ⟨sessionId, epoch, hself⟩ | ⟨u, hu, hother⟩
    · exact absurd hself (ht sessionId epoch)
    · exact .inr (.inr (.inr ⟨u, Pool.mem_split_of_mem hu, hother⟩))

theorem accounted_next (hm : Moves s t s' t')
    (hok : timely ⟨s, pre ++ t :: post⟩ t.1) (hl : Locked ⟨s, pre ++ t :: post⟩)
    (h : Accounted ⟨s, pre ++ t :: post⟩) : Accounted ⟨s', pre ++ t' :: post⟩ := by
  have hg := grows_next hm
  cases hm with
  | greet sessionId epoch =>
    intro n hn
    refine (h n hn).step hg (by simp) id fun hslot => ?_
    -- The slot was empty, as the lock was held.
    cases hslot.symm.trans (hl.empty (hl.holder rfl).1)
  | regreet k sessionId epoch =>
    intro n hn
    rcases List.mem_append.mp hn with hold | hnew
    · exact (h n hold).step hg (by simp) id fun hslot => .inr (.inr (.inl hslot))
    · rw [List.mem_singleton.mp hnew]
      exact .inr (.inr (.inr ⟨_, Pool.mem_split, sessionId, epoch, rfl⟩))
  | install n sessionId epoch =>
    intro m hm
    by_cases hmn : m = n
    · subst hmn
      exact .inr (.inr (.inl rfl))
    · refine (h m hm).step hg ?_ id fun hslot => ?_
      · rintro _ _ ⟨⟩
        exact hmn rfl
      · exact .inr (.inl (hg.ended m (hok m hslot hm)))
  | empty =>
    intro n hn
    refine (h n hn).step hg (by simp) (List.mem_append_left _) fun hslot => ?_
    exact .inl (List.mem_append_right _ (Option.mem_toList.mpr hslot))
  | _ =>
    intro n hn
    exact (h n hn).step hg (by simp) id fun hslot => .inr (.inr (.inl hslot))

/-- A step that leaves the mark and the slot, of a task that stays away from the slot. -/
theorem Calm.kept (h : Calm ⟨s, pre ++ t :: post⟩) (hfinal : s'.2.final = s.2.final)
    (hclosed : s.1.closed = true → s'.1.closed = true) (hinner : s'.1.inner = s.1.inner)
    (ht : s.1.closed = true → locking t.1 = false → reopening t.1 = false →
      locking t'.1 = false ∧ reopening t'.1 = false) : Calm ⟨s', pre ++ t' :: post⟩ := by
  intro hf
  obtain ⟨hmark, hslot, htasks⟩ := h (hfinal.symm.trans hf)
  obtain ⟨⟨hlock, hreopen⟩, hothers⟩ := Pool.forall_mem_split.mp htasks
  refine ⟨hclosed hmark, hinner.trans hslot, Pool.forall_mem_split.mpr ⟨?_, hothers⟩⟩
  exact ht hmark hlock hreopen

theorem calm_next (hm : Moves s t s' t') (hok : timely ⟨s, pre ++ t :: post⟩ t.1)
    (hl : Locked ⟨s, pre ++ t :: post⟩) (h : Calm ⟨s, pre ++ t :: post⟩) :
    Calm ⟨s', pre ++ t' :: post⟩ := by
  cases hm with
  | lock =>
    intro hfinal
    cases hfinal
  | greet =>
    intro hfinal
    cases (Pool.forall_mem_split.mp (h hfinal).2.2).1.1
  | install =>
    intro hfinal
    cases (Pool.forall_mem_split.mp (h hfinal).2.2).1.2
  | bump k hopen =>
    intro hfinal
    cases (h hfinal).1.symm.trans hopen
  | empty hfree =>
    intro _
    obtain ⟨hmark, hidle⟩ := hok
    have hlocks := hl.idle hfree
    refine ⟨hmark, rfl, Pool.forall_mem_split.mpr ⟨⟨rfl, rfl⟩, fun u hu => ?_⟩⟩
    exact ⟨hlocks u (Pool.mem_split_of_mem hu), hidle u (Pool.mem_split_of_mem hu)⟩
  | close => exact h.kept rfl (fun _ => rfl) rfl (by simp [locking, reopening])
  | _ => exact h.kept rfl id rfl (by simp [locking, reopening])

structure Settled (p : Tasks) : Prop where
  locked : Locked p
  accounted : Accounted p
  calm : Calm p

theorem settled_initial (cfg : RiftClientConfig) : Settled (initial cfg) :=
  ⟨⟨rfl, fun _ => rfl⟩, by simp [Accounted, initial], by simp [Calm, initial]⟩

theorem settled_next (hm : Moves s t s' t') (hok : timely ⟨s, pre ++ t :: post⟩ t.1)
    (h : Settled ⟨s, pre ++ t :: post⟩) : Settled ⟨s', pre ++ t' :: post⟩ :=
  ⟨locked_next hm h.locked, accounted_next hm hok h.locked h.accounted,
    calm_next hm hok h.locked h.calm⟩

/-- A new call is at its start: it has no lock and nothing to put into the slot. -/
theorem settled_spawn (call : ClientCall) (h : Settled p) :
    Settled ⟨p.shared, p.threads ++ [program.start call]⟩ := by
  have hidle : locking (program.start call).1 = false ∧
      reopening (program.start call).1 = false := by
    cases call <;> exact ⟨rfl, rfl⟩
  refine ⟨⟨?_, h.locked.empty⟩, fun n hn => ?_, fun hfinal => ?_⟩
  · rw [Pool.total_concat, h.locked.held, hidle.1]
    exact Nat.zero_add _
  · rcases h.accounted n hn with hshut | hended | hslot | ⟨t, ht, hinstall⟩
    · exact .inl hshut
    · exact .inr (.inl hended)
    · exact .inr (.inr (.inl hslot))
    · exact .inr (.inr (.inr ⟨t, List.mem_append_left _ ht, hinstall⟩))
  · obtain ⟨hmark, hslot, htasks⟩ := h.calm hfinal
    refine ⟨hmark, hslot, List.forall_mem_append.mpr ⟨htasks, ?_⟩⟩
    simpa using hidle

theorem settled_step (h : step p a = some p') (hok : undisturbed p a) (hp : Settled p) :
    Settled p' := by
  refine Pool.invariant_step_of_guard (fun s ts call _ => settled_spawn call) ?_ h hok hp
  intro s pre t post input s' t' hn htimely
  exact settled_next (moves_of_next hn) (htimely t (by simp))

/-- Where each `close` takes the slot in time, it is final: until the next `connect` the slot
stays empty and no connection that `try_reconnect` opened is left open. -/
theorem close_is_final (cfg : RiftClientConfig) (acts : List RiftClient.Act)
    (h : Guarded step undisturbed (initial cfg) acts) :
    Throughout step Final (initial cfg) acts := by
  have hsettled : Throughout step Settled (initial cfg) acts :=
    throughout_of_guarded (fun _ _ _ => settled_step) h (settled_initial cfg)
  exact throughout_mono hsettled fun _ hp => final_of_calm hp.calm hp.accounted

/-- The two last steps of `try_reconnect`. -/
def answerAndInstall : List RiftClient.Act :=
  [.advance 0 { answer := some ("s", 2) }, .advance 0 {}]

def closeSlot : List RiftClient.Act := [.spawn .close, .advance 2 {}, .advance 2 {}]

/-- `close` shuts the connection that `try_reconnect` has put into the slot. -/
theorem close_after_reconnect_is_final :
    Throughout step Final (initial {}) (lostAndBack ++ answerAndInstall ++ closeSlot) ∧
    ∃ p, run step (initial {}) (lostAndBack ++ answerAndInstall ++ closeSlot) = some p ∧
      p.shared.2.final = true ∧ p.shared.2.reopened = [1] ∧ p.shared.2.shut = [1] :=
  ⟨close_is_final {} _ (by decide +kernel), by decide +kernel⟩

/-- `close` returns while `try_reconnect` waits for the answer to its hello. The connection is
then put into the slot, where it stays open. -/
theorem reconnect_survives_close :
    ∃ p, run step (initial {}) (lostAndBack ++ closeSlot ++ answerAndInstall) = some p ∧
      p.shared.2.final = true ∧ p.shared.1.closed = true ∧ p.shared.1.inner = some 1 ∧
      p.shared.2.reopened = [1] ∧ p.shared.2.shut = [0] ∧ p.shared.1.ended 1 = false ∧
      ¬ Final p := by
  obtain ⟨p, hrun, hfinal, hclosed, hinner, hreopened, hshut, hended⟩ : ∃ p,
      run step (initial {}) (lostAndBack ++ closeSlot ++ answerAndInstall) = some p ∧
        p.shared.2.final = true ∧ p.shared.1.closed = true ∧ p.shared.1.inner = some 1 ∧
        p.shared.2.reopened = [1] ∧ p.shared.2.shut = [0] ∧ p.shared.1.ended 1 = false := by
    decide +kernel
  refine ⟨p, hrun, hfinal, hclosed, hinner, hreopened, hshut, hended, fun h => ?_⟩
  cases hinner.symm.trans (h hfinal).1

end Ledger

end Rifts
