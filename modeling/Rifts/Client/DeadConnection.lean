import Rifts.Client.Ledger

/-! The slot of a client after the monitor of its connection has given up. -/
namespace Rifts

namespace Ledger

open Transition ClientPhase RiftClient

/-- Past the loss of the connection it monitors. -/
def afterLoss : ClientPhase → Bool
  | woken | looping _ | sleeping _ | redialing _ | regreeting _ => true
  | _ => false

/-- The connections of `try_reconnect` are among those there are, and none of them was given
up; those that were have ended. -/
structure SharedOk (s : RiftClient × Notes) : Prop where
  reopened : ∀ n ∈ s.2.reopened, n < s.1.conns.length
  gaveUp : ∀ n ∈ s.2.gaveUp, n ∉ s.2.reopened ∧ s.1.ended n = true

/-- A task installs a connection that `try_reconnect` opened, and monitors one that it did not;
when it is past waiting for its end, that one has ended. -/
structure TaskOk (s : RiftClient × Notes) (t : ClientPhase × Option Nat) : Prop where
  installs : ∀ n sessionId epoch, t.1 = installing n sessionId epoch → n ∈ s.2.reopened
  waits : ∀ n, t.1 = waiting n → t.2 = some n
  watches : ∀ n, t.2 = some n → n ∉ s.2.reopened ∧ n < s.1.conns.length
  ended : ∀ n, t.2 = some n → afterLoss t.1 = true → s.1.ended n = true

variable {s s' : RiftClient × Notes} {t t' : ClientPhase × Option Nat} {input : ClientInput}
  {p p' : Tasks} {a : RiftClient.Act}

theorem TaskOk.grows (h : TaskOk s t) (hg : Grows s s') : TaskOk s' t where
  installs n sessionId epoch hn := hg.kept n (h.installs n sessionId epoch hn)
  waits := h.waits
  watches n hn := by
    obtain ⟨hnot, hlt⟩ := h.watches n hn
    refine ⟨fun hmem => ?_, hlt.trans_le hg.length⟩
    rcases hg.fresh n hmem with hold | hnew
    · exact hnot hold
    · exact absurd hnew hlt.ne
  ended n hn hafter := hg.ended n (h.ended n hn hafter)

theorem SharedOk.grows (h : SharedOk s) (hg : Grows s s')
    (hnew : ∀ n ∈ s'.2.reopened, n < s'.1.conns.length)
    (hgave : ∀ n ∈ s'.2.gaveUp, n ∈ s.2.gaveUp ∨ n ∉ s'.2.reopened ∧ s'.1.ended n = true) :
    SharedOk s' where
  reopened := hnew
  gaveUp n hn := by
    rcases hgave n hn with hold | hnow
    · obtain ⟨hnot, hended⟩ := h.gaveUp n hold
      refine ⟨fun hmem => ?_, hg.ended n hended⟩
      rcases hg.fresh n hmem with hre | hlen
      · exact hnot hre
      · exact absurd hlen (ended_lt hended).ne
    · exact hnow

/-- A monitor that gives up notes a connection that has ended and was not reopened. -/
theorem gaveUp_append (h : TaskOk s t) (hafter : afterLoss t.1 = true) {n : Nat}
    (hn : n ∈ s.2.gaveUp ++ t.2.toList) :
    n ∈ s.2.gaveUp ∨ n ∉ s.2.reopened ∧ s.1.ended n = true := by
  rcases List.mem_append.mp hn with hold | hown
  · exact .inl hold
  · have hw : t.2 = some n := by simpa using hown
    exact .inr ⟨(h.watches n hw).1, h.ended n hw hafter⟩

theorem sharedOk_next (hm : Moves s t s' t') (hs : SharedOk s) (ht : TaskOk s t) : SharedOk s' := by
  have hg := grows_next hm
  cases hm with
  | quit => exact hs.grows hg hs.reopened fun n hn => gaveUp_append ht rfl hn
  | exhaust => exact hs.grows hg hs.reopened fun n hn => gaveUp_append ht rfl hn
  | greet => exact hs.grows hg (fun n hn => (hs.reopened n hn).trans_le hg.length) fun n => .inl
  | lose => exact hs.grows hg (fun n hn => (hs.reopened n hn).trans_le hg.length) fun n => .inl
  | regreet k sessionId epoch =>
    refine hs.grows hg (fun n hn => ?_) fun n => .inl
    rcases hg.fresh n hn with hold | rfl
    · exact (hs.reopened n hold).trans_le hg.length
    · simp [establish]
  | _ => exact hs.grows hg hs.reopened fun n => .inl

/-- A task that goes on without installing or waiting for anything new. -/
theorem TaskOk.moved {u : ClientPhase} (h : TaskOk s t)
    (hinstalls : ∀ n sessionId epoch, u ≠ installing n sessionId epoch)
    (hwaits : ∀ n, u ≠ waiting n) (hafter : afterLoss u = true → afterLoss t.1 = true) :
    TaskOk s (u, t.2) where
  installs n sessionId epoch hn := absurd hn (hinstalls n sessionId epoch)
  waits n hn := absurd hn (hwaits n)
  watches := h.watches
  ended n hn hu := h.ended n hn (hafter hu)

theorem taskOk_next (hm : Moves s t s' t') (hs : SharedOk s) (ht : TaskOk s t) : TaskOk s' t' := by
  have hg := grows_next hm
  cases hm with
  | greet sessionId epoch =>
    refine ⟨by simp, by simp, ?_, by simp [afterLoss]⟩
    rintro n ⟨⟩
    refine ⟨fun hmem => absurd (hs.reopened _ hmem) (lt_irrefl _), by simp [establish]⟩
  | wake n hended =>
    refine ⟨by simp, by simp, (ht.grows hg).watches, ?_⟩
    intro m hw _
    have hown := ht.waits n rfl
    rw [hown] at hw
    cases hw
    exact hended
  | regreet k sessionId epoch =>
    have hmono := ht.grows hg
    refine ⟨?_, by simp, hmono.watches, by simp [afterLoss]⟩
    rintro n _ _ ⟨⟩
    simp
  | _ => exact (ht.grows hg).moved (by simp) (by simp) (by simp [afterLoss])

/-- What is recorded fits the connections and the tasks there are. -/
def Recorded (p : Tasks) : Prop := SharedOk p.shared ∧ ∀ t ∈ p.threads, TaskOk p.shared t

theorem recorded_initial (cfg : RiftClientConfig) : Recorded (initial cfg) :=
  ⟨⟨by simp [initial], by simp [initial]⟩, by simp [initial]⟩

theorem recorded_step (h : step p a = some p') (hp : Recorded p) : Recorded p' := by
  refine Pool.shared_and_each_step (fun s call _ => ?_) ?_ h hp
  · cases call <;> exact ⟨by simp [program, Program.noted, ClientPhase.program, start],
      by simp [program, Program.noted, ClientPhase.program, start],
      by simp [program, Program.noted], by simp [program, Program.noted]⟩
  · intro s t input s' t' hn hs ht
    have hm := moves_of_next hn
    exact ⟨sharedOk_next hm hs ht, taskOk_next hm hs ht, fun u hu => hu.grows (grows_next hm)⟩

/-- A connection that has ended, and whose monitor is over without a replacement because the
client does not reconnect or has no attempts left, is not reported as live: with nothing else
in the slot `is_connected` is false and `connect` is not refused. -/
def Honest (p : Tasks) : Prop :=
  ∀ n ∈ p.shared.2.gaveUp, p.shared.1.ended n = true → (∀ m ∈ p.shared.1.inner, m = n) →
    p.shared.1.isConnected = false ∧
      ∀ input c u, next p.shared.1 connecting input = some (c, u) → u ≠ failed .alreadyConnected

/-- No connection that was given up is in the slot. -/
def Cleared (s : RiftClient × Notes) : Prop := ∀ n ∈ s.2.gaveUp, s.1.inner ≠ some n

theorem honest_iff (h : Recorded p) : Honest p ↔ Cleared p.shared := by
  constructor
  · intro hp n hn hinner
    have hfree := (hp n hn (h.1.gaveUp n hn).2 (by simp [hinner])).1
    simp [isConnected, hinner] at hfree
  · intro hp n hn _ honly
    have hnone : p.shared.1.inner = none := by
      rw [Option.eq_none_iff_forall_ne_some]
      intro m hm
      have hmn : m = n := honly m hm
      exact hp n hn (hmn ▸ hm)
    refine ⟨by simp [isConnected, hnone], ?_⟩
    intro input c u hu
    simp only [next, hnone] at hu
    split at hu
    · cases hu
    · cases hu
      simp

/-- A monitor gives up only when its connection is no longer in the slot: `close` has taken it
out, or there is another. -/
def concedes (s : RiftClient × Notes) (t : ClientPhase × Option Nat) (_ : ClientInput) : Prop :=
  match t.1 with
  | woken => s.1.config.autoReconnect = false → ∀ n ∈ t.2, s.1.inner ≠ some n
  | looping k =>
    s.1.config.maxReconnectAttempts.toNat < k → ∀ n ∈ t.2, s.1.inner ≠ some n
  | _ => True

instance (s : RiftClient × Notes) (t : ClientPhase × Option Nat) (input : ClientInput) :
    Decidable (concedes s t input) :=
  match t with
  | (woken, w) => inferInstanceAs (Decidable
      (s.1.config.autoReconnect = false → ∀ n ∈ w, s.1.inner ≠ some n))
  | (looping k, w) => inferInstanceAs (Decidable
      (s.1.config.maxReconnectAttempts.toNat < k → ∀ n ∈ w, s.1.inner ≠ some n))
  | (connecting, _) | (dialing, _) | (greeting, _) | (failed _, _) | (waiting _, _)
  | (sleeping _, _) | (redialing _, _) | (regreeting _, _) | (installing .., _) | (closing, _)
  | (emptying, _) | (reading _, _) | (done, _) => .isTrue trivial

/-- Giving up adds the task's own connection. -/
theorem cleared_append {c c' : RiftClient} {g : Notes} {w : Option Nat}
    (hinner : c'.inner = c.inner) (h : Cleared (c, g)) :
    Cleared (c', { g with gaveUp := g.gaveUp ++ w.toList }) ↔ ∀ n ∈ w, c.inner ≠ some n := by
  simp only [Cleared, hinner, List.forall_mem_append, Option.mem_toList]
  exact and_iff_right h

theorem cleared_next (hm : Moves s t s' t') (hs : SharedOk s) (ht : TaskOk s t) (h : Cleared s) :
    Cleared s' ↔ concedes s t input := by
  cases hm with
  | quit hauto =>
    rw [cleared_append rfl h]
    simp [concedes, hauto]
  | exhaust k e hk =>
    refine (cleared_append rfl h).trans ?_
    simp [concedes, hk]
  | rest hauto | reconnect hauto => exact iff_of_true h (by simp [concedes, hauto])
  | halt k hk | attempt k hk => exact iff_of_true h (by simp [concedes, hk])
  | greet sessionId epoch =>
    refine iff_of_true (fun n hn hinner => ?_) trivial
    cases hinner
    exact absurd (ended_lt (hs.gaveUp _ hn).2) (lt_irrefl _)
  | install n sessionId epoch =>
    refine iff_of_true (fun m hn hinner => ?_) trivial
    cases hinner
    exact (hs.gaveUp _ hn).1 (ht.installs _ _ _ rfl)
  | empty => exact iff_of_true (fun n _ => by simp) trivial
  | _ => exact iff_of_true h trivial

/-- In every run of a client, over any losses, calls and answers, no dead connection is reported
as live exactly when every monitor that gives up, because the client does not reconnect or has
no attempts left, finds its connection gone from the slot. -/
theorem dead_connection_not_reported_iff (cfg : RiftClientConfig) (acts : List RiftClient.Act) :
    Throughout step Honest (initial cfg) acts ↔
      Guarded step (Pool.Allows concedes) (initial cfg) acts := by
  refine throughout_iff_guarded_of_invariant (Q := Recorded) (fun _ _ _ => recorded_step) ?_
    (recorded_initial cfg) (by simp [Honest, initial])
  intro p a p' h hr hp
  rw [honest_iff (recorded_step h hr)]
  rw [honest_iff hr] at hp
  exact Pool.kept_iff_allows (I := fun p => Cleared p.shared) (J := Recorded) (fun _ _ _ hc => hc)
    (fun _ pre t post input s' t' hn hr hc => cleared_next (moves_of_next hn) hr.1
      (hr.2 t Pool.mem_split) hc) h hr hp

/-- A client that does not reconnect. -/
def soleConnection : RiftClientConfig := { autoReconnect := false }

/-- The connection is closed before the monitor gets to its end. -/
theorem closed_connection_not_reported :
    Throughout step Honest (initial soleConnection) (firstLoss ++
      [.spawn .close, .advance 2 {}, .advance 2 {}, .advance 0 {}, .advance 0 {}]) :=
  (dead_connection_not_reported_iff soleConnection _).mpr (by decide +kernel)

/-- The monitor sees the loss and is over. Nothing is left to run, the client reports that it is
connected, and the next `connect` is refused. -/
theorem lost_connection_reported_live :
    ∃ p, run step (initial soleConnection) (firstLoss ++ [.advance 0 {}, .advance 0 {}]) =
        some p ∧ p.shared.2.gaveUp = [0] ∧ p.shared.1.ended 0 = true ∧
      p.shared.1.inner = some 0 ∧ p.shared.1.isConnected = true ∧
      (∃ c, next p.shared.1 connecting {} = some (c, failed .alreadyConnected)) ∧ ¬ Honest p := by
  obtain ⟨p, hrun, hgave, hended, hinner, hlocked⟩ : ∃ p,
      run step (initial soleConnection) (firstLoss ++ [.advance 0 {}, .advance 0 {}]) =
        some p ∧ p.shared.2.gaveUp = [0] ∧ p.shared.1.ended 0 = true ∧
      p.shared.1.inner = some 0 ∧ p.shared.1.locked = false := by
    decide +kernel
  have hconnected : p.shared.1.isConnected = true := by simp [isConnected, hinner]
  refine ⟨p, hrun, hgave, hended, hinner, hconnected, ⟨p.shared.1, ?_⟩, ?_⟩
  · simp [next, hlocked, hinner]
  · intro hp
    have hfalse := (hp 0 (by simp [hgave]) hended (by simp [hinner])).1
    rw [hconnected] at hfalse
    cases hfalse

end Ledger

end Rifts
