import Rifts.Client.Lifecycle
import Rifts.Transition.Ghost

/-! The client with a record of its connections: which task watches which, which of them
`try_reconnect` opened and `close` took from the slot, and which were given up. -/
namespace Rifts

/-- `final` is true from the return of `close` to the next `connect`. -/
structure Notes where
  gaveUp : List Nat := []
  reopened : List Nat := []
  shut : List Nat := []
  final : Bool := false
  deriving DecidableEq, Repr

namespace RiftClient

open Transition ClientPhase

def isConnected (c : RiftClient) : Bool := c.inner.isSome

/-- The connection has ended: its reader has exited. -/
def ended (c : RiftClient) (n : Nat) : Bool := c.conns[n]?.any fun conn => conn.lost

/-- What is noted of a step. A task's own note is the connection it monitors. -/
def note (c : RiftClient) (u : ClientPhase) (input : ClientInput) :
    Notes × Option Nat → Notes × Option Nat
  | (g, watched) =>
    match u with
    | connecting => (if c.inner.isSome then g else { g with final := false }, watched)
    | greeting => (g, if input.answer.isSome then some c.conns.length else watched)
    | woken =>
      (if c.config.autoReconnect then g else { g with gaveUp := g.gaveUp ++ watched.toList },
        watched)
    | looping k =>
      (if c.config.maxReconnectAttempts.toNat < k then
          { g with gaveUp := g.gaveUp ++ watched.toList }
        else g, watched)
    | regreeting _ =>
      (if input.answer.isSome then { g with reopened := g.reopened ++ [c.conns.length] } else g,
        watched)
    | emptying => ({ g with shut := g.shut ++ c.inner.toList, final := true }, watched)
    | _ => (g, watched)

end RiftClient

namespace Ledger

open Transition ClientPhase RiftClient

def program : Program (RiftClient × Notes) (ClientPhase × Option Nat) ClientCall ClientInput :=
  ClientPhase.program.noted (fun _ => none) note

abbrev Tasks := Pool (RiftClient × Notes) (ClientPhase × Option Nat)

def step (p : Tasks) (a : RiftClient.Act) : Option Tasks := Pool.step program p a

/-- A new client, with nothing noted. -/
def initial (cfg : RiftClientConfig) : Tasks := ⟨(.new cfg, {}), []⟩

/-- The record changes no run of the client. -/
theorem forget_run (cfg : RiftClientConfig) (acts : List RiftClient.Act) :
    (run step (initial cfg) acts).map Pool.forget = run RiftClient.step ⟨.new cfg, []⟩ acts :=
  Pool.forget_run (initial cfg) acts

/-- A step of the client with what is noted of it, one rule a step. -/
inductive Moves : RiftClient × Notes → ClientPhase × Option Nat →
    RiftClient × Notes → ClientPhase × Option Nat → Prop
  | refuse {c g w} (h : c.inner.isSome) :
      Moves (c, g) (connecting, w) (c, g) (failed .alreadyConnected, w)
  | lock {c g w} (h : c.inner = none) (hfree : c.locked = false) :
      Moves (c, g) (connecting, w) ({ c with closed := false, locked := true },
        { g with final := false }) (dialing, w)
  | dialFailed {c g w} :
      Moves (c, g) (dialing, w) ({ c with locked := false }, g) (failed .webSocket, w)
  | dial {c g w} : Moves (c, g) (dialing, w) (c.sendHello, g) (greeting, w)
  | greetFailed {c g w} :
      Moves (c, g) (greeting, w) ({ c with locked := false }, g) (failed .handshake, w)
  | greet {c g w} (sessionId epoch) :
      Moves (c, g) (greeting, w)
        ({ c.establish sessionId epoch with inner := some c.conns.length, locked := false }, g)
        (waiting c.conns.length, some c.conns.length)
  | wake {c g w} (n) (h : c.ended n = true) :
      Moves (c, g) (waiting n, w) (c.emit (.disconnected 1006 "connection lost"), g) (woken, w)
  | quit {c g w} (h : c.config.autoReconnect = false) :
      Moves (c, g) (woken, w) (c, { g with gaveUp := g.gaveUp ++ w.toList }) (done, w)
  | rest {c g w} (h : c.config.autoReconnect = true) : Moves (c, g) (woken, w) (c, g) (done, w)
  | reconnect {c g w} (h : c.config.autoReconnect = true) :
      Moves (c, g) (woken, w) (c, g) (looping 1, w)
  | exhaust {c g w} (k e) (h : c.config.maxReconnectAttempts.toNat < k) :
      Moves (c, g) (looping k, w) (c.emit (.error e), { g with gaveUp := g.gaveUp ++ w.toList })
        (done, w)
  | halt {c g w} (k) (h : ¬ c.config.maxReconnectAttempts.toNat < k) :
      Moves (c, g) (looping k, w) (c, g) (done, w)
  | attempt {c g w} (k) (h : ¬ c.config.maxReconnectAttempts.toNat < k) :
      Moves (c, g) (looping k, w) (c.emit (.reconnecting k), g) (sleeping k, w)
  | haltAsleep {c g w} (k) : Moves (c, g) (sleeping k, w) (c, g) (done, w)
  | bump {c g w} (k) (h : c.closed = false) :
      Moves (c, g) (sleeping k, w) (c.bumpEpoch, g) (redialing k, w)
  | redialFailed {c g w} (k) : Moves (c, g) (redialing k, w) (c, g) (looping (k + 1), w)
  | redial {c g w} (k) : Moves (c, g) (redialing k, w) (c.sendHello, g) (regreeting k, w)
  | regreetFailed {c g w} (k) : Moves (c, g) (regreeting k, w) (c, g) (looping (k + 1), w)
  | regreet {c g w} (k sessionId epoch) :
      Moves (c, g) (regreeting k, w)
        (c.establish sessionId epoch, { g with reopened := g.reopened ++ [c.conns.length] })
        (installing c.conns.length sessionId epoch, w)
  | install {c g w} (n sessionId epoch) (h : c.locked = false) :
      Moves (c, g) (installing n sessionId epoch, w)
        ({ c.emit (.connected sessionId epoch) with inner := some n }, g) (done, w)
  | close {c g w} : Moves (c, g) (closing, w) ({ c with closed := true }, g) (emptying, w)
  | empty {c g w} (h : c.locked = false) :
      Moves (c, g) (emptying, w)
        ({ c with inner := none }, { g with shut := g.shut ++ c.inner.toList, final := true })
        (done, w)
  | lose {c g w} (n conn) (h : c.conns[n]? = some conn) :
      Moves (c, g) (reading n, w) ({ c with conns := c.conns.set n { conn with lost := true } }, g)
        (done, w)

variable {s s' : RiftClient × Notes} {t t' : ClientPhase × Option Nat} {input : ClientInput}
  {p p' : Tasks} {a : RiftClient.Act}

theorem moves_of_next (h : program.next s t input = some (s', t')) : Moves s t s' t' := by
  obtain ⟨hn, hnote⟩ := Program.noted_next h
  obtain ⟨c, g⟩ := s
  obtain ⟨u, w⟩ := t
  obtain ⟨c', g'⟩ := s'
  obtain ⟨u', w'⟩ := t'
  simp only [ClientPhase.program] at hn
  cases u with
  | connecting =>
    simp only [next] at hn
    split at hn
    · cases hn
    · next hlocked =>
      split at hn
      · next hinner =>
        cases hn
        simp only [note, hinner, if_true] at hnote
        cases hnote
        exact .refuse hinner
      · next hinner =>
        cases hn
        simp only [note, hinner] at hnote
        cases hnote
        exact .lock (by simpa using hinner) (by simpa using hlocked)
  | dialing =>
    simp only [next] at hn
    cases hnote
    split at hn
    · cases hn
      exact .dial
    · cases hn
      exact .dialFailed
  | greeting =>
    simp only [next] at hn
    split at hn
    · next hanswer =>
      cases hn
      simp only [note, hanswer] at hnote
      cases hnote
      exact .greetFailed
    · next sessionId epoch hanswer =>
      cases hn
      simp only [note, hanswer] at hnote
      cases hnote
      exact .greet sessionId epoch
  | waiting n =>
    simp only [next] at hn
    cases hnote
    split at hn
    · next hlost =>
      cases hn
      exact .wake n hlost
    · cases hn
  | woken =>
    simp only [next] at hn
    cases hauto : c.config.autoReconnect with
    | false =>
      simp only [note, hauto] at hnote
      cases hnote
      simp only [hauto, Bool.and_false] at hn
      cases hn
      exact .quit hauto
    | true =>
      simp only [note, hauto, if_true] at hnote
      cases hnote
      split at hn
      · cases hn
        exact .reconnect hauto
      · cases hn
        exact .rest hauto
  | looping k =>
    simp only [next] at hn
    split at hn
    · next hk =>
      cases hn
      simp only [note, hk, if_true] at hnote
      cases hnote
      exact .exhaust k _ hk
    · next hk =>
      simp only [note, hk, if_false] at hnote
      cases hnote
      split at hn
      · cases hn
        exact .halt k hk
      · cases hn
        exact .attempt k hk
  | sleeping k =>
    simp only [next] at hn
    cases hnote
    split at hn
    · cases hn
      exact .haltAsleep k
    · next hclosed =>
      cases hn
      exact .bump k (by simpa using hclosed)
  | redialing k =>
    simp only [next] at hn
    cases hnote
    split at hn
    · cases hn
      exact .redial k
    · cases hn
      exact .redialFailed k
  | regreeting k =>
    simp only [next] at hn
    split at hn
    · next hanswer =>
      cases hn
      simp only [note, hanswer] at hnote
      cases hnote
      exact .regreetFailed k
    · next sessionId epoch hanswer =>
      cases hn
      simp only [note, hanswer] at hnote
      cases hnote
      exact .regreet k sessionId epoch
  | installing n sessionId epoch =>
    simp only [next] at hn
    cases hnote
    split at hn
    · cases hn
    · next hlocked =>
      cases hn
      exact .install n sessionId epoch (by simpa using hlocked)
  | closing =>
    cases hn
    cases hnote
    exact .close
  | emptying =>
    simp only [next] at hn
    cases hnote
    split at hn
    · cases hn
    · next hlocked =>
      cases hn
      exact .empty (by simpa using hlocked)
  | reading n =>
    simp only [next] at hn
    cases hnote
    split at hn
    · cases hn
    · next conn hconn =>
      split at hn
      · cases hn
      · cases hn
        exact .lose n conn hconn
  | failed | done => cases hn

/-- What no step takes back: connections stay, and stay ended, and the ones noted as reopened
are kept, with new ones only. -/
structure Grows (s s' : RiftClient × Notes) : Prop where
  length : s.1.conns.length ≤ s'.1.conns.length
  ended : ∀ n, s.1.ended n = true → s'.1.ended n = true
  kept : ∀ n ∈ s.2.reopened, n ∈ s'.2.reopened
  fresh : ∀ n ∈ s'.2.reopened, n ∈ s.2.reopened ∨ n = s.1.conns.length

theorem ended_lt {c : RiftClient} {n : Nat} (h : c.ended n = true) : n < c.conns.length := by
  unfold ended at h
  cases hn : c.conns[n]? with
  | none => simp [hn] at h
  | some conn => exact (List.getElem?_eq_some_iff.mp hn).1

theorem ended_append {c c' : RiftClient} {conn : ConnectionInner}
    (hconns : c'.conns = c.conns ++ [conn]) {n : Nat} (h : c.ended n = true) :
    c'.ended n = true := by
  rw [RiftClient.ended, hconns, List.getElem?_append_left (ended_lt h)]
  exact h

theorem ended_set {c c' : RiftClient} {conn : ConnectionInner} {m : Nat}
    (hconns : c'.conns = c.conns.set m { conn with lost := true }) {n : Nat}
    (h : c.ended n = true) : c'.ended n = true := by
  have hlt := ended_lt h
  rw [RiftClient.ended, hconns, List.getElem?_set]
  split
  · next heq =>
    subst heq
    simp [hlt]
  · exact h

/-- A step that leaves the connections and the notes of them. -/
theorem grows_of_eq (hconns : s'.1.conns = s.1.conns) (hnotes : s'.2.reopened = s.2.reopened) :
    Grows s s' where
  length := by rw [hconns]
  ended n hn := by rw [RiftClient.ended, hconns]; exact hn
  kept n hn := by rw [hnotes]; exact hn
  fresh n hn := .inl (by rw [← hnotes]; exact hn)

theorem grows_next (hm : Moves s t s' t') : Grows s s' := by
  cases hm with
  | greet sessionId epoch =>
    exact ⟨by simp [establish], fun n => ended_append rfl, fun n hn => hn, fun n hn => .inl hn⟩
  | regreet k sessionId epoch =>
    refine ⟨by simp [establish], fun n => ended_append rfl, fun n hn => ?_, fun n hn => ?_⟩
    · exact List.mem_append_left _ hn
    · simpa using hn
  | lose n conn =>
    exact ⟨by simp, fun n => ended_set rfl, fun n hn => hn, fun n hn => .inl hn⟩
  | _ => exact grows_of_eq rfl rfl

end Ledger

end Rifts
