import Rifts.Connection.Binding

/-! Any number of connections over one session store. A handshake is cut at every
point where another task can run between two of its effects. -/
namespace Rifts

/-- Where a connection stands; each phase names the next thing it does. -/
inductive Phase
  | hello
  | lookup (adm : Admission)
  | checkEpoch (adm : Admission) (r : Nat)
  | checkState (adm : Admission) (r : Nat)
  | bump (adm : Admission) (r : Nat)
  | setResuming (adm : Admission) (r : Nat)
  | evaluate (adm : Admission) (r : Nat)
  | setReady (adm : Admission) (r : Nat) (resume : Option ResumeDecision)
  | welcome (adm : Admission) (r : Nat) (resume : Option ResumeDecision)
  | ready (adm : Admission) (r : Nat) (w : Wire)
  | setActive (adm : Admission) (r : Nat) (w : Wire)
  | active (adm : Admission) (r : Nat)
  | ended (adm : Admission) (r : Nat) (res : Except RiftError Unit)
  | failed (e : RiftError)

namespace Phase

/-- The session object a connection holds. -/
def session : Phase → Option Nat
  | checkEpoch _ r | checkState _ r | bump _ r | setResuming _ r | evaluate _ r
  | setReady _ r _ | welcome _ r _ | ready _ r _ | setActive _ r _ | active _ r
  | ended _ r _ => some r
  | hello | lookup _ | failed _ => none

/-- The session a connection has created, or has begun to resume. -/
def bound : Phase → Option (Admission × Nat)
  | setResuming adm r | evaluate adm r | setReady adm r _ | welcome adm r _ | ready adm r _
  | setActive adm r _ | active adm r | ended adm r _ => some (adm, r)
  | _ => none

/-- The session has been set Ready by this connection. -/
def greeted : Phase → Bool
  | welcome .. | ready .. | setActive .. | active .. | ended .. => true
  | _ => false

/-- Between setting its session Resuming and setting it Ready. -/
def resuming : Phase → Bool
  | evaluate .. | setReady .. => true
  | _ => false

/-- Holds a session and has not returned. -/
def uses (p : Phase) (r : Nat) : Prop := p.session = some r ∧ ∀ adm res, p ≠ .ended adm r res

/-- One effect of the handshake. Phases after it are left alone. -/
def next (J : SerdeJson) (cfg : ServerConfig) (env : Env) (st : SessionStore) :
    Phase → SessionStore × Phase
  | hello =>
    match checkHello J cfg env with
    | .error e => (st, failed e)
    | .ok adm => (st, lookup adm)
  | lookup adm =>
    match adm.hello.sessionId with
    | none => (st.insert (.new env.newId adm.auth.clientId env.now), setReady adm st.next none)
    | some sid =>
      match st.get sid with
      | none => (st, failed (.session (.notFound sid)))
      | some r => (st, checkEpoch adm r)
  | checkEpoch adm r =>
    match epochCheck (st.heap r) adm.hello with
    | .error e => (st, failed e)
    | .ok () => (st, checkState adm r)
  | checkState adm r =>
    match stateCheck (st.heap r) adm.hello with
    | .error e => (st, failed e)
    | .ok () => (st, bump adm r)
  | bump adm r => (st.bumpEpoch r, setResuming adm r)
  | setResuming adm r => (st.setState r .resuming env.now, evaluate adm r)
  | evaluate adm r =>
    match Rifts.evaluate (st.heap r) adm.hello.lastOffsets
        (topicOffsets env adm.hello.lastOffsets) with
    | .error e => (st, failed e)
    | .ok decision => (st, setReady adm r (some decision))
  | setReady adm r resume => (st.setState r .ready env.now, welcome adm r resume)
  | welcome adm r resume =>
    match Wire.write {} env (buildWelcomeFrame J (st.heap r) adm.codec
        (resume.map resumeResult) cfg env.now) with
    | (_, .error e) => (st, failed e)
    | (w, .ok ()) => (st, ready adm r (replayMissed env w resume adm.hello.lastOffsets))
  | ready adm r w =>
    match w.write env (buildReadyFrame J (st.heap r) cfg adm.codec env.now) with
    | (_, .error e) => (st, failed e)
    | (w, .ok ()) => (st, setActive adm r w)
  | setActive adm r _ => (st.setState r .active env.now, active adm r)
  | p => (st, p)

end Phase

structure Conn where
  env : Env
  phase : Phase

/-- Connections are numbered by their connection id. -/
structure Server where
  store : SessionStore
  conns : Nat → Option Conn

inductive Action
  | connect (i : Nat) (env : Env)
  | advance (i : Nat)
  | frame (i : Nat) (now : Int64)
  | finish (i : Nat) (res : Except RiftError Unit)
  | remove (sid : String)

namespace Server

def initial : Server := ⟨.new, fun _ => none⟩

def setPhase (srv : Server) (i : Nat) (c : Conn) (p : Phase) : Server :=
  { srv with conns := Function.update srv.conns i (some { c with phase := p }) }

/-- A connection that reads frames only touches its session; when its reader
returns, for whatever reason, the teardown leaves the session as it is. -/
def step (J : SerdeJson) (cfg : ServerConfig) (srv : Server) : Action → Option Server
  | .connect i env =>
    match srv.conns i with
    | none => some { srv with conns := Function.update srv.conns i (some ⟨env, .hello⟩) }
    | some _ => none
  | .advance i =>
    match srv.conns i with
    | none => none
    | some c =>
      let (st, p) := c.phase.next J cfg c.env srv.store
      some ({ srv with store := st }.setPhase i c p)
  | .frame i now =>
    match srv.conns i with
    | some ⟨_, .active _ r⟩ => some { srv with store := srv.store.touch r now }
    | _ => none
  | .finish i res =>
    match srv.conns i with
    | some ⟨env, .active adm r⟩ => some (srv.setPhase i ⟨env, .active adm r⟩ (.ended adm r res))
    | _ => none
  | .remove sid => some { srv with store := srv.store.remove sid }

end Server

namespace Phase

variable {J : SerdeJson} {cfg : ServerConfig} {env : Env} {st : SessionStore} {p : Phase}
  {adm : Admission} {r : Nat}

/-- Every effect of a handshake phase on the store. -/
theorem store_next (J : SerdeJson) (cfg : ServerConfig) (env : Env) (st : SessionStore)
    (p : Phase) : (p.next J cfg env st).1 = st ∨
    (∃ adm, p = lookup adm ∧ adm.hello.sessionId = none ∧ p.next J cfg env st =
      (st.insert (.new env.newId adm.auth.clientId env.now), setReady adm st.next none)) ∨
    (∃ adm r, p = bump adm r ∧ p.next J cfg env st = (st.bumpEpoch r, setResuming adm r)) ∨
    (∃ adm r, p = setResuming adm r ∧
      p.next J cfg env st = (st.setState r .resuming env.now, evaluate adm r)) ∨
    (∃ adm r resume, p = setReady adm r resume ∧
      p.next J cfg env st = (st.setState r .ready env.now, welcome adm r resume)) ∨
    ∃ adm r w, p = setActive adm r w ∧
      p.next J cfg env st = (st.setState r .active env.now, active adm r) := by
  cases p with
  | hello => left; simp only [next]; split <;> rfl
  | lookup adm =>
    cases hs : adm.hello.sessionId with
    | none => exact .inr (.inl ⟨adm, rfl, hs, by simp only [next, hs]⟩)
    | some sid => left; simp only [next, hs]; split <;> rfl
  | checkEpoch adm r => left; simp only [next]; split <;> rfl
  | checkState adm r => left; simp only [next]; split <;> rfl
  | bump adm r => exact .inr (.inr (.inl ⟨adm, r, rfl, rfl⟩))
  | setResuming adm r => exact .inr (.inr (.inr (.inl ⟨adm, r, rfl, rfl⟩)))
  | evaluate adm r => left; simp only [next]; split <;> rfl
  | setReady adm r resume => exact .inr (.inr (.inr (.inr (.inl ⟨adm, r, resume, rfl, rfl⟩))))
  | welcome adm r resume => left; simp only [next]; split <;> rfl
  | ready adm r w => left; simp only [next]; split <;> rfl
  | setActive adm r w => exact .inr (.inr (.inr (.inr (.inr ⟨adm, r, w, rfl, rfl⟩))))
  | active adm r => exact .inl rfl
  | ended adm r res => exact .inl rfl
  | failed e => exact .inl rfl

theorem next_le : st.next ≤ (p.next J cfg env st).1.next := by
  rcases store_next J cfg env st p with h | ⟨adm, -, -, h⟩ | ⟨adm, r, -, h⟩ | ⟨adm, r, -, h⟩ |
    ⟨adm, r, resume, -, h⟩ | ⟨adm, r, w, -, h⟩ <;> rw [h]
  · exact Nat.le_succ _
  all_goals exact Nat.le_refl _

/-- No phase changes who a session belongs to. -/
theorem clientId_next (hr : r < st.next) :
    ((p.next J cfg env st).1.heap r).clientId = (st.heap r).clientId := by
  rcases store_next J cfg env st p with h | ⟨adm, -, -, h⟩ | ⟨adm, q, -, h⟩ | ⟨adm, q, -, h⟩ |
    ⟨adm, q, resume, -, h⟩ | ⟨adm, q, w, -, h⟩ <;> rw [h]
  · rw [SessionStore.heap_insert_of_ne (by omega)]
  · exact SessionStore.clientId_bumpEpoch
  all_goals exact SessionStore.clientId_setState

/-- A session's state changes only to Resuming, by a connection that is then
resuming it, or to Ready or Active. -/
theorem state_next (J : SerdeJson) (cfg : ServerConfig) (env : Env) (p : Phase)
    (hr : r < st.next) :
    ((p.next J cfg env st).1.heap r).state = (st.heap r).state ∨
    ((p.next J cfg env st).1.heap r).state = .resuming ∧
      (p.next J cfg env st).2.session = some r ∧ (p.next J cfg env st).2.resuming ∨
    ((p.next J cfg env st).1.heap r).state = .ready ∨
    ((p.next J cfg env st).1.heap r).state = .active := by
  rcases store_next J cfg env st p with h | ⟨adm, -, -, h⟩ | ⟨adm, q, -, h⟩ | ⟨adm, q, -, h⟩ |
    ⟨adm, q, resume, -, h⟩ | ⟨adm, q, w, -, h⟩ <;> rw [h]
  · exact .inl rfl
  · exact .inl (by rw [SessionStore.heap_insert_of_ne (by omega)])
  · exact .inl SessionStore.state_bumpEpoch
  all_goals
    by_cases hq : r = q
    · subst hq
      simp [session, resuming]
    · exact .inl (by rw [SessionStore.heap_setState_of_ne hq])

/-- A session starts Open, and no phase closes one. -/
theorem unclosed_next (h : ∀ r, (st.heap r).state ≠ .closed) (r : Nat) :
    ((p.next J cfg env st).1.heap r).state ≠ .closed := by
  rcases store_next J cfg env st p with hn | ⟨adm, -, -, hn⟩ | ⟨adm, q, -, hn⟩ | ⟨adm, q, -, hn⟩ |
    ⟨adm, q, resume, -, hn⟩ | ⟨adm, q, w, -, hn⟩ <;> rw [hn]
  · exact h r
  · by_cases hr : r = st.next
    · subst hr
      simp [Session.new]
    · rw [SessionStore.heap_insert_of_ne hr]
      exact h r
  · rw [SessionStore.state_bumpEpoch]
    exact h r
  all_goals
    by_cases hq : r = q
    · subst hq
      simp
    · rw [SessionStore.heap_setState_of_ne hq]
      exact h r

theorem session_next (h : (p.next J cfg env st).2.session = some r) : p.session = some r ∨
    ∃ adm, p = lookup adm ∧ (adm.hello.sessionId = none ∧ r = st.next ∧
        p.next J cfg env st =
          (st.insert (.new env.newId adm.auth.clientId env.now), setReady adm st.next none) ∨
      ∃ sid, adm.hello.sessionId = some sid ∧ st.get sid = some r) := by
  cases p with
  | lookup adm =>
    refine .inr ⟨adm, rfl, ?_⟩
    cases hs : adm.hello.sessionId with
    | none =>
      have hn : (lookup adm).next J cfg env st =
          (st.insert (.new env.newId adm.auth.clientId env.now), setReady adm st.next none) := by
        simp only [next, hs]
      rw [hn] at h
      exact .inl ⟨rfl, (Option.some.inj h).symm, hn⟩
    | some sid =>
      refine .inr ⟨sid, rfl, ?_⟩
      simp only [next, hs] at h
      split at h
      · cases h
      · simp_all [session]
  | hello => simp only [next] at h; split at h <;> cases h
  | checkEpoch | checkState | evaluate | welcome | ready =>
    left
    simp only [next] at h
    split at h <;> simp_all [session]
  | bump | setResuming | setReady | setActive | active | ended | failed => exact .inl h

theorem session_of_bound (h : p.bound = some (adm, r)) : p.session = some r := by
  cases p <;> simp_all [bound, session]

/-- A connection gets its session when it creates one, or when its checks let it
through to a stored one. -/
theorem bound_next (h : (p.next J cfg env st).2.bound = some (adm, r)) :
    p.bound = some (adm, r) ∨ p = bump adm r ∨
      p = lookup adm ∧ r = st.next ∧ p.next J cfg env st =
        (st.insert (.new env.newId adm.auth.clientId env.now), setReady adm st.next none) := by
  cases p with
  | hello => simp only [next] at h; split at h <;> cases h
  | lookup adm' =>
    right; right
    cases hs : adm'.hello.sessionId with
    | none =>
      have hn : (lookup adm').next J cfg env st =
          (st.insert (.new env.newId adm'.auth.clientId env.now), setReady adm' st.next none) := by
        simp only [next, hs]
      rw [hn] at h
      cases h
      exact ⟨rfl, rfl, hn⟩
    | some sid =>
      simp only [next, hs] at h
      split at h <;> cases h
  | checkEpoch | checkState => simp only [next] at h; split at h <;> cases h
  | bump adm' q =>
    cases h
    exact .inr (.inl rfl)
  | evaluate | welcome | ready =>
    left
    simp only [next] at h
    split at h <;> simp_all [bound]
  | setResuming | setReady | setActive | active | ended | failed => exact .inl h

theorem greeted_next (h : (p.next J cfg env st).2.greeted)
    (hr : (p.next J cfg env st).2.session = some r) :
    p.greeted ∧ p.session = some r ∨ ((p.next J cfg env st).1.heap r).state = .ready := by
  cases p with
  | hello => simp only [next] at h; split at h <;> cases h
  | lookup adm =>
    simp only [next] at h
    split at h
    · cases h
    · split at h <;> cases h
  | checkEpoch | checkState | evaluate => simp only [next] at h; split at h <;> cases h
  | bump | setResuming | failed => cases h
  | setReady adm q resume =>
    right
    obtain rfl : q = r := Option.some.inj hr
    exact SessionStore.state_setState_self
  | welcome | ready =>
    left
    simp only [next] at hr
    split at hr <;> simp_all [session, greeted]
  | setActive | active | ended => exact .inl ⟨rfl, hr⟩

/-- Evaluation cannot fail on a session that is not Closed, so a resuming
connection goes on to set its session Ready. -/
theorem resuming_next (J : SerdeJson) (cfg : ServerConfig) (env : Env) (h : p.resuming)
    (hr : p.session = some r) (hc : (st.heap r).state ≠ .closed) :
    (p.next J cfg env st).2.resuming ∧ (p.next J cfg env st).2.session = some r ∨
      ((p.next J cfg env st).1.heap r).state = .ready := by
  cases p with
  | evaluate adm q =>
    left
    obtain rfl : q = r := Option.some.inj hr
    simp only [next, evaluate_of_alive hc]
    exact ⟨rfl, rfl⟩
  | setReady adm q resume =>
    right
    obtain rfl : q = r := Option.some.inj hr
    exact SessionStore.state_setState_self
  | _ => cases h

/-- The handshake of one connection that no other task interrupts. -/
def run (J : SerdeJson) (cfg : ServerConfig) (env : Env) :
    Nat → SessionStore × Phase → SessionStore × Phase
  | 0, x => x
  | n + 1, x => run J cfg env n (x.2.next J cfg env x.1)

/-- The phase a finished handshake is in. -/
def outcome (adm : Admission) : Except RiftError Nat → Phase
  | .ok r => active adm r
  | .error e => failed e

theorem run_failed {n : Nat} {e : RiftError} :
    run J cfg env n (st, failed e) = (st, failed e) := by
  induction n with
  | zero => rfl
  | succ n ih => exact ih

theorem run_succ {n : Nat} {x : SessionStore × Phase} :
    run J cfg env (n + 1) x = run J cfg env n (x.2.next J cfg env x.1) := rfl

theorem run_ready {w : Wire} {n : Nat} : run J cfg env (n + 2) (st, ready adm r w) =
    match w.write env (buildReadyFrame J (st.heap r) cfg adm.codec env.now) with
    | (_, .error e) => (st, failed e)
    | (_, .ok ()) => (st.setState r .active env.now, active adm r) := by
  have hactive : ∀ {n st}, run J cfg env n (st, active adm r) = (st, active adm r) := by
    intro n st
    induction n with
    | zero => rfl
    | succ n ih => exact ih
  rw [run_succ]
  rcases hw : w.write env (buildReadyFrame J (st.heap r) cfg adm.codec env.now) with ⟨w', e | u⟩
  · simp only [next, hw, run_failed]
  · simp only [next, hw, run_succ, hactive]

theorem run_setReady {resume : Option ResumeDecision} {n : Nat} :
    run J cfg env (n + 4) (st, setReady adm r resume) = ((greet J cfg env adm st r resume).1,
      outcome adm (greet J cfg env adm st r resume).2.2) := by
  rw [run_succ, run_succ]
  simp only [next, greet]
  rcases hw : Wire.write {} env (buildWelcomeFrame J ((st.setState r .ready env.now).heap r)
    adm.codec (resume.map resumeResult) cfg env.now) with ⟨w, e | u⟩
  · simp only [run_failed, outcome]
  · simp only [run_ready]
    rcases hw' : (replayMissed env w resume adm.hello.lastOffsets).write env
      (buildReadyFrame J ((st.setState r .ready env.now).heap r) cfg adm.codec env.now)
      with ⟨w', e | u'⟩ <;> rfl

theorem run_lookup : run J cfg env 10 (st, lookup adm) =
    match bindSession env adm st with
    | (st', .error e) => (st', failed e)
    | (st', .ok (r, resume)) => ((greet J cfg env adm st' r resume).1,
        outcome adm (greet J cfg env adm st' r resume).2.2) := by
  rw [run_succ]
  cases hs : adm.hello.sessionId with
  | none => simp only [next, hs, run_setReady, bindSession_cold hs]
  | some sid =>
    cases hg : st.get sid with
    | none => simp only [next, hs, hg, run_failed, bindSession]
    | some r =>
      simp only [next, hs, hg, bindSession]
      rw [run_succ]
      rcases he : epochCheck (st.heap r) adm.hello with e | u
      · simp only [next, he, run_failed]
      simp only [next, he]
      rw [run_succ]
      rcases hc : stateCheck (st.heap r) adm.hello with e | u
      · simp only [next, hc, run_failed]
      simp only [next, hc]
      rw [run_succ, run_succ, run_succ]
      simp only [next]
      rcases hev : Rifts.evaluate (((st.bumpEpoch r).setState r .resuming env.now).heap r)
        adm.hello.lastOffsets (topicOffsets env adm.hello.lastOffsets) with e | decision
      · simp only [run_failed]
      · simp only [run_setReady]

/-- Run without interference, the phases are the handshake. -/
theorem run_eq_handshake (st : SessionStore) :
    run J cfg env 11 (st, hello) = ((handshake J cfg env st).1,
      match checkHello J cfg env with
      | .ok adm => outcome adm (handshake J cfg env st).2.2
      | .error e => failed e) := by
  rw [run_succ]
  cases ha : checkHello J cfg env with
  | error e => simp only [next, ha, run_failed, handshake_rejected ha]
  | ok adm =>
    simp only [next, ha, run_lookup]
    rcases hb : bindSession env adm st with ⟨st', e | ⟨r, resume⟩⟩
    · rw [handshake_unbound ha hb]
      rfl
    · rw [handshake_bound ha hb]

end Phase

namespace Server

variable {J : SerdeJson} {cfg : ServerConfig} {srv srv' : Server} {a : Action}

/-- Everything an action can do. -/
theorem step_cases (h : step J cfg srv a = some srv') :
    (∃ i env, a = .connect i env ∧ srv.conns i = none ∧
      srv' = ⟨srv.store, Function.update srv.conns i (some ⟨env, .hello⟩)⟩) ∨
    (∃ i c, a = .advance i ∧ srv.conns i = some c ∧
      srv' = ⟨(c.phase.next J cfg c.env srv.store).1, Function.update srv.conns i
        (some ⟨c.env, (c.phase.next J cfg c.env srv.store).2⟩)⟩) ∨
    (∃ i env adm r now, a = .frame i now ∧ srv.conns i = some ⟨env, .active adm r⟩ ∧
      srv' = ⟨srv.store.touch r now, srv.conns⟩) ∨
    (∃ i env adm r res, a = .finish i res ∧ srv.conns i = some ⟨env, .active adm r⟩ ∧
      srv' = ⟨srv.store, Function.update srv.conns i (some ⟨env, .ended adm r res⟩)⟩) ∨
    ∃ sid, a = .remove sid ∧ srv' = ⟨srv.store.remove sid, srv.conns⟩ := by
  cases a with
  | connect i env =>
    cases hc : srv.conns i with
    | some c => simp [step, hc] at h
    | none =>
      simp only [step, hc, Option.some.injEq] at h
      exact .inl ⟨i, env, rfl, hc, h.symm⟩
  | advance i =>
    cases hc : srv.conns i with
    | none => simp [step, hc] at h
    | some c =>
      simp only [step, hc, Option.some.injEq] at h
      exact .inr (.inl ⟨i, c, rfl, hc, h.symm⟩)
  | frame i now =>
    simp only [step] at h
    split at h
    · next env adm r hc => exact .inr (.inr (.inl ⟨i, env, adm, r, now, rfl, hc,
        (Option.some.inj h).symm⟩))
    · cases h
  | finish i res =>
    simp only [step] at h
    split at h
    · next env adm r hc => exact .inr (.inr (.inr (.inl ⟨i, env, adm, r, res, rfl, hc,
        (Option.some.inj h).symm⟩)))
    · cases h
  | remove sid => exact .inr (.inr (.inr (.inr ⟨sid, rfl, (Option.some.inj h).symm⟩)))

/-- Where a connection found after a step comes from. -/
theorem conn_step {j : Nat} {d : Conn} (h : step J cfg srv a = some srv')
    (hd : srv'.conns j = some d) :
    srv.conns j = some d ∨ d.phase = .hello ∨
    (∃ c, a = .advance j ∧ srv.conns j = some c ∧
      d.phase = (c.phase.next J cfg c.env srv.store).2 ∧
      srv'.store = (c.phase.next J cfg c.env srv.store).1) ∨
    ∃ env adm r res, srv.conns j = some ⟨env, .active adm r⟩ ∧ d.phase = .ended adm r res := by
  have hup : ∀ {i : Nat} {c : Conn}, Function.update srv.conns i (some c) j = some d →
      j = i ∧ c = d ∨ srv.conns j = some d := by
    intro i c hu
    by_cases hj : j = i
    · subst hj
      exact .inl ⟨rfl, by simpa using hu⟩
    · rw [Function.update_of_ne hj] at hu
      exact .inr hu
  rcases step_cases h with ⟨i, env, -, -, rfl⟩ | ⟨i, c, rfl, hc, rfl⟩ |
    ⟨i, env, adm, q, now, -, -, rfl⟩ | ⟨i, env, adm, q, res, -, hc, rfl⟩ | ⟨sid, -, rfl⟩
  · rcases hup hd with ⟨rfl, rfl⟩ | hold
    · exact .inr (.inl rfl)
    · exact .inl hold
  · rcases hup hd with ⟨rfl, rfl⟩ | hold
    · exact .inr (.inr (.inl ⟨c, rfl, hc, rfl, rfl⟩))
    · exact .inl hold
  · exact .inl hd
  · rcases hup hd with ⟨rfl, rfl⟩ | hold
    · exact .inr (.inr (.inr ⟨env, adm, q, res, hc, rfl⟩))
    · exact .inl hold
  · exact .inl hd

/-- What a step does to the store, seen from the session objects. -/
theorem heap_step (h : step J cfg srv a = some srv') :
    (srv'.store.next = srv.store.next ∧ ∀ r,
      (srv'.store.heap r).clientId = (srv.store.heap r).clientId ∧
      (srv'.store.heap r).state = (srv.store.heap r).state) ∨
    ∃ i c, a = .advance i ∧ srv.conns i = some c ∧
      srv'.store = (c.phase.next J cfg c.env srv.store).1 := by
  rcases step_cases h with ⟨i, env, -, -, rfl⟩ | ⟨i, c, rfl, hc, rfl⟩ |
    ⟨i, env, adm, q, now, -, -, rfl⟩ | ⟨i, env, adm, q, res, -, hc, rfl⟩ | ⟨sid, -, rfl⟩
  · exact .inl ⟨rfl, fun _ => ⟨rfl, rfl⟩⟩
  · exact .inr ⟨i, c, rfl, hc, rfl⟩
  · exact .inl ⟨rfl, fun _ => ⟨SessionStore.clientId_touch, SessionStore.state_touch⟩⟩
  · exact .inl ⟨rfl, fun _ => ⟨rfl, rfl⟩⟩
  · exact .inl ⟨rfl, fun _ => ⟨rfl, rfl⟩⟩

theorem next_step (h : step J cfg srv a = some srv') : srv.store.next ≤ srv'.store.next := by
  rcases heap_step h with ⟨hn, -⟩ | ⟨i, c, -, -, hst⟩
  · exact Nat.le_of_eq hn.symm
  · rw [hst]
    exact Phase.next_le

theorem clientId_step {r : Nat} (h : step J cfg srv a = some srv') (hr : r < srv.store.next) :
    (srv'.store.heap r).clientId = (srv.store.heap r).clientId := by
  rcases heap_step h with ⟨-, hh⟩ | ⟨i, c, -, -, hst⟩
  · exact (hh r).1
  · rw [hst]
    exact Phase.clientId_next hr

/-- Connections hold only sessions that were created. -/
def Allocated (srv : Server) : Prop :=
  ∀ i c r, srv.conns i = some c → c.phase.session = some r → r < srv.store.next

theorem allocated_initial : Allocated initial := by
  intro i c r hc
  cases hc

theorem allocated_step (h : step J cfg srv a = some srv') (ha : Allocated srv) :
    Allocated srv' := by
  intro j d r hd hr
  rcases conn_step h hd with hold | hp | ⟨c, -, hc, hp, hst⟩ | ⟨env, adm, q, res, hc, hp⟩
  · exact Nat.lt_of_lt_of_le (ha j d r hold hr) (next_step h)
  · simp [hp, Phase.session] at hr
  · rw [hp] at hr
    rcases Phase.session_next hr with hs | ⟨adm, -, ⟨-, rfl, hn⟩ | ⟨sid, -, hg⟩⟩
    · exact Nat.lt_of_lt_of_le (ha j c r hc hs) (next_step h)
    · rw [hst, hn]
      exact Nat.lt_succ_self _
    · exact Nat.lt_of_lt_of_le (SessionStore.get_lt hg) (next_step h)
  · rw [hp] at hr
    exact Nat.lt_of_lt_of_le (ha j _ r hc hr) (next_step h)

/-- No session object is Closed: nothing the server does closes one. -/
def Unclosed (srv : Server) : Prop := ∀ r, (srv.store.heap r).state ≠ .closed

theorem unclosed_initial : Unclosed initial := by
  intro r
  simp [initial, SessionStore.new, Session.new]

theorem unclosed_step (h : step J cfg srv a = some srv') (hu : Unclosed srv) :
    Unclosed srv' := by
  intro r
  rcases heap_step h with ⟨-, hh⟩ | ⟨i, c, -, -, hst⟩
  · rw [(hh r).2]
    exact hu r
  · rw [hst]
    exact Phase.unclosed_next hu r

end Server

end Rifts
