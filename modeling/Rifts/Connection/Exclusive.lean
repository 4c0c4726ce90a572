import Rifts.Connection.Resumption

/-! Handshakes that race for one stored session: the epoch read, the state read
and the bump are separate accesses. -/
namespace Rifts

namespace Phase

variable {J : SerdeJson} {cfg : ServerConfig} {env : Env} {st : SessionStore} {p : Phase}
  {sid : String} {r : Nat}

/-- Past the state check, with the session not set Ready yet. -/
def entering : Phase → Bool
  | bump .. | setResuming .. | evaluate .. | setReady .. => true
  | _ => false

/-- Past the state check, and not failed since. -/
def entered (p : Phase) : Bool := p.entering || p.greeted

/-- The handshake returned its session. -/
def succeeded : Phase → Bool
  | active .. | ended .. => true
  | _ => false

def returned : Phase → Bool
  | active .. | ended .. | failed _ => true
  | _ => false

/-- The handshake is for session `r`, stored as `sid`. -/
def About (J : SerdeJson) (cfg : ServerConfig) (env : Env) (sid : String) (r : Nat) :
    Phase → Prop
  | hello => ∃ adm, checkHello J cfg env = .ok adm ∧ adm.hello.sessionId = some sid
  | lookup adm => adm.hello.sessionId = some sid
  | failed _ => True
  | p => p.session = some r

theorem entering_of_resuming (h : p.resuming) : p.entering := by
  cases p <;> simp_all [resuming, entering]

theorem about_next (h : p.About J cfg env sid r) (hg : st.get sid = some r) :
    (p.next J cfg env st).2.About J cfg env sid r := by
  cases p with
  | hello =>
    obtain ⟨adm, ha, hs⟩ := h
    simp only [next, ha]
    exact hs
  | lookup adm =>
    have hs : adm.hello.sessionId = some sid := h
    simp only [next, hs, hg]
    rfl
  | checkEpoch | checkState | evaluate | welcome | ready =>
    simp only [next]
    split
    · trivial
    · exact h
  | bump | setResuming | setReady | setActive | active | ended => exact h
  | failed e => trivial

theorem get_next (h : p.About J cfg env sid r) {sid' : String} :
    (p.next J cfg env st).1.get sid' = st.get sid' := by
  rcases store_next J cfg env st p with hn | ⟨adm, rfl, hs, -⟩ | ⟨adm, q, -, hn⟩ |
    ⟨adm, q, -, hn⟩ | ⟨adm, q, resume, -, hn⟩ | ⟨adm, q, w, -, hn⟩
  · rw [hn]
  · have hsid : adm.hello.sessionId = some sid := h
    simp [hs] at hsid
  all_goals
    rw [hn]
    rfl

theorem session_of_about (h : p.entered) (ha : p.About J cfg env sid r) :
    p.session = some r := by
  cases p <;> first | exact ha | cases h

theorem resuming_of_next (h : (p.next J cfg env st).2.resuming) :
    p.resuming ∨ (∃ adm q, p = setResuming adm q) ∨ ∃ adm, p = lookup adm := by
  cases p with
  | hello | checkEpoch | checkState | welcome | ready =>
    simp only [next] at h
    split at h <;> cases h
  | lookup adm => exact .inr (.inr ⟨adm, rfl⟩)
  | bump | setReady | setActive | active | ended | failed => simp [next, resuming] at h ⊢
  | setResuming adm q => exact .inr (.inl ⟨adm, q, rfl⟩)
  | evaluate => exact .inl rfl

/-- Only a write can fail a handshake that is past its state check, since the
session it evaluates is not Closed any more. -/
theorem entered_next (h : p.entered) (hr : p.session = some r) (hw : ∀ n, env.write n = .ok ())
    (hc : p.resuming → (st.heap r).state ≠ .closed) : (p.next J cfg env st).2.entered := by
  cases p with
  | hello | lookup | checkEpoch | checkState | failed => cases h
  | bump | setResuming | setReady | setActive | active | ended => rfl
  | evaluate adm q =>
    obtain rfl : q = r := Option.some.inj hr
    simp only [next, evaluate_of_alive (hc rfl)]
    rfl
  | welcome | ready =>
    simp only [next, Wire.write, hw]
    rfl

end Phase

def RiftError.IsConflict (e : RiftError) : Prop :=
  ∃ incoming current, e = .session (.conflict incoming current)

theorem epochCheck_error {s : Session} {hello : Hello} {e : RiftError}
    (h : epochCheck s hello = .error e) : e.IsConflict := by
  unfold epochCheck at h
  split at h
  · cases h
    exact ⟨_, _, rfl⟩
  · cases h

theorem stateCheck_error {s : Session} {hello : Hello} {e : RiftError}
    (h : stateCheck s hello = .error e) : e.IsConflict := by
  unfold stateCheck at h
  split at h
  · cases h
    exact ⟨_, _, rfl⟩
  · cases h

namespace Server

variable {J : SerdeJson} {cfg : ServerConfig} {srv srv' : Server} {i : Nat} {is : List Nat}
  {sid : String} {r : Nat}

/-- Handshakes that are about to read their hello, over one store. -/
def contending (st : SessionStore) (envs : Nat → Option Env) : Server :=
  ⟨st, fun i => (envs i).map fun env => ⟨env, .hello⟩⟩

/-- A schedule names, step by step, the handshake that goes on. -/
def advance (J : SerdeJson) (cfg : ServerConfig) (srv : Server) (i : Nat) : Option Server :=
  step J cfg srv (.advance i)

/-- At most one handshake has returned the session, and those that failed were
told of the conflict. -/
structure SingleBinding (srv : Server) : Prop where
  one : ∀ i j c d, srv.conns i = some c → srv.conns j = some d → c.phase.succeeded →
    d.phase.succeeded → i = j
  refused : ∀ i c e, srv.conns i = some c → c.phase = .failed e → e.IsConflict

/-- A state read that lets the handshake through finds no other handshake between
its own state read and its `set_state(Ready)`; and a write goes through. -/
def Exclusive (srv : Server) (i : Nat) : Prop :=
  ∀ c, srv.conns i = some c →
    match c.phase with
    | .checkState adm r => stateCheck (srv.store.heap r) adm.hello = .ok () →
        ∀ j d, j ≠ i → srv.conns j = some d → d.phase.entering = false
    | .welcome .. => c.env.write 0 = .ok ()
    | .ready _ _ w => c.env.write w.attempts = .ok ()
    | _ => True

theorem advance_some (h : advance J cfg srv i = some srv') :
    ∃ c, srv.conns i = some c ∧ srv'.store = (c.phase.next J cfg c.env srv.store).1 ∧
      srv'.conns i = some ⟨c.env, (c.phase.next J cfg c.env srv.store).2⟩ ∧
      ∀ j, j ≠ i → srv'.conns j = srv.conns j := by
  rcases step_cases h with ⟨j, env, ha, -⟩ | ⟨j, c, ha, hc, rfl⟩ | ⟨j, env, adm, q, now, ha, -⟩ |
    ⟨j, env, adm, q, res, ha, -⟩ | ⟨sid, ha, -⟩ <;> cases ha
  exact ⟨c, hc, rfl, Function.update_self .., fun j hj => Function.update_of_ne hj ..⟩

/-- A schedule starts no handshake. -/
theorem conns_run (h : Transition.run (advance J cfg) srv is = some srv') (i : Nat)
    (hi : srv.conns i = none) : srv'.conns i = none := by
  refine Transition.run_invariant (P := fun s => s.conns i = none) ?_ h hi
  intro s j t ht hs
  obtain ⟨c, hj, -, -, hother⟩ := advance_some ht
  have hne : i ≠ j := by
    rintro rfl
    cases hs.symm.trans hj
  rw [hother i hne, hs]

/-- All handshakes are for one session, which stays where it is stored. -/
structure Contended (J : SerdeJson) (cfg : ServerConfig) (sid : String) (r : Nat)
    (srv : Server) : Prop where
  stored : srv.store.get sid = some r
  about : ∀ i c, srv.conns i = some c → c.phase.About J cfg c.env sid r

theorem contended_step (h : advance J cfg srv i = some srv')
    (hc : Contended J cfg sid r srv) : Contended J cfg sid r srv' := by
  obtain ⟨c, hi, hst, hself, hother⟩ := advance_some h
  have ha := hc.about i c hi
  constructor
  · rw [hst, Phase.get_next ha]
    exact hc.stored
  · intro j d hd
    by_cases hj : j = i
    · subst hj
      obtain rfl := Option.some.inj (hself.symm.trans hd)
      exact Phase.about_next ha hc.stored
    · rw [hother j hj] at hd
      exact hc.about j d hd

/-- One handshake at most is past its state check, and the session's state shows
how far it got. -/
structure Alone (r : Nat) (srv : Server) : Prop where
  one : ∀ i j c d, srv.conns i = some c → srv.conns j = some d → c.phase.entered →
    d.phase.entered → i = j
  taken : ∀ i c, srv.conns i = some c → c.phase.greeted →
    (srv.store.heap r).state = .ready ∨ (srv.store.heap r).state = .active
  resuming : ∀ i c, srv.conns i = some c → c.phase.resuming →
    (srv.store.heap r).state = .resuming
  refused : ∀ i c e, srv.conns i = some c → c.phase = .failed e → e.IsConflict

/-- A handshake that is past its state check works on the session alone. -/
theorem alone_step_of_entered {c : Conn} (h : advance J cfg srv i = some srv')
    (hi : srv.conns i = some c) (he : c.phase.entered) (ha : Alone r srv)
    (htaken : (c.phase.next J cfg c.env srv.store).2.greeted →
      (srv'.store.heap r).state = .ready ∨ (srv'.store.heap r).state = .active)
    (hresuming : (c.phase.next J cfg c.env srv.store).2.resuming →
      (srv'.store.heap r).state = .resuming)
    (hfailed : ∀ e, (c.phase.next J cfg c.env srv.store).2 ≠ .failed e) : Alone r srv' := by
  obtain ⟨c', hi', hst, hself, hother⟩ := advance_some h
  obtain rfl : c = c' := Option.some.inj (hi.symm.trans hi')
  have hout : ∀ j d, j ≠ i → srv.conns j = some d → d.phase.entered = false := by
    intro j d hj hd
    by_contra hn
    exact hj (ha.one j i d c hd hi (by simpa using hn) he)
  constructor
  · intro j k d e hd he' hde hee
    by_cases hj : j = i
    · by_cases hk : k = i
      · rw [hj, hk]
      · rw [hother k hk] at he'
        simp [hout k e hk he'] at hee
    · rw [hother j hj] at hd
      simp [hout j d hj hd] at hde
  · intro j d hd hg
    by_cases hj : j = i
    · subst hj
      obtain rfl := Option.some.inj (hself.symm.trans hd)
      exact htaken hg
    · rw [hother j hj] at hd
      have := hout j d hj hd
      simp [Phase.entered, hg] at this
  · intro j d hd hr
    by_cases hj : j = i
    · subst hj
      obtain rfl := Option.some.inj (hself.symm.trans hd)
      exact hresuming hr
    · rw [hother j hj] at hd
      have := hout j d hj hd
      simp [Phase.entered, Phase.entering_of_resuming hr] at this
  · intro j d e hd hf
    by_cases hj : j = i
    · subst hj
      obtain rfl := Option.some.inj (hself.symm.trans hd)
      exact absurd hf (hfailed e)
    · rw [hother j hj] at hd
      exact ha.refused j d e hd hf

/-- A handshake up to its state check leaves the session as it is. -/
theorem alone_step_of_checking {c : Conn} (h : advance J cfg srv i = some srv')
    (hi : srv.conns i = some c) (ha : Alone r srv) (hstore : srv'.store = srv.store)
    (hgreeted : (c.phase.next J cfg c.env srv.store).2.greeted = false)
    (hresuming : (c.phase.next J cfg c.env srv.store).2.resuming = false)
    (henter : (c.phase.next J cfg c.env srv.store).2.entered →
      ∀ j d, j ≠ i → srv.conns j = some d → d.phase.entered = false)
    (hfailed : ∀ e, (c.phase.next J cfg c.env srv.store).2 = .failed e → e.IsConflict) :
    Alone r srv' := by
  obtain ⟨c', hi', -, hself, hother⟩ := advance_some h
  obtain rfl : c = c' := Option.some.inj (hi.symm.trans hi')
  constructor
  · intro j k d e hd he hde hee
    by_cases hj : j = i
    · subst hj
      obtain rfl := Option.some.inj (hself.symm.trans hd)
      by_cases hk : k = j
      · exact hk.symm
      · rw [hother k hk] at he
        simp [henter hde k e hk he] at hee
    · rw [hother j hj] at hd
      by_cases hk : k = i
      · subst hk
        obtain rfl := Option.some.inj (hself.symm.trans he)
        simp [henter hee j d hj hd] at hde
      · rw [hother k hk] at he
        exact ha.one j k d e hd he hde hee
  · intro j d hd hg
    by_cases hj : j = i
    · subst hj
      obtain rfl := Option.some.inj (hself.symm.trans hd)
      simp [hgreeted] at hg
    · rw [hother j hj] at hd
      rw [hstore]
      exact ha.taken j d hd hg
  · intro j d hd hr
    by_cases hj : j = i
    · subst hj
      obtain rfl := Option.some.inj (hself.symm.trans hd)
      simp [hresuming] at hr
    · rw [hother j hj] at hd
      rw [hstore]
      exact ha.resuming j d hd hr
  · intro j d e hd hf
    by_cases hj : j = i
    · subst hj
      obtain rfl := Option.some.inj (hself.symm.trans hd)
      exact hfailed e hf
    · rw [hother j hj] at hd
      exact ha.refused j d e hd hf

theorem alone_step (h : advance J cfg srv i = some srv') (hok : Exclusive srv i)
    (hc : Contended J cfg sid r srv) (ha : Alone r srv) : Alone r srv' := by
  obtain ⟨⟨env, p⟩, hi, hst, -, -⟩ := advance_some h
  have hab := hc.about i _ hi
  have hok := hok _ hi
  cases p with
  | hello =>
    obtain ⟨adm, hadm, -⟩ := hab
    refine alone_step_of_checking h hi ha (by simp only [hst, Phase.next, hadm]) ?_ ?_ ?_ ?_ <;>
      simp [Phase.next, hadm, Phase.greeted, Phase.resuming, Phase.entered, Phase.entering]
  | lookup adm =>
    have hs : adm.hello.sessionId = some sid := hab
    refine alone_step_of_checking h hi ha
      (by simp only [hst, Phase.next, hs, hc.stored]) ?_ ?_ ?_ ?_
      <;> simp [Phase.next, hs, hc.stored, Phase.greeted, Phase.resuming, Phase.entered,
        Phase.entering]
  | checkEpoch adm q =>
    cases he : epochCheck (srv.store.heap q) adm.hello with
    | error e =>
      refine alone_step_of_checking h hi ha (by simp only [hst, Phase.next, he]) ?_ ?_ ?_ ?_ <;>
        simp [Phase.next, he, Phase.greeted, Phase.resuming, Phase.entered, Phase.entering,
          epochCheck_error he]
    | ok u =>
      refine alone_step_of_checking h hi ha (by simp only [hst, Phase.next, he]) ?_ ?_ ?_ ?_ <;>
        simp [Phase.next, he, Phase.greeted, Phase.resuming, Phase.entered, Phase.entering]
  | checkState adm q =>
    obtain rfl : q = r := Option.some.inj hab
    cases he : stateCheck (srv.store.heap q) adm.hello with
    | error e =>
      refine alone_step_of_checking h hi ha (by simp only [hst, Phase.next, he]) ?_ ?_ ?_ ?_ <;>
        simp [Phase.next, he, Phase.greeted, Phase.resuming, Phase.entered, Phase.entering,
          stateCheck_error he]
    | ok u =>
      refine alone_step_of_checking h hi ha (by simp only [hst, Phase.next, he]) ?_ ?_ ?_ ?_
      · simp [Phase.next, he, Phase.greeted]
      · simp [Phase.next, he, Phase.resuming]
      · intro _ j d hj hd
        -- one that is greeted would have left the session Ready or Active
        have hgreeted : d.phase.greeted = false := by
          by_contra hg
          have htaken := ha.taken j d hd (by simpa using hg)
          simp [stateCheck_conflict htaken] at he
        simp [Phase.entered, hok he j d hj hd, hgreeted]
      · simp [Phase.next, he]
  | bump adm q =>
    refine alone_step_of_entered h hi rfl ha ?_ ?_ ?_ <;>
      simp [Phase.next, Phase.greeted, Phase.resuming]
  | setResuming adm q =>
    obtain rfl : q = r := Option.some.inj hab
    refine alone_step_of_entered h hi rfl ha ?_ ?_ ?_
    · simp [Phase.next, Phase.greeted]
    · simp [hst, Phase.next]
    · simp [Phase.next]
  | evaluate adm q =>
    obtain rfl : q = r := Option.some.inj hab
    have hres := ha.resuming i _ hi rfl
    have halive := @evaluate_of_alive (srv.store.heap q) adm.hello.lastOffsets
      (topicOffsets env adm.hello.lastOffsets) (by simp [hres])
    refine alone_step_of_entered h hi rfl ha ?_ ?_ ?_ <;>
      simp [hst, Phase.next, halive, Phase.greeted, hres]
  | setReady adm q resume =>
    obtain rfl : q = r := Option.some.inj hab
    refine alone_step_of_entered h hi rfl ha ?_ ?_ ?_ <;>
      simp [hst, Phase.next, Phase.resuming]
  | welcome adm q resume =>
    have htaken := ha.taken i _ hi rfl
    have hw : env.write 0 = .ok () := hok
    refine alone_step_of_entered h hi rfl ha ?_ ?_ ?_ <;>
      simp [hst, Phase.next, Wire.write, hw, Phase.resuming, htaken]
  | ready adm q w =>
    have htaken := ha.taken i _ hi rfl
    have hw : env.write w.attempts = .ok () := hok
    refine alone_step_of_entered h hi rfl ha ?_ ?_ ?_ <;>
      simp [hst, Phase.next, Wire.write, hw, Phase.resuming, htaken]
  | setActive adm q w =>
    obtain rfl : q = r := Option.some.inj hab
    refine alone_step_of_entered h hi rfl ha ?_ ?_ ?_ <;>
      simp [hst, Phase.next, Phase.resuming]
  | active adm q =>
    have htaken := ha.taken i _ hi rfl
    refine alone_step_of_entered h hi rfl ha ?_ ?_ ?_ <;>
      simp [hst, Phase.next, Phase.resuming, htaken]
  | ended adm q res =>
    have htaken := ha.taken i _ hi rfl
    refine alone_step_of_entered h hi rfl ha ?_ ?_ ?_ <;>
      simp [hst, Phase.next, Phase.resuming, htaken]
  | failed e =>
    refine alone_step_of_checking h hi ha (by simp only [hst, Phase.next]) ?_ ?_ ?_ ?_ <;>
      simp [Phase.next, Phase.greeted, Phase.resuming, Phase.entered, Phase.entering,
        ha.refused i _ e hi rfl]

theorem singleBinding_of_alone (h : Alone r srv) : SingleBinding srv := by
  have hentered : ∀ p : Phase, p.succeeded → p.entered := by
    intro p hp
    cases p <;> simp_all [Phase.succeeded, Phase.entered, Phase.greeted]
  refine ⟨?_, h.refused⟩
  intro i j c d hi hj hc hd
  exact h.one i j c d hi hj (hentered _ hc) (hentered _ hd)

/-- A session that is being resumed is not Closed. -/
def Awake (r : Nat) (srv : Server) : Prop :=
  ∀ i c, srv.conns i = some c → c.phase.resuming → (srv.store.heap r).state ≠ .closed

theorem awake_step (h : advance J cfg srv i = some srv') (hc : Contended J cfg sid r srv)
    (ha : Awake r srv) : Awake r srv' := by
  obtain ⟨c, hi, hst, hself, hother⟩ := advance_some h
  intro j d hd hr
  rcases Phase.state_next J cfg c.env c.phase (SessionStore.get_lt hc.stored) with
    he | ⟨he, -⟩ | he | he
  · rw [hst, he]
    by_cases hj : j = i
    · subst hj
      obtain rfl := Option.some.inj (hself.symm.trans hd)
      rcases Phase.resuming_of_next hr with hold | ⟨adm, q, hp⟩ | ⟨adm, hp⟩
      · exact ha j c hi hold
      · obtain rfl : q = r := by
          have hab := hc.about j c hi
          rw [hp] at hab
          exact Option.some.inj hab
        have hres := @SessionStore.state_setState_self srv.store q .resuming c.env.now
        simp only [hp, Phase.next] at he
        rw [← he, hres]
        simp
      · have hs : adm.hello.sessionId = some sid := by
          have hab := hc.about j c hi
          rw [hp] at hab
          exact hab
        simp [hp, Phase.next, hs, hc.stored, Phase.resuming] at hr
    · rw [hother j hj] at hd
      exact ha j d hd hr
  all_goals
    rw [hst, he]
    simp

theorem writes_step (h : advance J cfg srv i = some srv')
    (hw : ∀ j c n, srv.conns j = some c → c.env.write n = .ok ()) (j : Nat) (c : Conn) (n : Nat)
    (hc : srv'.conns j = some c) : c.env.write n = .ok () := by
  obtain ⟨b, hb, -, hself, hother⟩ := advance_some h
  by_cases hj : j = i
  · subst hj
    obtain rfl := Option.some.inj (hself.symm.trans hc)
    exact hw j b n hb
  · rw [hother j hj] at hc
    exact hw j c n hc

/-- A handshake past its state check is still there at the end of any schedule. -/
theorem entered_run {c : Conn} (h : Transition.run (advance J cfg) srv is = some srv')
    (hw : ∀ j d n, srv.conns j = some d → d.env.write n = .ok ())
    (hc : Contended J cfg sid r srv) (ha : Awake r srv) (hi : srv.conns i = some c)
    (he : c.phase.entered) : ∃ d, srv'.conns i = some d ∧ d.phase.entered := by
  induction is generalizing srv c with
  | nil =>
    cases h
    exact ⟨c, hi, he⟩
  | cons k is ih =>
    obtain ⟨t, ht, hrun⟩ := Transition.run_cons_iff.mp h
    obtain ⟨b, hb, -, hself, hother⟩ := advance_some ht
    have hw' := writes_step ht hw
    by_cases hik : i = k
    · subst hik
      obtain rfl : c = b := Option.some.inj (hi.symm.trans hb)
      refine ih hrun hw' (contended_step ht hc) (awake_step ht hc ha) hself ?_
      exact Phase.entered_next he (Phase.session_of_about he (hc.about i c hi))
        (fun n => hw i c n hi) (ha i c hi)
    · refine ih hrun hw' (contended_step ht hc) (awake_step ht hc ha) ?_ he
      rw [hother i hik]
      exact hi

/-- Two handshakes that are past their state checks both succeed in the end. -/
theorem exclusive_of_singleBinding (h : Transition.run (advance J cfg) srv is = some srv')
    (hw : ∀ j c n, srv.conns j = some c → c.env.write n = .ok ())
    (hc : Contended J cfg sid r srv) (ha : Awake r srv)
    (hdone : ∀ j c, srv'.conns j = some c → c.phase.returned) (hs : SingleBinding srv') :
    Transition.Guarded (advance J cfg) Exclusive srv is := by
  have hsucceeded : ∀ p : Phase, p.entered → p.returned → p.succeeded := by
    intro p he hr
    cases p <;> simp_all [Phase.entered, Phase.entering, Phase.greeted, Phase.returned,
      Phase.succeeded]
  induction is generalizing srv with
  | nil => trivial
  | cons i is ih =>
    intro t ht
    obtain ⟨u, hu, hrun⟩ := Transition.run_cons_iff.mp h
    obtain rfl : u = t := Option.some.inj (hu.symm.trans ht)
    have hw' := writes_step ht hw
    have hc' := contended_step ht hc
    have ha' := awake_step ht hc ha
    refine ⟨?_, ih hrun hw' hc' ha'⟩
    rintro ⟨env, p⟩ hi
    cases p with
    | checkState adm q =>
      intro hpass j d hj hd
      by_contra hn
      obtain ⟨c, hi', -, hself, hother⟩ := advance_some ht
      obtain rfl := Option.some.inj (hi.symm.trans hi')
      simp only [Phase.next, hpass] at hself
      obtain ⟨x, hx, hxe⟩ := entered_run hrun hw' hc' ha' hself rfl
      rw [← hother j hj] at hd
      have hde : d.phase.entered := by
        simp only [Phase.entered, Bool.or_eq_true]
        exact .inl (by simpa using hn)
      obtain ⟨y, hy, hye⟩ := entered_run hrun hw' hc' ha' hd hde
      exact hj (hs.one j i y x hy hx (hsucceeded _ hye (hdone j y hy))
        (hsucceeded _ hxe (hdone i x hx)))
    | welcome | ready => exact hw i _ _ hi
    | hello | lookup | checkEpoch | bump | setResuming | evaluate | setReady | setActive | active
    | ended | failed => trivial

/-- Handshakes that name one stored session: when a state read lets a handshake
through only while no other is on its way from its own state read to Ready, and
writes go through, one at most succeeds and the others are refused as conflicts,
at every point of the schedule. Where writes never fail, a schedule that runs all
handshakes to their end does so only then. -/
theorem single_binding (J : SerdeJson) (cfg : ServerConfig) (st : SessionStore) (sid : String)
    (r : Nat) (hget : st.get sid = some r) (envs : Nat → Option Env)
    (hnamed : ∀ i env, envs i = some env →
      ∃ adm, checkHello J cfg env = .ok adm ∧ adm.hello.sessionId = some sid) :
    (∀ is, Transition.Guarded (advance J cfg) Exclusive (contending st envs) is →
      Transition.Throughout (advance J cfg) SingleBinding (contending st envs) is) ∧
    ((∀ i env n, envs i = some env → env.write n = .ok ()) → ∀ is srv,
      Transition.run (advance J cfg) (contending st envs) is = some srv →
      (∀ i c, srv.conns i = some c → c.phase.returned) → SingleBinding srv →
      Transition.Guarded (advance J cfg) Exclusive (contending st envs) is) := by
  have hstart : ∀ i c, (contending st envs).conns i = some c →
      envs i = some c.env ∧ c.phase = .hello := by
    intro i c hi
    simp only [contending, Option.map_eq_some_iff] at hi
    obtain ⟨env, henv, rfl⟩ := hi
    exact ⟨henv, rfl⟩
  have hcontended : Contended J cfg sid r (contending st envs) := by
    refine ⟨hget, ?_⟩
    intro i c hi
    obtain ⟨henv, hp⟩ := hstart i c hi
    rw [hp]
    exact hnamed i c.env henv
  constructor
  · intro is hg
    have halone : Alone r (contending st envs) := by
      constructor
      · intro i j c d hi _ he
        rw [(hstart i c hi).2] at he
        cases he
      · intro i c hi hp
        rw [(hstart i c hi).2] at hp
        cases hp
      · intro i c hi hp
        rw [(hstart i c hi).2] at hp
        cases hp
      · intro i c e hi hp
        rw [(hstart i c hi).2] at hp
        cases hp
    have hinv := Transition.throughout_of_guarded
      (P := fun s => Contended J cfg sid r s ∧ Alone r s)
      (fun s i t h hok hs => ⟨contended_step h hs.1, alone_step h hok hs.1 hs.2⟩) hg
      ⟨hcontended, halone⟩
    exact Transition.throughout_mono hinv fun s hs => singleBinding_of_alone hs.2
  · intro hw is srv hrun hdone hs
    refine exclusive_of_singleBinding hrun ?_ hcontended ?_ hdone hs
    · intro j c n hj
      exact hw j c.env n (hstart j c hj).1
    · intro j c hj hp
      rw [(hstart j c hj).2] at hp
      cases hp

/-- Two clients that come back to session "s" in its first epoch. -/
def twoReturns : Nat → Option Env
  | 0 | 1 => some (.plain twoHellos (resumeBody 1) "alice" "t")
  | _ => none

theorem second_return_is_refused :
    Transition.Throughout (advance twoHellos {}) SingleBinding
      (contending drainingStore twoReturns) (List.replicate 11 0 ++ [1, 1, 1]) := by
  have h := single_binding twoHellos {} drainingStore "s" 0 rfl twoReturns (by
    intro i env henv
    match i, henv with
    | 0, henv | 1, henv => cases henv; exact ⟨_, rfl, rfl⟩)
  obtain ⟨srv, hrun, ⟨c, adm, hc, hca⟩, d, hd, hdf⟩ : ∃ srv,
      Transition.run (advance twoHellos {}) (contending drainingStore twoReturns)
        (List.replicate 11 0 ++ [1, 1, 1]) = some srv ∧
      (∃ c adm, srv.conns 0 = some c ∧ c.phase = .active adm 0) ∧
      ∃ d, srv.conns 1 = some d ∧ d.phase = .failed (.session (.conflict 1 2)) :=
    ⟨_, rfl, ⟨_, _, rfl, rfl⟩, _, rfl, rfl⟩
  have hcases : ∀ i b, srv.conns i = some b →
      i = 0 ∧ b.phase = .active adm 0 ∨
        i = 1 ∧ b.phase = .failed (.session (.conflict 1 2)) := by
    intro i b hb
    match i with
    | 0 => exact .inl ⟨rfl, by rw [← Option.some.inj (hc.symm.trans hb), hca]⟩
    | 1 => exact .inr ⟨rfl, by rw [← Option.some.inj (hd.symm.trans hb), hdf]⟩
    | i + 2 => simp [conns_run hrun (i + 2) rfl] at hb
  refine h.1 _ (h.2 ?_ _ srv hrun ?_ ⟨?_, ?_⟩)
  · intro i env n henv
    match i, henv with
    | 0, henv | 1, henv => cases henv; rfl
  · intro i b hb
    rcases hcases i b hb with ⟨-, hp⟩ | ⟨-, hp⟩ <;> rw [hp] <;> rfl
  · intro i j b b' hi hj hb hb'
    rcases hcases i b hi with ⟨rfl, hp⟩ | ⟨rfl, hp⟩
    · rcases hcases j b' hj with ⟨rfl, hp'⟩ | ⟨rfl, hp'⟩
      · rfl
      · simp [hp', Phase.succeeded] at hb'
    · simp [hp, Phase.succeeded] at hb
  · intro i b e hb he
    rcases hcases i b hb with ⟨-, hp⟩ | ⟨-, hp⟩
    · cases hp.symm.trans he
    · cases hp.symm.trans he
      exact ⟨_, _, rfl⟩

/-- Both read the epoch and the state before either bumps the epoch, and both end
up with session "s", which was Draining. -/
theorem two_returns_bind_one_session :
    (drainingStore.heap 0).state = .draining ∧ (drainingStore.heap 0).epoch = 1 ∧
    ∃ srv, Transition.run (advance twoHellos {}) (contending drainingStore twoReturns)
        ([0, 0, 0, 0, 1, 1, 1, 1] ++ List.replicate 7 0 ++ List.replicate 7 1) = some srv ∧
      ∃ c d adm adm', srv.conns 0 = some c ∧ c.phase = .active adm 0 ∧
        srv.conns 1 = some d ∧ d.phase = .active adm' 0 := by
  refine ⟨rfl, rfl, _, rfl, _, _, _, _, rfl, rfl, rfl, rfl⟩

end Server

end Rifts
