import Rifts.Connection.Handshake

/-! What a handshake does to the sessions of the store it runs over. -/
namespace Rifts

variable {J : SerdeJson} {cfg : ServerConfig} {env : Env} {adm : Admission}
  {st st' : SessionStore} {r r' : Nat} {sid : String} {resume : Option ResumeDecision}

/-- The session a hello names, when the epoch and state checks let it through. -/
structure Resumes (adm : Admission) (st : SessionStore) (r : Nat) : Prop where
  named : ∃ sid, adm.hello.sessionId = some sid ∧ st.get sid = some r
  epoch : adm.hello.epoch.getD 0 = (st.heap r).epoch
  inactive : (st.heap r).state ≠ .active
  unready : (st.heap r).state ≠ .ready

theorem epochCheck_ok {s : Session} {hello : Hello} (h : hello.epoch.getD 0 = s.epoch) :
    epochCheck s hello = .ok () := by
  simp [epochCheck, h]

theorem stateCheck_ok {s : Session} {hello : Hello} (ha : s.state ≠ .active)
    (hr : s.state ≠ .ready) : stateCheck s hello = .ok () := by
  simp [stateCheck, ha, hr]

/-- The store of a resumed session before its welcome. -/
def resumedStore (env : Env) (st : SessionStore) (r : Nat) : SessionStore :=
  (st.bumpEpoch r).setState r .resuming env.now

/-- The liveness test of `evaluate` reads the state the handshake has just set,
so every session that passes the two checks is resumed. -/
theorem bindSession_resumes (h : Resumes adm st r) :
    bindSession env adm st = (resumedStore env st r, .ok (r, some (decideResume
      adm.hello.lastOffsets (topicOffsets env adm.hello.lastOffsets)))) := by
  obtain ⟨sid, hs, hg⟩ := h.named
  have halive : ((resumedStore env st r).heap r).state ≠ .closed := by
    simp [resumedStore]
  simp only [bindSession, hs, hg, epochCheck_ok h.epoch, stateCheck_ok h.inactive h.unready]
  rw [← resumedStore, evaluate_of_alive halive]

theorem bindSession_cold (h : adm.hello.sessionId = none) : bindSession env adm st =
    (st.insert (.new env.newId adm.auth.clientId env.now), .ok (st.next, none)) := by
  simp [bindSession, h]

/-- A bind either fails and leaves the store alone, creates a session, or resumes one. -/
theorem bindSession_cases (env : Env) (adm : Admission) (st : SessionStore) :
    (∃ e, bindSession env adm st = (st, .error e)) ∨ adm.hello.sessionId = none ∨
      ∃ r, Resumes adm st r := by
  cases hs : adm.hello.sessionId with
  | none => exact .inr (.inl rfl)
  | some sid =>
    cases hg : st.get sid with
    | none => exact .inl ⟨.session (.notFound sid), by simp [bindSession, hs, hg]⟩
    | some r =>
      by_cases he : adm.hello.epoch.getD 0 = (st.heap r).epoch
      · by_cases hst : (st.heap r).state = .active ∨ (st.heap r).state = .ready
        · refine .inl ⟨.session (.conflict (adm.hello.epoch.getD 0) (st.heap r).epoch), ?_⟩
          simp only [bindSession, hs, hg, epochCheck_ok he, stateCheck, if_pos hst]
        · rw [not_or] at hst
          exact .inr (.inr ⟨r, ⟨sid, hs, hg⟩, he, hst.1, hst.2⟩)
      · refine .inl ⟨.session (.conflict (adm.hello.epoch.getD 0) (st.heap r).epoch), ?_⟩
        simp only [bindSession, hs, hg, epochCheck, if_pos (show ¬ _ = _ from he)]

theorem greet_cases (J : SerdeJson) (cfg : ServerConfig) (env : Env) (adm : Admission)
    (st : SessionStore) (r : Nat) (resume : Option ResumeDecision) :
    (∃ w e, greet J cfg env adm st r resume = (st.setState r .ready env.now, w, .error e)) ∨
      ∃ w, greet J cfg env adm st r resume =
        ((st.setState r .ready env.now).setState r .active env.now, w, .ok r) := by
  unfold greet
  dsimp only
  split
  · exact .inl ⟨_, _, rfl⟩
  · split
    · exact .inl ⟨_, _, rfl⟩
    · exact .inr ⟨_, rfl⟩

/-- Only a write can keep a greeting from its end. -/
theorem greet_of_writes (h : ∀ n, env.write n = .ok ()) :
    (greet J cfg env adm st r resume).2.2 = .ok r := by
  simp [greet, Wire.write, h]

/-- A greeting leaves its session Ready or Active and touches no other. -/
theorem heap_greet : ((greet J cfg env adm st r resume).1.heap r).epoch = (st.heap r).epoch ∧
    ((greet J cfg env adm st r resume).1.heap r).clientId = (st.heap r).clientId ∧
    ((greet J cfg env adm st r resume).1.heap r).state ≠ .closed ∧
    ∀ r', r' ≠ r → (greet J cfg env adm st r resume).1.heap r' = st.heap r' := by
  rcases greet_cases J cfg env adm st r resume with ⟨w, e, h⟩ | ⟨w, h⟩
  · simp +contextual [h, SessionStore.heap_setState_of_ne]
  · simp +contextual [h, SessionStore.heap_setState_of_ne]

theorem handshake_rejected {e : RiftError} (h : checkHello J cfg env = .error e) :
    handshake J cfg env st = (st, {}, .error e) := by
  simp [handshake, h]

theorem handshake_unbound {e : RiftError} (h : checkHello J cfg env = .ok adm)
    (hb : bindSession env adm st = (st', .error e)) :
    handshake J cfg env st = (st', {}, .error e) := by
  simp [handshake, h, hb]

theorem handshake_bound (h : checkHello J cfg env = .ok adm)
    (hb : bindSession env adm st = (st', .ok (r, resume))) :
    handshake J cfg env st = greet J cfg env adm st' r resume := by
  simp [handshake, h, hb]

theorem handshake_resumes (h : checkHello J cfg env = .ok adm) (hr : Resumes adm st r) :
    handshake J cfg env st = greet J cfg env adm (resumedStore env st r) r (some (decideResume
      adm.hello.lastOffsets (topicOffsets env adm.hello.lastOffsets))) :=
  handshake_bound h (bindSession_resumes hr)

theorem heap_resumedStore_of_ne (h : r' ≠ r) : (resumedStore env st r).heap r' = st.heap r' := by
  rw [resumedStore, SessionStore.heap_setState_of_ne h, SessionStore.heap_bumpEpoch_of_ne h]

/-- A handshake changes no session but the one it creates or resumes. -/
theorem heap_handshake (hlt : r < st.next)
    (h : ∀ adm, checkHello J cfg env = .ok adm → ¬ Resumes adm st r) :
    (handshake J cfg env st).1.heap r = st.heap r := by
  cases ha : checkHello J cfg env with
  | error e => rw [handshake_rejected ha]
  | ok adm =>
    rcases bindSession_cases env adm st with ⟨e, hb⟩ | hs | ⟨q, hq⟩
    · rw [handshake_unbound ha hb]
    · rw [handshake_bound ha (bindSession_cold hs), heap_greet.2.2.2 r (by omega),
        SessionStore.heap_insert_of_ne (by omega)]
    · have hne : r ≠ q := fun hrq => h adm ha (hrq ▸ hq)
      rw [handshake_resumes ha hq, heap_greet.2.2.2 r hne, heap_resumedStore_of_ne hne]

theorem next_handshake : st.next ≤ (handshake J cfg env st).1.next := by
  have hg : ∀ {adm st r resume}, (greet J cfg env adm st r resume).1.next = st.next := by
    intro adm st r resume
    rcases greet_cases J cfg env adm st r resume with ⟨w, e, h⟩ | ⟨w, h⟩ <;> rw [h] <;> rfl
  cases ha : checkHello J cfg env with
  | error e => rw [handshake_rejected ha]
  | ok adm =>
    rcases bindSession_cases env adm st with ⟨e, hb⟩ | hs | ⟨q, hq⟩
    · rw [handshake_unbound ha hb]
    · rw [handshake_bound ha (bindSession_cold hs), hg]
      exact Nat.le_succ _
    · rw [handshake_resumes ha hq, hg]
      exact Nat.le_refl _

/-- A resumed session leaves whatever state it was in and starts a new epoch. -/
theorem heap_handshake_resumes (h : checkHello J cfg env = .ok adm) (hr : Resumes adm st r) :
    ((handshake J cfg env st).1.heap r).epoch = (st.heap r).epoch + 1 ∧
      ((handshake J cfg env st).1.heap r).state ≠ .closed := by
  rw [handshake_resumes h hr, heap_greet.1]
  exact ⟨by simp [resumedStore, Session.bumpEpoch],
    heap_greet.2.2.1⟩

/-- A handshake that succeeds returns the session it created for its own client,
or the one it resumed, whoever that belongs to. -/
theorem handshake_ok (h : (handshake J cfg env st).2.2 = .ok r) :
    ∃ adm, checkHello J cfg env = .ok adm ∧
      (adm.hello.sessionId = none ∧
          ((handshake J cfg env st).1.heap r).clientId = adm.auth.clientId ∨
        Resumes adm st r ∧
          ((handshake J cfg env st).1.heap r).clientId = (st.heap r).clientId) := by
  have hret : ∀ {adm st q resume}, (greet J cfg env adm st q resume).2.2 = .ok r → q = r := by
    intro adm st q resume hg
    rcases greet_cases J cfg env adm st q resume with ⟨w, e, he⟩ | ⟨w, he⟩
    · simp [he] at hg
    · simpa [he] using hg
  cases ha : checkHello J cfg env with
  | error e => simp [handshake_rejected ha] at h
  | ok adm =>
    refine ⟨adm, rfl, ?_⟩
    rcases bindSession_cases env adm st with ⟨e, hb⟩ | hs | ⟨q, hq⟩
    · simp [handshake_unbound ha hb] at h
    · rw [handshake_bound ha (bindSession_cold hs)] at h ⊢
      obtain rfl := hret h
      exact .inl ⟨hs, by rw [heap_greet.2.1]; simp [Session.new]⟩
    · rw [handshake_resumes ha hq] at h ⊢
      obtain rfl := hret h
      refine .inr ⟨hq, ?_⟩
      rw [heap_greet.2.1, resumedStore, SessionStore.clientId_setState,
        SessionStore.clientId_bumpEpoch]

/-- Handshakes over one store, one after the other. -/
def handshakes (J : SerdeJson) (cfg : ServerConfig) (st : SessionStore) (env : Env) :
    Option SessionStore := some (handshake J cfg env st).1

/-- An admitted hello that carries the session's id and its current epoch. -/
def Reopens (J : SerdeJson) (cfg : ServerConfig) (r : Nat) (st : SessionStore) (env : Env) : Prop :=
  ∃ adm sid, checkHello J cfg env = .ok adm ∧ adm.hello.sessionId = some sid ∧ st.get sid = some r ∧
    adm.hello.epoch.getD 0 = (st.heap r).epoch

/-- The session object is still Closed, in the epoch it was closed in. -/
structure KeptClosed (r : Nat) (epoch : UInt32) (st : SessionStore) : Prop where
  allocated : r < st.next
  closed : (st.heap r).state = .closed
  epoch : (st.heap r).epoch = epoch

theorem resumes_of_closed (hc : (st.heap r).state = .closed)
    (hs : adm.hello.sessionId = some sid) (hg : st.get sid = some r)
    (he : adm.hello.epoch.getD 0 = (st.heap r).epoch) : Resumes adm st r :=
  ⟨⟨sid, hs, hg⟩, he, by simp [hc], by simp [hc]⟩

/-- A Closed session stays Closed through exactly the handshakes that do not
name it in its current epoch. -/
theorem keptClosed_step {epoch : UInt32} (h : handshakes J cfg st env = some st')
    (hk : KeptClosed r epoch st) : KeptClosed r epoch st' ↔ ¬ Reopens J cfg r st env := by
  obtain rfl : (handshake J cfg env st).1 = st' := Option.some.inj h
  constructor
  · rintro hk' ⟨adm, sid, ha, hs, hg, he⟩
    exact (heap_handshake_resumes ha (resumes_of_closed hk.closed hs hg he)).2 hk'.closed
  · intro hn
    have hheap := heap_handshake hk.allocated fun adm ha hr => by
      obtain ⟨sid, hs, hg⟩ := hr.named
      exact hn ⟨adm, sid, ha, hs, hg, hr.epoch⟩
    refine ⟨Nat.lt_of_lt_of_le hk.allocated next_handshake, ?_, ?_⟩
    · rw [hheap, hk.closed]
    · rw [hheap, hk.epoch]

theorem handshake_error_of_unmatched (hs : ∀ adm, checkHello J cfg env = .ok adm →
      adm.hello.sessionId = some sid) (hg : st.get sid = some r)
    (hn : ∀ adm, checkHello J cfg env = .ok adm → adm.hello.epoch.getD 0 ≠ (st.heap r).epoch) :
    ∃ e, handshake J cfg env st = (st, {}, .error e) := by
  cases ha : checkHello J cfg env with
  | error e => exact ⟨e, handshake_rejected ha⟩
  | ok adm =>
    have hsid := hs adm ha
    rcases bindSession_cases env adm st with ⟨e, hb⟩ | hcold | ⟨q, hq⟩
    · exact ⟨e, handshake_unbound ha hb⟩
    · simp [hcold] at hsid
    · obtain ⟨sid', hs', hg'⟩ := hq.named
      obtain rfl : sid = sid' := Option.some.inj (hsid.symm.trans hs')
      obtain rfl : r = q := Option.some.inj (hg.symm.trans hg')
      exact absurd hq.epoch (hn adm ha)

/-- A hello that names a Closed session is refused, and the session left as it
is, exactly when it is not admitted or its epoch is not the session's; over
several handshakes the session stays Closed exactly while none of them names it
in its current epoch. -/
theorem closed_is_terminal (J : SerdeJson) (cfg : ServerConfig) (st : SessionStore) (sid : String)
    (r : Nat) (hg : st.get sid = some r) (hc : (st.heap r).state = .closed) :
    (∀ env, (∀ adm, checkHello J cfg env = .ok adm → adm.hello.sessionId = some sid) →
      (((∃ e, (handshake J cfg env st).2.2 = .error e ∧ ∀ adm, checkHello J cfg env = .ok adm →
            adm.hello.epoch.getD 0 = (st.heap r).epoch → e = .session .expired) ∧
          ((handshake J cfg env st).1.heap r).state = .closed ∧
          ((handshake J cfg env st).1.heap r).epoch = (st.heap r).epoch) ↔
        ∀ adm, checkHello J cfg env = .ok adm → adm.hello.epoch.getD 0 ≠ (st.heap r).epoch)) ∧
    ∀ envs, Transition.Throughout (handshakes J cfg) (KeptClosed r (st.heap r).epoch) st envs ↔
      Transition.Guarded (handshakes J cfg) (fun st env => ¬ Reopens J cfg r st env) st envs := by
  refine ⟨fun env hs => ⟨?_, ?_⟩, fun envs => ?_⟩
  · rintro ⟨-, hclosed, -⟩ adm ha he
    exact (heap_handshake_resumes ha (resumes_of_closed hc (hs adm ha) hg he)).2 hclosed
  · intro hn
    obtain ⟨e, he⟩ := handshake_error_of_unmatched hs hg hn
    rw [he]
    exact ⟨⟨e, rfl, fun adm ha hm => absurd hm (hn adm ha)⟩, hc, rfl⟩
  · exact Transition.throughout_iff_guarded (fun _ _ _ h hk => keptClosed_step h hk)
      ⟨SessionStore.get_lt hg, hc, rfl⟩

/-- The hello of a client that comes back to session "s" in an epoch it names. -/
def resumeBody (epoch : UInt64) : Json :=
  helloBody [("session_id", .string "s"), ("epoch", .number (.posInt epoch))]

def resumeEnv (epoch : UInt64) : Env :=
  .plain (.reading [resumeBody epoch]) (resumeBody epoch) "alice" "unused"

/-- A store whose only session was closed in its first epoch. -/
def closedStore : SessionStore :=
  SessionStore.new.insert { Session.new "s" "alice" 0 with state := .closed }

theorem closed_kept_in_other_epoch :
    ((handshake (.reading [resumeBody 7]) {} (resumeEnv 7) closedStore).1.heap 0).state =
      .closed := by
  have h := (closed_is_terminal (.reading [resumeBody 7]) {} closedStore "s" 0 rfl rfl).1
    (resumeEnv 7) fun adm ha => by cases ha; rfl
  refine (h.mpr fun adm ha => ?_).2.1
  cases ha
  decide

/-- With the epoch right, the handshake on a Closed session succeeds and leaves
it Active, one epoch on. -/
theorem closed_session_is_resumed :
    (handshake (.reading [resumeBody 1]) {} (resumeEnv 1) closedStore).2.2 = .ok 0 ∧
      (closedStore.heap 0).state = .closed ∧
      ((handshake (.reading [resumeBody 1]) {} (resumeEnv 1) closedStore).1.heap 0).state =
        .active ∧
      ((handshake (.reading [resumeBody 1]) {} (resumeEnv 1) closedStore).1.heap 0).epoch = 2 := by
  refine ⟨?_, rfl, ?_, ?_⟩ <;> decide

end Rifts
