import Rifts.Connection.Resumption

/-! Handshakes that should come to nothing: a resume that was decided against, and one
whose greeting does not go out. -/
namespace Rifts

variable {J : SerdeJson} {cfg : ServerConfig} {env : Env} {adm : Admission}
  {st : SessionStore} {r : Nat} {sid : String} {resume : Option ResumeDecision}

/-- The handshake fails, writes nothing, and does not make the session Ready or Active. -/
structure TurnedAway (st : SessionStore) (r : Nat)
    (result : SessionStore × Wire × Except RiftError Nat) : Prop where
  error : ∃ e, result.2.2 = .error e
  silent : result.2.1.sent = []
  kept : (result.1.heap r).state = .ready ∨ (result.1.heap r).state = .active →
    (st.heap r).state = (result.1.heap r).state

/-- A handshake that gets as far as its greeting leaves the session Ready, or Active
when the greeting goes out. -/
theorem state_greet (J : SerdeJson) (cfg : ServerConfig) (env : Env) (adm : Admission)
    (st : SessionStore) (r : Nat) (resume : Option ResumeDecision) :
    (∃ e, (greet J cfg env adm st r resume).2.2 = .error e) ∧
        ((greet J cfg env adm st r resume).1.heap r).state = .ready ∨
      (greet J cfg env adm st r resume).2.2 = .ok r ∧
        ((greet J cfg env adm st r resume).1.heap r).state = .active := by
  rcases greet_cases J cfg env adm st r resume with ⟨w, e, h⟩ | ⟨w, h⟩
  · rw [h]
    exact .inl ⟨⟨e, rfl⟩, SessionStore.state_setState_self⟩
  · rw [h]
    exact .inr ⟨rfl, SessionStore.state_setState_self⟩

/-- A hello for a session in another epoch, or for one that is Ready or Active. -/
theorem handshake_refused (ha : checkHello J cfg env = .ok adm)
    (hs : adm.hello.sessionId = some sid) (hg : st.get sid = some r)
    (h : adm.hello.epoch.getD 0 ≠ (st.heap r).epoch ∨ (st.heap r).state = .ready ∨
      (st.heap r).state = .active) :
    handshake J cfg env st = (st, {}, .error (.session (.conflict (adm.hello.epoch.getD 0)
      (st.heap r).epoch))) := by
  by_cases he : adm.hello.epoch.getD 0 = (st.heap r).epoch
  · rw [he]
    exact Server.handshake_conflict ha hs hg he (h.resolve_left (not_not_intro he))
  · refine handshake_unbound ha ?_
    simp only [bindSession, hs, hg, epochCheck, if_pos (show ¬ _ = _ from he)]

/-- A resume that is decided against is turned away only where the hello is refused
for its epoch or for the session's state, whatever was decided. Otherwise the session
becomes Ready, and over a working transport the handshake returns it Active. -/
theorem rejected_resume_proceeds (J : SerdeJson) (cfg : ServerConfig) (env : Env)
    (adm : Admission) (st : SessionStore) (sid : String) (r : Nat)
    (ha : checkHello J cfg env = .ok adm) (hs : adm.hello.sessionId = some sid)
    (hg : st.get sid = some r) (hd : decideResume adm.hello.lastOffsets
      (topicOffsets env adm.hello.lastOffsets) = .rejected) :
    (TurnedAway st r (handshake J cfg env st) ↔ adm.hello.epoch.getD 0 ≠ (st.heap r).epoch ∨
      (st.heap r).state = .ready ∨ (st.heap r).state = .active) ∧
    (Resumes adm st r → (∀ n, env.write n = .ok ()) →
      (handshake J cfg env st).2.2 = .ok r ∧
        ((handshake J cfg env st).1.heap r).state = .active) := by
  constructor
  · constructor
    · intro h
      by_contra hpass
      simp only [not_or, not_not] at hpass
      have hr : Resumes adm st r := ⟨⟨sid, hs, hg⟩, hpass.1, hpass.2.2, hpass.2.1⟩
      have hkept := h.kept
      rw [handshake_resumes ha hr, hd] at hkept
      rcases state_greet J cfg env adm (resumedStore env st r) r (some .rejected) with
        ⟨-, hstate⟩ | ⟨-, hstate⟩
      · exact hpass.2.1 ((hkept (.inl hstate)).trans hstate)
      · exact hpass.2.2 ((hkept (.inr hstate)).trans hstate)
    · intro h
      rw [handshake_refused ha hs hg h]
      exact ⟨⟨_, rfl⟩, rfl, fun _ => rfl⟩
  · intro hr hw
    rw [handshake_resumes ha hr]
    rcases state_greet J cfg env adm (resumedStore env st r) r _ with ⟨⟨e, he⟩, -⟩ | h
    · cases he.symm.trans (greet_of_writes hw)
    · exact h

/-- The hello for session "s" of a client that has seen offset 5 of "t". -/
def aheadBody (epoch : UInt64) : Json :=
  helloBody [("session_id", .string "s"), ("epoch", .number (.posInt epoch)),
    ("last_offsets", .object [("t", .number (.posInt 5))])]

/-- That hello at a broker whose head offset is 3 on every topic. -/
def aheadEnv (epoch : UInt64) : Env :=
  { Env.plain (.reading [aheadBody epoch]) (aheadBody epoch) "alice" "unused" with
    evalHead := fun _ => 3 }

set_option maxRecDepth 4000 in
theorem client_ahead_in_other_epoch_is_turned_away :
    decideResume [("t", 5)] (topicOffsets (aheadEnv 7) [("t", 5)]) = .rejected ∧
      TurnedAway Server.drainingStore 0
        (handshake (.reading [aheadBody 7]) {} (aheadEnv 7) Server.drainingStore) := by
  refine ⟨by decide +kernel, ?_⟩
  exact (rejected_resume_proceeds (.reading [aheadBody 7]) {} (aheadEnv 7) _ Server.drainingStore
    "s" 0 rfl rfl rfl (by decide +kernel)).1.mpr (.inl (by decide +kernel))

/-- The client is ahead of the broker and the resume is decided against; all the same
it gets a welcome and a ready frame, and the session is Active. -/
theorem client_ahead_is_welcomed :
    decideResume [("t", 5)] (topicOffsets (aheadEnv 1) [("t", 5)]) = .rejected ∧
      (handshake (.reading [aheadBody 1]) {} (aheadEnv 1) Server.drainingStore).2.2 = .ok 0 ∧
      (handshake (.reading [aheadBody 1]) {} (aheadEnv 1)
        Server.drainingStore).2.1.sent.length = 2 ∧
      ((handshake (.reading [aheadBody 1]) {} (aheadEnv 1) Server.drainingStore).1.heap 0).state =
        .active := by
  refine ⟨?_, ?_, ?_, ?_⟩ <;> decide +kernel

/-- However the greeting of a resumed session fails, it leaves the session Ready and in
an epoch that the client has not been told of unless it got the welcome. Every later
hello for the session is refused as a conflict, in that epoch or another. -/
theorem interrupted_resume_always_conflicts (J : SerdeJson) (cfg : ServerConfig) (env : Env)
    (adm : Admission) (st : SessionStore) (sid : String) (r : Nat)
    (ha : checkHello J cfg env = .ok adm) (hg : st.get sid = some r) (hr : Resumes adm st r)
    (herr : ∃ e, (handshake J cfg env st).2.2 = .error e) :
    ((handshake J cfg env st).1.heap r).state = .ready ∧
    ((handshake J cfg env st).1.heap r).epoch = adm.hello.epoch.getD 0 + 1 ∧
    ((handshake J cfg env st).1.heap r).epoch ≠ adm.hello.epoch.getD 0 ∧
    ∀ env' adm', checkHello J cfg env' = .ok adm' → adm'.hello.sessionId = some sid →
      handshake J cfg env' (handshake J cfg env st).1 = ((handshake J cfg env st).1, {},
        .error (.session (.conflict (adm'.hello.epoch.getD 0)
          ((handshake J cfg env st).1.heap r).epoch))) := by
  have hepoch : ((handshake J cfg env st).1.heap r).epoch = adm.hello.epoch.getD 0 + 1 := by
    rw [(heap_handshake_resumes ha hr).1, hr.epoch]
  have hstate : ((handshake J cfg env st).1.heap r).state = .ready := by
    rw [handshake_resumes ha hr] at herr ⊢
    rcases state_greet J cfg env adm (resumedStore env st r) r _ with ⟨-, h⟩ | ⟨h, -⟩
    · exact h
    · obtain ⟨e, he⟩ := herr
      cases he.symm.trans h
  have hget : (handshake J cfg env st).1.get sid = some r := by
    rw [handshake_resumes ha hr]
    rcases greet_cases J cfg env adm (resumedStore env st r) r (some (decideResume
      adm.hello.lastOffsets (topicOffsets env adm.hello.lastOffsets))) with ⟨w, e, h⟩ | ⟨w, h⟩
    all_goals
      rw [h]
      exact hg
  refine ⟨hstate, hepoch, ?_, ?_⟩
  · rw [hepoch]
    exact fun h => absurd (UInt32.add_eq_left.mp h) (by decide)
  · intro env' adm' ha' hs'
    exact handshake_refused ha' hs' hget (.inr (.inl hstate))

/-- A `serde_json` for the hellos of a client that comes back twice. -/
def lostGreetings : SerdeJson := .reading [resumeBody 1, resumeBody 2]

/-- A resume of session "s" in its first epoch whose `n`-th write fails. -/
def interruptedEnv (n : Nat) : Env :=
  { Env.plain lostGreetings (resumeBody 1) "alice" "unused" with
    write := fun k => if k = n then .error (.system .overloaded) else .ok () }

theorem lost_ready_conflicts :
    (handshake lostGreetings {} (.plain lostGreetings (resumeBody 2) "alice" "unused")
      (handshake lostGreetings {} (interruptedEnv 1) Server.drainingStore).1).2.2 =
        .error (.session (.conflict 2 2)) := by
  have h := interrupted_resume_always_conflicts lostGreetings {} (interruptedEnv 1) _
    Server.drainingStore "s" 0 rfl rfl ⟨⟨"s", rfl, rfl⟩, by decide, by decide, by decide⟩
    ⟨.system .overloaded, by decide⟩
  rw [h.2.2.2 (.plain lostGreetings (resumeBody 2) "alice" "unused") _ rfl rfl]
  rfl

/-- The welcome is lost, or the ready frame after it: the session is Ready in its
second epoch, and both the hello that failed and one in the new epoch are refused. -/
theorem lost_welcome_locks_the_session :
    (handshake lostGreetings {} (interruptedEnv 0) Server.drainingStore).2.2 =
      .error (.system .overloaded) ∧
    (handshake lostGreetings {} (interruptedEnv 0) Server.drainingStore).2.1.sent = [] ∧
    ((handshake lostGreetings {} (interruptedEnv 0) Server.drainingStore).1.heap 0).state =
      .ready ∧
    (handshake lostGreetings {} (.plain lostGreetings (resumeBody 1) "alice" "unused")
      (handshake lostGreetings {} (interruptedEnv 0) Server.drainingStore).1).2.2 =
        .error (.session (.conflict 1 2)) ∧
    (handshake lostGreetings {} (interruptedEnv 1) Server.drainingStore).2.1.sent.length = 1 ∧
    (handshake lostGreetings {} (.plain lostGreetings (resumeBody 2) "alice" "unused")
      (handshake lostGreetings {} (interruptedEnv 1) Server.drainingStore).1).2.2 =
        .error (.session (.conflict 2 2)) := by
  refine ⟨?_, ?_, ?_, ?_, ?_, ?_⟩ <;> decide +kernel

end Rifts
