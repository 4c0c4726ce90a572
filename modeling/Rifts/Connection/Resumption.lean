import Rifts.Connection.Server

/-! What a connection leaves behind on its session, and whose session a resumed
connection ends up with. -/
namespace Rifts

namespace Server

variable {J : SerdeJson} {cfg : ServerConfig} {srv srv' : Server} {a : Action} {acts : List Action}
  {r : Nat}

/-- Some connection has set the session Resuming and will set it Ready. -/
def Resuming (srv : Server) (r : Nat) : Prop :=
  ∃ i c, srv.conns i = some c ∧ c.phase.session = some r ∧ c.phase.resuming

/-- A session some connection has greeted stays Ready or Active, except while
another connection is resuming it. -/
def Occupied (srv : Server) : Prop :=
  ∀ i c r, srv.conns i = some c → c.phase.session = some r → c.phase.greeted →
    (srv.store.heap r).state = .ready ∨ (srv.store.heap r).state = .active ∨ Resuming srv r

theorem resuming_step (h : step J cfg srv a = some srv') (hu : Unclosed srv)
    (hr : Resuming srv r) : Resuming srv' r ∨ (srv'.store.heap r).state = .ready := by
  obtain ⟨i, c, hc, hs, hp⟩ := hr
  rcases step_cases h with ⟨j, env, -, hj, rfl⟩ | ⟨j, d, -, hd, rfl⟩ |
    ⟨j, env, adm, q, now, -, -, rfl⟩ | ⟨j, env, adm, q, res, -, hd, rfl⟩ | ⟨sid, -, rfl⟩
  · refine .inl ⟨i, c, ?_, hs, hp⟩
    have hne : i ≠ j := by
      rintro rfl
      simp [hc] at hj
    simpa [hne] using hc
  · by_cases hij : i = j
    · subst hij
      obtain rfl : c = d := Option.some.inj (hc.symm.trans hd)
      rcases Phase.resuming_next J cfg c.env hp hs (hu r) with ⟨hp', hs'⟩ | hst
      · exact .inl ⟨i, ⟨_, _⟩, Function.update_self .., hs', hp'⟩
      · exact .inr hst
    · exact .inl ⟨i, c, by simpa [hij] using hc, hs, hp⟩
  · exact .inl ⟨i, c, hc, hs, hp⟩
  · have hne : i ≠ j := by
      rintro rfl
      obtain rfl : c = _ := Option.some.inj (hc.symm.trans hd)
      cases hp
    exact .inl ⟨i, c, by simpa [hne] using hc, hs, hp⟩
  · exact .inl ⟨i, c, hc, hs, hp⟩

/-- What was true of a session's state before a step is true after it. -/
theorem occupied_session_step (h : step J cfg srv a = some srv') (hu : Unclosed srv)
    (hlt : r < srv.store.next)
    (ho : (srv.store.heap r).state = .ready ∨ (srv.store.heap r).state = .active ∨
      Resuming srv r) :
    (srv'.store.heap r).state = .ready ∨ (srv'.store.heap r).state = .active ∨
      Resuming srv' r := by
  have hkeep : (srv'.store.heap r).state = (srv.store.heap r).state →
      (srv'.store.heap r).state = .ready ∨ (srv'.store.heap r).state = .active ∨
        Resuming srv' r := by
    intro he
    rw [he]
    rcases ho with hs | hs | hres
    · exact .inl hs
    · exact .inr (.inl hs)
    · rcases resuming_step h hu hres with hres' | hs
      · exact .inr (.inr hres')
      · exact .inl (he ▸ hs)
  rcases step_cases h with ⟨i, env, -, -, rfl⟩ | ⟨i, c, -, hc, rfl⟩ |
    ⟨i, env, adm, q, now, -, -, rfl⟩ | ⟨i, env, adm, q, res, -, hc, rfl⟩ | ⟨sid, -, rfl⟩
  · exact hkeep rfl
  · rcases Phase.state_next J cfg c.env c.phase hlt with he | ⟨-, hs, hp⟩ | hs | hs
    · exact hkeep he
    · exact .inr (.inr ⟨i, ⟨_, _⟩, Function.update_self .., hs, hp⟩)
    · exact .inl hs
    · exact .inr (.inl hs)
  · exact hkeep SessionStore.state_touch
  · exact hkeep rfl
  · exact hkeep rfl

theorem occupied_step (h : step J cfg srv a = some srv') (hu : Unclosed srv)
    (ha : Allocated srv) (ho : Occupied srv) : Occupied srv' := by
  intro j d r hd hs hg
  rcases conn_step h hd with hold | hp | ⟨c, -, hc, hp, hst⟩ | ⟨env, adm, q, res, hc, hp⟩
  · exact occupied_session_step h hu (ha j d r hold hs) (ho j d r hold hs hg)
  · simp [hp, Phase.greeted] at hg
  · rw [hp] at hs hg
    rcases Phase.greeted_next hg hs with ⟨hg', hs'⟩ | hready
    · exact occupied_session_step h hu (ha j c r hc hs') (ho j c r hc hs' hg')
    · rw [hst]
      exact .inl hready
  · rw [hp] at hs
    exact occupied_session_step h hu (ha j _ r hc hs) (ho j _ r hc hs rfl)

theorem occupied_run (h : Transition.run (step J cfg) initial acts = some srv) :
    Occupied srv := by
  have hinv : Unclosed srv ∧ Allocated srv ∧ Occupied srv := by
    refine Transition.run_invariant (P := fun s => Unclosed s ∧ Allocated s ∧ Occupied s)
      ?_ h ⟨unclosed_initial, allocated_initial, ?_⟩
    · rintro s a t hs ⟨hu, ha, ho⟩
      exact ⟨unclosed_step hs hu, allocated_step hs ha, occupied_step hs hu ha ho⟩
    · intro i c r hc
      cases hc
  exact hinv.2.2

theorem stateCheck_conflict {s : Session} {hello : Hello}
    (h : s.state = .ready ∨ s.state = .active) :
    stateCheck s hello = .error (.session (.conflict (hello.epoch.getD 0) s.epoch)) := by
  simp [stateCheck, h.symm]

/-- A handshake in the right epoch on a session that is Ready or Active. -/
theorem handshake_conflict {env : Env} {adm : Admission} {st : SessionStore} {sid : String}
    (ha : checkHello J cfg env = .ok adm) (hs : adm.hello.sessionId = some sid)
    (hg : st.get sid = some r) (he : adm.hello.epoch.getD 0 = (st.heap r).epoch)
    (h : (st.heap r).state = .ready ∨ (st.heap r).state = .active) :
    handshake J cfg env st = (st, {}, .error (.session (.conflict (st.heap r).epoch
      (st.heap r).epoch))) := by
  refine handshake_unbound ha ?_
  simp only [bindSession, hs, hg, epochCheck_ok he, stateCheck_conflict h, he]

/-- Whatever a run did, a session whose connection has ended and that no other
connection uses cannot be resumed: a hello with its id and current epoch is
always refused as a conflict. -/
theorem ended_session_always_conflicts (J : SerdeJson) (cfg : ServerConfig) (acts : List Action)
    (srv : Server) (hrun : Transition.run (step J cfg) initial acts = some srv)
    (i : Nat) (c : Conn) (adm : Admission) (r : Nat) (res : Except RiftError Unit)
    (hc : srv.conns i = some c) (hend : c.phase = .ended adm r res)
    (hfree : ∀ j d, srv.conns j = some d → ¬ d.phase.uses r)
    (sid : String) (hget : srv.store.get sid = some r)
    (env : Env) (adm' : Admission) (hello : checkHello J cfg env = .ok adm')
    (hsid : adm'.hello.sessionId = some sid)
    (hepoch : adm'.hello.epoch.getD 0 = (srv.store.heap r).epoch) :
    handshake J cfg env srv.store = (srv.store, {}, .error (.session (.conflict
      (srv.store.heap r).epoch (srv.store.heap r).epoch))) := by
  have hocc := occupied_run hrun i c r hc (by simp [hend, Phase.session])
    (by simp [hend, Phase.greeted])
  rcases hocc with hs | hs | ⟨j, d, hd, hds, hdr⟩
  · exact handshake_conflict hello hsid hget hepoch (.inl hs)
  · exact handshake_conflict hello hsid hget hepoch (.inr hs)
  · refine absurd ⟨hds, ?_⟩ (hfree j d hd)
    rintro adm res he
    simp [he, Phase.resuming] at hdr

/-- A `serde_json` for the two hellos of a client that connects and comes back. -/
def twoHellos : SerdeJson := .reading [helloBody [], resumeBody 1]

/-- One connection on a new session "s", from its hello to the end of its reader. -/
def oneConnection (res : Except RiftError Unit) : List Action :=
  [.connect 0 (.plain twoHellos (helloBody []) "alice" "s"), .advance 0, .advance 0, .advance 0,
    .advance 0, .advance 0, .advance 0, .frame 0 7, .finish 0 res]

theorem idle_session_conflicts :
    ∃ srv, Transition.run (step twoHellos {}) initial (oneConnection (.error (.session
        .idleTimeout))) = some srv ∧
      (handshake twoHellos {} (.plain twoHellos (resumeBody 1) "alice" "t") srv.store).2.2 =
        .error (.session (.conflict 1 1)) := by
  refine ⟨_, rfl, ?_⟩
  rw [ended_session_always_conflicts twoHellos {} (oneConnection (.error (.session .idleTimeout)))
    _ rfl 0 _ _ 0 _ rfl rfl ?_ "s" rfl (.plain twoHellos (resumeBody 1) "alice" "t") _ rfl rfl rfl]
  · rfl
  · intro j d hd
    by_cases hj : j = 0
    · subst hj
      cases hd
      exact fun h => h.2 _ _ rfl
    · simp [initial, setPhase, hj] at hd

/-- The peer of an established session closes; nobody is connected, and the
client that returns with the right epoch is refused. -/
theorem returning_client_is_refused :
    ∃ srv, Transition.run (step twoHellos {}) initial (oneConnection (.ok ())) = some srv ∧
      (∃ c adm, srv.conns 0 = some c ∧ c.phase = .ended adm 0 (.ok ())) ∧
      srv.store.get "s" = some 0 ∧ (srv.store.heap 0).epoch = 1 ∧
      (handshake twoHellos {} (.plain twoHellos (resumeBody 1) "alice" "t") srv.store).2.2 =
        .error (.session (.conflict 1 1)) := by
  refine ⟨_, rfl, ⟨_, _, rfl, rfl⟩, rfl, rfl, ?_⟩
  decide

/-- A connection whose checks let it through to a stored session finds it to be one
of the client it was authenticated as. -/
def ownResume (srv : Server) : Action → Bool
  | .advance i =>
    match srv.conns i with
    | some ⟨_, .bump adm r⟩ => (srv.store.heap r).clientId == adm.auth.clientId
    | _ => true
  | _ => true

/-- Every connection that has created or resumed a session is authenticated as its
owner. -/
def Owned (srv : Server) : Prop :=
  ∀ i c adm r, srv.conns i = some c → c.phase.bound = some (adm, r) →
    (srv.store.heap r).clientId = adm.auth.clientId

theorem owned_bump {i : Nat} {c : Conn} {adm : Admission} (hok : ownResume srv (.advance i))
    (hc : srv.conns i = some c) (hp : c.phase = .bump adm r) :
    (srv.store.heap r).clientId = adm.auth.clientId := by
  obtain ⟨env, p⟩ := c
  obtain rfl : p = .bump adm r := hp
  simpa [ownResume, hc] using hok

theorem owned_step (h : step J cfg srv a = some srv') (hok : ownResume srv a)
    (ha : Allocated srv) (ho : Owned srv) : Owned srv' := by
  intro j d adm r hd hb
  rcases conn_step h hd with hold | hp | ⟨c, rfl, hc, hp, hst⟩ | ⟨env, adm', q, res, hc, hp⟩
  · rw [clientId_step h (ha j d r hold (Phase.session_of_bound hb))]
    exact ho j d adm r hold hb
  · simp [hp, Phase.bound] at hb
  · rw [hp] at hb
    rcases Phase.bound_next hb with hb' | hbump | ⟨-, rfl, hn⟩
    · rw [clientId_step h (ha j c r hc (Phase.session_of_bound hb'))]
      exact ho j c adm r hc hb'
    · have hs : c.phase.session = some r := by
        rw [hbump]
        rfl
      rw [clientId_step h (ha j c r hc hs)]
      exact owned_bump hok hc hbump
    · rw [hst, hn]
      simp [Session.new]
  · rw [hp] at hb
    have hs : (Conn.mk env (.active adm' q)).phase.session = some r := Phase.session_of_bound hb
    rw [clientId_step h (ha j _ r hc hs)]
    exact ho j _ adm r hc hb

theorem owned_run {st : SessionStore}
    (hg : Transition.Guarded (step J cfg) (fun s a => ownResume s a) ⟨st, fun _ => none⟩ acts)
    (h : Transition.run (step J cfg) ⟨st, fun _ => none⟩ acts = some srv) : Owned srv := by
  refine (Transition.run_invariant_of_guarded (P := fun s => Allocated s ∧ Owned s)
    ?_ hg h ⟨?_, ?_⟩).2
  · rintro s a t hs hok ⟨ha, ho⟩
    exact ⟨allocated_step hs ha, owned_step hs hok ha ho⟩
  · intro i c r hc
    cases hc
  · intro i c adm r hc
    cases hc

/-- The handshake returns only sessions of the client it authenticated. -/
def ReturnsOwn (J : SerdeJson) (cfg : ServerConfig) (st : SessionStore) (env : Env) : Prop :=
  ∀ r, (handshake J cfg env st).2.2 = .ok r → ∃ adm, checkHello J cfg env = .ok adm ∧
    ((handshake J cfg env st).1.heap r).clientId = adm.auth.clientId

/-- The stored session that the hello would resume belongs to the client it comes from. -/
def OwnHello (J : SerdeJson) (cfg : ServerConfig) (st : SessionStore) (env : Env) : Prop :=
  ∀ adm r, checkHello J cfg env = .ok adm → Resumes adm st r →
    (st.heap r).clientId = adm.auth.clientId

theorem returnsOwn_of_ownHello {st : SessionStore} {env : Env} (h : OwnHello J cfg st env) :
    ReturnsOwn J cfg st env := by
  intro r hr
  obtain ⟨adm, hadm, ⟨-, hid⟩ | ⟨hres, hkept⟩⟩ := handshake_ok hr
  · exact ⟨adm, hadm, hid⟩
  · exact ⟨adm, hadm, hkept.trans (h adm r hadm hres)⟩

theorem ownHello_of_returnsOwn {st : SessionStore} {env : Env} (hw : ∀ n, env.write n = .ok ())
    (h : ReturnsOwn J cfg st env) : OwnHello J cfg st env := by
  intro adm r hadm hres
  have hr : (handshake J cfg env st).2.2 = .ok r := by
    rw [handshake_resumes hadm hres]
    exact greet_of_writes hw
  obtain ⟨adm₁, hadm₁, hid⟩ := h r hr
  obtain rfl : adm = adm₁ := Except.ok.inj (hadm.symm.trans hadm₁)
  obtain ⟨adm₂, hadm₂, ⟨hcold, -⟩ | ⟨-, hkept⟩⟩ := handshake_ok hr
  · obtain ⟨sid, hs, -⟩ := hres.named
    obtain rfl : adm = adm₂ := Except.ok.inj (hadm.symm.trans hadm₂)
    rw [hs] at hcold
    cases hcold
  · exact hkept.symm.trans hid

/-- A handshake returns a session of the client it authenticated when the session
it resumes, if any, belongs to that client, and over a transport that takes every
write only then. Connections that resume only their own sessions end up with
their own sessions, however their handshakes interleave. -/
theorem session_ownership (J : SerdeJson) (cfg : ServerConfig) (st : SessionStore) :
    (∀ env, OwnHello J cfg st env → ReturnsOwn J cfg st env) ∧
    (∀ env, (∀ n, env.write n = .ok ()) →
      (ReturnsOwn J cfg st env ↔ OwnHello J cfg st env)) ∧
    ∀ acts srv, Transition.run (step J cfg) ⟨st, fun _ => none⟩ acts = some srv →
      Transition.Guarded (step J cfg) (fun s a => ownResume s a) ⟨st, fun _ => none⟩ acts →
      ∀ i c adm r, srv.conns i = some c → c.phase = .active adm r →
        (srv.store.heap r).clientId = adm.auth.clientId := by
  refine ⟨fun env h => returnsOwn_of_ownHello h, fun env hw => ?_, ?_⟩
  · exact ⟨ownHello_of_returnsOwn hw, returnsOwn_of_ownHello⟩
  · intro acts srv h hg i c adm r hc hp
    refine owned_run hg h i c adm r hc ?_
    rw [hp]
    rfl

/-- The hello of `clientId` for session "s", in its first epoch. -/
def claimSession (i : Nat) (clientId : String) : Action :=
  .connect i (.plain twoHellos (resumeBody 1) clientId "t")

/-- Alice's session while she is away, in a state that lets her back in. -/
def drainingStore : SessionStore :=
  SessionStore.new.insert { Session.new "s" "alice" 0 with state := .draining }

def aliceReturns : List Action := claimSession 0 "alice" :: List.replicate 11 (.advance 0)

theorem alice_resumes_her_session :
    ∃ srv, Transition.run (step twoHellos {}) ⟨drainingStore, fun _ => none⟩ aliceReturns =
        some srv ∧
      ∃ c adm, srv.conns 0 = some c ∧ c.phase = .active adm 0 ∧
        (srv.store.heap 0).clientId = adm.auth.clientId := by
  refine ⟨_, rfl, _, _, rfl, rfl, ?_⟩
  exact (session_ownership twoHellos {} drainingStore).2.2 aliceReturns _ rfl (by decide) 0 _ _ 0
    rfl rfl

/-- Bob completes a handshake on Alice's session: one that is Draining, or, in a
fresh server, one whose creation has not reached Ready yet. -/
theorem bob_gets_alices_session :
    ((handshake twoHellos {} (.plain twoHellos (resumeBody 1) "bob" "t") drainingStore).2.2 =
        .ok 0 ∧
      ((handshake twoHellos {} (.plain twoHellos (resumeBody 1) "bob" "t") drainingStore).1.heap
        0).clientId = "alice") ∧
    ∃ srv, Transition.run (step twoHellos {}) initial
        ([.connect 0 (.plain twoHellos (helloBody []) "alice" "s"), .advance 0, .advance 0,
          claimSession 1 "bob"] ++ List.replicate 11 (.advance 1)) = some srv ∧
      ∃ c adm, srv.conns 1 = some c ∧ c.phase = .active adm 0 ∧ adm.auth.clientId = "bob" ∧
        (srv.store.heap 0).clientId = "alice" := by
  refine ⟨⟨by decide, by decide⟩, _, rfl, _, _, rfl, rfl, rfl, rfl⟩

end Server

end Rifts
