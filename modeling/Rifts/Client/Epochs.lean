import Rifts.Client.HelloWire
import Rifts.Connection.Aftermath

/-! The epoch in a client's hellos, and what the server compares it with. -/
namespace Rifts

namespace RiftClient

open Transition ClientPhase

/-- Every hello for a session of which the client has had a Ready carries the epoch of
the last one. -/
def EpochsFollow (p : Tasks) : Prop := ∀ h ∈ p.shared.hellos, ∀ e, h.ready = some e → h.epoch = e

/-- A hello for a session of which the client has had a Ready goes out only when
`try_reconnect` has made no attempt since. -/
def unbumped (c : RiftClient) (u : ClientPhase) (input : ClientInput) : Prop :=
  match u with
  | dialing | redialing _ => input.opened = true → c.readyEpoch = none ∨ c.bumps % 2 ^ 32 = 0
  | _ => True

instance (c : RiftClient) (u : ClientPhase) (input : ClientInput) :
    Decidable (unbumped c u input) :=
  match u with
  | dialing | redialing _ => inferInstanceAs (Decidable
      (input.opened = true → c.readyEpoch = none ∨ c.bumps % 2 ^ 32 = 0))
  | connecting | greeting | failed _ | waiting _ | woken | looping _ | sleeping _ | regreeting _
  | installing .. | closing | emptying | reading _ | done => .isTrue trivial

/-- The epoch of the configuration is that of the last Ready, counted up by the attempts
made since. -/
def Stamped (c : RiftClient) : Prop :=
  ∀ e, c.readyEpoch = some e → c.config.epoch = e + UInt32.ofNat c.bumps

variable {c c' : RiftClient} {u u' : ClientPhase} {input : ClientInput} {p p' : Tasks}

theorem readyEpoch_establish (c : RiftClient) (sessionId : String) (epoch : UInt32) :
    (c.establish sessionId epoch).readyEpoch = some epoch := by
  simp [establish, readyEpoch, lastReady, List.filter_append]

theorem stamped_new (cfg : RiftClientConfig) : Stamped (.new cfg) := by
  intro e he
  obtain ⟨sessionId, -, hready⟩ := Option.bind_eq_some_iff.mp he
  cases hready

theorem stamped_establish (c : RiftClient) (sessionId : String) (epoch : UInt32) :
    Stamped (c.establish sessionId epoch) := by
  intro e he
  rw [readyEpoch_establish] at he
  cases he
  exact (UInt32.add_zero epoch).symm

theorem Stamped.bumpEpoch (h : Stamped c) : Stamped c.bumpEpoch := by
  intro e he
  have hepoch : c.config.epoch = e + UInt32.ofNat c.bumps := h e he
  simp only [RiftClient.bumpEpoch, hepoch, UInt32.ofNat_add, UInt32.add_assoc]
  rfl

theorem stamped_next (hn : next c u input = some (c', u')) (h : Stamped c) : Stamped c' := by
  cases moves_of_next hn with
  | greet sessionId epoch => exact stamped_establish c sessionId epoch
  | regreet k sessionId epoch => exact stamped_establish c sessionId epoch
  | bump k => exact h.bumpEpoch
  | _ => exact h

theorem Stamped.epoch_eq_iff (h : Stamped c) {e : UInt32} (he : c.readyEpoch = some e) :
    c.config.epoch = e ↔ c.bumps % 2 ^ 32 = 0 := by
  rw [h e he, UInt32.add_eq_left, ← UInt32.toNat_inj, UInt32.toNat_ofNat']
  rfl

/-- Whether the next hello is right. -/
theorem follow_sendHello_iff (h : Stamped c)
    (hf : ∀ x ∈ c.hellos, ∀ e, x.ready = some e → x.epoch = e) :
    (∀ x ∈ c.sendHello.hellos, ∀ e, x.ready = some e → x.epoch = e) ↔
      c.readyEpoch = none ∨ c.bumps % 2 ^ 32 = 0 := by
  simp only [sendHello, List.forall_mem_append, List.forall_mem_singleton]
  rw [and_iff_right hf]
  cases hr : c.readyEpoch with
  | none => simp
  | some e => simp [h.epoch_eq_iff hr]

theorem follow_next (hn : next c u input = some (c', u')) (h : Stamped c)
    (hf : ∀ x ∈ c.hellos, ∀ e, x.ready = some e → x.epoch = e) :
    (∀ x ∈ c'.hellos, ∀ e, x.ready = some e → x.epoch = e) ↔ unbumped c u input := by
  cases moves_of_next hn with
  | dial hopened | redial k hopened =>
    rw [follow_sendHello_iff h hf, unbumped, hopened]
    simp
  | dialFailed hopened | redialFailed k hopened =>
    exact iff_of_true hf fun h => absurd h (by simp [hopened])
  | _ => exact iff_of_true hf trivial

theorem stamped_step {a : Act} (h : step p a = some p') (hp : Stamped p.shared) :
    Stamped p'.shared :=
  Pool.invariant_step_of_forall (I := fun p => Stamped p.shared) (fun _ _ _ hs => hs)
    (fun _ _ _ _ _ _ _ hn hs => stamped_next hn hs) h hp

theorem epochsFollow_iff_guarded (cfg : RiftClientConfig) (acts : List Act) :
    Throughout step EpochsFollow ⟨.new cfg, []⟩ acts ↔
      Guarded step (Pool.Allows unbumped) ⟨.new cfg, []⟩ acts := by
  refine throughout_iff_guarded_of_invariant (Q := fun p => Stamped p.shared)
    (fun _ _ _ => stamped_step) ?_ (stamped_new cfg) (by simp [EpochsFollow, RiftClient.new])
  intro p a p' h hs hf
  exact Pool.kept_iff_allows (I := EpochsFollow) (J := fun p => Stamped p.shared)
    (fun _ _ _ hs => hs) (fun _ _ _ _ _ _ _ hn hs hf => follow_next hn hs hf) h hs hf

end RiftClient

variable {J : SerdeJson} {scfg : ServerConfig} {env : Env} {adm : Admission}
  {cfg : RiftClientConfig}

theorem exists_ok_of_bind {ε α β : Type} {x : Except ε α} {f : α → Except ε β} {b : β}
    (h : (x >>= f) = .ok b) : ∃ a, x = .ok a ∧ f a = .ok b := by
  cases x with
  | error => cases h
  | ok a => exact ⟨a, rfl, h⟩

theorem eq_ok_of_check {ε α : Type} {P : Prop} [Decidable P] {e : ε} {k : PUnit → Except ε α}
    {x : Except ε α} {a : α} (h : (if P then throw e >>= k else x) = .ok a) : x = .ok a := by
  split at h
  · cases h
  · exact h

/-- The hello that the server checks is the one it decodes. -/
theorem decodeHelloPayload_of_checkHello (h : checkHello J scfg env = .ok adm) :
    ∃ frame token, env.hello = .ok frame ∧
      decodeHelloPayload J frame.payload = .ok (adm.hello, token) := by
  obtain ⟨frame, hframe, h⟩ := exists_ok_of_bind h
  obtain ⟨⟨hello, token⟩, hdecode, h⟩ := exists_ok_of_bind (eq_ok_of_check h)
  obtain ⟨codec, -, h⟩ := exists_ok_of_bind (eq_ok_of_check (eq_ok_of_check h))
  obtain ⟨auth, -, h⟩ := exists_ok_of_bind h
  cases eq_ok_of_check (eq_ok_of_check (eq_ok_of_check h))
  exact ⟨frame, token, hframe, hdecode⟩

/-- The hello of a configuration as the server receives it. -/
structure Carries (J : SerdeJson) (env : Env) (cfg : RiftClientConfig) : Prop where
  reads : J.fromSlice (J.toVec (helloPayload cfg)) = .ok (helloPayload cfg)
  arrives : ∃ now id max, (J.toVec (helloPayload cfg)).length ≤ max ∧ max < 2 ^ 32 ∧
    env.hello = decodeBinaryFrame (encodeFrame (helloFrame J now id cfg)) max

theorem Carries.hello (hc : Carries J env cfg) (ha : checkHello J scfg env = .ok adm) :
    adm.hello.sessionId = cfg.sessionId ∧ adm.hello.epoch = some cfg.epoch := by
  obtain ⟨now, id, max, hlen, hmax, harrives⟩ := hc.arrives
  have hdecode := decodeHelloPayload_helloPayload hc.reads
  obtain ⟨frame, token, hframe, hadm⟩ := decodeHelloPayload_of_checkHello ha
  rw [decode_helloFrame hlen hmax, hframe] at harrives
  cases harrives
  have hhello : cfg.hello = adm.hello :=
    (Prod.mk.inj (Except.ok.inj (hdecode.symm.trans hadm))).1
  rw [← hhello]
  exact ⟨rfl, rfl⟩

/-- Whether a hello passes the server's comparison of epochs. -/
theorem Carries.epochCheck_iff (hc : Carries J env cfg) (ha : checkHello J scfg env = .ok adm)
    (s : Session) : epochCheck s adm.hello = .ok () ↔ cfg.epoch = s.epoch := by
  simp [epochCheck, (hc.hello ha).2]

/-- The session of a Welcome, and the epoch of a Ready. -/
def parseHandshake (obj : Json) (parts : Option String × Option UInt32) :
    Option String × Option UInt32 :=
  match (obj.get "type").bind Json.asStr with
  | some "welcome" => (some (((obj.get "session_id").bind Json.asStr).getD ""), parts.2)
  | some "ready" => (parts.1, some (((obj.get "epoch").bind Json.asU64).getD 0).toUInt32)
  | _ => parts

/-- The messages the client reads until it has both; it gives up on one that it cannot
decode. -/
def awaitHandshake (J : SerdeJson) :
    List Bytes → Option String × Option UInt32 → Option (String × UInt32)
  | [], _ => none
  | data :: rest, parts =>
    match decodeBinaryFrame data defaultMaxBinaryPayload with
    | .error _ => none
    | .ok frame =>
      if frame.frameType ≠ .control then awaitHandshake J rest parts
      else
        match frame.payload with
        | none => awaitHandshake J rest parts
        | some payload =>
          match J.fromSlice payload with
          | .error _ => none
          | .ok obj =>
            match parseHandshake obj parts with
            | (some sessionId, some epoch) => some (sessionId, epoch)
            | parts => awaitHandshake J rest parts

variable {parts : Option String × Option UInt32} {f : Frame} {rest : List Bytes}

theorem awaitHandshake_data (hf : f.frameType = .data)
    (hlen : (f.payload.getD []).length ≤ defaultMaxBinaryPayload) :
    awaitHandshake J (encodeFrame f :: rest) parts = awaitHandshake J rest parts := by
  rw [awaitHandshake, decode_encode_of_le hlen (by decide)]
  simp [Frame.overWire, hf]

theorem awaitHandshake_replay {fs : List Frame} (hfs : ∀ f ∈ fs, f.frameType = .data)
    (hlen : ∀ f ∈ fs, (f.payload.getD []).length ≤ defaultMaxBinaryPayload) :
    awaitHandshake J (fs.map encodeFrame ++ rest) parts = awaitHandshake J rest parts := by
  induction fs with
  | nil => rfl
  | cons f fs ih =>
    rw [List.map_cons, List.cons_append, awaitHandshake_data (hfs f List.mem_cons_self)
      (hlen f List.mem_cons_self)]
    exact ih (fun g hg => hfs g (List.mem_cons_of_mem f hg))
      fun g hg => hlen g (List.mem_cons_of_mem f hg)

/-- What one wire has sent after another: data frames. -/
def Wire.Replays (w w' : Wire) : Prop :=
  ∃ fs, (∀ f ∈ fs, f.frameType = .data) ∧ w'.sent = w.sent ++ fs

theorem Wire.Replays.refl (w : Wire) : w.Replays w := ⟨[], by simp, by simp⟩

theorem Wire.Replays.trans {w w' w'' : Wire} (h : w.Replays w') (h' : w'.Replays w'') :
    w.Replays w'' := by
  obtain ⟨fs, hfs, hsent⟩ := h
  obtain ⟨fs', hfs', hsent'⟩ := h'
  refine ⟨fs ++ fs', ?_, by rw [hsent', hsent, List.append_assoc]⟩
  intro f hf
  rcases List.mem_append.mp hf with hf | hf
  · exact hfs f hf
  · exact hfs' f hf

theorem Wire.replays_foldl {α : Type} {g : Wire → α → Wire}
    (hg : ∀ (w : Wire) (x : α), w.Replays (g w x)) (w : Wire) (xs : List α) :
    w.Replays (xs.foldl g w) := by
  induction xs generalizing w with
  | nil => exact .refl w
  | cons x xs ih => exact (hg w x).trans (ih (g w x))

theorem replays_write (w : Wire) (topic : String) (data : Bytes) :
    w.Replays (w.write env (replayFrame topic data)).1 := by
  cases h : env.write w.attempts with
  | error e => exact ⟨[], by simp, by simp [Wire.write, h]⟩
  | ok =>
    refine ⟨[replayFrame topic data], ?_, by simp [Wire.write, h]⟩
    intro f hf
    rw [List.mem_singleton.mp hf]
    rfl

theorem replays_replayMissed (w : Wire) (resume : Option ResumeDecision)
    (lastOffsets : List (String × Int64)) : w.Replays (replayMissed env w resume lastOffsets) := by
  unfold replayMissed
  split
  · refine Wire.replays_foldl (fun w kv => ?_) w lastOffsets
    unfold replayTopic
    dsimp only
    split
    · split
      · exact Wire.replays_foldl (fun w data => replays_write w kv.1 data) w _
      · exact .refl w
    · exact .refl w
  · exact .refl w

theorem sent_of_write_ok {w w' : Wire} (h : w.write env f = (w', .ok ())) :
    w'.sent = w.sent ++ [f] := by
  unfold Wire.write at h
  split at h
  · cases h
    rfl
  · cases h

theorem id_setState {st : SessionStore} {r : Nat} {state : SessionState} {now : Int64} :
    ((st.setState r state now).heap r).id = (st.heap r).id := by
  simp [SessionStore.setState, SessionStore.modify, Session.setState, Session.touch]

variable {st : SessionStore} {r : Nat} {resume : Option ResumeDecision}

/-- A greeting that goes out is the welcome, what is replayed, and the ready frame, all of
the one session. -/
theorem sent_of_greet_ok (h : (greet J scfg env adm st r resume).2.2 = .ok r) :
    ∃ fs, (∀ f ∈ fs, f.frameType = .data) ∧
      (greet J scfg env adm st r resume).2.1.sent =
        buildWelcomeFrame J ((st.setState r .ready env.now).heap r) adm.codec
            (resume.map resumeResult) scfg env.now ::
          (fs ++ [buildReadyFrame J ((st.setState r .ready env.now).heap r) scfg adm.codec
            env.now]) := by
  unfold greet at h ⊢
  dsimp only at h ⊢
  split at h
  · cases h
  · next w hwelcome =>
    obtain ⟨fs, hfs, hreplay⟩ : w.Replays (replayMissed env w resume adm.hello.lastOffsets) :=
      replays_replayMissed w resume adm.hello.lastOffsets
    refine ⟨fs, hfs, ?_⟩
    split at h
    · cases h
    · next w' hready =>
      change w'.sent = _
      rw [sent_of_write_ok hready, hreplay, sent_of_write_ok hwelcome]
      simp

theorem awaitHandshake_control {obj : Json} (hf : f.frameType = .control)
    (hp : f.payload = some (J.toVec obj)) (hJ : J.fromSlice (J.toVec obj) = .ok obj)
    (hlen : (f.payload.getD []).length ≤ defaultMaxBinaryPayload) :
    awaitHandshake J (encodeFrame f :: rest) parts =
      match parseHandshake obj parts with
      | (some sessionId, some epoch) => some (sessionId, epoch)
      | parts => awaitHandshake J rest parts := by
  rw [awaitHandshake, decode_encode_of_le hlen (by decide)]
  simp only [Frame.overWire, hf, hp, ne_eq, not_true_eq_false, if_false, Option.getD_some, hJ]

theorem parseHandshake_welcomeBody {session : Session} {codec : EncodingFormat}
    {result : Option String} {now : Int64} :
    parseHandshake (welcomeBody session codec result scfg now) parts =
      (some session.id, parts.2) := rfl

theorem parseHandshake_readyBody {session : Session} {now : Int64} :
    parseHandshake (readyBody session scfg now) parts = (parts.1, some session.epoch) := by
  change (parts.1, some session.epoch.toUInt64.toUInt32) = _
  rw [UInt32.toUInt32_toUInt64]

/-- The client takes from a greeting the session and the epoch that the server has. -/
theorem awaitHandshake_greet (hJ : ∀ v, J.fromSlice (J.toVec v) = .ok v)
    (h : (greet J scfg env adm st r resume).2.2 = .ok r)
    (hlen : ∀ f ∈ (greet J scfg env adm st r resume).2.1.sent,
      (f.payload.getD []).length ≤ defaultMaxBinaryPayload) :
    awaitHandshake J ((greet J scfg env adm st r resume).2.1.sent.map encodeFrame) (none, none) =
      some ((st.heap r).id, (st.heap r).epoch) := by
  obtain ⟨fs, hfs, hsent⟩ := sent_of_greet_ok h
  rw [hsent] at hlen ⊢
  obtain ⟨hwelcome, hrest⟩ := List.forall_mem_cons.mp hlen
  obtain ⟨hdata, hready⟩ := List.forall_mem_append.mp hrest
  have hepoch : ((st.setState r .ready env.now).heap r).epoch = (st.heap r).epoch := by
    simp
  rw [List.map_cons, awaitHandshake_control rfl rfl (hJ _) hwelcome, parseHandshake_welcomeBody]
  dsimp only
  rw [List.map_append, awaitHandshake_replay hfs hdata, List.map_cons, List.map_nil,
    awaitHandshake_control rfl rfl (hJ _) (hready _ (List.mem_singleton_self _))]
  simp only [parseHandshake_readyBody, id_setState, hepoch]

/-- After a handshake whose frames arrive, the client has the epoch that the server will
compare the next hello with. -/
theorem awaitHandshake_handshake (hJ : ∀ v, J.fromSlice (J.toVec v) = .ok v)
    (h : (handshake J scfg env st).2.2 = .ok r)
    (hlen : ∀ f ∈ (handshake J scfg env st).2.1.sent,
      (f.payload.getD []).length ≤ defaultMaxBinaryPayload) :
    awaitHandshake J ((handshake J scfg env st).2.1.sent.map encodeFrame) (none, none) =
      some (((handshake J scfg env st).1.heap r).id,
        ((handshake J scfg env st).1.heap r).epoch) := by
  cases ha : checkHello J scfg env with
  | error e =>
    rw [handshake_rejected ha] at h
    cases h
  | ok adm =>
    rcases hb : bindSession env adm st with ⟨st', e | ⟨q, resume⟩⟩
    · rw [handshake_unbound ha hb] at h
      cases h
    · rw [handshake_bound ha hb] at h hlen ⊢
      rcases greet_cases J scfg env adm st' q resume with ⟨w, e, hg⟩ | ⟨w, hg⟩
      · rw [hg] at h
        cases h
      · obtain rfl : q = r := by
          rw [hg] at h
          exact Except.ok.inj h
        rw [awaitHandshake_greet hJ h hlen, hg, id_setState, id_setState]
        simp

namespace RiftClient

open Transition

/-- In every run of a client, whatever the server answers, its hellos carry the epoch of
the last Ready exactly when none for a session goes out after an attempt of
`try_reconnect`. At a server where nobody else has resumed the session, so that it is in
the epoch of that Ready, a hello passes the comparison of epochs only if no attempt was
made since; any other is refused as a conflict. -/
theorem client_epoch_follows_iff (cfg : RiftClientConfig) (acts : List Act) :
    (Throughout step EpochsFollow ⟨.new cfg, []⟩ acts ↔
      Guarded step (Pool.Allows unbumped) ⟨.new cfg, []⟩ acts) ∧
    ∀ p sid e, run step ⟨.new cfg, []⟩ acts = some p → p.shared.config.sessionId = some sid →
      p.shared.readyEpoch = some e →
      ∀ J scfg env adm st r, Carries J env p.shared.config → checkHello J scfg env = .ok adm →
        st.get sid = some r → (st.heap r).epoch = e →
        (epochCheck (st.heap r) adm.hello = .ok () ↔ p.shared.bumps % 2 ^ 32 = 0) ∧
        (p.shared.bumps % 2 ^ 32 ≠ 0 → handshake J scfg env st = (st, {},
          .error (.session (.conflict p.shared.config.epoch e)))) := by
  refine ⟨epochsFollow_iff_guarded cfg acts, ?_⟩
  intro p sid e hrun hsid he J scfg env adm st r hc ha hget hepoch
  have hstamped : Stamped p.shared := run_invariant (P := fun p => Stamped p.shared)
    (fun _ _ _ => stamped_step) hrun (stamped_new cfg)
  have hiff := hstamped.epoch_eq_iff he
  obtain ⟨hsession, hhello⟩ := hc.hello ha
  constructor
  · rw [hc.epochCheck_iff ha, hepoch, hiff]
  · intro hbumps
    have hne : adm.hello.epoch.getD 0 ≠ (st.heap r).epoch := by
      rw [hhello, hepoch]
      exact fun heq => hbumps (hiff.mp heq)
    rw [handshake_refused ha (hsession.trans hsid) hget (.inl hne), hhello, hepoch]
    rfl

/-- The configuration after the hello of a reconnect attempt. -/
def bumpedConfig : RiftClientConfig := { sessionId := some "s", epoch := 2 }

def bumpedReader : SerdeJson := .reading [helloPayload bumpedConfig]

/-- Its hello at a server. -/
def bumpedEnv : Env :=
  { Env.plain bumpedReader (helloPayload bumpedConfig) "alice" "unused" with
    hello := .ok ((helloFrame bumpedReader 0 1 bumpedConfig).overWire
      (bumpedReader.toVec (helloPayload bumpedConfig))) }

theorem carries_bumpedEnv : Carries bumpedReader bumpedEnv bumpedConfig where
  reads := by simp [bumpedReader, SerdeJson.reading]
  arrives := by
    have hlen : (bumpedReader.toVec (helloPayload bumpedConfig)).length ≤
        defaultMaxBinaryPayload := (SerdeJson.length_toVec_reading_le _ _).trans (by decide +kernel)
    exact ⟨0, 1, defaultMaxBinaryPayload, hlen, by decide,
      (decode_helloFrame hlen (by decide)).symm⟩

set_option maxRecDepth 4000 in
theorem bumped_hello_conflicts :
    ∃ p, run step ⟨.new {}, []⟩ lostAndBack = some p ∧ p.shared.config = bumpedConfig ∧
      handshake bumpedReader {} bumpedEnv Server.drainingStore =
        (Server.drainingStore, {}, .error (.session (.conflict 2 1))) := by
  obtain ⟨p, hrun, hconfig, hready, hbumps⟩ : ∃ p, run step ⟨.new {}, []⟩ lostAndBack = some p ∧
      p.shared.config = bumpedConfig ∧ p.shared.readyEpoch = some 1 ∧ p.shared.bumps = 1 := by
    decide +kernel
  refine ⟨p, hrun, hconfig, ?_⟩
  have h := ((client_epoch_follows_iff {} lostAndBack).2 p "s" 1 hrun (by rw [hconfig]; rfl)
    hready bumpedReader {} bumpedEnv _ Server.drainingStore 0 (hconfig ▸ carries_bumpedEnv) rfl rfl
    (by decide +kernel)).2 (by rw [hbumps]; decide)
  rw [hconfig] at h
  exact h

/-- The client was told epoch 1 and asks to resume epoch 2, which the server refuses. -/
theorem reconnect_names_the_next_epoch :
    ∃ p, run step ⟨.new {}, []⟩ lostAndBack = some p ∧
      p.shared.hellos = [⟨none, 1, none⟩, ⟨some "s", 2, some 1⟩] ∧ ¬ EpochsFollow p ∧
      (Server.drainingStore.heap 0).epoch = 1 ∧
      (handshake bumpedReader {} bumpedEnv Server.drainingStore).2.2 =
        .error (.session (.conflict 2 1)) := by
  obtain ⟨p, hrun, hhellos⟩ : ∃ p, run step ⟨.new {}, []⟩ lostAndBack = some p ∧
      p.shared.hellos = [⟨none, 1, none⟩, ⟨some "s", 2, some 1⟩] := by decide +kernel
  refine ⟨p, hrun, hhellos, ?_, by decide +kernel, by decide +kernel⟩
  intro hfollow
  have hwrong := hfollow ⟨some "s", 2, some 1⟩ (by simp [hhellos]) 1 rfl
  exact absurd hwrong (by decide)

end RiftClient

end Rifts
