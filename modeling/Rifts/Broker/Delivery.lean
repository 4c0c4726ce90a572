import Rifts.Broker.IdWrap

/-! What sinks are offered when the calls on a broker come one after the other. -/
namespace Rifts

inductive BrokerOp (σ : Type)
  | publish (now : Int64) (frame : Frame)
  | subscribe (topic : String) (intent : SubscribeIntent) (sink : σ)
  | unsubscribe (id : UInt64)
  | dropSink (sinkId : UInt64)

def BrokerOp.isSubscribe {σ : Type} : BrokerOp σ → Bool
  | subscribe .. => true
  | _ => false

namespace FanoutEngine

variable {σ : Type} [FanoutSink σ] {e : FanoutEngine σ} {id k : UInt64} {t : String}

/-- Cancelling a subscription takes its id off every list. -/
theorem subscribers_unsubscribe (hc : Coherent e) : (e.unsubscribe id).1.subscribers t =
    (e.subscribers t).filter fun entry => entry.1 ≠ id := by
  have hfiled : ∀ entry ∈ e.subscribers t, e.byId entry.1 = some (t, entry.2) :=
    fun entry => (hc.topics.mem t entry).mp
  cases h : e.byId id with
  | none =>
    rw [unsubscribe_unknown h, eq_comm, List.filter_eq_self]
    intro entry hentry
    have hne : entry.1 ≠ id := by
      intro heq
      rw [← heq, hfiled entry hentry] at h
      cases h
    simpa using hne
  | some x =>
    obtain ⟨topic, sink⟩ := x
    by_cases ht : t = topic
    · subst ht
      rw [subscribers_unsubscribe_self h]
      refine List.filter_congr ?_
      intro entry _
      simp [bne, beq_eq_decide]
    · rw [subscribers_unsubscribe_of_ne h ht, eq_comm, List.filter_eq_self]
      intro entry hentry
      have hne : entry.1 ≠ id := by
        intro heq
        rw [← heq, hfiled entry hentry] at h
        exact ht (Prod.mk.inj (Option.some.inj h)).1
      simpa using hne

theorem subscribers_removeAll {ids : List UInt64} {topics : List String} (hc : Coherent e) :
    (e.removeAll ids topics).1.subscribers t =
      (e.subscribers t).filter fun entry => entry.1 ∉ ids := by
  induction ids generalizing e topics with
  | nil => simp [removeAll]
  | cons id ids ih =>
    obtain ⟨topics', hcons⟩ := removeAll_cons (e := e) id ids topics
    rw [hcons, ih (coherent_unsubscribe hc), subscribers_unsubscribe hc, List.filter_filter]
    refine List.filter_congr ?_
    intro entry _
    simp [Bool.and_comm]

/-- Dropping a sink takes its subscriptions off every list. -/
theorem subscribers_dropSink (hc : Coherent e) : (e.dropSink k).1.subscribers t =
    (e.subscribers t).filter fun entry => FanoutSink.id entry.2 ≠ k := by
  rw [dropSink_eq, subscribers_removeAll hc]
  refine List.filter_congr ?_
  intro entry hentry
  have hfiled := (hc.topics.mem t entry).mp hentry
  have hheld : entry.1 ∈ e.held k ↔ FanoutSink.id entry.2 = k := by
    refine (hc.sinks.mem k entry.1).trans ⟨?_, fun hk => ⟨t, entry.2, hfiled, hk⟩⟩
    rintro ⟨topic, sink, hid, rfl⟩
    cases hfiled.symm.trans hid
    rfl
  simp [hheld]

end FanoutEngine

namespace Delivery

variable {O L D S σ : Type}

structure Subscription (σ : Type) where
  id : UInt64
  topic : String
  sink : σ
  deriving DecidableEq, Repr

/-- An operation together with what it returned. -/
inductive Event (σ : Type)
  | published (frame : Frame) (outcome : PublishOutcome)
  | subscribed (subscription : Subscription σ)
  | unsubscribed (id : UInt64)
  | dropped (sinkId : UInt64)
  | refused

/-- The subscriptions that are made and not yet removed, and the frames that sinks
are due on their account. -/
structure Account (σ : Type) where
  live : List (Subscription σ) := []
  due : List (σ × Bytes) := []

/-- A subscription lasts until its id is unsubscribed or its sink is dropped. While
it lasts, its sink is due every message on its topic that is not a duplicate. -/
def Account.note [FanoutSink σ] (a : Account σ) : Event σ → Account σ
  | .published frame ⟨offset, false⟩ =>
    { a with
      due := a.due ++ (a.live.filter fun s => frame.topic = some s.topic).map fun s =>
        (s.sink, serializeFrameForFanout frame offset) }
  | .published _ ⟨_, true⟩ | .refused => a
  | .subscribed s => { a with live := a.live ++ [s] }
  | .unsubscribed id => { a with live := a.live.filter fun s => s.id ≠ id }
  | .dropped sinkId => { a with live := a.live.filter fun s => FanoutSink.id s.sink ≠ sinkId }

def account [FanoutSink σ] (journal : List (Event σ)) : Account σ := journal.foldl Account.note {}

/-- A call of a sink's `deliver`, and whether it went well. -/
structure Call (σ : Type) where
  sink : σ
  frame : Bytes
  took : Bool
  deriving DecidableEq, Repr

def Call.offer (c : Call σ) : σ × Bytes := (c.sink, c.frame)

structure Served (O L D S σ : Type) where
  broker : InMemoryBroker O L D S σ
  journal : List (Event σ) := []
  calls : List (Call σ) := []

/-- The loop of `FanoutEngine::deliver`. What a sink answers may depend on all the
calls so far. -/
def callAll (takes : List (Call σ) → σ → Bytes → Bool) (calls : List (Call σ)) :
    List (σ × Bytes) → List (Call σ)
  | [] => calls
  | (sink, frame) :: rest =>
    callAll takes (calls ++ [⟨sink, frame, takes calls sink frame⟩]) rest

theorem offers_callAll {takes : List (Call σ) → σ → Bytes → Bool} {calls : List (Call σ)}
    {offers : List (σ × Bytes)} :
    (callAll takes calls offers).map Call.offer = calls.map Call.offer ++ offers := by
  induction offers generalizing calls with
  | nil => simp [callAll]
  | cons o rest ih =>
    rw [callAll, ih, List.map_append, List.append_assoc]
    rfl

/-- Taking entries off every list takes the subscriptions off the account. -/
theorem listed_filter {live : List (Subscription σ)} {t : String} {keep : UInt64 × σ → Bool} :
    ((live.filter fun x => x.topic = t).map fun x => (x.id, x.sink)).filter keep =
      ((live.filter fun x => keep (x.id, x.sink)).filter fun x => x.topic = t).map
        fun x => (x.id, x.sink) := by
  rw [List.filter_map, List.filter_filter, List.filter_filter]
  refine congrArg _ (List.filter_congr ?_)
  intro x _
  exact Bool.and_comm ..

variable [FanoutSink σ]

theorem account_concat {journal : List (Event σ)} {event : Event σ} :
    account (journal ++ [event]) = (account journal).note event := by
  simp [account]

/-- The engine lists the live subscriptions, and sinks were offered what they were due. -/
structure Tracks (n : Nat) (s : Served O L D S σ) : Prop where
  coherent : FanoutEngine.Coherent s.broker.fanout
  drawn : ∃ m, m ≤ n ∧ FanoutEngine.Drawn m s.broker.fanout
  live : ∀ t, s.broker.fanout.subscribers t =
    ((account s.journal).live.filter fun x => x.topic = t).map fun x => (x.id, x.sink)
  calls : s.calls.map Call.offer = (account s.journal).due

/-- What is refused changes no subscription and is offered to nobody. -/
theorem tracks_refused {s : Served O L D S σ} {n : Nat} (h : Tracks n s)
    {b : InMemoryBroker O L D S σ} (hb : b.fanout = s.broker.fanout) :
    Tracks n ⟨b, s.journal ++ [.refused], s.calls⟩ := by
  obtain ⟨hc, hd, hlive, hcalls⟩ := h
  refine ⟨?_, ?_, ?_, ?_⟩
  · rw [hb]
    exact hc
  · rw [hb]
    exact hd
  · rw [hb, account_concat]
    exact hlive
  · rw [account_concat]
    exact hcalls

theorem tracks_new {b : InMemoryBroker O L D S σ} (hb : b.fanout = .new) :
    Tracks 0 (⟨b, [], []⟩ : Served O L D S σ) := by
  have hc : FanoutEngine.Coherent b.fanout := by
    rw [hb]
    exact FanoutEngine.coherent_new
  have hd : FanoutEngine.Drawn 0 b.fanout := by
    rw [hb]
    exact FanoutEngine.drawn_new
  refine ⟨hc, ⟨0, Nat.le_refl 0, hd⟩, ?_, rfl⟩
  intro t
  simp only [hb]
  rfl

variable [OffsetStore O] [LogStore L] [DedupeStore D] [SnapshotStore S]

def step (takes : List (Call σ) → σ → Bytes → Bool) (s : Served O L D S σ) :
    BrokerOp σ → Served O L D S σ
  | .publish now f =>
    match s.broker.publish now f with
    | (b, .ok outcome, offers) =>
      ⟨b, s.journal ++ [.published f outcome], callAll takes s.calls offers⟩
    | (b, .error _, offers) => ⟨b, s.journal ++ [.refused], callAll takes s.calls offers⟩
  | .subscribe topic intent sink =>
    match s.broker.subscribe topic intent sink with
    | (b, .ok id) => ⟨b, s.journal ++ [.subscribed ⟨id, topic, sink⟩], s.calls⟩
    | (b, .error _) => ⟨b, s.journal ++ [.refused], s.calls⟩
  | .unsubscribe id => ⟨(s.broker.unsubscribe id).1, s.journal ++ [.unsubscribed id], s.calls⟩
  | .dropSink sinkId => ⟨(s.broker.dropSink sinkId).1, s.journal ++ [.dropped sinkId], s.calls⟩

def serve (takes : List (Call σ) → σ → Bytes → Bool) (b : InMemoryBroker O L D S σ)
    (ops : List (BrokerOp σ)) : Served O L D S σ :=
  ops.foldl (step takes) ⟨b, [], []⟩

variable (takes : List (Call σ) → σ → Bytes → Bool) {s : Served O L D S σ} {n : Nat}

theorem tracks_publish (h : Tracks n s) (now : Int64) (f : Frame) :
    Tracks n (step takes s (.publish now f)) := by
  obtain ⟨store, -, ⟨e, hp⟩ | ⟨t, messageId, b, outcome, offers, ht, hr, hp⟩⟩ :=
    InMemoryBroker.publish_cases s.broker now f
  · simp only [step, hp]
    exact tracks_refused h rfl
  · simp only [step, hp]
    obtain ⟨hc, hd, hlive, hcalls⟩ := h
    obtain ⟨hfanout, hoffers⟩ := InMemoryBroker.offers_record hr
    obtain ⟨offset, duplicate⟩ := outcome
    -- a duplicate is recorded and offered to nobody
    have hdue : (account (s.journal ++ [.published f ⟨offset, duplicate⟩])).live =
          (account s.journal).live ∧
        (account (s.journal ++ [.published f ⟨offset, duplicate⟩])).due =
          (account s.journal).due ++ offers := by
      rw [account_concat]
      cases duplicate with
      | true => simp [Account.note, hoffers]
      | false => simp [Account.note, hoffers, FanoutEngine.deliver, hlive, ht, eq_comm]
    refine ⟨?_, ?_, ?_, ?_⟩
    · rw [hfanout]
      exact hc
    · rw [hfanout]
      exact hd
    · intro u
      rw [hfanout, hdue.1]
      exact hlive u
    · rw [offers_callAll, hdue.2, hcalls]

theorem tracks_subscribe (h : Tracks n s) (hn : n < 2 ^ 64) (t : String)
    (intent : SubscribeIntent) (sink : σ) :
    Tracks (n + 1) (step takes s (.subscribe t intent sink)) := by
  obtain ⟨store, ⟨e, hp⟩ | hp⟩ := InMemoryBroker.subscribe_cases s.broker t intent sink
  · simp only [step, hp]
    obtain ⟨hc, ⟨m, hm, hd⟩, hlive, hcalls⟩ := tracks_refused h (b := { s.broker with store }) rfl
    exact ⟨hc, ⟨m, by omega, hd⟩, hlive, hcalls⟩
  · obtain ⟨hc, ⟨m, hm, hd⟩, hlive, hcalls⟩ := h
    have hdrawn : FanoutEngine.Drawn (m + 1) (s.broker.fanout.subscribe t intent sink).1 :=
      FanoutEngine.drawn_subscribe hd
    have hcoherent : FanoutEngine.Coherent (s.broker.fanout.subscribe t intent sink).1 :=
      FanoutEngine.coherent_subscribe hc (hd.fresh (by omega))
    simp only [step, hp]
    refine ⟨?_, ⟨m + 1, by omega, hdrawn⟩, ?_, ?_⟩
    · exact hcoherent
    · intro u
      rw [account_concat]
      by_cases hu : u = t
      · subst hu
        rw [FanoutEngine.subscribers_subscribe_self, hlive]
        simp [Account.note]
      · rw [FanoutEngine.subscribers_subscribe_of_ne hu, hlive]
        simp [Account.note, Ne.symm hu]
    · rw [account_concat]
      exact hcalls

theorem tracks_unsubscribe (h : Tracks n s) (id : UInt64) :
    Tracks n (step takes s (.unsubscribe id)) := by
  obtain ⟨hc, ⟨m, hm, hd⟩, hlive, hcalls⟩ := h
  have hfanout : (s.broker.unsubscribe id).1.fanout = (s.broker.fanout.unsubscribe id).1 :=
    InMemoryBroker.fanout_unsubscribe
  simp only [step]
  refine ⟨?_, ⟨m, hm, ?_⟩, ?_, ?_⟩
  · rw [hfanout]
    exact FanoutEngine.coherent_unsubscribe hc
  · rw [hfanout]
    exact FanoutEngine.drawn_unsubscribe hd
  · intro u
    rw [hfanout, FanoutEngine.subscribers_unsubscribe hc, hlive, account_concat, listed_filter]
    rfl
  · rw [account_concat]
    exact hcalls

theorem tracks_dropSink (h : Tracks n s) (sinkId : UInt64) :
    Tracks n (step takes s (.dropSink sinkId)) := by
  obtain ⟨hc, ⟨m, hm, hd⟩, hlive, hcalls⟩ := h
  have hfanout : (s.broker.dropSink sinkId).1.fanout = (s.broker.fanout.dropSink sinkId).1 := rfl
  simp only [step]
  refine ⟨?_, ⟨m, hm, ?_⟩, ?_, ?_⟩
  · rw [hfanout]
    exact FanoutEngine.coherent_dropSink hc
  · rw [hfanout]
    exact FanoutEngine.dropSink_induction (fun _ _ h => FanoutEngine.drawn_unsubscribe h) hd
  · intro u
    rw [hfanout, FanoutEngine.subscribers_dropSink hc, hlive, account_concat, listed_filter]
    rfl
  · rw [account_concat]
    exact hcalls

theorem tracks_serve {b : InMemoryBroker O L D S σ} (hb : b.fanout = .new)
    {ops : List (BrokerOp σ)} (hops : ops.countP BrokerOp.isSubscribe ≤ 2 ^ 64) :
    Tracks (ops.countP BrokerOp.isSubscribe) (serve takes b ops) := by
  induction ops using List.reverseRecOn with
  | nil => exact tracks_new hb
  | append_singleton ops op ih =>
    rw [List.countP_append] at hops
    have h := ih (by omega)
    rw [serve, List.foldl_append, ← serve, List.countP_append]
    cases op with
    | publish now f => exact tracks_publish takes h now f
    | subscribe t intent sink =>
      have hlt : ops.countP BrokerOp.isSubscribe < 2 ^ 64 := by
        simp only [List.countP_singleton, BrokerOp.isSubscribe, if_true] at hops
        omega
      exact tracks_subscribe takes h hlt t intent sink
    | unsubscribe id => exact tracks_unsubscribe takes h id
    | dropSink sinkId => exact tracks_dropSink takes h sinkId

/-- Two runs are alike but for what the sinks answered. -/
structure Alike (s s' : Served O L D S σ) : Prop where
  broker : s'.broker = s.broker
  journal : s'.journal = s.journal
  calls : s'.calls.map Call.offer = s.calls.map Call.offer

theorem alike_step (takes' : List (Call σ) → σ → Bytes → Bool) {s' : Served O L D S σ}
    (h : Alike s s') (op : BrokerOp σ) : Alike (step takes s op) (step takes' s' op) := by
  obtain ⟨b, journal, calls⟩ := s
  obtain ⟨b', journal', calls'⟩ := s'
  obtain ⟨hb, hj, hcalls⟩ := h
  cases hb
  cases hj
  cases op with
  | publish now f =>
    rcases hp : b.publish now f with ⟨b₁, e | outcome, offers⟩
    all_goals
      simp only [step, hp]
      exact ⟨rfl, rfl, by rw [offers_callAll, offers_callAll, hcalls]⟩
  | subscribe t intent sink =>
    rcases hp : b.subscribe t intent sink with ⟨b₁, e | id⟩
    all_goals
      simp only [step, hp]
      exact ⟨rfl, rfl, hcalls⟩
  | unsubscribe id => exact ⟨rfl, rfl, hcalls⟩
  | dropSink sinkId => exact ⟨rfl, rfl, hcalls⟩

theorem alike_serve (takes' : List (Call σ) → σ → Bytes → Bool) (b : InMemoryBroker O L D S σ)
    (ops : List (BrokerOp σ)) : Alike (serve takes b ops) (serve takes' b ops) := by
  induction ops using List.reverseRecOn with
  | nil => exact ⟨rfl, rfl, rfl⟩
  | append_singleton ops op ih =>
    rw [serve, serve, List.foldl_append, List.foldl_append]
    exact alike_step takes takes' ih op

/-- Over any sequence of operations with no more than 2^64 subscribes among them, sinks
are offered what they are due, in that order, whatever they and the others answer. -/
theorem exact_delivery (b : InMemoryBroker O L D S σ) (hb : b.fanout = .new)
    (ops : List (BrokerOp σ)) (hops : ops.countP BrokerOp.isSubscribe ≤ 2 ^ 64)
    (takes : List (Call σ) → σ → Bytes → Bool) :
    (serve takes b ops).calls.map Call.offer = (account (serve takes b ops).journal).due ∧
      ∀ takes', Alike (serve takes b ops) (serve takes' b ops) :=
  ⟨(tracks_serve takes hb hops).calls, fun takes' => alike_serve takes takes' b ops⟩

/-- A sink on "t" twice and a second one that fails; a duplicate, and a message after
one of the subscriptions is gone. -/
def twiceOnOneTopic : List (BrokerOp MpscSink) :=
  [.subscribe "t" .live ⟨0, 7, .json⟩, .subscribe "t" .live ⟨1, 8, .json⟩,
    .subscribe "t" .live ⟨0, 7, .json⟩,
    .publish 0 { topic := some "t", messageId := some "m" },
    .publish 0 { topic := some "t", messageId := some "m" }, .unsubscribe 1,
    .publish 0 { topic := some "t", messageId := some "n" }]

theorem failing_sink_is_offered_all :
    let takes : List (Call MpscSink) → MpscSink → Bytes → Bool := fun _ sink _ => sink.id = 7
    (serve takes emptyBroker twiceOnOneTopic).calls.map Call.offer =
        (account (serve takes emptyBroker twiceOnOneTopic).journal).due ∧
      (serve takes emptyBroker twiceOnOneTopic).calls.map (fun c => (c.sink.id, c.took)) =
        [(7, true), (8, false), (7, true), (8, false), (7, true)] :=
  ⟨(exact_delivery emptyBroker rfl twiceOnOneTopic (by decide) _).1, by decide⟩

section Wrap

theorem serve_concat {b : InMemoryBroker O L D S σ} {ops : List (BrokerOp σ)} {op : BrokerOp σ} :
    serve takes b (ops ++ [op]) = step takes (serve takes b ops) op := by
  simp [serve]

variable (takes : List (Call MpscSink) → MpscSink → Bytes → Bool) {journal : List (Event MpscSink)}

/-- Another subscription comes and goes. -/
theorem step_round {n : UInt64} (hn : n ≠ 0) :
    step takes (step takes ⟨holdingOne.atSeq n, journal, []⟩ (.subscribe "t" .live ⟨1, 8, .json⟩))
        (.unsubscribe (n + 1)) =
      ⟨holdingOne.atSeq (n + 1), journal ++ [.subscribed ⟨n + 1, "t", ⟨1, 8, .json⟩⟩] ++
        [.unsubscribed (n + 1)], []⟩ := by
  have hsub : step takes ⟨holdingOne.atSeq n, journal, []⟩ (.subscribe "t" .live ⟨1, 8, .json⟩) =
      ⟨((holdingOne.atSeq n).subscribe "t" .live ⟨1, 8, .json⟩).1,
        journal ++ [.subscribed ⟨n + 1, "t", ⟨1, 8, .json⟩⟩], []⟩ := rfl
  rw [hsub]
  simp only [step, holdingOne_next hn]

/-- While subscription 1 stays, others come and go until the ids come around. -/
theorem serve_to_seq (k : Nat) (hk : k < 2 ^ 64) :
    ∃ ops journal, serve takes emptyBroker ops =
        ⟨holdingOne.atSeq (UInt64.ofNat (k + 1)), journal, []⟩ ∧
      account journal = ⟨[⟨1, "t", ⟨0, 7, .json⟩⟩], []⟩ := by
  induction k with
  | zero => exact ⟨[.subscribe "t" .live ⟨0, 7, .json⟩], _, rfl, rfl⟩
  | succ k ih =>
    obtain ⟨ops, journal, hserve, haccount⟩ := ih (by omega)
    have hn : UInt64.ofNat (k + 1) ≠ 0 := ofNat_succ_ne_zero hk
    rw [UInt64.ofNat_add (k + 1) 1]
    generalize UInt64.ofNat (k + 1) = n at hserve hn
    refine ⟨ops ++ [.subscribe "t" .live ⟨1, 8, .json⟩] ++ [.unsubscribe (n + 1)],
      journal ++ [.subscribed ⟨n + 1, "t", ⟨1, 8, .json⟩⟩] ++ [.unsubscribed (n + 1)], ?_, ?_⟩
    · rw [serve_concat, serve_concat, hserve]
      exact step_round takes hn
    · rw [account_concat, account_concat, haccount]
      simp [Account.note, (add_one_ne_one hn).symm]

/-- After 2^64 subscribes the next one is given the id of the first, which is still
subscribed. Dropping the sink of the second takes both off the list of "t", and the
first misses a message it is due. -/
theorem reused_id_loses_a_message :
    ∃ ops : List (BrokerOp MpscSink),
      (serve (fun _ _ _ => true) emptyBroker ops).calls = [] ∧
      (account (serve (fun _ _ _ => true) emptyBroker ops).journal).due =
        [(⟨0, 7, .json⟩,
          serializeFrameForFanout { topic := some "t", messageId := some "m" } 1)] := by
  obtain ⟨ops, journal, hserve, haccount⟩ :=
    serve_to_seq (fun _ _ _ => true) (2 ^ 64 - 1) (by omega)
  have hzero : UInt64.ofNat (2 ^ 64 - 1 + 1) = 0 := rfl
  rw [hzero] at hserve
  refine ⟨ops ++ [.subscribe "t" .live ⟨1, 9, .json⟩] ++ [.dropSink 9] ++
    [.publish 0 { topic := some "t", messageId := some "m" }], ?_, ?_⟩
  · rw [serve_concat, serve_concat, serve_concat, hserve]
    rfl
  · rw [serve_concat, serve_concat, serve_concat, hserve]
    have hjournal : (step (fun _ _ _ => true) (step (fun _ _ _ => true) (step (fun _ _ _ => true)
        ⟨holdingOne.atSeq 0, journal, []⟩ (.subscribe "t" .live ⟨1, 9, .json⟩)) (.dropSink 9))
        (.publish 0 { topic := some "t", messageId := some "m" })).journal =
        journal ++ [.subscribed ⟨1, "t", ⟨1, 9, .json⟩⟩] ++ [.dropped 9] ++
          [.published { topic := some "t", messageId := some "m" } ⟨1, false⟩] := rfl
    rw [hjournal, account_concat, account_concat, account_concat, haccount]
    rfl

end Wrap

end Delivery

end Rifts
