import Rifts.Broker.Delivery
import Rifts.Connection.Outbound
import Rifts.Connection.Reader
import Rifts.Connection.Teardown
import Rifts.Transport.WebSocket

/-! A server and its connections, from the messages that peers send on their sockets to those that
are written to them. Frames are handled one at a time, and the writers run at any time. -/
namespace Rifts

namespace Outbound

/-- `deliver` of a sink from its call to its return, and whether it went well. -/
def offer (s : Outbound) (maxBytes : UInt64) (o : Offer) : Outbound × Bool :=
  if overBudget maxBytes s.inFlightBytes o then (s, false)
  else
    match s.channel.trySend (sinkFrame o) with
    | .ok channel => ({ s with inFlightBytes := s.inFlightBytes + o.len, channel }, true)
    | .error _ => (s, false)

/-- The channel takes one more frame. -/
def room (s : Outbound) : Bool := s.channel.receiver && decide (s.channel.queue.length < 1024)

def send (s : Outbound) (f : Frame) : Outbound :=
  match s.channel.trySend f with
  | .ok channel => { s with channel }
  | .error _ => s

/-- The writer task is in its loop. -/
def writerRuns (s : Outbound) : Bool :=
  match s.writer with
  | .receiving | .writing _ => true
  | .exiting _ | .zeroed | .done => false

/-- The frames that the writer task still has to write. -/
def unwritten (s : Outbound) : List Frame :=
  match s.writer with
  | .writing f => f :: s.channel.queue
  | .receiving | .exiting _ | .zeroed | .done => s.channel.queue

/-- The operations of the writer task. -/
def Act.ofWriter : Act → Bool
  | .recv | .recvNone | .wrote | .writeFailed | .writeTimedOut | .zero | .dropReceiver => true
  | .deliver _ | .reserve .. | .trySend _ | .rollback .. | .reply _ | .dropSenders => false

variable {s s' : Outbound} {m : UInt64} {o : Offer} {f : Frame} {a : Act}

/-- A frame that enters the channel comes after the others. -/
theorem unwritten_enter (hq : s'.channel.queue = s.channel.queue ++ [f])
    (hw : s'.writer = s.writer) : s'.unwritten = s.unwritten ++ [f] := by
  simp only [unwritten, hq, hw]
  cases s.writer <;> rfl

theorem send_cases (s : Outbound) (f : Frame) :
    s.send f = s ∨ ∃ channel, s.channel.trySend f = .ok channel ∧
      s.send f = { s with channel } := by
  unfold send
  split
  · next channel hsend => exact .inr ⟨channel, hsend, rfl⟩
  · exact .inl rfl

/-- All that a call of `deliver` can do. -/
theorem offer_cases (s : Outbound) (m : UInt64) (o : Offer) :
    s.offer m o = (s, false) ∨ ∃ channel, s.channel.trySend (sinkFrame o) = .ok channel ∧
      s.offer m o = ({ s with inFlightBytes := s.inFlightBytes + o.len, channel }, true) := by
  unfold offer
  split
  · exact .inl rfl
  · split
    · next channel hsend => exact .inr ⟨channel, hsend, rfl⟩
    · exact .inl rfl

/-- The call is made of the atomic operations of a delivery. -/
theorem run_offer (m : UInt64) (o : Offer) (hs : s.senders = true) (hd : s.deliveries = []) :
    ∃ acts, Transition.run (step m) s acts = some (s.offer m o).1 := by
  obtain ⟨bytes, channel, writer, deliveries, senders⟩ := s
  cases hs
  cases hd
  by_cases hover : overBudget m bytes o
  · refine ⟨[.deliver o], ?_⟩
    simp [Transition.run, step, attempt, offer, hover]
  · have hreserve : Transition.run (step m) ⟨bytes, channel, writer, [], true⟩
        [.deliver o, .reserve o bytes false] =
          some ⟨bytes + o.len, channel, writer, [.reserved o], true⟩ := by
      simp [Transition.run, step, attempt, hover, swaps]
    cases hsend : channel.trySend (sinkFrame o) with
    | ok channel' =>
      refine ⟨[.deliver o, .reserve o bytes false] ++ [.trySend o], ?_⟩
      rw [Transition.run_append hreserve]
      simp [Transition.run, step, take, offer, hover, hsend]
    | error e =>
      refine ⟨[.deliver o, .reserve o bytes false] ++ [.trySend o, .rollback o e], ?_⟩
      rw [Transition.run_append hreserve]
      simp [Transition.run, step, take, offer, hover, hsend]

end Outbound

/-- A connection after its handshake: what its peer still has to send, whether its reader runs,
whether the transport is in its slot, what it has registered with the broker, its outbound side,
and the frames that were written to its socket. -/
structure Hub.Conn where
  inbound : WsStream
  reading : Bool := true
  slot : Bool := true
  subscriptionSinks : Finset UInt64 := ∅
  publishedTopics : Finset String := ∅
  outbound : Outbound := .initial
  written : List Frame := []

/-- What the connections were set up with. -/
structure Hub.Config where
  json : SerdeJson
  codec : Nat → EncodingFormat
  session : Nat → String
  sinkId : Nat → UInt64
  maxBytes : UInt64

/-- The clock readings and the ids that the handling of a frame draws. -/
structure Hub.Moment where
  readAt : Int64
  publishAt : Int64
  sinkId : UInt64
  ackId : String
  ackAt : Int64

/-- The broker, the acks that are tracked and the connections. The journal has what the broker did,
and `calls` the calls of sinks with what they answered. -/
structure Hub (O L D S : Type) where
  broker : InMemoryBroker O L D S MpscSink
  outstanding : String → String → Option Int64
  conns : Nat → Hub.Conn
  journal : List (Delivery.Event MpscSink)
  calls : List (Delivery.Call MpscSink)

namespace Hub

open Transition

variable {O L D S : Type}

def start (b : InMemoryBroker O L D S MpscSink) (streams : Nat → WsStream) : Hub O L D S :=
  ⟨b, fun _ _ => none, fun c => { inbound := streams c }, [], []⟩

def setConn (h : Hub O L D S) (c : Nat) (conn : Conn) : Hub O L D S :=
  { h with conns := Function.update h.conns c conn }

/-- One call of a sink, in the loop of `FanoutEngine::deliver`. -/
def hand (k : Config) (h : Hub O L D S) (x : MpscSink × Bytes) : Hub O L D S :=
  match (h.conns x.1.conn).outbound.offer k.maxBytes ⟨x.1.codec, x.2⟩ with
  | (outbound, took) =>
    { h.setConn x.1.conn { h.conns x.1.conn with outbound } with
      calls := h.calls ++ [⟨x.1, x.2, took⟩] }

/-- What the reader of a connection works on. -/
def reader (h : Hub O L D S) (c : Nat) : ReaderState O L D S :=
  ⟨⟨h.broker, (h.conns c).subscriptionSinks⟩, (h.conns c).publishedTopics, h.outstanding⟩

section

variable [OffsetStore O] [LogStore L] [DedupeStore D] [SnapshotStore S]

/-- What the broker does on account of a frame. -/
def noted (k : Config) (b : InMemoryBroker O L D S MpscSink) (c : Nat) (f : Frame)
    (x : Moment) : List (Delivery.Event MpscSink) :=
  match f.frameType with
  | .data =>
    if f.expired x.readAt then []
    else
      match (b.publish x.publishAt f).2.1 with
      | .ok outcome => [.published f outcome]
      | .error _ => [.refused]
  | .control =>
    match parseControl k.json f with
    | .ok (.subscribe topic intent) =>
      match (b.subscribe topic intent ⟨c, x.sinkId, k.codec c⟩).2 with
      | .ok id => [.subscribed ⟨id, topic, ⟨c, x.sinkId, k.codec c⟩⟩]
      | .error _ => [.refused]
    | .ok (.unsubscribe id) => [.unsubscribed id]
    | _ => []
  | .ack | .flow | .error => []

def dispatch (k : Config) (h : Hub O L D S) (c : Nat) (f : Frame) (x : Moment) (room : Bool) :
    Dispatched O L D S :=
  dispatchReceived k.json c (k.codec c) (k.session c) (h.reader c)
    ⟨f, x.readAt, x.publishAt, x.sinkId, x.ackId, x.ackAt, room, room⟩

/-- The body of the loop of `reader_task`, with the sinks it calls and the reply it sends. -/
def turn (k : Config) (h : Hub O L D S) (c : Nat) (f : Frame) (x : Moment) : Hub O L D S :=
  -- `publish` calls the sinks before there is a reply, so these may take its room
  let handed := (h.dispatch k c f x true).offers.foldl (hand k) h
  let conn := handed.conns c
  let done := h.dispatch k c f x conn.outbound.room
  { broker := done.state.control.broker
    outstanding := done.state.outstanding
    conns := Function.update handed.conns c
      { conn with
        subscriptionSinks := done.state.control.subscriptionSinks
        publishedTopics := done.state.publishedTopics
        outbound := done.queued.foldl Outbound.send conn.outbound }
    journal := h.journal ++ noted k h.broker c f x
    calls := handed.calls }

/-- A reader takes its turn or has waited too long, a writer takes a step, or a connection whose
reader has ended is torn down; its sinks and topics are drained in orders of their own. -/
inductive Act
  | read (c : Nat) (x : Moment)
  | idle (c : Nat)
  | write (c : Nat) (a : Outbound.Act)
  | teardown (c : Nat) (order : List UInt64) (topics : List String)

/-- What a step of the writer does besides: a frame is on the socket, or the slot is cleared. -/
def afterWrite (conn : Conn) (outbound : Outbound) : Outbound.Act → Conn
  | .wrote =>
    match conn.outbound.writer with
    | .writing f => { conn with outbound, written := conn.written ++ [f] }
    | _ => { conn with outbound }
  | .writeFailed | .writeTimedOut => { conn with outbound, slot := false }
  | _ => { conn with outbound }

def step (k : Config) (h : Hub O L D S) : Act → Option (Hub O L D S)
  | .read c x =>
    let conn := h.conns c
    if conn.reading then
      if conn.slot then
        match WebSocketConnection.readFrame k.json conn.inbound with
        | (.ok f, rest) => some ((h.setConn c { conn with inbound := rest }).turn k c f x)
        | (.error _, rest) => some (h.setConn c { conn with inbound := rest, reading := false })
      else some (h.setConn c { conn with reading := false })
    else none
  | .idle c =>
    let conn := h.conns c
    if conn.reading then some (h.setConn c { conn with reading := false }) else none
  | .write c a =>
    let conn := h.conns c
    -- without the transport every write fails
    if a.ofWriter && (conn.slot || a != .wrote) then
      (conn.outbound.step k.maxBytes a).map fun outbound =>
        h.setConn c (afterWrite conn outbound a)
    else none
  | .teardown c order topics =>
    let conn := h.conns c
    if conn.reading = false ∧ conn.outbound.senders ∧
        order.Nodup ∧ order.toFinset = conn.subscriptionSinks ∧
        topics.Nodup ∧ topics.toFinset = conn.publishedTopics then
      some
        { broker := topics.foldl InMemoryBroker.decPublisher
            (Teardown.dropSinks h.broker (k.sinkId c) order)
          outstanding := Function.update h.outstanding (k.session c) fun _ => none
          conns := Function.update h.conns c
            { conn with
              slot := false
              subscriptionSinks := ∅
              publishedTopics := ∅
              outbound := { conn.outbound with senders := false } }
          journal := h.journal ++ (k.sinkId c :: order).map .dropped
          calls := h.calls }
    else none

end

/-- The frames that the sinks of a connection took. -/
def taken (h : Hub O L D S) (c : Nat) : List Frame :=
  (h.calls.filter fun x => x.took && x.sink.conn == c).map fun x =>
    sinkFrame ⟨x.sink.codec, x.frame⟩

/-- The data frames among some. -/
def dataFrames (fs : List Frame) : List Frame := fs.filter fun f => f.frameType = .data

@[simp] theorem dataFrames_append (fs gs : List Frame) :
    dataFrames (fs ++ gs) = dataFrames fs ++ dataFrames gs :=
  List.filter_append ..

theorem dataFrames_reply {f : Frame} (h : f.frameType ≠ .data) : dataFrames [f] = [] := by
  simp [dataFrames, h]

/-- The data frames of a connection: those on its socket are the first ones that its sinks took, and
while its writer runs the others are still to be written. Until its teardown the outbound side is in
a state that the operations on it lead to. -/
structure Flows (m : UInt64) (conn : Conn) (taken : List Frame) : Prop where
  first : dataFrames conn.written <+: taken
  all : conn.outbound.writerRuns = true →
    dataFrames (conn.written ++ conn.outbound.unwritten) = taken
  idle : conn.outbound.deliveries = []
  reached : conn.outbound.senders = true →
    ∃ acts, run (Outbound.step m) .initial acts = some conn.outbound

variable {m : UInt64} {conn conn' : Conn} {frames : List Frame} {f : Frame}

/-- The rest of a connection plays no part. -/
theorem Flows.congr (h : Flows m conn frames) (hout : conn'.outbound = conn.outbound)
    (hwritten : conn'.written = conn.written) : Flows m conn' frames := by
  obtain ⟨first, all, idle, reached⟩ := h
  refine ⟨?_, ?_, ?_, ?_⟩
  · rwa [hwritten]
  · rwa [hwritten, hout]
  · rwa [hout]
  · rwa [hout]

/-- A call of a sink. -/
theorem Flows.offer (h : Flows m conn frames) (o : Offer) :
    Flows m { conn with outbound := (conn.outbound.offer m o).1 }
      (frames ++ if (conn.outbound.offer m o).2 then [sinkFrame o] else []) := by
  have hreached : conn.outbound.senders = true → ∃ acts,
      run (Outbound.step m) .initial acts = some (conn.outbound.offer m o).1 := by
    intro hs
    obtain ⟨acts, hacts⟩ := h.reached hs
    obtain ⟨more, hmore⟩ := Outbound.run_offer m o hs h.idle
    exact ⟨acts ++ more, (run_append hacts).trans hmore⟩
  rcases Outbound.offer_cases conn.outbound m o with heq | ⟨channel, hsend, heq⟩
  · simp only [heq, Bool.false_eq_true, if_false, List.append_nil]
    exact h
  · rw [heq] at hreached ⊢
    have hqueue := Channel.Bounded.queue_of_trySend hsend
    refine ⟨h.first.trans (List.prefix_append _ _), ?_, h.idle, hreached⟩
    intro hruns
    have henter : Outbound.unwritten
        { conn.outbound with inFlightBytes := conn.outbound.inFlightBytes + o.len, channel } =
        conn.outbound.unwritten ++ [sinkFrame o] := Outbound.unwritten_enter hqueue rfl
    rw [henter, ← List.append_assoc, dataFrames_append, h.all hruns]
    rfl

/-- A reply. -/
theorem Flows.send (h : Flows m conn frames) (hf : f.frameType ≠ .data) :
    Flows m { conn with outbound := conn.outbound.send f } frames := by
  rcases Outbound.send_cases conn.outbound f with heq | ⟨channel, hsend, heq⟩
  · rw [heq]
    exact h
  · have henter : Outbound.unwritten { conn.outbound with channel } =
        conn.outbound.unwritten ++ [f] :=
      Outbound.unwritten_enter (Channel.Bounded.queue_of_trySend hsend) rfl
    rw [heq]
    refine ⟨h.first, fun hruns => ?_, h.idle, fun hs => ?_⟩
    · rw [henter, ← List.append_assoc, dataFrames_append, dataFrames_reply hf, List.append_nil]
      exact h.all hruns
    · obtain ⟨acts, hacts⟩ := h.reached hs
      refine ⟨acts ++ [.reply f], (run_append hacts).trans (run_cons_iff.mpr ⟨_, ?_, rfl⟩)⟩
      have hsenders : conn.outbound.senders = true := hs
      simp [Outbound.step, hsenders, hf, hsend]

theorem Flows.sendAll {replies : List Frame} (hreplies : ∀ f ∈ replies, f.frameType ≠ .data)
    (h : Flows m conn frames) :
    Flows m { conn with outbound := replies.foldl Outbound.send conn.outbound } frames := by
  induction replies generalizing conn with
  | nil => exact h
  | cons f replies ih =>
    obtain ⟨hf, hrest⟩ := List.forall_mem_cons.mp hreplies
    exact ih hrest (h.send hf)

/-- An operation of the writer task. -/
theorem Flows.write {a : Outbound.Act} {out : Outbound} (h : Flows m conn frames)
    (hw : a.ofWriter = true) (ha : conn.outbound.step m a = some out) :
    Flows m (afterWrite conn out a) frames := by
  have hreached : conn.outbound.senders = true →
      ∃ acts, run (Outbound.step m) .initial acts = some out := by
    intro hs
    obtain ⟨acts, hacts⟩ := h.reached hs
    exact ⟨acts ++ [a], (run_append hacts).trans (run_cons_iff.mpr ⟨out, ha, rfl⟩)⟩
  cases a with
  | recv =>
    simp only [Outbound.step] at ha
    split at ha
    · next g channel hwriter hrecv =>
      cases ha
      refine ⟨h.first, fun _ => ?_, h.idle, hreached⟩
      have hqueue := Channel.Bounded.queue_of_recv hrecv
      have hall := h.all (by simp [Outbound.writerRuns, hwriter])
      simpa [afterWrite, Outbound.unwritten, hwriter, hqueue] using hall
    · cases ha
  | wrote =>
    simp only [Outbound.step] at ha
    split at ha
    · next g hwriter =>
      cases ha
      have hall := h.all (by simp [Outbound.writerRuns, hwriter])
      have hwritten : dataFrames (conn.written ++ [g] ++ conn.outbound.channel.queue) = frames := by
        simpa [Outbound.unwritten, hwriter] using hall
      simp only [afterWrite, hwriter]
      refine ⟨?_, fun _ => hwritten, h.idle, hreached⟩
      rw [← hwritten, dataFrames_append (conn.written ++ [g])]
      exact List.prefix_append _ _
    · cases ha
  | recvNone | writeFailed | writeTimedOut | zero | dropReceiver =>
    simp only [Outbound.step] at ha
    split at ha
    · cases ha
      exact ⟨h.first, fun hruns => absurd hruns Bool.false_ne_true, h.idle, hreached⟩
    · cases ha
  | deliver | reserve | trySend | rollback | reply | dropSenders => cases hw

variable {k : Config} {h h' : Hub O L D S} {c : Nat} {x : MpscSink × Bytes}

/-- What holds of every connection. -/
def AllFlow (k : Config) (h : Hub O L D S) : Prop :=
  ∀ c, Flows k.maxBytes (h.conns c) (h.taken c)

theorem taken_hand (h : Hub O L D S) (x : MpscSink × Bytes) (c : Nat) :
    (h.hand k x).taken c = h.taken c ++
      if ((h.conns x.1.conn).outbound.offer k.maxBytes ⟨x.1.codec, x.2⟩).2 && x.1.conn == c then
        [sinkFrame ⟨x.1.codec, x.2⟩] else [] := by
  rw [taken, hand, List.filter_append, List.map_append]
  refine congrArg _ ?_
  cases ((h.conns x.1.conn).outbound.offer k.maxBytes ⟨x.1.codec, x.2⟩).2 <;>
    cases hc : x.1.conn == c <;> simp [hc]

theorem allFlow_hand (hf : AllFlow k h) : AllFlow k (h.hand k x) := by
  intro c
  rw [taken_hand]
  by_cases hc : c = x.1.conn
  · subst hc
    have hoffer := (hf x.1.conn).offer ⟨x.1.codec, x.2⟩
    simpa [hand, setConn] using hoffer
  · have hne : (x.1.conn == c) = false := by simpa using Ne.symm hc
    simp only [hand, setConn, Function.update_of_ne hc, hne, Bool.and_false, Bool.false_eq_true,
      if_false, List.append_nil]
    exact hf c

theorem allFlow_handAll {offers : List (MpscSink × Bytes)} (hf : AllFlow k h) :
    AllFlow k (offers.foldl (hand k) h) := by
  induction offers generalizing h with
  | nil => exact hf
  | cons x offers ih => exact ih (allFlow_hand hf)

/-- A step of one connection that calls no sink. -/
theorem allFlow_of_conn (hf : AllFlow k h) (hconns : h'.conns = Function.update h.conns c conn)
    (hcalls : h'.calls = h.calls)
    (hconn : Flows k.maxBytes (h.conns c) (h.taken c) → Flows k.maxBytes conn (h.taken c)) :
    AllFlow k h' := by
  intro i
  have htaken : h'.taken i = h.taken i := by rw [taken, hcalls, taken]
  rw [htaken, hconns]
  by_cases hi : i = c
  · subst hi
    rw [Function.update_self]
    exact hconn (hf i)
  · rw [Function.update_of_ne hi]
    exact hf i

/-- The calls of sinks that the deliveries of a publish make. -/
theorem calls_handAll (k : Config) (offers : List (MpscSink × Bytes)) (h : Hub O L D S) :
    (offers.foldl (hand k) h).calls.map Delivery.Call.offer =
      h.calls.map Delivery.Call.offer ++ offers := by
  induction offers generalizing h with
  | nil => simp
  | cons x offers ih =>
    rw [List.foldl_cons, ih]
    simp [hand, Delivery.Call.offer]

section Turn

variable [OffsetStore O] [LogStore L] [DedupeStore D] [SnapshotStore S] {x : Moment}

theorem onDataFrame_queued {J : SerdeJson} {codec : EncodingFormat} {s : ReaderState O L D S}
    {y : Received} {g : Frame} (hg : g ∈ (onDataFrame J codec s y).queued) :
    g.frameType = .ack := by
  have hack {a : Ack} (hmem : g ∈ if y.frame.requiresAck = true then
      (trySendReply y.room (ackFrame J codec a)).1 else []) : g.frameType = .ack := by
    split at hmem
    · rw [eq_of_mem_trySendReply hmem]
      rfl
    · cases hmem
  simp only [onDataFrame] at hg
  split at hg
  · cases hg
  · split at hg <;> exact hack hg

/-- No reply is a data frame. -/
theorem frameType_of_queued {g : Frame} {room : Bool} (hg : g ∈ (h.dispatch k c f x room).queued) :
    g.frameType ≠ .data := by
  simp only [dispatch, dispatchReceived] at hg
  split at hg
  · split at hg
    · next hcontrol =>
      have hreply := Control.reply_is_control (by rw [hcontrol]; exact hg)
      rw [hreply]
      decide
    · next hcontrol =>
      rcases List.mem_append.mp hg with hreply | herror
      · have hreply := Control.reply_is_control (by rw [hcontrol]; exact hreply)
        rw [hreply]
        decide
      · rw [eq_of_mem_trySendReply herror]
        exact fun herr => by cases herr
  · rw [onDataFrame_queued hg]
    decide
  all_goals cases hg

/-- What a turn of a reader does to the broker, whether or not there is room for its reply: the
sinks are offered a message that is published, and nothing otherwise. -/
inductive Serves (k : Config) (b : InMemoryBroker O L D S MpscSink) (c : Nat) (f : Frame)
    (x : Moment) : InMemoryBroker O L D S MpscSink → List (Delivery.Event MpscSink) →
      List (MpscSink × Bytes) → Prop
  | publish {b' : InMemoryBroker O L D S MpscSink} {outcome : PublishOutcome}
      {offers : List (MpscSink × Bytes)} (h : b.publish x.publishAt f = (b', .ok outcome, offers)) :
      Serves k b c f x b' [.published f outcome] offers
  | refuse {b' : InMemoryBroker O L D S MpscSink} {e : RiftError}
      {offers : List (MpscSink × Bytes)} (h : b.publish x.publishAt f = (b', .error e, offers)) :
      Serves k b c f x b' [.refused] offers
  | subscribe {b' : InMemoryBroker O L D S MpscSink} {id : UInt64} (topic : String)
      (intent : SubscribeIntent)
      (h : b.subscribe topic intent ⟨c, x.sinkId, k.codec c⟩ = (b', .ok id)) :
      Serves k b c f x b' [.subscribed ⟨id, topic, ⟨c, x.sinkId, k.codec c⟩⟩] []
  | turnAway {b' : InMemoryBroker O L D S MpscSink} {e : RiftError} (topic : String)
      (intent : SubscribeIntent)
      (h : b.subscribe topic intent ⟨c, x.sinkId, k.codec c⟩ = (b', .error e)) :
      Serves k b c f x b' [.refused] []
  | unsubscribe (id : UInt64) : Serves k b c f x (b.unsubscribe id).1 [.unsubscribed id] []
  | nothing : Serves k b c f x b [] []

theorem serves_dispatch (k : Config) (h : Hub O L D S) (c : Nat) (f : Frame) (x : Moment) :
    ∃ b offers, Serves k h.broker c f x b (noted k h.broker c f x) offers ∧
      ∀ room, (h.dispatch k c f x room).state.control.broker = b ∧
        (h.dispatch k c f x room).offers = offers := by
  cases htype : f.frameType with
  | data =>
    simp only [noted, dispatch, dispatchReceived, htype, onDataFrame, reader]
    split
    · exact ⟨h.broker, [], .nothing, fun _ => ⟨rfl, rfl⟩⟩
    · rcases hp : h.broker.publish x.publishAt f with ⟨b, e | outcome, offers⟩
      · exact ⟨b, offers, .refuse hp, fun _ => ⟨rfl, rfl⟩⟩
      · exact ⟨b, offers, .publish hp, fun _ => ⟨rfl, rfl⟩⟩
  | control =>
    have hoffers (room : Bool) : (h.dispatch k c f x room).offers = [] := by
      simp only [dispatch, dispatchReceived, htype]
      split <;> rfl
    have hbroker (room : Bool) : (h.dispatch k c f x room).state.control.broker =
        (handleControl k.json c (k.codec c) (h.reader c).control ⟨f, x.sinkId, room⟩).1.broker := by
      simp only [dispatch, dispatchReceived, htype]
      split <;> next hc => rw [hc]
    simp only [hoffers, hbroker, noted, htype, handleControl, reader]
    cases parseControl k.json f with
    | error e => exact ⟨h.broker, [], .nothing, fun _ => ⟨rfl, rfl⟩⟩
    | ok request =>
      cases request with
      | ping | unknown => exact ⟨h.broker, [], .nothing, fun _ => ⟨rfl, rfl⟩⟩
      | unsubscribe id => exact ⟨_, [], .unsubscribe id, fun _ => ⟨rfl, rfl⟩⟩
      | subscribe topic intent =>
        dsimp only
        rcases hsub : h.broker.subscribe topic intent ⟨c, x.sinkId, k.codec c⟩ with ⟨b, e | id⟩
        · exact ⟨b, [], .turnAway topic intent hsub, fun _ => ⟨rfl, rfl⟩⟩
        · exact ⟨b, [], .subscribe topic intent hsub, fun _ => ⟨rfl, rfl⟩⟩
  | ack | flow | error =>
    simp only [noted, dispatch, dispatchReceived, htype, reader]
    exact ⟨h.broker, [], .nothing, fun _ => ⟨rfl, rfl⟩⟩

omit [OffsetStore O] [LogStore L] [DedupeStore D] [SnapshotStore S] in
/-- What sinks answer plays no part in the account, nor do more ids that might have been drawn. -/
theorem tracks_congr {b b' : InMemoryBroker O L D S MpscSink}
    {journal : List (Delivery.Event MpscSink)} {calls calls' : List (Delivery.Call MpscSink)}
    {n n' : Nat} (ht : Delivery.Tracks n ⟨b, journal, calls⟩) (hfanout : b'.fanout = b.fanout)
    (hcalls : calls'.map Delivery.Call.offer = calls.map Delivery.Call.offer) (hn : n ≤ n') :
    Delivery.Tracks n' ⟨b', journal, calls'⟩ := by
  obtain ⟨coherent, ⟨m, hm, drawn⟩, live, due⟩ := ht
  refine ⟨?_, ⟨m, hm.trans hn, ?_⟩, ?_, hcalls.trans due⟩
  · rwa [hfanout]
  · rwa [hfanout]
  · rwa [hfanout]

/-- The account that is kept of the broker stays right. -/
theorem Serves.tracks {b b' : InMemoryBroker O L D S MpscSink}
    {noted : List (Delivery.Event MpscSink)} {offers : List (MpscSink × Bytes)}
    {journal : List (Delivery.Event MpscSink)} {calls calls' : List (Delivery.Call MpscSink)}
    {n : Nat} (hserves : Serves k b c f x b' noted offers)
    (hcalls : calls'.map Delivery.Call.offer = calls.map Delivery.Call.offer ++ offers)
    (hn : n + noted.length ≤ 2 ^ 64) (ht : Delivery.Tracks n ⟨b, journal, calls⟩) :
    Delivery.Tracks (n + noted.length) ⟨b', journal ++ noted, calls'⟩ := by
  let takes : List (Delivery.Call MpscSink) → MpscSink → Bytes → Bool := fun _ _ _ => true
  cases hserves with
  | publish hp | refuse hp =>
    have hstep := Delivery.tracks_publish takes ht x.publishAt f
    simp only [Delivery.step, hp] at hstep
    refine tracks_congr hstep rfl ?_ (Nat.le_add_right _ _)
    rw [hcalls, Delivery.offers_callAll]
  | subscribe topic intent hsub | turnAway topic intent hsub =>
    have hstep := Delivery.tracks_subscribe takes ht (Nat.lt_of_succ_le hn) topic intent
      ⟨c, x.sinkId, k.codec c⟩
    simp only [Delivery.step, hsub] at hstep
    exact tracks_congr hstep rfl (hcalls.trans (List.append_nil _)) (Nat.le_refl _)
  | unsubscribe id =>
    exact tracks_congr (Delivery.tracks_unsubscribe takes ht id) rfl
      (hcalls.trans (List.append_nil _)) (Nat.le_add_right _ _)
  | nothing =>
    rw [List.append_nil]
    exact tracks_congr ht rfl (hcalls.trans (List.append_nil _)) (Nat.le_refl _)

/-- The sinks that are dropped are off the account. -/
theorem tracks_dropAll {b : InMemoryBroker O L D S MpscSink}
    {journal : List (Delivery.Event MpscSink)} {calls : List (Delivery.Call MpscSink)} {n : Nat}
    (ids : List UInt64) (ht : Delivery.Tracks n ⟨b, journal, calls⟩) :
    Delivery.Tracks n ⟨ids.foldl (fun b sid => (b.dropSink sid).1) b,
      journal ++ ids.map .dropped, calls⟩ := by
  induction ids generalizing b journal with
  | nil =>
    rw [List.map_nil, List.append_nil]
    exact ht
  | cons id ids ih =>
    have hrest := ih (Delivery.tracks_dropSink (fun _ _ _ => true) ht id)
    rwa [List.append_assoc] at hrest

omit [OffsetStore O] [LogStore L] [DedupeStore D] [SnapshotStore S] in
theorem decPublishers_keep (topics : List String) (b : InMemoryBroker O L D S MpscSink) :
    (topics.foldl InMemoryBroker.decPublisher b).fanout = b.fanout ∧
      (topics.foldl InMemoryBroker.decPublisher b).maxPayloadBytes = b.maxPayloadBytes := by
  induction topics generalizing b with
  | nil => exact ⟨rfl, rfl⟩
  | cons topic topics ih =>
    obtain ⟨hfanout, hmax⟩ := ih (b.decPublisher topic)
    rw [List.foldl_cons, hfanout, hmax]
    unfold InMemoryBroker.decPublisher
    split <;> exact ⟨rfl, rfl⟩

omit [OffsetStore O] [LogStore L] [DedupeStore D] [SnapshotStore S] in
theorem maxPayloadBytes_dropSinks (b : InMemoryBroker O L D S MpscSink) (sinkId : UInt64)
    (order : List UInt64) :
    (Teardown.dropSinks b sinkId order).maxPayloadBytes = b.maxPayloadBytes := by
  have hdrop (b : InMemoryBroker O L D S MpscSink) : (order.foldl
      (fun b sid => (b.dropSink sid).1) b).maxPayloadBytes = b.maxPayloadBytes := by
    induction order generalizing b with
    | nil => rfl
    | cons sid order ih => exact ih _
  exact hdrop _

omit [OffsetStore O] [LogStore L] [DedupeStore D] [SnapshotStore S] in
theorem payloadLen_of_target {b : InMemoryBroker O L D S MpscSink} {now : Int64} {t : String}
    (h : b.target now f = some t) : f.payloadLen ≤ b.maxPayloadBytes := by
  by_contra hlarge
  have hlt : b.maxPayloadBytes < f.payloadLen := Nat.lt_of_not_le hlarge
  unfold InMemoryBroker.target InMemoryBroker.validatePublish at h
  cases ht : f.topic with
  | none => simp [ht] at h
  | some topic =>
    cases hm : f.messageId with
    | none => simp [ht, hm] at h
    | some id => simp [ht, hm, hlt] at h

theorem maxPayloadBytes_publish (b : InMemoryBroker O L D S MpscSink) (now : Int64) (f : Frame) :
    (b.publish now f).1.maxPayloadBytes = b.maxPayloadBytes := by
  obtain ⟨store, -, ⟨e, hp⟩ | ⟨t, messageId, b', outcome, offers, -, hr, hp⟩⟩ :=
    InMemoryBroker.publish_cases b now f
  · rw [hp]
  · rw [hp]
    cases hr
    rfl

omit [OffsetStore O] [LogStore L] [DedupeStore D] [SnapshotStore S] in
theorem maxPayloadBytes_subscribe (b : InMemoryBroker O L D S MpscSink) (topic : String)
    (intent : SubscribeIntent) (sink : MpscSink) :
    (b.subscribe topic intent sink).1.maxPayloadBytes = b.maxPayloadBytes := by
  obtain ⟨store, ⟨e, hr⟩ | hr⟩ := InMemoryBroker.subscribe_cases b topic intent sink <;> rw [hr]

/-- A message is offered with twelve bytes before its payload. -/
theorem Serves.sized {b b' : InMemoryBroker O L D S MpscSink}
    {noted : List (Delivery.Event MpscSink)} {offers : List (MpscSink × Bytes)}
    (h : Serves k b c f x b' noted offers) : b'.maxPayloadBytes = b.maxPayloadBytes ∧
      ∀ o ∈ offers, o.2.length ≤ b.maxPayloadBytes + 12 := by
  have hmax := maxPayloadBytes_publish b x.publishAt f
  cases h with
  | publish hp =>
    rw [hp] at hmax
    refine ⟨hmax, fun o ho => ?_⟩
    obtain ⟨⟨t, ht⟩, hbytes⟩ := InMemoryBroker.publish_ok hp
    have hsize : (f.payload.getD []).length ≤ b.maxPayloadBytes := by
      have hlen := payloadLen_of_target ht
      rw [Frame.payloadLen] at hlen
      cases hf : f.payload with
      | none => exact Nat.zero_le _
      | some payload => simpa [hf] using hlen
    rw [hbytes o ho]
    simp only [serializeFrameForFanout, List.length_append, List.length_cons, List.length_nil,
      BigEndian.length_toBytes]
    omega
  | refuse hp =>
    rw [hp] at hmax
    obtain ⟨store, -, ⟨e, hr⟩ | ⟨t, messageId, b', outcome, offers, -, -, hr⟩⟩ :=
      InMemoryBroker.publish_cases b x.publishAt f
    · cases hr.symm.trans hp
      exact ⟨hmax, fun o ho => by cases ho⟩
    · cases hr.symm.trans hp
  | subscribe topic intent hsub | turnAway topic intent hsub =>
    have hsame := maxPayloadBytes_subscribe b topic intent ⟨c, x.sinkId, k.codec c⟩
    rw [hsub] at hsame
    exact ⟨hsame, fun o ho => by cases ho⟩
  | unsubscribe id =>
    refine ⟨?_, fun o ho => by cases ho⟩
    unfold InMemoryBroker.unsubscribe
    split <;> rfl
  | nothing => exact ⟨rfl, fun o ho => by cases ho⟩

/-- What holds in every state: the connections, the account of the broker as long as the ids of
subscriptions do not come around, and the size of what is offered. -/
structure Sound (max : Nat) (k : Config) (h : Hub O L D S) : Prop where
  flows : AllFlow k h
  tracks : h.journal.length ≤ 2 ^ 64 →
    Delivery.Tracks h.journal.length ⟨h.broker, h.journal, h.calls⟩
  limit : h.broker.maxPayloadBytes = max
  sized : ∀ o ∈ h.calls.map Delivery.Call.offer, o.2.length ≤ max + 12

variable {max : Nat}

omit [OffsetStore O] [LogStore L] [DedupeStore D] [SnapshotStore S] in
/-- One connection changes, and the broker is not called. -/
theorem Sound.setConn (hs : Sound max k h)
    (hconn : Flows k.maxBytes (h.conns c) (h.taken c) → Flows k.maxBytes conn (h.taken c)) :
    Sound max k (h.setConn c conn) :=
  ⟨allFlow_of_conn hs.flows rfl rfl hconn, hs.tracks, hs.limit, hs.sized⟩

theorem Sound.turn (hs : Sound max k h) (c : Nat) (f : Frame) (x : Moment) :
    Sound max k (h.turn k c f x) := by
  obtain ⟨b, offers, hserves, hroom⟩ := serves_dispatch k h c f x
  have hhanded : AllFlow k ((h.dispatch k c f x true).offers.foldl (hand k) h) :=
    allFlow_handAll hs.flows
  have hbroker : (h.turn k c f x).broker = b := (hroom _).1
  have hjournal : (h.turn k c f x).journal = h.journal ++ noted k h.broker c f x := rfl
  have hcalls : (h.turn k c f x).calls.map Delivery.Call.offer =
      h.calls.map Delivery.Call.offer ++ offers := by
    rw [← (hroom true).2]
    exact calls_handAll k _ h
  obtain ⟨hlimit, hsized⟩ := hserves.sized
  refine ⟨allFlow_of_conn hhanded rfl rfl ?_, ?_, ?_, ?_⟩
  · intro hflow
    exact (hflow.sendAll fun g hg => frameType_of_queued hg).congr rfl rfl
  · intro hlen
    rw [hjournal, List.length_append] at hlen ⊢
    rw [hbroker]
    exact hserves.tracks hcalls hlen (hs.tracks (Nat.le_of_add_right_le hlen))
  · rw [hbroker, hlimit, hs.limit]
  · intro o ho
    have hmem : o ∈ h.calls.map Delivery.Call.offer ++ offers := hcalls ▸ ho
    rcases List.mem_append.mp hmem with hold | hnew
    · exact hs.sized o hold
    · exact hs.limit ▸ hsized o hnew

/-- All that a turn of a reader can do: it ends, or it handles a frame. -/
theorem read_cases (h₁ : step k h (.read c x) = some h') : ∃ conn,
    conn.outbound = (h.conns c).outbound ∧ conn.written = (h.conns c).written ∧
      (h' = h.setConn c conn ∨ ∃ f, h' = (h.setConn c conn).turn k c f x) := by
  simp only [step] at h₁
  split at h₁
  · split at h₁
    · rcases hread : WebSocketConnection.readFrame k.json (h.conns c).inbound with ⟨e | f, rest⟩
      · rw [hread] at h₁
        exact ⟨{ h.conns c with inbound := rest, reading := false }, rfl, rfl,
          .inl (Option.some.inj h₁).symm⟩
      · rw [hread] at h₁
        exact ⟨{ h.conns c with inbound := rest }, rfl, rfl, .inr ⟨f, (Option.some.inj h₁).symm⟩⟩
    · exact ⟨{ h.conns c with reading := false }, rfl, rfl, .inl (Option.some.inj h₁).symm⟩
  · cases h₁

theorem idle_cases (h₁ : step k h (.idle c) = some h') :
    h' = h.setConn c { h.conns c with reading := false } := by
  simp only [step] at h₁
  split at h₁
  · exact (Option.some.inj h₁).symm
  · cases h₁

theorem write_cases {a : Outbound.Act} (h₁ : step k h (.write c a) = some h') : ∃ out,
    a.ofWriter = true ∧ (h.conns c).outbound.step k.maxBytes a = some out ∧
      h' = h.setConn c (afterWrite (h.conns c) out a) := by
  simp only [step] at h₁
  split at h₁
  · next hguard =>
    obtain ⟨out, hout, heq⟩ := Option.map_eq_some_iff.mp h₁
    exact ⟨out, (Bool.and_eq_true_iff.mp hguard).1, hout, heq.symm⟩
  · cases h₁

theorem teardown_cases {order : List UInt64} {topics : List String}
    (h₁ : step k h (.teardown c order topics) = some h') : ∃ conn,
    h'.conns = Function.update h.conns c conn ∧ conn.written = (h.conns c).written ∧
      conn.outbound = { (h.conns c).outbound with senders := false } ∧ h'.calls = h.calls ∧
      h'.journal = h.journal ++ (k.sinkId c :: order).map .dropped ∧
      h'.broker = topics.foldl InMemoryBroker.decPublisher
        (Teardown.dropSinks h.broker (k.sinkId c) order) := by
  simp only [step] at h₁
  split at h₁
  · obtain rfl := Option.some.inj h₁
    exact ⟨_, rfl, rfl, rfl, rfl, rfl, rfl⟩
  · cases h₁

theorem Sound.teardown {order : List UInt64} {topics : List String}
    (h₁ : step k h (.teardown c order topics) = some h') (hs : Sound max k h) :
    Sound max k h' := by
  obtain ⟨conn, hconns, hwritten, hout, hcalls, hjournal, hbroker⟩ := teardown_cases h₁
  obtain ⟨hfanout, hmax⟩ := decPublishers_keep topics
    (Teardown.dropSinks h.broker (k.sinkId c) order)
  refine ⟨allFlow_of_conn hs.flows hconns hcalls fun hflow => ?_, ?_, ?_, ?_⟩
  · obtain ⟨first, all, idle, -⟩ := hflow
    refine ⟨?_, ?_, ?_, ?_⟩
    · rwa [hwritten]
    · rwa [hwritten, hout]
    · rwa [hout]
    · rw [hout]
      exact fun hsenders => absurd hsenders Bool.false_ne_true
  · intro hlen
    have hle : h.journal.length ≤ h'.journal.length := by
      rw [hjournal, List.length_append]
      exact Nat.le_add_right _ _
    have hdropped := tracks_dropAll (k.sinkId c :: order) (hs.tracks (hle.trans hlen))
    rw [hcalls]
    rw [hjournal] at hle ⊢
    exact tracks_congr hdropped (hbroker ▸ hfanout) rfl hle
  · rw [hbroker, hmax, maxPayloadBytes_dropSinks]
    exact hs.limit
  · rw [hcalls]
    exact hs.sized

/-- A step keeps all of it. -/
theorem sound_step {a : Act} (h₁ : step k h a = some h') (hs : Sound max k h) : Sound max k h' := by
  cases a with
  | read c x =>
    obtain ⟨conn, hout, hwritten, rfl | ⟨f, rfl⟩⟩ := read_cases h₁
    · exact hs.setConn fun hflow => hflow.congr hout hwritten
    · have hset : Sound max k (h.setConn c conn) :=
        hs.setConn fun hflow => hflow.congr hout hwritten
      exact hset.turn c f x
  | idle c =>
    rw [idle_cases h₁]
    exact hs.setConn fun hflow => hflow.congr rfl rfl
  | write c a =>
    obtain ⟨out, hwriter, hout, rfl⟩ := write_cases h₁
    exact hs.setConn fun hflow => hflow.write hwriter hout
  | teardown c order topics => exact Sound.teardown h₁ hs

end Turn

/-- The frames that the subscriptions of a connection are due. -/
def due (h : Hub O L D S) (c : Nat) : List Frame :=
  ((Delivery.account h.journal).due.filter fun o => o.1.conn == c).map fun o =>
    sinkFrame ⟨o.1.codec, o.2⟩

end Hub

end Rifts
