import Mathlib.Data.Finset.Card
import Rifts.Broker.Slots
import Rifts.Connection.Control

/-! The end of a connection: its subscriptions are removed, and no others. -/
namespace Rifts.Teardown

variable {O L D S : Type}

/-- One broker, and for every connection on it the sinks that connection registered. -/
structure Site (O L D S : Type) where
  broker : InMemoryBroker O L D S MpscSink
  subscriptionSinks : Nat → Finset UInt64

/-- A control frame is handled on a connection, or a connection is torn down. The set
of its sinks is drained in an order of its own. -/
inductive Event
  | control (conn : Nat) (input : ControlInput)
  | teardown (conn : Nat) (order : List UInt64)

/-- What the end of `Connection::run` does to the broker's subscriptions: the sink id
of the connection itself is dropped first, then those of its subscriptions. -/
def dropSinks (b : InMemoryBroker O L D S MpscSink) (sinkId : UInt64) (order : List UInt64) :
    InMemoryBroker O L D S MpscSink :=
  order.foldl (fun b sid => (b.dropSink sid).1) (b.dropSink sinkId).1

def step (J : SerdeJson) (codec : Nat → EncodingFormat) (sinkId : Nat → UInt64)
    (s : Site O L D S) : Event → Option (Site O L D S)
  | .control conn input =>
    match (handleControl J conn (codec conn) ⟨s.broker, s.subscriptionSinks conn⟩ input).1 with
    | ⟨broker, sinks⟩ => some ⟨broker, Function.update s.subscriptionSinks conn sinks⟩
  | .teardown conn order =>
    if order.Nodup ∧ order.toFinset = s.subscriptionSinks conn then
      some ⟨dropSinks s.broker (sinkId conn) order,
        Function.update s.subscriptionSinks conn ∅⟩
    else none

/-- The sink created for an event: a subscribe that can be parsed creates one. -/
def Event.sink (J : SerdeJson) : Event → Option (Nat × UInt64)
  | .control conn input =>
    match parseControl J input.frame with
    | .ok (.subscribe ..) => some (conn, input.sinkId)
    | _ => none
  | .teardown .. => none

/-- The sinks created in a history, each with its connection. -/
def created (J : SerdeJson) (history : List Event) : List (Nat × UInt64) :=
  history.filterMap (Event.sink J)

/-- Every live subscription is tracked by the connection that made it, and what a
connection tracks it created. -/
structure Sound (J : SerdeJson) (history : List Event) (s : Site O L D S) : Prop where
  tidy : ∃ n ≤ (created J history).length, s.broker.Tidy n
  tracked : ∀ id t sink, s.broker.fanout.byId id = some (t, sink) →
    sink.id ∈ s.subscriptionSinks sink.conn
  own : ∀ conn, ∀ k ∈ s.subscriptionSinks conn, (conn, k) ∈ created J history

variable {J : SerdeJson} {codec : Nat → EncodingFormat} {sinkId : Nat → UInt64}
  {history : List Event} {s s' : Site O L D S} {event : Event}
  {b : InMemoryBroker O L D S MpscSink} {t : String} {conn : Nat} {order : List UInt64}

theorem created_append (event : Event) :
    created J (history ++ [event]) = created J history ++ (event.sink J).toList := by
  cases h : event.sink J <;> simp [created, h]

theorem sound_initial (hfanout : b.fanout = .new) (hstore : ∀ t, b.store.subscribers t = 0) :
    Sound J [] (⟨b, fun _ => ∅⟩ : Site O L D S) where
  tidy := ⟨0, Nat.le_refl 0, InMemoryBroker.tidy_new hfanout hstore⟩
  tracked id t sink h := by
    rw [hfanout] at h
    cases h
  own conn k h := by cases h

/-- There are only so many sink ids, so distinct sinks are at most 2^64. -/
theorem length_created_le (h : ((created J history).map Prod.snd).Nodup) :
    (created J history).length ≤ 2 ^ 64 := by
  have hn : (((created J history).map Prod.snd).map UInt64.toNat).Nodup :=
    h.map fun _ _ => UInt64.toNat_inj.mp
  have hsub : (((created J history).map Prod.snd).map UInt64.toNat).toFinset ⊆
      Finset.range (2 ^ 64) := by
    intro m hm
    obtain ⟨k, -, rfl⟩ := List.mem_map.mp (List.mem_toFinset.mp hm)
    exact Finset.mem_range.mpr k.toNat_lt
  have hcard := Finset.card_le_card hsub
  rwa [List.toFinset_card_of_nodup hn, Finset.card_range, List.length_map,
    List.length_map] at hcard

/-- A sink id stands for one connection. -/
theorem conn_of_created {c c' : Nat} {k : UInt64}
    (hn : ((created J history).map Prod.snd).Nodup) (h : (c, k) ∈ created J history)
    (h' : (c', k) ∈ created J history) : c = c' :=
  (Prod.mk.inj (List.inj_on_of_nodup_map hn h h' rfl)).1

theorem Sound.weaken (h : Sound J history s) (event : Event) :
    Sound J (history ++ [event]) s where
  tidy := by
    obtain ⟨n, hn, ht⟩ := h.tidy
    refine ⟨n, ?_, ht⟩
    rw [created_append, List.length_append]
    omega
  tracked := h.tracked
  own c k hk := by
    rw [created_append]
    exact List.mem_append_left _ (h.own c k hk)

/-- An unsubscribe of any id, by whichever connection. -/
theorem Sound.unsubscribe (h : Sound J history s) (id : UInt64) :
    Sound J history ⟨(s.broker.unsubscribe id).1, s.subscriptionSinks⟩ where
  tidy := by
    obtain ⟨n, hn, ht⟩ := h.tidy
    exact ⟨n, hn, ht.unsubscribe id⟩
  tracked sid t sink hsid := by
    rw [InMemoryBroker.fanout_unsubscribe, FanoutEngine.byId_unsubscribe] at hsid
    split at hsid
    · cases hsid
    · exact h.tracked sid t sink hsid
  own := h.own

theorem mem_update_insert {sinks : Nat → Finset UInt64} {c : Nat} {k sid : UInt64} :
    k ∈ Function.update sinks conn (insert sid (sinks conn)) c ↔
      c = conn ∧ k = sid ∨ k ∈ sinks c := by
  by_cases hc : c = conn
  · subst hc
    simp
  · simp [hc]

theorem mem_update_empty {sinks : Nat → Finset UInt64} {c : Nat} {k : UInt64} :
    k ∈ Function.update sinks conn ∅ c ↔ c ≠ conn ∧ k ∈ sinks c := by
  by_cases hc : c = conn
  · subst hc
    simp
  · simp [hc]

/-- A subscription that is still there goes back to a sink its connection created. -/
theorem Sound.created_of_byId {id : UInt64} {sink : MpscSink} (h : Sound J history s)
    (hsub : s.broker.fanout.byId id = some (t, sink)) :
    (sink.conn, sink.id) ∈ created J history :=
  h.own sink.conn sink.id (h.tracked id t sink hsub)

/-- A subscribe: refused, or entered in the engine and among the sinks of its connection. -/
theorem Sound.subscribe {input : ControlInput} {topic : String} {intent : SubscribeIntent}
    (h : Sound J history s) (hp : parseControl J input.frame = .ok (.subscribe topic intent))
    (hn : ((created J (history ++ [.control conn input])).map Prod.snd).Nodup)
    (hs : step J codec sinkId s (.control conn input) = some s') :
    Sound J (history ++ [.control conn input]) s' := by
  have hnew : created J (history ++ [.control conn input]) =
      created J history ++ [(conn, input.sinkId)] := by
    rw [created_append, Event.sink, hp]
    rfl
  have hlen := length_created_le hn
  rw [hnew, List.length_append, List.length_singleton] at hlen
  obtain ⟨n, hle, ht⟩ := h.tidy
  obtain ⟨store, ⟨e, hsub⟩ | hsub⟩ :=
    s.broker.subscribe_cases topic intent ⟨conn, input.sinkId, codec conn⟩
  · have htidy := ht.refuse (congrArg (·.1.fanout) hsub)
    simp only [step, handleControl, hp, hsub, Function.update_eq_self, Option.some.injEq] at hs
    rw [hsub] at htidy
    subst hs
    refine ⟨⟨n, ?_, htidy⟩, h.tracked, (h.weaken _).own⟩
    rw [hnew, List.length_append]
    omega
  · have htidy := ht.enter (by omega) (congrArg (·.1.fanout) hsub)
    simp only [step, handleControl, hp, hsub, Option.some.injEq] at hs
    rw [hsub] at htidy
    subst hs
    refine ⟨⟨n + 1, ?_, htidy⟩, ?_, ?_⟩
    · rw [hnew, List.length_append, List.length_singleton]
      omega
    · intro id t sink hid
      refine mem_update_insert.mpr ?_
      rw [FanoutEngine.byId_subscribe] at hid
      split at hid
      · cases hid
        exact .inl ⟨rfl, rfl⟩
      · exact .inr (h.tracked id t sink hid)
    · intro c k hk
      obtain ⟨rfl, rfl⟩ | hold := mem_update_insert.mp hk
      · rw [hnew]
        exact List.mem_append_right _ (List.mem_singleton_self _)
      · exact (h.weaken _).own c k hold

theorem Sound.control {input : ControlInput} (h : Sound J history s)
    (hn : ((created J (history ++ [.control conn input])).map Prod.snd).Nodup)
    (hs : step J codec sinkId s (.control conn input) = some s') :
    Sound J (history ++ [.control conn input]) s' := by
  cases hp : parseControl J input.frame with
  | error e =>
    simp only [step, handleControl, hp, Function.update_eq_self, Option.some.injEq] at hs
    subst hs
    exact h.weaken _
  | ok request =>
    cases request with
    | ping | unknown =>
      simp only [step, handleControl, hp, Function.update_eq_self, Option.some.injEq] at hs
      subst hs
      exact h.weaken _
    | subscribe topic intent => exact h.subscribe hp hn hs
    | unsubscribe id =>
      simp only [step, handleControl, hp, Function.update_eq_self, Option.some.injEq] at hs
      subst hs
      exact (h.unsubscribe id).weaken _

theorem Tidy.dropSinks {n : Nat} (h : b.Tidy n) (k : UInt64) (order : List UInt64) :
    (dropSinks b k order).Tidy n :=
  List.foldlRecOn (motive := InMemoryBroker.Tidy n) _ _ (h.dropSink k) fun _ hb sid _ =>
    hb.dropSink sid

theorem subscribers_foldl_dropSink {n : Nat} (h : b.Tidy n) (sids : List UInt64) :
    (sids.foldl (fun b sid => (b.dropSink sid).1) b).fanout.subscribers t =
      (b.fanout.subscribers t).filter fun entry => entry.2.id ∉ sids := by
  induction sids generalizing b with
  | nil => simp
  | cons sid sids ih =>
    have hdrop : (b.dropSink sid).1.fanout = (b.fanout.dropSink sid).1 := rfl
    rw [List.foldl_cons, ih (h.dropSink sid), hdrop,
      FanoutEngine.subscribers_dropSink h.coherent, List.filter_filter]
    refine List.filter_congr ?_
    intro entry _
    simp [FanoutSink.id, Bool.and_comm]

/-- A connection is about to be torn down: the sinks of the history are distinct, none
has the id of the connection itself, and those it registered are listed. -/
structure Ending (J : SerdeJson) (history : List Event) (s : Site O L D S) (conn : Nat)
    (sinkId : UInt64) (order : List UInt64) : Prop where
  sound : Sound J history s
  distinct : ((created J history).map Prod.snd).Nodup
  other : sinkId ∉ (created J history).map Prod.snd
  listed : order.toFinset = s.subscriptionSinks conn

section

variable {k : UInt64} (h : Ending J history s conn k order)
include h

/-- The teardown takes the subscriptions of its connection off every list, and no others. -/
theorem Ending.subscribers (t : String) : (dropSinks s.broker k order).fanout.subscribers t =
    (s.broker.fanout.subscribers t).filter fun entry => entry.2.conn ≠ conn := by
  obtain ⟨n, -, ht⟩ := h.sound.tidy
  refine (subscribers_foldl_dropSink ht (k :: order)).trans (List.filter_congr ?_)
  intro entry hentry
  have hsub := (ht.coherent.topics.mem t entry).mp hentry
  have hcreated := h.sound.created_of_byId hsub
  have hown : entry.2.id ≠ k := by
    intro heq
    exact h.other (heq ▸ List.mem_map.mpr ⟨_, hcreated, rfl⟩)
  have hiff : entry.2.id ∈ order ↔ entry.2.conn = conn := by
    rw [← List.mem_toFinset, h.listed]
    constructor
    · intro hmem
      exact conn_of_created h.distinct hcreated (h.sound.own conn _ hmem)
    · intro hc
      exact hc ▸ h.sound.tracked entry.1 t entry.2 hsub
  simp [hown, hiff]

theorem Ending.byId (id : UInt64) (t : String) (sink : MpscSink) :
    (dropSinks s.broker k order).fanout.byId id = some (t, sink) ↔
      s.broker.fanout.byId id = some (t, sink) ∧ sink.conn ≠ conn := by
  obtain ⟨n, -, ht⟩ := h.sound.tidy
  have hbefore := ht.coherent.topics.mem t (id, sink)
  have hafter := (Tidy.dropSinks ht k order).coherent.topics.mem t (id, sink)
  have hlist : (id, sink) ∈ (dropSinks s.broker k order).fanout.subscribers t ↔
      (id, sink) ∈ s.broker.fanout.subscribers t ∧ sink.conn ≠ conn := by
    rw [h.subscribers t, List.mem_filter, decide_eq_true_iff]
  exact hafter.symm.trans (hlist.trans (and_congr_left fun _ => hbefore))

theorem Ending.bySink {sid : UInt64} (hsid : (conn, sid) ∈ created J history) :
    (dropSinks s.broker k order).fanout.bySink sid = none := by
  obtain ⟨n, -, ht⟩ := h.sound.tidy
  have hc := (Tidy.dropSinks ht k order).coherent
  refine hc.bySink_eq_none ?_
  intro id hmem
  obtain ⟨t, sink, hsub, rfl⟩ := (hc.sinks.mem sid id).mp hmem
  obtain ⟨hold, hne⟩ := (h.byId id t sink).mp hsub
  exact hne (conn_of_created h.distinct (h.sound.created_of_byId hold) hsid)

theorem Ending.held {sid : UInt64} (hsid : (conn, sid) ∉ created J history) (id : UInt64) :
    id ∈ (dropSinks s.broker k order).fanout.held sid ↔ id ∈ s.broker.fanout.held sid := by
  obtain ⟨n, -, ht⟩ := h.sound.tidy
  have hiff : (dropSinks s.broker k order).fanout.Holds sid id ↔ s.broker.fanout.Holds sid id := by
    refine exists_congr fun t => exists_congr fun sink => and_congr_left ?_
    rintro rfl
    refine (h.byId id t sink).trans (and_iff_left_of_imp ?_)
    rintro hold rfl
    exact hsid (h.sound.created_of_byId hold)
  have hafter := (Tidy.dropSinks ht k order).coherent.sinks.mem sid id
  exact (hafter.trans hiff).trans (ht.coherent.sinks.mem sid id).symm

theorem Ending.live {other : Nat} (hother : other ≠ conn) (t : String) :
    (dropSinks s.broker k order).live other t = s.broker.live other t := by
  rw [InMemoryBroker.live, h.subscribers t, List.filter_filter, InMemoryBroker.live]
  refine List.filter_congr ?_
  intro entry _
  by_cases hc : entry.2.conn = other <;> simp [hc, hother]

/-- What is gone from a list is what the connection had on it. -/
theorem Ending.subscriberCount (t : String) :
    (dropSinks s.broker k order).subscriberCount t + (s.broker.live conn t).length =
      s.broker.subscriberCount t := by
  have hsplit := List.length_eq_length_filter_add (l := s.broker.fanout.subscribers t)
    fun entry => entry.2.conn == conn
  have hrest : (s.broker.fanout.subscribers t).filter (fun entry => !(entry.2.conn == conn)) =
      (dropSinks s.broker k order).fanout.subscribers t := by
    rw [h.subscribers t]
    refine List.filter_congr ?_
    intro entry _
    by_cases hc : entry.2.conn = conn <;> simp [hc]
  rw [InMemoryBroker.subscriberCount, InMemoryBroker.subscriberCount, hsplit, hrest,
    InMemoryBroker.live, Nat.add_comm]

theorem Ending.slots (t : String) :
    (dropSinks s.broker k order).store.subscribers t + (s.broker.live conn t).length =
      s.broker.store.subscribers t := by
  obtain ⟨n, -, ht⟩ := h.sound.tidy
  rw [ht.counted t, (Tidy.dropSinks ht k order).counted t]
  exact h.subscriberCount t

theorem Ending.sound_after :
    Sound J history
      ⟨dropSinks s.broker k order, Function.update s.subscriptionSinks conn ∅⟩ where
  tidy := by
    obtain ⟨n, hle, ht⟩ := h.sound.tidy
    exact ⟨n, hle, Tidy.dropSinks ht k order⟩
  tracked id t sink hsub := by
    obtain ⟨hold, hc⟩ := (h.byId id t sink).mp hsub
    exact mem_update_empty.mpr ⟨hc, h.sound.tracked id t sink hold⟩
  own c sid hsid := h.sound.own c sid (mem_update_empty.mp hsid).2

end

theorem teardown_ok (hs : step J codec sinkId s (.teardown conn order) = some s') :
    order.toFinset = s.subscriptionSinks conn ∧
      s' = ⟨dropSinks s.broker (sinkId conn) order,
        Function.update s.subscriptionSinks conn ∅⟩ := by
  simp only [step] at hs
  split at hs
  · next horder => exact ⟨horder.2, (Option.some.inj hs).symm⟩
  · cases hs

/-- The sinks a connection registered can be listed, so it can be torn down. -/
theorem exists_teardown (s : Site O L D S) (conn : Nat) :
    ∃ order s', step J codec sinkId s (.teardown conn order) = some s' :=
  ⟨(s.subscriptionSinks conn).toList, _, if_pos ⟨Finset.nodup_toList _, Finset.toList_toFinset _⟩⟩

theorem created_mono (as bs : List Event) : (created J as).map Prod.snd <+:
    (created J (as ++ bs)).map Prod.snd := by
  rw [created, created, List.filterMap_append, List.map_append]
  exact List.prefix_append _ _

theorem sound_step (h : Sound J history s)
    (hn : ((created J (history ++ [event])).map Prod.snd).Nodup)
    (hid : ∀ conn, sinkId conn ∉ (created J (history ++ [event])).map Prod.snd)
    (hs : step J codec sinkId s event = some s') : Sound J (history ++ [event]) s' := by
  cases event with
  | control conn input => exact h.control hn hs
  | teardown conn order =>
    obtain ⟨hlisted, rfl⟩ := teardown_ok hs
    have hmono := created_mono (J := J) history [.teardown conn order]
    have hending : Ending J history s conn (sinkId conn) order :=
      ⟨h, hn.sublist hmono.sublist, fun hmem => hid conn (hmono.subset hmem), hlisted⟩
    exact hending.sound_after.weaken _

theorem sound_run {events : List Event} (h : Sound J history s)
    (hn : ((created J (history ++ events)).map Prod.snd).Nodup)
    (hid : ∀ conn, sinkId conn ∉ (created J (history ++ events)).map Prod.snd)
    (hr : Transition.run (step J codec sinkId) s events = some s') :
    Sound J (history ++ events) s' := by
  induction events generalizing history s with
  | nil =>
    cases hr
    rwa [List.append_nil]
  | cons event events ih =>
    obtain ⟨s₁, hs, hr⟩ := Transition.run_cons_iff.mp hr
    rw [List.append_cons] at hn hid ⊢
    refine ih (sound_step h (hn.sublist (created_mono _ _).sublist) ?_ hs) hn hid hr
    intro conn hmem
    exact hid conn ((created_mono _ _).subset hmem)

/-- Whatever control frames are handled on whatever connections, and whichever of them
end in between: when a connection is torn down, no index of the engine has a sink of
its making left, the subscriptions of the others stay as they are, and every topic
gets back as many slots as the connection had subscriptions on it. -/
theorem teardown_removes_exactly_own (J : SerdeJson) (codec : Nat → EncodingFormat)
    (sinkId : Nat → UInt64) (b : InMemoryBroker O L D S MpscSink) (hfanout : b.fanout = .new)
    (hstore : ∀ t, b.store.subscribers t = 0) (history : List Event)
    (hdistinct : ((created J history).map Prod.snd).Nodup)
    (hid : ∀ conn, sinkId conn ∉ (created J history).map Prod.snd) (s s' : Site O L D S)
    (hrun : Transition.run (step J codec sinkId) ⟨b, fun _ => ∅⟩ history = some s) (conn : Nat)
    (order : List UInt64) (hdown : step J codec sinkId s (.teardown conn order) = some s') :
    (∀ t, ∀ entry ∈ s'.broker.fanout.subscribers t, entry.2.conn ≠ conn) ∧
    (∀ id t sink, s'.broker.fanout.byId id = some (t, sink) → sink.conn ≠ conn) ∧
    (∀ k, (conn, k) ∈ created J history → s'.broker.fanout.bySink k = none) ∧
    (∀ other, other ≠ conn → ∀ t, s'.broker.live other t = s.broker.live other t) ∧
    (∀ id t sink, sink.conn ≠ conn → (s'.broker.fanout.byId id = some (t, sink) ↔
      s.broker.fanout.byId id = some (t, sink))) ∧
    (∀ k, (conn, k) ∉ created J history → ∀ id, id ∈ s'.broker.fanout.held k ↔
      id ∈ s.broker.fanout.held k) ∧
    ∀ t, s'.broker.store.subscribers t + (s.broker.live conn t).length =
        s.broker.store.subscribers t ∧
      s'.broker.subscriberCount t + (s.broker.live conn t).length =
        s.broker.subscriberCount t := by
  obtain ⟨hlisted, rfl⟩ := teardown_ok hdown
  have hs : Sound J history s := sound_run (sound_initial hfanout hstore) hdistinct hid hrun
  have h : Ending J history s conn (sinkId conn) order := ⟨hs, hdistinct, hid conn, hlisted⟩
  refine ⟨?_, ?_, fun _ => h.bySink, fun _ => h.live, ?_, fun _ => h.held, ?_⟩
  · intro t entry hentry
    rw [h.subscribers t] at hentry
    exact of_decide_eq_true (List.mem_filter.mp hentry).2
  · intro id t sink hsub
    exact ((h.byId id t sink).mp hsub).2
  · intro id t sink hc
    exact (h.byId id t sink).trans (and_iff_left hc)
  · intro t
    exact ⟨h.slots t, h.subscriberCount t⟩

def roomReader : SerdeJson := .reading [Control.subscribeRoom, Control.unsubscribeFirst]

def roomInput (body : Json) (sinkId : UInt64) (room : Bool) : ControlInput :=
  ⟨{ frameType := .control, payload := some (roomReader.toVec body) }, sinkId, room⟩

/-- Connection 1 subscribes twice, the first time with no room for the reply; connection
2 subscribes and cancels connection 1's first subscription; a frame is not readable. -/
def twoInARoom : List Event :=
  [.control 1 (roomInput Control.subscribeRoom 11 false),
    .control 2 (roomInput Control.subscribeRoom 12 true),
    .control 1 (roomInput Control.subscribeRoom 13 true),
    .control 2 (roomInput Control.unsubscribeFirst 0 true), .control 1 (roomInput .null 0 true)]

theorem one_of_two_leaves_the_room :
    ∃ s s' : Site MemoryOffsetStore MemoryLogStore MemoryDedupeStore MemorySnapshotStore,
      Transition.run (step roomReader (fun _ => .json) fun _ => 1) ⟨emptyBroker, fun _ => ∅⟩
        twoInARoom = some s ∧
      step roomReader (fun _ => .json) (fun _ => 1) s (.teardown 1 [13, 11]) = some s' ∧
      s.broker.live 1 "room/1" = [(3, ⟨1, 13, .json⟩)] ∧
      s.broker.live 2 "room/1" = [(2, ⟨2, 12, .json⟩)] ∧
      s'.broker.live 2 "room/1" = s.broker.live 2 "room/1" ∧
      s'.broker.store.subscribers "room/1" + 1 = s.broker.store.subscribers "room/1" := by
  obtain ⟨s, hrun, hone, htwo, hsinks⟩ :
      ∃ s : Site MemoryOffsetStore MemoryLogStore MemoryDedupeStore MemorySnapshotStore,
        Transition.run (step roomReader (fun _ => .json) fun _ => 1) ⟨emptyBroker, fun _ => ∅⟩
          twoInARoom = some s ∧
        s.broker.live 1 "room/1" = [(3, ⟨1, 13, .json⟩)] ∧
        s.broker.live 2 "room/1" = [(2, ⟨2, 12, .json⟩)] ∧ s.subscriptionSinks 1 = {13, 11} := by
    decide +kernel
  have hdown : step roomReader (fun _ => .json) (fun _ => 1) s (.teardown 1 [13, 11]) = some _ :=
    if_pos (by rw [hsinks]; decide)
  obtain ⟨-, -, -, hlive, -, -, hslots⟩ := teardown_removes_exactly_own roomReader
    (fun _ => .json) (fun _ => 1) emptyBroker rfl (fun _ => rfl) twoInARoom (by decide +kernel)
    (by intro conn; decide +kernel) s _ hrun 1 [13, 11] hdown
  have hslot := (hslots "room/1").1
  rw [hone] at hslot
  exact ⟨s, _, hrun, hdown, hone, htwo, hlive 2 (by decide) "room/1", hslot⟩

end Rifts.Teardown
