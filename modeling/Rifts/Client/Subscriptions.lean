import Mathlib.Data.String.Basic
import Rifts.Client.Lifecycle
import Rifts.Connection.Teardown
import Rifts.Data.SortedMap

/-! The subscriptions that a client tracks, and those that the server holds for it. -/
namespace Rifts

def modeStr : SubscribeIntent → String
  | .live => "live"
  | .replay _ => "replay"
  | .snapshotThenLive => "snapshot_then_live"
  | .latest => "latest"
  | .passive => "passive"
  | .ephemeral => "ephemeral"

def subscribeBody (topic mode : String) (fromOffset : Option Int64) : Json :=
  .object [("type", .string "subscribe"), ("topic", .string topic), ("mode", .string mode),
    ("from_offset", (fromOffset.map Json.ofI64).getD .null), ("filter", .null)]

def unsubscribeBody (topic : String) : Json :=
  .object [("type", .string "unsubscribe"), ("topic", .string topic)]

def subscribeFrame (J : SerdeJson) (now : Int64) (id : UInt64) (topic mode : String)
    (fromOffset : Option Int64) : Frame :=
  controlFrame J now id (subscribeBody topic mode fromOffset)

def unsubscribeFrame (J : SerdeJson) (now : Int64) (id : UInt64) (topic : String) : Frame :=
  controlFrame J now id (unsubscribeBody topic)

/-- The topics with their modes; a replay's offset is not among what is kept. -/
abbrev SubscriptionTracker := SortedMap String SubscribeIntent

abbrev SubscriptionTracker.add (m : SubscriptionTracker) (topic : String)
    (mode : SubscribeIntent) : SubscriptionTracker := m.put topic mode

abbrev SubscriptionTracker.remove (m : SubscriptionTracker) (topic : String) :
    SubscriptionTracker := m.delete topic

/-- What a caller of `subscribe` asks for: a replay starts at the offset given with it. -/
def requestedIntent : SubscribeIntent → Option Int64 → SubscribeIntent
  | .replay _, some first => .replay first
  | mode, _ => mode

/-- A client and the server it is connected to. Beside what these keep there is their
history: the intent last requested for each topic, the events at the server, and the
intent that the broker was given for each subscription. -/
structure Link (O L D S : Type) where
  tracker : SubscriptionTracker
  conn : Nat
  site : Teardown.Site O L D S
  requested : String → SubscribeIntent
  events : List Teardown.Event
  intents : UInt64 → Option SubscribeIntent

namespace Link

open Transition Teardown

variable {O L D S : Type}

/-- The time and the id a frame is built with, and at the server the sink id drawn for
it and whether the channel has room for the reply. -/
structure Passage where
  now : Int64
  frameId : UInt64
  sinkId : UInt64
  room : Bool

/-- The calls of the client. A reconnect goes through the tracked topics in an order of
its own. The server notices the end of an earlier connection at some time. -/
inductive Call
  | subscribe (topic : String) (mode : SubscribeIntent) (fromOffset : Option Int64) (x : Passage)
  | unsubscribe (topic : String) (x : Passage)
  | reconnect (order : List ((String × SubscribeIntent) × Passage))
  | teardown (conn : Nat) (order : List UInt64)

def Call.bodies : Call → List Json
  | .subscribe topic mode fromOffset _ => [subscribeBody topic (modeStr mode) fromOffset]
  | .unsubscribe topic _ => [unsubscribeBody topic]
  | .reconnect order => order.map fun e => subscribeBody e.1.1 (modeStr e.1.2) none
  | .teardown .. => []

/-- A client that has just connected for the first time. -/
def start (conn : Nat) (site : Site O L D S) (events : List Teardown.Event) : Link O L D S :=
  ⟨.empty, conn, site, fun _ => .live, events, fun _ => none⟩

/-- What `subscribe` notes before it sends. -/
def track (s : Link O L D S) (topic : String) (mode : SubscribeIntent)
    (fromOffset : Option Int64) : Link O L D S :=
  { s with
    tracker := s.tracker.add topic mode
    requested := Function.update s.requested topic (requestedIntent mode fromOffset) }

/-- The subscription that the broker enters for an event, and the intent it is given. -/
def granted (J : SerdeJson) (codec : Nat → EncodingFormat) (site : Site O L D S) :
    Teardown.Event → Option (UInt64 × SubscribeIntent)
  | .control conn input =>
    match parseControl J input.frame with
    | .ok (.subscribe topic intent) =>
      match (site.broker.subscribe topic intent ⟨conn, input.sinkId, codec conn⟩).2 with
      | .ok id => some (id, intent)
      | .error _ => none
    | _ => none
  | .teardown .. => none

section

variable (J : SerdeJson) (codec : Nat → EncodingFormat) (sinkId : Nat → UInt64) (max : Nat)

def attend (s : Link O L D S) (event : Teardown.Event) : Option (Link O L D S) :=
  (Teardown.step J codec sinkId s.site event).map fun site =>
    { s with
      site
      events := s.events ++ [event]
      intents := (granted J codec s.site event).elim s.intents fun g =>
        Function.update s.intents g.1 (some g.2) }

/-- A frame on the current connection. The server refuses one over its limit unread. -/
def send (s : Link O L D S) (f : Frame) (x : Passage) : Option (Link O L D S) :=
  match decodeBinaryFrame (encodeFrame f) max with
  | .ok frame => s.attend J codec sinkId (.control s.conn ⟨frame, x.sinkId, x.room⟩)
  | .error _ => none

def sendSubscribe (s : Link O L D S) (topic : String) (mode : SubscribeIntent)
    (fromOffset : Option Int64) (x : Passage) : Option (Link O L D S) :=
  s.send J codec sinkId max (subscribeFrame J x.now x.frameId topic (modeStr mode) fromOffset) x

/-- A tracked topic is subscribed anew. -/
def resubscribe (s : Link O L D S) (e : (String × SubscribeIntent) × Passage) :
    Option (Link O L D S) :=
  s.sendSubscribe J codec sinkId max e.1.1 e.1.2 none e.2

def step (s : Link O L D S) : Call → Option (Link O L D S)
  | .subscribe topic mode fromOffset x =>
    (s.track topic mode fromOffset).sendSubscribe J codec sinkId max topic mode fromOffset x
  | .unsubscribe topic x =>
    { s with tracker := s.tracker.remove topic : Link O L D S }.send J codec sinkId max
      (unsubscribeFrame J x.now x.frameId topic) x
  | .reconnect order =>
    if (order.map Prod.fst).Perm s.tracker.entries then
      run (resubscribe J codec sinkId max) { s with conn := s.conn + 1 } order
    else none
  | .teardown conn order =>
    if conn < s.conn then s.attend J codec sinkId (.teardown conn order) else none

/-- The topic has a slot left, and the sink id has not been drawn before. -/
def Room (s : Link O L D S) (topic : String) (x : Passage) : Prop :=
  s.site.broker.store.subscribers topic <
      (s.site.broker.store.profileOf s.site.broker.defaultProfile topic).maxSubscribers.toNat ∧
    x.sinkId ∉ (created J s.events).map Prod.snd

instance (s : Link O L D S) (topic : String) (x : Passage) : Decidable (s.Room J topic x) :=
  inferInstanceAs (Decidable (_ ∧ _))

/-- The frames of a call find the broker below its limits, and all sink ids are distinct. -/
def Served (s : Link O L D S) : Call → Prop
  | .subscribe topic _ _ x => s.Room J topic x
  | .unsubscribe .. => True
  | .reconnect order => Guarded (resubscribe J codec sinkId max) (fun s e => s.Room J e.1.1 e.2)
      { s with conn := s.conn + 1 } order
  | .teardown conn _ => sinkId conn ∉ (created J s.events).map Prod.snd

instance (s : Link O L D S) (call : Call) : Decidable (s.Served J codec sinkId max call) :=
  match call with
  | .subscribe topic _ _ x => inferInstanceAs (Decidable (s.Room J topic x))
  | .unsubscribe .. => .isTrue trivial
  | .reconnect _ => inferInstanceAs (Decidable (Guarded _ _ _ _))
  | .teardown _ _ => inferInstanceAs (Decidable (_ ∉ _))

end

/-- The server has one subscription of the client for the topic, with the intent that the
client last requested. -/
def Held (s : Link O L D S) (topic : String) : Prop :=
  ∃ id sink, s.site.broker.live s.conn topic = [(id, sink)] ∧
    s.intents id = some (s.requested topic)

/-- The server holds what the client tracks, and nothing else. -/
def Agrees (s : Link O L D S) : Prop :=
  ∀ topic, if (s.tracker.get topic).isSome then s.Held topic
    else s.site.broker.live s.conn topic = []

/-- The call asks for what comes out of it: a live subscription for a topic that is not
tracked, under a name that the broker takes, or the end of none. -/
def plain (s : Link O L D S) : Call → Prop
  | .subscribe topic mode _ _ =>
    mode = .live ∧ validateName topic = .ok () ∧ s.tracker.get topic = none
  | .unsubscribe topic _ => s.tracker.get topic = none
  | .reconnect _ | .teardown .. => True

instance (s : Link O L D S) (call : Call) : Decidable (s.plain call) :=
  match call with
  | .subscribe .. => inferInstanceAs (Decidable (_ ∧ _ ∧ _))
  | .unsubscribe topic _ => inferInstanceAs (Decidable (s.tracker.get topic = none))
  | .reconnect _ => .isTrue trivial
  | .teardown .. => .isTrue trivial

end Link

/-- What `serde_json` is documented to do with a body: its text is UTF-8 and is read
back. The text is no longer than the header of a frame can say. -/
structure SerdeJson.Legible (J : SerdeJson) (v : Json) : Prop where
  reads : J.fromSlice (J.toVec v) = .ok v
  utf8 : ByteArray.validateUTF8 ⟨(J.toVec v).toArray⟩ = true
  fits : (J.toVec v).length < 2 ^ 32

section

variable {J : SerdeJson} {now : Int64} {id : UInt64} {max : Nat} {f : Frame}

theorem SerdeJson.Legible.fromSlice_controlText {v : Json} (h : J.Legible v)
    (hd : decodeBinaryFrame (encodeFrame (controlFrame J now id v)) max = .ok f) :
    J.fromSlice (controlText f) = .ok v := by
  have hpayload : (controlFrame J now id v).payload.getD [] = J.toVec v := rfl
  rw [decodeBinaryFrame_encodeFrame, hpayload, Nat.mod_eq_of_lt h.fits, List.take_length] at hd
  split at hd
  · cases hd
  · cases hd
    simp only [controlText, Frame.overWire, h.utf8, if_true]
    exact h.reads

/-- The server looks for an intent that no subscribe of a client has, so it is `Live`. -/
theorem parseControl_subscribeFrame {topic mode : String} {fromOffset : Option Int64}
    (h : J.Legible (subscribeBody topic mode fromOffset))
    (hd : decodeBinaryFrame (encodeFrame (subscribeFrame J now id topic mode fromOffset)) max =
      .ok f) : parseControl J f = .ok (.subscribe topic .live) := by
  simp only [parseControl, h.fromSlice_controlText hd]
  rfl

/-- The server looks for a subscription id that no unsubscribe of a client has. -/
theorem parseControl_unsubscribeFrame {topic : String} (h : J.Legible (unsubscribeBody topic))
    (hd : decodeBinaryFrame (encodeFrame (unsubscribeFrame J now id topic)) max = .ok f) :
    parseControl J f = .error (.frame (.requiredFieldMissing "subscription_id")) := by
  simp only [parseControl, h.fromSlice_controlText hd]
  rfl

end

theorem requestedIntent_eq_live_iff {mode : SubscribeIntent} {fromOffset : Option Int64} :
    requestedIntent mode fromOffset = .live ↔ mode = .live := by
  cases mode <;> cases fromOffset <;> simp [requestedIntent]

namespace Link

open Transition Teardown

variable {O L D S : Type} {J : SerdeJson} {codec : Nat → EncodingFormat} {sinkId : Nat → UInt64}
  {max : Nat} {s s' : Link O L D S} {topic : String} {x : Passage}

/-- A subscribe frame for a topic was handled. What it added to the subscriptions of the
connection is one with the intent `Live`, or nothing under a bad name. -/
structure Subscribed (s s' : Link O L D S) (topic : String) (added : List (UInt64 × MpscSink)) :
    Prop where
  tracker : s'.tracker = s.tracker
  conn : s'.conn = s.conn
  requested : s'.requested = s.requested
  live : ∀ c t, s'.site.broker.live c t = s.site.broker.live c t ++
    if c = s.conn ∧ t = topic then added else []
  added : validateName topic = .ok () ∧
      (∃ id sink, added = [(id, sink)] ∧ s'.intents id = some .live) ∨
    validateName topic ≠ .ok () ∧ added = []
  intents : ∀ id, s'.intents id = s.intents id ∨ s'.intents id = some .live

/-- What holds whatever the client asks for. Connections after the current one have no
subscriptions yet, the names of its topics are good, and every intent is `Live`. -/
structure Settled (J : SerdeJson) (s : Link O L D S) : Prop where
  sound : Sound J s.events s.site
  distinct : ((created J s.events).map Prod.snd).Nodup
  later : ∀ c, s.conn < c → ∀ t, s.site.broker.live c t = []
  named : ∀ t, s.site.broker.live s.conn t ≠ [] → validateName t = .ok ()
  intents : ∀ id i, s.intents id = some i → i = .live

theorem exists_event_of_send {f : Frame} (h : s.send J codec sinkId max f x = some s') :
    ∃ frame, decodeBinaryFrame (encodeFrame f) max = .ok frame ∧
      s.attend J codec sinkId (.control s.conn ⟨frame, x.sinkId, x.room⟩) = some s' := by
  unfold send at h
  split at h
  · next frame hd => exact ⟨frame, hd, h⟩
  · cases h

theorem exists_site_of_attend {event : Teardown.Event}
    (h : s.attend J codec sinkId event = some s') :
    ∃ site, Teardown.step J codec sinkId s.site event = some site ∧
      s' = { s with
        site
        events := s.events ++ [event]
        intents := (granted J codec s.site event).elim s.intents fun g =>
          Function.update s.intents g.1 (some g.2) } := by
  obtain ⟨site, hsite, rfl⟩ := Option.map_eq_some_iff.mp h
  exact ⟨site, hsite, rfl⟩

theorem subscribed_of_attend {frame : Frame} (hr : s.Room J topic x)
    (hp : parseControl J frame = .ok (.subscribe topic .live))
    (h : s.attend J codec sinkId (.control s.conn ⟨frame, x.sinkId, x.room⟩) = some s') :
    ∃ added, Subscribed s s' topic added := by
  obtain ⟨site, hsite, rfl⟩ := exists_site_of_attend h
  cases hname : validateName topic with
  | error e =>
    have hsub : s.site.broker.subscribe topic .live ⟨s.conn, x.sinkId, codec s.conn⟩ =
        (s.site.broker, .error e) := InMemoryBroker.subscribe_of_bad_name hname
    simp only [Teardown.step, handleControl, hp, hsub, Function.update_eq_self,
      Option.some.injEq] at hsite
    subst hsite
    refine ⟨[], rfl, rfl, rfl, ?_, .inr ⟨by simp [hname], rfl⟩, ?_⟩
    · simp
    · simp [granted, hp, hsub]
  | ok u =>
    obtain ⟨store, hsub⟩ := InMemoryBroker.subscribe_of_slot hname hr.1 .live
      (⟨s.conn, x.sinkId, codec s.conn⟩ : MpscSink)
    simp only [Teardown.step, handleControl, hp, hsub, Option.some.injEq] at hsite
    subst hsite
    refine ⟨[(s.site.broker.fanout.seq + 1, ⟨s.conn, x.sinkId, codec s.conn⟩)], rfl, rfl, rfl,
      fun c t => ?_, .inl ⟨hname, _, _, rfl, ?_⟩, fun id => ?_⟩
    · exact s.site.broker.live_enter store topic .live _ c t
    · simp [granted, hp, hsub]
    · by_cases hid : id = s.site.broker.fanout.seq + 1 <;> simp [granted, hp, hsub, hid]

theorem nodup_created_control {events : List Teardown.Event} {input : ControlInput} {conn : Nat}
    (hn : ((created J events).map Prod.snd).Nodup)
    (hfresh : input.sinkId ∉ (created J events).map Prod.snd) :
    ((created J (events ++ [.control conn input])).map Prod.snd).Nodup := by
  have hsink : (Teardown.Event.control conn input).sink J = none ∨
      (Teardown.Event.control conn input).sink J = some (conn, input.sinkId) := by
    simp only [Teardown.Event.sink]
    split <;> simp
  rw [created_append, List.map_append]
  obtain hnone | hsome := hsink
  · simpa [hnone] using hn
  · rw [hsome]
    change (_ ++ [input.sinkId]).Nodup
    rw [← List.concat_eq_append]
    exact hn.concat hfresh

theorem Settled.sendSubscribe {mode : SubscribeIntent} {fromOffset : Option Int64}
    (h : Settled J s) (hJ : J.Legible (subscribeBody topic (modeStr mode) fromOffset))
    (hr : s.Room J topic x)
    (hs : s.sendSubscribe J codec sinkId max topic mode fromOffset x = some s') :
    Settled J s' ∧ ∃ added, Subscribed s s' topic added := by
  obtain ⟨frame, hd, ha⟩ := exists_event_of_send hs
  have hp := parseControl_subscribeFrame hJ hd
  obtain ⟨added, hsub⟩ := subscribed_of_attend hr hp ha
  refine ⟨?_, added, hsub⟩
  have hdistinct : ((created J (s.events ++
      [.control s.conn ⟨frame, x.sinkId, x.room⟩])).map Prod.snd).Nodup :=
    nodup_created_control h.distinct hr.2
  obtain ⟨site, hsite, heq⟩ := exists_site_of_attend ha
  have hevents : s'.events = s.events ++ [.control s.conn ⟨frame, x.sinkId, x.room⟩] :=
    congrArg Link.events heq
  have hsound : Sound J s'.events s'.site := by
    rw [heq]
    exact h.sound.control hdistinct hsite
  refine ⟨hsound, hevents ▸ hdistinct, ?_, ?_, ?_⟩
  · intro c hc t
    rw [hsub.conn] at hc
    rw [hsub.live, h.later c hc, if_neg fun hct => hc.ne' hct.1]
    rfl
  · intro t ht
    rw [hsub.conn, hsub.live] at ht
    by_cases htopic : t = topic
    · subst htopic
      obtain ⟨hname, -⟩ | ⟨-, hadded⟩ := hsub.added
      · exact hname
      · rw [hadded, ite_self, List.append_nil] at ht
        exact h.named t ht
    · rw [if_neg fun hct => htopic hct.2, List.append_nil] at ht
      exact h.named t ht
  · intro id i hi
    obtain hold | hlive := hsub.intents id
    · exact h.intents id i (hold ▸ hi)
    · exact Option.some.inj (hi.symm.trans hlive)

theorem Settled.track (h : Settled J s) (topic : String) (mode : SubscribeIntent)
    (fromOffset : Option Int64) : Settled J (s.track topic mode fromOffset) :=
  ⟨h.sound, h.distinct, h.later, h.named, h.intents⟩

theorem Settled.reopen (h : Settled J s) : Settled J { s with conn := s.conn + 1 } where
  sound := h.sound
  distinct := h.distinct
  later c hc := h.later c (Nat.lt_of_succ_lt hc)
  named t ht := absurd (h.later _ (Nat.lt_succ_self _) t) ht
  intents := h.intents

theorem Settled.resubscribe {order : List ((String × SubscribeIntent) × Passage)}
    (h : Settled J s) (hJ : ∀ e ∈ order, J.Legible (subscribeBody e.1.1 (modeStr e.1.2) none))
    (hg : Guarded (resubscribe J codec sinkId max) (fun s e => s.Room J e.1.1 e.2) s order)
    (hr : run (resubscribe J codec sinkId max) s order = some s') : Settled J s' :=
  run_invariant_of_guarded (fun _ _ _ hs hok hsettled => (hsettled.sendSubscribe hok.1 hok.2 hs).1)
    (guarded_and (guarded_of_forall_mem hJ) hg) hr h

theorem unsubscribed_of_send {s₁ : Link O L D S} (hJ : J.Legible (unsubscribeBody topic))
    (hs : s.send J codec sinkId max (unsubscribeFrame J x.now x.frameId topic) x = some s₁) :
    ∃ event, event.sink J = none ∧ s₁ = { s with events := s.events ++ [event] } := by
  obtain ⟨frame, hd, ha⟩ := exists_event_of_send hs
  have hp := parseControl_unsubscribeFrame hJ hd
  obtain ⟨site, hsite, rfl⟩ := exists_site_of_attend ha
  simp only [Teardown.step, handleControl, hp, Function.update_eq_self, Option.some.injEq] at hsite
  subst hsite
  refine ⟨.control s.conn ⟨frame, x.sinkId, x.room⟩, ?_, ?_⟩
  · simp [Teardown.Event.sink, hp]
  · simp [granted, hp]

theorem ended_of_attend {conn : Nat} {order : List UInt64} (h : Settled J s)
    (hserved : sinkId conn ∉ (created J s.events).map Prod.snd)
    (ha : s.attend J codec sinkId (.teardown conn order) = some s') :
    Ending J s.events s.site conn (sinkId conn) order ∧
      s' = { s with
        site := ⟨dropSinks s.site.broker (sinkId conn) order,
          Function.update s.site.subscriptionSinks conn ∅⟩
        events := s.events ++ [.teardown conn order] } := by
  obtain ⟨site, hsite, rfl⟩ := exists_site_of_attend ha
  obtain ⟨hlisted, rfl⟩ := teardown_ok hsite
  exact ⟨⟨h.sound, h.distinct, hserved, hlisted⟩, rfl⟩

/-- Live subscriptions for some topics were added, and those for the others are as before. -/
structure Renewed (s s' : Link O L D S) (topics : List String) : Prop where
  tracker : s'.tracker = s.tracker
  conn : s'.conn = s.conn
  requested : s'.requested = s.requested
  added : ∀ t ∈ topics, ∃ id sink, s'.site.broker.live s.conn t = [(id, sink)] ∧
    s'.intents id = some .live
  others : ∀ t ∉ topics, s'.site.broker.live s.conn t = s.site.broker.live s.conn t
  intents : ∀ id, s.intents id = some .live → s'.intents id = some .live

theorem Subscribed.renewed {added : List (UInt64 × MpscSink)} (h : Subscribed s s' topic added)
    (hname : validateName topic = .ok ()) (hempty : s.site.broker.live s.conn topic = []) :
    Renewed s s' [topic] where
  tracker := h.tracker
  conn := h.conn
  requested := h.requested
  added t ht := by
    cases List.mem_singleton.mp ht
    obtain ⟨-, id, sink, rfl, hlive⟩ | ⟨hbad, -⟩ := h.added
    · refine ⟨id, sink, ?_, hlive⟩
      rw [h.live, hempty, if_pos ⟨rfl, rfl⟩, List.nil_append]
    · exact absurd hname hbad
  others t ht := by
    rw [h.live, if_neg fun hct => ht (List.mem_singleton.mpr hct.2), List.append_nil]
  intents id hid := by
    obtain hold | hlive := h.intents id
    · exact hold.trans hid
    · exact hlive

theorem Renewed.trans {s₁ s₂ : Link O L D S} {topics : List String} (h : Renewed s s₁ [topic])
    (h' : Renewed s₁ s₂ topics) : Renewed s s₂ (topic :: topics) where
  tracker := h'.tracker.trans h.tracker
  conn := h'.conn.trans h.conn
  requested := h'.requested.trans h.requested
  added t ht := by
    by_cases hmem : t ∈ topics
    · exact h.conn ▸ h'.added t hmem
    · have htopic : t ∈ [topic] :=
        List.mem_singleton.mpr ((List.mem_cons.mp ht).resolve_right hmem)
      obtain ⟨id, sink, hlive, hintent⟩ := h.added t htopic
      refine ⟨id, sink, ?_, h'.intents id hintent⟩
      rw [← hlive, ← h.conn]
      exact h'.others t hmem
  others t ht := by
    rw [List.mem_cons, not_or] at ht
    obtain ⟨htopic, hmem⟩ := ht
    have hfirst := h.others t (List.mem_singleton.not.mpr htopic)
    have hrest := h'.others t hmem
    rw [h.conn] at hrest
    exact hrest.trans hfirst
  intents id hid := h'.intents id (h.intents id hid)

/-- The resubscriptions of a reconnect, one after the other. -/
theorem renewed_of_run {order : List ((String × SubscribeIntent) × Passage)} (h : Settled J s)
    (hJ : ∀ e ∈ order, J.Legible (subscribeBody e.1.1 (modeStr e.1.2) none))
    (hg : Guarded (Link.resubscribe J codec sinkId max) (fun s e => s.Room J e.1.1 e.2) s order)
    (hr : run (Link.resubscribe J codec sinkId max) s order = some s')
    (hname : ∀ e ∈ order, validateName e.1.1 = .ok ())
    (hempty : ∀ e ∈ order, s.site.broker.live s.conn e.1.1 = [])
    (hn : (order.map fun e => e.1.1).Nodup) : Renewed s s' (order.map fun e => e.1.1) := by
  induction order generalizing s with
  | nil =>
    cases hr
    exact ⟨rfl, rfl, rfl, by simp, fun _ _ => rfl, fun _ hid => hid⟩
  | cons e order ih =>
    obtain ⟨s₁, hs, hr⟩ := run_cons_iff.mp hr
    obtain ⟨hroom, hg⟩ := hg s₁ hs
    simp only [List.forall_mem_cons] at hJ hname hempty
    obtain ⟨hsettled, added, hsub⟩ := h.sendSubscribe hJ.1 hroom hs
    obtain ⟨hnot, hn⟩ := List.nodup_cons.mp hn
    have hfirst := hsub.renewed hname.1 hempty.1
    refine hfirst.trans (ih hsettled hJ.2 hg hr hname.2 ?_ hn)
    -- the first topic is not among the others, so those have no subscription yet
    intro e' he'
    have hne : e'.1.1 ∉ [e.1.1] := by
      intro hmem
      have hkey : e'.1.1 ∈ order.map fun e => e.1.1 := List.mem_map_of_mem he'
      rw [List.mem_singleton.mp hmem] at hkey
      exact hnot hkey
    rw [hfirst.conn, hfirst.others _ hne]
    exact hempty.2 e' he'

theorem Renewed.held {topics : List String} {t : String} (h : Renewed s s' topics)
    (hreq : s.requested t = .live) (hheld : t ∉ topics → s.Held t) : s'.Held t := by
  unfold Held
  rw [h.conn, h.requested, hreq]
  by_cases ht : t ∈ topics
  · exact h.added t ht
  · obtain ⟨id, sink, hlive, hintent⟩ := hheld ht
    exact ⟨id, sink, (h.others t ht).trans hlive, h.intents id (hreq ▸ hintent)⟩

/-- Where the two sides agree, every tracked topic was asked for live. -/
theorem Settled.requested_of_held (h : Settled J s) (hheld : s.Held topic) :
    s.requested topic = .live ∧ validateName topic = .ok () := by
  obtain ⟨id, sink, hlive, hintent⟩ := hheld
  exact ⟨h.intents id _ hintent, h.named topic (by simp [hlive])⟩

theorem Agrees.held (h : s.Agrees) (hsome : (s.tracker.get topic).isSome) : s.Held topic := by
  have htopic := h topic
  rwa [if_pos hsome] at htopic

theorem Agrees.live_eq_nil_iff (h : s.Agrees) :
    s.site.broker.live s.conn topic = [] ↔ s.tracker.get topic = none := by
  cases hget : s.tracker.get topic with
  | none =>
    have htopic := h topic
    simpa [hget] using htopic
  | some mode =>
    obtain ⟨id, sink, hlive, -⟩ := h.held (by rw [hget]; rfl : (s.tracker.get topic).isSome)
    simp [hlive]

theorem Settled.unsubscribed {event : Teardown.Event} (h : Settled J s)
    (hsink : event.sink J = none) (tracker : SubscriptionTracker) :
    Settled J { s with tracker, events := s.events ++ [event] } where
  sound := h.sound.weaken event
  distinct := by
    rw [created_append, hsink, Option.toList_none, List.append_nil]
    exact h.distinct
  later := h.later
  named := h.named
  intents := h.intents

theorem Settled.ended {conn : Nat} {order : List UInt64} (h : Settled J s) (hlt : conn < s.conn)
    (hend : Ending J s.events s.site conn (sinkId conn) order) :
    Settled J { s with
      site := ⟨dropSinks s.site.broker (sinkId conn) order,
        Function.update s.site.subscriptionSinks conn ∅⟩
      events := s.events ++ [.teardown conn order] } where
  sound := hend.sound_after.weaken _
  distinct := by
    rw [created_append]
    exact (List.append_nil (created J s.events)).symm ▸ h.distinct
  later c hc t := (hend.live (hlt.trans hc).ne' t).trans (h.later c hc t)
  named t ht := h.named t (hend.live hlt.ne' t ▸ ht)
  intents := h.intents

variable {call : Call}

theorem settled_step (hs : step J codec sinkId max s call = some s')
    (hJ : ∀ v ∈ call.bodies, J.Legible v) (hserved : s.Served J codec sinkId max call)
    (h : Settled J s) : Settled J s' := by
  cases call with
  | subscribe topic mode fromOffset x =>
    exact ((h.track topic mode fromOffset).sendSubscribe (hJ _ List.mem_cons_self) hserved hs).1
  | unsubscribe topic x =>
    obtain ⟨event, hsink, rfl⟩ := unsubscribed_of_send (hJ _ List.mem_cons_self) hs
    exact h.unsubscribed hsink _
  | reconnect order =>
    obtain ⟨-, hr⟩ := Option.ite_none_right_eq_some.mp hs
    refine h.reopen.resubscribe (fun e he => hJ _ (List.mem_map_of_mem he)) hserved hr
  | teardown conn order =>
    obtain ⟨hlt, ha⟩ := Option.ite_none_right_eq_some.mp hs
    obtain ⟨hend, rfl⟩ := ended_of_attend h hserved ha
    exact h.ended hlt hend

theorem requested_track_self {mode : SubscribeIntent} {fromOffset : Option Int64} :
    (s.track topic mode fromOffset).requested topic = requestedIntent mode fromOffset :=
  Function.update_self ..

theorem requested_track_of_ne {mode : SubscribeIntent} {fromOffset : Option Int64} {t : String}
    (h : t ≠ topic) : (s.track topic mode fromOffset).requested t = s.requested t :=
  Function.update_of_ne h ..

theorem held_track_of_ne {mode : SubscribeIntent} {fromOffset : Option Int64} {t : String}
    (h : t ≠ topic) : (s.track topic mode fromOffset).Held t ↔ s.Held t := by
  rw [Held, requested_track_of_ne h]
  rfl

section

variable {mode : SubscribeIntent} {fromOffset : Option Int64} {added : List (UInt64 × MpscSink)}
  (h : Settled J s) (ha : s.Agrees)
  (hsub : Subscribed (s.track topic mode fromOffset) s' topic added)
include h ha hsub

/-- A subscribe after which the server holds what was asked for was plain. -/
theorem plain_of_held (hheld : s'.Held topic) :
    mode = .live ∧ validateName topic = .ok () ∧ s.tracker.get topic = none := by
  obtain ⟨id, sink, hlive, hintent⟩ := hheld
  have hadded : s.site.broker.live s.conn topic ++ added = [(id, sink)] := by
    rw [hsub.conn, hsub.live, if_pos ⟨rfl, rfl⟩] at hlive
    exact hlive
  rw [hsub.requested, requested_track_self] at hintent
  obtain ⟨hname, id₁, sink₁, rfl, hintent₁⟩ | ⟨hbad, rfl⟩ := hsub.added
  · -- the only subscription is the one that was added, so there was none before
    obtain ⟨hempty, heq⟩ | ⟨-, hnil⟩ := List.append_eq_singleton_iff.mp hadded
    · cases heq
      rw [hintent₁, Option.some.injEq, eq_comm, requestedIntent_eq_live_iff] at hintent
      exact ⟨hintent, hname, ha.live_eq_nil_iff.mp hempty⟩
    · cases hnil
  · -- nothing was added, and what is there has a good name
    rw [List.append_nil] at hadded
    exact absurd (h.named topic (by simp [hadded])) hbad

theorem agrees_of_plain (hmode : mode = .live) (hname : validateName topic = .ok ())
    (hnone : s.tracker.get topic = none) : s'.Agrees := by
  have hren := hsub.renewed hname (ha.live_eq_nil_iff.mpr hnone)
  intro t
  rw [hsub.tracker]
  by_cases ht : t = topic
  · subst ht
    rw [if_pos (by simp [Link.track])]
    refine hren.held ?_ fun hnot => absurd (List.mem_singleton_self t) hnot
    rw [requested_track_self, requestedIntent_eq_live_iff]
    exact hmode
  · have hget : (s.track topic mode fromOffset).tracker.get t = s.tracker.get t :=
      SortedMap.get_put_of_ne ht
    rw [hget]
    split
    · next hsome =>
      refine hren.held ?_ fun _ => (held_track_of_ne ht).mpr (ha.held hsome)
      rw [requested_track_of_ne ht]
      exact (h.requested_of_held (ha.held hsome)).1
    · next hsome =>
      have hothers := hren.others t (List.mem_singleton.not.mpr ht)
      rw [hsub.conn]
      exact hothers.trans (ha.live_eq_nil_iff.mpr (by simpa using hsome))

/-- A subscribe leaves the two sides in agreement exactly when it is plain. -/
theorem agrees_subscribe_iff : s'.Agrees ↔
    mode = .live ∧ validateName topic = .ok () ∧ s.tracker.get topic = none := by
  constructor
  · intro ha'
    refine plain_of_held h ha hsub (ha'.held ?_)
    rw [hsub.tracker]
    simp [Link.track]
  · rintro ⟨hmode, hname, hnone⟩
    exact agrees_of_plain h ha hsub hmode hname hnone

end

theorem agrees_unsubscribe_iff {event : Teardown.Event} (ha : s.Agrees) :
    { s with tracker := s.tracker.remove topic, events := s.events ++ [event]
      : Link O L D S }.Agrees ↔ s.tracker.get topic = none := by
  have hget (t : String) : (s.tracker.delete topic).get t =
      (s.tracker.get t).filter fun _ => decide (t ≠ topic) := SortedMap.get_filter
  constructor
  · intro ha'
    have htopic := ha' topic
    rw [← ha.live_eq_nil_iff]
    simpa [hget] using htopic
  · intro hnone t
    have hold := ha t
    have hsame : (s.tracker.delete topic).get t = s.tracker.get t := by
      rw [hget]
      by_cases ht : t = topic
      · rw [ht, hnone]
        rfl
      · cases s.tracker.get t <;> simp [ht, Option.filter]
    rw [hsame]
    exact hold

section

variable {order : List ((String × SubscribeIntent) × Passage)}
  (hperm : (order.map Prod.fst).Perm s.tracker.entries)
include hperm

theorem topics_perm : (order.map fun e => e.1.1).Perm (s.tracker.entries.map Prod.fst) := by
  have hmap := hperm.map Prod.fst
  rw [List.map_map] at hmap
  exact hmap

theorem mem_topics_iff {t : String} :
    t ∈ order.map (fun e => e.1.1) ↔ (s.tracker.get t).isSome := by
  rw [(topics_perm hperm).mem_iff, Option.isSome_iff_exists]
  simp only [List.mem_map, Prod.exists, exists_and_right, exists_eq_right, SortedMap.mem_entries]

/-- After a reconnect the new connection has what the old one had. -/
theorem Settled.agrees_reconnect (h : Settled J s) (ha : s.Agrees)
    (hJ : ∀ e ∈ order, J.Legible (subscribeBody e.1.1 (modeStr e.1.2) none))
    (hserved : s.Served J codec sinkId max (.reconnect order))
    (hr : run (Link.resubscribe J codec sinkId max) { s with conn := s.conn + 1 } order =
      some s') : s'.Agrees := by
  have hempty (t : String) : s.site.broker.live (s.conn + 1) t = [] :=
    h.later _ (Nat.lt_succ_self _) t
  have hren : Renewed { s with conn := s.conn + 1 } s' (order.map fun e => e.1.1) := by
    refine renewed_of_run h.reopen hJ hserved hr ?_ (fun e _ => hempty e.1.1)
      ((topics_perm hperm).nodup_iff.mpr SortedMap.nodup_keys)
    intro e he
    have hsome := (mem_topics_iff hperm).mp (List.mem_map_of_mem he)
    exact (h.requested_of_held (ha.held hsome)).2
  intro t
  rw [hren.tracker]
  split
  · next hsome =>
    exact hren.held (h.requested_of_held (ha.held hsome)).1 fun hnot =>
      absurd ((mem_topics_iff hperm).mpr hsome) hnot
  · next hsome =>
    rw [hren.conn, hren.others t ((mem_topics_iff hperm).not.mpr hsome)]
    exact hempty t

end

theorem agrees_step_iff (hs : step J codec sinkId max s call = some s')
    (hJ : ∀ v ∈ call.bodies, J.Legible v) (hserved : s.Served J codec sinkId max call)
    (h : Settled J s) (ha : s.Agrees) : s'.Agrees ↔ s.plain call := by
  cases call with
  | subscribe topic mode fromOffset x =>
    obtain ⟨-, added, hsub⟩ :=
      (h.track topic mode fromOffset).sendSubscribe (hJ _ List.mem_cons_self) hserved hs
    exact agrees_subscribe_iff h ha hsub
  | unsubscribe topic x =>
    obtain ⟨event, -, rfl⟩ := unsubscribed_of_send (hJ _ List.mem_cons_self) hs
    exact agrees_unsubscribe_iff ha
  | reconnect order =>
    obtain ⟨hperm, hr⟩ := Option.ite_none_right_eq_some.mp hs
    have hbodies (e) (he : e ∈ order) : J.Legible (subscribeBody e.1.1 (modeStr e.1.2) none) :=
      hJ _ (List.mem_map_of_mem he)
    exact iff_of_true (h.agrees_reconnect hperm ha hbodies hserved hr) trivial
  | teardown conn order =>
    obtain ⟨hlt, hattend⟩ := Option.ite_none_right_eq_some.mp hs
    obtain ⟨hend, rfl⟩ := ended_of_attend h hserved hattend
    refine iff_of_true (fun t => ?_) trivial
    have hlive := hend.live hlt.ne' t
    have hold := ha t
    simp only [Held, hlive]
    exact hold

theorem settled_start {b : InMemoryBroker O L D S MpscSink} {site : Site O L D S}
    {events : List Teardown.Event} {conn : Nat} (hfanout : b.fanout = .new)
    (hstore : ∀ t, b.store.subscribers t = 0)
    (hdistinct : ((created J events).map Prod.snd).Nodup)
    (hown : ∀ conn, sinkId conn ∉ (created J events).map Prod.snd)
    (hrun : run (Teardown.step J codec sinkId) ⟨b, fun _ => ∅⟩ events = some site)
    (hnew : ∀ c, conn ≤ c → ∀ t, site.broker.live c t = []) :
    Settled J (start conn site events) where
  sound := sound_run (sound_initial hfanout hstore) hdistinct hown hrun
  distinct := hdistinct
  later c hc := hnew c hc.le
  named t ht := absurd (hnew conn (Nat.le_refl conn) t) ht
  intents id i hi := by cases hi

/-- Whatever a client calls and however often it reconnects, while all its frames are
handled: the server holds what the client tracks, each topic once and with the intent
last requested, throughout exactly when the client subscribes live, to topics it does not
track and under names the broker takes, and never unsubscribes from a topic it tracks. -/
theorem subscriptions_agree_iff (J : SerdeJson) (codec : Nat → EncodingFormat)
    (sinkId : Nat → UInt64) (max : Nat) (b : InMemoryBroker O L D S MpscSink)
    (hfanout : b.fanout = .new) (hstore : ∀ t, b.store.subscribers t = 0)
    (events : List Teardown.Event) (hdistinct : ((created J events).map Prod.snd).Nodup)
    (hown : ∀ conn, sinkId conn ∉ (created J events).map Prod.snd) (site : Site O L D S)
    (hrun : run (Teardown.step J codec sinkId) ⟨b, fun _ => ∅⟩ events = some site) (conn : Nat)
    (hnew : ∀ c, conn ≤ c → ∀ t, site.broker.live c t = []) (calls : List Call)
    (hJ : ∀ call ∈ calls, ∀ v ∈ call.bodies, J.Legible v)
    (hserved : Guarded (step J codec sinkId max) (Served J codec sinkId max)
      (start conn site events) calls) :
    Throughout (step J codec sinkId max) Agrees (start conn site events) calls ↔
      Guarded (step J codec sinkId max) plain (start conn site events) calls := by
  have hfair := guarded_and (guarded_of_forall_mem hJ) hserved
  refine throughout_iff_guarded_of_fair (Q := Settled J) ?_ ?_ hfair
    (settled_start hfanout hstore hdistinct hown hrun hnew) ?_
  · intro s call s' hs hok
    exact settled_step hs hok.1 hok.2
  · intro s call s' hs hok
    exact agrees_step_iff hs hok.1 hok.2
  · intro t
    exact hnew conn (Nat.le_refl conn) t

def roomBody : Json := subscribeBody "room/1" "live" none

/-- Reads the bodies of a live subscribe, a replay and an unsubscribe. -/
def bodyReader : SerdeJson :=
  .reading [roomBody, subscribeBody "room/1" "replay" (some 5), unsubscribeBody "room/1"]

theorem bodyReader_legible : bodyReader.Legible roomBody where
  reads := by simp [bodyReader, SerdeJson.reading]
  utf8 := by decide +kernel
  fits := (SerdeJson.length_toVec_reading_le _ _).trans_lt (by decide +kernel)

def emptySite : Site MemoryOffsetStore MemoryLogStore MemoryDedupeStore MemorySnapshotStore :=
  ⟨emptyBroker, fun _ => ∅⟩

def subscribeLive (sinkId : UInt64) : Call := .subscribe "room/1" .live none ⟨5, 1, sinkId, true⟩

/-- A live subscription is moved to a second connection before the first one's end is
noticed. -/
def moved : List Call :=
  [subscribeLive 11, .reconnect [(("room/1", .live), ⟨6, 2, 12, true⟩)], .teardown 1 [11]]

theorem live_subscription_moves :
    Throughout (step bodyReader (fun _ => .json) (fun _ => 1) 1024) Agrees
      (start 1 emptySite []) moved ∧
    (run (step bodyReader (fun _ => .json) (fun _ => 1) 1024) (start 1 emptySite []) moved).map
      (fun s => (s.tracker.entries, s.site.broker.fanout.subscribers "room/1")) =
        some ([("room/1", .live)], [(2, ⟨2, 12, .json⟩)]) := by
  have hbody : ∀ call ∈ moved, ∀ v ∈ call.bodies, v = roomBody := by
    simp [moved, subscribeLive, Call.bodies, roomBody, modeStr]
  refine ⟨?_, by decide +kernel⟩
  refine (subscriptions_agree_iff bodyReader (fun _ => .json) (fun _ => 1) 1024 emptyBroker rfl
    (fun _ => rfl) [] List.nodup_nil (by simp [created]) emptySite rfl 1 (fun _ _ _ => rfl) moved
    ?_ (by decide +kernel)).mpr (by decide +kernel)
  intro call hcall v hv
  rw [hbody call hcall v hv]
  exact bodyReader_legible

/-- Three clients of an empty server. The first asks for a replay and has a live
subscription. The second unsubscribes and keeps its subscription. The third subscribes
twice and has two. -/
theorem client_and_server_disagree :
    (run (step bodyReader (fun _ => .json) (fun _ => 1) 1024) (start 1 emptySite [])
      [.subscribe "room/1" (.replay 5) (some 5) ⟨5, 1, 11, true⟩]).map
      (fun s => (s.requested "room/1", s.site.broker.live 1 "room/1", s.intents 1)) =
        some (.replay 5, [(1, ⟨1, 11, .json⟩)], some .live) ∧
    (run (step bodyReader (fun _ => .json) (fun _ => 1) 1024) (start 1 emptySite [])
      [subscribeLive 11, .unsubscribe "room/1" ⟨6, 2, 12, true⟩]).map
      (fun s => (s.tracker.get "room/1", s.site.broker.live 1 "room/1")) =
        some (none, [(1, ⟨1, 11, .json⟩)]) ∧
    (run (step bodyReader (fun _ => .json) (fun _ => 1) 1024) (start 1 emptySite [])
      [subscribeLive 11, subscribeLive 12]).map
      (fun s => (s.tracker.get "room/1", s.site.broker.live 1 "room/1")) =
        some (some .live, [(1, ⟨1, 11, .json⟩), (2, ⟨1, 12, .json⟩)]) := by
  decide +kernel

end Link

end Rifts
