import Rifts.Broker.Slots
import Rifts.Connection.Control

/-! Control frames that are answered with an error, and what is left of them in the broker. -/
namespace Rifts

variable {O L D S : Type}

namespace InMemoryBroker

/-- The same subscriptions are live, and each topic has as many subscribers. -/
structure SameSubscriptions (b b' : InMemoryBroker O L D S MpscSink) : Prop where
  ids : ∀ id, b'.fanout.byId id = b.fanout.byId id
  topics : ∀ t, b'.fanout.subscribers t = b.fanout.subscribers t
  counts : ∀ t, b'.store.subscribers t = b.store.subscribers t

/-- The frame asks for a subscription on a topic that has a slot for it, or for the end of one
that is there. -/
def alters (J : SerdeJson) (b : InMemoryBroker O L D S MpscSink) (f : Frame) : Bool :=
  match parseControl J f with
  | .ok (.subscribe topic _) =>
    decide (validateName topic = .ok ()) &&
      b.store.subscribers topic < (b.store.profileOf b.defaultProfile topic).maxSubscribers.toNat
  | .ok (.unsubscribe id) => (b.fanout.byId id).isSome
  | _ => false

variable {b : InMemoryBroker O L D S MpscSink} {t : String} {id : UInt64}

theorem SameSubscriptions.refl (b : InMemoryBroker O L D S MpscSink) : SameSubscriptions b b :=
  ⟨fun _ => rfl, fun _ => rfl, fun _ => rfl⟩

/-- A subscribe that is refused takes nothing, though it may have made an entry for the topic. -/
theorem sameSubscriptions_of_refused (h : ¬ (validateName t = .ok () ∧
    b.store.subscribers t < (b.store.profileOf b.defaultProfile t).maxSubscribers.toNat))
    (intent : SubscribeIntent) (sink : MpscSink) :
    SameSubscriptions b (b.subscribe t intent sink).1 ∧
      ∃ e, (b.subscribe t intent sink).2 = .error e := by
  cases hname : validateName t with
  | error e =>
    rw [subscribe_of_bad_name hname]
    exact ⟨.refl b, e, rfl⟩
  | ok _ =>
    have hfull := Nat.not_lt.mp fun hslot => h ⟨hname, hslot⟩
    obtain ⟨store, hsub, hcounts⟩ := subscribe_of_full hname hfull intent sink
    rw [hsub]
    exact ⟨⟨fun _ => rfl, fun _ => rfl, hcounts⟩, _, rfl⟩

/-- One that is entered is in the list of its topic. -/
theorem not_sameSubscriptions_subscribe (hname : validateName t = .ok ())
    (hslot : b.store.subscribers t < (b.store.profileOf b.defaultProfile t).maxSubscribers.toNat)
    (intent : SubscribeIntent) (sink : MpscSink) :
    ¬ SameSubscriptions b (b.subscribe t intent sink).1 ∧
      (b.subscribe t intent sink).2 = .ok (b.fanout.seq + 1) := by
  obtain ⟨store, hsub⟩ := subscribe_of_slot hname hslot intent sink
  refine ⟨fun h => ?_, by rw [hsub]⟩
  have htopic : (b.fanout.subscribe t intent sink).1.subscribers t = b.fanout.subscribers t := by
    have hsame := h.topics t
    rwa [hsub] at hsame
  rw [FanoutEngine.subscribers_subscribe_self] at htopic
  simp at htopic

theorem sameSubscriptions_unsubscribe_iff :
    SameSubscriptions b (b.unsubscribe id).1 ↔ (b.fanout.byId id).isSome = false := by
  cases hid : b.fanout.byId id with
  | none =>
    rw [unsubscribe_unknown hid]
    exact iff_of_true (.refl b) rfl
  | some entry =>
    refine iff_of_false (fun h => ?_) (by simp)
    have hgone := h.ids id
    rw [fanout_unsubscribe, FanoutEngine.byId_unsubscribe, if_pos rfl, hid] at hgone
    cases hgone

end InMemoryBroker

namespace Control

open InMemoryBroker

/-- A reply fails exactly when the channel has no room for it. -/
theorem trySendReply_fails {room : Bool} {reply : Frame} :
    (∃ e, (trySendReply room reply).2 = .error e) ↔ room = false := by
  cases room <;> simp [trySendReply]

/-- A control frame that is answered with an error has left the subscriptions and the counts
alone, exactly when the channel had room for a reply or there was nothing to change. -/
theorem failed_control_frame_leaves_subscriptions (J : SerdeJson) (conn : Nat)
    (codec : EncodingFormat) (s : ControlState O L D S) (input : ControlInput) :
    ((∃ e, (handleControl J conn codec s input).2.2 = .error e) →
        SameSubscriptions s.broker (handleControl J conn codec s input).1.broker) ↔
      input.room = true ∨ s.broker.alters J input.frame = false := by
  unfold handleControl alters
  cases parseControl J input.frame with
  | error e => exact iff_of_true (fun _ => .refl _) (.inr rfl)
  | ok request =>
    cases request with
    | ping => exact iff_of_true (fun _ => .refl _) (.inr rfl)
    | unknown => exact iff_of_true (fun _ => .refl _) (.inr rfl)
    | subscribe topic intent =>
      dsimp only
      by_cases hslot : validateName topic = .ok () ∧ s.broker.store.subscribers topic <
          (s.broker.store.profileOf s.broker.defaultProfile topic).maxSubscribers.toNat
      · obtain ⟨hchanged, hok⟩ := not_sameSubscriptions_subscribe hslot.1 hslot.2 intent
          ⟨conn, input.sinkId, codec⟩
        rcases hsub : s.broker.subscribe topic intent ⟨conn, input.sinkId, codec⟩ with ⟨b, result⟩
        rw [hsub] at hchanged hok
        cases hok
        dsimp only at hchanged ⊢
        rw [trySendReply_fails]
        simp [hslot.1, hslot.2, hchanged]
      · obtain ⟨hsame, e, herror⟩ := sameSubscriptions_of_refused hslot intent
          ⟨conn, input.sinkId, codec⟩
        rcases hsub : s.broker.subscribe topic intent ⟨conn, input.sinkId, codec⟩ with ⟨b, result⟩
        rw [hsub] at hsame herror
        cases herror
        refine iff_of_true (fun _ => hsame) (.inr ?_)
        simpa using hslot
    | unsubscribe id =>
      have hiff : SameSubscriptions s.broker (s.broker.unsubscribe id).1 ↔ _ :=
        sameSubscriptions_unsubscribe_iff
      dsimp only
      rcases hun : s.broker.unsubscribe id with ⟨b, removed⟩
      rw [hun] at hiff
      dsimp only at hiff ⊢
      rw [trySendReply_fails, hiff]
      cases input.room <;> simp

def subscribeReader : SerdeJson := .reading [subscribeRoom]

/-- A subscribe that arrives when the outbound channel is full. -/
def subscribeWithoutRoom : ControlInput :=
  ⟨{ frameType := .control, payload := some (subscribeReader.toVec subscribeRoom) }, 11, false⟩

/-- The client is told that the subscribe failed, and is subscribed. -/
theorem failed_subscribe_is_entered :
    (handleControl subscribeReader 1 .json ⟨emptyBroker, ∅⟩ subscribeWithoutRoom).2.2 =
        .error (.system .overloaded) ∧
      (handleControl subscribeReader 1 .json ⟨emptyBroker, ∅⟩
        subscribeWithoutRoom).1.broker.fanout.subscribers "room/1" = [(1, ⟨1, 11, .json⟩)] ∧
      (handleControl subscribeReader 1 .json ⟨emptyBroker, ∅⟩
        subscribeWithoutRoom).1.broker.store.subscribers "room/1" = 1 ∧
      ¬ SameSubscriptions emptyBroker (handleControl subscribeReader 1 .json ⟨emptyBroker, ∅⟩
        subscribeWithoutRoom).1.broker := by
  have hcount : (handleControl subscribeReader 1 .json ⟨emptyBroker, ∅⟩
      subscribeWithoutRoom).1.broker.store.subscribers "room/1" = 1 := by decide +kernel
  refine ⟨by decide +kernel, by decide +kernel, hcount, fun h => ?_⟩
  have hbefore := h.counts "room/1"
  rw [hcount] at hbefore
  cases hbefore

end Control

end Rifts
