import Rifts.Broker.MemoryBroker
import Rifts.Transition.Service

/-! The snapshots of the broker after a sequence of publishes. -/
namespace Rifts

open Transition

/-- No topic has a latest snapshot. Only `TopicEntry::append` sets one. -/
def TopicStore.Bare (st : TopicStore) : Prop :=
  ∀ t e, st.get t = some e → e.latestSnapshot = none

namespace TopicStore

variable {st st' : TopicStore} {t : String} {e : TopicEntry} {p : TopicProfile}

theorem bare_new : TopicStore.new.Bare := by
  intro t e h
  cases h

theorem bare_put (h : st.Bare) (he : e.latestSnapshot = none) : (st.put t e).Bare := by
  intro u e' hg
  by_cases hu : u = t
  · subst hu
    cases get_put_self.symm.trans hg
    exact he
  · rw [get_put_of_ne hu] at hg
    exact h u e' hg

theorem bare_getOrCreate (hg : st.getOrCreate t p = .ok (st', e)) (h : st.Bare) :
    st'.Bare ∧ e.latestSnapshot = none := by
  obtain ⟨hget, rfl⟩ | ⟨-, rfl, rfl⟩ := getOrCreate_ok hg
  · exact ⟨h, h t e hget⟩
  · exact ⟨bare_put h rfl, rfl⟩

/-- There is nothing to capture. -/
theorem capture_of_bare {s : MemorySnapshotStore} {now : Int64} {ttl : Option Nat} (h : st.Bare) :
    SnapshotStore.capture s now t st ttl = (s, none) := by
  have hnone : (st.get t).bind (·.latestSnapshot) = none := by
    cases hg : st.get t with
    | none => rfl
    | some e => exact h t e hg
  simp only [SnapshotStore.capture, snapshotOf, hnone, Option.map_none]

end TopicStore

namespace InMemoryBroker

variable {O L D S σ : Type} [OffsetStore O] [LogStore L] [DedupeStore D]

def snapshot [SnapshotStore S] (b : InMemoryBroker O L D S σ) (now : Int64) (topic : String) :
    Option StoredSnapshot :=
  SnapshotStore.get b.snapshots now topic

/-- A publish at some time as a call of the broker. -/
def servePublish [SnapshotStore S] (b : InMemoryBroker O L D S σ) (call : Int64 × Frame) :
    InMemoryBroker O L D S σ × Except RiftError PublishOutcome :=
  ((b.publish call.1 call.2).1, (b.publish call.1 call.2).2.1)

/-- The payload of a publish to the topic, if it was successful. -/
def acceptedPayload (topic : String) :
    (Int64 × Frame) × Except RiftError PublishOutcome → Option Bytes
  | ((_, f), .ok _) => if f.topic = some topic then some (f.payload.getD []) else none
  | (_, .error _) => none

/-- The payload of the most recent successful publish to the topic. -/
def latestPayload [SnapshotStore S] (topic : String) (b : InMemoryBroker O L D S σ)
    (calls : List (Int64 × Frame)) : Option Bytes :=
  ((transcript servePublish b calls).filterMap (acceptedPayload topic)).getLast?

/-- The broker returns a snapshot at the head of the topic with this payload. -/
def ShowsHead [SnapshotStore S] (b : InMemoryBroker O L D S σ) (now : Int64) (topic : String)
    (payload : Bytes) : Prop :=
  ∃ snap, b.snapshot now topic = some snap ∧ snap.baseOffset = b.headOffset topic ∧
    snap.payload = payload

/-- Nothing was ever captured. -/
structure Snapless (b : InMemoryBroker O L D MemorySnapshotStore σ) : Prop where
  store : b.store.Bare
  snapshots : ∀ t, b.snapshots.inner t = none

variable {b : InMemoryBroker O L D MemorySnapshotStore σ}

theorem snapless_publish (now : Int64) (f : Frame) (h : Snapless b) :
    Snapless (b.publish now f).1 := by
  cases ht : b.target now f with
  | none =>
    obtain ⟨e, hp, -⟩ := publish_of_no_target ht
    rw [hp]
    exact h
  | some t =>
    obtain ⟨messageId, store, entry, -, hg, ⟨-, hp⟩ | ⟨entry', b', outcome, offers, hi, hr, hp⟩⟩ :=
      publish_of_target ht
    · rw [hp]
      exact ⟨(TopicStore.bare_getOrCreate hg h.store).1, h.snapshots⟩
    · obtain ⟨hstore, hentry⟩ := TopicStore.bare_getOrCreate hg h.store
      have hbare : (store.put t entry').Bare := by
        simp only [TopicEntry.tryIncPublisher, Option.map_eq_some_iff] at hi
        obtain ⟨n, -, rfl⟩ := hi
        exact TopicStore.bare_put hstore hentry
      rw [hp]
      cases hr
      refine ⟨hbare, ?_⟩
      simp only [TopicStore.capture_of_bare hbare, ite_self]
      exact h.snapshots

theorem snapless_run (calls : List (Int64 × Frame)) (h : Snapless b) :
    Snapless (after servePublish b calls) :=
  after_invariant (fun _ call hb _ => snapless_publish call.1 call.2 hb)
    (admits_of_forall (p := fun _ => True) fun _ _ => trivial) h

/-- After publishes on a new broker no topic shows a snapshot, whatever its profile. -/
theorem snapshot_at_head (defaultProfile : TopicProfile) (dedupeWindow maxPayloadBytes : Nat)
    (offsets : O) (log : L) (dedupe : D) (calls : List (Int64 × Frame)) (now : Int64)
    (topic : String) (payload : Bytes) :
    let b₀ : InMemoryBroker O L D MemorySnapshotStore σ :=
      withStores defaultProfile dedupeWindow maxPayloadBytes offsets log dedupe ⟨fun _ => none⟩
    let b := after servePublish b₀ calls
    let profile := b.store.profileOf b.defaultProfile topic
    latestPayload topic b₀ calls = some payload → profile.snapshotEnabled = true →
      profile.snapshotTtl = none → (b.ShowsHead now topic payload ↔ False) := by
  intro b₀ b profile _ _ _
  have hnew : Snapless b₀ := ⟨TopicStore.bare_new, fun _ => rfl⟩
  have hnone : b.snapshots.inner topic = none := (snapless_run calls hnew).snapshots topic
  constructor
  · rintro ⟨snap, hsnap, -⟩
    change (b.snapshots.inner topic).filter _ = some snap at hsnap
    rw [hnone] at hsnap
    cases hsnap
  · exact False.elim

/-- The first message of a topic is not in its snapshot. -/
theorem first_message_not_in_snapshot :
    (after servePublish emptyBroker
        [(0, { topic := some "t", messageId := some "m", payload := some [7] })]).ShowsHead 1 "t"
      [7] ↔ False :=
  snapshot_at_head {} 60000 65536 _ _ _
    [(0, { topic := some "t", messageId := some "m", payload := some [7] })] 1 "t" [7]
    (by decide) (by decide) (by decide)

/-- A publish that is accepted at offset 1, under the default profile, and no snapshot. -/
theorem no_snapshot_after_publish :
    let calls : List (Int64 × Frame) :=
      [(0, { topic := some "t", messageId := some "m", payload := some [7] })]
    let b := after servePublish emptyBroker calls
    latestPayload "t" emptyBroker calls = some [7] ∧ b.headOffset "t" = 1 ∧
      b.snapshot 1 "t" = none := by
  decide

end InMemoryBroker

end Rifts
