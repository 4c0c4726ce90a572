import Rifts.Broker.IdWrap
import Rifts.Broker.PublishSteps

/-! The order in which a subscription is offered the messages of its topic. -/
namespace Rifts

open Transition

/-- The offset that a fanout frame carries behind its tag. -/
def embeddedOffset (frame : Bytes) : Int64 :=
  (UInt64.ofNat (BigEndian.ofBytes (BigEndian.slice frame 4 8))).toInt64

theorem embeddedOffset_serialize (f : Frame) (o : Int64) :
    embeddedOffset (serializeFrameForFanout f o) = o := by
  have hread : BigEndian.ofBytes (BigEndian.slice (serializeFrameForFanout f o) 4 8) =
      o.toUInt64.toNat := by
    rw [serializeFrameForFanout, List.append_assoc]
    exact (BigEndian.ofBytes_slice_append rfl).trans (Nat.mod_eq_of_lt o.toUInt64.toNat_lt)
  rw [embeddedOffset, hread, UInt64.ofNat_toNat, Int64.toInt64_toUInt64]

/-- The call is past the subscription on the list of its topic. -/
def PublishPhase.passed {σ : Type} (t : String) (id : UInt64) : PublishPhase σ → Bool
  | offer m _ sinks => m.topic = t && sinks.all fun entry => entry.1 != id
  | published m outcome => m.topic = t && !outcome.duplicate
  | _ => false

namespace PublishRace

variable {O L D S σ : Type}

/-- The offsets in the frames a subscription has been offered, in that order. -/
def received (id : UInt64) (s : PublishState O L D S σ) : List Int64 :=
  (s.offers.filter fun offer => offer.1 = id).map fun offer => embeddedOffset offer.2.2

theorem received_offer {s : PublishState O L D S σ} {id id' : UInt64} {sink : σ} {f : Frame}
    {o : Int64} :
    received id' { s with offers := s.offers ++ [(id, sink, serializeFrameForFanout f o)] } =
      received id' s ++ if id' = id then [o] else [] := by
  by_cases hx : id' = id
  · simp [received, hx, embeddedOffset_serialize]
  · simp [received, hx, Ne.symm hx]

def InOrder (p : Calls O L D S σ) : Prop := ∀ id, (received id p.shared).Pairwise (· < ·)

/-- A subscription is offered a message when every call on the topic that is past
the subscription already has a smaller offset. -/
def inTurn (p : Calls O L D S σ) : Act → Bool
  | .spawn _ => true
  | .advance i _ =>
    match p.threads[i]? with
    | some (.offer m o ((id, _) :: _)) =>
      p.threads.all fun v => !v.passed m.topic id || v.offset.all (· < o)
    | _ => true

section Tracking

variable [FanoutSink σ] [OffsetStore O] [LogStore L] {s s' : PublishState O L D S σ}
  {u u' : PublishPhase σ} {pre post : List (PublishPhase σ)} {t : String} {id : UInt64}

/-- Subscriptions have been offered the messages of the calls that are past them. -/
structure Tracked (p : Calls O L D S σ) : Prop where
  coherent : FanoutEngine.Coherent p.shared.broker.fanout
  sinks : ∀ m o sinks, .offer m o sinks ∈ p.threads →
    sinks <:+ p.shared.broker.fanout.subscribers m.topic
  offered : ∀ t id sink, (id, sink) ∈ p.shared.broker.fanout.subscribers t →
    ∀ o, o ∈ received id p.shared ↔ ∃ v ∈ p.threads, v.passed t id ∧ v.offset = some o

omit [FanoutSink σ] in
theorem fanout_access (h : PublishPhase.Access s u s' u') :
    s'.broker.fanout = s.broker.fanout := by
  cases h <;> rfl

theorem sinks_access (h : PublishPhase.Access s u s' u')
    (ht : Tracked ⟨s, pre ++ u :: post⟩) (m : Message) (o : Int64) (sinks : List (UInt64 × σ))
    (hu : u' = .offer m o sinks) : sinks <:+ s.broker.fanout.subscribers m.topic := by
  cases h with
  | collect m' =>
    cases hu
    exact List.suffix_refl _
  | offer m' o' id sink rest =>
    cases hu
    exact (List.suffix_cons _ _).trans (ht.sinks _ _ _ Pool.mem_split)
  | _ => cases hu

omit [FanoutSink σ] [OffsetStore O] [LogStore L] in
theorem passed_of_uncommitted (h : u.committed = false) : u.passed t id = false := by
  cases u <;> first | rfl | cases h

omit [OffsetStore O] [LogStore L] in
/-- A subscription is on the list of one topic, once. -/
theorem once_listed {e : FanoutEngine σ} (hc : FanoutEngine.Coherent e) {sink sink' : σ}
    {m : Message} {rest : List (UInt64 × σ)} (hs : (id, sink) :: rest <:+ e.subscribers m.topic)
    (hid : (id, sink') ∈ e.subscribers t) : m.topic = t ∧ ∀ entry ∈ rest, entry.1 ≠ id := by
  have hmem : (id, sink) ∈ e.subscribers m.topic := hs.subset List.mem_cons_self
  have hfiled := (hc.topics.mem _ _).mp hmem
  have hfiled' := (hc.topics.mem _ _).mp hid
  refine ⟨(Prod.mk.inj (Option.some.inj (hfiled.symm.trans hfiled'))).1, ?_⟩
  intro entry hentry heq
  have hnodup := (hs.sublist.map Prod.fst).nodup (hc.topics.nodup m.topic)
  rw [List.map_cons, List.nodup_cons] at hnodup
  exact hnodup.1 (List.mem_map.mpr ⟨entry, hentry, heq⟩)

/-- What an access does for a subscription: nothing, or it offers it the message
and the call is past it. -/
theorem offered_access (h : PublishPhase.Access s u s' u') (ht : Tracked ⟨s, pre ++ u :: post⟩)
    {sink : σ} (hid : (id, sink) ∈ s.broker.fanout.subscribers t) :
    (received id s' = received id s ∧ u'.passed t id = u.passed t id ∧
        (u.passed t id → u'.offset = u.offset)) ∨
      ∃ m o rest sink, u = .offer m o ((id, sink) :: rest) ∧ u' = .offer m o rest ∧
        m.topic = t ∧ received id s' = received id s ++ [o] ∧ u.passed t id = false ∧
        u'.passed t id = true := by
  cases h with
  | refuse f e hu =>
    refine .inl ⟨rfl, ?_, ?_⟩
    · rw [passed_of_uncommitted hu]
      rfl
    · rw [passed_of_uncommitted hu]
      intro h
      cases h
  | validate | route | load | retry | take | dedupe | alloc | append | capture =>
    exact .inl ⟨rfl, rfl, fun h => by cases h⟩
  | skip m => exact .inl ⟨rfl, by simp [PublishPhase.passed], fun h => by cases h⟩
  | collect m =>
    refine .inl ⟨rfl, ?_, fun h => by cases h⟩
    -- the list just copied has the subscription on it, if it is the topic's
    by_cases hmt : m.topic = t
    · subst hmt
      have hnot : ¬ ∀ entry ∈ s.broker.fanout.subscribers m.topic, entry.1 ≠ id :=
        fun hall => hall _ hid rfl
      simpa [PublishPhase.passed] using hnot
    · simp [PublishPhase.passed, hmt]
  | offer m o id₀ sink₀ rest =>
    by_cases hx : id₀ = id
    · subst hx
      obtain ⟨hmt, hrest⟩ := once_listed ht.coherent (ht.sinks m o _ Pool.mem_split) hid
      refine .inr ⟨m, o, rest, sink₀, rfl, rfl, hmt, ?_, ?_, ?_⟩
      · rw [received_offer, if_pos rfl]
      · simp [PublishPhase.passed]
      · simpa [PublishPhase.passed, hmt] using hrest
    · refine .inl ⟨?_, ?_, fun _ => rfl⟩
      · rw [received_offer, if_neg (Ne.symm hx), List.append_nil]
      · have hne : (id₀ != id) = true := by simpa using hx
        simp [PublishPhase.passed, hne]
  | finish m => exact .inl ⟨rfl, by simp [PublishPhase.passed], fun _ => rfl⟩

theorem tracked_access (h : PublishPhase.Access s u s' u') (ht : Tracked ⟨s, pre ++ u :: post⟩) :
    Tracked ⟨s', pre ++ u' :: post⟩ := by
  have hfan := fanout_access h
  refine ⟨?_, ?_, ?_⟩
  · simpa only [hfan] using ht.coherent
  · intro m o sinks hmem
    simp only [hfan]
    rcases Pool.mem_split_iff.mp hmem with hu | hother
    · exact sinks_access h ht m o sinks hu.symm
    · exact ht.sinks m o sinks (Pool.mem_split_of_mem hother)
  · intro t id sink hid o
    simp only [hfan] at hid
    have hold : o ∈ received id s ↔ _ := ht.offered t id sink hid o
    rw [Pool.exists_mem_split] at hold ⊢
    change o ∈ received id s' ↔ _
    rcases offered_access h ht hid with
      ⟨hrec, hpassed, hoff⟩ | ⟨m, o₀, rest, sink', rfl, rfl, -, hrec, hbefore, hafter⟩
    · have hown : u'.passed t id = true ∧ u'.offset = some o ↔
          u.passed t id = true ∧ u.offset = some o := by
        rw [hpassed]
        exact and_congr_right fun hp => by rw [hoff hp]
      rw [hrec, hold, hown]
    · rw [hrec, List.mem_append, List.mem_singleton, hold, hbefore, hafter]
      constructor
      · rintro ((⟨hfalse, -⟩ | hothers) | rfl)
        · cases hfalse
        · exact .inr hothers
        · exact .inl ⟨rfl, rfl⟩
      · rintro (⟨-, heq⟩ | hothers)
        · exact .inr (Option.some.inj heq).symm
        · exact .inl (.inr hothers)

omit [FanoutSink σ] in
theorem offset_of_passed (h : u.passed t id) : ∃ o, u.offset = some o := by
  cases u <;> first | exact ⟨_, rfl⟩ | cases h

omit [OffsetStore O] [LogStore L] in
/-- An offer is in turn when it has the highest offset the subscription has seen. -/
theorem inTurn_offer {m : Message} {o : Int64} {sink : σ} {rest : List (UInt64 × σ)}
    (ht : Tracked ⟨s, pre ++ .offer m o ((id, sink) :: rest) :: post⟩) (input : PublishInput) :
    inTurn ⟨s, pre ++ .offer m o ((id, sink) :: rest) :: post⟩ (.advance pre.length input) = true ↔
      ∀ x ∈ received id s, x < o := by
  have hmem : (id, sink) ∈ s.broker.fanout.subscribers m.topic :=
    (ht.sinks m o _ Pool.mem_split).subset List.mem_cons_self
  have hoffered := ht.offered m.topic id sink hmem
  simp only [inTurn, List.getElem?_append_right (le_refl _), Nat.sub_self,
    List.getElem?_cons_zero, List.all_eq_true]
  constructor
  · intro hall x hx
    obtain ⟨v, hv, hpassed, hoff⟩ := (hoffered x).mp hx
    simpa [hpassed, hoff] using hall v hv
  · intro hall v hv
    cases hpassed : v.passed m.topic id with
    | false => rfl
    | true =>
      obtain ⟨x, hx⟩ := offset_of_passed hpassed
      simpa [hx] using hall x ((hoffered x).mpr ⟨v, hv, hpassed, hx⟩)

/-- The order is kept at an access if and only if the call is in turn. -/
theorem inOrder_access (h : PublishPhase.Access s u s' u') (ht : Tracked ⟨s, pre ++ u :: post⟩)
    (ho : InOrder ⟨s, pre ++ u :: post⟩) (input : PublishInput) :
    InOrder ⟨s', pre ++ u' :: post⟩ ↔
      inTurn ⟨s, pre ++ u :: post⟩ (.advance pre.length input) = true := by
  cases h with
  | offer m o id sink rest =>
    rw [inTurn_offer ht]
    constructor
    · intro hord x hx
      have hpair := hord id
      rw [received_offer, if_pos rfl, List.pairwise_append] at hpair
      exact hpair.2.2 x hx o (List.mem_singleton_self o)
    · intro hall id'
      rw [received_offer]
      split
      · next hx =>
        subst hx
        refine List.pairwise_append.mpr ⟨ho id', List.pairwise_singleton .., ?_⟩
        intro x hx y hy
        rw [List.mem_singleton.mp hy]
        exact hall x hx
      · rw [List.append_nil]
        exact ho id'
  | refuse f e hu =>
    refine iff_of_true ho ?_
    cases u <;> first | simp [inTurn]; done | cases hu
  | _ => exact iff_of_true ho (by simp [inTurn])

variable [DedupeStore D] [SnapshotStore S] {p p' : Calls O L D S σ} {a : Act}

theorem tracked_step (h : step p a = some p') (ht : Tracked p) : Tracked p' := by
  obtain ⟨shared, threads⟩ := p
  rcases step_cases h with ⟨f, rfl, rfl⟩ | ⟨pre, u, post, input, s, u', rfl, hp, hacc, rfl⟩
  · refine ⟨ht.coherent, ?_, ?_⟩
    · intro m o sinks hmem
      have hold : .offer m o sinks ∈ threads := by simpa using hmem
      exact ht.sinks m o sinks hold
    · intro t id sink hid o
      rw [ht.offered t id sink hid o, Pool.exists_mem_split]
      simp [PublishPhase.passed]
  · obtain rfl : threads = pre ++ u :: post := hp
    exact tracked_access hacc ht

theorem inOrder_step (h : step p a = some p') (ht : Tracked p) (ho : InOrder p) :
    InOrder p' ↔ inTurn p a = true := by
  obtain ⟨shared, threads⟩ := p
  rcases step_cases h with ⟨f, rfl, rfl⟩ | ⟨pre, u, post, input, s, u', rfl, hp, hacc, rfl⟩
  · exact iff_of_true ho rfl
  · obtain rfl : threads = pre ++ u :: post := hp
    exact inOrder_access hacc ht ho input

/-- Subscriptions are offered the messages of their topic in the order of their
offsets if and only if calls offer in turn. -/
theorem delivery_order (b : InMemoryBroker O L D S σ) (hc : FanoutEngine.Coherent b.fanout)
    (acts : List Act) :
    Throughout step InOrder ⟨⟨b, []⟩, []⟩ acts ↔
      Guarded step (fun p a => inTurn p a) ⟨⟨b, []⟩, []⟩ acts := by
  have htracked : Tracked (⟨⟨b, []⟩, []⟩ : Calls O L D S σ) := by
    refine ⟨hc, ?_, ?_⟩
    · intro m o sinks hmem
      cases hmem
    · intro t id sink _ o
      simp [received]
  have horder : InOrder (⟨⟨b, []⟩, []⟩ : Calls O L D S σ) := fun id => List.Pairwise.nil
  exact throughout_iff_guarded_of_invariant (fun p a p' => tracked_step)
    (fun p a p' => inOrder_step) htracked horder

/-- The second publish is given its offset while the first one waits to deliver. -/
theorem publishes_in_turn_are_in_order :
    Throughout step InOrder ⟨⟨holdingOne, []⟩, []⟩
        (twoPublishes ++ accesses 0 6 ++ accesses 1 6 ++ accesses 0 5 ++ accesses 1 5) ∧
      ∃ p, run step ⟨⟨holdingOne, []⟩, []⟩
          (twoPublishes ++ accesses 0 6 ++ accesses 1 6 ++ accesses 0 5 ++ accesses 1 5) = some p ∧
        received 1 p.shared = [1, 2] := by
  refine ⟨(delivery_order holdingOne (coherent_holdingOne 1) _).mpr (by decide), ?_⟩
  exact ⟨_, rfl, by decide⟩

/-- It overtakes the first one before the list of sinks. -/
theorem overtaking_publish_is_delivered_first :
    ∃ p, run step ⟨⟨holdingOne, []⟩, []⟩
        (twoPublishes ++ accesses 0 6 ++ accesses 1 11 ++ accesses 0 5) = some p ∧
      (∀ u ∈ p.threads, u.returned) ∧ received 1 p.shared = [2, 1] ∧ ¬ InOrder p := by
  obtain ⟨p, hrun, hret, hrec⟩ : ∃ p, run step ⟨⟨holdingOne, []⟩, []⟩
      (twoPublishes ++ accesses 0 6 ++ accesses 1 11 ++ accesses 0 5) = some p ∧
        (∀ u ∈ p.threads, u.returned) ∧ received 1 p.shared = [2, 1] :=
    ⟨_, rfl, by decide, by decide⟩
  refine ⟨p, hrun, hret, hrec, ?_⟩
  intro h
  have hpair := h 1
  rw [hrec] at hpair
  exact absurd hpair (by decide)

end Tracking

end PublishRace

end Rifts
