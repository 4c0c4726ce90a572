import Mathlib.Algebra.BigOperators.Group.List.Basic
import Rifts.Sync.Channel
import Rifts.Core.Frame
import Rifts.Core.Json
import Rifts.Transition.Run

/-! The outbound side of one connection: fanout sinks, replies and the writer task
around one channel and one byte counter. -/
namespace Rifts

/-- A serialized message offered to a sink, with the codec the sink was built for. -/
structure Offer where
  codec : EncodingFormat
  bytes : Bytes
  deriving DecidableEq, Repr

/-- `Bytes::len`, a `usize`. -/
def Offer.len (o : Offer) : UInt64 := UInt64.ofNat o.bytes.length

def Frame.len (f : Frame) : UInt64 := UInt64.ofNat f.payloadLen

/-- The frame `ConnSink` and `MpscSink` both build. -/
def sinkFrame (o : Offer) : Frame :=
  { frameType := .data, codec := o.codec, payload := some o.bytes, flags := .empty }

/-- A call of `deliver` that has not returned: about to try its compare-and-swap,
about to send, or about to give its reservation back. -/
inductive Delivery
  | loaded (o : Offer) (prev : UInt64)
  | reserved (o : Offer)
  | refused (o : Offer) (e : Channel.SendError)
  deriving DecidableEq, Repr

/-- The writer task. `exiting` has left the loop, possibly with a frame whose
write timed out; `zeroed` has stored 0 and still holds the receiver. -/
inductive Writer
  | receiving
  | writing (f : Frame)
  | exiting (lost : Option Frame)
  | zeroed
  | done
  deriving DecidableEq, Repr

structure Outbound where
  inFlightBytes : UInt64
  channel : Channel.Bounded Frame 1024
  writer : Writer
  deliveries : List Delivery
  senders : Bool
  deriving DecidableEq, Repr

namespace Outbound

inductive Act
  | deliver (o : Offer)
  | reserve (o : Offer) (prev : UInt64) (spurious : Bool)
  | trySend (o : Offer)
  | rollback (o : Offer) (e : Channel.SendError)
  | reply (f : Frame)
  | recv
  | recvNone
  | wrote
  | writeFailed
  | writeTimedOut
  | zero
  | dropReceiver
  | dropSenders
  deriving DecidableEq, Repr

def initial : Outbound := ⟨0, .empty, .receiving, [], true⟩

/-- The byte budget test against a counter value just read. -/
def overBudget (maxBytes prev : UInt64) (o : Offer) : Bool := maxBytes < prev + o.len

/-- The head of the reservation loop: refuse at once, or go on to the swap. -/
def attempt (s : Outbound) (maxBytes : UInt64) (o : Offer) : Outbound :=
  if overBudget maxBytes s.inFlightBytes o then s
  else { s with deliveries := .loaded o s.inFlightBytes :: s.deliveries }

def take (s : Outbound) (d : Delivery) : Outbound :=
  { s with deliveries := s.deliveries.erase d }

/-- The weak compare-and-swap succeeds on an unchanged counter, unless it fails
spuriously. -/
def swaps (s : Outbound) (prev : UInt64) (spurious : Bool) : Bool :=
  s.inFlightBytes == prev && !spurious

/-- One atomic operation of one of the tasks. A reply is any frame the control,
ack and error helpers send; none of them is a data frame. -/
def step (maxBytes : UInt64) (s : Outbound) : Act → Option Outbound
  | .deliver o => if s.senders then some (s.attempt maxBytes o) else none
  | .reserve o prev spurious =>
    if .loaded o prev ∈ s.deliveries then
      if s.swaps prev spurious then
        some { s with
          inFlightBytes := prev + o.len
          deliveries := .reserved o :: s.deliveries.erase (.loaded o prev) }
      else some ((s.take (.loaded o prev)).attempt maxBytes o)
    else none
  | .trySend o =>
    if .reserved o ∈ s.deliveries then
      match s.channel.trySend (sinkFrame o) with
      | .ok c => some { s.take (.reserved o) with channel := c }
      | .error e => some { s with
          deliveries := .refused o e :: s.deliveries.erase (.reserved o) }
    else none
  | .rollback o e =>
    if .refused o e ∈ s.deliveries then
      some { s.take (.refused o e) with inFlightBytes := s.inFlightBytes - o.len }
    else none
  | .reply f =>
    if s.senders ∧ f.frameType ≠ .data then
      match s.channel.trySend f with
      | .ok c => some { s with channel := c }
      | .error _ => some s
    else none
  | .recv =>
    match s.writer, s.channel.recv with
    | .receiving, some (f, c) => some { s with channel := c, writer := .writing f }
    | _, _ => none
  | .recvNone =>
    if s.writer = .receiving ∧ s.channel.queue = [] ∧ ¬ s.senders then
      some { s with writer := .exiting none }
    else none
  | .wrote =>
    match s.writer with
    | .writing f => some { s with
        inFlightBytes := s.inFlightBytes - f.len, writer := .receiving }
    | _ => none
  | .writeFailed =>
    match s.writer with
    | .writing f => some { s with
        inFlightBytes := s.inFlightBytes - f.len, writer := .exiting none }
    | _ => none
  | .writeTimedOut =>
    match s.writer with
    | .writing f => some { s with writer := .exiting (some f) }
    | _ => none
  | .zero =>
    match s.writer with
    | .exiting _ => some { s with inFlightBytes := 0, writer := .zeroed }
    | _ => none
  | .dropReceiver =>
    match s.writer with
    | .zeroed => some { s with channel := s.channel.dropReceiver, writer := .done }
    | _ => none
  | .dropSenders => if s.deliveries = [] then some { s with senders := false } else none

/-- The offer whose refusal with `Backpressured` this operation decides. -/
def refuses (maxBytes : UInt64) (s : Outbound) : Act → Option Offer
  | .deliver o => if overBudget maxBytes s.inFlightBytes o then some o else none
  | .reserve o prev spurious =>
    if !s.swaps prev spurious && overBudget maxBytes s.inFlightBytes o then some o else none
  | .trySend o =>
    match s.channel.trySend (sinkFrame o) with
    | .error .full => some o
    | _ => none
  | _ => none

/-- What an operation subtracts from the counter. -/
def released (s : Outbound) : Act → UInt64
  | .rollback o _ => o.len
  | .wrote | .writeFailed =>
    match s.writer with
    | .writing f => f.len
    | _ => 0
  | _ => 0

/-- The bytes a delivery in progress has reserved. -/
def reservedBytes : Delivery → Nat
  | .loaded _ _ => 0
  | .reserved o | .refused o _ => o.len.toNat

/-- The bytes of a frame that came from a sink. -/
def sinkBytes (f : Frame) : Nat := if f.frameType = .data then f.len.toNat else 0

/-- The sink frame in the writer's hands, until it is released. -/
def heldBytes : Writer → Nat
  | .writing f | .exiting (some f) => sinkBytes f
  | .receiving | .exiting none | .zeroed | .done => 0

def reservations (s : Outbound) : Nat := (s.deliveries.map reservedBytes).sum

def queued (s : Outbound) : Nat := (s.channel.queue.map sinkBytes).sum

/-- Payload bytes of sink frames that are reserved or queued and not yet written. -/
def pending (s : Outbound) : Nat := s.reservations + s.queued + heldBytes s.writer

def Accounted (s : Outbound) : Prop := s.inFlightBytes.toNat = s.pending

/-- The operations that keep the counter equal to the pending bytes: a reservation
that does not overflow, the release of a sink frame or of an empty reply, and an
exit that leaves no sink bytes behind. -/
def balanced (s : Outbound) : Act → Bool
  | .reserve o prev spurious =>
    !s.swaps prev spurious || decide (prev.toNat + o.len.toNat < 2 ^ 64)
  | .wrote | .writeFailed =>
    match s.writer with
    | .writing f => decide (f.frameType = .data ∨ f.len = 0)
    | _ => true
  | .zero => decide (s.reservations + s.queued = 0)
  | .dropReceiver => decide (s.queued = 0)
  | _ => true

variable {m prev : UInt64} {s t : Outbound} {a : Act} {o : Offer} {d : Delivery} {f : Frame}

theorem reservations_take (h : d ∈ s.deliveries) :
    reservedBytes d + (s.take d).reservations = s.reservations :=
  List.sum_map_erase reservedBytes h

/-- A delivery that goes on trades what it has reserved. -/
theorem pending_replace (d' : Delivery) (h : d ∈ s.deliveries)
    (hd : t.deliveries = d' :: s.deliveries.erase d) (hchannel : t.channel = s.channel)
    (hwriter : t.writer = s.writer) :
    reservedBytes d + t.pending = reservedBytes d' + s.pending := by
  have hsum : reservedBytes d + ((s.deliveries.erase d).map reservedBytes).sum =
      s.reservations := reservations_take h
  rw [pending, pending, reservations, queued, queued, hd, hchannel, hwriter, List.map_cons,
    List.sum_cons]
  omega

theorem reservations_attempt : (s.attempt m o).reservations = s.reservations := by
  unfold attempt
  split <;> simp [reservations, reservedBytes]

theorem attempt_eq : (s.attempt m o).inFlightBytes = s.inFlightBytes ∧
    (s.attempt m o).channel = s.channel ∧ (s.attempt m o).writer = s.writer := by
  unfold attempt
  split <;> exact ⟨rfl, rfl, rfl⟩

theorem pending_attempt : (s.attempt m o).pending = s.pending := by
  obtain ⟨-, hc, hw⟩ := attempt_eq (s := s) (m := m) (o := o)
  rw [pending, pending, reservations_attempt, queued, queued, hc, hw]

@[simp] theorem sinkBytes_sinkFrame : sinkBytes (sinkFrame o) = o.len.toNat := rfl

theorem sinkBytes_reply (h : f.frameType ≠ .data) : sinkBytes f = 0 := by
  simp [sinkBytes, h]

/-- A step that moves no bytes in or out keeps the accounts. -/
theorem accounted_of_eq (h : Accounted s) (hp : t.pending = s.pending)
    (hb : t.inFlightBytes = s.inFlightBytes) : Accounted t := by
  rw [Accounted, hp, hb]
  exact h

/-- Releasing a pending amount undoes its reservation. -/
theorem accounted_release {x : UInt64} (h : Accounted s) (hx : x.toNat + t.pending = s.pending)
    (ht : t.inFlightBytes = s.inFlightBytes - x) : Accounted t := by
  have hle : x ≤ s.inFlightBytes := by
    rw [UInt64.le_iff_toNat_le, h]
    omega
  have hs : s.inFlightBytes.toNat = s.pending := h
  rw [Accounted, ht, UInt64.toNat_sub_of_le _ _ hle]
  omega

/-- Releasing what was never reserved is harmless only when it is nothing. -/
theorem accounted_release_unreserved {x : UInt64} (h : Accounted s) (hp : t.pending = s.pending)
    (ht : t.inFlightBytes = s.inFlightBytes - x) : Accounted t ↔ x = 0 := by
  rw [Accounted, ht, hp, ← h, UInt64.toNat_inj]
  constructor
  · intro he
    have := congrArg (s.inFlightBytes - ·) he
    simpa using this
  · rintro rfl
    simp

theorem accounted_attempt (h : Accounted s) : Accounted (s.attempt m o) :=
  accounted_of_eq h pending_attempt attempt_eq.1

/-- A successful swap adds the reservation to both sides, unless the sum overflows. -/
theorem accounted_reserve (h : Accounted s) (hd : .loaded o prev ∈ s.deliveries)
    (hprev : s.inFlightBytes = prev)
    (ht : t = { s with
      inFlightBytes := prev + o.len
      deliveries := .reserved o :: s.deliveries.erase (.loaded o prev) }) :
    Accounted t ↔ prev.toNat + o.len.toNat < 2 ^ 64 := by
  have hp : t.pending = o.len.toNat + s.pending := by
    have hsum := pending_replace (.reserved o) (t := t) hd (by rw [ht]) (by rw [ht]) (by rw [ht])
    simpa only [reservedBytes, Nat.zero_add] using hsum
  have hs : prev.toNat = s.pending := by
    rw [← hprev]
    exact h
  rw [Accounted, hp, ht, UInt64.toNat_add]
  constructor
  · intro he
    have hlt := Nat.mod_lt (prev.toNat + o.len.toNat) (show 0 < 2 ^ 64 by omega)
    omega
  · intro hlt
    rw [Nat.mod_eq_of_lt hlt]
    omega

/-- Sending moves the reservation into the queue, or keeps it for the rollback. -/
theorem accounted_trySend (h : Accounted s) (hstep : step m s (.trySend o) = some t) :
    Accounted t := by
  simp only [step] at hstep
  split at hstep
  · next hd =>
    split at hstep
    · next c hc =>
      have hsum := reservations_take hd
      simp only [reservedBytes] at hsum
      have hq := Channel.Bounded.queue_of_trySend hc
      cases hstep
      refine accounted_of_eq h ?_ rfl
      simp only [pending, queued, hq, List.map_append, List.map_cons, List.map_nil,
        List.sum_append, List.sum_cons, List.sum_nil, sinkBytes_sinkFrame]
      simp only [reservations, take] at hsum ⊢
      omega
    · next e he =>
      cases hstep
      refine accounted_of_eq h ?_ rfl
      apply Nat.add_left_cancel (n := o.len.toNat)
      exact pending_replace (.refused o e) hd rfl rfl rfl
  · cases hstep

theorem accounted_rollback {e : Channel.SendError} (h : Accounted s)
    (hd : .refused o e ∈ s.deliveries) :
    Accounted { s.take (.refused o e) with inFlightBytes := s.inFlightBytes - o.len } := by
  have hsum := reservations_take hd
  simp only [reservedBytes] at hsum
  refine accounted_release h ?_ rfl
  simp only [pending, queued, reservations, take] at hsum ⊢
  omega

/-- A reply joins the queue without counting as pending. -/
theorem accounted_reply {c : Channel.Bounded Frame 1024} (h : Accounted s)
    (hf : f.frameType ≠ .data) (hc : s.channel.trySend f = .ok c) :
    Accounted { s with channel := c } := by
  have hq := Channel.Bounded.queue_of_trySend hc
  refine accounted_of_eq h ?_ rfl
  simp [pending, queued, reservations, hq, sinkBytes_reply hf]

theorem accounted_recv {c : Channel.Bounded Frame 1024} (h : Accounted s)
    (hw : s.writer = .receiving) (hc : s.channel.recv = some (f, c)) :
    Accounted { s with channel := c, writer := .writing f } := by
  have hq := Channel.Bounded.queue_of_recv hc
  refine accounted_of_eq h ?_ rfl
  simp only [pending, queued, reservations, hq, hw, heldBytes, List.map_cons, List.sum_cons]
  omega

/-- The writer subtracts every frame it had in hand, and only sink frames were
added before. -/
theorem accounted_writer_release {w : Writer} (h : Accounted s) (hw : s.writer = .writing f)
    (hheld : heldBytes w = 0)
    (ht : t = { s with inFlightBytes := s.inFlightBytes - f.len, writer := w }) :
    Accounted t ↔ f.frameType = .data ∨ f.len = 0 := by
  have hp : sinkBytes f + t.pending = s.pending := by
    subst ht
    have hh : heldBytes (.writing f) = sinkBytes f := rfl
    simp only [pending, queued, reservations, hw, hheld, hh]
    omega
  have hfl : t.inFlightBytes = s.inFlightBytes - f.len := by rw [ht]
  by_cases hf : f.frameType = .data
  · have hb : sinkBytes f = f.len.toNat := by simp [sinkBytes, hf]
    rw [hb] at hp
    exact iff_of_true (accounted_release h hp hfl) (.inl hf)
  · rw [sinkBytes_reply hf, Nat.zero_add] at hp
    rw [accounted_release_unreserved h hp hfl]
    simp [hf]

/-- Exactly the balanced operations keep the counter right. -/
theorem accounted_step (h : step m s a = some t) (hs : Accounted s) :
    Accounted t ↔ s.balanced a := by
  cases a with
  | deliver o =>
    simp only [step] at h
    split at h
    · cases h
      exact iff_of_true (accounted_attempt hs) rfl
    · cases h
  | reserve o prev spurious =>
    simp only [step] at h
    split at h
    · next hd =>
      have hsum := reservations_take hd
      split at h
      · next hsw =>
        have hprev : s.inFlightBytes = prev := by simp_all [swaps]
        rw [accounted_reserve hs hd hprev (Option.some.inj h).symm]
        simp [balanced, hsw]
      · next hsw =>
        cases h
        refine iff_of_true (accounted_attempt (accounted_of_eq hs ?_ rfl)) (by simp [balanced, hsw])
        simp only [reservedBytes, Nat.zero_add] at hsum
        rw [pending, pending, hsum]
        rfl
    · cases h
  | trySend o => exact iff_of_true (accounted_trySend hs h) rfl
  | rollback o e =>
    simp only [step] at h
    split at h
    · next hd =>
      cases h
      exact iff_of_true (accounted_rollback hs hd) rfl
    · cases h
  | reply f =>
    simp only [step] at h
    split at h
    · next hf =>
      split at h
      · next c hc =>
        cases h
        exact iff_of_true (accounted_reply hs hf.2 hc) rfl
      · cases h
        exact iff_of_true hs rfl
    · cases h
  | recv =>
    simp only [step] at h
    split at h
    · next f c hw hc =>
      cases h
      exact iff_of_true (accounted_recv hs hw hc) rfl
    · cases h
  | recvNone =>
    simp only [step] at h
    split at h
    · next hw =>
      cases h
      refine iff_of_true ?_ rfl
      simpa [Accounted, pending, queued, reservations, hw.1, heldBytes] using hs
    · cases h
  | wrote | writeFailed =>
    simp only [step] at h
    split at h
    · next f hw =>
      rw [accounted_writer_release hs hw rfl (Option.some.inj h).symm]
      simp [balanced, hw]
    · cases h
  | writeTimedOut =>
    simp only [step] at h
    split at h
    · next f hw =>
      cases h
      refine iff_of_true ?_ rfl
      simpa [Accounted, pending, queued, reservations, hw, heldBytes] using hs
    · cases h
  | zero =>
    simp only [step] at h
    split at h
    · cases h
      have hp : { s with inFlightBytes := 0, writer := .zeroed }.pending =
          s.reservations + s.queued := rfl
      rw [Accounted, hp, balanced, decide_eq_true_eq]
      exact eq_comm
    · cases h
  | dropReceiver =>
    simp only [step] at h
    split at h
    · next hw =>
      cases h
      simp only [Accounted, pending, hw, heldBytes, Nat.add_zero] at hs
      simp only [Accounted, pending, heldBytes, balanced, decide_eq_true_eq, hs]
      simp [queued, reservations]
    · cases h
  | dropSenders =>
    simp only [step] at h
    split at h
    · cases h
      exact iff_of_true hs rfl
    · cases h

theorem accounted_initial : Accounted initial := rfl

theorem accounted_run {acts : List Act}
    (hg : Transition.Guarded (step m) (fun s a => s.balanced a) initial acts)
    (hr : Transition.run (step m) initial acts = some s) : Accounted s :=
  Transition.run_invariant_of_guarded (fun _ _ _ h hok hs => (accounted_step h hs).mpr hok)
    hg hr accounted_initial

/-- A counter that is right never wraps on a balanced release. -/
theorem released_le (hs : Accounted s) (h : step m s a = some t) (hb : s.balanced a) :
    s.released a ≤ s.inFlightBytes := by
  have hs' : s.inFlightBytes.toNat = s.pending := hs
  have hle : (s.released a).toNat ≤ s.pending := by
    cases a with
    | rollback o e =>
      simp only [step] at h
      split at h
      · next hd =>
        have hsum := reservations_take hd
        simp only [reservedBytes] at hsum
        simp only [released, pending]
        omega
      · cases h
    | wrote | writeFailed =>
      simp only [step] at h
      split at h
      · next f hw =>
        simp only [balanced, hw, decide_eq_true_eq] at hb
        have hh : heldBytes (.writing f) = sinkBytes f := rfl
        simp only [released, hw, pending]
        rcases hb with hf | hz
        · have hbytes : sinkBytes f = f.len.toNat := by simp [sinkBytes, hf]
          omega
        · simp [hz]
      · cases h
    | _ => simp [released]
  rw [UInt64.le_iff_toNat_le]
  omega

theorem lt_of_overBudget (h : overBudget m prev o) :
    m.toNat < prev.toNat + o.len.toNat := by
  have hlt : m < prev + o.len := by simpa [overBudget] using h
  rw [UInt64.lt_iff_toNat_lt, UInt64.toNat_add] at hlt
  exact Nat.lt_of_lt_of_le hlt (Nat.mod_le _ _)

/-- Over a counter that is right, a refusal has a reason. -/
theorem refusal_justified (hs : Accounted s) (h : s.refuses m a = some o) :
    m.toNat < s.pending + o.len.toNat ∨ 1024 ≤ s.channel.queue.length := by
  rw [← hs]
  cases a with
  | deliver o' =>
    simp only [refuses, Option.ite_none_right_eq_some, Option.some.injEq] at h
    obtain ⟨ho, rfl⟩ := h
    exact .inl (lt_of_overBudget ho)
  | reserve o' prev spurious =>
    simp only [refuses, Option.ite_none_right_eq_some, Option.some.injEq, Bool.and_eq_true] at h
    obtain ⟨⟨-, ho⟩, rfl⟩ := h
    exact .inl (lt_of_overBudget ho)
  | trySend o' =>
    simp only [refuses] at h
    split at h
    · next hc => exact .inr (Channel.Bounded.le_length_of_trySend hc)
    · cases h
  | _ => cases h

/-- The counter equals the pending sink bytes throughout a run exactly when every
operation of the run is balanced; in such a run nothing wraps and no delivery is
refused without a reason. -/
theorem outbound_accounting (m : UInt64) (acts : List Act) :
    (Transition.Throughout (step m) Accounted initial acts ↔
      Transition.Guarded (step m) (fun s a => s.balanced a) initial acts) ∧
    ∀ s a t, Transition.Guarded (step m) (fun s a => s.balanced a) initial (acts ++ [a]) →
      Transition.run (step m) initial acts = some s → step m s a = some t →
      s.released a ≤ s.inFlightBytes ∧
        ∀ o, s.refuses m a = some o →
          m.toNat < s.pending + o.len.toNat ∨ 1024 ≤ s.channel.queue.length := by
  refine ⟨Transition.throughout_iff_guarded (fun _ _ _ h hs => accounted_step h hs)
    accounted_initial, ?_⟩
  intro s a t hg hr hstep
  obtain ⟨hg₁, hg₂⟩ := Transition.guarded_append hg hr
  have hs := accounted_run hg₁ hr
  obtain ⟨hb, -⟩ := hg₂ t hstep
  exact ⟨released_le hs hstep hb, fun o ho => refusal_justified hs ho⟩

/-- A message of three bytes that goes through the sink, the channel and the writer. -/
def oneMessage : List Act :=
  [.deliver ⟨.json, [1, 2, 3]⟩, .reserve ⟨.json, [1, 2, 3]⟩ 0 false, .trySend ⟨.json, [1, 2, 3]⟩,
    .recv]

theorem one_message_released :
    ∃ s, Transition.run (step 8) initial oneMessage = some s ∧ s.inFlightBytes = 3 ∧
      s.released .wrote ≤ s.inFlightBytes := by
  refine ⟨_, rfl, rfl, ?_⟩
  exact ((outbound_accounting 8 oneMessage).2 _ .wrote _ (by decide) rfl rfl).1

/-- The reply to a subscribe on topic "t". -/
def subscribeAckExample : Frame where
  payload := some (Json.text (.object [("result", .string "accepted"),
    ("subscription_id", .number (.posInt 1)), ("topic", .string "t"),
    ("type", .string "subscribe_ack")]))

/-- Once the writer has written one reply, the counter has wrapped and a one-byte
message is refused over an empty queue and a budget of a mebibyte. -/
theorem reply_wraps_counter :
    ∃ s, Transition.run (step 1048576) initial [.reply subscribeAckExample, .recv, .wrote] =
        some s ∧
      ¬ Accounted s ∧ s.pending = 0 ∧ s.inFlightBytes = 0 - subscribeAckExample.len ∧
      s.channel.queue = [] ∧
      s.refuses 1048576 (.deliver ⟨.json, [0]⟩) = some ⟨.json, [0]⟩ := by
  refine ⟨_, rfl, ?_, rfl, rfl, rfl, by decide⟩
  unfold Accounted
  decide

end Outbound

end Rifts
