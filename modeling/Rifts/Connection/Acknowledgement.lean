import Mathlib.Data.List.Forall2
import Rifts.Connection.Reader
import Rifts.Transition.Service

/-! The acknowledgements that a sequence of data frames gets. -/
namespace Rifts.Acknowledgement

open Transition ReaderState

variable {O L D S : Type} [OffsetStore O] [LogStore L] [DedupeStore D] [SnapshotStore S]

/-- What becomes of a data frame: its time is over when it is read, or the broker answers. -/
inductive Verdict
  | late
  | accepted (outcome : PublishOutcome)
  | refused (reason : RiftError)

def verdict (s : ReaderState O L D S) (x : Received) : Verdict :=
  if x.frame.expired x.readAt then .late
  else
    match (s.control.broker.publish x.publishAt x.frame).2.1 with
    | .ok outcome => .accepted outcome
    | .error e => .refused e

/-- The ack names the message and says what became of it. -/
def Tells (a : Ack) (x : Received) (v : Verdict) : Prop :=
  a.messageId = x.frame.messageId.getD "" ∧
    match v with
    | .accepted outcome =>
      if outcome.duplicate then a.status = .duplicate
      else a.status = .persisted ∧ a.offset = some outcome.offset
    | .refused _ | .late => a.status = .failed ∨ a.status = .rejected ∨ a.status = .expired

/-- The frame is an ack that tells what became of a request. -/
def Answers (J : SerdeJson) (codec : EncodingFormat) (request : Received × Verdict) (f : Frame) :
    Prop :=
  ∃ a, f = ackFrame J codec a ∧ Tells a request.1 request.2

/-- The ack that a frame asks for, with what becomes of the frame. -/
def request (s : ReaderState O L D S) (x : Received) : List (Received × Verdict) :=
  if x.frame.requiresAck then [(x, verdict s x)] else []

/-- The frames that asked for an ack, in the order they came, with what became of each. -/
def requests (J : SerdeJson) (conn : Nat) (codec : EncodingFormat) (sessionId : String) :
    ReaderState O L D S → List Received → List (Received × Verdict)
  | _, [] => []
  | s, x :: xs =>
    request s x ++ requests J conn codec sessionId (turn J conn codec sessionId s x).1 xs

/-- The frames put on the outbound channel, in the order they were put there. -/
def replies (J : SerdeJson) (conn : Nat) (codec : EncodingFormat) (sessionId : String)
    (s : ReaderState O L D S) (xs : List Received) : List Frame :=
  (answers (turn J conn codec sessionId) s xs).flatMap Prod.fst

/-- The frame asks for an ack and its time is over when it is read. -/
def unanswered (x : Received) : Bool := x.frame.requiresAck && x.frame.expired x.readAt

variable {J : SerdeJson} {conn : Nat} {codec : EncodingFormat} {sessionId : String}
  {s : ReaderState O L D S} {x : Received} {xs : List Received}

theorem replies_cons : replies J conn codec sessionId s (x :: xs) =
    (turn J conn codec sessionId s x).2.1 ++
      replies J conn codec sessionId (turn J conn codec sessionId s x).1 xs := rfl

theorem turn_data (hdata : x.frame.frameType = .data) :
    (turn J conn codec sessionId s x).2.1 = (onDataFrame J codec s x).queued := by
  simp only [turn, dispatchReceived, hdata]

/-- A frame that asks for no ack is answered by none. -/
theorem queued_of_not_requiresAck (h : x.frame.requiresAck = false) :
    (onDataFrame J codec s x).queued = [] := by
  simp only [onDataFrame, h, Bool.false_eq_true, if_false]
  split
  · rfl
  · split <;> rfl

/-- A frame whose time is over is dropped before anything else is looked at. -/
theorem queued_of_expired (h : x.frame.expired x.readAt = true) :
    (onDataFrame J codec s x).queued = [] := by
  simp [onDataFrame, h]

/-- Any other frame that asks for an ack gets it, whatever the broker says. -/
theorem queued_of_requiresAck (J : SerdeJson) (codec : EncodingFormat) (s : ReaderState O L D S)
    (hack : x.frame.requiresAck = true) (hroom : x.room = true)
    (hlate : x.frame.expired x.readAt = false) :
    ∃ f, (onDataFrame J codec s x).queued = [f] ∧ Answers J codec (x, verdict s x) f := by
  have hsend (reply : Frame) : (trySendReply x.room reply).1 = [reply] := by
    simp [trySendReply, hroom]
  rcases hp : s.control.broker.publish x.publishAt x.frame with ⟨broker, result, offers⟩
  cases result with
  | ok outcome =>
    have hv : verdict s x = .accepted outcome := by simp [verdict, hlate, hp]
    refine ⟨ackFrame J codec ⟨x.ackId, x.frame.messageId.getD "",
      if outcome.duplicate then .duplicate else .persisted, some outcome.offset, none, x.ackAt⟩,
      ?_, _, rfl, rfl, ?_⟩
    · simp only [onDataFrame, hlate, hp, hack, hsend, Bool.false_eq_true, if_false, if_true]
    · rw [hv]
      dsimp only
      cases outcome.duplicate <;> simp
  | error e =>
    have hv : verdict s x = .refused e := by simp [verdict, hlate, hp]
    refine ⟨ackFrame J codec ⟨x.ackId, x.frame.messageId.getD "", .failed, none, some e.display,
      x.ackAt⟩, ?_, _, rfl, rfl, ?_⟩
    · simp only [onDataFrame, hlate, hp, hack, hsend, Bool.false_eq_true, if_false, if_true]
    · rw [hv]
      exact .inl rfl

/-- What one turn asks for and queues. -/
theorem turn_cases (J : SerdeJson) (conn : Nat) (codec : EncodingFormat) (sessionId : String)
    (s : ReaderState O L D S) (hdata : x.frame.frameType = .data) (hroom : x.room = true) :
    (unanswered x = true ∧ request s x = [(x, .late)] ∧
        (turn J conn codec sessionId s x).2.1 = []) ∨
      (unanswered x = false ∧ request s x = [] ∧ (turn J conn codec sessionId s x).2.1 = []) ∨
      ∃ f, unanswered x = false ∧ request s x = [(x, verdict s x)] ∧
        (turn J conn codec sessionId s x).2.1 = [f] ∧ Answers J codec (x, verdict s x) f := by
  rw [turn_data hdata]
  cases hack : x.frame.requiresAck with
  | false =>
    exact .inr (.inl ⟨by simp [unanswered, hack], by simp [request, hack],
      queued_of_not_requiresAck hack⟩)
  | true =>
    cases hlate : x.frame.expired x.readAt with
    | true =>
      exact .inl ⟨by simp [unanswered, hack, hlate], by simp [request, hack, verdict, hlate],
        queued_of_expired hlate⟩
    | false =>
      obtain ⟨f, hqueued, hf⟩ := queued_of_requiresAck J codec s hack hroom hlate
      exact .inr (.inr ⟨f, by simp [unanswered, hlate], by simp [request, hack], hqueued, hf⟩)

/-- There are as many acks as requests, but for the ones that went unanswered. -/
theorem length_requests (hxs : ∀ x ∈ xs, x.frame.frameType = .data ∧ x.room = true) :
    (requests J conn codec sessionId s xs).length =
      (replies J conn codec sessionId s xs).length + xs.countP unanswered := by
  induction xs generalizing s with
  | nil => rfl
  | cons x xs ih =>
    obtain ⟨hdata, hroom⟩ := hxs x List.mem_cons_self
    have hrest := ih (s := (turn J conn codec sessionId s x).1)
      fun y hy => hxs y (List.mem_cons_of_mem x hy)
    rw [requests, replies_cons, List.countP_cons, List.length_append, List.length_append, hrest]
    obtain ⟨hx, hreq, hqueued⟩ | ⟨hx, hreq, hqueued⟩ | ⟨f, hx, hreq, hqueued, -⟩ :=
      turn_cases J conn codec sessionId s hdata hroom
    all_goals
      rw [hreq, hqueued]
      simp only [hx, List.length_singleton, List.length_nil, if_true, Bool.false_eq_true, if_false]
      omega

theorem answers_of_answered (hxs : ∀ x ∈ xs, x.frame.frameType = .data ∧ x.room = true)
    (hanswered : ∀ x ∈ xs, unanswered x = false) :
    List.Forall₂ (Answers J codec) (requests J conn codec sessionId s xs)
      (replies J conn codec sessionId s xs) := by
  induction xs generalizing s with
  | nil => exact .nil
  | cons x xs ih =>
    obtain ⟨hdata, hroom⟩ := hxs x List.mem_cons_self
    have hrest := ih (s := (turn J conn codec sessionId s x).1)
      (fun y hy => hxs y (List.mem_cons_of_mem x hy))
      fun y hy => hanswered y (List.mem_cons_of_mem x hy)
    rw [requests, replies_cons]
    obtain ⟨hx, -⟩ | ⟨-, hreq, hqueued⟩ | ⟨f, -, hreq, hqueued, hf⟩ :=
      turn_cases J conn codec sessionId s hdata hroom
    · rw [hanswered x List.mem_cons_self] at hx
      cases hx
    · rw [hreq, hqueued]
      exact hrest
    · rw [hreq, hqueued]
      exact .cons hf hrest

/-- With room in the channel, the acks that go out for a sequence of data frames are one for
each frame that asks for it, in order, exactly when none of those is over when it is read. -/
theorem requests_are_acknowledged (J : SerdeJson) (conn : Nat) (codec : EncodingFormat)
    (sessionId : String) (s : ReaderState O L D S) (xs : List Received)
    (hxs : ∀ x ∈ xs, x.frame.frameType = .data ∧ x.room = true) :
    List.Forall₂ (Answers J codec) (requests J conn codec sessionId s xs)
        (replies J conn codec sessionId s xs) ↔
      ∀ x ∈ xs, x.frame.requiresAck = true → x.frame.expired x.readAt = false := by
  have hiff : (∀ x ∈ xs, x.frame.requiresAck = true → x.frame.expired x.readAt = false) ↔
      ∀ x ∈ xs, unanswered x = false := by
    simp [unanswered]
  rw [hiff]
  constructor
  · intro h
    have hlength := h.length_eq
    rw [length_requests hxs] at hlength
    have hnone : xs.countP unanswered = 0 := by omega
    simpa using List.countP_eq_zero.mp hnone
  · exact answers_of_answered hxs

/-- A message that is good for 10 ms after it was written at 5, read at some time. -/
def requestAt (now : Int64) : Received where
  frame := { frameType := .data, flags := ⟨FrameFlags.requiresAck⟩, topic := some "t"
             messageId := some "m", timestamp := 5, ttlMs := some 10, payload := some [1] }
  readAt := now
  publishAt := now
  sinkId := 0
  ackId := "a"
  ackAt := now
  room := true
  errorRoom := true

/-- The message is sent twice in time, and both times there is an ack. -/
theorem both_copies_are_acknowledged :
    List.Forall₂ (Answers (.reading []) .json)
        (requests (.reading []) 1 .json "s" freshReader [requestAt 6, requestAt 7])
        (replies (.reading []) 1 .json "s" freshReader [requestAt 6, requestAt 7]) ∧
      (replies (.reading []) 1 .json "s" freshReader [requestAt 6, requestAt 7]).length = 2 := by
  refine ⟨?_, rfl⟩
  exact (requests_are_acknowledged (.reading []) 1 .json "s" freshReader
    [requestAt 6, requestAt 7] (by simp [requestAt])).mpr (by decide +kernel)

/-- Read at 100 it asks for an ack and gets none. -/
theorem late_message_is_not_acknowledged :
    (requestAt 100).frame.requiresAck = true ∧
      requests (.reading []) 1 .json "s" freshReader [requestAt 100] =
        [(requestAt 100, .late)] ∧
      replies (.reading []) 1 .json "s" freshReader [requestAt 100] = [] ∧
      ¬ List.Forall₂ (Answers (.reading []) .json)
        (requests (.reading []) 1 .json "s" freshReader [requestAt 100])
        (replies (.reading []) 1 .json "s" freshReader [requestAt 100]) := by
  refine ⟨by decide, rfl, rfl, ?_⟩
  intro h
  cases h

end Rifts.Acknowledgement
