import Rifts.Broker.TtlRetention
import Rifts.Core.TextFrame

/-! The subtractions that a timestamp of a client goes through on its way to the log. -/
namespace Rifts

open Transition Encode ClockWindow

/-- A text message of a client, and the clock when it is read and when it is published. -/
structure TextMessage where
  bytes : Bytes
  readAt : Int64
  publishAt : Int64

/-- The differences that the TTL test of a frame takes. -/
def Frame.aged (f : Frame) (now : Int64) : List (Int64 × Int64) :=
  match f.ttlMs with
  | some _ => if 0 < f.timestamp then [(now, f.timestamp)] else []
  | none => []

namespace TextMessage

/-- The data frame that a message is decoded to. -/
def frame (J : SerdeJson) (m : TextMessage) : Option Frame :=
  match decodeTextFrame J m.bytes with
  | .ok f => if f.frameType = .data then some f else none
  | .error _ => none

section

variable {O L D S σ : Type} {J : SerdeJson} {b : InMemoryBroker O L D S σ} {m : TextMessage}

/-- A message that the broker takes for a topic under a TTL has no timestamp before the epoch. -/
def Dated (J : SerdeJson) (b : InMemoryBroker O L D S σ) (m : TextMessage) : Prop :=
  ∀ f ∈ m.frame J, ∀ t ∈ b.target m.publishAt f, (b.retentionOf t).isTtl = true → 0 ≤ f.timestamp

instance : Decidable (Dated J b m) := inferInstanceAs (Decidable (∀ _ ∈ _, ∀ _ ∈ _, _))

end

variable {O L D S σ : Type} [OffsetStore O] [LogStore L] [DedupeStore D] [SnapshotStore S]

/-- The broker after a message: the frame is published unless its time is over. -/
def step (J : SerdeJson) (b : InMemoryBroker O L D S σ) (m : TextMessage) :
    Option (InMemoryBroker O L D S σ) :=
  match m.frame J with
  | some f => some (if f.expired m.readAt then b else (b.publish m.publishAt f).1)
  | none => some b

variable [LogContents L]

/-- The differences of the append that a publish comes to. -/
def retained (b : InMemoryBroker O L D S σ) (now : Int64) (f : Frame) : List (Int64 × Int64) :=
  match b.logged now f with
  | some (t, entry) =>
    if (b.retentionOf t).isTtl then
      (LogContents.subtracted b.log t entry).map fun time => (now, time)
    else []
  | none => []

/-- All differences that are taken for a message, each of a clock reading and a timestamp: by the
reader, by the broker's check, and by the log. -/
def subtractions (J : SerdeJson) (b : InMemoryBroker O L D S σ) (m : TextMessage) :
    List (Int64 × Int64) :=
  match m.frame J with
  | some f =>
    f.aged m.readAt ++
      if f.expired m.readAt then [] else f.aged m.publishAt ++ retained b m.publishAt f
  | none => []

/-- No subtraction for the message overflows. -/
def Safe (J : SerdeJson) (b : InMemoryBroker O L D S σ) (m : TextMessage) : Prop :=
  ∀ x ∈ subtractions J b m, Fits x.1 x.2

instance {J : SerdeJson} {b : InMemoryBroker O L D S σ} {m : TextMessage} :
    Decidable (Safe J b m) := List.decidableBAll (fun x : Int64 × Int64 => Fits x.1 x.2) _

/-- The logs of the topics under a TTL have no entry from before the epoch. -/
def SinceEpoch (b : InMemoryBroker O L D S σ) : Prop :=
  ∀ t, validateName t = .ok () → (b.retentionOf t).isTtl = true →
    ∀ e ∈ LogContents.entries b.log t, 0 ≤ LogContents.time L e

variable {J : SerdeJson} {b b' : InMemoryBroker O L D S σ} {m : TextMessage} {f : Frame}
  {now : Int64} {x : Int64 × Int64}

theorem fits_of_mem_aged (hnow : 0 ≤ now) (h : x ∈ f.aged now) : Fits x.1 x.2 := by
  unfold Frame.aged at h
  split at h
  · split at h
    · next hpos =>
      rw [List.mem_singleton.mp h]
      exact fits_of_nonneg hnow (Int64.le_of_lt hpos)
    · cases h
  · cases h

/-- What an append under a TTL subtracts is the time of an entry of the log or of the frame. -/
theorem fits_of_mem_retained (hb : SinceEpoch b) (hnow : 0 ≤ now)
    (hf : ∀ t ∈ b.target now f, (b.retentionOf t).isTtl = true → 0 ≤ f.timestamp)
    (h : x ∈ retained b now f) : Fits x.1 x.2 := by
  obtain ⟨hnone, -⟩ | ⟨t, messageId, htarget, hname, hlogged, -⟩ := b.log_publish now f
  · simp only [retained, hnone] at h
    cases h
  · simp only [retained, hlogged] at h
    split at h
    · next httl =>
      obtain ⟨time, htime, rfl⟩ := List.mem_map.mp h
      obtain ⟨e, he | rfl, rfl⟩ := LogContents.mem_subtracted htime
      · exact fits_of_nonneg hnow (hb t hname httl e he)
      · rw [LogContents.time_of_unstamped rfl]
        exact fits_of_nonneg hnow (hf t htarget httl)
    · cases h

theorem sinceEpoch_publish (hb : SinceEpoch b)
    (hf : ∀ t ∈ b.target now f, (b.retentionOf t).isTtl = true → 0 ≤ f.timestamp) :
    SinceEpoch (b.publish now f).1 := by
  intro t hname httl
  rw [InMemoryBroker.retentionOf, InMemoryBroker.profileOf_publish] at httl
  obtain ⟨-, hlog⟩ | ⟨u, messageId, htarget, hu, -, hlog⟩ := b.log_publish now f
  · rw [hlog]
    exact hb t hname httl
  · rw [hlog]
    by_cases hut : t = u
    · subst hut
      intro e he
      rcases LogContents.mem_append he with he | rfl
      · exact hb t hname httl e he
      · rw [LogContents.time_of_unstamped rfl]
        exact hf t htarget httl
    · rw [LogContents.entries_append_of_ne (separable_of_validateName hu)
        (separable_of_validateName hname) hut]
      exact hb t hname httl

theorem sinceEpoch_step (h : step J b m = some b') (hm : Dated J b m) (hb : SinceEpoch b) :
    SinceEpoch b' := by
  unfold step at h
  split at h
  · next f hf =>
    cases h
    split
    · exact hb
    · exact sinceEpoch_publish hb (hm f hf)
  · cases h
    exact hb

theorem safe_of_dated (hread : 0 ≤ m.readAt) (hpublish : 0 ≤ m.publishAt) (hm : Dated J b m)
    (hb : SinceEpoch b) : Safe J b m := by
  intro x hx
  unfold subtractions at hx
  split at hx
  · next f hf =>
    rcases List.mem_append.mp hx with hx | hx
    · exact fits_of_mem_aged hread hx
    · split at hx
      · cases hx
      · rcases List.mem_append.mp hx with hx | hx
        · exact fits_of_mem_aged hpublish hx
        · exact fits_of_mem_retained hb hpublish (hm f hf) hx
  · cases hx

theorem safe_run {ms : List TextMessage} (hb : SinceEpoch b)
    (hclock : ∀ m ∈ ms, 0 ≤ m.readAt ∧ 0 ≤ m.publishAt) (hg : Guarded (step J) (Dated J) b ms) :
    Guarded (step J) (Safe J) b ms := by
  have hclock : Guarded (step J) (fun _ m => 0 ≤ m.readAt ∧ 0 ≤ m.publishAt) b ms :=
    guarded_of_forall_mem hclock
  refine guarded_of_guarded ?_ (guarded_and hg hclock) hb
  rintro b m b' hstep ⟨hm, hread, hpublish⟩ hb
  exact ⟨sinceEpoch_step hstep hm hb, safe_of_dated hread hpublish hm hb⟩

/-- At the end of time the append of a message from before the epoch overflows. -/
theorem not_safe_of_not_dated (hm : ¬ Dated J b m) (hpublish : m.publishAt = Int64.maxValue)
    (hlogged : ∀ f ∈ m.frame J, (b.logged m.publishAt f).isSome = true) : ¬ Safe J b m := by
  intro hsafe
  apply hm
  intro f hf t ht httl
  by_contra hneg
  obtain ⟨hnone, -⟩ | ⟨u, messageId, htarget, -, hsome, -⟩ := b.log_publish m.publishAt f
  · have := hlogged f hf
    rw [hnone] at this
    cases this
  obtain rfl : t = u := Option.some.inj (ht.symm.trans htarget)
  have hyoung : f.expired m.readAt = false := by
    unfold Frame.expired
    split
    · simp only [Bool.and_eq_false_imp, decide_eq_true_eq]
      intro hpos
      exact absurd (Int64.le_of_lt hpos) hneg
    · rfl
  have hmem : (m.publishAt, f.timestamp) ∈ subtractions J b m := by
    simp only [subtractions, Option.mem_def.mp hf, hyoung, retained, hsome, httl]
    have htime : LogContents.time L _ ∈ LogContents.subtracted b.log t
        (InMemoryBroker.logEntry f messageId (OffsetStore.alloc b.offsets t).2) :=
      LogContents.time_mem_subtracted
    rw [LogContents.time_of_unstamped rfl] at htime
    simp only [if_true, Bool.false_eq_true, if_false, List.mem_append]
    exact .inr (.inr (List.mem_map_of_mem htime))
  have hfits := hsafe _ hmem
  rw [hpublish] at hfits
  have hneg : f.timestamp < 0 := Int64.not_le.mp hneg
  have hneg := Int64.lt_iff_toInt_lt.mp hneg
  unfold Fits at hfits
  simp only [Int64.toInt_zero, Int64.toInt_maxValue] at hneg hfits
  omega

/-- While the messages for topics under a TTL are dated from the epoch on, no subtraction on their
way to the log overflows, in memory or on sled. Any other message that is logged overflows at some
clock reading. -/
theorem dated_messages_do_not_overflow (J : SerdeJson) (C : Codec LogEntry) :
    ((∀ (b : InMemoryBroker O MemoryLogStore D S σ) (ms : List TextMessage), SinceEpoch b →
        (∀ m ∈ ms, 0 ≤ m.readAt ∧ 0 ≤ m.publishAt) → Guarded (step J) (Dated J) b ms →
        Guarded (step J) (Safe J) b ms) ∧
      ∀ (b : InMemoryBroker O MemoryLogStore D S σ) (m : TextMessage), ¬ Dated J b m →
        m.publishAt = Int64.maxValue →
        (∀ f ∈ m.frame J, (b.logged m.publishAt f).isSome = true) → ¬ Safe J b m) ∧
    (∀ (b : InMemoryBroker O (SledLogStore C) D S σ) (ms : List TextMessage), SinceEpoch b →
        (∀ m ∈ ms, 0 ≤ m.readAt ∧ 0 ≤ m.publishAt) → Guarded (step J) (Dated J) b ms →
        Guarded (step J) (Safe J) b ms) ∧
      ∀ (b : InMemoryBroker O (SledLogStore C) D S σ) (m : TextMessage), ¬ Dated J b m →
        m.publishAt = Int64.maxValue →
        (∀ f ∈ m.frame J, (b.logged m.publishAt f).isSome = true) → ¬ Safe J b m :=
  ⟨⟨fun _ _ => safe_run, fun _ _ => not_safe_of_not_dated⟩,
    fun _ _ => safe_run, fun _ _ => not_safe_of_not_dated⟩

/-- A message for "t" as a client puts it on the wire. -/
def textBody (messageId : String) (timestamp : Int64) : Json :=
  .object [("topic", .string "t"), ("message_id", .string messageId),
    ("timestamp", .ofI64 timestamp), ("payload", .number (.posInt 1))]

/-- Two clients at the start of the epoch, one of which puts the least time there is on its
message. -/
def textReader : SerdeJson := .reading [textBody "hostile" Int64.minValue, textBody "b" 1]

def textMessage (body : Json) (now : Int64) : TextMessage := ⟨textReader.toVec body, now, now⟩

theorem late_message_does_not_overflow :
    Safe textReader PublishHistory.ttlBroker (textMessage (textBody "b" 1) 20) ∧
      ((textMessage (textBody "b" 1) 20).frame textReader).map Frame.timestamp = some 1 := by
  have hempty : SinceEpoch PublishHistory.ttlBroker := fun _ _ _ e he => by cases he
  have h := (dated_messages_do_not_overflow textReader SledLog.fieldCodec).1.1
    PublishHistory.ttlBroker [textMessage (textBody "b" 1) 20] hempty (by decide)
    (by decide +kernel)
  exact ⟨(h _ rfl).1, by decide +kernel⟩

/-- The time of the first message is stored although it is older than any clock reading allows, and
the message of the other client overflows on it, which leaves it in the log. -/
theorem hostile_timestamp_overflows :
    ∃ b, run (step textReader) PublishHistory.ttlBroker
        [textMessage (textBody "hostile" Int64.minValue) 0] = some b ∧
      ¬ Safe textReader PublishHistory.ttlBroker
        (textMessage (textBody "hostile" Int64.minValue) 0) ∧
      ¬ Safe textReader b (textMessage (textBody "b" 1) 1) ∧
      ∃ b', run (step textReader) b [textMessage (textBody "b" 1) 1] = some b' ∧
        (b'.logOf "t").map LogEntry.messageId = ["hostile", "b"] := by
  decide +kernel

end TextMessage

end Rifts
