import Rifts.Broker.MemoryBroker
import Rifts.Storage.LogContents
import Rifts.Storage.TopicWindow
import Rifts.Transition.Run

/-! Topics under a TTL, and whose clock it goes by. -/
namespace Rifts

open Transition Encode

namespace InMemoryBroker

variable {O L D S σ : Type} [OffsetStore O] [LogStore L] [DedupeStore D] [SnapshotStore S]

/-- What a publish appends, and to which log. -/
def logged (b : InMemoryBroker O L D S σ) (now : Int64) (f : Frame) : Option (String × LogEntry) :=
  match (b.publish now f).2.1 with
  | .error _ => none
  | .ok outcome =>
    match f.topic, f.messageId with
    | some topic, some messageId => some (topic, logEntry f messageId outcome.offset)
    | _, _ => none

variable {b : InMemoryBroker O L D S σ} {now : Int64} {f : Frame}

/-- A publish appends one entry to the log of its topic, or nothing to any. -/
theorem log_publish (b : InMemoryBroker O L D S σ) (now : Int64) (f : Frame) :
    (b.logged now f = none ∧ (b.publish now f).1.log = b.log) ∨
      ∃ t messageId, b.target now f = some t ∧ validateName t = .ok () ∧
        b.logged now f = some (t, logEntry f messageId (OffsetStore.alloc b.offsets t).2) ∧
        (b.publish now f).1.log = LogStore.append b.log now t
          (logEntry f messageId (OffsetStore.alloc b.offsets t).2) (b.retentionOf t) := by
  cases ht : b.target now f with
  | none =>
    obtain ⟨e, hp, -⟩ := publish_of_no_target ht
    refine .inl ⟨?_, by rw [hp]⟩
    simp only [logged, hp]
  | some t =>
    obtain ⟨htopic, hname⟩ := topic_of_target ht
    obtain ⟨messageId, store, entry, hv, hg, ⟨-, hp⟩ | ⟨entry', b', outcome, offers, hi, hr, hp⟩⟩ :=
      publish_of_target ht
    · refine .inl ⟨?_, by rw [hp]⟩
      simp only [logged, hp]
    · simp only [TopicEntry.tryIncPublisher, Option.map_eq_some_iff] at hi
      obtain ⟨n, -, rfl⟩ := hi
      have hprofile : entry.profile.retention = b.retentionOf t := by
        rw [TopicStore.profile_of_getOrCreate hg]
        rfl
      refine .inr ⟨t, messageId, rfl, hname, ?_, ?_⟩
      · simp only [logged, htopic, (validatePublish_ok hv).2, hp]
        cases hr
        rfl
      · rw [hp, ← hprofile]
        cases hr
        rfl

end InMemoryBroker

/-- A broker, the last clock reading, and what was ever published to each topic and when. -/
structure PublishHistory (O L D S σ : Type) where
  broker : InMemoryBroker O L D S σ
  clock : Int64
  history : String → List Appended

namespace PublishHistory

variable {O L D S σ : Type}

def new (b : InMemoryBroker O L D S σ) : PublishHistory O L D S σ :=
  ⟨b, Int64.minValue, fun _ => []⟩

variable [LogStore L]

/-- A publish at a clock that has not gone back. -/
def step [OffsetStore O] [DedupeStore D] [SnapshotStore S] (s : PublishHistory O L D S σ)
    (x : Int64 × Frame) : Option (PublishHistory O L D S σ) :=
  if s.clock ≤ x.1 then
    some ⟨(s.broker.publish x.1 x.2).1, x.1,
      match s.broker.logged x.1 x.2 with
      | some (t, entry) => Function.update s.history t (s.history t ++ [(x.1, entry)])
      | none => s.history⟩
  else none

variable [LogContents L]

/-- The log of the topic has the entries that were published in the time before the last one. -/
def InWindow (t : String) (ms : Nat) (s : PublishHistory O L D S σ) : Prop :=
  ∀ e, e ∈ LogContents.entries s.broker.log t ↔
    e ∈ (RetentionPolicy.window (s.history t) (.ttl ms)).map Prod.snd

/-- Beside the window: the entries of the topic carry the time they were published at. -/
structure Tracked (t : String) (ms : Nat) (s : PublishHistory O L D S σ) : Prop where
  policy : s.broker.retentionOf t = .ttl ms
  window : InWindow t ms s
  stamped : ∀ x ∈ s.history t, LogContents.time L x.2 = x.1 ∧ 0 ≤ x.1 ∧ x.1 ≤ s.clock

variable {t : String} {ms : Nat} {s s' : PublishHistory O L D S σ}

/-- Nothing about the topic has changed but the clock. -/
theorem Tracked.of_same (h : Tracked t ms s) (hpolicy : s'.broker.retentionOf t = .ttl ms)
    (hlog : LogContents.entries s'.broker.log t = LogContents.entries s.broker.log t)
    (hhistory : s'.history t = s.history t) (hclock : s.clock ≤ s'.clock) : Tracked t ms s' := by
  refine ⟨hpolicy, ?_, ?_⟩
  · rw [InWindow, hlog, hhistory]
    exact h.window
  · rw [hhistory]
    intro y hy
    obtain ⟨htime, hpos, hle⟩ := h.stamped y hy
    exact ⟨htime, hpos, Int64.le_trans hle hclock⟩

/-- A message that carries its time goes into the window that the clock has moved on to. -/
theorem Tracked.append {entry : LogEntry} {now : Int64} (h : Tracked t ms s) (hms : ms < 2 ^ 63)
    (hclock : s.clock ≤ now) (hnow : 0 ≤ now) (htime : LogContents.time L entry = now)
    (hvacant : LogContents.vacant s.broker.log t entry.offset = true) (e : LogEntry) :
    e ∈ LogContents.entries (LogStore.append s.broker.log now t entry (.ttl ms)) t ↔
      e ∈ (RetentionPolicy.window (s.history t ++ [(now, entry)]) (.ttl ms)).map Prod.snd := by
  have hle : ∀ y ∈ s.history t, y.1 ≤ now :=
    fun y hy => Int64.le_trans (h.stamped y hy).2.2 hclock
  have hall : ∀ y ∈ RetentionPolicy.window (s.history t) (.ttl ms) ++ [(now, entry)],
      LogContents.time L y.2 = y.1 ∧ 0 ≤ y.1 := by
    intro y hy
    rcases List.mem_append.mp hy with hy | hy
    · obtain ⟨htime, hpos, -⟩ := h.stamped y (TopicHistory.window_sublist.subset hy)
      exact ⟨htime, hpos⟩
    · rw [List.mem_singleton.mp hy]
      exact ⟨htime, hnow⟩
  rw [LogContents.mem_append_ttl hvacant, h.window e, ← TopicHistory.window_ttl_concat hle,
    ← ClockWindow.filter_eq_recent hms
      (fun y hy => ClockWindow.fits_of_nonneg hnow (hall y hy).2)]
  constructor
  · rintro ⟨hmem, hage⟩
    obtain ⟨y, hy, rfl⟩ : ∃ y ∈ RetentionPolicy.window (s.history t) (.ttl ms) ++ [(now, entry)],
        y.2 = e := by
      rcases hmem with hmem | heq
      · obtain ⟨y, hy, rfl⟩ := List.mem_map.mp hmem
        exact ⟨y, List.mem_append_left _ hy, rfl⟩
      · exact ⟨(now, entry), List.mem_append_right _ (List.mem_singleton_self _), heq.symm⟩
    rw [(hall y hy).1] at hage
    exact List.mem_map_of_mem (List.mem_filter.mpr ⟨hy, decide_eq_true hage⟩)
  · intro hmem
    obtain ⟨y, hy, rfl⟩ := List.mem_map.mp hmem
    obtain ⟨hy, hage⟩ := List.mem_filter.mp hy
    refine ⟨?_, by simpa [(hall y hy).1] using hage⟩
    rcases List.mem_append.mp hy with hy | hy
    · exact .inl (List.mem_map_of_mem hy)
    · exact .inr (by rw [List.mem_singleton.mp hy])

section Runs

variable [OffsetStore O] {x : Int64 × Frame}

/-- A message for the topic carries the clock reading it is published at, which is not before the
epoch, and its offset is not one that an entry in the log has. -/
def Stamped (t : String) (s : PublishHistory O L D S σ) (x : Int64 × Frame) : Prop :=
  s.broker.target x.1 x.2 = some t → x.2.timestamp = x.1 ∧ 0 ≤ x.1 ∧
    LogContents.vacant s.broker.log t (OffsetStore.alloc s.broker.offsets t).2 = true

instance : Decidable (Stamped t s x) := inferInstanceAs (Decidable (_ → _))

variable [DedupeStore D] [SnapshotStore S]

theorem tracked_step (hname : validateName t = .ok ()) (hms : ms < 2 ^ 63)
    (hstep : step s x = some s') (hx : Stamped t s x) (h : Tracked t ms s) : Tracked t ms s' := by
  unfold step at hstep
  split at hstep
  · next hclock =>
    cases hstep
    have hpolicy : (s.broker.publish x.1 x.2).1.retentionOf t = .ttl ms := by
      rw [InMemoryBroker.retentionOf, InMemoryBroker.profileOf_publish]
      exact h.policy
    obtain ⟨hnone, hlog⟩ | ⟨u, messageId, htarget, hu, hlogged, hlog⟩ :=
      InMemoryBroker.log_publish s.broker x.1 x.2
    · refine h.of_same hpolicy (by rw [hlog]) ?_ hclock
      simp only [hnone]
    · by_cases hut : u = t
      · subst hut
        obtain ⟨hstamp, hnow, hvacant⟩ := hx htarget
        have htime : LogContents.time L (InMemoryBroker.logEntry x.2 messageId
            (OffsetStore.alloc s.broker.offsets u).2) = x.1 := by
          rw [LogContents.time_of_unstamped rfl]
          exact hstamp
        refine ⟨hpolicy, ?_, ?_⟩
        · intro e
          simp only [hlog, h.policy, hlogged, Function.update_self]
          exact h.append hms hclock hnow htime hvacant e
        · simp only [hlogged, Function.update_self]
          intro y hy
          rcases List.mem_append.mp hy with hy | hy
          · obtain ⟨hy, hpos, hle⟩ := h.stamped y hy
            exact ⟨hy, hpos, Int64.le_trans hle hclock⟩
          · rw [List.mem_singleton.mp hy]
            exact ⟨htime, hnow, Int64.le_refl _⟩
      · refine h.of_same hpolicy ?_ ?_ hclock
        · rw [hlog]
          exact LogContents.entries_append_of_ne (separable_of_validateName hu)
            (separable_of_validateName hname) (Ne.symm hut)
        · simp only [hlogged, Function.update_of_ne (Ne.symm hut)]
  · cases hstep

theorem inWindow_run (hname : validateName t = .ok ()) (hms : ms < 2 ^ 63)
    (b : InMemoryBroker O L D S σ) (hpolicy : b.retentionOf t = .ttl ms)
    (hempty : LogContents.entries b.log t = []) (publishes : List (Int64 × Frame))
    (hg : Guarded step (Stamped t) (new b) publishes) :
    Throughout step (InWindow t ms) (new b) publishes := by
  have hnew : Tracked t ms (new b) := by
    refine ⟨hpolicy, ?_, by simp [new]⟩
    intro e
    simp only [new, hempty]
    simp [RetentionPolicy.window, ClockWindow.recent]
  have hrun : Throughout step (Tracked t ms) (new b) publishes :=
    throughout_of_guarded (fun _ _ _ h hx => tracked_step hname hms h hx) hg hnew
  exact throughout_mono hrun fun _ h => h.window

/-- When every message for a topic carries the clock reading of its publish, the topic's log has
after each publish the messages of the last `ms` milliseconds, in memory and on sled. -/
theorem ttl_goes_by_stamped_messages (J : Codec LogEntry) (t : String)
    (hname : validateName t = .ok ()) (ms : Nat) (hms : ms < 2 ^ 63) :
    (∀ (b : InMemoryBroker O MemoryLogStore D S σ) (publishes : List (Int64 × Frame)),
      b.retentionOf t = .ttl ms → b.log.logOf t = [] →
      Guarded step (Stamped t) (new b) publishes →
      Throughout step (InWindow t ms) (new b) publishes) ∧
    ∀ (b : InMemoryBroker O (SledLogStore J) D S σ) (publishes : List (Int64 × Frame)),
      b.retentionOf t = .ttl ms → SledLog.entriesOf J b.log.tree t = [] →
      Guarded step (Stamped t) (new b) publishes →
      Throughout step (InWindow t ms) (new b) publishes :=
  ⟨fun b publishes hpolicy hempty => inWindow_run hname hms b hpolicy hempty publishes,
    fun b publishes hpolicy hempty => inWindow_run hname hms b hpolicy hempty publishes⟩

end Runs

/-- Topics whose messages are kept for 10 ms, in memory. -/
def ttlBroker : DefaultBroker MpscSink := .new { retention := .ttl 10 } 60000 65536

/-- A message for "t" with the time that its publisher has put on it. -/
def messageFrom (messageId : String) (timestamp : Int64) : Frame :=
  { frameType := .data, topic := some "t", messageId := some messageId, timestamp
    payload := some [1] }

theorem stamped_messages_last_ten_millis :
    ∃ s, run step (new ttlBroker)
        [(5, messageFrom "a" 5), (20, messageFrom "b" 20), (25, messageFrom "c" 25)] = some s ∧
      InWindow "t" 10 s ∧ (s.broker.logOf "t").map LogEntry.messageId = ["b", "c"] := by
  have h := (ttl_goes_by_stamped_messages SledLog.fieldCodec "t" rfl 10 (by decide)).1 ttlBroker
    [(5, messageFrom "a" 5), (20, messageFrom "b" 20), (25, messageFrom "c" 25)] rfl rfl
    (by decide +kernel)
  obtain ⟨s, hrun, hlog⟩ : ∃ s, run step (new ttlBroker)
      [(5, messageFrom "a" 5), (20, messageFrom "b" 20), (25, messageFrom "c" 25)] = some s ∧
      (s.broker.logOf "t").map LogEntry.messageId = ["b", "c"] := by decide +kernel
  exact ⟨s, hrun, throughout_last h hrun, hlog⟩

/-- A message without a time is evicted by its own publish, and one from the future is there after
its 10 ms are over. -/
theorem ttl_goes_by_publisher_clock :
    ∃ s, run step (new ttlBroker)
        [(1000, messageFrom "future" 9000), (1005, messageFrom "zero" 0),
          (2000, messageFrom "now" 2000)] = some s ∧
      (s.broker.logOf "t").map LogEntry.messageId = ["future", "now"] ∧
      ((RetentionPolicy.window (s.history "t") (.ttl 10)).map fun x => x.2.messageId) = ["now"] ∧
      ∃ s₁, run step (new ttlBroker)
          [(1000, messageFrom "future" 9000), (1005, messageFrom "zero" 0)] = some s₁ ∧
        (s₁.broker.logOf "t").map LogEntry.messageId = ["future"] ∧
        ((RetentionPolicy.window (s₁.history "t") (.ttl 10)).map fun x => x.2.messageId) =
          ["future", "zero"] := by
  decide +kernel

end PublishHistory

end Rifts
