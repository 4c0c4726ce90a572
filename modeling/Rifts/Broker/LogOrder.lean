import Rifts.Broker.PublishAtomicity
import Rifts.Storage.Retention

/-! The log of a topic under concurrent publishes. -/
namespace Rifts

open Transition

/-- The call has put its entry in the log of the topic. -/
def PublishPhase.appended {σ : Type} (t : String) : PublishPhase σ → Bool
  | capture m .. | collect m _ | offer m .. | published m _ => m.topic = t
  | _ => false

def PublishPhase.appendedOn {σ : Type} (t : String) (u : PublishPhase σ) : Multiset Int64 :=
  if u.appended t then u.offset.toList else 0

namespace PublishRace

variable {O L D S σ : Type}

/-- Whatever range is asked for, the entries come in the order of their offsets. -/
def LogInOrder (p : Calls O MemoryLogStore D S σ) : Prop :=
  ∀ t lo hi, ((LogStore.range p.shared.broker.log t lo hi).map (·.offset)).Pairwise (· < ·)

/-- Once the calls on a topic have returned, a policy that keeps the latest or the
`n` latest entries has kept those with the highest offsets. -/
def HighestRetained (p : Calls O MemoryLogStore D S σ) : Prop :=
  ∀ t, (∀ u ∈ p.threads, u.topic = some t → u.returned) → ∀ n,
    p.shared.broker.retentionOf t = .count n ∨ p.shared.broker.retentionOf t = .latest ∧ n = 1 →
    Suffix.Highest n ((p.shared.broker.logOf t).map (·.offset)) (accepted t p.threads)

/-- An entry is appended when every call on the topic that has appended already has
a smaller offset. -/
def inSequence (p : Calls O L D S σ) : Act → Bool
  | .spawn _ => true
  | .advance i _ =>
    match p.threads[i]? with
    | some (.append m _ o) =>
      p.threads.all fun v => !v.appended m.topic || v.offset.all (· < o)
    | _ => true

/-- All that was appended on a topic, in order of offsets, and what is left of it. -/
structure History (p : Calls O MemoryLogStore D S σ) (t : String) (history : List LogEntry) :
    Prop where
  sorted : (history.map (·.offset)).Pairwise (· < ·)
  appended : ((history.map (·.offset) : List Int64) : Multiset Int64) =
    Pool.total (PublishPhase.appendedOn t) p.threads
  sublist : List.Sublist (p.shared.broker.logOf t) history
  kept : (p.shared.broker.retentionOf t).isTtl = false →
    p.shared.broker.logOf t = history.rtake ((p.shared.broker.retentionOf t).kept history)

section Appends

variable [OffsetStore O] {s s' : PublishState O MemoryLogStore D S σ} {u u' : PublishPhase σ}
  {pre post : List (PublishPhase σ)} {t : String}

theorem retentionOf_access [LogStore L] {s s' : PublishState O L D S σ}
    (h : PublishPhase.Access s u s' u') : s'.broker.retentionOf t = s.broker.retentionOf t := by
  cases h with
  | route m hg => exact congrArg TopicProfile.retention (TopicStore.profileOf_getOrCreate hg)
  | take m hg hn => exact congrArg TopicProfile.retention (TopicStore.profileOf_put hg rfl)
  | _ => rfl

omit [OffsetStore O] in
theorem appendedOn_of_not (h : u.appended t = false) : u.appendedOn t = 0 := by
  simp [PublishPhase.appendedOn, h]

omit [OffsetStore O] in
theorem appended_of_uncommitted (h : u.committed = false) : u.appended t = false := by
  cases u <;> first | rfl | cases h

/-- Only `append` touches a log. -/
theorem log_access [LogStore L] {s s' : PublishState O L D S σ}
    (h : PublishPhase.Access s u s' u') :
    (s'.broker.log = s.broker.log ∧ ∀ t, u'.appendedOn t = u.appendedOn t) ∨
      ∃ m fresh o now profile, u = .append m fresh o ∧ u' = .capture m fresh o profile ∧
        s'.broker.log = LogStore.append s.broker.log now m.topic
          (InMemoryBroker.logEntry m.frame m.messageId o) (s.broker.retentionOf m.topic) := by
  cases h with
  | refuse f e hu =>
    refine .inl ⟨rfl, fun t => ?_⟩
    rw [appendedOn_of_not (appended_of_uncommitted hu), appendedOn_of_not rfl]
  | validate | route | load | retry | take | dedupe | alloc | capture | skip | collect | offer
  | finish => exact .inl ⟨rfl, fun t => rfl⟩
  | append m now hg =>
    refine .inr ⟨m, _, _, now, _, rfl, rfl, ?_⟩
    simp [InMemoryBroker.retentionOf, TopicStore.profileOf, hg]

omit [OffsetStore O] in
/-- An append that is in sequence has the highest offset so far. -/
theorem lt_of_inSequence {m : Message} {fresh : Bool} {o : Int64} {input : PublishInput}
    (hseq : inSequence ⟨s, pre ++ .append m fresh o :: post⟩ (.advance pre.length input) = true)
    {x : Int64}
    (hx : x ∈ Pool.total (PublishPhase.appendedOn m.topic) (pre ++ .append m fresh o :: post)) :
    x < o := by
  obtain ⟨v, hv, hxv⟩ := Pool.mem_total.mp hx
  simp only [inSequence, List.getElem?_append_right (le_refl _), Nat.sub_self,
    List.getElem?_cons_zero, List.all_eq_true] at hseq
  unfold PublishPhase.appendedOn at hxv
  split at hxv
  · next happ =>
    have hoff : v.offset = some x := by simpa using hxv
    simpa [happ, hoff] using hseq v hv
  · cases hxv

omit [OffsetStore O] in
/-- Where calls append in sequence, the history of a topic grows at its end. -/
theorem history_append {m : Message} {fresh : Bool} {o now : Int64} {profile : TopicProfile}
    {history : List LogEntry} {input : PublishInput}
    (hh : History ⟨s, pre ++ .append m fresh o :: post⟩ m.topic history)
    (hseq : inSequence ⟨s, pre ++ .append m fresh o :: post⟩ (.advance pre.length input) = true)
    (hret : s'.broker.retentionOf m.topic = s.broker.retentionOf m.topic)
    (hlog : s'.broker.log = LogStore.append s.broker.log now m.topic
      (InMemoryBroker.logEntry m.frame m.messageId o) (s.broker.retentionOf m.topic)) :
    History ⟨s', pre ++ .capture m fresh o profile :: post⟩ m.topic
      (history ++ [InMemoryBroker.logEntry m.frame m.messageId o]) := by
  have hlt : ∀ x ∈ history.map (·.offset), x < o := by
    intro x hx
    refine lt_of_inSequence hseq ?_
    rw [← hh.appended]
    exact hx
  have hlogOf : s'.broker.logOf m.topic = retain now (InMemoryBroker.logEntry m.frame m.messageId o)
      (s.broker.logOf m.topic ++ [InMemoryBroker.logEntry m.frame m.messageId o])
      (s.broker.retentionOf m.topic) := InMemoryBroker.logOf_append_self hlog
  constructor
  · rw [List.map_append, List.pairwise_append]
    refine ⟨hh.sorted, List.pairwise_singleton .., ?_⟩
    intro x hx y hy
    obtain rfl : y = o := by simpa [InMemoryBroker.logEntry] using hy
    exact hlt x hx
  · have hold := hh.appended
    have hnew : (PublishPhase.capture m fresh o profile : PublishPhase σ).appendedOn m.topic =
        {o} := by
      simp [PublishPhase.appendedOn, PublishPhase.appended, PublishPhase.offset]
    rw [Pool.total_split, appendedOn_of_not rfl, zero_add] at hold
    rw [Pool.total_split, hnew, List.map_append, ← Multiset.coe_add, hold, add_comm]
    rfl
  · simp only [hlogOf]
    exact retain_sublist.trans (hh.sublist.append_right _)
  · simp only [hlogOf, hret]
    intro hpolicy
    rw [hh.kept hpolicy]
    refine retain_concat hpolicy ?_
    intro _ e he heq
    have hlt := hlt e.offset (List.mem_map_of_mem he)
    rw [heq] at hlt
    exact Int64.lt_irrefl hlt

theorem history_access {history : List LogEntry} {input : PublishInput}
    (h : PublishPhase.Access s u s' u')
    (hseq : inSequence ⟨s, pre ++ u :: post⟩ (.advance pre.length input) = true)
    (hh : History ⟨s, pre ++ u :: post⟩ t history) :
    ∃ history, History ⟨s', pre ++ u' :: post⟩ t history := by
  have hret := retentionOf_access (t := t) h
  have hsame (hlog : s'.broker.logOf t = s.broker.logOf t)
      (hu : u'.appendedOn t = u.appendedOn t) :
      History ⟨s', pre ++ u' :: post⟩ t history := by
    obtain ⟨hsorted, happended, hsublist, hkept⟩ := hh
    refine ⟨hsorted, ?_, ?_, ?_⟩
    · rw [happended, Pool.total_split, Pool.total_split, hu]
    · simpa only [hlog] using hsublist
    · simpa only [hlog, hret] using hkept
  rcases log_access h with ⟨hlog, hu⟩ | ⟨m, fresh, o, now, profile, rfl, rfl, hlog⟩
  · exact ⟨history, hsame (by rw [InMemoryBroker.logOf, hlog]; rfl) (hu t)⟩
  · by_cases ht : t = m.topic
    · subst ht
      exact ⟨_, history_append hh hseq hret hlog⟩
    · refine ⟨history, hsame (InMemoryBroker.logOf_append_of_ne hlog ht) ?_⟩
      simp [PublishPhase.appendedOn, PublishPhase.appended, Ne.symm ht]

end Appends

section Runs

variable {p p' : Calls O MemoryLogStore D S σ} {t : String} {history : List LogEntry} {a : Act}

theorem logInOrder_of_history (h : ∀ t, ∃ history, History p t history) : LogInOrder p := by
  intro t lo hi
  obtain ⟨history, hh⟩ := h t
  have hrange : List.Sublist (LogStore.range p.shared.broker.log t lo hi)
      (p.shared.broker.logOf t) := List.filter_sublist
  exact hh.sorted.sublist ((hrange.trans hh.sublist).map _)

theorem acceptedOn_eq_appendedOn {u : PublishPhase σ} (h : u.topic = some t → u.returned) :
    u.acceptedOn t = u.appendedOn t := by
  cases u with
  | published m outcome =>
    by_cases ht : m.topic = t <;>
      simp [PublishPhase.acceptedOn, PublishPhase.appendedOn, PublishPhase.appended,
        PublishPhase.offset, ht]
  | capture m | collect m | offer m =>
    have ht : m.topic ≠ t := by
      intro ht
      exact absurd (h (congrArg some ht)) (by simp [PublishPhase.returned])
    simp [PublishPhase.acceptedOn, PublishPhase.appendedOn, PublishPhase.appended, ht]
  | _ => exact (appendedOn_of_not rfl).symm

/-- A call that has returned was accepted with an entry in the log, or has none. -/
theorem accepted_eq_appended {ts : List (PublishPhase σ)}
    (h : ∀ u ∈ ts, u.topic = some t → u.returned) :
    accepted t ts = Pool.total (PublishPhase.appendedOn t) ts := by
  have hmap : ts.map (PublishPhase.acceptedOn t) = ts.map (PublishPhase.appendedOn t) :=
    List.map_congr_left fun u hu => acceptedOn_eq_appendedOn (h u hu)
  rw [accepted, Pool.total, Pool.total, hmap]

theorem highestRetained_of_history (h : ∀ t, ∃ history, History p t history) :
    HighestRetained p := by
  intro t hret n hpolicy
  obtain ⟨history, hh⟩ := h t
  have hlog : p.shared.broker.logOf t = history.rtake n := by
    rcases hpolicy with hcount | ⟨hlatest, rfl⟩
    · rw [hh.kept (by rw [hcount]; rfl), hcount]
      rfl
    · rw [hh.kept (by rw [hlatest]; rfl), hlatest]
      rfl
  rw [accepted_eq_appended hret, ← hh.appended, hlog, Suffix.map_rtake]
  exact Suffix.highest_rtake hh.sorted

variable [OffsetStore O] [DedupeStore D] [SnapshotStore S]

theorem history_step (h : step p a = some p') (hseq : inSequence p a = true)
    (hh : ∀ t, ∃ history, History p t history) : ∀ t, ∃ history, History p' t history := by
  intro t
  obtain ⟨history, hh⟩ := hh t
  obtain ⟨shared, threads⟩ := p
  rcases step_cases h with ⟨f, rfl, rfl⟩ | ⟨pre, u, post, input, s, u', rfl, hp, hacc, rfl⟩
  · refine ⟨history, hh.sorted, ?_, hh.sublist, hh.kept⟩
    rw [Pool.total_concat, appendedOn_of_not rfl, zero_add]
    exact hh.appended
  · obtain rfl : threads = pre ++ u :: post := hp
    exact history_access hacc hseq hh

/-- Where entries are appended in the order of their offsets, every range of a log
comes in that order, and the policies that keep the latest entries keep the highest
offsets. -/
theorem log_order (b : InMemoryBroker O MemoryLogStore D S σ) (hb : ∀ t, b.log.inner t = none)
    (acts : List Act) (hg : Guarded step (fun p a => inSequence p a) ⟨⟨b, []⟩, []⟩ acts) :
    Throughout step (fun p => LogInOrder p ∧ HighestRetained p) ⟨⟨b, []⟩, []⟩ acts := by
  have hstart : ∀ t, ∃ history,
      History (⟨⟨b, []⟩, []⟩ : Calls O MemoryLogStore D S σ) t history := by
    intro t
    have hempty : b.logOf t = [] := by simp [InMemoryBroker.logOf, hb t]
    refine ⟨[], List.Pairwise.nil, rfl, ?_, ?_⟩
    · simp [hempty]
    · simp [hempty]
  refine throughout_mono (throughout_of_guarded (fun p a p' => history_step) hg hstart) ?_
  intro p hh
  exact ⟨logInOrder_of_history hh, highestRetained_of_history hh⟩

/-- A broker that retains by the policy, before its first publish. -/
def brokerWith (retention : RetentionPolicy) : DefaultBroker MpscSink :=
  .new { retention } 60000 65536

theorem appends_in_sequence_are_in_order :
    Throughout step (fun p => LogInOrder p ∧ HighestRetained p) ⟨⟨brokerWith (.count 1), []⟩, []⟩
        (twoPublishes ++ accesses 0 6 ++ accesses 1 6 ++ accesses 0 4 ++ accesses 1 4) ∧
      ∃ p, run step ⟨⟨brokerWith (.count 1), []⟩, []⟩
          (twoPublishes ++ accesses 0 6 ++ accesses 1 6 ++ accesses 0 4 ++ accesses 1 4) = some p ∧
        (∀ u ∈ p.threads, u.returned) ∧ (p.shared.broker.logOf "t").map (·.offset) = [2] := by
  refine ⟨log_order (brokerWith (.count 1)) (fun _ => rfl) _ (by decide), ?_⟩
  exact ⟨_, rfl, by decide, by decide⟩

/-- The call that was given offset 1 appends after the one that was given 2: two
entries are kept in the wrong order, and if only the latest is kept, it is the
wrong one. -/
theorem late_append_is_out_of_order :
    (∃ p, run step ⟨⟨brokerWith (.count 2), []⟩, []⟩
        (twoPublishes ++ accesses 0 6 ++ accesses 1 10 ++ accesses 0 4) = some p ∧
      (∀ u ∈ p.threads, u.returned) ∧ ¬ LogInOrder p) ∧
    ∃ p, run step ⟨⟨brokerWith .latest, []⟩, []⟩
        (twoPublishes ++ accesses 0 6 ++ accesses 1 10 ++ accesses 0 4) = some p ∧
      (∀ u ∈ p.threads, u.returned) ∧ accepted "t" p.threads = {1, 2} ∧
      (p.shared.broker.logOf "t").map (·.offset) = [1] ∧ ¬ HighestRetained p := by
  constructor
  · obtain ⟨p, hrun, hret, hrange⟩ : ∃ p, run step ⟨⟨brokerWith (.count 2), []⟩, []⟩
        (twoPublishes ++ accesses 0 6 ++ accesses 1 10 ++ accesses 0 4) = some p ∧
        (∀ u ∈ p.threads, u.returned) ∧
        (LogStore.range p.shared.broker.log "t" 0 9).map (·.offset) = [2, 1] :=
      ⟨_, rfl, by decide, by decide⟩
    refine ⟨p, hrun, hret, ?_⟩
    intro h
    have hpair := h "t" 0 9
    rw [hrange] at hpair
    exact absurd hpair (by decide)
  · obtain ⟨p, hrun, hret, hacc, hlog, hpolicy⟩ : ∃ p, run step ⟨⟨brokerWith .latest, []⟩, []⟩
        (twoPublishes ++ accesses 0 6 ++ accesses 1 10 ++ accesses 0 4) = some p ∧
        (∀ u ∈ p.threads, u.returned) ∧ accepted "t" p.threads = {1, 2} ∧
        (p.shared.broker.logOf "t").map (·.offset) = [1] ∧
        p.shared.broker.retentionOf "t" = .latest :=
      ⟨_, rfl, by decide, rfl, by decide, by decide⟩
    refine ⟨p, hrun, hret, hacc, hlog, ?_⟩
    intro h
    have habove := (h "t" (fun u hu _ => hret u hu) 1 (.inr ⟨hpolicy, rfl⟩)).above
    rw [hlog, hacc] at habove
    have hlt : (2 : Int64) < 1 := habove 1 (by decide) 2 (by decide)
    exact absurd hlt (by decide)

end Runs

end PublishRace

end Rifts
