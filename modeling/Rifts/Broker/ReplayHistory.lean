import Rifts.Broker.MemoryBroker
import Rifts.Storage.Retention

/-! What `replay` returns after a sequence of publishes. -/
namespace Rifts

namespace InMemoryBroker

variable {σ : Type}

/-- A sequence of publishes, each with the time it is made at. -/
def publishAll (b : DefaultBroker σ) : List (Int64 × Frame) → DefaultBroker σ
  | [] => b
  | (now, f) :: fs => publishAll (b.publish now f).1 fs

/-- The offset and the payload of a publish to the topic, if it succeeds. -/
def acceptance (topic : String) (b : DefaultBroker σ) (now : Int64) (f : Frame) :
    Option (Int64 × Bytes) :=
  match (b.publish now f).2.1 with
  | .ok outcome =>
    if f.topic = some topic then some (outcome.offset, f.payload.getD []) else none
  | .error _ => none

/-- The successful publishes to the topic among a sequence of publishes. -/
def acceptedBy (topic : String) (b : DefaultBroker σ) :
    List (Int64 × Frame) → List (Int64 × Bytes)
  | [] => []
  | (now, f) :: fs =>
    (acceptance topic b now f).toList ++ acceptedBy topic (b.publish now f).1 fs

end InMemoryBroker

/-- The lowest offset that a policy retains of the accepted publishes of a topic. A
TTL goes by the clock and is not of this kind. -/
def RetentionPolicy.firstRetained (accepted : List (Int64 × Bytes)) (head : Int) :
    RetentionPolicy → Int
  | .durable | .ttl _ => 1
  | .count n => max 1 (head - n + 1)
  | .latest => head
  | .none => head + 1
  | .size maxBytes => head + 1 - Suffix.fit (fun x => x.2.length) maxBytes accepted

def LogEntry.numbered (e : LogEntry) : Int64 × Bytes := (e.offset, e.payload)

namespace InMemoryBroker

variable {σ : Type} {b b' : DefaultBroker σ} {t : String} {history : List LogEntry}
  {now : Int64} {f : Frame} {fs : List (Int64 × Frame)}

/-- All that was ever appended on a topic, numbered from 1 on, and what is left of it. -/
structure Kept (b : DefaultBroker σ) (t : String) (history : List LogEntry) : Prop where
  next : (b.offsets.inner t).getD 1 = nthOffset history.length
  numbered : history.map (·.offset) = (List.range history.length).map nthOffset
  log : b.logOf t = history.rtake ((b.retentionOf t).kept history)

theorem offset_lt_of_kept (hk : Kept b t history) (hlen : history.length + 1 < 2 ^ 63)
    {e : LogEntry} (he : e ∈ history) : e.offset < nthOffset history.length := by
  have hmem : e.offset ∈ (List.range history.length).map nthOffset := by
    rw [← hk.numbered]
    exact List.mem_map_of_mem he
  obtain ⟨i, hi, hoff⟩ := List.mem_map.mp hmem
  have hlt : i < history.length := List.mem_range.mp hi
  rw [← hoff, Int64.lt_iff_toInt_lt, toInt_nthOffset (by omega), toInt_nthOffset hlen]
  omega

/-- A publish that leaves offsets, logs and profiles alone leaves the history. -/
theorem kept_of_same (ho : b'.offsets.inner t = b.offsets.inner t)
    (hl : b'.logOf t = b.logOf t) (hr : b'.retentionOf t = b.retentionOf t)
    (hk : Kept b t history) : Kept b' t history := by
  obtain ⟨hnext, hnum, hlog⟩ := hk
  exact ⟨by rw [ho, hnext], hnum, by rw [hl, hr, hlog]⟩

/-- An accepted publish extends the history of its topic by one entry. -/
theorem kept_record {store : TopicStore} {messageId : String} {outcome : PublishOutcome}
    {offers : List (σ × Bytes)} (httl : (b.retentionOf t).isTtl = false)
    (hlen : b.retentionOf t = .latest → history.length + 1 < 2 ^ 63)
    (hprofile : ∀ u, store.profileOf b.defaultProfile u = b.store.profileOf b.defaultProfile u)
    (hr : record { b with store } now f t messageId (b.store.profileOf b.defaultProfile t) =
      (b', outcome, offers)) (hk : Kept b t history) :
    Kept b' t (history ++ [logEntry f messageId outcome.offset]) ∧
      outcome.offset = nthOffset history.length := by
  have hretention : b'.retentionOf t = b.retentionOf t := by
    cases hr
    exact congrArg TopicProfile.retention (hprofile t)
  have hoffset : outcome.offset = nthOffset history.length := by
    cases hr
    exact hk.next
  have hlog : b'.logOf t = retain now (logEntry f messageId outcome.offset)
      (b.logOf t ++ [logEntry f messageId outcome.offset]) (b.retentionOf t) := by
    cases hr
    exact logOf_append_self (b := b) rfl
  have hinner : (b'.offsets.inner t).getD 1 = outcome.offset + 1 := by
    cases hr
    simp
  refine ⟨⟨?_, ?_, ?_⟩, hoffset⟩
  · rw [hinner, hoffset, List.length_append]
    exact (nthOffset_succ history.length).symm
  · rw [List.map_append, List.length_append, hk.numbered, List.length_singleton,
      List.range_succ, List.map_append]
    simp [logEntry, hoffset]
  · rw [hlog, hretention, hk.log]
    refine retain_concat httl ?_
    -- `Latest` drops by offset, so it needs the new one to be new
    intro hlatest e he heq
    have hlt := offset_lt_of_kept hk (hlen hlatest) he
    rw [heq, ← hoffset] at hlt
    exact Int64.lt_irrefl hlt

theorem retentionOf_publish : (b.publish now f).1.retentionOf t = b.retentionOf t :=
  congrArg TopicProfile.retention profileOf_publish

/-- One publish adds to the history of a topic what it accepts there. -/
theorem kept_publish (httl : (b.retentionOf t).isTtl = false)
    (hlen : b.retentionOf t = .latest →
      history.length + (acceptance t b now f).toList.length < 2 ^ 63)
    (hk : Kept b t history) :
    ∃ added, Kept (b.publish now f).1 t (history ++ added) ∧
      added.map LogEntry.numbered = (acceptance t b now f).toList := by
  have hretention : (b.publish now f).1.retentionOf t = b.retentionOf t := retentionOf_publish
  obtain ⟨store, hprofile, ⟨e, hp⟩ | ⟨u, messageId, b', outcome, offers, hu, hr, hp⟩⟩ :=
    publish_cases b now f
  · refine ⟨[], ?_, by simp [acceptance, hp]⟩
    rw [hp] at hretention ⊢
    rw [List.append_nil]
    exact kept_of_same (b := b) rfl rfl hretention hk
  · by_cases ht : u = t
    · subst ht
      have hacc : acceptance u b now f = some (outcome.offset, f.payload.getD []) := by
        simp [acceptance, hp, hu]
      rw [hacc] at hlen ⊢
      refine ⟨[logEntry f messageId outcome.offset], ?_, rfl⟩
      rw [hp]
      exact (kept_record httl hlen hprofile hr hk).1
    · have hacc : acceptance t b now f = none := by
        simp [acceptance, hp, hu, ht]
      refine ⟨[], ?_, by simp [hacc]⟩
      rw [hp] at hretention ⊢
      rw [List.append_nil]
      refine kept_of_same ?_ ?_ hretention hk <;> cases hr
      · simp [Ne.symm ht]
      · exact logOf_append_of_ne rfl (Ne.symm ht)

theorem kept_publishAll (httl : (b.retentionOf t).isTtl = false)
    (hlen : b.retentionOf t = .latest →
      history.length + (acceptedBy t b fs).length < 2 ^ 63)
    (hk : Kept b t history) :
    ∃ added, Kept (b.publishAll fs) t (history ++ added) ∧
      added.map LogEntry.numbered = acceptedBy t b fs := by
  induction fs generalizing b history with
  | nil => exact ⟨[], by rwa [List.append_nil], rfl⟩
  | cons x fs ih =>
    obtain ⟨now, f⟩ := x
    simp only [acceptedBy, List.length_append] at hlen
    have hnow : b.retentionOf t = .latest →
        history.length + (acceptance t b now f).toList.length < 2 ^ 63 := by
      intro hlatest
      have := hlen hlatest
      omega
    obtain ⟨first, hfirst, hfirstmap⟩ := kept_publish httl hnow hk
    have hlength : first.length = (acceptance t b now f).toList.length := by
      rw [← hfirstmap, List.length_map]
    have hlater : (b.publish now f).1.retentionOf t = .latest →
        (history ++ first).length + (acceptedBy t (b.publish now f).1 fs).length < 2 ^ 63 := by
      intro hlatest
      rw [retentionOf_publish] at hlatest
      have := hlen hlatest
      rw [List.length_append]
      omega
    obtain ⟨rest, hrest, hrestmap⟩ := ih (by rwa [retentionOf_publish]) hlater hfirst
    refine ⟨first ++ rest, ?_, ?_⟩
    · rw [← List.append_assoc]
      exact hrest
    · rw [List.map_append, hfirstmap, hrestmap]
      rfl

theorem retentionOf_publishAll : (b.publishAll fs).retentionOf t = b.retentionOf t := by
  induction fs generalizing b with
  | nil => rfl
  | cons x fs ih => exact ih.trans retentionOf_publish

theorem kept_new (ho : b.offsets.inner t = none) (hl : b.log.inner t = none) : Kept b t [] :=
  ⟨by rw [ho]; rfl, rfl, by simp [logOf, hl]⟩

theorem headOffset_of_kept (hk : Kept b t history) :
    b.headOffset t = Int64.ofNat history.length :=
  head_of_next hk.next

theorem toInt_headOffset_of_kept (hk : Kept b t history) (hlen : history.length < 2 ^ 63) :
    (b.headOffset t).toInt = history.length := by
  rw [headOffset_of_kept hk, Int64.toInt_ofNat_of_lt hlen]

/-- The entries that are kept are those from the first retained offset on. -/
theorem firstRetained_le_iff {policy : RetentionPolicy} (httl : policy.isTtl = false) {n : Int}
    (hpos : 1 ≤ n) (hle : n ≤ history.length) :
    policy.firstRetained (history.map LogEntry.numbered) history.length ≤ n ↔
      ((history.length - policy.kept history : Nat) : Int) < n := by
  cases policy with
  | ttl ms => cases httl
  | size maxBytes =>
    have hfit : Suffix.fit LogEntry.size maxBytes history ≤ history.length := Suffix.fit_le
    have hmap : Suffix.fit (fun x : Int64 × Bytes => x.2.length) maxBytes
        (history.map LogEntry.numbered) = Suffix.fit LogEntry.size maxBytes history :=
      Suffix.fit_map
    simp only [RetentionPolicy.firstRetained, RetentionPolicy.kept, hmap]
    omega
  | none | count | durable | latest =>
    simp only [RetentionPolicy.firstRetained, RetentionPolicy.kept]
    omega

theorem toInt_offset_of_kept (hk : Kept b t history) (hlen : history.length < 2 ^ 63) :
    history.map (·.offset.toInt) =
      (List.range history.length).map fun i : Nat => (i : Int) + 1 := by
  have hmap : history.map (·.offset.toInt) = (history.map (·.offset)).map Int64.toInt := by
    rw [List.map_map]
    rfl
  rw [hmap, hk.numbered, List.map_map]
  refine List.map_congr_left ?_
  intro i hi
  have hlt : i < history.length := List.mem_range.mp hi
  exact toInt_nthOffset (by omega)

theorem sorted_of_kept (hk : Kept b t history) (hlen : history.length < 2 ^ 63) :
    ((history.map LogEntry.numbered).map Prod.fst).Pairwise (· < ·) := by
  have hmap : (history.map LogEntry.numbered).map Prod.fst = history.map (·.offset) := by
    rw [List.map_map]
    rfl
  rw [hmap, hk.numbered, List.pairwise_map]
  refine List.Pairwise.imp_of_mem ?_ List.pairwise_lt_range
  intro i j hi hj hij
  have hilt : i < history.length := List.mem_range.mp hi
  have hjlt : j < history.length := List.mem_range.mp hj
  rw [Int64.lt_iff_toInt_lt, toInt_nthOffset (by omega), toInt_nthOffset (by omega)]
  omega

/-- Under any policy but a TTL, a range of the log is a range of the retained history. -/
theorem replay_of_kept (httl : (b.retentionOf t).isTtl = false) (hk : Kept b t history)
    (hlen : history.length < 2 ^ 63) (first last : Int64) :
    b.replay t first last = ((history.map LogEntry.numbered).filter fun x =>
      first ≤ x.1 ∧ x.1 ≤ last ∧
        (b.retentionOf t).firstRetained (history.map LogEntry.numbered) (b.headOffset t).toInt ≤
          x.1.toInt ∧ x.1 ≤ b.headOffset t).map Prod.snd := by
  have hnumber := toInt_offset_of_kept hk hlen
  have hhead := toInt_headOffset_of_kept hk hlen
  have hrange : LogStore.range b.log t first last =
      (history.filter fun e => first ≤ e.offset ∧ e.offset ≤ last ∧
        (b.retentionOf t).firstRetained (history.map LogEntry.numbered) (b.headOffset t).toInt ≤
          e.offset.toInt ∧ e.offset ≤ b.headOffset t) := by
    change (b.logOf t).filter _ = _
    rw [hk.log, List.rtake, Suffix.drop_eq_filter hnumber, List.filter_filter]
    refine List.filter_congr ?_
    intro e he
    have hmem : e.offset.toInt ∈ history.map (·.offset.toInt) := List.mem_map_of_mem he
    rw [hnumber, List.mem_map] at hmem
    obtain ⟨i, hi, hoff⟩ := hmem
    have hlt : i < history.length := List.mem_range.mp hi
    have hiff : (b.retentionOf t).firstRetained (history.map LogEntry.numbered) history.length ≤
        e.offset.toInt ↔ _ := firstRetained_le_iff httl (by omega) (by omega)
    have hbelow : e.offset ≤ b.headOffset t := by
      rw [Int64.le_iff_toInt_le, hhead]
      omega
    simp only [hhead, hiff, hbelow, and_true, Bool.decide_and, Bool.and_assoc]
  rw [replay, hrange, List.filter_map, List.map_map]
  rfl

/-- After fewer than `2 ^ 63` successful publishes to a topic, `replay` returns, in
increasing order of offsets, the payloads of those in its bounds that the policy of
the topic retains. -/
theorem replay_is_retained_history (b : DefaultBroker σ) (t : String)
    (ho : b.offsets.inner t = none) (hl : b.log.inner t = none)
    (httl : (b.retentionOf t).isTtl = false) (fs : List (Int64 × Frame))
    (hlen : (acceptedBy t b fs).length < 2 ^ 63) :
    ((acceptedBy t b fs).map Prod.fst).Pairwise (· < ·) ∧
      ∀ first last, (b.publishAll fs).replay t first last =
        ((acceptedBy t b fs).filter fun x => first ≤ x.1 ∧ x.1 ≤ last ∧
          (b.retentionOf t).firstRetained (acceptedBy t b fs)
            ((b.publishAll fs).headOffset t).toInt ≤ x.1.toInt ∧
          x.1 ≤ (b.publishAll fs).headOffset t).map Prod.snd := by
  have hlatest : b.retentionOf t = .latest → ([] : List LogEntry).length +
      (acceptedBy t b fs).length < 2 ^ 63 := by
    intro _
    rwa [List.length_nil, Nat.zero_add]
  obtain ⟨history, hk, hmap⟩ := kept_publishAll httl hlatest (kept_new ho hl)
  rw [List.nil_append] at hk
  have hlength : history.length < 2 ^ 63 := by
    rwa [← hmap, List.length_map] at hlen
  have hretention : (b.publishAll fs).retentionOf t = b.retentionOf t := retentionOf_publishAll
  rw [← hmap]
  refine ⟨sorted_of_kept hk hlength, ?_⟩
  intro first last
  rw [← hretention] at httl ⊢
  exact replay_of_kept httl hk hlength first last

/-- Of three publishes under `Count(2)`, a replay of all offsets returns the last two. -/
theorem replay_of_three_publishes :
    let b : DefaultBroker MpscSink := .new { retention := .count 2 } 60000 65536
    let fs : List (Int64 × Frame) := [1, 2, 3].map fun n =>
      (0, { topic := some "t", messageId := some "m", payload := some [n] })
    (acceptedBy "t" b fs).length = 3 ∧
      (b.publishAll fs).replay "t" 0 9 = ((acceptedBy "t" b fs).filter fun x => 0 ≤ x.1 ∧ x.1 ≤ 9 ∧
        (b.retentionOf "t").firstRetained (acceptedBy "t" b fs)
          ((b.publishAll fs).headOffset "t").toInt ≤ x.1.toInt ∧
        x.1 ≤ (b.publishAll fs).headOffset "t").map Prod.snd ∧
      (b.publishAll fs).replay "t" 0 9 = [[2], [3]] :=
  ⟨by decide, (replay_is_retained_history _ "t" rfl rfl rfl _ (by decide)).2 0 9, by decide⟩

section Wrap

theorem target_publish {now' : Int64} {f' : Frame} :
    (b.publish now f).1.target now' f' = b.target now' f' := by
  obtain ⟨store, -, ⟨e, hp⟩ | ⟨u, messageId, b', outcome, offers, -, hr, hp⟩⟩ :=
    publish_cases b now f
  · rw [hp]
    rfl
  · rw [hp]
    cases hr
    rfl

/-- While there are publisher slots, a good frame can be published again and again. -/
theorem length_acceptedBy_replicate {k : Nat} (ht : b.target now f = some t)
    (hroom : b.store.publishers t + k ≤
      (b.store.profileOf b.defaultProfile t).maxPublishers.toNat) :
    (acceptedBy t b (List.replicate k (now, f))).length = k := by
  induction k generalizing b with
  | zero => rfl
  | succ k ih =>
    rcases publishers_publish ht with ⟨hlimit, -⟩ | ⟨⟨outcome, hok⟩, hcount⟩
    · have hfull := full_of_publisherLimit ht hlimit
      omega
    · have hcount := hcount t
      rw [if_pos rfl] at hcount
      have hacc : acceptance t b now f = some (outcome.offset, f.payload.getD []) := by
        simp [acceptance, hok, (topic_of_target ht).1]
      rw [List.replicate_succ, acceptedBy, hacc, List.length_append, Option.toList_some,
        List.length_singleton, ih (target_publish.trans ht) (by rw [profileOf_publish]; omega)]
      omega

/-- Where everything is retained, the first entry stays under offset 1 and the head
is the number of entries cut to 64 bits. -/
theorem durable_publishAll (hdurable : b.retentionOf t = .durable)
    (ho : b.offsets.inner t = none) (hl : b.log.inner t = none)
    (hpos : 0 < (acceptedBy t b fs).length) :
    (b.publishAll fs).headOffset t = Int64.ofNat (acceptedBy t b fs).length ∧
      (b.publishAll fs).replay t 1 1 ≠ [] := by
  have hlatest : b.retentionOf t = .latest → ([] : List LogEntry).length +
      (acceptedBy t b fs).length < 2 ^ 63 := by
    intro h
    cases hdurable.symm.trans h
  obtain ⟨history, hk, hmap⟩ := kept_publishAll (by rw [hdurable]; rfl) hlatest (kept_new ho hl)
  rw [List.nil_append] at hk
  rw [← hmap, List.length_map] at hpos ⊢
  refine ⟨headOffset_of_kept hk, ?_⟩
  have hlog : (b.publishAll fs).logOf t = history := by
    rw [hk.log, retentionOf_publishAll, hdurable]
    exact Suffix.rtake_of_length_le (Nat.le_refl _)
  obtain ⟨e, rest, rfl⟩ := List.exists_cons_of_length_pos hpos
  have hoffset : e.offset = 1 := by
    have hnum := hk.numbered
    rw [List.length_cons, List.range_succ_eq_map] at hnum
    exact (List.cons.inj hnum).1
  have hmem : e ∈ LogStore.range (b.publishAll fs).log t 1 1 := by
    change e ∈ ((b.publishAll fs).logOf t).filter _
    rw [hlog, List.mem_filter]
    exact ⟨List.mem_cons_self, by simp [hoffset]⟩
  exact List.ne_nil_of_mem (List.mem_map_of_mem hmem)

/-- With `2 ^ 63` publishes the offsets wrap: the head is negative, so no offset lies
between 1 and the head, yet a replay of offset 1 finds the first publish. Only the width of the
offset is meant, as no store holds a log of `2 ^ 63` entries. -/
theorem replay_above_wrapped_head :
    let b : DefaultBroker MpscSink :=
      .new { retention := .durable, maxPublishers := 18446744073709551615 } 60000 65536
    let fs : List (Int64 × Frame) :=
      List.replicate (2 ^ 63) (0, { topic := some "t", messageId := some "m" })
    (b.publishAll fs).headOffset "t" = Int64.minValue ∧
      (b.publishAll fs).replay "t" 1 1 ≠ [] ∧
      ((acceptedBy "t" b fs).filter fun x => 1 ≤ x.1 ∧ x.1 ≤ 1 ∧
        (b.retentionOf "t").firstRetained (acceptedBy "t" b fs)
          ((b.publishAll fs).headOffset "t").toInt ≤ x.1.toInt ∧
        x.1 ≤ (b.publishAll fs).headOffset "t").map Prod.snd = [] := by
  intro b fs
  have hall : (acceptedBy "t" b fs).length = 2 ^ 63 :=
    length_acceptedBy_replicate (by decide) (by decide)
  have hpos : 0 < (acceptedBy "t" b fs).length := by
    rw [hall]
    decide
  obtain ⟨hhead, hreplay⟩ := durable_publishAll (b := b) rfl rfl rfl hpos
  rw [hall] at hhead
  refine ⟨hhead, hreplay, ?_⟩
  rw [List.map_eq_nil_iff, List.filter_eq_nil_iff]
  intro x hx
  rw [decide_eq_true_eq, hhead]
  rintro ⟨hfirst, -, -, hlast⟩
  have hlt : (1 : Int64) ≤ Int64.ofNat (2 ^ 63) := Int64.le_trans hfirst hlast
  exact absurd hlt (by decide)

end Wrap

end InMemoryBroker

end Rifts
