import Rifts.Broker.LogOrder
import Rifts.Storage.SledLog
import Rifts.Storage.SledOffset

/-! A broker on sled trees whose process is restarted at any point. -/
namespace Rifts

open Transition Encode

/-- Nothing here depends on the dedupe store and the snapshot store. -/
abbrev SledBroker (J : Codec LogEntry) (D S σ : Type) :=
  InMemoryBroker SledOffsetStore (SledLogStore J) D S σ

/-- The running process, and the calls of earlier ones where a restart cut them off. -/
structure Deployment (J : Codec LogEntry) (D S σ : Type) where
  calls : PublishRace.Calls SledOffsetStore (SledLogStore J) D S σ
  gone : List (PublishPhase σ) := []

namespace Deployment

inductive Act
  | call (act : PublishRace.Act)
  | restart (defaultProfile : TopicProfile) (dedupeWindow maxPayloadBytes : Nat)

def Act.isPublish : Act → Bool
  | call act => PublishRace.Act.isPublish act
  | restart .. => false

variable {J : Codec LogEntry} {D S σ : Type} [DedupeStore D] [SnapshotStore S]

def broker (d : Deployment J D S σ) : SledBroker J D S σ := d.calls.shared.broker

/-- The new process opens the same trees. Its cache is read from the tree of heads, and
there are no topics, subscriptions or calls. -/
def restarted (lossy : Utf8.Lossy) (b : SledBroker J D S σ) (defaultProfile : TopicProfile)
    (dedupeWindow maxPayloadBytes : Nat) : SledBroker J D S σ :=
  .withStores defaultProfile dedupeWindow maxPayloadBytes (.new lossy b.offsets.tree) b.log
    b.dedupe b.snapshots

def step (lossy : Utf8.Lossy) (d : Deployment J D S σ) : Act → Option (Deployment J D S σ)
  | .call act => (PublishRace.step d.calls act).map fun calls => { d with calls }
  | .restart defaultProfile dedupeWindow maxPayloadBytes =>
    some ⟨⟨⟨restarted lossy d.broker defaultProfile dedupeWindow maxPayloadBytes, []⟩, []⟩,
      d.gone ++ d.calls.threads⟩

/-- An offset that is allocated has no entry in the log of its topic. -/
def unused (d : Deployment J D S σ) : Act → Bool
  | .call (.advance i _) =>
    match d.calls.threads[i]? with
    | some (.alloc m _) =>
      let offset := (OffsetStore.alloc d.broker.offsets m.topic).2
      (d.broker.log.tree.get (logKey m.topic offset)).isNone
    | _ => true
  | _ => true

/-- Every call there ever was. -/
def all (d : Deployment J D S σ) : List (PublishPhase σ) := d.gone ++ d.calls.threads

end Deployment

/-- A call that is past the router has a topic with a valid name. -/
def PublishPhase.Named {σ : Type} : PublishPhase σ → Prop
  | validate _ | route _ | refused .. => True
  | load m | attempt m _ | dedupe m | alloc m _ | append m .. | capture m .. | collect m _
  | offer m .. | published m _ => validateName m.topic = .ok ()

theorem TopicStore.validateName_of_getOrCreate {st st' : TopicStore} {name : String}
    {p : TopicProfile} {e : TopicEntry} (h : st.getOrCreate name p = .ok (st', e)) :
    validateName name = .ok () := by
  unfold getOrCreate at h
  split at h
  · cases h
  · next hv => exact hv

namespace PublishRace

variable {O L D S σ : Type} [OffsetStore O] [LogStore L] {s s' : PublishState O L D S σ}
  {u u' : PublishPhase σ} {pre post : List (PublishPhase σ)}

theorem named_access (h : PublishPhase.Access s u s' u') (hu : u.Named) : u'.Named := by
  cases h with
  | refuse | validate => trivial
  | route m hg => exact TopicStore.validateName_of_getOrCreate hg
  | _ => exact hu

/-- Offsets that were given out stay so. -/
theorem mem_offsets_access (h : PublishPhase.Access s u s' u') {t : String} {o : Int64}
    (ho : o ∈ offsets t (pre ++ u :: post)) : o ∈ offsets t (pre ++ u' :: post) := by
  rw [offsets, Pool.total_split, Multiset.mem_add] at ho ⊢
  rcases offsets_access h with ⟨-, hon⟩ | ⟨m, fresh, o', rfl, rfl, -⟩
  · rwa [hon]
  · rw [offsetOn_of_none rfl] at ho
    exact .inr (ho.resolve_left (Multiset.notMem_zero o))

end PublishRace

/-- Offsets come around only after 2^64 of them. -/
theorem nthOffset_ne {m n : Nat} (hlt : m < n) (h : n - m < 2 ^ 64) :
    nthOffset m ≠ nthOffset n := by
  intro heq
  have hint := congrArg Int64.toInt heq
  simp only [nthOffset, Int64.toInt_ofNat', Int64.size, Int.bmod_def] at hint
  omega

theorem SledLog.get_append {J : Codec LogEntry} {tree : SledTree} {now : Int64} {t : String}
    {entry : LogEntry} {policy : RetentionPolicy} {k : Bytes} (hk : k ≠ logKey t entry.offset)
    (h : tree.get k = none) : (append J tree now t entry policy).get k = none := by
  rw [append, SortedMap.foldl_delete, SortedMap.get_filter, SortedMap.get_put_of_ne hk, h]
  rfl

namespace Deployment

variable {J : Codec LogEntry} {D S σ : Type} {d d' : Deployment J D S σ} {a : Act}
  {lossy : Utf8.Lossy}

/-- The heads are where the offsets given out have put them, and the log has entries
for none but these. -/
structure Sound (d : Deployment J D S σ) : Prop where
  counters : ∃ c : MemoryOffsetStore, SledOffsetStore.Mirrors c d.broker.offsets ∧
    ∀ t, Sequence.Issued nthOffset ((c.inner t).getD 1) (PublishRace.offsets t d.all)
  named : ∀ u ∈ d.calls.threads, u.Named
  logged : ∀ t o, Separable t → d.broker.log.tree.get (logKey t o) ≠ none →
    o ∈ PublishRace.offsets t d.all

theorem all_split {pre post : List (PublishPhase σ)} {u : PublishPhase σ}
    {s : PublishState SledOffsetStore (SledLogStore J) D S σ} {gone : List (PublishPhase σ)} :
    all ⟨⟨s, pre ++ u :: post⟩, gone⟩ = (gone ++ pre) ++ u :: post := by
  rw [all, List.append_assoc]

section Access

variable {s s' : PublishState SledOffsetStore (SledLogStore J) D S σ} {u u' : PublishPhase σ}
  {pre post gone : List (PublishPhase σ)}

theorem counters_access (h : PublishPhase.Access s u s' u') (hu : u.Named)
    (hc : ∃ c : MemoryOffsetStore, SledOffsetStore.Mirrors c s.broker.offsets ∧
      ∀ t, Sequence.Issued nthOffset ((c.inner t).getD 1)
        (PublishRace.offsets t (pre ++ u :: post))) :
    ∃ c : MemoryOffsetStore, SledOffsetStore.Mirrors c s'.broker.offsets ∧
      ∀ t, Sequence.Issued nthOffset ((c.inner t).getD 1)
        (PublishRace.offsets t (pre ++ u' :: post)) := by
  obtain ⟨c, hm, hissued⟩ := hc
  rcases PublishRace.offsets_access h with ⟨hsame, hon⟩ | ⟨m, fresh, o, rfl, rfl, halloc⟩
  · refine ⟨c, hsame ▸ hm, fun t => ?_⟩
    have hold := hissued t
    rw [PublishRace.offsets, Pool.total_split] at hold ⊢
    rwa [hon]
  · obtain ⟨hm', ho⟩ := SledOffsetStore.mirrors_alloc hm (separable_of_validateName hu)
    have hstore : s'.broker.offsets = (s.broker.offsets.alloc m.topic).1 :=
      (congrArg Prod.fst halloc).symm
    have hoffset : o = (OffsetStore.alloc c m.topic).2 :=
      (congrArg Prod.snd halloc).symm.trans ho
    rw [hstore, hoffset]
    exact ⟨_, hm', PublishRace.issued_alloc hissued⟩

theorem logged_access (h : PublishPhase.Access s u s' u') (hu : u.Named) {t : String} {o : Int64}
    (ht : Separable t) (hlogged : s.broker.log.tree.get (logKey t o) ≠ none →
      o ∈ PublishRace.offsets t (pre ++ u :: post))
    (hget : s'.broker.log.tree.get (logKey t o) ≠ none) :
    o ∈ PublishRace.offsets t (pre ++ u' :: post) := by
  rcases PublishRace.log_access h with ⟨hlog, -⟩ | ⟨m, fresh, o', now, profile, rfl, rfl, hlog⟩
  · rw [hlog] at hget
    exact PublishRace.mem_offsets_access h (hlogged hget)
  · by_cases hkey : logKey t o = logKey m.topic o'
    · -- the key is the one of the entry just appended
      obtain ⟨rfl, hoff⟩ := (topicKey_inj ht (separable_of_validateName hu)).mp hkey
      obtain rfl := paddedOffset_inj hoff
      rw [PublishRace.offsets, Pool.total_split, Multiset.mem_add]
      left
      simp [PublishPhase.offsetOn, PublishPhase.topic, PublishPhase.offset]
    · refine PublishRace.mem_offsets_access h (hlogged ?_)
      intro hnone
      rw [hlog] at hget
      exact hget (SledLog.get_append hkey hnone)

theorem sound_access (h : PublishPhase.Access s u s' u')
    (hs : Sound ⟨⟨s, pre ++ u :: post⟩, gone⟩) : Sound ⟨⟨s', pre ++ u' :: post⟩, gone⟩ := by
  obtain ⟨hcounters, hnamed, hlogged⟩ := hs
  rw [all_split] at hcounters
  simp only [all_split] at hlogged
  have hu : u.Named := hnamed u Pool.mem_split
  refine ⟨?_, ?_, ?_⟩
  · rw [all_split]
    exact counters_access h hu hcounters
  · obtain ⟨-, hrest⟩ := Pool.forall_mem_split.mp hnamed
    exact Pool.forall_mem_split.mpr ⟨PublishRace.named_access h hu, hrest⟩
  · intro t o ht hget
    rw [all_split]
    exact logged_access h hu ht (hlogged t o ht) hget

end Access

/-- As long as no offset has come around, the next one of a topic is not in its log. -/
theorem unused_of_sound (hs : Sound d) (hlen : d.all.length ≤ 2 ^ 64) (a : Act) :
    d.unused a = true := by
  unfold unused
  split
  · next i input =>
    split
    · next m fresh hi =>
      have hmem := List.mem_of_getElem? hi
      have ht := separable_of_validateName (hs.named _ hmem)
      obtain ⟨c, hm, hissued⟩ := hs.counters
      have hnext : (OffsetStore.alloc d.broker.offsets m.topic).2 =
          nthOffset (PublishRace.offsets m.topic d.all).card :=
        (SledOffsetStore.mirrors_alloc hm ht).2.trans (hissued m.topic).next
      have hcard : (PublishRace.offsets m.topic d.all).card < d.all.length :=
        PublishRace.card_offsets_lt (List.mem_append_right d.gone hmem) rfl
      rw [Option.isNone_iff_eq_none]
      by_contra hsome
      obtain ⟨k, hk, heq⟩ := (hissued m.topic).mem_iff.mp (hs.logged m.topic _ ht hsome)
      exact nthOffset_ne hk (by omega) (heq.trans hnext)
    · rfl
  · rfl

/-- A deployment with empty trees. -/
def new (lossy : Utf8.Lossy) (defaultProfile : TopicProfile) (dedupeWindow maxPayloadBytes : Nat)
    (dedupe : D) (snapshots : S) : Deployment J D S σ :=
  ⟨⟨⟨.withStores defaultProfile dedupeWindow maxPayloadBytes (.new lossy .empty) ⟨.empty⟩ dedupe
    snapshots, []⟩, []⟩, []⟩

theorem sound_new {defaultProfile : TopicProfile} {dedupeWindow maxPayloadBytes : Nat} {dedupe : D}
    {snapshots : S} :
    Sound (new lossy defaultProfile dedupeWindow maxPayloadBytes dedupe snapshots :
      Deployment J D S σ) := by
  refine ⟨⟨⟨fun _ => none⟩, SledOffsetStore.mirrors_empty, fun t => Sequence.issued_zero⟩, ?_, ?_⟩
  · simp [new]
  · intro t o ht hget
    exact absurd SortedMap.get_empty hget

variable [DedupeStore D] [SnapshotStore S]

theorem length_step (h : step lossy d a = some d') :
    d'.all.length = d.all.length + if a.isPublish then 1 else 0 := by
  cases a with
  | call act =>
    obtain ⟨calls, hstep, rfl⟩ := Option.map_eq_some_iff.mp h
    have hlength := PublishRace.length_step hstep
    rw [all, all, List.length_append, List.length_append, hlength, ← Nat.add_assoc]
    rfl
  | restart =>
    cases h
    simp [all, Act.isPublish]

theorem sound_step (h : step lossy d a = some d') (hs : Sound d) : Sound d' := by
  obtain ⟨⟨shared, threads⟩, gone⟩ := d
  cases a with
  | call act =>
    obtain ⟨calls, hstep, rfl⟩ := Option.map_eq_some_iff.mp h
    rcases PublishRace.step_cases hstep with
      ⟨f, rfl, rfl⟩ | ⟨pre, u, post, input, s, u', rfl, hp, hacc, rfl⟩
    · have hnew (t : String) : PublishRace.offsets t (gone ++ (threads ++ [.validate f])) =
          PublishRace.offsets t (gone ++ threads) := by
        rw [← List.append_assoc, PublishRace.offsets, Pool.total_concat,
          PublishRace.offsetOn_of_none rfl, zero_add]
        rfl
      obtain ⟨hcounters, hnamed, hlogged⟩ := hs
      refine ⟨?_, ?_, ?_⟩
      · obtain ⟨c, hm, hissued⟩ := hcounters
        refine ⟨c, hm, fun t => ?_⟩
        rw [all, hnew t]
        exact hissued t
      · intro u hu
        rcases List.mem_append.mp hu with hu | hu
        · exact hnamed u hu
        · rw [List.mem_singleton.mp hu]
          trivial
      · intro t o ht hget
        rw [all, hnew t]
        exact hlogged t o ht hget
    · obtain rfl : threads = pre ++ u :: post := hp
      exact sound_access hacc hs
  | restart =>
    cases h
    obtain ⟨⟨c, hm, hissued⟩, -, hlogged⟩ := hs
    refine ⟨⟨c, SledOffsetStore.mirrors_new hm, ?_⟩, by simp, ?_⟩
    · simpa [all] using hissued
    · intro t o ht hget
      simpa [all] using hlogged t o ht hget

/-- Restarts do not change what the offset store answers, and with at most 2^64
publishes no offset is allocated that is in the log already. -/
theorem offsets_survive_restart (lossy : Utf8.Lossy) (calls : List OffsetCall)
    (hcalls : ∀ c ∈ calls, ∀ t ∈ c.topic, validateName t = .ok ())
    (defaultProfile : TopicProfile) (dedupeWindow maxPayloadBytes : Nat) (dedupe : D)
    (snapshots : S) (acts : List Act) (hacts : acts.countP Act.isPublish ≤ 2 ^ 64) :
    answers (SledOffsetStore.serve lossy) (.new lossy .empty) calls =
        answers MemoryOffsetStore.serve ⟨fun _ => none⟩ calls ∧
      Guarded (step lossy) (fun d a => d.unused a = true)
        (new lossy defaultProfile dedupeWindow maxPayloadBytes dedupe snapshots :
          Deployment J D S σ) acts := by
  refine ⟨SledOffsetStore.answers_eq lossy calls hcalls, ?_⟩
  have hrun : Throughout (step lossy)
      (fun d : Deployment J D S σ => Sound d ∧ d.all.length ≤ 2 ^ 64)
      (new lossy defaultProfile dedupeWindow maxPayloadBytes dedupe snapshots) acts := by
    refine throughout_of_budget (fun d a d' => length_step) (fun d a d' h _ => sound_step h)
      sound_new ?_
    simpa [all, new] using hacts
  exact guarded_of_throughout hrun fun d a d' _ hd => unused_of_sound hd.1 hd.2 a

/-- A deployment with some stores for the rest. -/
def deployed (defaultProfile : TopicProfile) :
    Deployment SledLog.fieldCodec MemoryDedupeStore MemorySnapshotStore MpscSink :=
  new .replacing defaultProfile 60000 65536 ⟨fun _ => none⟩ ⟨fun _ => none⟩

/-- A publish that is cut off after its offset was allocated, and one after the restart. -/
def cutOff : List Act :=
  [.call (.spawn { topic := some "t", messageId := some "m" })] ++
    List.replicate 6 (.call (.advance 0 ⟨0, false⟩)) ++ [.restart {} 60000 65536] ++
    [.call (.spawn { topic := some "t", messageId := some "m" })] ++
    List.replicate 6 (.call (.advance 0 ⟨0, false⟩))

theorem cut_off_publish_keeps_its_offset :
    answers (SledOffsetStore.serve .replacing) (.new .replacing .empty)
        [.alloc "a/b", .alloc "a", .restart, .alloc "a/b", .head "a", .remove "a", .restart,
          .head "a", .alloc "a"] =
      [some 1, some 1, none, some 2, some 1, none, none, some 0, some 1] ∧
    Guarded (step .replacing) (fun d a => d.unused a = true) (deployed {}) cutOff ∧
    ((run (step .replacing) (deployed {}) cutOff).map fun d => d.broker.headOffset "t") =
      some 2 := by
  have hguarded := offsets_survive_restart (J := SledLog.fieldCodec) (σ := MpscSink) .replacing
    [.alloc "a/b", .alloc "a", .restart, .alloc "a/b", .head "a", .remove "a", .restart, .head "a",
      .alloc "a"] (by decide) {} 60000 65536 (⟨fun _ => none⟩ : MemoryDedupeStore)
    (⟨fun _ => none⟩ : MemorySnapshotStore) cutOff (by decide)
  rw [hguarded.1]
  exact ⟨by decide, hguarded.2, by decide⟩

section Wrap

/-- A profile under which a log only grows and 2^64 - 1 publishes are admitted. -/
def wideProfile : TopicProfile := { retention := .durable, maxPublishers := 18446744073709551615 }

def message : Frame := { topic := some "t", messageId := some "m" }

/-- A broker that has published `k` messages to "t", the last `c` of them since it was
started. -/
structure Filled (b : SledBroker J D S σ) (k c : Nat) : Prop where
  counter : ∃ s : MemoryOffsetStore, SledOffsetStore.Mirrors s b.offsets ∧
    (s.inner "t").getD 1 = nthOffset k
  first : 0 < k → b.log.tree.get (logKey "t" 1) ≠ none
  profile : b.store.profileOf b.defaultProfile "t" = wideProfile
  publishers : b.store.publishers "t" = c

variable {b : SledBroker J D S σ} {k c : Nat}

omit [DedupeStore D] [SnapshotStore S] in
theorem filled_restarted (lossy : Utf8.Lossy) (h : Filled b k c)
    (dedupeWindow maxPayloadBytes : Nat) :
    Filled (restarted lossy b wideProfile dedupeWindow maxPayloadBytes) k 0 := by
  obtain ⟨s, hm, hnext⟩ := h.counter
  exact ⟨⟨s, SledOffsetStore.mirrors_new hm, hnext⟩, h.first, rfl, rfl⟩

omit [DedupeStore D] [SnapshotStore S] in
theorem validatePublish_message (now : Int64) : b.validatePublish now message = .ok ("t", "m") := by
  simp [InMemoryBroker.validatePublish, message, Frame.payloadLen, Frame.expired]

omit [DedupeStore D] [SnapshotStore S] in
/-- There is a slot for one more publish. -/
theorem exists_slot (h : Filled b k c) (hc : c < 2 ^ 64 - 1) {store : TopicStore}
    {entry : TopicEntry} (hg : b.store.getOrCreate "t" b.defaultProfile = .ok (store, entry)) :
    entry.profile = wideProfile ∧ ∃ n : UInt64, n.toNat = c + 1 ∧
      tryInc entry.publisherCount entry.profile.maxPublishers = some n := by
  have hprofile : entry.profile = wideProfile :=
    (TopicStore.profile_of_getOrCreate hg).trans h.profile
  have hcount : entry.publisherCount.toNat = c :=
    (TopicStore.publisherCount_of_getOrCreate hg).trans h.publishers
  have hroom : ¬entry.profile.maxPublishers ≤ entry.publisherCount := by
    rw [hprofile, UInt64.le_iff_toNat_le, hcount]
    exact Nat.not_le.mpr hc
  have hinc : tryInc entry.publisherCount entry.profile.maxPublishers =
      some (entry.publisherCount + 1) := if_neg hroom
  exact ⟨hprofile, _, hcount ▸ toNat_of_tryInc hinc, hinc⟩

omit [DedupeStore D] [SnapshotStore S] in
/-- A durable log keeps its first entry. -/
theorem first_append {entry : LogEntry} {now : Int64} (h : Filled b k c)
    (hentry : entry.offset = nthOffset k) :
    (SledLog.append J b.log.tree now "t" entry .durable).get (logKey "t" 1) ≠ none := by
  change (b.log.tree.put (logKey "t" entry.offset) (J.encode entry)).get (logKey "t" 1) ≠ none
  by_cases hk : logKey "t" 1 = logKey "t" entry.offset
  · rw [hk, SortedMap.get_put_self]
    exact Option.some_ne_none _
  · rw [SortedMap.get_put_of_ne hk]
    refine h.first (Nat.pos_of_ne_zero ?_)
    rintro rfl
    exact hk (logKey_inj.mpr hentry.symm)

theorem filled_publish (h : Filled b k c) (hc : c < 2 ^ 64 - 1) (now : Int64) :
    Filled (b.publish now message).1 (k + 1) (c + 1) := by
  have htarget : b.target now message = some "t" := by
    have hn : validateName "t" = .ok () := by decide
    simp [InMemoryBroker.target, validatePublish_message, hn]
  obtain ⟨messageId, store, entry, -, hg, hcases⟩ := InMemoryBroker.publish_of_target htarget
  obtain ⟨hprofile, n, hcount, hinc⟩ := exists_slot h hc hg
  obtain ⟨hnone, -⟩ | ⟨entry', b', outcome, offers, hi, hr, hp⟩ := hcases
  · simp [TopicEntry.tryIncPublisher, hinc] at hnone
  · obtain rfl : { entry with publisherCount := n } = entry' := by
      simpa [TopicEntry.tryIncPublisher, hinc] using hi
    obtain ⟨s, hm, hnext⟩ := h.counter
    have ht : Separable "t" := separable_of_validateName (by decide)
    obtain ⟨hm', ho⟩ := SledOffsetStore.mirrors_alloc hm ht
    have hoffset : (OffsetStore.alloc b.offsets "t").2 = nthOffset k := ho.trans hnext
    rw [hp]
    cases hr
    refine ⟨⟨_, hm', ?_⟩, ?_, ?_, ?_⟩
    · rw [nthOffset_succ, ← hnext]
      simp [OffsetStore.alloc]
    · intro _
      have hretention : entry.profile.retention = .durable := by rw [hprofile]; rfl
      change (SledLog.append J b.log.tree now "t" _ entry.profile.retention).get _ ≠ none
      rw [hretention]
      exact first_append h hoffset
    · change (store.put "t" _).profileOf b.defaultProfile "t" = wideProfile
      simp [TopicStore.profileOf, hprofile]
    · change (store.put "t" _).publishers "t" = c + 1
      rw [TopicStore.publishers_put_self, ← hcount]

theorem run_calls (lossy : Utf8.Lossy) {acts : List PublishRace.Act}
    {calls : PublishRace.Calls SledOffsetStore (SledLogStore J) D S σ}
    (h : run PublishRace.step d.calls acts = some calls) :
    run (step lossy) d (acts.map .call) = some { d with calls } := by
  induction acts generalizing d with
  | nil =>
    cases h
    rfl
  | cons act acts ih =>
    obtain ⟨calls', hstep, hrest⟩ := run_cons_iff.mp h
    refine run_cons_iff.mpr ⟨{ d with calls := calls' }, ?_, ih hrest⟩
    rw [step, hstep]
    rfl

/-- As many publishes as there are slots left, one after the other. -/
theorem run_publishes (lossy : Utf8.Lossy) (n : Nat) (h : Filled d.broker k c)
    (hn : c + n ≤ 2 ^ 64 - 1) :
    ∃ acts d', run (step lossy) d acts = some d' ∧ Filled d'.broker (k + n) (c + n) := by
  induction n with
  | zero => exact ⟨[], d, rfl, h⟩
  | succ n ih =>
    obtain ⟨acts, d', hrun, hfilled⟩ := ih (by omega)
    obtain ⟨inputs, offers, u, hsolo, -⟩ :=
      PublishPhase.solo_publish d'.calls.shared 0 message
    have hcall := run_calls lossy (Pool.run_call message d'.calls.threads hsolo)
    refine ⟨_, _, (run_append hrun).trans hcall, ?_⟩
    exact filled_publish hfilled (by omega) 0

theorem solo_dedupe (s : PublishState SledOffsetStore (SledLogStore J) D S σ) (m : Message)
    (now : Int64) :
    ∃ s' fresh, run (Pool.solo PublishPhase.program) (s, .dedupe m) [⟨now, false⟩] =
        some (s', .alloc m fresh) ∧
      s'.broker.offsets = s.broker.offsets ∧ s'.broker.log = s.broker.log :=
  ⟨_, _, rfl, rfl, rfl⟩

/-- One more publish, up to the allocation of its offset. -/
theorem run_to_alloc (lossy : Utf8.Lossy) (h : Filled d.broker k c) (hc : c < 2 ^ 64 - 1) :
    ∃ (acts : List Act) (d' : Deployment J D S σ) (i : Nat) (fresh : Bool),
      run (step lossy) d acts = some d' ∧
      d'.calls.threads[i]? = some (PublishPhase.alloc ⟨message, "t", "m"⟩ fresh) ∧
      d'.broker.offsets = d.broker.offsets ∧ d'.broker.log = d.broker.log := by
  have hn : validateName "t" = .ok () := by decide
  obtain ⟨store, entry, hg⟩ : ∃ store entry,
      d.broker.store.getOrCreate "t" d.broker.defaultProfile = .ok (store, entry) := by
    cases hg : d.broker.store.getOrCreate "t" d.broker.defaultProfile with
    | error e => cases (TopicStore.getOrCreate_error hg).symm.trans hn
    | ok r => exact ⟨r.1, r.2, rfl⟩
  obtain ⟨-, n, -, hinc⟩ := exists_slot h hc hg
  have hslot := PublishPhase.solo_slot d.calls.shared (validatePublish_message 0) hn hg hinc
  obtain ⟨s', fresh, hdedupe, hoffsets, hlog⟩ := solo_dedupe { d.calls.shared with
    broker := { d.calls.shared.broker with
      store := store.put "t" { entry with publisherCount := n } } } ⟨message, "t", "m"⟩ 0
  have hcall := Pool.run_call message d.calls.threads ((run_append hslot).trans hdedupe)
  exact ⟨_, _, d.calls.threads.length, fresh, run_calls lossy hcall, by simp, hoffsets, hlog⟩

omit [DedupeStore D] [SnapshotStore S] in
/-- The 2^64 + 1st allocation gives the first offset again. -/
theorem not_unused_of_filled {i : Nat} {fresh : Bool} {input : PublishInput}
    (h : Filled b (2 ^ 64) c) (hoffsets : d.broker.offsets = b.offsets)
    (hlog : d.broker.log = b.log)
    (hi : d.calls.threads[i]? = some (PublishPhase.alloc ⟨message, "t", "m"⟩ fresh)) :
    d.unused (.call (.advance i input)) = false := by
  obtain ⟨s, hm, hnext⟩ := h.counter
  have ht : Separable "t" := separable_of_validateName (by decide)
  have hoffset : (OffsetStore.alloc d.broker.offsets "t").2 = 1 := by
    rw [hoffsets]
    exact ((SledOffsetStore.mirrors_alloc hm ht).2.trans hnext).trans (by decide)
  simp only [unused, hi, hoffset, hlog]
  rw [Option.isNone_eq_false_iff, Option.isSome_iff_ne_none]
  exact h.first (by decide)

end Wrap

/-- 2^64 publishes to "t" with a restart half-way, and one more: it is given offset 1,
which the log still has. Only the width of the offset is meant, as no store holds a log of
2^64 entries. -/
theorem wrapped_offset_is_in_the_log :
    ∃ acts, ¬Guarded (step .replacing) (fun d a => d.unused a = true) (deployed wideProfile)
      acts := by
  have hnew : Filled (deployed wideProfile).broker 0 0 :=
    ⟨⟨⟨fun _ => none⟩, SledOffsetStore.mirrors_empty, rfl⟩, fun h => absurd h (Nat.lt_irrefl 0),
      rfl, rfl⟩
  obtain ⟨acts₁, d₁, hrun₁, h₁⟩ := run_publishes .replacing (2 ^ 63) hnew (by decide)
  obtain ⟨d₂, hrestart, h₂⟩ : ∃ d₂,
      step .replacing d₁ (.restart wideProfile 60000 65536) = some d₂ ∧
      Filled d₂.broker (0 + 2 ^ 63) 0 := ⟨_, rfl, filled_restarted .replacing h₁ 60000 65536⟩
  obtain ⟨acts₂, d₃, hrun₂, h₃⟩ := run_publishes .replacing (2 ^ 63) h₂ (by decide)
  obtain ⟨acts₃, d₄, i, fresh, hrun₃, hi, hoffsets, hlog⟩ := run_to_alloc .replacing h₃ (by decide)
  have hrun : run (step .replacing) (deployed wideProfile)
      (acts₁ ++ (.restart wideProfile 60000 65536 :: (acts₂ ++ acts₃))) = some d₄ := by
    rw [run_append hrun₁]
    exact run_cons_iff.mpr ⟨d₂, hrestart, (run_append hrun₂).trans hrun₃⟩
  -- the allocation itself is the first step that is not admitted
  obtain ⟨d₅, hstep⟩ : ∃ d₅, step .replacing d₄ (.call (.advance i ⟨0, false⟩)) = some d₅ := by
    simp [step, PublishRace.step, Pool.step, hi, PublishPhase.program, PublishPhase.next]
  refine ⟨acts₁ ++ (.restart wideProfile 60000 65536 :: (acts₂ ++ acts₃)) ++
    [.call (.advance i ⟨0, false⟩)], ?_⟩
  intro hguarded
  have hlast : d₄.unused (.call (.advance i ⟨0, false⟩)) = true :=
    ((guarded_append hguarded hrun).2 d₅ hstep).1
  rw [not_unused_of_filled h₃ hoffsets hlog hi] at hlast
  cases hlast

end Deployment

end Rifts
