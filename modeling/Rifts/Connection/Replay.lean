import Rifts.Broker.ReplayHistory
import Rifts.Connection.Binding

/-! The replay of missed messages between welcome and ready. -/
namespace Rifts

/-- The handshake replays from this broker. The head offsets it has decided on may
be older. -/
structure Env.Over {σ : Type} (env : Env) (b : DefaultBroker σ) : Prop where
  replayHead : env.replayHead = b.headOffset
  replay : env.replay = fun topic first last => .ok (b.replay topic first last)

/-- The `resume_result` of the welcome, if the handshake gets that far. -/
def reported (J : SerdeJson) (cfg : ServerConfig) (env : Env) (st : SessionStore) :
    Option String :=
  match checkHello J cfg env with
  | .error _ => none
  | .ok adm =>
    match (bindSession env adm st).2 with
    | .error _ => none
    | .ok (_, resume) => resume.map resumeResult

/-- The frames on a topic that the handshake writes before its last one. -/
def replayedOn (J : SerdeJson) (cfg : ServerConfig) (env : Env) (st : SessionStore)
    (topic : String) : List Frame :=
  (handshake J cfg env st).2.1.sent.dropLast.filter fun f => f.topic = some topic

/-- The offsets after `last` up to the head, of those that are given out: these
start at 1. -/
def missing (last head : Int64) : List Int64 :=
  (List.range (head.toInt - max last.toInt 0).toNat).map fun i : Nat =>
    Int64.ofInt (max last.toInt 0 + 1 + i)

theorem toInt_missing {last head : Int64} {i : Nat}
    (hi : i < (head.toInt - max last.toInt 0).toNat) :
    (Int64.ofInt (max last.toInt 0 + 1 + i)).toInt = max last.toInt 0 + 1 + i := by
  have hhead := head.toInt_lt
  exact Int64.toInt_ofInt_of_le (by omega) (by omega)

theorem mem_missing {last head o : Int64} :
    o ∈ missing last head ↔ max last.toInt 0 < o.toInt ∧ o.toInt ≤ head.toInt := by
  constructor
  · intro h
    obtain ⟨i, hi, rfl⟩ := List.mem_map.mp h
    have hlt := List.mem_range.mp hi
    rw [toInt_missing hlt]
    omega
  · intro h
    refine List.mem_map.mpr ⟨(o.toInt - max last.toInt 0 - 1).toNat, ?_, ?_⟩
    · exact List.mem_range.mpr (by omega)
    · have hsum : max last.toInt 0 + 1 + ((o.toInt - max last.toInt 0 - 1).toNat : Int) =
          o.toInt := by omega
      rw [hsum, Int64.ofInt_toInt]

theorem sorted_missing {last head : Int64} : (missing last head).Pairwise (· < ·) := by
  rw [missing, List.pairwise_map]
  refine List.Pairwise.imp_of_mem ?_ List.pairwise_lt_range
  intro i j hi hj hij
  rw [Int64.lt_iff_toInt_lt, toInt_missing (List.mem_range.mp hi),
    toInt_missing (List.mem_range.mp hj)]
  omega

theorem missing_eq_nil {last head : Int64} (h : ¬ last < head) : missing last head = [] := by
  rw [List.eq_nil_iff_forall_not_mem]
  intro o ho
  have hmem := mem_missing.mp ho
  rw [Int64.lt_iff_toInt_lt] at h
  omega

namespace InMemoryBroker

variable {σ : Type} {b : DefaultBroker σ} {topic : String} {last : Int64}

/-- One frame for each missing offset, in increasing order, with the payload the log
has under that offset. -/
def Gapless (b : DefaultBroker σ) (topic : String) (last : Int64) (frames : List Frame) : Prop :=
  ∃ entries, List.Sublist entries (b.logOf topic) ∧
    entries.map (·.offset) = missing last (b.headOffset topic) ∧
    frames = entries.map fun e => replayFrame topic e.payload

/-- The log has the whole range of missing offsets. -/
def HoldsRange (b : DefaultBroker σ) (topic : String) (last : Int64) : Prop :=
  ∀ o ∈ missing last (b.headOffset topic), ∃ e ∈ b.logOf topic, e.offset = o

/-- If the client is behind, the log has one entry for each missing offset, in
increasing order, and no other in that range. -/
def KeepsRange (b : DefaultBroker σ) (topic : String) (last : Int64) : Prop :=
  last < b.headOffset topic →
    (LogStore.range b.log topic (last + 1) (b.headOffset topic)).map (·.offset) =
      missing last (b.headOffset topic)

def missedFrames (b : DefaultBroker σ) (topic : String) (last : Int64) : List Frame :=
  if last < b.headOffset topic then
    (b.replay topic (last + 1) (b.headOffset topic)).map (replayFrame topic)
  else []

theorem holdsRange_of_keepsRange (h : KeepsRange b topic last) : HoldsRange b topic last := by
  intro o ho
  by_cases hlt : last < b.headOffset topic
  · rw [← h hlt] at ho
    obtain ⟨e, he, rfl⟩ := List.mem_map.mp ho
    exact ⟨e, List.mem_of_mem_filter he, rfl⟩
  · rw [missing_eq_nil hlt] at ho
    cases ho

theorem toInt_add_one {head : Int64} (hlt : last < head) :
    (last + 1).toInt = last.toInt + 1 := by
  have hlow := last.le_toInt
  have hhead := head.toInt_lt
  rw [Int64.lt_iff_toInt_lt] at hlt
  rw [Int64.toInt_add]
  exact Int.bmod_eq_of_le (by simp; omega) (by simp; omega)

/-- The offsets asked for are those after the client's. -/
theorem mem_range_of_missing {o : Int64} (hlt : last < b.headOffset topic)
    (ho : o ∈ missing last (b.headOffset topic)) :
    last + 1 ≤ o ∧ o ≤ b.headOffset topic := by
  have hmem := mem_missing.mp ho
  rw [Int64.le_iff_toInt_le, Int64.le_iff_toInt_le, toInt_add_one hlt]
  omega

theorem gapless_iff :
    Gapless b topic last (b.missedFrames topic last) ↔ KeepsRange b topic last := by
  by_cases hlt : last < b.headOffset topic
  · have hframes : b.missedFrames topic last =
        (LogStore.range b.log topic (last + 1) (b.headOffset topic)).map
          fun e => replayFrame topic e.payload := by
      rw [missedFrames, if_pos hlt, replay, List.map_map]
      rfl
    rw [hframes]
    constructor
    · rintro ⟨entries, hsub, hoffsets, heq⟩ -
      have hall : entries.filter (fun e => last + 1 ≤ e.offset && e.offset ≤ b.headOffset topic) =
          entries := by
        rw [List.filter_eq_self]
        intro e he
        have hmem : e.offset ∈ missing last (b.headOffset topic) := by
          rw [← hoffsets]
          exact List.mem_map_of_mem he
        simpa using mem_range_of_missing hlt hmem
      have hrange : List.Sublist entries
          (LogStore.range b.log topic (last + 1) (b.headOffset topic)) := by
        rw [← hall]
        exact hsub.filter _
      -- the frames do not carry offsets, but there are as many of them as entries
      have hlength : entries.length =
          (LogStore.range b.log topic (last + 1) (b.headOffset topic)).length := by
        have h := congrArg List.length heq
        rw [List.length_map, List.length_map] at h
        exact h.symm
      rw [← hrange.eq_of_length hlength]
      exact hoffsets
    · intro h
      exact ⟨_, List.filter_sublist, h hlt, rfl⟩
  · refine iff_of_true ⟨[], List.nil_sublist _, ?_, ?_⟩ fun h => absurd h hlt
    · exact (missing_eq_nil hlt).symm
    · rw [missedFrames, if_neg hlt]
      rfl

variable {history : List LogEntry}

/-- The offsets that a range query finds in what is kept of a history. -/
theorem mem_range_of_kept (hk : Kept b topic history) (hlen : history.length < 2 ^ 63)
    (hlt : last < b.headOffset topic) {o : Int64} :
    o ∈ (LogStore.range b.log topic (last + 1) (b.headOffset topic)).map (·.offset) ↔
      ((history.length - (b.retentionOf topic).kept history : Nat) : Int) < o.toInt ∧
        last.toInt < o.toInt ∧ 0 < o.toInt ∧ o.toInt ≤ (b.headOffset topic).toInt := by
  have hnumber := toInt_offset_of_kept hk hlen
  have hhead := toInt_headOffset_of_kept hk hlen
  have hrange : LogStore.range b.log topic (last + 1) (b.headOffset topic) =
      (history.filter fun e => ((history.length - (b.retentionOf topic).kept history : Nat) : Int) <
        e.offset.toInt).filter fun e => last + 1 ≤ e.offset && e.offset ≤ b.headOffset topic := by
    change (b.logOf topic).filter _ = _
    rw [hk.log, List.rtake, Suffix.drop_eq_filter hnumber]
  have hmem : o.toInt ∈ history.map (·.offset.toInt) ↔ 0 < o.toInt ∧ o.toInt ≤ history.length := by
    rw [hnumber, List.mem_map]
    constructor
    · rintro ⟨i, hi, hoff⟩
      have hi := List.mem_range.mp hi
      omega
    · intro h
      exact ⟨(o.toInt - 1).toNat, List.mem_range.mpr (by omega), by omega⟩
  rw [hrange, List.mem_map]
  simp only [List.mem_filter, Bool.and_eq_true, decide_eq_true_eq, Int64.le_iff_toInt_le,
    toInt_add_one hlt]
  constructor
  · rintro ⟨e, ⟨⟨he, hfirst⟩, hlast, hle⟩, rfl⟩
    have hpos := hmem.mp (List.mem_map_of_mem he)
    omega
  · rintro ⟨hfirst, hlast, hpos, hle⟩
    obtain ⟨e, he, heq⟩ := List.mem_map.mp (hmem.mpr ⟨hpos, by omega⟩)
    obtain rfl : e.offset = o := Int64.toInt_inj.mp heq
    exact ⟨e, ⟨⟨he, hfirst⟩, by omega, hle⟩, rfl⟩

theorem sorted_range_of_kept (hk : Kept b topic history) (hlen : history.length < 2 ^ 63)
    (first last : Int64) :
    ((LogStore.range b.log topic first last).map (·.offset)).Pairwise (· < ·) := by
  have hsub : List.Sublist (LogStore.range b.log topic first last) history := by
    have hlog : List.Sublist (b.logOf topic) history := by
      rw [hk.log]
      exact Suffix.rtake_suffix.sublist
    exact List.filter_sublist.trans hlog
  have hsorted := sorted_of_kept hk hlen
  rw [List.map_map] at hsorted
  exact hsorted.sublist (hsub.map _)

/-- After a sequence of publishes the log has what the client has missed when the
policy retains the offset after the client's. -/
theorem keepsRange_iff_retained (hk : Kept b topic history) (hlen : history.length < 2 ^ 63)
    (httl : (b.retentionOf topic).isTtl = false) :
    b.KeepsRange topic last ↔ (b.headOffset topic).toInt ≤ max last.toInt 0 ∨
      (b.retentionOf topic).firstRetained (history.map LogEntry.numbered) history.length ≤
        max last.toInt 0 + 1 := by
  have hhead := toInt_headOffset_of_kept hk hlen
  by_cases hall : (b.headOffset topic).toInt ≤ max last.toInt 0
  · refine iff_of_true ?_ (.inl hall)
    intro hlt
    have hnone : missing last (b.headOffset topic) = [] := by
      rw [List.eq_nil_iff_forall_not_mem]
      intro o ho
      have hmem := mem_missing.mp ho
      omega
    rw [hnone, List.eq_nil_iff_forall_not_mem]
    intro o ho
    have hmem := (mem_range_of_kept hk hlen hlt).mp ho
    omega
  · have hlt : last < b.headOffset topic := by
      rw [Int64.lt_iff_toInt_lt]
      omega
    have hiff : (b.retentionOf topic).firstRetained (history.map LogEntry.numbered) history.length ≤
        max last.toInt 0 + 1 ↔ _ := firstRetained_le_iff httl (by omega) (by omega)
    rw [or_iff_right hall, hiff]
    constructor
    · intro hkeeps
      -- the first offset the client has missed is in the log
      have hfirst : (Int64.ofInt (max last.toInt 0 + 1)).toInt = max last.toInt 0 + 1 :=
        Int64.toInt_ofInt_of_le (by omega) (by omega)
      have hmem : Int64.ofInt (max last.toInt 0 + 1) ∈ missing last (b.headOffset topic) := by
        rw [mem_missing, hfirst]
        omega
      rw [← hkeeps hlt, mem_range_of_kept hk hlen hlt, hfirst] at hmem
      exact hmem.1
    · intro hkept _
      refine List.Pairwise.eq_of_mem_iff (sorted_range_of_kept hk hlen _ _) sorted_missing ?_
      intro o
      rw [mem_range_of_kept hk hlen hlt, mem_missing]
      omega

end InMemoryBroker

section Frames

variable {J : SerdeJson} {cfg : ServerConfig} {env : Env} {adm : Admission} {st st' : SessionStore}
  {r : Nat} {resume : ResumeDecision} {w : Wire}

theorem write_ok (hw : ∀ n, env.write n = .ok ()) (f : Frame) :
    w.write env f = (⟨w.attempts + 1, w.sent ++ [f]⟩, .ok ()) := by
  simp only [Wire.write, hw]

theorem sent_writes (hw : ∀ n, env.write n = .ok ()) (topic : String) (frames : List Bytes) :
    (frames.foldl (fun w data => (w.write env (replayFrame topic data)).1) w).sent =
      w.sent ++ frames.map (replayFrame topic) := by
  induction frames generalizing w with
  | nil => simp
  | cons data frames ih =>
    rw [List.foldl_cons, write_ok hw, ih]
    simp

variable {σ : Type} {b : DefaultBroker σ}

theorem sent_replayTopic (hb : env.Over b) (hw : ∀ n, env.write n = .ok ()) (topic : String)
    (last : Int64) :
    (replayTopic env w topic last).sent = w.sent ++ b.missedFrames topic last := by
  simp only [replayTopic, hb.replayHead, hb.replay, InMemoryBroker.missedFrames]
  split
  · exact sent_writes hw topic _
  · exact (List.append_nil _).symm

theorem sent_replayTopics (hb : env.Over b) (hw : ∀ n, env.write n = .ok ())
    (lastOffsets : List (String × Int64)) :
    (lastOffsets.foldl (fun w kv => replayTopic env w kv.1 kv.2) w).sent =
      w.sent ++ lastOffsets.flatMap fun kv => b.missedFrames kv.1 kv.2 := by
  induction lastOffsets generalizing w with
  | nil => simp
  | cons kv rest ih =>
    rw [List.foldl_cons, ih, sent_replayTopic hb hw, List.flatMap_cons, List.append_assoc]

/-- What goes out when the welcome says "partial" or "replaying". -/
theorem sent_greet (hb : env.Over b) (hw : ∀ n, env.write n = .ok ())
    (hresume : resume = .partialResume ∨ resume = .replaying) :
    (greet J cfg env adm st r (some resume)).2.1.sent =
      buildWelcomeFrame J ((st.setState r .ready env.now).heap r) adm.codec
          (some (resumeResult resume)) cfg env.now ::
        (adm.hello.lastOffsets.flatMap fun kv => b.missedFrames kv.1 kv.2) ++
      [buildReadyFrame J ((st.setState r .ready env.now).heap r) cfg adm.codec env.now] := by
  have hreplay : some resume = some .partialResume ∨ some resume = some .replaying :=
    hresume.imp (congrArg some) (congrArg some)
  simp only [greet, write_ok hw, replayMissed, if_pos hreplay, sent_replayTopics hb hw]
  rfl

theorem filter_missedFrames {topic t : String} {last : Int64} :
    (b.missedFrames t last).filter (fun f => f.topic = some topic) =
      if t = topic then b.missedFrames t last else [] := by
  have htopic : ∀ f ∈ b.missedFrames t last, f.topic = some t := by
    intro f hf
    unfold InMemoryBroker.missedFrames at hf
    split at hf
    · obtain ⟨data, -, rfl⟩ := List.mem_map.mp hf
      rfl
    · cases hf
  split
  · next ht =>
    rw [List.filter_eq_self]
    intro f hf
    simp [htopic f hf, ht]
  · next ht =>
    rw [List.filter_eq_nil_iff]
    intro f hf
    simp [htopic f hf, ht]

/-- In a map each topic is replayed once. -/
theorem filter_flatMap_missedFrames {lastOffsets : List (String × Int64)} {topic : String}
    {last : Int64} (hkeys : (lastOffsets.map Prod.fst).Nodup)
    (hmem : (topic, last) ∈ lastOffsets) :
    (lastOffsets.flatMap fun kv => b.missedFrames kv.1 kv.2).filter
      (fun f => f.topic = some topic) = b.missedFrames topic last := by
  simp only [List.filter_flatMap, filter_missedFrames]
  induction lastOffsets with
  | nil => cases hmem
  | cons kv rest ih =>
    rw [List.map_cons, List.nodup_cons] at hkeys
    rw [List.flatMap_cons]
    rcases List.mem_cons.mp hmem with rfl | hmem
    · have hrest : rest.flatMap (fun kv => if kv.1 = topic then b.missedFrames kv.1 kv.2 else []) =
          [] := by
        rw [List.flatMap_eq_nil_iff]
        intro kv hkv
        exact if_neg fun h => hkeys.1 (List.mem_map.mpr ⟨kv, hkv, h⟩)
      rw [hrest, if_pos rfl, List.append_nil]
    · have hne : kv.1 ≠ topic := by
        rintro rfl
        exact hkeys.1 (List.mem_map.mpr ⟨_, hmem, rfl⟩)
      rw [if_neg hne, List.nil_append, ih hkeys.2 hmem]

theorem bound_of_reported {result : String} (hadm : checkHello J cfg env = .ok adm)
    (h : reported J cfg env st = some result) :
    ∃ st' r resume, bindSession env adm st = (st', .ok (r, some resume)) ∧
      resumeResult resume = result := by
  simp only [reported, hadm] at h
  rcases hb : bindSession env adm st with ⟨st', e | ⟨r, resume⟩⟩
  · rw [hb] at h
    cases h
  · rw [hb] at h
    obtain ⟨decision, rfl, hresult⟩ := Option.map_eq_some_iff.mp h
    exact ⟨st', r, decision, rfl, hresult⟩

theorem decideLoop_ne_snapshotRequired {topicOffsets : String → Option Int64}
    {lastOffsets : List (String × Int64)} {allWithin anyBehind : Bool}
    (h : ∀ kv ∈ lastOffsets, topicOffsets kv.1 ≠ none) :
    decideLoop topicOffsets lastOffsets allWithin anyBehind ≠ .snapshotRequired := by
  induction lastOffsets generalizing allWithin anyBehind with
  | nil =>
    unfold decideLoop
    split
    · simp
    · split <;> simp
  | cons kv rest ih =>
    obtain ⟨topic, last⟩ := kv
    obtain ⟨head, hhead⟩ := Option.ne_none_iff_exists'.mp (h (topic, last) List.mem_cons_self)
    simp only [decideLoop, hhead]
    split
    · simp
    · exact ih fun kv hkv => h kv (List.mem_cons_of_mem _ hkv)

theorem decideResume_ne_snapshotRequired (env : Env) (lastOffsets : List (String × Int64)) :
    decideResume lastOffsets (topicOffsets env lastOffsets) ≠ .snapshotRequired := by
  unfold decideResume
  split
  · simp
  · refine decideLoop_ne_snapshotRequired ?_
    intro kv hkv
    simp [topicOffsets, List.mem_map_of_mem hkv]

/-- The handshake has a head offset for every topic the client names, so it never
asks for a snapshot. -/
theorem reported_ne_snapshotRequired : reported J cfg env st ≠ some "snapshot_required" := by
  intro h
  cases hadm : checkHello J cfg env with
  | error e => simp [reported, hadm] at h
  | ok adm =>
    obtain ⟨st', r, resume, hbind, hresult⟩ := bound_of_reported hadm h
    have hsnapshot : resume = .snapshotRequired := by
      cases resume <;> first | rfl | exact absurd hresult (by decide)
    rcases bindSession_cases env adm st with ⟨e, he⟩ | hs | ⟨q, hq⟩
    · cases he.symm.trans hbind
    · cases (bindSession_cold hs).symm.trans hbind
    · cases (bindSession_resumes hq).symm.trans hbind
      exact decideResume_ne_snapshotRequired env adm.hello.lastOffsets hsnapshot

theorem replayedOn_of_reported (hb : env.Over b) (hw : ∀ n, env.write n = .ok ())
    (hadm : checkHello J cfg env = .ok adm)
    (hkeys : (adm.hello.lastOffsets.map Prod.fst).Nodup)
    (hreport : reported J cfg env st = some "partial" ∨
      reported J cfg env st = some "replaying")
    {topic : String} {last : Int64} (hmem : (topic, last) ∈ adm.hello.lastOffsets) :
    replayedOn J cfg env st topic = b.missedFrames topic last := by
  obtain ⟨st', r, resume, hbind, hresume⟩ : ∃ st' r resume,
      bindSession env adm st = (st', .ok (r, some resume)) ∧
        (resume = .partialResume ∨ resume = .replaying) := by
    rcases hreport with hreport | hreport
    all_goals
      obtain ⟨st', r, resume, hbind, hresult⟩ := bound_of_reported hadm hreport
      refine ⟨st', r, resume, hbind, ?_⟩
      cases resume <;> first | exact .inl rfl | exact .inr rfl | exact absurd hresult (by decide)
  rw [replayedOn, handshake_bound hadm hbind, sent_greet hb hw hresume, List.dropLast_concat,
    List.filter_cons_of_neg (by simp [buildWelcomeFrame])]
  exact filter_flatMap_missedFrames hkeys hmem

/-- Where the welcome says "partial" or "replaying" and all writes succeed, the
replay is without gaps, and only done with the whole range in the log, when the log
of every topic keeps what the client has missed, and only then. -/
theorem resume_replay_gapless (J : SerdeJson) (cfg : ServerConfig) (b : DefaultBroker σ)
    (env : Env) (hb : env.Over b) (hw : ∀ n, env.write n = .ok ()) (st : SessionStore)
    (adm : Admission) (hadm : checkHello J cfg env = .ok adm)
    (hkeys : (adm.hello.lastOffsets.map Prod.fst).Nodup)
    (hreport : reported J cfg env st = some "partial" ∨
      reported J cfg env st = some "replaying") :
    ((∀ topic last, (topic, last) ∈ adm.hello.lastOffsets →
        b.Gapless topic last (replayedOn J cfg env st topic)) ∧
      ((∃ topic last, (topic, last) ∈ adm.hello.lastOffsets ∧ ¬ b.HoldsRange topic last) →
        reported J cfg env st = some "snapshot_required")) ↔
    ∀ topic last, (topic, last) ∈ adm.hello.lastOffsets → b.KeepsRange topic last := by
  have hframes : ∀ topic last, (topic, last) ∈ adm.hello.lastOffsets →
      replayedOn J cfg env st topic = b.missedFrames topic last :=
    fun topic last => replayedOn_of_reported hb hw hadm hkeys hreport
  constructor
  · rintro ⟨hgapless, -⟩ topic last hmem
    have h := hgapless topic last hmem
    rw [hframes topic last hmem] at h
    exact InMemoryBroker.gapless_iff.mp h
  · intro hkeeps
    constructor
    · intro topic last hmem
      rw [hframes topic last hmem]
      exact InMemoryBroker.gapless_iff.mpr (hkeeps topic last hmem)
    · rintro ⟨topic, last, hmem, hlost⟩
      exact absurd (InMemoryBroker.holdsRange_of_keepsRange (hkeeps topic last hmem)) hlost

end Frames

/-- Three messages on "t" under a retention policy. -/
def threeMessages (retention : RetentionPolicy) : DefaultBroker MpscSink :=
  InMemoryBroker.publishAll (.new { retention } 60000 65536) ([1, 2, 3].map fun n =>
    (0, { topic := some "t", messageId := some "m", payload := some [n] }))

/-- Alice comes back to session "s" with the offset of the last message she saw. -/
def returnBody (last : UInt64) : Json :=
  helloBody [("session_id", .string "s"), ("epoch", .number (.posInt 1)),
    ("last_offsets", .object [("t", .number (.posInt last))])]

def returnEnv (last : UInt64) (b : DefaultBroker MpscSink) : Env :=
  { Env.plain (.reading [returnBody last]) (returnBody last) "alice" "unused" with
    evalHead := b.headOffset
    replayHead := b.headOffset
    replay := fun topic first last => .ok (b.replay topic first last) }

def awayStore : SessionStore :=
  SessionStore.new.insert { Session.new "s" "alice" 0 with state := .draining }

set_option maxRecDepth 2000 in
theorem durable_log_is_replayed :
    (threeMessages .durable).Gapless "t" 1 (replayedOn (.reading [returnBody 1]) {}
        (returnEnv 1 (threeMessages .durable)) awayStore "t") ∧
      (threeMessages .durable).missedFrames "t" 1 =
        [replayFrame "t" [2], replayFrame "t" [3]] := by
  have h := resume_replay_gapless (.reading [returnBody 1]) {} (threeMessages .durable)
    (returnEnv 1 (threeMessages .durable)) ⟨rfl, rfl⟩ (fun _ => rfl) awayStore _ rfl
    (by decide) (.inl rfl)
  refine ⟨(h.mpr ?_).1 "t" 1 (by decide), by decide⟩
  intro topic last hmem
  have honly : (topic, last) ∈ [("t", (1 : Int64))] := hmem
  obtain ⟨rfl, rfl⟩ : topic = "t" ∧ last = 1 := by simpa using honly
  intro _
  decide

set_option maxRecDepth 2000 in
/-- Under the default policy only the last message is left. A client that has seen
none is told "partial" and is sent that one. -/
theorem latest_log_has_gaps :
    reported (.reading [returnBody 0]) {} (returnEnv 0 (threeMessages .latest)) awayStore =
        some "partial" ∧
      replayedOn (.reading [returnBody 0]) {} (returnEnv 0 (threeMessages .latest)) awayStore "t" =
        [replayFrame "t" [3]] ∧
      ¬ (threeMessages .latest).Gapless "t" 0 (replayedOn (.reading [returnBody 0]) {}
        (returnEnv 0 (threeMessages .latest)) awayStore "t") ∧
      ¬ (threeMessages .latest).HoldsRange "t" 0 := by
  have hreplayed : replayedOn (.reading [returnBody 0]) {} (returnEnv 0 (threeMessages .latest))
      awayStore "t" = [replayFrame "t" [3]] := rfl
  have hmissing : missing 0 ((threeMessages .latest).headOffset "t") = [1, 2, 3] := by decide
  refine ⟨rfl, hreplayed, ?_, ?_⟩
  · rintro ⟨entries, -, hoffsets, hframes⟩
    rw [hmissing] at hoffsets
    rw [hreplayed] at hframes
    have hthree := congrArg List.length hoffsets
    have hone := congrArg List.length hframes
    rw [List.length_map] at hthree hone
    exact absurd (hone.trans hthree) (by decide)
  · intro h
    rw [InMemoryBroker.HoldsRange, hmissing] at h
    exact absurd (h 1 (by decide)) (by decide)

end Rifts
