import Rifts.Data.ClockWindow
import Rifts.Storage.Retention
import Rifts.Storage.Snapshot

/-! The log of a topic entry is the window that its retention policy describes. -/
namespace Rifts

open Transition

namespace TopicEntry

/-- An entry as `append` pushes it. -/
def stamp (now : Int64) (entry : LogEntry) : LogEntry :=
  { entry with
    timestamp := if entry.timestamp = 0 then now else entry.timestamp
    appendedAt := some now }

/-- The entries of the log with an offset in the half-open range. -/
def range (log : List LogEntry) (first last : Int64) : List LogEntry :=
  log.filter fun e => first ≤ e.offset && e.offset < last

def snapshot (e : TopicEntry) : Option LogEntry := e.latestSnapshot

/-- Durable topics keep as many entries in memory. -/
def durableMemoryCap : Nat := 10000

end TopicEntry

/-- An append: the clock reading and the entry that was passed. -/
abbrev Appended := Int64 × LogEntry

def Appended.stamped (x : Appended) : LogEntry := TopicEntry.stamp x.1 x.2

/-- What a policy is to leave of a history of appends. -/
def RetentionPolicy.window (history : List Appended) : RetentionPolicy → List Appended
  | .none => []
  | .count n => history.rtake n
  | .size maxBytes => history.rtake (Suffix.fit (fun x => x.2.size) maxBytes history)
  | .ttl ms => ClockWindow.recent Prod.fst ms ((history.getLast?.map Prod.fst).getD 0) history
  | .latest => history.rtake 1
  | .durable => history.rtake TopicEntry.durableMemoryCap

/-- A topic entry with its log, beside all that was ever appended to it. -/
structure TopicHistory where
  entry : TopicEntry
  log : List LogEntry
  history : List Appended

namespace TopicHistory

def new (name : String) (profile : TopicProfile) : TopicHistory :=
  ⟨⟨name, profile, 0, 0, none⟩, [], []⟩

/-- An append with a higher offset than before and a clock that has not gone back. -/
def step (s : TopicHistory) (x : Appended) : Option TopicHistory :=
  if ∀ y ∈ s.history, y.1 ≤ x.1 ∧ y.2.offset < x.2.offset then
    match s.entry.append s.log x.1 x.2 with
    | (entry, log) => some ⟨entry, log, s.history ++ [x]⟩
  else none

/-- What the policy is to leave, as it stands in the log. -/
def retained (s : TopicHistory) : List LogEntry :=
  (s.entry.profile.retention.window s.history).map Appended.stamped

/-- The log, its ranges and the snapshot are those of the retained window. -/
structure Windowed (s : TopicHistory) : Prop where
  log : s.log = s.retained
  mem_range : ∀ first last e, e ∈ TopicEntry.range s.log first last ↔
    e ∈ s.retained ∧ first ≤ e.offset ∧ e.offset < last
  ascending : ∀ first last,
    (TopicEntry.range s.log first last).Pairwise fun e e' => e.offset < e'.offset
  snapshot : s.entry.profile.snapshotEnabled = true →
    s.entry.snapshot = s.history.getLast?.map Appended.stamped

/-- No entry that a TTL is measured on is 2^63 ms old or older. -/
def Measurable (s : TopicHistory) (x : Appended) : Prop :=
  s.entry.profile.retention.isTtl = true →
    ∀ e ∈ s.log, ∀ t, e.appendedAt = some t → x.1.toInt - t.toInt < 2 ^ 63

/-- Appends come in order, and the last one is the snapshot. -/
structure Ordered (profile : TopicProfile) (s : TopicHistory) : Prop where
  fixed : s.entry.profile = profile
  ascending : s.history.Pairwise fun x y => x.2.offset < y.2.offset
  clock : s.history.Pairwise fun x y => x.1 ≤ y.1
  snapshot : profile.snapshotEnabled = true →
    s.entry.snapshot = s.history.getLast?.map Appended.stamped

variable {s s' : TopicHistory} {x y : Appended} {profile : TopicProfile} {policy : RetentionPolicy}
  {history : List Appended}

theorem step_cases (h : step s x = some s') :
    (∀ y ∈ s.history, y.1 ≤ x.1 ∧ y.2.offset < x.2.offset) ∧
      s'.entry = (s.entry.append s.log x.1 x.2).1 ∧
      s'.log = TopicEntry.retain x.1 x.stamped (s.log ++ [x.stamped]) s.entry.profile.retention ∧
      s'.history = s.history ++ [x] := by
  unfold step at h
  split at h
  · next hx =>
    cases h
    exact ⟨hx, rfl, rfl, rfl⟩
  · cases h

theorem profile_append {e : TopicEntry} {log : List LogEntry} {now : Int64} {entry : LogEntry} :
    (e.append log now entry).1.profile = e.profile := by
  unfold TopicEntry.append
  dsimp only
  split <;> rfl

theorem pairwise_concat {R : Appended → Appended → Prop} (h : history.Pairwise R)
    (hx : ∀ y ∈ history, R y x) : (history ++ [x]).Pairwise R := by
  refine List.pairwise_append.mpr ⟨h, List.pairwise_singleton .., ?_⟩
  intro y hy z hz
  rw [List.mem_singleton.mp hz]
  exact hx y hy

theorem ordered_step (h : step s x = some s') (hs : Ordered profile s) : Ordered profile s' := by
  obtain ⟨hx, hentry, -, hhistory⟩ := step_cases h
  constructor
  · rw [hentry, profile_append, hs.fixed]
  · rw [hhistory]
    exact pairwise_concat hs.ascending fun y hy => (hx y hy).2
  · rw [hhistory]
    exact pairwise_concat hs.clock fun y hy => (hx y hy).1
  · intro henabled
    rw [hentry, hhistory, List.getLast?_concat]
    simp only [TopicEntry.append, hs.fixed, henabled, if_true]
    rfl

theorem window_sublist : List.Sublist (policy.window history) history := by
  cases policy with
  | none => exact List.nil_sublist _
  | ttl ms => exact List.filter_sublist
  | count n => exact Suffix.rtake_suffix.sublist
  | size maxBytes => exact Suffix.rtake_suffix.sublist
  | latest => exact Suffix.rtake_suffix.sublist
  | durable => exact Suffix.rtake_suffix.sublist

/-- With the right log the ranges and the snapshot are right. -/
theorem windowed_iff (hs : Ordered profile s) : Windowed s ↔ s.log = s.retained := by
  refine ⟨Windowed.log, fun hlog => ⟨hlog, ?_, ?_, ?_⟩⟩
  · intro first last e
    rw [hlog]
    simp [TopicEntry.range]
  · intro first last
    rw [hlog]
    refine List.Pairwise.filter _ (List.pairwise_map.mpr ?_)
    exact hs.ascending.sublist window_sublist
  · rw [hs.fixed]
    exact hs.snapshot

/-- The policies that do not go by the clock, cut by the number of entries. -/
theorem map_window (hpolicy : policy.isTtl = false) (hdurable : policy ≠ .durable) :
    (policy.window history).map Appended.stamped =
      (history.map Appended.stamped).rtake (policy.kept (history.map Appended.stamped)) := by
  cases policy with
  | none => exact (List.rtake_zero _).symm
  | ttl ms => cases hpolicy
  | count n => exact Suffix.map_rtake
  | size maxBytes =>
    rw [RetentionPolicy.kept, Suffix.fit_map, RetentionPolicy.window, Suffix.map_rtake]
    rfl
  | latest => exact Suffix.map_rtake
  | durable => exact absurd rfl hdurable

theorem retain_durable {now : Int64} {entry : LogEntry} {log : List LogEntry} :
    TopicEntry.retain now entry log .durable = log.rtake TopicEntry.durableMemoryCap := by
  change retain now entry log (.count TopicEntry.durableMemoryCap) = _
  exact retain_count _

/-- An append to what is retained of a history leaves what is retained of the longer one. -/
theorem retain_window (hpolicy : policy.isTtl = false)
    (hnew : ∀ y ∈ history, y.2.offset < x.2.offset) :
    TopicEntry.retain x.1 x.stamped ((policy.window history).map Appended.stamped ++ [x.stamped])
        policy = (policy.window (history ++ [x])).map Appended.stamped := by
  by_cases hdurable : policy = .durable
  · subst hdurable
    rw [retain_durable, RetentionPolicy.window, RetentionPolicy.window, Suffix.map_rtake,
      Suffix.map_rtake, List.map_append]
    exact Suffix.rtake_concat_rtake
  · have hsame : TopicEntry.retain x.1 x.stamped
        ((policy.window history).map Appended.stamped ++ [x.stamped]) policy =
        retain x.1 x.stamped ((policy.window history).map Appended.stamped ++ [x.stamped])
          policy := by
      cases policy with
      | ttl ms => cases hpolicy
      | durable => exact absurd rfl hdurable
      | _ => rfl
    rw [hsame, map_window hpolicy hdurable, map_window hpolicy hdurable, List.map_append]
    refine retain_concat hpolicy ?_
    rintro rfl e he heq
    obtain ⟨y, hy, rfl⟩ := List.mem_map.mp he
    exact absurd heq (Int64.ne_of_lt (hnew y hy))

/-- A TTL goes by the clock readings of the appends, whatever the entries say. -/
theorem retain_ttl {ms : Nat} :
    TopicEntry.retain x.1 x.stamped (history.map Appended.stamped ++ [x.stamped]) (.ttl ms) =
      ((history ++ [x]).filter fun y => x.1 - y.1 ≤ Int64.ofNat ms).map Appended.stamped := by
  have hmap : history.map Appended.stamped ++ [x.stamped] =
      (history ++ [x]).map Appended.stamped := by
    rw [List.map_append]
    rfl
  rw [TopicEntry.retain, hmap, List.filter_map]
  rfl

theorem window_ttl_concat {ms : Nat} (hclock : ∀ y ∈ history, y.1 ≤ x.1) :
    ClockWindow.recent Prod.fst ms x.1 (RetentionPolicy.window history (.ttl ms) ++ [x]) =
      RetentionPolicy.window (history ++ [x]) (.ttl ms) := by
  have hlast : ((history ++ [x]).getLast?.map Prod.fst).getD 0 = x.1 := by simp
  rw [RetentionPolicy.window, RetentionPolicy.window, hlast, ClockWindow.recent_append,
    ClockWindow.recent_append]
  congr 1
  cases hl : history.getLast? with
  | none =>
    rw [List.getLast?_eq_none_iff.mp hl]
    rfl
  | some z => exact ClockWindow.recent_recent (hclock z (List.mem_of_getLast? hl))

/-- Where the clock cannot wrap, a TTL leaves what is recent. -/
theorem retain_window_ttl {ms : Nat} (hms : ms < 2 ^ 63) (hclock : ∀ y ∈ history, y.1 ≤ x.1)
    (hfits : ∀ y ∈ RetentionPolicy.window history (.ttl ms), ClockWindow.Fits x.1 y.1) :
    TopicEntry.retain x.1 x.stamped
        ((RetentionPolicy.window history (.ttl ms)).map Appended.stamped ++ [x.stamped]) (.ttl ms) =
      (RetentionPolicy.window (history ++ [x]) (.ttl ms)).map Appended.stamped := by
  rw [retain_ttl, ← window_ttl_concat hclock, ClockWindow.filter_eq_recent hms]
  intro y hy
  rcases List.mem_append.mp hy with hy | hy
  · exact hfits y hy
  · rw [List.mem_singleton.mp hy]
    exact ClockWindow.fits_self

/-- Where it wraps, an entry stays that is not recent. -/
theorem fits_of_retain_window_ttl {ms : Nat} (hms : ms < 2 ^ 63)
    (hclock : ∀ y ∈ history, y.1 ≤ x.1)
    (h : TopicEntry.retain x.1 x.stamped
        ((RetentionPolicy.window history (.ttl ms)).map Appended.stamped ++ [x.stamped]) (.ttl ms) =
      (RetentionPolicy.window (history ++ [x]) (.ttl ms)).map Appended.stamped)
    (hy : y ∈ RetentionPolicy.window history (.ttl ms)) : ClockWindow.Fits x.1 y.1 := by
  by_contra hwrap
  have hle : y.1 ≤ x.1 := hclock y (window_sublist.subset hy)
  have hkept : y.stamped ∈ (RetentionPolicy.window (history ++ [x]) (.ttl ms)).map
      Appended.stamped := by
    rw [← h, retain_ttl]
    refine List.mem_map_of_mem (List.mem_filter.mpr ⟨List.mem_append_left _ hy, ?_⟩)
    exact decide_eq_true (ClockWindow.sub_le_of_not_fits hms hle hwrap)
  obtain ⟨z, hz, hzy⟩ := List.mem_map.mp hkept
  -- the two entries were appended at the same reading
  have htime : z.1 = y.1 := Option.some.inj (congrArg LogEntry.appendedAt hzy)
  rw [← window_ttl_concat hclock] at hz
  have hrecent : x.1.toInt - z.1.toInt ≤ ms := of_decide_eq_true (List.mem_filter.mp hz).2
  have hle := Int64.le_iff_toInt_le.mp hle
  rw [htime] at hrecent
  unfold ClockWindow.Fits at hwrap
  omega

/-- What is measured is what is retained. -/
theorem measurable_iff {ms : Nat} (hlog : s.log = s.retained)
    (hpolicy : s.entry.profile.retention = .ttl ms) (hclock : ∀ y ∈ s.history, y.1 ≤ x.1) :
    Measurable s x ↔
      ∀ y ∈ RetentionPolicy.window s.history (.ttl ms), ClockWindow.Fits x.1 y.1 := by
  have hfits : ∀ y ∈ RetentionPolicy.window s.history (.ttl ms),
      (ClockWindow.Fits x.1 y.1 ↔ x.1.toInt - y.1.toInt < 2 ^ 63) := by
    intro y hy
    have hle := Int64.le_iff_toInt_le.mp (hclock y (window_sublist.subset hy))
    unfold ClockWindow.Fits
    omega
  rw [Measurable, hlog, retained, hpolicy]
  constructor
  · intro h y hy
    exact (hfits y hy).mpr (h rfl _ (List.mem_map_of_mem hy) _ rfl)
  · rintro h - e he t ht
    obtain ⟨y, hy, rfl⟩ := List.mem_map.mp he
    obtain rfl : y.1 = t := Option.some.inj ht
    exact (hfits y hy).mp (h y hy)

theorem windowed_step (hms : ∀ ms, profile.retention = .ttl ms → ms < 2 ^ 63)
    (h : step s x = some s') (hs : Ordered profile s) (hw : Windowed s) :
    Windowed s' ↔ Measurable s x := by
  have hs' := ordered_step h hs
  obtain ⟨hx, hentry, hlog, hhistory⟩ := step_cases h
  have hclock : ∀ y ∈ s.history, y.1 ≤ x.1 := fun y hy => (hx y hy).1
  have hold := hw.log
  have hpolicy : s.entry.profile.retention = profile.retention := by rw [hs.fixed]
  rw [windowed_iff hs', hlog, retained, hs'.fixed, hhistory, hold, retained, hpolicy]
  cases hp : profile.retention with
  | ttl ms =>
    rw [measurable_iff hold (hpolicy.trans hp) hclock]
    constructor
    · intro heq y hy
      exact fits_of_retain_window_ttl (hms ms hp) hclock heq hy
    · exact retain_window_ttl (hms ms hp) hclock
  | _ =>
    refine iff_of_true (retain_window rfl fun y hy => (hx y hy).2) ?_
    intro httl
    rw [hpolicy, hp] at httl
    cases httl

theorem ordered_new (name : String) : Ordered profile (new name profile) :=
  ⟨rfl, .nil, .nil, fun _ => rfl⟩

theorem windowed_new (name : String) : Windowed (new name profile) := by
  have hnil : List.Sublist (profile.retention.window []) [] := window_sublist
  rw [windowed_iff (ordered_new name), retained]
  change [] = (profile.retention.window []).map _
  rw [List.sublist_nil.mp hnil]
  rfl

/-- After the epoch every reading can be measured on every other. -/
theorem measurable_of_nonneg (hw : Windowed s) (hpos : ∀ y ∈ s.history, 0 ≤ y.1) (hx : 0 ≤ x.1) :
    Measurable s x := by
  rintro - e he t ht
  rw [hw.log] at he
  obtain ⟨y, hy, rfl⟩ := List.mem_map.mp he
  obtain rfl : y.1 = t := Option.some.inj ht
  exact (ClockWindow.fits_of_nonneg hx (hpos y (window_sublist.subset hy))).2

/-- Under a profile that does not change, the log is the retained window after every append
exactly when no append finds an entry in the log that its clock reading is 2^63 ms ahead of; so
it always is when no reading is before the epoch. -/
theorem topic_log_is_window (name : String) (profile : TopicProfile)
    (hms : ∀ ms, profile.retention = .ttl ms → ms < 2 ^ 63) (appends : List Appended) :
    (Throughout step Windowed (new name profile) appends ↔
      Guarded step Measurable (new name profile) appends) ∧
    ((∀ x ∈ appends, 0 ≤ x.1) → Throughout step Windowed (new name profile) appends) := by
  refine ⟨throughout_iff_guarded_of_invariant (fun _ _ _ => ordered_step)
    (fun _ _ _ => windowed_step hms) (ordered_new name) (windowed_new name), ?_⟩
  intro hpos
  have hrun : Throughout step
      (fun s => (Ordered profile s ∧ Windowed s) ∧ ∀ y ∈ s.history, 0 ≤ y.1)
      (new name profile) appends := by
    refine throughout_of_guarded ?_ (guarded_of_forall_mem hpos)
      ⟨⟨ordered_new name, windowed_new name⟩, by simp [new]⟩
    rintro s x s' h hx ⟨⟨hs, hw⟩, hy⟩
    have hmeasured := measurable_of_nonneg hw hy hx
    refine ⟨⟨ordered_step h hs, (windowed_step hms h hs hw).mpr hmeasured⟩, ?_⟩
    rw [(step_cases h).2.2.2]
    intro y hmem
    rcases List.mem_append.mp hmem with hmem | hmem
    · exact hy y hmem
    · rwa [List.mem_singleton.mp hmem]
  exact throughout_mono hrun fun _ h => h.1.2

/-- An entry with the timestamp that its publisher has put on it. -/
def claiming (offset timestamp : Int64) : LogEntry :=
  ⟨offset, none, "m", "event", none, [1], timestamp, none⟩

/-- An entry from the future is gone when its time is over, and one without a timestamp stays. -/
theorem window_of_skewed_publishers :
    ∃ s, run step (new "t" { retention := .ttl 10 })
        [(5, claiming 1 9000), (20, claiming 2 0), (25, claiming 3 (-7))] = some s ∧
      s.log = s.retained ∧ s.log.map LogEntry.offset = [2, 3] := by
  have h := (topic_log_is_window "t" { retention := .ttl 10 } (fun ms hms => by cases hms; decide)
    [(5, claiming 1 9000), (20, claiming 2 0), (25, claiming 3 (-7))]).2 (by decide)
  obtain ⟨s, hrun, hoffsets⟩ : ∃ s, run step (new "t" { retention := .ttl 10 })
      [(5, claiming 1 9000), (20, claiming 2 0), (25, claiming 3 (-7))] = some s ∧
      s.log.map LogEntry.offset = [2, 3] := ⟨_, rfl, by decide⟩
  exact ⟨s, hrun, (throughout_last h hrun).log, hoffsets⟩

/-- An entry that was appended while the clock was before the epoch outlives its TTL. -/
theorem entry_before_epoch_is_kept :
    ∃ s, run step (new "t" { retention := .ttl 10 })
        [(Int64.minValue, claiming 1 0), (1000, claiming 2 0)] = some s ∧
      s.log.map LogEntry.offset = [1, 2] ∧ s.retained.map LogEntry.offset = [2] ∧
      ¬ Windowed s := by
  obtain ⟨s, hrun, hlog, hretained⟩ : ∃ s, run step (new "t" { retention := .ttl 10 })
      [(Int64.minValue, claiming 1 0), (1000, claiming 2 0)] = some s ∧
      s.log.map LogEntry.offset = [1, 2] ∧ s.retained.map LogEntry.offset = [2] :=
    ⟨_, rfl, by decide, by decide⟩
  refine ⟨s, hrun, hlog, hretained, fun hw => ?_⟩
  rw [hw.log, hretained] at hlog
  cases hlog

end TopicHistory

end Rifts
