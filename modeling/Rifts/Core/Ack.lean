import Mathlib.Algebra.BigOperators.Group.List.Basic
import Mathlib.Data.String.Basic
import Rifts.Core.Config
import Rifts.Data.SortedMap

/-! The messages of each session that wait for an acknowledgement. The hash maps of the source are
ordered maps here; nothing depends on the order they are iterated in. -/
namespace Rifts

/-- `i64::saturating_add`. -/
def saturatingAdd (a b : Int64) : Int64 :=
  if 2 ^ 63 ≤ a.toInt + b.toInt then Int64.maxValue
  else if a.toInt + b.toInt < -2 ^ 63 then Int64.minValue
  else a + b

/-- `try_into().unwrap_or(i64::MAX)` on milliseconds. -/
def Duration.cappedMillis (d : Duration) : Int64 :=
  if d.asMillis < 2 ^ 63 then Int64.ofNat d.asMillis else Int64.maxValue

/-- The deadlines of the messages of one session. -/
abbrev Deadlines := SortedMap String Int64

structure AckManager where
  outstanding : SortedMap String Deadlines
  maxOutstandingPerSession : Nat

namespace Deadlines

def expired (now : Int64) (entries : Deadlines) : List String :=
  (entries.entries.filter fun x => x.2 ≤ now).map Prod.fst

/-- What is left when the expired messages are removed one by one. -/
def reap (now : Int64) (entries : Deadlines) : Deadlines :=
  (entries.expired now).foldl SortedMap.delete entries

variable {now : Int64} {entries : Deadlines} {messageId : String} {d : Int64}

theorem mem_expired : messageId ∈ entries.expired now ↔
    ∃ d, entries.get messageId = some d ∧ d ≤ now := by
  simp [expired, SortedMap.mem_entries]

theorem reap_eq : entries.reap now = entries.filter fun x => !decide (x.2 ≤ now) := by
  have hscan : entries.expired now =
      ((entries.scan fun _ => true).filter fun x => x.2 ≤ now).map Prod.fst := by
    simp [expired, SortedMap.scan]
  rw [reap, hscan, SortedMap.foldl_delete_scan]
  simp

/-- What is left is not expired. -/
theorem get_reap : (entries.reap now).get messageId = some d ↔
    entries.get messageId = some d ∧ now < d := by
  rw [reap_eq, SortedMap.get_filter, Option.filter_eq_some_iff]
  simp [Int64.not_le]

theorem expired_reap : (entries.reap now).expired now = [] := by
  rw [List.eq_nil_iff_forall_not_mem]
  intro messageId h
  obtain ⟨d, hd, hle⟩ := mem_expired.mp h
  exact Int64.not_le.mpr (get_reap.mp hd).2 hle

theorem reap_reap : (entries.reap now).reap now = entries.reap now := by
  rw [reap, expired_reap, List.foldl_nil]

theorem length_expired_add_reap :
    (entries.expired now).length + (entries.reap now).entries.length = entries.entries.length := by
  rw [reap_eq, expired, List.length_map]
  exact (List.length_eq_length_filter_add _).symm

/-- The messages that are gone after a reap are the expired ones. -/
theorem filter_not_mem_reap :
    ((entries.entries.map Prod.fst).filter
      fun messageId => messageId ∉ (entries.reap now).entries.map Prod.fst) =
      entries.expired now := by
  rw [List.filter_map, expired]
  congr 1
  refine List.filter_congr fun x hx => ?_
  have hx := SortedMap.mem_entries.mp hx
  rw [Function.comp_apply, decide_eq_decide, List.mem_map]
  constructor
  · intro hout
    by_contra hlate
    exact hout ⟨x, SortedMap.mem_entries.mpr (get_reap.mpr ⟨hx, Int64.not_le.mp hlate⟩), rfl⟩
  · rintro hle ⟨y, hy, hyx⟩
    obtain ⟨hget, hlt⟩ := get_reap.mp (SortedMap.mem_entries.mp hy)
    rw [hyx, hx] at hget
    rw [Option.some.inj hget] at hle
    exact Int64.not_le.mpr hlt hle

end Deadlines

namespace AckManager

def defaultMaxOutstandingPerSession : Nat := 10000

def defaultMaxSessions : Nat := 100000

def withCapacity (maxOutstandingPerSession : Nat) : AckManager :=
  ⟨.empty, maxOutstandingPerSession⟩

def new : AckManager := withCapacity defaultMaxOutstandingPerSession

def deadline (now : Int64) (timeout : Duration) : Int64 := saturatingAdd now timeout.cappedMillis

/-- The session gets its map before its cap is tested. -/
def track (m : AckManager) (now : Int64) (sessionId messageId : String) (timeout : Duration) :
    AckManager × Bool :=
  if m.outstanding.get sessionId = none ∧ defaultMaxSessions ≤ m.outstanding.entries.length then
    (m, false)
  else
    let entry := (m.outstanding.get sessionId).getD .empty
    if m.maxOutstandingPerSession ≤ entry.entries.length then
      ({ m with outstanding := m.outstanding.put sessionId entry }, false)
    else
      ({ m with
          outstanding := m.outstanding.put sessionId (entry.put messageId (deadline now timeout)) },
        true)

/-- The map of a session stays when its last message goes. -/
def complete (m : AckManager) (sessionId messageId : String) : AckManager × Bool :=
  match m.outstanding.get sessionId with
  | some entries =>
    ({ m with outstanding := m.outstanding.put sessionId (entries.delete messageId) },
      (entries.get messageId).isSome)
  | none => (m, false)

def reapTimeouts (m : AckManager) (now : Int64) (sessionId : String) : AckManager × List String :=
  match m.outstanding.get sessionId with
  | some entries =>
    ({ m with outstanding := m.outstanding.put sessionId (entries.reap now) }, entries.expired now)
  | none => (m, [])

def forget (m : AckManager) (sessionId : String) : AckManager :=
  { m with outstanding := m.outstanding.delete sessionId }

/-- The loop over the sessions, with the count and the sessions that have become empty. -/
def reapSession (now : Int64) :
    SortedMap String Deadlines × Nat × List String → String × Deadlines →
      SortedMap String Deadlines × Nat × List String
  | (sessions, total, emptySessions), (sid, entries) =>
    (sessions.put sid (entries.reap now), total + (entries.expired now).length,
      if (entries.reap now).entries.isEmpty then emptySessions ++ [sid] else emptySessions)

def reapAllTimeouts (m : AckManager) (now : Int64) : AckManager × Nat :=
  match m.outstanding.entries.foldl (reapSession now) (m.outstanding, 0, []) with
  | (sessions, total, emptySessions) =>
    ({ m with outstanding := emptySessions.foldl SortedMap.delete sessions }, total)

/-- The messages that a session waits for, whether or not it has a map of its own. -/
def acks (m : AckManager) (sessionId : String) : Deadlines :=
  (m.outstanding.get sessionId).getD .empty

variable {m : AckManager} {now : Int64} {sid messageId : String} {timeout : Duration}
  {entries : Deadlines}

theorem acks_put : acks { m with outstanding := m.outstanding.put sid entries } =
    Function.update m.acks sid entries := by
  funext s
  by_cases hs : s = sid
  · subst hs
    simp [acks]
  · simp [acks, hs]

theorem acks_of_get (h : m.outstanding.get sid = some entries) : m.acks sid = entries := by
  rw [acks, h, Option.getD_some]

theorem acks_of_get_none (h : m.outstanding.get sid = none) : m.acks sid = .empty := by
  rw [acks, h, Option.getD_none]

theorem update_acks (h : m.acks sid = entries) : Function.update m.acks sid entries = m.acks := by
  rw [← h, Function.update_eq_self]

/-- A track that is refused changes no message; one that is not enters its deadline. -/
theorem track_cases (m : AckManager) (now : Int64) (sid messageId : String) (timeout : Duration) :
    (∃ m', m.track now sid messageId timeout = (m', false) ∧ m'.acks = m.acks) ∨
      ∃ m', m.track now sid messageId timeout = (m', true) ∧
        (m.acks sid).entries.length < m.maxOutstandingPerSession ∧
        m'.acks =
          Function.update m.acks sid ((m.acks sid).put messageId (deadline now timeout)) := by
  unfold track
  split
  · exact .inl ⟨m, rfl, rfl⟩
  · dsimp only
    split
    · exact .inl ⟨_, rfl, acks_put.trans (update_acks rfl)⟩
    · next hroom => exact .inr ⟨_, rfl, Nat.not_le.mp hroom, acks_put⟩

theorem complete_eq (m : AckManager) (sid messageId : String) : (m.complete sid messageId).1.acks =
      Function.update m.acks sid ((m.acks sid).delete messageId) ∧
    (m.complete sid messageId).2 = ((m.acks sid).get messageId).isSome := by
  unfold complete
  split
  · next h =>
    rw [acks_of_get h]
    exact ⟨acks_put, rfl⟩
  · next h =>
    rw [acks_of_get_none h, SortedMap.delete_of_get_none rfl, update_acks (acks_of_get_none h)]
    exact ⟨rfl, rfl⟩

theorem reapTimeouts_eq (m : AckManager) (now : Int64) (sid : String) :
    (m.reapTimeouts now sid).1.acks =
      Function.update m.acks sid ((m.acks sid).reap now) ∧
    (m.reapTimeouts now sid).2 = (m.acks sid).expired now := by
  unfold reapTimeouts
  split
  · next h =>
    rw [acks_of_get h]
    exact ⟨acks_put, rfl⟩
  · next h =>
    rw [acks_of_get_none h]
    exact ⟨(update_acks (acks_of_get_none h)).symm, rfl⟩

theorem acks_forget : (m.forget sid).acks = Function.update m.acks sid .empty := by
  funext s
  by_cases hs : s = sid
  · subst hs
    simp [acks, forget]
  · simp [acks, forget, hs]

/-- The three accumulators of the loop. -/
theorem foldl_reapSession (l : List (String × Deadlines)) (sessions : SortedMap String Deadlines)
    (total : Nat) (emptySessions : List String) :
    l.foldl (reapSession now) (sessions, total, emptySessions) =
      (l.foldl (fun g x => g.put x.1 (x.2.reap now)) sessions,
        total + (l.map fun x => (x.2.expired now).length).sum,
        emptySessions ++ (l.filter fun x => (x.2.reap now).entries.isEmpty).map Prod.fst) := by
  induction l generalizing sessions total emptySessions with
  | nil => simp
  | cons x l ih =>
    rw [List.foldl_cons, reapSession, ih]
    by_cases hempty : (x.2.reap now).entries.isEmpty = true
    · simp [hempty, Nat.add_assoc]
    · simp [hempty, Nat.add_assoc]

/-- The messages that a sweep finds expired. -/
def due (m : AckManager) (now : Int64) : Nat :=
  (m.outstanding.entries.map fun x => (x.2.expired now).length).sum

theorem total_reapAllTimeouts : (m.reapAllTimeouts now).2 = m.due now := by
  simp only [reapAllTimeouts, foldl_reapSession, Nat.zero_add]
  rfl

/-- A session whose map is dropped waits for nothing. -/
theorem acks_reapAllTimeouts :
    (m.reapAllTimeouts now).1.acks sid = (m.acks sid).reap now := by
  simp only [reapAllTimeouts, foldl_reapSession, List.nil_append]
  obtain ⟨keep, hfold, hkeep⟩ := SortedMap.exists_foldl_delete
    ((m.outstanding.entries.filter fun x => (x.2.reap now).entries.isEmpty).map Prod.fst)
    (m.outstanding.entries.foldl (fun g x => g.put x.1 (x.2.reap now)) m.outstanding)
  rw [acks, hfold, SortedMap.get_filter, SortedMap.get_foldl_put_entries]
  cases hget : m.outstanding.get sid with
  | none =>
    rw [acks_of_get_none hget]
    rfl
  | some entries =>
    rw [acks_of_get hget, Option.map_some, Option.filter_some]
    split
    · rfl
    · next hdropped =>
      rw [hkeep, not_not] at hdropped
      obtain ⟨x, hx, hsid⟩ := List.mem_map.mp hdropped
      obtain ⟨hx, hnil⟩ := List.mem_filter.mp hx
      have hsame := SortedMap.mem_entries.mp hx
      rw [hsid, hget] at hsame
      rw [← Option.some.inj hsame] at hnil
      exact (SortedMap.eq_empty (List.isEmpty_iff.mp hnil)).symm

/-! How many sessions have a map. -/

def sessions (m : AckManager) : Nat := m.outstanding.entries.length

theorem sessions_put_of_get {entries' : Deadlines} (h : m.outstanding.get sid = some entries') :
    sessions { m with outstanding := m.outstanding.put sid entries } = m.sessions :=
  SortedMap.length_put_of_some h

theorem sessions_track (h : m.sessions ≤ defaultMaxSessions) :
    (m.track now sid messageId timeout).1.sessions ≤ defaultMaxSessions := by
  have hput (entries : Deadlines)
      (hroom : ¬ (m.outstanding.get sid = none ∧
        defaultMaxSessions ≤ m.outstanding.entries.length)) :
      sessions { m with outstanding := m.outstanding.put sid entries } ≤ defaultMaxSessions := by
    cases hget : m.outstanding.get sid with
    | none =>
      have hlen : (m.outstanding.put sid entries).entries.length = _ :=
        SortedMap.length_put_of_none hget
      rw [hget] at hroom
      simp only [sessions, true_and] at hroom ⊢
      omega
    | some =>
      rw [sessions_put_of_get hget]
      exact h
  unfold track
  split
  · exact h
  · next hroom =>
    dsimp only
    split
    · exact hput _ hroom
    · exact hput _ hroom

theorem sessions_complete : (m.complete sid messageId).1.sessions = m.sessions := by
  unfold complete
  split
  · next h => exact sessions_put_of_get h
  · rfl

theorem sessions_reapTimeouts : (m.reapTimeouts now sid).1.sessions = m.sessions := by
  unfold reapTimeouts
  split
  · next h => exact sessions_put_of_get h
  · rfl

theorem sessions_forget_le : (m.forget sid).sessions ≤ m.sessions := SortedMap.length_filter_le

theorem sessions_reapAllTimeouts_le : (m.reapAllTimeouts now).1.sessions ≤ m.sessions := by
  simp only [reapAllTimeouts, foldl_reapSession, sessions, SortedMap.foldl_delete]
  refine SortedMap.length_filter_le.trans (Nat.le_of_eq (SortedMap.length_foldl_put ?_))
  intro x hx
  rw [SortedMap.mem_entries.mp hx]
  simp

end AckManager

end Rifts
