import Rifts.Core.Ack
import Rifts.Transition.Run

/-! Every message that is tracked is acknowledged, reaped, forgotten or still outstanding. -/
namespace Rifts

open Transition

/-- A call on an ack manager. -/
inductive AckCall
  | track (sessionId messageId : String) (timeout : Duration)
  | complete (sessionId messageId : String)
  | reapTimeouts (sessionId : String)
  | reapAllTimeouts
  | forget (sessionId : String)

namespace AckManager

def call (m : AckManager) (now : Int64) : AckCall → AckManager
  | .track sessionId messageId timeout => (m.track now sessionId messageId timeout).1
  | .complete sessionId messageId => (m.complete sessionId messageId).1
  | .reapTimeouts sessionId => (m.reapTimeouts now sessionId).1
  | .reapAllTimeouts => (m.reapAllTimeouts now).1
  | .forget sessionId => m.forget sessionId

/-- The ids that a session waits for. -/
def ids (m : AckManager) (sid : String) : List String := (m.acks sid).entries.map Prod.fst

/-- A track of the session that returns true for an id that is not outstanding. -/
def entered (m : AckManager) (now : Int64) (c : AckCall) (sid : String) : Nat :=
  match c with
  | .track sessionId messageId timeout =>
    if sessionId = sid ∧ (m.track now sessionId messageId timeout).2 = true ∧
      messageId ∉ m.ids sid then 1 else 0
  | _ => 0

/-- A complete of the session that returns true. -/
def completed (m : AckManager) (c : AckCall) (sid : String) : Nat :=
  match c with
  | .complete sessionId messageId =>
    if sessionId = sid ∧ (m.complete sessionId messageId).2 = true then 1 else 0
  | _ => 0

/-- The ids of the session that a call reaps. `reap_all_timeouts` does not return them: they are
those that it leaves no more outstanding. -/
def reaped (m : AckManager) (now : Int64) (c : AckCall) (sid : String) : List String :=
  match c with
  | .reapTimeouts sessionId => if sessionId = sid then (m.reapTimeouts now sessionId).2 else []
  | .reapAllTimeouts =>
    (m.ids sid).filter fun messageId => messageId ∉ (m.reapAllTimeouts now).1.ids sid
  | _ => []

/-- The ids of the session that are outstanding when it is forgotten. -/
def discarded (m : AckManager) (c : AckCall) (sid : String) : List String :=
  match c with
  | .forget sessionId => if sessionId = sid then m.ids sid else []
  | _ => []

variable {m : AckManager} {now : Int64} {c : AckCall} {sid messageId : String}

theorem mem_ids : messageId ∈ m.ids sid ↔ (m.acks sid).get messageId ≠ none := by
  simp [ids, SortedMap.mem_entries, Option.ne_none_iff_exists']

theorem length_ids : (m.ids sid).length = (m.acks sid).entries.length := List.length_map ..

theorem reaped_reapAllTimeouts :
    m.reaped now .reapAllTimeouts sid = (m.acks sid).expired now := by
  rw [reaped, ids, ids, acks_reapAllTimeouts]
  exact Deadlines.filter_not_mem_reap

/-- A call on one session leaves the others alone. -/
theorem ids_of_ne {m' : AckManager} {s : String} {entries : Deadlines}
    (h : m'.acks = Function.update m.acks s entries) (hne : s ≠ sid) : m'.ids sid = m.ids sid := by
  rw [ids, h, Function.update_of_ne (Ne.symm hne), ids]

theorem length_ids_self {m' : AckManager} {entries : Deadlines}
    (h : m'.acks = Function.update m.acks sid entries) :
    (m'.ids sid).length = entries.entries.length := by
  rw [length_ids, h, Function.update_self]

theorem length_ids_track {s : String} {timeout : Duration} :
    (m.ids sid).length + m.entered now (.track s messageId timeout) sid =
      ((m.track now s messageId timeout).1.ids sid).length := by
  unfold entered
  obtain ⟨m', htrack, hacks⟩ | ⟨m', htrack, -, hacks⟩ := m.track_cases now s messageId timeout
  · simp [htrack, ids, hacks]
  · simp only [htrack, true_and]
    by_cases hs : s = sid
    · subst hs
      rw [length_ids_self hacks]
      cases hget : (m.acks s).get messageId with
      | none =>
        have hnew : messageId ∉ m.ids s := by simp [mem_ids, hget]
        rw [SortedMap.length_put_of_none hget, if_pos ⟨rfl, hnew⟩, length_ids]
      | some d =>
        have hold : messageId ∈ m.ids s := by simp [mem_ids, hget]
        rw [SortedMap.length_put_of_some hget, if_neg (fun h => h.2 hold), length_ids]
        rfl
    · rw [ids_of_ne hacks hs, if_neg (fun h => hs h.1)]
      rfl

theorem length_ids_complete (m : AckManager) (s messageId : String) :
    (m.ids sid).length = m.completed (.complete s messageId) sid +
      ((m.complete s messageId).1.ids sid).length := by
  obtain ⟨hacks, hresult⟩ := m.complete_eq s messageId
  unfold completed
  simp only [hresult]
  by_cases hs : s = sid
  · subst hs
    rw [length_ids_self hacks, length_ids]
    cases hget : (m.acks s).get messageId with
    | none =>
      rw [SortedMap.delete_of_get_none hget]
      simp
    | some d =>
      rw [SortedMap.length_delete_of_some hget, Nat.add_comm]
      simp
  · rw [ids_of_ne hacks hs, if_neg (fun h => hs h.1), Nat.zero_add]

theorem length_ids_reapTimeouts (m : AckManager) (now : Int64) (s : String) :
    (m.ids sid).length = (m.reaped now (.reapTimeouts s) sid).length +
      ((m.reapTimeouts now s).1.ids sid).length := by
  obtain ⟨hacks, hresult⟩ := m.reapTimeouts_eq now s
  unfold reaped
  simp only [hresult]
  by_cases hs : s = sid
  · subst hs
    rw [if_pos rfl, length_ids_self hacks, Deadlines.length_expired_add_reap, length_ids]
  · rw [ids_of_ne hacks hs, if_neg hs, List.length_nil, Nat.zero_add]

theorem length_ids_forget (m : AckManager) (s : String) :
    (m.ids sid).length = (m.discarded (.forget s) sid).length + ((m.forget s).ids sid).length := by
  unfold discarded
  by_cases hs : s = sid
  · subst hs
    have hempty : ((m.forget s).ids s).length = 0 := length_ids_self acks_forget
    simp [hempty]
  · simp only [if_neg hs, ids_of_ne acks_forget hs, List.length_nil, Nat.zero_add]

/-- No call loses a message of a session or makes one up. -/
theorem length_ids_call (m : AckManager) (now : Int64) (c : AckCall) (sid : String) :
    (m.ids sid).length + m.entered now c sid =
      m.completed c sid + (m.reaped now c sid).length + (m.discarded c sid).length +
        ((m.call now c).ids sid).length := by
  cases c with
  | track s messageId timeout =>
    rw [length_ids_track]
    simp [completed, reaped, discarded, call]
  | complete s messageId =>
    rw [m.length_ids_complete s messageId]
    simp [entered, reaped, discarded, call]
  | reapTimeouts s =>
    rw [m.length_ids_reapTimeouts now s]
    simp [entered, completed, discarded, call]
  | reapAllTimeouts =>
    have hleft : ((m.reapAllTimeouts now).1.ids sid).length =
        ((m.acks sid).reap now).entries.length := by
      rw [length_ids, acks_reapAllTimeouts]
    have hsplit : ((m.acks sid).expired now).length + ((m.acks sid).reap now).entries.length = _ :=
      Deadlines.length_expired_add_reap
    rw [reaped_reapAllTimeouts, length_ids, ← hsplit]
    simp [entered, completed, discarded, call, hleft]
  | forget s =>
    rw [m.length_ids_forget s]
    simp [entered, completed, reaped, call]

/-- A message is entered only below the cap of its session. -/
theorem entered_le (m : AckManager) (now : Int64) (c : AckCall) (sid : String)
    (h : (m.ids sid).length ≤ m.maxOutstandingPerSession) :
    (m.ids sid).length + m.entered now c sid ≤ m.maxOutstandingPerSession := by
  cases c with
  | track s messageId timeout =>
    obtain ⟨m', htrack, -⟩ | ⟨m', htrack, hroom, -⟩ := m.track_cases now s messageId timeout
    · simpa [entered, htrack] using h
    · simp only [entered, htrack, true_and]
      split
      · next hs =>
        rw [length_ids, ← hs.1]
        exact hroom
      · exact h
  | complete | reapTimeouts | reapAllTimeouts | forget => exact h

theorem maxOutstandingPerSession_call :
    (m.call now c).maxOutstandingPerSession = m.maxOutstandingPerSession := by
  cases c with
  | track =>
    simp only [call, track]
    split_ifs <;> rfl
  | complete =>
    simp only [call, complete]
    split <;> rfl
  | reapTimeouts =>
    simp only [call, reapTimeouts]
    split <;> rfl
  | reapAllTimeouts | forget => rfl

theorem sessions_call (h : m.sessions ≤ defaultMaxSessions) :
    (m.call now c).sessions ≤ defaultMaxSessions := by
  cases c with
  | track => exact sessions_track h
  | complete => exact sessions_complete.trans_le h
  | reapTimeouts => exact sessions_reapTimeouts.trans_le h
  | reapAllTimeouts => exact sessions_reapAllTimeouts_le.trans h
  | forget => exact sessions_forget_le.trans h

/-- The messages that are reaped have expired. -/
theorem deadline_of_mem_reaped (h : messageId ∈ m.reaped now c sid) :
    ∃ d, (m.acks sid).get messageId = some d ∧ d ≤ now := by
  cases c with
  | reapTimeouts s =>
    simp only [reaped, (m.reapTimeouts_eq now s).2] at h
    split at h
    · next hs => exact hs ▸ Deadlines.mem_expired.mp h
    · cases h
  | reapAllTimeouts =>
    rw [reaped_reapAllTimeouts] at h
    exact Deadlines.mem_expired.mp h
  | track | complete | forget => cases h

end AckManager

/-- A manager with what its calls have come to, for each session. -/
structure AckLedger where
  manager : AckManager
  tracked : String → Nat
  completed : String → Nat
  reaped : String → Nat
  discarded : String → Nat
  /-- The deadline that was last set for a message. -/
  latest : String → String → Option Int64

namespace AckLedger

def new (maxOutstandingPerSession : Nat) : AckLedger :=
  ⟨.withCapacity maxOutstandingPerSession, 0, 0, 0, 0, fun _ _ => none⟩

/-- The deadlines that were last set, after a call. -/
def latestAfter (s : AckLedger) (now : Int64) : AckCall → String → String → Option Int64
  | .track sid messageId timeout =>
    if (s.manager.track now sid messageId timeout).2 then
      Function.update s.latest sid
        (Function.update (s.latest sid) messageId (some (AckManager.deadline now timeout)))
    else s.latest
  | _ => s.latest

def step (s : AckLedger) : Int64 × AckCall → Option AckLedger
  | (now, c) => some {
      manager := s.manager.call now c
      tracked := fun sid => s.tracked sid + s.manager.entered now c sid
      completed := fun sid => s.completed sid + s.manager.completed c sid
      reaped := fun sid => s.reaped sid + (s.manager.reaped now c sid).length
      discarded := fun sid => s.discarded sid + (s.manager.discarded c sid).length
      latest := s.latestAfter now c }

/-- The account of every session is settled, and the caps are kept. -/
structure Conserved (maxOutstandingPerSession : Nat) (s : AckLedger) : Prop where
  balance : ∀ sid, s.tracked sid =
    s.completed sid + s.reaped sid + s.discarded sid + (s.manager.ids sid).length
  outstanding : ∀ sid, (s.manager.ids sid).length ≤ maxOutstandingPerSession
  sessions : s.manager.sessions ≤ 100000

/-- What is reaped by a call is late by the deadline that was last set. -/
def OnlyLate (s : AckLedger) (x : Int64 × AckCall) : Prop :=
  ∀ sid, ∀ messageId ∈ s.manager.reaped x.1 x.2 sid,
    ∃ d, s.latest sid messageId = some d ∧ d ≤ x.1

/-- The deadline that the manager has for a message is the one that was last set. -/
def Current (s : AckLedger) : Prop :=
  ∀ sid messageId d, (s.manager.acks sid).get messageId = some d → s.latest sid messageId = some d

variable {cap : Nat} {s s' : AckLedger} {x : Int64 × AckCall} {sid : String}

theorem conserved_step (hstep : step s x = some s')
    (hcap : s.manager.maxOutstandingPerSession = cap) (h : Conserved cap s) : Conserved cap s' := by
  obtain ⟨now, c⟩ := x
  cases hstep
  have hcall := fun sid => s.manager.length_ids_call now c sid
  refine ⟨fun sid => ?_, fun sid => ?_, AckManager.sessions_call h.sessions⟩
  · have hsid := hcall sid
    have hbalance := h.balance sid
    dsimp only
    omega
  · have hroom := s.manager.entered_le now c sid (hcap ▸ h.outstanding sid)
    have hsid := hcall sid
    dsimp only
    omega

/-- A call that enters no message of any session sets no deadline. -/
theorem Current.of_subset (h : Current s) (hlatest : s'.latest = s.latest)
    (hsub : ∀ sid messageId d, (s'.manager.acks sid).get messageId = some d →
      (s.manager.acks sid).get messageId = some d) : Current s' := by
  intro sid messageId d hget
  rw [hlatest]
  exact h sid messageId d (hsub sid messageId d hget)

theorem get_of_update {m m' : AckManager} {t messageId : String} {entries : Deadlines} {d : Int64}
    (hacks : m'.acks = Function.update m.acks t entries)
    (hsub : ∀ id d, entries.get id = some d → (m.acks t).get id = some d)
    (hget : (m'.acks sid).get messageId = some d) : (m.acks sid).get messageId = some d := by
  rw [hacks] at hget
  by_cases hs : sid = t
  · subst hs
    rw [Function.update_self] at hget
    exact hsub messageId d hget
  · rwa [Function.update_of_ne hs] at hget

/-- A track that is accepted sets the deadline of its message, in the manager and in the record. -/
theorem current_track (h : Current s) (now : Int64) (t id : String) (timeout : Duration)
    (hstep : step s (now, .track t id timeout) = some s') : Current s' := by
  cases hstep
  obtain ⟨m', htrack, hacks⟩ | ⟨m', htrack, -, hacks⟩ := s.manager.track_cases now t id timeout
  · refine h.of_subset ?_ ?_
    · simp [latestAfter, htrack]
    · simp [AckManager.call, htrack, hacks]
  · intro sid messageId d hget
    simp only [AckManager.call, htrack, hacks] at hget
    simp only [latestAfter, htrack, if_true]
    by_cases hs : sid = t
    · subst hs
      rw [Function.update_self] at hget ⊢
      by_cases hid : messageId = id
      · subst hid
        rw [SortedMap.get_put_self] at hget
        rw [Function.update_self, hget]
      · rw [SortedMap.get_put_of_ne hid] at hget
        rw [Function.update_of_ne hid]
        exact h sid messageId d hget
    · rw [Function.update_of_ne hs] at hget ⊢
      exact h sid messageId d hget

theorem current_step (hstep : step s x = some s') (h : Current s) : Current s' := by
  obtain ⟨now, c⟩ := x
  cases c with
  | track t id timeout => exact current_track h now t id timeout hstep
  | complete t id =>
    cases hstep
    refine h.of_subset rfl fun sid messageId d => ?_
    refine get_of_update (s.manager.complete_eq t id).1 fun id' d hget => ?_
    by_cases hid : id' = id
    · simp [hid] at hget
    · rwa [SortedMap.get_delete_of_ne hid] at hget
  | reapTimeouts t =>
    cases hstep
    refine h.of_subset rfl fun sid messageId d => ?_
    exact get_of_update (s.manager.reapTimeouts_eq now t).1
      fun id d hget => (Deadlines.get_reap.mp hget).1
  | reapAllTimeouts =>
    cases hstep
    refine h.of_subset rfl fun sid messageId d hget => ?_
    have hreap : (((s.manager.acks sid).reap now).get messageId) = some d := by
      rwa [← AckManager.acks_reapAllTimeouts]
    exact (Deadlines.get_reap.mp hreap).1
  | forget t =>
    cases hstep
    refine h.of_subset rfl fun sid messageId d => ?_
    exact get_of_update AckManager.acks_forget fun id d hget => by cases hget

theorem onlyLate_of_current (h : Current s) : OnlyLate s x := by
  intro sid messageId hmem
  obtain ⟨d, hget, hle⟩ := AckManager.deadline_of_mem_reaped hmem
  exact ⟨d, h sid messageId d hget, hle⟩

end AckLedger

namespace AckManager

variable {m : AckManager} {now : Int64}

/-- `reap_timeouts` on one session after the other, and how many ids it returns in all. -/
def reapEach (m : AckManager) (now : Int64) : List String → AckManager × Nat
  | [] => (m, 0)
  | sid :: sids =>
    let (m', n) := (m.reapTimeouts now sid).1.reapEach now sids
    (m', (m.reapTimeouts now sid).2.length + n)

theorem acks_reapEach (sids : List String) (m : AckManager) (sid : String) :
    (m.reapEach now sids).1.acks sid =
      if sid ∈ sids then (m.acks sid).reap now else m.acks sid := by
  induction sids generalizing m with
  | nil => rfl
  | cons t sids ih =>
    change ((m.reapTimeouts now t).1.reapEach now sids).1.acks sid = _
    rw [ih, (m.reapTimeouts_eq now t).1]
    by_cases hs : sid = t
    · subst hs
      simp [Deadlines.reap_reap]
    · simp [hs]

/-- A session that is reaped has none of its messages due any more. -/
theorem due_reapTimeouts (m : AckManager) (now : Int64) (sid : String) :
    m.due now = (m.reapTimeouts now sid).2.length + (m.reapTimeouts now sid).1.due now := by
  unfold reapTimeouts
  split
  · next entries hget =>
    have hbefore : m.outstanding.entries.Perm ((sid, entries) :: _) := SortedMap.perm_delete hget
    have hafter : (m.outstanding.put sid (entries.reap now)).entries.Perm _ :=
      SortedMap.put_perm_delete
    simp only [due]
    rw [(hbefore.map _).sum_eq, (hafter.map _).sum_eq]
    simp [Deadlines.expired_reap]
  · simp

theorem due_reapEach (sids : List String) (m : AckManager) :
    m.due now = (m.reapEach now sids).2 + (m.reapEach now sids).1.due now := by
  induction sids generalizing m with
  | nil => simp [reapEach]
  | cons sid sids ih =>
    rw [m.due_reapTimeouts now sid, ih (m.reapTimeouts now sid).1, ← Nat.add_assoc]
    rfl

/-- With every session reaped, nothing is due. -/
theorem due_of_reaped (h : ∀ sid, (m.acks sid).expired now = []) : m.due now = 0 := by
  refine List.sum_eq_zero fun n hn => ?_
  obtain ⟨x, hx, rfl⟩ := List.mem_map.mp hn
  have hacks := h x.1
  rw [acks_of_get (SortedMap.mem_entries.mp hx)] at hacks
  rw [hacks, List.length_nil]

theorem acks_reapEach_of_all {sids : List String}
    (hall : ∀ sid, m.outstanding.get sid ≠ none → sid ∈ sids) (now : Int64) (sid : String) :
    (m.reapEach now sids).1.acks sid = (m.acks sid).reap now := by
  rw [acks_reapEach]
  split
  · rfl
  · next hout =>
    have hget : m.outstanding.get sid = none := by
      by_contra hget
      exact hout (hall sid hget)
    rw [acks_of_get_none hget]
    rfl

/-- The sweep is `reap_timeouts` on every session, in whatever order. -/
theorem reapEach_eq_reapAllTimeouts {sids : List String}
    (hall : ∀ sid, m.outstanding.get sid ≠ none → sid ∈ sids) :
    (m.reapEach now sids).2 = (m.reapAllTimeouts now).2 ∧
      ∀ sid, (m.reapEach now sids).1.acks sid = (m.reapAllTimeouts now).1.acks sid := by
  have hacks := acks_reapEach_of_all hall now
  constructor
  · have hzero : (m.reapEach now sids).1.due now = 0 := due_of_reaped fun sid => by
      rw [hacks, Deadlines.expired_reap]
    rw [total_reapAllTimeouts, due_reapEach sids m, hzero]
    rfl
  · intro sid
    rw [hacks, acks_reapAllTimeouts]

end AckManager

namespace AckLedger

theorem conserved_run (cap : Nat) (calls : List (Int64 × AckCall)) :
    Throughout step (Conserved cap) (new cap) calls := by
  have hrun : Throughout step
      (fun s => s.manager.maxOutstandingPerSession = cap ∧ Conserved cap s) (new cap) calls := by
    refine throughout_of_invariant ?_ ⟨rfl, ?_⟩
    · rintro s x s' hstep ⟨hcap, h⟩
      refine ⟨?_, conserved_step hstep hcap h⟩
      cases hstep
      exact AckManager.maxOutstandingPerSession_call.trans hcap
    · exact ⟨fun _ => rfl, fun _ => Nat.zero_le _, Nat.zero_le _⟩
  exact throughout_mono hrun fun _ h => h.2

theorem onlyLate_run (cap : Nat) (calls : List (Int64 × AckCall)) :
    Guarded step OnlyLate (new cap) calls := by
  have hnew : Current (new cap) := by
    intro sid messageId d hget
    cases hget
  have hrun : Throughout step Current (new cap) calls :=
    throughout_of_invariant (fun _ _ _ => current_step) hnew
  exact guarded_of_throughout hrun fun _ _ _ _ h => onlyLate_of_current h

/-- In every run of calls the account of each session is settled and the caps are kept, what is
reaped is late, and a sweep does what a reap of every session does. -/
theorem ack_tracking_conserves_messages (cap : Nat) (calls : List (Int64 × AckCall)) :
    Throughout step (Conserved cap) (new cap) calls ∧ Guarded step OnlyLate (new cap) calls ∧
      ∀ (m : AckManager) (now : Int64) (sids : List String),
        (∀ sid, m.outstanding.get sid ≠ none → sid ∈ sids) →
        (m.reapEach now sids).2 = (m.reapAllTimeouts now).2 ∧
          ∀ sid, (m.reapEach now sids).1.ids sid = (m.reapAllTimeouts now).1.ids sid := by
  refine ⟨conserved_run cap calls, onlyLate_run cap calls, ?_⟩
  intro m now sids hall
  obtain ⟨htotal, hacks⟩ := AckManager.reapEach_eq_reapAllTimeouts (m := m) hall
  refine ⟨htotal, fun sid => ?_⟩
  rw [AckManager.ids, hacks, AckManager.ids]

/-- "a" is tracked again before it is late, "b" is acknowledged, and the second sweep finds "a". -/
def trackedTwice : List (Int64 × AckCall) :=
  [(0, .track "s" "a" (.ofMillis 10)), (1, .track "s" "b" (.ofMillis 10)),
    (2, .track "s" "a" (.ofMillis 50)), (3, .complete "s" "b"), (20, .reapAllTimeouts),
    (60, .reapAllTimeouts)]

theorem tracked_twice_is_counted_once :
    ∃ s, run step (new 3) trackedTwice = some s ∧ Conserved 3 s ∧ s.tracked "s" = 2 ∧
      s.completed "s" = 1 ∧ s.reaped "s" = 1 ∧ s.manager.ids "s" = [] := by
  obtain ⟨s, hrun, htracked, hcompleted, hreaped, hids⟩ :
      ∃ s, run step (new 3) trackedTwice = some s ∧ s.tracked "s" = 2 ∧ s.completed "s" = 1 ∧
        s.reaped "s" = 1 ∧ s.manager.ids "s" = [] := by
    decide +kernel
  have h := (ack_tracking_conserves_messages 3 trackedTwice).1
  exact ⟨s, hrun, throughout_last h hrun, htracked, hcompleted, hreaped, hids⟩

end AckLedger

end Rifts
