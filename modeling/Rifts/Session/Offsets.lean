import Mathlib.Data.String.Basic
import Rifts.Data.SortedMap
import Rifts.Transition.Run

/-! The offsets that a session has processed, by topic. -/
namespace Rifts

open Transition

def maxTopicsPerSession : Nat := 1024

abbrev TopicOffsets := SortedMap String Int64

/-- The order in which the map of a session is walked: each entry once, in any order. -/
structure Walk where
  order : TopicOffsets → List (String × Int64)
  perm : ∀ m, (order m).Perm m.entries

/-- `OffsetTracker`: the topics of each session. -/
structure SessionOffsets where
  inner : String → Option TopicOffsets := fun _ => none

namespace SessionOffsets

/-- Make room for a new topic: of the lowest offsets, the first on the walk goes. -/
def evict (w : Walk) (topics : TopicOffsets) : TopicOffsets :=
  match (w.order topics).minOn? fun x => x.2 with
  | some oldest => topics.delete oldest.1
  | none => topics

def record (t : SessionOffsets) (w : Walk) (session topic : String) (offset : Int64) :
    SessionOffsets :=
  let topics := (t.inner session).getD .empty
  let topics :=
    if maxTopicsPerSession ≤ topics.entries.length ∧ (topics.get topic).isNone then
      evict w topics
    else topics
  ⟨Function.update t.inner session (some (topics.put topic offset))⟩

def get (t : SessionOffsets) (session topic : String) : Option Int64 :=
  (t.inner session).bind fun topics => topics.get topic

def snapshot (t : SessionOffsets) (session : String) : TopicOffsets :=
  (t.inner session).getD .empty

def forget (t : SessionOffsets) (session : String) : SessionOffsets :=
  ⟨Function.update t.inner session none⟩

theorem evict_spec (w : Walk) {topics : TopicOffsets} (h : topics.entries ≠ []) :
    ∃ old o, topics.get old = some o ∧ (∀ u x, topics.get u = some x → o ≤ x) ∧
      evict w topics = topics.delete old := by
  have hperm := w.perm topics
  have hsome : ((w.order topics).minOn? fun x => x.2).isSome := by
    rw [List.isSome_minOn?_iff]
    intro hnil
    rw [hnil] at hperm
    exact h hperm.nil_eq.symm
  obtain ⟨⟨old, o⟩, hmin⟩ := Option.isSome_iff_exists.mp hsome
  refine ⟨old, o, ?_, ?_, by rw [evict, hmin]⟩
  · rw [← SortedMap.mem_entries]
    exact hperm.mem_iff.mp (List.minOn?_mem hmin)
  · intro u x hx
    rw [← SortedMap.mem_entries, ← hperm.mem_iff] at hx
    have hle := List.apply_get_minOn?_le_of_mem (f := fun y : String × Int64 => y.2) hx
    simpa only [hmin, Option.get_some] using hle

/-- The topic is new to a session that has as many as it may. -/
def Crowded (t : SessionOffsets) (session topic : String) : Prop :=
  t.get session topic = none ∧ (t.snapshot session).entries.length = maxTopicsPerSession

/-- What a call of `record` changes. -/
structure Recorded (t t' : SessionOffsets) (session topic : String) (offset : Int64) : Prop where
  self : t'.get session topic = some offset
  others : ∀ s, s ≠ session → t'.inner s = t.inner s
  kept : ¬ t.Crowded session topic → ∀ u, u ≠ topic → t'.get session u = t.get session u
  evicted : t.Crowded session topic → ∃ old o, t.get session old = some o ∧
    (∀ u x, t.get session u = some x → o ≤ x) ∧ t'.get session old = none ∧
    ∀ u, u ≠ topic → u ≠ old → t'.get session u = t.get session u

def Bounded (t : SessionOffsets) : Prop :=
  ∀ session, (t.snapshot session).entries.length ≤ maxTopicsPerSession

variable {t : SessionOffsets} {w : Walk} {session topic : String} {offset : Int64}

theorem get_eq_snapshot : t.get session topic = (t.snapshot session).get topic := by
  unfold get snapshot
  cases t.inner session <;> rfl

/-- The topics of the session after a call, before the new offset is put in. -/
def room (t : SessionOffsets) (w : Walk) (session topic : String) : TopicOffsets :=
  if maxTopicsPerSession ≤ (t.snapshot session).entries.length ∧
      ((t.snapshot session).get topic).isNone then
    evict w (t.snapshot session)
  else t.snapshot session

theorem snapshot_record : (t.record w session topic offset).snapshot session =
    (t.room w session topic).put topic offset := by
  simp [record, snapshot, room]

theorem room_of_not_crowded (hb : t.Bounded) (h : ¬ t.Crowded session topic) :
    t.room w session topic = t.snapshot session := by
  rw [room, if_neg]
  rintro ⟨hfull, hnew⟩
  refine h ⟨?_, Nat.le_antisymm (hb session) hfull⟩
  rw [get_eq_snapshot]
  exact Option.isNone_iff_eq_none.mp hnew

theorem room_of_crowded (h : t.Crowded session topic) :
    ∃ old o, t.get session old = some o ∧ (∀ u x, t.get session u = some x → o ≤ x) ∧
      t.room w session topic = (t.snapshot session).delete old := by
  obtain ⟨hnew, hfull⟩ := h
  have hne : (t.snapshot session).entries ≠ [] := by
    intro hnil
    rw [hnil] at hfull
    cases hfull
  rw [get_eq_snapshot] at hnew
  obtain ⟨old, o, hold, hmin, hdelete⟩ := evict_spec w hne
  refine ⟨old, o, ?_, ?_, ?_⟩
  · rw [get_eq_snapshot, hold]
  · intro u x hx
    rw [get_eq_snapshot] at hx
    exact hmin u x hx
  · rw [room, if_pos ⟨hfull.ge, by rw [hnew]; rfl⟩, hdelete]

theorem recorded_record (hb : t.Bounded) :
    Recorded t (t.record w session topic offset) session topic offset where
  self := by rw [get_eq_snapshot, snapshot_record, SortedMap.get_put_self]
  others s hs := Function.update_of_ne hs _ _
  kept hroom u hu := by
    rw [get_eq_snapshot, snapshot_record, SortedMap.get_put_of_ne hu,
      room_of_not_crowded hb hroom, get_eq_snapshot]
  evicted hcrowded := by
    obtain ⟨old, o, hold, hmin, hroom⟩ := room_of_crowded (w := w) hcrowded
    have hne : old ≠ topic := by
      rintro rfl
      rw [hcrowded.1] at hold
      cases hold
    refine ⟨old, o, hold, hmin, ?_, ?_⟩
    · rw [get_eq_snapshot, snapshot_record, SortedMap.get_put_of_ne hne, hroom,
        SortedMap.get_delete_self]
    · intro u hu hold'
      rw [get_eq_snapshot, snapshot_record, SortedMap.get_put_of_ne hu, hroom,
        SortedMap.get_delete_of_ne hold', get_eq_snapshot]

theorem bounded_record (hb : t.Bounded) : (t.record w session topic offset).Bounded := by
  intro s
  by_cases hs : s = session
  · subst hs
    rw [snapshot_record]
    by_cases hcrowded : t.Crowded s topic
    · obtain ⟨old, o, hold, -, hroom⟩ := room_of_crowded (w := w) hcrowded
      obtain ⟨hnew, hfull⟩ := hcrowded
      rw [get_eq_snapshot] at hold hnew
      have hlen := SortedMap.length_delete_of_some hold
      have hnone : ((t.snapshot s).delete old).get topic = none := by
        rw [SortedMap.delete, SortedMap.get_filter, hnew]
        rfl
      rw [hroom, SortedMap.length_put_of_none hnone, ← hlen]
      exact hb s
    · rw [room_of_not_crowded hb hcrowded]
      cases hget : (t.snapshot s).get topic with
      | some x =>
        rw [SortedMap.length_put_of_some hget]
        exact hb s
      | none =>
        have hlt : (t.snapshot s).entries.length < maxTopicsPerSession := by
          refine Nat.lt_of_le_of_ne (hb s) fun hfull => hcrowded ⟨?_, hfull⟩
          rw [get_eq_snapshot, hget]
        rw [SortedMap.length_put_of_none hget]
        exact hlt
  · have hsame : (t.record w session topic offset).snapshot s = t.snapshot s := by
      rw [snapshot, snapshot, (recorded_record hb).others s hs]
    rw [hsame]
    exact hb s

theorem bounded_forget (hb : t.Bounded) : (t.forget session).Bounded := by
  intro s
  by_cases hs : s = session
  · subst hs
    simp [forget, snapshot, SortedMap.empty]
  · have hsame : (t.forget session).inner s = t.inner s := Function.update_of_ne hs ..
    rw [snapshot, hsame]
    exact hb s

inductive Op
  | record (w : Walk) (session topic : String) (offset : Int64)
  | forget (session : String)

def step (t : SessionOffsets) : Op → Option SessionOffsets
  | .record w session topic offset => some (t.record w session topic offset)
  | .forget session => some (t.forget session)

/-- What a call changes, and nothing else. -/
def Changes (t : SessionOffsets) : Op → Prop
  | .record w session topic offset =>
    Recorded t (t.record w session topic offset) session topic offset
  | .forget session => (t.forget session).inner session = none ∧
    ∀ s, s ≠ session → (t.forget session).inner s = t.inner s

/-- No session ever tracks more topics than it may, and every call changes what it should. -/
theorem tracked_bounded (ops : List Op) :
    Throughout step Bounded {} ops ∧ Guarded step Changes {} ops := by
  have hbounded : Throughout step Bounded {} ops := by
    refine throughout_of_invariant ?_ fun session => Nat.zero_le _
    rintro t (⟨w, session, topic, offset⟩ | session) t' ⟨⟩ hb
    · exact bounded_record hb
    · exact bounded_forget hb
  refine ⟨hbounded, guarded_of_throughout hbounded ?_⟩
  rintro t (⟨w, session, topic, offset⟩ | session) t' - hb
  · exact recorded_record hb
  · exact ⟨Function.update_self .., fun s hs => Function.update_of_ne hs ..⟩

end SessionOffsets

end Rifts
