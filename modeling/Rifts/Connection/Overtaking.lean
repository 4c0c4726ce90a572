import Rifts.Connection.Slot

/-! How the reader and the writer of a connection take turns at the transport: how much can be
written between two frames of the peer. -/
namespace Rifts

namespace Slot

open Mutex Transition

/-- The acts that end a wait for the peer. -/
def Act.endsWait : Act → Bool
  | .peerFrame | .readFailed | .idleTimeout => true
  | _ => false

/-- The writer is not going to write before the wait ends: it is not ahead of the reader, or the
transport is gone. -/
def Quiet (s : Slot) : Prop :=
  s.waitsForPeer ∧ ¬ s.mutex.Ahead .writer .reader ∨
    s.transport = false ∧ ∀ f, s.writer ≠ .writing f

variable {s t u : Slot} {a : Act} {acts : List Act} {f : Frame}

theorem reader_inLine (hi : Inv s) (hw : s.waitsForPeer) : .reader ∈ s.mutex.line := by
  rw [hi.coherent.inLine]
  rcases hw with hr | hr <;> simp [stage, hr]

theorem holder_of_reading (hi : Inv s) (h : s.reader = .reading) :
    s.mutex.holder = some .reader :=
  hi.coherent.holds .reader (by simp [stage, h])

/-- The reader leaves its wait when the peer or a timer ends it, or when it finds that the
transport is gone. -/
theorem waits_step (h : step s a = some t) (ha : a.endsWait = false) (hw : s.waitsForPeer) :
    t.waitsForPeer ∨ s.transport = false ∧ t.transport = false ∧ t.writer = s.writer ∧
      s.mutex.holder = some .reader := by
  cases a with
  | acquireRead =>
    simp only [step] at h
    split at h
    · next hp =>
      split at h
      · cases h
        exact .inl (.inr rfl)
      · next ht =>
        cases h
        have hgone : s.transport = false := by simpa using ht
        exact .inr ⟨hgone, hgone, rfl, hp.2⟩
    · cases h
  | peerFrame | readFailed | idleTimeout => cases ha
  | requestRead | dispatched =>
    simp only [step] at h
    split at h
    · next hp => simp [waitsForPeer, hp] at hw
    · cases h
  | enqueue f =>
    simp only [step] at h
    split at h <;> cases h <;> exact .inl hw
  | recv | requestWrite | wrote | writeFailed | writeTimeout | dropSenders | recvNone | requestClear
  | acquireClear | requestTake | closed =>
    simp only [step] at h
    split at h <;> cases h
    all_goals exact .inl hw
  | acquireTake =>
    simp only [step] at h
    split at h
    · split at h <;> cases h <;> exact .inl hw
    · cases h
  | acquireWrite =>
    simp only [step] at h
    split at h
    · split at h
      · split at h <;> cases h <;> exact .inl hw
      · cases h
    · cases h

/-- Nobody brings the transport back, and nobody writes without it. -/
theorem gone_step (h : step s a = some t) (hs : s.transport = false ∧ ∀ f, s.writer ≠ .writing f) :
    t.transport = false ∧ ∀ f, t.writer ≠ .writing f := by
  obtain ⟨hgone, hw⟩ := hs
  cases a with
  | acquireWrite =>
    simp only [step, hgone] at h
    split at h
    · split at h
      · cases h
        exact ⟨rfl, by simp⟩
      · cases h
    · cases h
  | enqueue f =>
    simp only [step] at h
    split at h <;> cases h <;> exact ⟨hgone, hw⟩
  | acquireRead =>
    simp only [step, hgone] at h
    split at h
    · cases h
      exact ⟨rfl, hw⟩
    · cases h
  | wrote | writeFailed =>
    simp only [step] at h
    cases h
  | recv | requestWrite | writeTimeout | recvNone | requestClear | acquireClear =>
    simp only [step] at h
    split at h <;> cases h
    all_goals exact ⟨by first | exact hgone | rfl, by simp⟩
  | acquireTake =>
    simp only [step, hgone] at h
    split at h
    · cases h
      exact ⟨rfl, hw⟩
    · cases h
  | requestRead | peerFrame | readFailed | idleTimeout | dispatched | dropSenders | requestTake
  | closed =>
    simp only [step] at h
    split at h <;> cases h
    exact ⟨hgone, hw⟩

/-- A task that holds the slot keeps the others out of it. -/
theorem not_writing_of_holder (hi : Inv s) (h : s.mutex.holder = some .reader) :
    ∀ f, s.writer ≠ .writing f := by
  intro f hw
  have hholder := holder_of_writing hi hw
  rw [h] at hholder
  cases hholder

/-- While the reader waits, every step leaves it waiting or the writer quiet. -/
theorem waits_or_quiet_step (h : step s a = some t) (ha : a.endsWait = false) (hi : Inv s)
    (hw : s.waitsForPeer) : t.waitsForPeer ∨ Quiet t := by
  rcases waits_step h ha hw with hw' | ⟨-, hgone, hwriter, hholder⟩
  · exact .inl hw'
  · refine .inr (.inr ⟨hgone, ?_⟩)
    rw [hwriter]
    exact not_writing_of_holder hi hholder

theorem quiet_step (h : step s a = some t) (ha : a.endsWait = false) (hi : Inv s) (hq : Quiet s) :
    Quiet t := by
  rcases hq with ⟨hw, hahead⟩ | hgone
  · have hline := reader_inLine hi hw
    rcases waits_or_quiet_step h ha hi hw with hw' | hq
    · exact .inl ⟨hw', fun hahead' => hahead ((step_move h).ahead hline hahead')⟩
    · exact hq
  · exact .inr (gone_step h hgone)

/-- What a write needs, and what it leaves. -/
theorem wrote_inv (h : step s .wrote = some t) :
    (∃ f, s.writer = .writing f) ∧ t.mutex = s.mutex.leave .writer ∧ t.reader = s.reader := by
  simp only [step] at h
  split at h
  · next f hw =>
    cases h
    exact ⟨⟨f, hw⟩, rfl, rfl⟩
  · cases h

/-- A quiet writer does not write. -/
theorem not_wrote_of_quiet (hi : Inv s) (hq : Quiet s) : step s .wrote = none := by
  rw [Option.eq_none_iff_forall_ne_some]
  intro t h
  obtain ⟨⟨f, hw⟩, -, -⟩ := wrote_inv h
  rcases hq with ⟨hwaits, hahead⟩ | ⟨-, hnot⟩
  · exact hahead (Fifo.ahead_of_holder (holder_of_writing hi hw) (reader_inLine hi hwaits)
      (by simp))
  · exact hnot f hw

/-- The write that was ahead of the reader is the last one. -/
theorem quiet_of_wrote (h : step s .wrote = some t) (hw : s.waitsForPeer) : Quiet t := by
  obtain ⟨-, hmutex, hreader⟩ := wrote_inv h
  refine .inl ⟨by rwa [waitsForPeer, hreader], ?_⟩
  rw [hmutex]
  exact Fifo.not_ahead_leave

theorem not_wrote_run (hr : run step s acts = some t) (hacts : ∀ a ∈ acts, a.endsWait = false)
    (hi : Inv s) (hq : Quiet s) : .wrote ∉ acts := by
  have hg : Guarded step (fun _ a => a.endsWait = false) s acts := guarded_of_forall_mem hacts
  refine notMem_of_disabled (P := fun s => Inv s ∧ Quiet s) ?_ ?_ hg hr ⟨hi, hq⟩
  · intro s a t h ha hs
    exact ⟨inv_step h hs.1, quiet_step h ha hs.1 hs.2⟩
  · intro s hs
    exact not_wrote_of_quiet hs.1 hs.2

theorem count_wrote_run (hr : run step s acts = some t)
    (hacts : ∀ a ∈ acts, a.endsWait = false) (hi : Inv s) (hw : s.waitsForPeer) :
    acts.count .wrote ≤ 1 := by
  have hg : Guarded step (fun _ a => a.endsWait = false) s acts := guarded_of_forall_mem hacts
  refine count_le_one (P := fun s => Inv s ∧ s.waitsForPeer) (Q := fun s => Inv s ∧ Quiet s)
    ?_ ?_ ?_ ?_ hg hr ⟨hi, hw⟩
  · intro s a t h ha hs
    exact (waits_or_quiet_step h ha hs.1 hs.2).imp (⟨inv_step h hs.1, ·⟩) (⟨inv_step h hs.1, ·⟩)
  · intro s t h hs
    exact ⟨inv_step h hs.1, quiet_of_wrote h hs.2⟩
  · intro s a t h ha hs
    exact ⟨inv_step h hs.1, quiet_step h ha hs.1 hs.2⟩
  · intro s hs
    exact not_wrote_of_quiet hs.1 hs.2

/-- The writer has come to the head of the line with a frame. -/
structure UpNext (f : Frame) (s : Slot) : Prop where
  writer : s.writer = .queued f
  holds : s.mutex.holder = some .writer
  present : s.transport = true

/-- A frame of the peer hands the slot to the writer behind the reader. -/
theorem upNext_of_peerFrame (h : step s .peerFrame = some t) (hi : Inv s)
    (hw : s.writer = .queued f) (hp : s.transport = true) : UpNext f t := by
  have hline : .writer ∈ s.mutex.line := by
    rw [hi.coherent.inLine]
    simp [stage, hw]
  have hit := inv_step h hi
  simp only [step] at h
  split at h
  · next hr =>
    cases h
    refine ⟨hw, ?_, hp⟩
    obtain ⟨y, hy⟩ := Fifo.holder_of_mem (Fifo.mem_leave.mpr ⟨by simp, hline⟩ :
      .writer ∈ (s.mutex.leave .reader).line)
    cases y with
    | writer => exact hy
    | reader => exact absurd rfl (Fifo.mem_leave.mp (Fifo.mem_of_holder hy)).1
    | main =>
      -- the teardown has not asked for the slot while the reader is at work
      have hmain : s.main = .waiting := by
        by_contra hm
        have hret := hi.teardown hm
        rw [hr] at hret
        cases hret
      have hstage := (hit.coherent.inLine .main).mp (Fifo.mem_of_holder hy)
      simp [stage, hmain] at hstage
  · cases h

/-- It stays there until it takes the slot or its time is up. -/
theorem upNext_step (h : step s a = some t) (ha : a ≠ .acquireWrite ∧ a ≠ .writeTimeout)
    (hup : UpNext f s) : UpNext f t := by
  obtain ⟨hw, hholds, hp⟩ := hup
  have hkeep : t.writer = .queued f ∧ t.transport = true := by
    cases a with
    | acquireWrite => exact absurd rfl ha.1
    | writeTimeout => exact absurd rfl ha.2
    | enqueue f =>
      simp only [step] at h
      split at h <;> cases h <;> exact ⟨hw, hp⟩
    | acquireRead =>
      simp only [step, hholds] at h
      simp at h
    | acquireTake =>
      simp only [step, hholds] at h
      simp at h
    | recv | requestWrite | wrote | writeFailed | recvNone | requestClear | acquireClear =>
      simp [step, hw] at h
    | requestRead | peerFrame | readFailed | idleTimeout | dispatched | dropSenders | requestTake
    | closed =>
      simp only [step] at h
      split at h <;> cases h
      exact ⟨hw, hp⟩
  refine ⟨hkeep.1, (step_move h).holder hholds ?_, hkeep.2⟩
  simp [stage, hkeep.1]

/-- From the moment the reader asks for the slot until the peer's next frame, at most one frame
goes out, and none once the reader is inside. The frame that then arrives lets the writer in line
write before the reader reads again, and nothing else does. -/
theorem one_write_per_wait (acts : List Act) (s : Slot)
    (hrun : run step initial acts = some s) (hw : s.waitsForPeer) :
    (∀ acts t, run step s acts = some t → (∀ a ∈ acts, a.endsWait = false) →
      acts.count .wrote ≤ 1 ∧ (s.reader = .reading → .wrote ∉ acts)) ∧
    ∀ f t, s.writer = .queued f → s.transport = true → step s .peerFrame = some t →
      ∀ acts u, run step t acts = some u →
        (∀ a ∈ acts, a ≠ .acquireWrite ∧ a ≠ .writeTimeout) →
        u.reader ≠ .reading ∧ ∃ v, step u .acquireWrite = some v ∧ v.writer = .writing f := by
  have hi := inv_run hrun
  constructor
  · intro acts t hr hacts
    refine ⟨count_wrote_run hr hacts hi hw, fun hreading => ?_⟩
    refine not_wrote_run hr hacts hi (.inl ⟨hw, ?_⟩)
    exact Fifo.not_ahead_of_holder (holder_of_reading hi hreading)
  · intro f t hqueued hp hframe acts u hr hacts
    have hit := inv_step hframe hi
    have hguard : Guarded step (fun _ a => a ≠ .acquireWrite ∧ a ≠ .writeTimeout) t acts :=
      guarded_of_forall_mem hacts
    have hup : UpNext f u := run_invariant_of_guarded
      (fun _ _ _ h ha hup => upNext_step h ha hup) hguard hr
      (upNext_of_peerFrame hframe hi hqueued hp)
    have hiu : Inv u := run_invariant (fun _ _ _ => inv_step) hr hit
    constructor
    · intro hreading
      have hholder := holder_of_reading hiu hreading
      rw [hup.holds] at hholder
      cases hholder
    · exact ⟨{ u with writer := .writing f }, by simp [step, hup.writer, hup.holds, hup.present],
        rfl⟩

/-- Two frames are queued while the reader is back in line: one is written, the other waits in
line behind the reader. -/
theorem second_message_waits :
    ∃ s, run step initial messageWhileWriting = some s ∧ s.reader = .queued ∧
      ∃ t, run step s [.wrote, .recv, .requestWrite, .acquireRead] = some t ∧
        t.writer = .queued {} ∧ t.channel.queue = [] ∧
        ∀ acts u, run step s ([.wrote, .recv, .requestWrite, .acquireRead] ++ acts) = some u →
          (∀ a ∈ acts, a.endsWait = false) → .wrote ∉ acts := by
  refine ⟨_, rfl, rfl, _, rfl, rfl, rfl, ?_⟩
  intro acts u hr hacts
  have hall : ∀ a ∈ [Act.wrote, .recv, .requestWrite, .acquireRead] ++ acts,
      a.endsWait = false :=
    List.forall_mem_append.mpr ⟨by decide, hacts⟩
  have hcount := ((one_write_per_wait messageWhileWriting _ rfl (.inl rfl)).1 _ u hr hall).1
  rw [List.count_append] at hcount
  have hfirst : [Act.wrote, .recv, .requestWrite, .acquireRead].count .wrote = 1 := by decide
  exact List.count_eq_zero.mp (by omega)

end Slot

end Rifts
