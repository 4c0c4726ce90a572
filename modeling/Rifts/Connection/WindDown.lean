import Rifts.Connection.Overtaking

/-! The end of a connection: what the reader, the writer and the teardown still do once the writer
has given up, and that they always come to an end. -/
namespace Rifts

namespace Slot

open Mutex Transition

/-- What the connection does by itself and by its timers: no frame comes in, neither a frame nor a
close goes out or fails to, and nobody sends to its channel. -/
def Act.alone : Act → Bool
  | .enqueue _ | .peerFrame | .readFailed | .wrote | .writeFailed | .closed => false
  | _ => true

/-- The tasks of the connection have come to their ends. -/
def Ended (s : Slot) : Prop := s.main = .closed ∧ s.writer = .exited

/-- The reader will not read again: the writer that waits to clear the slot is not behind it, or
the transport is gone. -/
def Barred (s : Slot) : Prop :=
  s.writer = .clearing ∧ ¬ s.mutex.Ahead .reader .writer ∨
    s.transport = false ∧ s.reader ≠ .reading

variable {s t u : Slot} {a : Act} {acts : List Act} {f : Frame}

theorem writer_inLine (hi : Inv s) (hw : s.writer = .clearing) : .writer ∈ s.mutex.line := by
  rw [hi.coherent.inLine]
  simp [stage, hw]

/-- A writer that waits to clear the slot does so in the end: it waits on, or the transport is
gone and the reader outside. -/
theorem clearing_step (h : step s a = some t) (hi : Inv s) (hw : s.writer = .clearing) :
    t.writer = .clearing ∨ t.transport = false ∧ t.reader ≠ .reading := by
  cases a with
  | acquireClear =>
    simp only [step] at h
    split at h
    · next hp =>
      cases h
      refine .inr ⟨rfl, ?_⟩
      intro hreading
      have hholder := holder_of_reading hi hreading
      rw [hp.2] at hholder
      cases hholder
    · cases h
  | enqueue f =>
    simp only [step] at h
    split at h <;> cases h <;> exact .inl hw
  | acquireRead =>
    simp only [step] at h
    split at h
    · split at h <;> cases h <;> exact .inl hw
    · cases h
  | recv | requestWrite | acquireWrite | wrote | writeFailed | writeTimeout | recvNone
  | requestClear => simp [step, hw] at h
  | acquireTake =>
    simp only [step] at h
    split at h
    · split at h <;> cases h <;> exact .inl hw
    · cases h
  | requestRead | peerFrame | readFailed | idleTimeout | dispatched | dropSenders | requestTake
  | closed =>
    simp only [step] at h
    split at h <;> cases h
    exact .inl hw

/-- Nobody reads without the transport. -/
theorem unread_step (h : step s a = some t) (hs : s.transport = false ∧ s.reader ≠ .reading) :
    t.transport = false ∧ t.reader ≠ .reading := by
  obtain ⟨hgone, hr⟩ := hs
  cases a with
  | acquireRead =>
    simp only [step, hgone] at h
    split at h
    · cases h
      exact ⟨rfl, by simp⟩
    · cases h
  | enqueue f =>
    simp only [step] at h
    split at h <;> cases h <;> exact ⟨hgone, hr⟩
  | acquireWrite =>
    simp only [step, hgone] at h
    split at h
    · split at h
      · cases h
        exact ⟨rfl, hr⟩
      · cases h
    · cases h
  | requestRead | peerFrame | readFailed | idleTimeout | dispatched =>
    simp only [step] at h
    split at h <;> cases h
    exact ⟨hgone, by simp⟩
  | acquireTake =>
    simp only [step, hgone] at h
    split at h
    · cases h
      exact ⟨rfl, hr⟩
    · cases h
  | recv | requestWrite | wrote | writeFailed | writeTimeout | recvNone | requestClear
  | acquireClear | dropSenders | requestTake | closed =>
    simp only [step] at h
    split at h <;> cases h
    all_goals exact ⟨by first | exact hgone | rfl, hr⟩

theorem barred_step (h : step s a = some t) (hi : Inv s) (hb : Barred s) : Barred t := by
  rcases hb with ⟨hw, hahead⟩ | hgone
  · rcases clearing_step h hi hw with hw' | hgone
    · exact .inl ⟨hw', fun hahead' => hahead ((step_move h).ahead (writer_inLine hi hw) hahead')⟩
    · exact .inr hgone
  · exact .inr (unread_step h hgone)

theorem peerFrame_inv (h : step s .peerFrame = some t) :
    s.reader = .reading ∧ t.mutex = s.mutex.leave .reader ∧ t.writer = s.writer := by
  simp only [step] at h
  split at h
  · next hr =>
    cases h
    exact ⟨hr, rfl, rfl⟩
  · cases h

theorem not_peerFrame_of_barred (hi : Inv s) (hb : Barred s) : step s .peerFrame = none := by
  rw [Option.eq_none_iff_forall_ne_some]
  intro t h
  obtain ⟨hr, -, -⟩ := peerFrame_inv h
  rcases hb with ⟨hw, hahead⟩ | ⟨-, hnot⟩
  · exact hahead (Fifo.ahead_of_holder (holder_of_reading hi hr) (writer_inLine hi hw) (by simp))
  · exact hnot hr

/-- The frame that was being read is the last one. -/
theorem barred_of_peerFrame (h : step s .peerFrame = some t) (hw : s.writer = .clearing) :
    Barred t := by
  obtain ⟨-, hmutex, hwriter⟩ := peerFrame_inv h
  refine .inl ⟨hwriter.trans hw, ?_⟩
  rw [hmutex]
  exact Fifo.not_ahead_leave

theorem count_peerFrame_run (hr : run step s acts = some t) (hi : Inv s)
    (hw : s.writer = .clearing) : acts.count .peerFrame ≤ 1 := by
  have hg : Guarded step (fun _ _ => True) s acts := guarded_true
  refine count_le_one (P := fun s => Inv s ∧ s.writer = .clearing)
    (Q := fun s => Inv s ∧ Barred s) ?_ ?_ ?_ ?_ hg hr ⟨hi, hw⟩
  · intro s a t h _ hs
    exact (clearing_step h hs.1 hs.2).imp (⟨inv_step h hs.1, ·⟩) (⟨inv_step h hs.1, .inr ·⟩)
  · intro s t h hs
    exact ⟨inv_step h hs.1, barred_of_peerFrame h hs.2⟩
  · intro s a t h _ hs
    exact ⟨inv_step h hs.1, barred_step h hs.1 hs.2⟩
  · intro s hs
    exact not_peerFrame_of_barred hs.1 hs.2

theorem not_wrote_of_left (hr : run step s acts = some t) (hl : s.writer.inLoop = false) :
    .wrote ∉ acts := by
  have hg : Guarded step (fun _ _ => True) s acts := guarded_true
  refine notMem_of_disabled (P := fun s => s.writer.inLoop = false) ?_ ?_ hg hr hl
  · intro s a t h _ hl
    exact left_step h hl
  · intro s hl
    rw [Option.eq_none_iff_forall_ne_some]
    intro t h
    obtain ⟨⟨f, hw⟩, -, -⟩ := wrote_inv h
    simp [hw, SlotWriter.inLoop] at hl

/-- The reader has returned, and nothing has happened to the transport and to the teardown. -/
structure Returned (s t : Slot) : Prop where
  reader : t.reader = .returned
  transport : t.transport = s.transport
  main : t.main = s.main

/-- Wherever the reader is, its idle timeout ends it. -/
theorem leads_returned (s : Slot) : Leads step Act.alone s (Returned s) := by
  cases hr : s.reader with
  | idle =>
    exact ⟨[.requestRead, .idleTimeout], { s with
        reader := .returned, mutex := (s.mutex.enter .reader).leave .reader },
      by decide, by simp [run, step, hr], rfl, rfl, rfl⟩
  | queued | reading =>
    exact ⟨[.idleTimeout], { s with reader := .returned, mutex := s.mutex.leave .reader },
      by decide, by simp [run, step, hr], rfl, rfl, rfl⟩
  | dispatching =>
    exact ⟨[.dispatched, .requestRead, .idleTimeout], { s with
        reader := .returned, mutex := (s.mutex.enter .reader).leave .reader },
      by decide, by simp [run, step, hr], rfl, rfl, rfl⟩
  | returned => exact leads_self ⟨hr, rfl, rfl⟩

/-- A reader that has returned is not in line. -/
theorem eq_of_mem_line (hi : Inv s) (hr : s.reader = .returned) {x : Task}
    (hx : x ∈ s.mutex.line) : x = .writer ∨ x = .main := by
  have hstage := (hi.coherent.inLine x).mp hx
  cases x with
  | reader => simp [stage, hr] at hstage
  | writer => exact .inl rfl
  | main => exact .inr rfl

/-- After the teardown only the writer is in line. -/
theorem eq_writer_of_mem_line (hi : Inv s) (hr : s.reader = .returned) (hm : s.main = .closed)
    {x : Task} (hx : x ∈ s.mutex.line) : x = .writer := by
  rcases eq_of_mem_line hi hr hx with rfl | rfl
  · rfl
  · have hstage := (hi.coherent.inLine .main).mp hx
    simp [stage, hm] at hstage

/-- The teardown has closed the connection, or it is about to close a transport that was in the
slot. -/
def TornDown (s t : Slot) : Prop :=
  t.main = .closed ∧ t.reader = .returned ∨
    t.main = .closing ∧ (s.transport = true ∨ s.main = .closing)

/-- The teardown at the head of the line. -/
theorem leads_tornDown_of_holder (hr : s.reader = .returned) (hm : s.main = .queued)
    (hh : s.mutex.holder = some .main) : Leads step Act.alone s (TornDown s) := by
  cases hp : s.transport with
  | true =>
    exact ⟨[.acquireTake], { s with main := .closing, transport := false }, by decide,
      by simp [run, step, hm, hh, hp], .inr ⟨rfl, .inl hp⟩⟩
  | false =>
    exact ⟨[.acquireTake], { s with main := .closed, mutex := s.mutex.leave .main }, by decide,
      by simp [run, step, hm, hh, hp], .inl ⟨rfl, hr⟩⟩

/-- The writer gives way, and leaves the transport as it is or takes it away. -/
theorem leads_tornDown_of_leave {w : SlotWriter} {b : Bool} (ha : a.alone = true)
    (hs : step s a = some { s with writer := w, transport := b, mutex := s.mutex.leave .writer })
    (hb : b = true → s.transport = true) (hr : s.reader = .returned) (hm : s.main = .queued)
    (hnext : (s.mutex.leave .writer).holder = some .main) :
    Leads step Act.alone s (TornDown s) := by
  have hleft : Leads step Act.alone s fun t =>
      t = { s with writer := w, transport := b, mutex := s.mutex.leave .writer } :=
    ⟨[a], _, by simpa using ha, by rw [run, hs]; rfl, rfl⟩
  refine hleft.trans ?_
  rintro t rfl
  obtain ⟨acts, t, hacts, hrun, ht⟩ := leads_tornDown_of_holder
    (s := { s with writer := w, transport := b, mutex := s.mutex.leave .writer }) hr hm hnext
  refine ⟨acts, t, hacts, hrun, ht.imp_right fun hclosing => ⟨hclosing.1, ?_⟩⟩
  exact hclosing.2.imp hb id

/-- The teardown takes the slot, at the latest when the writer's time is up. -/
theorem leads_tornDown_of_queued (hi : Inv s) (hr : s.reader = .returned)
    (hm : s.main = .queued) : Leads step Act.alone s (TornDown s) := by
  have hline : .main ∈ s.mutex.line := by
    rw [hi.coherent.inLine]
    simp [stage, hm]
  -- once the writer is out of line, the teardown is alone in it
  have hnext : (s.mutex.leave .writer).holder = some .main := by
    refine Fifo.holder_of_alone (Fifo.mem_leave.mpr ⟨by simp, hline⟩) ?_
    intro y hy
    obtain ⟨hne, hmem⟩ := Fifo.mem_leave.mp hy
    exact (eq_of_mem_line hi hr hmem).resolve_left hne
  obtain ⟨y, hy⟩ := Fifo.holder_of_mem hline
  rcases eq_of_mem_line hi hr (Fifo.mem_of_holder hy) with rfl | rfl
  · have hstage := (hi.coherent.inLine .writer).mp (Fifo.mem_of_holder hy)
    cases hw : s.writer with
    | queued f | writing f =>
      exact leads_tornDown_of_leave (a := .writeTimeout) (w := .leaving) (b := s.transport) rfl
        (by simp [step, hw]) id hr hm hnext
    | clearing =>
      exact leads_tornDown_of_leave (a := .acquireClear) (w := .exited) (b := false) rfl
        (by simp [step, hw, hy]) (fun h => by cases h) hr hm hnext
    | receiving | received f | leaving | exited => simp [stage, hw] at hstage
  · exact leads_tornDown_of_holder hr hm hy

theorem leads_tornDown (hi : Inv s) (hr : s.reader = .returned) :
    Leads step Act.alone s (TornDown s) := by
  cases hm : s.main with
  | waiting =>
    have hstep : step s .requestTake =
        some { s with main := .queued, mutex := s.mutex.enter .main } := by
      simp [step, hm, hr]
    obtain ⟨acts, t, hacts, hrun, ht⟩ := leads_tornDown_of_queued (inv_step hstep hi) hr rfl
    refine ⟨.requestTake :: acts, t, List.forall_mem_cons.mpr ⟨rfl, hacts⟩,
      run_cons_iff.mpr ⟨_, hstep, hrun⟩, ht.imp_right fun hclosing => ⟨hclosing.1, ?_⟩⟩
    exact .inl (hclosing.2.resolve_right (by simp))
  | queued => exact leads_tornDown_of_queued hi hr hm
  | closing => exact leads_self (.inr ⟨hm, .inr hm⟩)
  | closed => exact leads_self (.inl ⟨hm, hr⟩)

/-- A writer that is alone with the slot clears it. -/
theorem leads_exited_of_leaving (hi : Inv s) (hr : s.reader = .returned) (hm : s.main = .closed)
    (hw : s.writer = .leaving) :
    Leads step Act.alone s Ended := by
  have hnext : (s.mutex.enter .writer).holder = some .writer := by
    refine Fifo.holder_of_alone (Fifo.mem_enter.mpr (.inr rfl)) ?_
    intro y hy
    rcases Fifo.mem_enter.mp hy with hmem | rfl
    · exact eq_writer_of_mem_line hi hr hm hmem
    · rfl
  exact ⟨[.requestClear, .acquireClear], { s with
      writer := .exited, transport := false, mutex := (s.mutex.enter .writer).leave .writer },
    by decide, by simp [run, step, hw, hnext], hm, rfl⟩

theorem leads_exited_of_run (hi : Inv s) (acts : List Act) (hacts : ∀ a ∈ acts, a.alone = true)
    (hrun : run step s acts = some t) (hr : t.reader = .returned) (hm : t.main = .closed)
    (hw : t.writer = .leaving) :
    Leads step Act.alone s Ended := by
  have hit : Inv t := run_invariant (fun _ _ _ => inv_step) hrun hi
  have hreached : Leads step Act.alone s fun u => u = t := ⟨acts, t, hacts, hrun, rfl⟩
  exact hreached.trans fun u hu => hu ▸ leads_exited_of_leaving hit hr hm hw

/-- After the teardown the writer runs into its timeout or finds the channel closed. -/
theorem leads_exited (hi : Inv s) (hr : s.reader = .returned) (hm : s.main = .closed) :
    Leads step Act.alone s Ended := by
  cases hw : s.writer with
  | receiving =>
    by_cases hq : s.channel.queue = []
    · exact ⟨[.dropSenders, .recvNone], { s with senders := false, writer := .exited }, by decide,
        by simp [run, step, hm, hw, hq], hm, rfl⟩
    · obtain ⟨f, c, hc⟩ := Channel.Bounded.recv_of_ne_nil hq
      exact leads_exited_of_run hi (t := { s with
          writer := .leaving, channel := c, mutex := (s.mutex.enter .writer).leave .writer })
        [.recv, .requestWrite, .writeTimeout] (by decide) (by simp [run, step, hw, hc]) hr hm rfl
  | received f =>
    exact leads_exited_of_run hi (t := { s with
        writer := .leaving, mutex := (s.mutex.enter .writer).leave .writer })
      [.requestWrite, .writeTimeout] (by decide) (by simp [run, step, hw]) hr hm rfl
  | queued f | writing f =>
    exact leads_exited_of_run hi
      (t := { s with writer := .leaving, mutex := s.mutex.leave .writer })
      [.writeTimeout] (by decide) (by simp [run, step, hw]) hr hm rfl
  | leaving => exact leads_exited_of_leaving hi hr hm hw
  | clearing =>
    have hholder : s.mutex.holder = some .writer :=
      Fifo.holder_of_alone (writer_inLine hi hw) fun y hy => eq_writer_of_mem_line hi hr hm hy
    exact ⟨[.acquireClear], { s with
        writer := .exited, transport := false, mutex := s.mutex.leave .writer },
      by decide, by simp [run, step, hw, hholder], hm, rfl⟩
  | exited => exact leads_self ⟨hm, hw⟩

/-- While the transport is being closed, nothing the connection does by itself ends that. -/
theorem closing_step (h : step s a = some t) (ha : a.alone = true) (hm : s.main = .closing) :
    t.main = .closing := by
  cases a with
  | enqueue | peerFrame | readFailed | wrote | writeFailed | closed => cases ha
  | requestTake | acquireTake => simp [step, hm] at h
  | acquireRead =>
    simp only [step] at h
    split at h
    · split at h <;> cases h <;> exact hm
    · cases h
  | acquireWrite =>
    simp only [step] at h
    split at h
    · split at h
      · split at h <;> cases h <;> exact hm
      · cases h
    · cases h
  | dropSenders | requestRead | idleTimeout | dispatched | recv | recvNone | requestWrite
  | writeTimeout | requestClear | acquireClear =>
    simp only [step] at h
    split at h <;> cases h
    all_goals exact hm

/-- Once the transport is closed, the connection comes to its end by itself. -/
theorem leads_ended_of_closing (hi : Inv s) (hm : s.main = .closing) :
    ∃ u, step s .closed = some u ∧ Leads step Act.alone u Ended := by
  have hstep : step s .closed = some { s with main := .closed, mutex := s.mutex.leave .main } :=
    if_pos hm
  have hr : s.reader = .returned := hi.teardown (by simp [hm])
  exact ⟨_, hstep, leads_exited (inv_step hstep hi) hr rfl⟩

/-- A writer that has given up writes nothing more, and once it is in line to clear the slot, at
most one more frame of the peer is read. From every state of a connection its own moves and its
timers bring the reader, the teardown and the writer to their ends, or the teardown into the
`close` of a transport, which has no timeout: there it stays until the close has gone out or
failed, and after that the connection comes to its end. -/
theorem connection_winds_down (acts : List Act) (s : Slot)
    (hrun : run step initial acts = some s) :
    (s.writer.inLoop = false → ∀ acts t, run step s acts = some t → .wrote ∉ acts) ∧
    (s.writer = .clearing → ∀ acts t, run step s acts = some t → acts.count .peerFrame ≤ 1) ∧
    (∃ acts t, (∀ a ∈ acts, a.alone = true) ∧ run step s acts = some t ∧
      (t.main = .closed ∧ t.writer = .exited ∨
        t.main = .closing ∧ (s.transport = true ∨ s.main = .closing))) ∧
    (s.main = .closing →
      (∀ acts t, (∀ a ∈ acts, a.alone = true) → run step s acts = some t → t.main = .closing) ∧
      ∃ u acts t, step s .closed = some u ∧ (∀ a ∈ acts, a.alone = true) ∧
        run step u acts = some t ∧ t.main = .closed ∧ t.writer = .exited) := by
  have hi := inv_run hrun
  refine ⟨fun hl acts t hr => not_wrote_of_left hr hl,
    fun hw acts t hr => count_peerFrame_run hr hi hw, ?_, fun hm => ⟨?_, ?_⟩⟩
  · have hreturned := (leads_returned s).and_invariant (fun _ _ _ => inv_step) hi
    refine hreturned.trans fun t ht => ?_
    have htorn := (leads_tornDown ht.1 ht.2.reader).and_invariant (fun _ _ _ => inv_step) ht.1
    refine htorn.trans fun u hu => ?_
    rcases hu.2 with ⟨hclosed, hr⟩ | ⟨hclosing, hwhy⟩
    · exact (leads_exited hu.1 hr hclosed).mono fun v hv => .inl hv
    · rw [ht.2.transport, ht.2.main] at hwhy
      exact leads_self (.inr ⟨hclosing, hwhy⟩)
  · intro acts t hacts hr
    have hg : Guarded step (fun _ a => a.alone = true) s acts := guarded_of_forall_mem hacts
    exact run_invariant_of_guarded (P := fun s => s.main = .closing)
      (fun _ _ _ => closing_step) hg hr hm
  · obtain ⟨u, hu, acts, t, hacts, hr, hend⟩ := leads_ended_of_closing hi hm
    exact ⟨u, acts, t, hu, hacts, hr, hend⟩

/-- The frame that the peer sends after a write timeout is still dispatched; the next one is
not read. -/
theorem one_frame_after_timeout :
    ∃ s, run step initial (messageWhileReading ++
        [.recv, .requestWrite, .writeTimeout, .requestClear]) = some s ∧
      s.reader = .reading ∧ s.writer = .clearing ∧
      ∀ acts t, run step s (.peerFrame :: acts) = some t → .peerFrame ∉ acts := by
  refine ⟨_, rfl, rfl, rfl, ?_⟩
  intro acts t hr
  have hcount := (connection_winds_down (messageWhileReading ++
    [.recv, .requestWrite, .writeTimeout, .requestClear]) _ rfl).2.1 rfl (.peerFrame :: acts) t hr
  rw [List.count_cons_self] at hcount
  exact List.count_eq_zero.mp (by omega)

end Slot

end Rifts
