import Rifts.Core.Frame
import Rifts.Sync.Channel
import Rifts.Sync.Mutex
import Rifts.Transition.Run

/-! The transport slot of a connection: the reader, the writer and the teardown
share one mutex around the transport. -/
namespace Rifts

inductive Task
  | reader | writer | main
  deriving DecidableEq, Repr

/-- `queued` has asked for the slot; `reading` is inside `read_frame`, with the
guard alive. -/
inductive Reader
  | idle | queued | reading | dispatching | returned
  deriving DecidableEq, Repr

/-- `leaving` has given up on the connection and still has to clear the slot. -/
inductive SlotWriter
  | receiving
  | received (f : Frame)
  | queued (f : Frame)
  | writing (f : Frame)
  | leaving
  | clearing
  | exited
  deriving DecidableEq, Repr

/-- The writer still takes frames off the channel or has one to write. -/
def SlotWriter.inLoop : SlotWriter → Bool
  | .receiving | .received _ | .queued _ | .writing _ => true
  | .leaving | .clearing | .exited => false

/-- `Connection::run` after it has spawned the two tasks. `closing` has taken the transport out of
the slot and is inside its `close`, with the guard alive. -/
inductive Main
  | waiting | queued | closing | closed
  deriving DecidableEq, Repr

structure Slot where
  mutex : Mutex.Fifo Task
  transport : Bool
  channel : Channel.Bounded Frame 1024
  senders : Bool
  reader : Reader
  writer : SlotWriter
  main : Main
  deriving DecidableEq

namespace Slot

open Mutex

inductive Act
  | enqueue (f : Frame)
  | dropSenders
  | requestRead
  | acquireRead
  | peerFrame
  | readFailed
  | idleTimeout
  | dispatched
  | recv
  | recvNone
  | requestWrite
  | acquireWrite
  | wrote
  | writeFailed
  | writeTimeout
  | requestClear
  | acquireClear
  | requestTake
  | acquireTake
  | closed
  deriving DecidableEq, Repr

/-- After the handshake, with both tasks spawned. -/
def initial : Slot := ⟨.free, true, .empty, true, .idle, .receiving, .waiting⟩

/-- One poll of one task. The reader and the writer wait for the slot inside their
timeouts; a timeout drops the guard or the place in line. -/
def step (s : Slot) : Act → Option Slot
  | .enqueue f =>
    match s.channel.trySend f with
    | .ok c => some { s with channel := c }
    | .error _ => some s
  | .dropSenders => if s.main = .closed then some { s with senders := false } else none
  | .requestRead =>
    if s.reader = .idle then
      some { s with reader := .queued, mutex := s.mutex.enter .reader }
    else none
  | .acquireRead =>
    if s.reader = .queued ∧ s.mutex.holder = some .reader then
      if s.transport then some { s with reader := .reading }
      else some { s with reader := .returned, mutex := s.mutex.leave .reader }
    else none
  | .peerFrame =>
    if s.reader = .reading then
      some { s with reader := .dispatching, mutex := s.mutex.leave .reader }
    else none
  | .readFailed =>
    if s.reader = .reading then
      some { s with reader := .returned, mutex := s.mutex.leave .reader }
    else none
  | .idleTimeout =>
    if s.reader = .queued ∨ s.reader = .reading then
      some { s with reader := .returned, mutex := s.mutex.leave .reader }
    else none
  | .dispatched => if s.reader = .dispatching then some { s with reader := .idle } else none
  | .recv =>
    match s.writer, s.channel.recv with
    | .receiving, some (f, c) => some { s with writer := .received f, channel := c }
    | _, _ => none
  | .recvNone =>
    if s.writer = .receiving ∧ s.channel.queue = [] ∧ ¬ s.senders then
      some { s with writer := .exited }
    else none
  | .requestWrite =>
    match s.writer with
    | .received f => some { s with writer := .queued f, mutex := s.mutex.enter .writer }
    | _ => none
  | .acquireWrite =>
    match s.writer with
    | .queued f =>
      if s.mutex.holder = some .writer then
        if s.transport then some { s with writer := .writing f }
        else some { s with writer := .leaving, mutex := s.mutex.leave .writer }
      else none
    | _ => none
  | .wrote =>
    match s.writer with
    | .writing _ => some { s with writer := .receiving, mutex := s.mutex.leave .writer }
    | _ => none
  | .writeFailed =>
    match s.writer with
    | .writing _ => some { s with writer := .leaving, mutex := s.mutex.leave .writer }
    | _ => none
  | .writeTimeout =>
    match s.writer with
    | .queued _ | .writing _ => some { s with writer := .leaving, mutex := s.mutex.leave .writer }
    | _ => none
  | .requestClear =>
    if s.writer = .leaving then
      some { s with writer := .clearing, mutex := s.mutex.enter .writer }
    else none
  | .acquireClear =>
    if s.writer = .clearing ∧ s.mutex.holder = some .writer then
      some { s with writer := .exited, transport := false, mutex := s.mutex.leave .writer }
    else none
  | .requestTake =>
    if s.main = .waiting ∧ s.reader = .returned then
      some { s with main := .queued, mutex := s.mutex.enter .main }
    else none
  | .acquireTake =>
    if s.main = .queued ∧ s.mutex.holder = some .main then
      if s.transport then some { s with main := .closing, transport := false }
      else some { s with main := .closed, mutex := s.mutex.leave .main }
    else none
  | .closed =>
    if s.main = .closing then
      some { s with main := .closed, mutex := s.mutex.leave .main }
    else none

/-- Neither a move of the peer nor a timer. -/
def Act.silent : Act → Bool
  | .peerFrame | .readFailed | .idleTimeout | .writeTimeout => false
  | _ => true

/-- Inside the future that waits for an inbound frame. -/
def waitsForPeer (s : Slot) : Prop := s.reader = .queued ∨ s.reader = .reading

/-- The writer gets to `write_frame` without the peer and without a timer. -/
def CanWrite (s : Slot) : Prop :=
  ∃ acts t f, (∀ a ∈ acts, a.silent) ∧ Transition.run step s acts = some t ∧ t.writer = .writing f

/-- The mutex stage of each task. -/
def stage (s : Slot) : Task → Stage
  | .reader =>
    match s.reader with
    | .queued => .waiting
    | .reading => .inside
    | _ => .away
  | .writer =>
    match s.writer with
    | .queued _ | .clearing => .waiting
    | .writing _ => .inside
    | _ => .away
  | .main =>
    match s.main with
    | .queued => .waiting
    | .closing => .inside
    | _ => .away

/-- The mutex agrees with the tasks, and the teardown waits for the reader. -/
structure Inv (s : Slot) : Prop where
  coherent : s.mutex.Coherent s.stage
  teardown : s.main ≠ .waiting → s.reader = .returned

variable {s t : Slot} {a : Act} {acts : List Act} {f : Frame}

theorem inv_initial : Inv initial := by
  refine ⟨⟨fun x => ?_, fun x hx => ?_⟩, fun h => absurd rfl h⟩
  · cases x <;> simp [initial, Fifo.free, stage]
  · cases x <;> simp [initial, stage] at hx

theorem stage_setReader {r : Reader} {m : Fifo Task} :
    ∀ y, y ≠ .reader → ({ s with reader := r, mutex := m } : Slot).stage y = s.stage y := by
  intro y hy
  cases y <;> first | exact absurd rfl hy | rfl

theorem stage_setWriter {w : SlotWriter} {m : Fifo Task} {b : Bool} : ∀ y, y ≠ .writer →
    ({ s with writer := w, mutex := m, transport := b } : Slot).stage y = s.stage y := by
  intro y hy
  cases y <;> first | exact absurd rfl hy | rfl

theorem stage_setMain {p : Main} {m : Fifo Task} {b : Bool} : ∀ y, y ≠ .main →
    ({ s with main := p, mutex := m, transport := b } : Slot).stage y = s.stage y := by
  intro y hy
  cases y <;> first | exact absurd rfl hy | rfl

/-- What a step means for the mutex. -/
theorem step_move (h : step s a = some t) : s.mutex.Move s.stage t.mutex t.stage := by
  cases a with
  | enqueue f =>
    simp only [step] at h
    split at h <;> cases h <;> exact .stay _ fun _ => rfl
  | dropSenders | dispatched | recvNone =>
    simp only [step] at h
    split at h
    · next hp =>
      cases h
      refine .stay _ fun y => ?_
      cases y <;> simp [stage, hp]
    · cases h
  | recv =>
    simp only [step] at h
    split at h
    · next f c hw hr =>
      cases h
      refine .stay _ fun y => ?_
      cases y <;> simp [stage, hw]
    · cases h
  | requestRead =>
    simp only [step] at h
    split at h <;> cases h
    exact .enter Task.reader _ rfl stage_setReader
  | acquireRead =>
    simp only [step] at h
    split at h
    · next hp =>
      split at h <;> cases h
      · exact .acquire Task.reader _ (by simp [stage, hp.1]) hp.2 rfl stage_setReader
      · exact .leave Task.reader _ rfl stage_setReader
    · cases h
  | peerFrame | readFailed | idleTimeout =>
    simp only [step] at h
    split at h <;> cases h
    exact .leave Task.reader _ rfl stage_setReader
  | requestWrite =>
    simp only [step] at h
    split at h <;> cases h
    exact .enter Task.writer _ rfl stage_setWriter
  | acquireWrite =>
    simp only [step] at h
    split at h
    · next f hw =>
      split at h
      · next hold =>
        split at h <;> cases h
        · exact .acquire Task.writer _ (by simp [stage, hw]) hold rfl stage_setWriter
        · exact .leave Task.writer _ rfl stage_setWriter
      · cases h
    · cases h
  | wrote | writeFailed | writeTimeout =>
    simp only [step] at h
    split at h <;> cases h <;> exact .leave Task.writer _ rfl stage_setWriter
  | requestClear =>
    simp only [step] at h
    split at h <;> cases h
    exact .enter Task.writer _ rfl stage_setWriter
  | acquireClear =>
    simp only [step] at h
    split at h <;> cases h
    exact .leave Task.writer _ rfl stage_setWriter
  | requestTake =>
    simp only [step] at h
    split at h <;> cases h
    exact .enter Task.main _ rfl stage_setMain
  | acquireTake =>
    simp only [step] at h
    split at h
    · next hp =>
      split at h <;> cases h
      · exact .acquire Task.main _ (by simp [stage, hp.1]) hp.2 rfl stage_setMain
      · exact .leave Task.main _ rfl stage_setMain
    · cases h
  | closed =>
    simp only [step] at h
    split at h <;> cases h
    exact .leave Task.main _ rfl stage_setMain

/-- What a step means for the tasks: it moves the reader, the writer or the main
task, or none of them. The transport is only given up by whoever has the slot. -/
theorem step_cases (h : step s a = some t) :
    (t.reader = s.reader ∧ t.writer = s.writer ∧ t.main = s.main ∧ t.transport = s.transport) ∨
    (t.writer = s.writer ∧ t.main = s.main ∧ t.transport = s.transport ∧ s.reader ≠ .returned ∧
      (a.silent → s.transport → s.waitsForPeer → t.waitsForPeer)) ∨
    (t.reader = s.reader ∧ t.main = s.main ∧
      (s.writer.inLoop = false → t.writer.inLoop = false) ∧
      (t.transport = s.transport ∨ s.mutex.holder = some .writer)) ∨
    (t.reader = s.reader ∧ t.writer = s.writer ∧ (s.main = .waiting → s.reader = .returned) ∧
      (t.transport = s.transport ∨ s.mutex.holder = some .main)) := by
  cases a with
  | enqueue f =>
    simp only [step] at h
    split at h <;> cases h <;> exact .inl ⟨rfl, rfl, rfl, rfl⟩
  | dropSenders =>
    simp only [step] at h
    split at h <;> cases h
    exact .inl ⟨rfl, rfl, rfl, rfl⟩
  | requestRead | dispatched =>
    simp only [step] at h
    split at h
    · next hp =>
      cases h
      refine .inr (.inl ⟨rfl, rfl, rfl, by simp [hp], fun _ _ hw => ?_⟩)
      simp [waitsForPeer, hp] at hw
    · cases h
  | acquireRead =>
    simp only [step] at h
    split at h
    · next hp =>
      split at h <;> cases h
      · exact .inr (.inl ⟨rfl, rfl, rfl, by simp [hp.1], fun _ _ _ => .inr rfl⟩)
      · next ht => exact .inr (.inl ⟨rfl, rfl, rfl, by simp [hp.1], fun _ htr => absurd htr ht⟩)
    · cases h
  | peerFrame | readFailed =>
    simp only [step] at h
    split at h
    · next hp =>
      cases h
      exact .inr (.inl ⟨rfl, rfl, rfl, by simp [hp], fun hs => by cases hs⟩)
    · cases h
  | idleTimeout =>
    simp only [step] at h
    split at h
    · next hp =>
      cases h
      refine .inr (.inl ⟨rfl, rfl, rfl, ?_, fun hs => by cases hs⟩)
      rcases hp with hp | hp <;> simp [hp]
    · cases h
  | recv | requestWrite | wrote | writeFailed | writeTimeout =>
    simp only [step] at h
    split at h <;> cases h
    all_goals exact .inr (.inr (.inl ⟨rfl, rfl, by simp_all [SlotWriter.inLoop], .inl rfl⟩))
  | recvNone | requestClear =>
    simp only [step] at h
    split at h <;> cases h
    exact .inr (.inr (.inl ⟨rfl, rfl, fun _ => rfl, .inl rfl⟩))
  | acquireWrite =>
    simp only [step] at h
    split at h
    · next f hw =>
      split at h
      · split at h <;> cases h
        all_goals exact .inr (.inr (.inl ⟨rfl, rfl, by simp [hw, SlotWriter.inLoop], .inl rfl⟩))
      · cases h
    · cases h
  | acquireClear =>
    simp only [step] at h
    split at h
    · next hp =>
      cases h
      exact .inr (.inr (.inl ⟨rfl, rfl, fun _ => rfl, .inr hp.2⟩))
    · cases h
  | requestTake =>
    simp only [step] at h
    split at h
    · next hp =>
      cases h
      exact .inr (.inr (.inr ⟨rfl, rfl, fun _ => hp.2, .inl rfl⟩))
    · cases h
  | acquireTake =>
    simp only [step] at h
    split at h
    · next hp =>
      split at h <;> cases h
      all_goals exact .inr (.inr (.inr ⟨rfl, rfl, by simp [hp.1], .inr hp.2⟩))
    · cases h
  | closed =>
    simp only [step] at h
    split at h
    · next hp =>
      cases h
      exact .inr (.inr (.inr ⟨rfl, rfl, by simp [hp], .inl rfl⟩))
    · cases h

theorem teardown_step (h : step s a = some t) (hi : Inv s) :
    t.main ≠ .waiting → t.reader = .returned := by
  intro hm
  rcases step_cases h with ⟨hr, -, hmain, -⟩ | ⟨-, hmain, -, hr, -⟩ | ⟨hr, hmain, -⟩ |
    ⟨hr, -, hret, -⟩
  · rw [hr]
    exact hi.teardown (hmain ▸ hm)
  · exact absurd (hi.teardown (hmain ▸ hm)) hr
  · rw [hr]
    exact hi.teardown (hmain ▸ hm)
  · rw [hr]
    by_cases hs : s.main = .waiting
    · exact hret hs
    · exact hi.teardown hs

theorem inv_step (h : step s a = some t) (hi : Inv s) : Inv t :=
  ⟨(step_move h).coherent hi.coherent, teardown_step h hi⟩

theorem inv_run (h : Transition.run step initial acts = some s) : Inv s :=
  Transition.run_invariant (fun _ _ _ => inv_step) h inv_initial

theorem holder_of_writing (hi : Inv s) (h : s.writer = .writing f) :
    s.mutex.holder = some .writer :=
  hi.coherent.holds .writer (by simp [stage, h])

/-- The reader has the slot and nothing but the peer or a timer will take it away. -/
structure Blocked (s : Slot) : Prop where
  waits : s.waitsForPeer
  present : s.transport
  holds : s.mutex.holder = some .reader

theorem blocked_step (h : step s a = some t) (hs : a.silent) (hb : Blocked s) : Blocked t := by
  obtain ⟨hw, hp, hh⟩ := hb
  have hkeep : t.waitsForPeer ∧ t.transport := by
    rcases step_cases h with ⟨hr, -, -, ht⟩ | ⟨-, -, ht, -, hr⟩ | ⟨hr, -, -, ht⟩ | ⟨hr, -, -, ht⟩
    · exact ⟨by rwa [waitsForPeer, hr], ht.trans hp⟩
    · exact ⟨hr hs hp hw, ht.trans hp⟩
    all_goals
      refine ⟨by rwa [waitsForPeer, hr], ?_⟩
      rcases ht with ht | ht
      · exact ht.trans hp
      · -- the slot is the reader's, so nobody else takes the transport
        cases hh.symm.trans ht
  refine ⟨hkeep.1, hkeep.2, (step_move h).holder hh ?_⟩
  rcases hkeep.1 with hr | hr <;> simp [stage, hr]

theorem left_step (h : step s a = some t) (hl : s.writer.inLoop = false) :
    t.writer.inLoop = false := by
  rcases step_cases h with ⟨-, hw, -⟩ | ⟨hw, -⟩ | ⟨-, -, hw, -⟩ | ⟨-, hw, -⟩
  · rwa [hw]
  · rwa [hw]
  · exact hw hl
  · rwa [hw]

theorem not_canWrite_of_blocked (hi : Inv s) (hb : Blocked s) : ¬ CanWrite s := by
  rintro ⟨acts, t, f, hsilent, hrun, hw⟩
  have hg : Transition.Guarded step (fun _ a => a.silent) s acts :=
    Transition.guarded_of_forall_mem hsilent
  have hinv : Inv t ∧ Blocked t :=
    Transition.run_invariant_of_guarded (P := fun s => Inv s ∧ Blocked s)
      (fun _ _ _ h hok hP => ⟨inv_step h hP.1, blocked_step h hok hP.2⟩) hg hrun ⟨hi, hb⟩
  have hholder := holder_of_writing hinv.1 hw
  rw [hinv.2.holds] at hholder
  cases hholder

theorem not_canWrite_of_left (hl : s.writer.inLoop = false) : ¬ CanWrite s := by
  rintro ⟨acts, t, f, -, hrun, hw⟩
  have ht : t.writer.inLoop = false :=
    Transition.run_invariant (P := fun s => s.writer.inLoop = false) (fun _ _ _ => left_step)
      hrun hl
  simp [hw, SlotWriter.inLoop] at ht

/-- A reader that waits in line waits for the writer. -/
theorem holder_of_queued_reader (hi : Inv s) (hw : s.waitsForPeer)
    (hn : s.mutex.holder ≠ some .reader) : s.mutex.holder = some .writer := by
  have hline : .reader ∈ s.mutex.line := by
    rw [hi.coherent.inLine]
    rcases hw with hr | hr <;> simp [stage, hr]
  obtain ⟨y, hy⟩ := Fifo.holder_of_mem hline
  cases y with
  | reader => exact absurd hy hn
  | writer => exact hy
  | main =>
    have hm := (hi.coherent.inLine .main).mp (Fifo.mem_of_holder hy)
    have hmain : s.main ≠ .waiting := by
      intro he
      simp [stage, he] at hm
    have hret := hi.teardown hmain
    rcases hw with hr | hr <;> simp [hr] at hret

theorem canWrite_of_writer_holds (hi : Inv s) (hp : s.transport)
    (hh : s.mutex.holder = some .writer) (hl : s.writer.inLoop) : CanWrite s := by
  have hst := (hi.coherent.inLine .writer).mp (Fifo.mem_of_holder hh)
  cases hw : s.writer with
  | queued f =>
    refine ⟨[.acquireWrite], { s with writer := .writing f }, f, by simp [Act.silent], ?_, rfl⟩
    simp [Transition.run, step, hw, hh, hp]
  | writing f => exact ⟨[], s, f, by simp, rfl, hw⟩
  | receiving | received f | leaving | exited => simp [stage, hw] at hst
  | clearing => simp [hw, SlotWriter.inLoop] at hl

/-- The writer, behind a reader that holds the slot, can only run into its timeout. -/
theorem timeout_of_blocked (hi : Inv s) (hq : s.channel.queue ≠ [])
    (hh : s.mutex.holder = some .reader) (hl : s.writer.inLoop) :
    ∃ acts u t, (∀ a ∈ acts, a.silent) ∧ Transition.run step s acts = some u ∧
      (∀ f, u.writer ≠ .writing f) ∧ step u .writeTimeout = some t := by
  cases hw : s.writer with
  | receiving =>
    obtain ⟨f, c, hc⟩ := Channel.Bounded.recv_of_ne_nil hq
    refine ⟨[.recv, .requestWrite], { s with
      writer := .queued f, channel := c, mutex := s.mutex.enter .writer }, _,
      by simp [Act.silent], ?_, by simp, rfl⟩
    simp [Transition.run, step, hw, hc]
  | received f =>
    refine ⟨[.requestWrite], { s with writer := .queued f, mutex := s.mutex.enter .writer }, _,
      by simp [Act.silent], ?_, by simp, rfl⟩
    simp [Transition.run, step, hw]
  | queued f => exact ⟨[], s, _, by simp, rfl, by simp [hw], by simp only [step, hw]; rfl⟩
  | writing f =>
    have hholder := holder_of_writing hi hw
    rw [hh] at hholder
    cases hholder
  | leaving | clearing | exited => simp [hw, SlotWriter.inLoop] at hl

/-- While the reader waits for the peer, the writer can get to its write exactly
when the reader does not hold the slot and the writer has not given up; when the
reader does hold it, silence alone ends in a write timeout. -/
theorem writer_independence (acts : List Act) (s : Slot)
    (hrun : Transition.run step initial acts = some s) (hq : s.channel.queue ≠ [])
    (hp : s.transport) (hw : s.waitsForPeer) :
    (CanWrite s ↔ s.mutex.holder ≠ some .reader ∧ s.writer.inLoop) ∧
    (s.mutex.holder = some .reader → s.writer.inLoop →
      ∃ acts u t, (∀ a ∈ acts, a.silent) ∧ Transition.run step s acts = some u ∧
        (∀ f, u.writer ≠ .writing f) ∧ step u .writeTimeout = some t) := by
  have hi := inv_run hrun
  refine ⟨⟨?_, ?_⟩, ?_⟩
  · intro hcan
    constructor
    · intro hh
      exact not_canWrite_of_blocked hi ⟨hw, hp, hh⟩ hcan
    · by_contra hl
      exact not_canWrite_of_left (by simpa using hl) hcan
  · rintro ⟨hn, hl⟩
    -- the reader is in line without holding the slot, so it is the writer's
    have hholder := holder_of_queued_reader hi hw hn
    exact canWrite_of_writer_holds hi hp hholder hl
  · intro hh hl
    exact timeout_of_blocked hi hq hh hl

/-- The reader reads while one message is put on the channel. -/
def messageWhileReading : List Act := [.requestRead, .acquireRead, .enqueue {}]

/-- The writer writes while the reader is back in line, and another message arrives. -/
def messageWhileWriting : List Act :=
  [.enqueue {}, .recv, .requestWrite, .requestRead, .enqueue {}, .acquireWrite]

theorem reader_in_line_lets_writer_write :
    ∃ s, Transition.run step initial messageWhileWriting = some s ∧ s.reader = .queued ∧
      CanWrite s := by
  refine ⟨_, rfl, rfl, ?_⟩
  exact (writer_independence messageWhileWriting _ rfl (by decide) rfl (.inl rfl)).1.mpr
    ⟨by decide, rfl⟩

/-- The peer stays silent: the message in the channel is taken, never written, and
its write times out. -/
theorem silent_peer_times_out_the_writer :
    ∃ s, Transition.run step initial messageWhileReading = some s ∧ s.channel.queue = [{}] ∧
      s.transport ∧ s.reader = .reading ∧ ¬ CanWrite s ∧
      ∃ t, Transition.run step s [.recv, .requestWrite, .writeTimeout] = some t ∧
        t.writer = .leaving ∧ t.reader = .reading ∧ t.channel.queue = [] := by
  refine ⟨_, rfl, rfl, rfl, rfl, ?_, _, rfl, rfl, rfl, rfl⟩
  exact not_canWrite_of_blocked (@inv_run _ messageWhileReading rfl)
    ⟨.inr rfl, rfl, rfl⟩

end Slot

end Rifts
