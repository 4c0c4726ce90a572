import Rifts.Client.Lifecycle

/-! Who notices that a client's connection is lost. -/
namespace Rifts

namespace RiftClient

open Transition ClientPhase

/-- A monitor that has woken up and has not finished with `try_reconnect`. -/
def reconnecting : ClientPhase → Bool
  | woken | looping _ | sleeping _ | redialing _ | regreeting _ | installing .. => true
  | _ => false

/-- A call of `connect` that has not returned. -/
def calling : ClientPhase → Bool
  | connecting | dialing | greeting => true
  | _ => false

/-- The connection in the slot has a monitor, or a reconnect is in progress, while the
client is not closed. -/
def Covered (p : Tasks) : Prop :=
  p.shared.closed = false → ∀ n, p.shared.inner = some n →
    waiting n ∈ p.threads ∨ ∃ u ∈ p.threads, reconnecting u = true

/-- The same when no call of `connect` is in progress. -/
def Watched (p : Tasks) : Prop :=
  p.shared.closed = false → (∀ u ∈ p.threads, calling u = false) →
    ∀ n, p.shared.inner = some n → waiting n ∈ p.threads ∨ ∃ u ∈ p.threads, reconnecting u = true

/-- A reconnect puts its connection in the slot only when another reconnect is in progress
or the client is closed, and gives up only then, or when the connection in the slot, if
there is one, has a monitor. -/
def mayEnd (p : Tasks) (i : Nat) : ClientPhase → Prop
  | installing .. => p.shared.closed = true ∨ (p.threads.eraseIdx i).any reconnecting = true
  | looping k => p.shared.config.maxReconnectAttempts.toNat < k →
      p.shared.closed = true ∨ (p.threads.eraseIdx i).any reconnecting = true ∨
        ∀ n ∈ p.shared.inner, waiting n ∈ p.threads
  | _ => True

def relieved (p : Tasks) : Act → Prop
  | .spawn _ => True
  | .advance i _ => ∀ u ∈ p.threads[i]?, mayEnd p i u

instance (p : Tasks) (i : Nat) : DecidablePred (mayEnd p i)
  | installing .. => inferInstanceAs (Decidable (_ ∨ _))
  | looping _ => inferInstanceAs (Decidable (_ → _ ∨ _ ∨
      ∀ n ∈ p.shared.inner, waiting n ∈ p.threads))
  | connecting | dialing | greeting | failed _ | waiting _ | woken | sleeping _ | redialing _
  | regreeting _ | closing | emptying | reading _ | done => .isTrue trivial

instance (p : Tasks) : DecidablePred (relieved p)
  | .spawn _ => .isTrue trivial
  | .advance i _ => inferInstanceAs (Decidable (∀ u ∈ p.threads[i]?, mayEnd p i u))

variable {c c' : RiftClient} {u u' : ClientPhase} {input : ClientInput} {p p' : Tasks}
  {pre post : List ClientPhase}

theorem watched_of_covered (h : Covered p) : Watched p := fun hclosed _ => h hclosed

theorem covered_of_closed (h : p.shared.closed = true) : Covered p := by
  intro hopen
  cases h.symm.trans hopen

theorem covered_of_empty (h : p.shared.inner = none) : Covered p := by
  intro _ n hn
  cases h.symm.trans hn

theorem covered_of_reconnecting (hu : u ∈ p.threads) (hr : reconnecting u = true) : Covered p :=
  fun _ _ _ => .inr ⟨u, hu, hr⟩

/-- A task that neither watches nor reconnects takes a step that leaves the slot alone. -/
theorem Covered.quiet (h : Covered ⟨c, pre ++ u :: post⟩) (hclosed : c'.closed = c.closed)
    (hinner : c'.inner = c.inner) (hw : ∀ n, u ≠ waiting n) (hr : reconnecting u = false) :
    Covered ⟨c', pre ++ u' :: post⟩ := by
  intro hopen n hn
  rcases h (hclosed ▸ hopen) n (hinner ▸ hn) with hwait | hrec
  · refine .inl (Pool.mem_split_of_mem ?_)
    have hne : waiting n ≠ u := (hw n).symm
    simpa [hne] using hwait
  · rcases Pool.exists_mem_split.mp hrec with hself | hother
    · cases hr.symm.trans hself
    · exact .inr (Pool.exists_mem_split.mpr (.inr hother))

/-- Another task that reconnects keeps the slot covered, whatever is put there. -/
theorem covered_of_others (h : ((pre ++ u :: post).eraseIdx pre.length).any reconnecting = true) :
    Covered ⟨c', pre ++ u' :: post⟩ := by
  have hothers : (pre ++ u :: post).eraseIdx pre.length = pre ++ post := by
    simp [List.eraseIdx_append_of_length_le]
  rw [hothers] at h
  obtain ⟨v, hv, hr⟩ := List.any_eq_true.mp h
  exact covered_of_reconnecting (Pool.mem_split_of_mem hv) hr

theorem covered_next (hn : next c u input = some (c', u')) (hauto : c.config.autoReconnect = true)
    (hok : relieved ⟨c, pre ++ u :: post⟩ (.advance pre.length input))
    (h : Covered ⟨c, pre ++ u :: post⟩) : Covered ⟨c', pre ++ u' :: post⟩ := by
  have hok : mayEnd ⟨c, pre ++ u :: post⟩ pre.length u := hok u (by simp)
  have hself (hv : reconnecting u' = true) : Covered ⟨c', pre ++ u' :: post⟩ :=
    covered_of_reconnecting Pool.mem_split hv
  cases moves_of_next hn with
  | refuse | dialFailed | dial | greetFailed | lose => exact h.quiet rfl rfl (by simp) rfl
  | lock hinner => exact covered_of_empty hinner
  | greet sessionId epoch =>
    rintro _ n ⟨⟩
    exact .inl Pool.mem_split
  | wake | reconnect | attempt | bump | redialFailed | redial | regreetFailed | regreet =>
    exact hself rfl
  | rest hrest =>
    refine covered_of_closed (hrest.resolve_right ?_)
    simp [hauto]
  | giveUp k e hk =>
    rcases hok hk with hclosed | hothers | hwaiting
    · exact covered_of_closed hclosed
    · exact covered_of_others hothers
    · intro _ n hn
      refine .inl (Pool.mem_split_of_mem ?_)
      simpa using hwaiting n hn
  | halt k hclosed => exact covered_of_closed hclosed
  | haltAsleep k hclosed => exact covered_of_closed hclosed
  | install n sessionId epoch =>
    rcases hok with hclosed | hothers
    · exact covered_of_closed hclosed
    · exact covered_of_others hothers
  | close => exact covered_of_closed rfl
  | empty => exact covered_of_empty rfl

/-- The settings that `try_reconnect` reads stay as they are. -/
theorem settings_next (hn : next c u input = some (c', u')) :
    c'.config.autoReconnect = c.config.autoReconnect ∧
      c'.config.maxReconnectAttempts = c.config.maxReconnectAttempts := by
  cases moves_of_next hn <;> exact ⟨rfl, rfl⟩

theorem settings_step {a : Act} (h : step p a = some p') :
    p'.shared.config.autoReconnect = p.shared.config.autoReconnect ∧
      p'.shared.config.maxReconnectAttempts = p.shared.config.maxReconnectAttempts := by
  rcases Pool.step_cases h with ⟨call, rfl, rfl⟩ | ⟨pre, u, post, input, c, u', rfl, -, hn, rfl⟩
  · exact ⟨rfl, rfl⟩
  · exact settings_next hn

theorem covered_step {a : Act} (h : step p a = some p') (hok : relieved p a)
    (hauto : p.shared.config.autoReconnect = true) (hp : Covered p) : Covered p' := by
  refine Pool.invariant_step_of_guard
    (G := fun p a => relieved p a ∧ p.shared.config.autoReconnect = true) ?_ ?_ h
    ⟨hok, hauto⟩ hp
  · intro c ts call _ hp hopen n hn
    rcases hp hopen n hn with hwait | ⟨u, hu, hr⟩
    · exact .inl (List.mem_append_left _ hwait)
    · exact .inr ⟨u, List.mem_append_left _ hu, hr⟩
  · rintro c pre u post input c' u' hn ⟨hok, hauto⟩
    exact covered_next hn hauto hok

/-- A monitor whose connection is lost reports it and starts to reconnect. -/
theorem loss_is_reported {n i : Nat} {conn : ConnectionInner}
    (hat : p.threads[i]? = some (waiting n)) (hconn : p.shared.conns[n]? = some conn)
    (hlost : conn.lost = true) (hopen : p.shared.closed = false)
    (hauto : p.shared.config.autoReconnect = true)
    (hmax : 0 < p.shared.config.maxReconnectAttempts.toNat) :
    ∃ q, run step p (List.replicate 3 (.advance i {})) = some q ∧ q.shared.events =
      p.shared.events ++ [.disconnected 1006 "connection lost", .reconnecting 1] := by
  obtain ⟨hlt, hget⟩ := List.getElem?_eq_some_iff.mp hat
  have hpool : p = ⟨p.shared, p.threads.take i ++ waiting n :: p.threads.drop (i + 1)⟩ := by
    rw [← hget, List.getElem_cons_drop hlt, List.take_append_drop]
  have hlen : (p.threads.take i).length = i := List.length_take_of_le hlt.le
  have hsolo : run (Pool.solo ClientPhase.program) (p.shared, waiting n) (List.replicate 3 {}) =
      some ((p.shared.emit (.disconnected 1006 "connection lost")).emit (.reconnecting 1),
        sleeping 1) := by
    have hle : ¬ p.shared.config.maxReconnectAttempts.toNat < 1 := by omega
    simp [run, List.replicate, Pool.solo, ClientPhase.program, next, hconn, hlost, emit, hopen,
      hauto, hle]
  have hrun : run step ⟨p.shared, p.threads.take i ++ waiting n :: p.threads.drop (i + 1)⟩
      ((List.replicate 3 {}).map (Pool.Act.advance (p.threads.take i).length)) = _ :=
    Pool.run_of_solo hsolo
  rw [← hpool, hlen] at hrun
  exact ⟨_, hrun, by simp [emit]⟩

/-- In every run of a client that reconnects by itself, over any losses, calls and answers
of the server, in which no reconnect ends as the last one that covers the slot, the
connection in the slot is watched in every state; and when it is lost, a reconnect is in
progress or its monitor goes on to report the loss and to make a first attempt. -/
theorem connection_is_watched (cfg : RiftClientConfig) (hauto : cfg.autoReconnect = true)
    (acts : List Act) (hg : Guarded step relieved ⟨.new cfg, []⟩ acts) :
    Throughout step Watched ⟨.new cfg, []⟩ acts ∧
    ∀ p n conn, run step ⟨.new cfg, []⟩ acts = some p → p.shared.closed = false →
      (∀ u ∈ p.threads, calling u = false) → p.shared.inner = some n →
      p.shared.conns[n]? = some conn → conn.lost = true → 0 < cfg.maxReconnectAttempts →
      (∃ u ∈ p.threads, reconnecting u = true) ∨
        ∃ i q, run step p (List.replicate 3 (.advance i {})) = some q ∧ q.shared.events =
          p.shared.events ++ [.disconnected 1006 "connection lost", .reconnecting 1] := by
  have hstart : Covered ⟨.new cfg, []⟩ := covered_of_empty rfl
  have hkept : Throughout step (fun p => (p.shared.config.autoReconnect = true ∧
      p.shared.config.maxReconnectAttempts = cfg.maxReconnectAttempts) ∧ Covered p)
      ⟨.new cfg, []⟩ acts := by
    refine throughout_of_guarded ?_ hg ⟨⟨hauto, rfl⟩, hstart⟩
    rintro p a p' h hok ⟨⟨ha, hm⟩, hp⟩
    obtain ⟨hsame, hmax⟩ := settings_step h
    exact ⟨⟨hsame.trans ha, hmax.trans hm⟩, covered_step h hok ha hp⟩
  refine ⟨throughout_mono hkept fun _ hp => watched_of_covered hp.2, ?_⟩
  intro p n conn hrun hopen _ hinner hconn hlost hpos
  obtain ⟨⟨ha, hm⟩, hp⟩ := throughout_last hkept hrun
  rcases hp hopen n hinner with hwait | hrec
  · obtain ⟨i, hi⟩ := List.getElem?_of_mem hwait
    refine .inr ⟨i, loss_is_reported hi hconn hlost hopen ha ?_⟩
    rw [hm]
    exact UInt32.lt_iff_toNat_lt.mp hpos
  · exact .inl hrec

theorem first_loss_is_reported :
    ∃ p, run step ⟨.new {}, []⟩ firstLoss = some p ∧ Watched p ∧
      ((∃ u ∈ p.threads, reconnecting u = true) ∨
        ∃ i q, run step p (List.replicate 3 (.advance i {})) = some q ∧ q.shared.events =
          p.shared.events ++ [.disconnected 1006 "connection lost", .reconnecting 1]) := by
  obtain ⟨p, hrun, hopen, hcalls, hinner, hconn⟩ : ∃ p,
      run step ⟨.new {}, []⟩ firstLoss = some p ∧ p.shared.closed = false ∧
        (∀ u ∈ p.threads, calling u = false) ∧ p.shared.inner = some 0 ∧
        p.shared.conns[0]? = some ⟨"s", 1, true⟩ := by
    decide +kernel
  have h := connection_is_watched {} rfl firstLoss (by decide +kernel)
  exact ⟨p, hrun, throughout_last h.1 hrun,
    h.2 p 0 _ hrun hopen hcalls hinner hconn rfl (by decide)⟩

/-- After the first loss the client reconnects, and is then lost again. -/
def secondLoss : List Act :=
  lostAndBack ++ [.advance 0 { answer := some ("s", 2) }, .advance 0 {}, .spawn (.lose 1),
    .advance 2 {}]

/-- The second connection is in the slot and lost, no task has anything left to do, and
the last thing that was reported is that the client is connected. -/
theorem second_loss_goes_unnoticed :
    ∃ p, run step ⟨.new {}, []⟩ secondLoss = some p ∧ ¬ Watched p ∧
      p.shared.inner = some 1 ∧ p.shared.conns[1]? = some ⟨"s", 2, true⟩ ∧
      p.shared.events = [.connected "s" 1, .disconnected 1006 "connection lost", .reconnecting 1,
        .connected "s" 2, .connected "s" 2] ∧
      ∀ i input, step p (.advance i input) = none := by
  obtain ⟨p, hrun, hopen, hthreads, hinner, hconn, hevents⟩ : ∃ p,
      run step ⟨.new {}, []⟩ secondLoss = some p ∧ p.shared.closed = false ∧
        p.threads = [done, done, done] ∧ p.shared.inner = some 1 ∧
        p.shared.conns[1]? = some ⟨"s", 2, true⟩ ∧
        p.shared.events = [.connected "s" 1, .disconnected 1006 "connection lost",
          .reconnecting 1, .connected "s" 2, .connected "s" 2] := by
    decide +kernel
  refine ⟨p, hrun, ?_, hinner, hconn, hevents, ?_⟩
  · intro hwatched
    have h := hwatched hopen (by simp [hthreads, calling]) 1 hinner
    simp [hthreads, reconnecting] at h
  · intro i input
    rcases hi : p.threads[i]? with _ | u
    · simp [step, Pool.step, hi]
    · have hu : u = done := by
        have hmem := List.mem_of_getElem? hi
        rw [hthreads] at hmem
        simpa using hmem
      simp [step, Pool.step, hi, hu, ClientPhase.program, next]

end RiftClient

end Rifts
