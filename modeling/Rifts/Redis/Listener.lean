import Mathlib.Data.List.Basic
import Rifts.Redis.Copies
import Rifts.Transition.Refinement

/-! The listeners of a cluster with their connections: how they come up, wait after a failure and
lose what is on its way, and that the instances still only do what the cluster allows in which
every message waits for its listener. -/
namespace Rifts

/-- Where `listen_loop` stands: at one of the three calls that bring the subscription up, in the
wait after a failure, with the subscription, or with what came through before the connection was
lost. -/
inductive ListenPhase
  | opening
  | connecting
  | subscribing
  | waiting (seconds : Nat)
  | subscribed
  | ending
  deriving DecidableEq, Repr

structure Listener where
  phase : ListenPhase := .opening
  retryCount : UInt32 := 0
  deriving DecidableEq, Repr

/-- What a listener meets. Of the messages on their way when a connection is lost, the first
`kept` still come through. -/
inductive ListenEvent
  | succeed
  | fail
  | slept
  | lose (kept : Nat)
  | turn
  deriving DecidableEq, Repr

namespace Listener

/-- The seconds before the next attempt. -/
def backoff (retryCount : UInt32) : Nat := min (1 * min retryCount.toNat 5) 30

def failed (l : Listener) : Listener :=
  ⟨.waiting (backoff (l.retryCount + 1)), l.retryCount + 1⟩

end Listener

/-- A cluster, the listeners of its instances, and for each instance the numbers of the publishes
whose messages the server has sent to it. The messages on their way are in the inboxes. -/
structure Relay (ι σ : Type) where
  cluster : Cluster ι σ
  listeners : ι → Listener
  sent : ι → List Nat

namespace Relay

open Transition

variable {ι σ : Type} [DecidableEq ι]

def start (keys : RedisKeys) (offsets : String → Option Int64) (sets : RedisSets) : Relay ι σ :=
  ⟨.start keys offsets sets, fun _ => {}, fun _ => []⟩

def setListener (r : Relay ι σ) (j : ι) (l : Listener) : Relay ι σ :=
  { r with listeners := Function.update r.listeners j l }

def setInbox (r : Relay ι σ) (j : ι) (inbox : List Envelope) : Relay ι σ :=
  { r with cluster := { r.cluster with inbox := Function.update r.cluster.inbox j inbox } }

variable [FanoutSink σ]

/-- A step of a call. A message goes to the instances whose subscription stands, and to none if
the command does not get through: `publish` drops that error. -/
def next (d : RedisDeployment ι) (r : Relay ι σ) (phase : RedisPhase ι σ) (input : RedisInput) :
    Option (Relay ι σ × RedisPhase ι σ) :=
  match phase with
  | .announce n m offset =>
    let envelope : Envelope :=
      ⟨n, RedisPool.topicKey d.pre "fanout" m.topic, d.json.toVec m.frame⟩
    let reached (j : ι) : Bool := !input.fails && (r.listeners j).phase = .subscribed
    some ({ r with
        cluster := { r.cluster with
          inbox := fun j => r.cluster.inbox j ++ if reached j then [envelope] else [] }
        sent := fun j => r.sent j ++ if reached j then [n] else [] },
      .published (some n) m ⟨offset, false⟩)
  | .listening _ => none
  | phase => (phase.next d r.cluster input).map fun x => ({ r with cluster := x.1 }, x.2)

/-- A step of `listen_loop`. The message it takes is the first of those that came through. -/
def listen (d : RedisDeployment ι) (r : Relay ι σ) (j : ι) (e : ListenEvent) :
    Option (Relay ι σ) :=
  match (r.listeners j).phase, e with
  | .opening, .succeed => some (r.setListener j { r.listeners j with phase := .connecting })
  | .connecting, .succeed => some (r.setListener j { r.listeners j with phase := .subscribing })
  | .subscribing, .succeed => some ((r.setInbox j []).setListener j ⟨.subscribed, 0⟩)
  | .opening, .fail | .connecting, .fail | .subscribing, .fail =>
    some (r.setListener j (r.listeners j).failed)
  | .waiting _, .slept => some (r.setListener j { r.listeners j with phase := .opening })
  | .subscribed, .lose kept =>
    some ((r.setInbox j ((r.cluster.inbox j).take kept)).setListener j
      { r.listeners j with phase := .ending })
  | .subscribed, .turn =>
    (RedisPhase.next d r.cluster (.listening j) {}).map fun x => { r with cluster := x.1 }
  | .ending, .turn =>
    match RedisPhase.next d r.cluster (.listening j) {} with
    | some (s, _) => some { r with cluster := s }
    -- the stream is at its end
    | none => some (r.setListener j { r.listeners j with phase := .opening })
  | _, _ => none

def program (d : RedisDeployment ι) :
    Program (Relay ι σ) (RedisPhase ι σ) (RedisCall ι σ) RedisInput :=
  ⟨RedisPhase.start, next d⟩

/-- Calls at the instances, and their listeners. -/
inductive Act (ι σ : Type)
  | call (a : RedisCluster.Act ι σ)
  | listen (j : ι) (e : ListenEvent)

def step (d : RedisDeployment ι) (p : Pool (Relay ι σ) (RedisPhase ι σ)) :
    Act ι σ → Option (Pool (Relay ι σ) (RedisPhase ι σ))
  | .call a => Pool.step (program d) p a
  | .listen j e => (p.shared.listen d j e).map fun r => ⟨r, p.threads⟩

/-- The calls stand where those of a cluster do in which every message waits for its listener, and
the messages on their way are among those that wait there. The turns of listeners are calls of the
cluster that are over. -/
structure Refines (p : Pool (Relay ι σ) (RedisPhase ι σ)) (q : RedisCluster.Calls ι σ) :
    Prop where
  shared : q.shared = { p.shared.cluster with inbox := q.shared.inbox }
  inbox : ∀ j, (p.shared.cluster.inbox j).Sublist (q.shared.inbox j)
  threads : Pool.Padded (· = .done) p.threads q.threads

/-- The publish hands its message to the server in its next step. -/
def announces : RedisPhase ι σ → Bool
  | .announce .. => true
  | _ => false

/-- Everything a step of a call can do: hand its message over, or what it does in the cluster. -/
inductive Moves (d : RedisDeployment ι) (r : Relay ι σ) :
    RedisPhase ι σ → RedisInput → Relay ι σ → RedisPhase ι σ → Prop
  | announce {input : RedisInput} (n m offset) (reached : ι → Bool)
      (hreached : ∀ j, reached j = true → (r.listeners j).phase = .subscribed) :
      Moves d r (.announce n m offset) input
        { r with
          cluster := { r.cluster with
            inbox := fun j => r.cluster.inbox j ++ if reached j then
              [⟨n, RedisPool.topicKey d.pre "fanout" m.topic, d.json.toVec m.frame⟩] else [] }
          sent := fun j => r.sent j ++ if reached j then [n] else [] }
        (.published (some n) m ⟨offset, false⟩)
  | other {u u' : RedisPhase ι σ} {input : RedisInput} {s : Cluster ι σ}
      (hu : announces u = false) (hlisten : ∀ j, u ≠ .listening j)
      (hn : RedisPhase.next d r.cluster u input = some (s, u')) :
      Moves d r u input { r with cluster := s } u'

/-- `listen`, one rule a step. -/
inductive Listens (d : RedisDeployment ι) (r : Relay ι σ) (j : ι) : ListenEvent → Relay ι σ → Prop
  | move {e : ListenEvent} (l : Listener) (hl : l.phase ≠ .subscribed)
      (hphase : (r.listeners j).phase ≠ .subscribed)
      (hquiet : (r.listeners j).phase = .ending → r.cluster.inbox j = []) :
      Listens d r j e (r.setListener j l)
  | subscribe (hphase : (r.listeners j).phase = .subscribing) :
      Listens d r j .succeed ((r.setInbox j []).setListener j ⟨.subscribed, 0⟩)
  | lose (kept : Nat) (hphase : (r.listeners j).phase = .subscribed) :
      Listens d r j (.lose kept) ((r.setInbox j ((r.cluster.inbox j).take kept)).setListener j
        { r.listeners j with phase := .ending })
  | turn {s : Cluster ι σ} {u : RedisPhase ι σ}
      (hphase : (r.listeners j).phase = .subscribed ∨ (r.listeners j).phase = .ending)
      (hn : RedisPhase.next d r.cluster (.listening j) {} = some (s, u)) :
      Listens d r j .turn { r with cluster := s }

variable {d : RedisDeployment ι} {s s' : Cluster ι σ} {r r' : Relay ι σ} {u u' : RedisPhase ι σ}
  {input : RedisInput} {j : ι} {e : ListenEvent} {n : Nat}
  {p p' : Pool (Relay ι σ) (RedisPhase ι σ)} {q : RedisCluster.Calls ι σ}

/-- The inboxes play no part in the other steps of a call. -/
theorem next_withInbox (inbox : ι → List Envelope) (hu : announces u = false)
    (hlisten : ∀ j, u ≠ .listening j) (h : RedisPhase.next d s u input = some (s', u')) :
    RedisPhase.next d { s with inbox } u input = some ({ s' with inbox }, u') := by
  cases u with
  | validate i f =>
    simp only [RedisPhase.next] at h ⊢
    split at h
    · cases h
      rfl
    · split at h
      · cases h
        rfl
      · cases h
        rfl
  | registry i op =>
    cases h
    cases op with
    | subscribe topic intent sink =>
      simp only [RedisPhase.next, Cluster.register]
      split <;> rfl
    | unsubscribe | dropSink => rfl
  | listening j => exact absurd rfl (hlisten j)
  | announce => cases hu
  | append =>
    cases h
    simp only [RedisPhase.next]
    split <;> rfl
  | dedupe | alloc | deliver =>
    cases h
    rfl
  | published | refused | done => cases h

theorem next_keeps (hu : announces u = false) (hlisten : ∀ j, u ≠ .listening j)
    (h : RedisPhase.next d s u input = some (s', u')) :
    s'.inbox = s.inbox ∧ s'.heard = s.heard := by
  cases RedisPhase.moves_of_next h with
  | refuse | validate | dedupe | alloc | append | unappended | deliver => exact ⟨rfl, rfl⟩
  | announce => cases hu
  | listen j => exact absurd rfl (hlisten j)
  | registry i op =>
    cases op with
    | subscribe topic intent sink =>
      simp only [Cluster.register]
      split <;> exact ⟨rfl, rfl⟩
    | unsubscribe | dropSink => exact ⟨rfl, rfl⟩

theorem moves_of_next (h : next d r u input = some (r', u')) : Moves d r u input r' u' := by
  cases u with
  | announce n m offset =>
    cases h
    refine .announce n m offset (fun j => !input.fails && (r.listeners j).phase = .subscribed) ?_
    intro j hj
    exact of_decide_eq_true (Bool.and_eq_true_iff.mp hj).2
  | listening j => cases h
  | _ =>
    simp only [next, Option.map_eq_some_iff] at h
    obtain ⟨⟨s, v⟩, hn, hx⟩ := h
    cases hx
    exact .other rfl nofun hn

/-- The listener takes the first message and hands it to its subscriptions. -/
def taken (d : RedisDeployment ι) (s : Cluster ι σ) (j : ι) (x : Envelope)
    (rest : List Envelope) : Cluster ι σ :=
  let topic := FanoutBridge.topicOf d.pre x.channel
  let frame := FanoutBridge.frameOf d.json topic x.payload
  { s.hand j topic x.publish (serializeFrameForFanout frame 0) with
    inbox := Function.update s.inbox j rest
    heard := Function.update s.heard j (s.heard j ++ [x.publish]) }

theorem turn_cases (h : RedisPhase.next d s (.listening j) {} = some (s', u')) :
    ∃ x rest, s.inbox j = x :: rest ∧ s' = taken d s j x rest ∧ u' = .done := by
  cases hs : s.inbox j with
  | nil => simp [RedisPhase.next, hs] at h
  | cons x rest =>
    refine ⟨x, rest, rfl, ?_⟩
    simp only [RedisPhase.next, hs, List.getElem?_cons_zero] at h
    cases h
    exact ⟨rfl, rfl⟩

theorem inbox_of_no_turn (h : RedisPhase.next d s (.listening j) {} = none) : s.inbox j = [] := by
  cases hs : s.inbox j with
  | nil => rfl
  | cons x rest => simp [RedisPhase.next, hs] at h

/-- A message of a shorter list has its place in the longer one. -/
theorem exists_place {x : Envelope} {l l' : List Envelope} (h : (x :: l).Sublist l') :
    ∃ k, l'[k]? = some x ∧ l.Sublist (l'.eraseIdx k) := by
  induction l' with
  | nil => cases h
  | cons y l' ih =>
    cases h with
    | cons _ h =>
      obtain ⟨k, hk, hrest⟩ := ih h
      exact ⟨k + 1, hk, hrest.cons y⟩
    | cons_cons _ h => exact ⟨0, rfl, h⟩

/-- A step of a call is a step of that call in the cluster. -/
theorem refines_next {pre post : List (RedisPhase ι σ)} (h : next d r u input = some (r', u'))
    (href : Refines ⟨r, pre ++ u :: post⟩ q) : ∃ acts q',
      run (RedisCluster.step d) q acts = some q' ∧ Refines ⟨r', pre ++ u' :: post⟩ q' := by
  obtain ⟨s, ts⟩ := q
  obtain ⟨hshared, hinbox, hthreads⟩ := href
  obtain ⟨pre', post', rfl, hpre, hpost⟩ := hthreads.exists_split
  obtain ⟨inbox, rfl⟩ : ∃ inbox, s = { r.cluster with inbox } := ⟨_, hshared⟩
  obtain ⟨s', hnext, hshared', hinbox'⟩ : ∃ s',
      RedisPhase.next d { r.cluster with inbox } u input = some (s', u') ∧
      s' = { r'.cluster with inbox := s'.inbox } ∧
      ∀ j, (r'.cluster.inbox j).Sublist (s'.inbox j) := by
    cases moves_of_next h with
    | announce n m offset reached =>
      refine ⟨_, rfl, rfl, fun j => (hinbox j).append ?_⟩
      cases reached j with
      | true => exact List.Sublist.refl _
      | false => exact List.nil_sublist _
    | @other _ _ _ s' hu hlisten hn =>
      refine ⟨{ s' with inbox }, next_withInbox inbox hu hlisten hn, rfl, ?_⟩
      have hkeep := (next_keeps hu hlisten hn).1
      rw [hkeep]
      exact hinbox
  exact ⟨[.advance pre'.length input], ⟨s', pre' ++ u' :: post'⟩,
    run_cons_iff.mpr ⟨_, Pool.step_advance (P := RedisPhase.program d) hnext, rfl⟩,
    hshared', hinbox', hpre.append (.cons u' hpost)⟩

/-- A turn of a listener is a turn of that listener in the cluster, given the message at its place
there. -/
theorem refines_turn {ts : List (RedisPhase ι σ)}
    (h : RedisPhase.next d r.cluster (.listening j) {} = some (s', u')) (href : Refines ⟨r, ts⟩ q) :
    ∃ acts q', run (RedisCluster.step d) q acts = some q' ∧
      Refines ⟨{ r with cluster := s' }, ts⟩ q' := by
  obtain ⟨s, us⟩ := q
  obtain ⟨hshared, hinbox, hthreads⟩ := href
  obtain ⟨inbox, rfl⟩ : ∃ inbox, s = { r.cluster with inbox } := ⟨_, hshared⟩
  obtain ⟨x, rest, hr, rfl, rfl⟩ := turn_cases h
  obtain ⟨k, hk, hrest⟩ := exists_place (hr ▸ hinbox j)
  have hnext : RedisPhase.next d { r.cluster with inbox } (.listening j) { pick := k } =
      some ({ taken d r.cluster j x rest with
        inbox := Function.update inbox j ((inbox j).eraseIdx k) }, .done) := by
    have hget : (inbox j)[k]? = some x := hk
    simp only [RedisPhase.next, hget]
    rfl
  have hsolo : run (Pool.solo (RedisPhase.program d))
      ({ r.cluster with inbox }, RedisPhase.start (.listen j)) [{ pick := k }] = some _ :=
    run_cons_iff.mpr ⟨_, hnext, rfl⟩
  have hrun := Pool.run_call (P := RedisPhase.program d) (.listen j) us hsolo
  refine ⟨_, _, hrun, rfl, ?_, hthreads.concat_idle rfl⟩
  intro i
  by_cases hi : i = j
  · subst hi
    simpa [taken] using hrest
  · simpa [taken, Function.update_of_ne hi] using hinbox i

theorem listens_of_listen (h : r.listen d j e = some r') : Listens d r j e r' := by
  simp only [listen] at h
  split at h
  case h_1 hphase | h_2 hphase | h_7 hphase =>
    cases h
    exact .move _ nofun (by simp [hphase]) (by simp [hphase])
  case h_3 hphase =>
    cases h
    exact .subscribe hphase
  case h_4 hphase | h_5 hphase | h_6 hphase =>
    cases h
    exact .move _ nofun (by simp [hphase]) (by simp [hphase])
  case h_8 hphase =>
    cases h
    exact .lose _ hphase
  case h_9 hphase =>
    obtain ⟨⟨s, u⟩, hn, hx⟩ := Option.map_eq_some_iff.mp h
    cases hx
    exact .turn (.inl hphase) hn
  case h_10 hphase =>
    split at h
    · next s u hn =>
      cases h
      exact .turn (.inr hphase) hn
    · next hn =>
      cases h
      exact .move _ nofun (by simp [hphase]) fun _ => inbox_of_no_turn hn
  case h_11 => cases h

/-- A listener only shortens its inbox, or takes a turn. -/
theorem refines_listen {ts : List (RedisPhase ι σ)} (h : r.listen d j e = some r')
    (href : Refines ⟨r, ts⟩ q) :
    ∃ acts q', run (RedisCluster.step d) q acts = some q' ∧ Refines ⟨r', ts⟩ q' := by
  have hshorter {inbox : List Envelope} (hinbox : inbox.Sublist (r.cluster.inbox j))
      (l : Listener) : Refines ⟨(r.setInbox j inbox).setListener j l, ts⟩ q := by
    refine ⟨href.shared, fun i => ?_, href.threads⟩
    by_cases hi : i = j
    · subst hi
      simpa [setInbox, setListener] using hinbox.trans (href.inbox i)
    · simpa [setInbox, setListener, Function.update_of_ne hi] using href.inbox i
  cases listens_of_listen h with
  | move l => exact ⟨[], q, rfl, href.shared, href.inbox, href.threads⟩
  | subscribe => exact ⟨[], q, rfl, hshorter (List.nil_sublist _) _⟩
  | lose kept => exact ⟨[], q, rfl, hshorter (List.take_sublist _ _) _⟩
  | turn hphase hn => exact refines_turn hn href

theorem refines_step {a : Act ι σ} (h : step d p a = some p') (href : Refines p q) :
    ∃ acts q', run (RedisCluster.step d) q acts = some q' ∧ Refines p' q' := by
  cases a with
  | call a =>
    rcases Pool.step_cases h with ⟨call, rfl, rfl⟩ | ⟨pre, u, post, input, r, u', rfl, hp, hn, rfl⟩
    · exact ⟨[.spawn call], _, rfl, href.shared, href.inbox, href.threads.concat _⟩
    · refine refines_next hn ?_
      rw [← hp]
      exact href
  | listen j e =>
    obtain ⟨r, hr, rfl⟩ := Option.map_eq_some_iff.mp h
    exact refines_listen hr href

/-- Over any run of calls and listeners, whatever connections fail and are lost, the instances have
done what the cluster allows in which every message waits for its listener. -/
theorem run_refines_cluster {keys : RedisKeys} {offsets : String → Option Int64} {sets : RedisSets}
    {acts : List (Act ι σ)} (h : run (step d) ⟨start keys offsets sets, []⟩ acts = some p) :
    ∃ acts q, run (RedisCluster.step d) ⟨.start keys offsets sets, []⟩ acts = some q ∧
      Refines p q :=
  exists_run_of_simulation (fun _ _ _ _ => refines_step) h
    ⟨rfl, fun _ => List.Sublist.refl _, .nil⟩

/-- The listener of the second instance hears one publish, loses the next with its connection,
is away for a third and comes back. -/
def outage : List (Act Bool MpscSink) :=
  let come := List.replicate 3 (Act.listen true .succeed)
  come ++ (RedisCluster.publishCall false "a" "m" 0).map .call ++ [.listen true .turn] ++
    (RedisCluster.publishCall false "a" "n" 1).map .call ++ [.listen true (.lose 0)] ++
    (RedisCluster.publishCall false "a" "o" 2).map .call ++ [.listen true .turn] ++ come

theorem outage_refines_cluster : ∃ p,
    run (step RedisCluster.twoNodes)
      ⟨start (fun _ => none) (fun _ => none) (fun _ => .empty), []⟩ outage = some p ∧
    p.shared.cluster.heard true = [0] ∧
    ∃ acts q, run (RedisCluster.step RedisCluster.twoNodes)
      ⟨.start (fun _ => none) (fun _ => none) (fun _ => .empty), []⟩ acts = some q ∧
      Refines p q := by
  obtain ⟨p, hrun, hheard⟩ : ∃ p, run (step RedisCluster.twoNodes)
      ⟨start (fun _ => none) (fun _ => none) (fun _ => .empty), []⟩ outage = some p ∧
      p.shared.cluster.heard true = [0] := by decide +kernel
  exact ⟨p, hrun, hheard, run_refines_cluster hrun⟩

/-- The calls refine some state of the cluster in which its numbers are traced. -/
def Modelled (d : RedisDeployment ι) (p : Pool (Relay ι σ) (RedisPhase ι σ)) : Prop :=
  ∃ q, Refines p q ∧ RedisCluster.Sent d q

omit [DecidableEq ι] [FanoutSink σ] in
theorem modelled_start (keys : RedisKeys) (offsets : String → Option Int64) (sets : RedisSets) :
    Modelled d (⟨start keys offsets sets, []⟩ : Pool (Relay ι σ) (RedisPhase ι σ)) :=
  ⟨⟨.start keys offsets sets, []⟩, ⟨rfl, fun _ => List.Sublist.refl _, .nil⟩,
    RedisCluster.traced_start keys offsets sets, by simp [RedisCluster.Agree]⟩

theorem modelled_step {a : Act ι σ} (h : step d p a = some p') (hp : Modelled d p) :
    Modelled d p' := by
  obtain ⟨q, href, hsent⟩ := hp
  obtain ⟨acts, q', hrun, href'⟩ := refines_step h href
  exact ⟨q', href', run_invariant (fun _ _ _ => RedisCluster.sent_step) hrun hsent⟩

omit [DecidableEq ι] [FanoutSink σ] in
/-- Two publishes do not share a number. -/
theorem Modelled.own (h : Modelled d p) : p.threads.Pairwise RedisCluster.OwnNumber := by
  obtain ⟨q, href, hsent⟩ := h
  exact hsent.1.own.sublist href.threads.sublist

/-- The publish under the number has returned. -/
def Returned (p : Pool (Relay ι σ) (RedisPhase ι σ)) (n : Nat) : Prop :=
  ∃ u ∈ p.threads, RedisCluster.returned u = some n

omit [DecidableEq ι] [FanoutSink σ] in
theorem returned_split {pre post : List (RedisPhase ι σ)} (hp : p.threads = pre ++ u :: post) :
    Returned p n ↔ RedisCluster.returned u = some n ∨
      ∃ v ∈ pre ++ post, RedisCluster.returned v = some n := by
  rw [Returned, hp]
  exact Pool.exists_mem_split

/-- A publish that has returned takes no step. -/
theorem returned_next (h : next d r u input = some (r', u')) :
    RedisCluster.returned u = none := by
  cases u with
  | published => cases h
  | _ => rfl

theorem returned_step {a : Act ι σ} (h : step d p a = some p') (hn : Returned p n) :
    Returned p' n := by
  cases a with
  | call a =>
    rcases Pool.step_cases h with ⟨call, rfl, rfl⟩ | ⟨pre, u, post, input, r, u', rfl, hp, hu, rfl⟩
    · obtain ⟨u, hu, hn⟩ := hn
      exact ⟨u, List.mem_append_left _ hu, hn⟩
    · rcases (returned_split hp).mp hn with hself | hrest
      · rw [returned_next hu] at hself
        cases hself
      · exact (returned_split rfl).mpr (.inr hrest)
  | listen j e =>
    obtain ⟨r, hr, rfl⟩ := Option.map_eq_some_iff.mp h
    exact hn

omit [DecidableEq ι] [FanoutSink σ] in
/-- A publish that hands over its message is the first to return under its number. -/
theorem Modelled.not_returned {pre post : List (RedisPhase ι σ)} {m : Message} {offset : Int64}
    (h : Modelled d p) (hp : p.threads = pre ++ .announce n m offset :: post) :
    ¬ Returned p n := by
  intro hn
  rcases (returned_split hp).mp hn with hself | ⟨v, hv, hreturned⟩
  · cases hself
  · have hown := h.own
    rw [hp] at hown
    obtain ⟨x, hx⟩ := RedisCluster.route_of_returned hreturned
    obtain ⟨hothers, -⟩ := (Pool.pairwise_split RedisCluster.ownNumber_symm).mp hown
    exact hothers v hv n _ x rfl hx

/-- All that a step can do to the numbers sent to an instance: a publish that has not returned is
added, and has returned then. -/
theorem sent_cases {a : Act ι σ} (h : step d p a = some p') (hm : Modelled d p) (j : ι) :
    p'.shared.sent j = p.shared.sent j ∨
    ∃ n, ¬ Returned p n ∧ Returned p' n ∧ p'.shared.sent j = p.shared.sent j ++ [n] := by
  cases a with
  | call a =>
    rcases Pool.step_cases h with ⟨call, rfl, rfl⟩ | ⟨pre, u, post, input, r, u', rfl, hp, hn, rfl⟩
    · exact .inl rfl
    · cases moves_of_next hn with
      | announce n m offset reached =>
        cases hj : reached j with
        | false => exact .inl (by simp [hj])
        | true =>
          exact .inr ⟨n, hm.not_returned hp, (returned_split rfl).mpr (.inl rfl), by simp [hj]⟩
      | other => exact .inl rfl
  | listen i e =>
    obtain ⟨r, hr, rfl⟩ := Option.map_eq_some_iff.mp h
    cases listens_of_listen hr with
    | move | subscribe | lose | turn => exact .inl rfl

/-- The server sends an instance the message of a publish once, and the publish has returned
then. -/
def SentOnce (p : Pool (Relay ι σ) (RedisPhase ι σ)) : Prop :=
  ∀ j, (p.shared.sent j).Nodup ∧ ∀ n ∈ p.shared.sent j, Returned p n

theorem sentOnce_step {a : Act ι σ} (h : step d p a = some p') (hm : Modelled d p)
    (hp : SentOnce p) : SentOnce p' := by
  intro j
  obtain ⟨hnodup, hreturned⟩ := hp j
  rcases sent_cases h hm j with hsent | ⟨k, hnew, hk, hsent⟩
  · rw [hsent]
    exact ⟨hnodup, fun n hn => returned_step h (hreturned n hn)⟩
  · rw [hsent]
    have hdisjoint : (p.shared.sent j).Disjoint [k] :=
      List.disjoint_singleton.mpr fun hold => hnew (hreturned k hold)
    refine ⟨hnodup.append (List.nodup_singleton k) hdisjoint, ?_⟩
    intro n hn
    rcases List.mem_append.mp hn with hold | hlast
    · exact returned_step h (hreturned n hold)
    · rwa [List.mem_singleton.mp hlast]

/-- What the listener has taken and what is on its way. -/
def arrived (r : Relay ι σ) (j : ι) : List Nat :=
  r.cluster.heard j ++ (r.cluster.inbox j).map Envelope.publish

/-- Nothing is on its way to an instance without a connection. -/
def Quiet (r : Relay ι σ) (j : ι) : Prop :=
  (r.listeners j).phase ≠ .subscribed → (r.listeners j).phase ≠ .ending → r.cluster.inbox j = []

theorem quiet_next (h : next d r u input = some (r', u')) (hq : Quiet r j) : Quiet r' j := by
  cases moves_of_next h with
  | announce n m offset reached hreached =>
    intro hphase hending
    cases hj : reached j with
    | false => simpa [hj] using hq hphase hending
    | true => exact absurd (hreached j hj) hphase
  | other hu hlisten hn =>
    intro hphase hending
    rw [(next_keeps hu hlisten hn).1]
    exact hq hphase hending

theorem carries_next (h : next d r u input = some (r', u')) :
    ∃ new, r'.arrived j = r.arrived j ++ new ∧ r'.sent j = r.sent j ++ new := by
  cases moves_of_next h with
  | announce n m offset reached =>
    refine ⟨if reached j then [n] else [], ?_, rfl⟩
    cases hj : reached j <;> simp [arrived, hj]
  | other hu hlisten hn =>
    obtain ⟨hinbox, hheard⟩ := next_keeps hu hlisten hn
    exact ⟨[], by simp [arrived, hinbox, hheard], by simp⟩

/-- The listener of another instance. -/
theorem listen_of_ne {i : ι} (h : r.listen d i e = some r') (hi : j ≠ i) :
    r'.listeners j = r.listeners j ∧ r'.cluster.inbox j = r.cluster.inbox j ∧
      r'.cluster.heard j = r.cluster.heard j := by
  cases listens_of_listen h with
  | move | subscribe | lose => simp [setListener, setInbox, Function.update_of_ne hi]
  | turn hphase hn =>
    obtain ⟨x, rest, -, rfl, -⟩ := turn_cases hn
    simp [taken, Cluster.hand, Function.update_of_ne hi]

theorem sent_listen (h : r.listen d j e = some r') : r'.sent = r.sent := by
  cases listens_of_listen h with
  | move | subscribe | lose | turn => rfl

theorem quiet_listen {i : ι} (h : r.listen d i e = some r') (hq : Quiet r j) : Quiet r' j := by
  by_cases hi : j = i
  · subst hi
    intro hphase hending
    cases listens_of_listen h with
    | move l hl hold hempty =>
      by_cases hold' : (r.listeners j).phase = .ending
      · exact hempty hold'
      · exact hq hold hold'
    | subscribe => simp [setListener] at hphase
    | lose => simp [setListener] at hending
    | turn hold => exact absurd hold (not_or.mpr ⟨hphase, hending⟩)
  · obtain ⟨hlisteners, hinbox, -⟩ := listen_of_ne h hi
    rw [Quiet, hlisteners, hinbox]
    exact hq

/-- A listener changes what has arrived only when its connection is lost, and then what has arrived
is a first part of it. -/
theorem arrived_listen {i : ι} (h : r.listen d i e = some r') (hq : Quiet r j) :
    r'.arrived j = r.arrived j ∨
      (∃ kept, i = j ∧ e = .lose kept) ∧ r'.arrived j <+: r.arrived j := by
  by_cases hi : j = i
  · subst hi
    cases listens_of_listen h with
    | move => exact .inl rfl
    | subscribe hphase =>
      have hempty := hq (by simp [hphase]) (by simp [hphase])
      left
      simp [arrived, setListener, setInbox, hempty]
    | lose kept =>
      refine .inr ⟨⟨kept, rfl, rfl⟩, ?_⟩
      simp only [arrived, setListener, setInbox, Function.update_self, List.map_take]
      exact (List.prefix_append_right_inj _).mpr (List.take_prefix _ _)
    | turn hphase hn =>
      obtain ⟨x, rest, hinbox, rfl, -⟩ := turn_cases hn
      left
      simp [arrived, taken, hinbox]
  · obtain ⟨-, hinbox, hheard⟩ := listen_of_ne h hi
    left
    rw [arrived, arrived, hinbox, hheard]

/-- All that a step can do to the messages of an instance: some are sent that arrive after the
others, or a connection is lost and only the first still arrive. -/
theorem arrived_step {a : Act ι σ} (h : step d p a = some p') (hq : Quiet p.shared j) :
    (∃ new, p'.shared.arrived j = p.shared.arrived j ++ new ∧
        p'.shared.sent j = p.shared.sent j ++ new) ∨
      (∃ kept, a = .listen j (.lose kept)) ∧ p'.shared.arrived j <+: p.shared.arrived j ∧
        p'.shared.sent j = p.shared.sent j := by
  cases a with
  | call a =>
    left
    rcases Pool.step_cases h with ⟨call, rfl, rfl⟩ | ⟨pre, u, post, input, r, u', rfl, -, hn, rfl⟩
    · exact ⟨[], by simp, by simp⟩
    · exact carries_next hn
  | listen i e =>
    obtain ⟨r, hr, rfl⟩ := Option.map_eq_some_iff.mp h
    have hsent : r.sent j = p.shared.sent j := by rw [sent_listen hr]
    rcases arrived_listen hr hq with hkeep | ⟨⟨kept, rfl, rfl⟩, hfirst⟩
    · exact .inl ⟨[], by simp [hkeep], by simp [hsent]⟩
    · exact .inr ⟨⟨kept, rfl⟩, hfirst, hsent⟩

theorem quiet_step {a : Act ι σ} (h : step d p a = some p') (hq : Quiet p.shared j) :
    Quiet p'.shared j := by
  cases a with
  | call a =>
    rcases Pool.step_cases h with ⟨call, rfl, rfl⟩ | ⟨pre, u, post, input, r, u', rfl, -, hn, rfl⟩
    · exact hq
    · exact quiet_next hn hq
  | listen i e =>
    obtain ⟨r, hr, rfl⟩ := Option.map_eq_some_iff.mp h
    exact quiet_listen hr hq

theorem inOrder_step {a : Act ι σ} (h : step d p a = some p')
    (hp : Quiet p.shared j ∧ (p.shared.arrived j).Sublist (p.shared.sent j)) :
    Quiet p'.shared j ∧ (p'.shared.arrived j).Sublist (p'.shared.sent j) := by
  obtain ⟨hq, horder⟩ := hp
  refine ⟨quiet_step h hq, ?_⟩
  rcases arrived_step h hq with ⟨new, harrived, hsent⟩ | ⟨-, hfirst, hsent⟩
  · rw [harrived, hsent]
    exact horder.append (List.Sublist.refl new)
  · rw [hsent]
    exact hfirst.sublist.trans horder

theorem whole_step {a : Act ι σ} (h : step d p a = some p')
    (hkept : ∀ kept, a ≠ .listen j (.lose kept))
    (hp : Quiet p.shared j ∧ p.shared.arrived j = p.shared.sent j) :
    Quiet p'.shared j ∧ p'.shared.arrived j = p'.shared.sent j := by
  obtain ⟨hq, hwhole⟩ := hp
  refine ⟨quiet_step h hq, ?_⟩
  rcases arrived_step h hq with ⟨new, harrived, hsent⟩ | ⟨⟨kept, rfl⟩, -⟩
  · rw [harrived, hsent, hwhole]
  · exact absurd rfl (hkept kept)

/-- A message that has not arrived when its publish has returned does not arrive any more. -/
theorem missed_step {a : Act ι σ} (h : step d p a = some p') (hm : Modelled d p)
    (hq : Quiet p.shared j) (hn : Returned p n) (hmissed : n ∉ p.shared.arrived j) :
    n ∉ p'.shared.arrived j := by
  rcases arrived_step h hq with ⟨new, harrived, hsent⟩ | ⟨-, hfirst, -⟩
  · rw [harrived]
    intro hmem
    rcases List.mem_append.mp hmem with hold | hnew
    · exact hmissed hold
    -- a number that is sent now is of a publish that had not returned
    · rcases sent_cases h hm j with hsame | ⟨k, hk, -, hlast⟩
      · rw [List.append_right_eq_self.mp (hsent.symm.trans hsame)] at hnew
        cases hnew
      · rw [List.append_cancel_left (hsent.symm.trans hlast), List.mem_singleton] at hnew
        exact hk (hnew ▸ hn)
  · exact fun hmem => hmissed (hfirst.subset hmem)

/-- Over any run, a listener takes the messages the server sent to its instance, each once and in
their order. While no connection is lost, none is left out. One that has not arrived when its
publish has returned is never taken: nothing is sent again. -/
theorem listener_takes_what_was_sent {keys : RedisKeys} {offsets : String → Option Int64}
    {sets : RedisSets} {acts : List (Act ι σ)}
    (h : run (step d) ⟨start keys offsets sets, []⟩ acts = some p) (j : ι) :
    (p.shared.sent j).Nodup ∧ (p.shared.arrived j).Sublist (p.shared.sent j) ∧
      ((∀ kept, .listen j (.lose kept) ∉ acts) → p.shared.arrived j = p.shared.sent j) ∧
      ∀ n, Returned p n → n ∉ p.shared.arrived j → ∀ later p',
        run (step d) p later = some p' → n ∉ p'.shared.cluster.heard j := by
  have hquiet : Quiet (start keys offsets sets : Relay ι σ) j := fun _ _ => rfl
  obtain ⟨hm, honce⟩ := run_invariant (P := fun p => Modelled d p ∧ SentOnce p)
    (fun _ _ _ hstep hp => ⟨modelled_step hstep hp.1, sentOnce_step hstep hp.1 hp.2⟩) h
    ⟨modelled_start keys offsets sets, fun _ => ⟨List.nodup_nil, nofun⟩⟩
  obtain ⟨hq, horder⟩ := run_invariant
    (P := fun p => Quiet p.shared j ∧ (p.shared.arrived j).Sublist (p.shared.sent j))
    (fun _ _ _ => inOrder_step) h ⟨hquiet, List.Sublist.refl _⟩
  refine ⟨(honce j).1, horder, fun hkept => ?_, fun n hn hmissed later p' hrun => ?_⟩
  · have hguard : Guarded (step d) (fun _ a => ∀ kept, a ≠ .listen j (.lose kept))
        ⟨start keys offsets sets, []⟩ acts :=
      guarded_of_forall_mem fun a ha kept hlose => hkept kept (hlose ▸ ha)
    exact (run_invariant_of_guarded
      (P := fun p => Quiet p.shared j ∧ p.shared.arrived j = p.shared.sent j)
      (fun _ _ _ => whole_step) hguard h ⟨hquiet, rfl⟩).2
  · have hlater := run_invariant (P := fun p => Modelled d p ∧ Quiet p.shared j ∧ Returned p n ∧
        n ∉ p.shared.arrived j)
      (fun _ _ _ hstep hp => ⟨modelled_step hstep hp.1, quiet_step hstep hp.2.1,
        returned_step hstep hp.2.2.1, missed_step hstep hp.1 hp.2.1 hp.2.2.1 hp.2.2.2⟩)
      hrun ⟨hm, hq, hn, hmissed⟩
    exact fun hheard => hlater.2.2.2 (List.mem_append_left _ hheard)

/-- The third publish is not sent, the second is sent and lost, and neither is ever taken. -/
theorem outage_is_not_made_up_for : ∃ p,
    run (step RedisCluster.twoNodes)
      ⟨start (fun _ => none) (fun _ => none) (fun _ => .empty), []⟩ outage = some p ∧
    p.shared.sent true = [0, 1] ∧ p.shared.arrived true = [0] ∧
    ∀ later p', run (step RedisCluster.twoNodes) p later = some p' →
      1 ∉ p'.shared.cluster.heard true ∧ 2 ∉ p'.shared.cluster.heard true := by
  obtain ⟨p, hrun, hsent, harrived, hreturned⟩ : ∃ p, run (step RedisCluster.twoNodes)
      ⟨start (fun _ => none) (fun _ => none) (fun _ => .empty), []⟩ outage = some p ∧
      p.shared.sent true = [0, 1] ∧ p.shared.arrived true = [0] ∧
      p.threads.map RedisCluster.returned = [some 0, some 1, some 2] := by decide +kernel
  have hback {n : Nat} (hn : some n ∈ p.threads.map RedisCluster.returned) : Returned p n :=
    List.mem_map.mp hn
  obtain ⟨-, -, -, hnever⟩ := listener_takes_what_was_sent hrun true
  refine ⟨p, hrun, hsent, harrived, fun later p' hlater => ⟨?_, ?_⟩⟩
  · exact hnever 1 (hback (by simp [hreturned])) (by simp [harrived]) later p' hlater
  · exact hnever 2 (hback (by simp [hreturned])) (by simp [harrived]) later p' hlater

end Relay

end Rifts
