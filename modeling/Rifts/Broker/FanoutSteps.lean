import Rifts.Broker.FanoutIndex
import Rifts.Transition.Pool

/-! The calls of the fanout engine, cut at every access to one of its maps. -/
namespace Rifts

/-- An unsubscribe that has taken its subscription out of `byId`. The ids after it
and the subscriptions taken so far are those of the `drop_sink` it is part of. -/
structure Removal (σ : Type) where
  id : UInt64
  topic : String
  sink : σ
  rest : List UInt64
  taken : List (UInt64 × String)

/-- Where a call stands; each phase names the access it makes next. -/
inductive FanoutPhase (σ : Type)
  | draw (topic : String) (sink : σ)
  | pushTopic (id : UInt64) (topic : String) (sink : σ)
  | insertId (id : UInt64) (topic : String) (sink : σ)
  | pushSink (id : UInt64) (topic : String) (sink : σ)
  | subscribed (id : UInt64) (topic : String) (sink : σ)
  | collect (sinkId : UInt64)
  | removeId (ids : List UInt64) (taken : List (UInt64 × String))
  | retainTopic (r : Removal σ)
  | removeTopic (r : Removal σ)
  | retainSink (r : Removal σ)
  | removeSink (r : Removal σ)
  | removed (taken : List (UInt64 × String))

/-- A call, with the subscription ids it is out to remove. -/
structure FanoutThread (σ : Type) where
  targets : List UInt64
  phase : FanoutPhase σ

namespace FanoutThread

variable {σ : Type} [FanoutSink σ]

omit [FanoutSink σ] in
def start : FanoutOp σ → FanoutThread σ
  | .subscribe topic _ sink => ⟨[], .draw topic sink⟩
  | .unsubscribe id => ⟨[id], .removeId [id] []⟩
  | .dropSink sinkId => ⟨[], .collect sinkId⟩

omit [FanoutSink σ] in
def goto (th : FanoutThread σ) (phase : FanoutPhase σ) : FanoutThread σ := { th with phase }

/-- One access. The emptiness test is made under the guard that filtered the list;
the key of an emptied list is removed only after the guard is gone. -/
def next (e : FanoutEngine σ) (th : FanoutThread σ) (_ : Unit) :
    Option (FanoutEngine σ × FanoutThread σ) :=
  match th.phase with
  | .draw topic sink =>
    some ({ e with seq := e.seq + 1 }, th.goto (.pushTopic (e.seq + 1) topic sink))
  | .pushTopic id topic sink =>
    some ({ e with byTopic := KeyedLists.push e.byTopic topic (id, sink) },
      th.goto (.insertId id topic sink))
  | .insertId id topic sink =>
    some ({ e with byId := Function.update e.byId id (some (topic, sink)) },
      th.goto (.pushSink id topic sink))
  | .pushSink id topic sink =>
    some ({ e with bySink := KeyedLists.push e.bySink (FanoutSink.id sink) id },
      th.goto (.subscribed id topic sink))
  | .subscribed .. => none
  | .collect sinkId =>
    some (e, ⟨th.targets ++ e.held sinkId, .removeId (e.held sinkId) []⟩)
  | .removeId [] taken => some (e, th.goto (.removed taken))
  | .removeId (id :: rest) taken =>
    match e.byId id with
    | none => some (e, th.goto (.removeId rest taken))
    | some (topic, sink) =>
      some ({ e with byId := Function.update e.byId id none },
        th.goto (.retainTopic ⟨id, topic, sink, rest, taken⟩))
  | .retainTopic r =>
    let byTopic := KeyedLists.thin e.byTopic r.topic fun entry => entry.1 != r.id
    some ({ e with byTopic },
      th.goto (if KeyedLists.emptied byTopic r.topic then .removeTopic r else .retainSink r))
  | .removeTopic r =>
    some ({ e with byTopic := KeyedLists.drop e.byTopic r.topic }, th.goto (.retainSink r))
  | .retainSink r =>
    let bySink := KeyedLists.thin e.bySink (FanoutSink.id r.sink) fun sid => sid != r.id
    some ({ e with bySink },
      th.goto (if KeyedLists.emptied bySink (FanoutSink.id r.sink) then .removeSink r
        else .removeId r.rest (r.taken ++ [(r.id, r.topic)])))
  | .removeSink r =>
    some ({ e with bySink := KeyedLists.drop e.bySink (FanoutSink.id r.sink) },
      th.goto (.removeId r.rest (r.taken ++ [(r.id, r.topic)])))
  | .removed _ => none

def program : Transition.Program (FanoutEngine σ) (FanoutThread σ) (FanoutOp σ) Unit :=
  ⟨start, next⟩

/-- `next`, one rule an access. -/
inductive Access : FanoutEngine σ → FanoutThread σ → FanoutEngine σ → FanoutThread σ → Prop
  | draw {e ts} (topic sink) : Access e ⟨ts, .draw topic sink⟩ { e with seq := e.seq + 1 }
      ⟨ts, .pushTopic (e.seq + 1) topic sink⟩
  | pushTopic {e ts} (id topic sink) : Access e ⟨ts, .pushTopic id topic sink⟩
      { e with byTopic := KeyedLists.push e.byTopic topic (id, sink) }
      ⟨ts, .insertId id topic sink⟩
  | insertId {e ts} (id topic sink) : Access e ⟨ts, .insertId id topic sink⟩
      { e with byId := Function.update e.byId id (some (topic, sink)) }
      ⟨ts, .pushSink id topic sink⟩
  | pushSink {e ts} (id topic sink) : Access e ⟨ts, .pushSink id topic sink⟩
      { e with bySink := KeyedLists.push e.bySink (FanoutSink.id sink) id }
      ⟨ts, .subscribed id topic sink⟩
  | collect {e ts} (k) : Access e ⟨ts, .collect k⟩ e ⟨ts ++ e.held k, .removeId (e.held k) []⟩
  | finish {e ts} (taken) : Access e ⟨ts, .removeId [] taken⟩ e ⟨ts, .removed taken⟩
  | skip {e ts} (id rest taken) (h : e.byId id = none) :
      Access e ⟨ts, .removeId (id :: rest) taken⟩ e ⟨ts, .removeId rest taken⟩
  | take {e ts} (id rest taken topic sink) (h : e.byId id = some (topic, sink)) :
      Access e ⟨ts, .removeId (id :: rest) taken⟩
        { e with byId := Function.update e.byId id none }
        ⟨ts, .retainTopic ⟨id, topic, sink, rest, taken⟩⟩
  | retainTopic {e ts p} (r) (hp : p = .removeTopic r ∨ p = .retainSink r) :
      Access e ⟨ts, .retainTopic r⟩
        { e with byTopic := KeyedLists.thin e.byTopic r.topic fun entry => entry.1 != r.id } ⟨ts, p⟩
  | removeTopic {e ts} (r) : Access e ⟨ts, .removeTopic r⟩
      { e with byTopic := KeyedLists.drop e.byTopic r.topic } ⟨ts, .retainSink r⟩
  | retainSink {e ts p} (r : Removal σ)
      (hp : p = .removeSink r ∨ p = .removeId r.rest (r.taken ++ [(r.id, r.topic)])) :
      Access e ⟨ts, .retainSink r⟩
        { e with bySink := KeyedLists.thin e.bySink (FanoutSink.id r.sink) fun sid => sid != r.id }
        ⟨ts, p⟩
  | removeSink {e ts} (r : Removal σ) : Access e ⟨ts, .removeSink r⟩
      { e with bySink := KeyedLists.drop e.bySink (FanoutSink.id r.sink) }
      ⟨ts, .removeId r.rest (r.taken ++ [(r.id, r.topic)])⟩

variable {e e' : FanoutEngine σ} {th th' : FanoutThread σ}

theorem access_of_next (h : next e th () = some (e', th')) : Access e th e' th' := by
  obtain ⟨ts, phase⟩ := th
  cases phase with
  | draw topic sink => cases h; exact .draw topic sink
  | pushTopic id topic sink => cases h; exact .pushTopic id topic sink
  | insertId id topic sink => cases h; exact .insertId id topic sink
  | pushSink id topic sink => cases h; exact .pushSink id topic sink
  | subscribed => cases h
  | collect k => cases h; exact .collect k
  | removeId ids taken =>
    cases ids with
    | nil => cases h; exact .finish taken
    | cons id rest =>
      simp only [next] at h
      split at h
      · next hid => cases h; exact .skip id rest taken hid
      · next topic sink hid => cases h; exact .take id rest taken topic sink hid
  | retainTopic r =>
    simp only [next] at h
    split at h
    · cases h; exact .retainTopic r (.inl rfl)
    · cases h; exact .retainTopic r (.inr rfl)
  | removeTopic r => cases h; exact .removeTopic r
  | retainSink r =>
    simp only [next] at h
    split at h
    · cases h; exact .retainSink r (.inl rfl)
    · cases h; exact .retainSink r (.inr rfl)
  | removeSink r => cases h; exact .removeSink r
  | removed => cases h

omit [FanoutSink σ] in
/-- A removal is for one of the ids the call is out to remove. -/
def Aimed (th : FanoutThread σ) : Prop :=
  match th.phase with
  | .removeId ids _ => ids ⊆ th.targets
  | .retainTopic r | .removeTopic r | .retainSink r | .removeSink r =>
    r.id :: r.rest ⊆ th.targets
  | _ => True

omit [FanoutSink σ] in
theorem aimed_start {op : FanoutOp σ} : (start op).Aimed := by
  cases op with
  | subscribe => trivial
  | unsubscribe id => exact List.Subset.refl _
  | dropSink k => trivial

theorem aimed_access (h : Access e th e' th') (ha : th.Aimed) : th'.Aimed := by
  cases h with
  | draw | pushTopic | insertId | pushSink | finish => trivial
  | collect k => exact List.subset_append_right _ _
  | skip id rest taken => exact fun x hx => ha (List.mem_cons_of_mem id hx)
  | take => exact ha
  | retainTopic r hp => rcases hp with rfl | rfl <;> exact ha
  | removeTopic r => exact ha
  | retainSink r hp =>
    rcases hp with rfl | rfl
    · exact ha
    · exact fun x hx => ha (List.mem_cons_of_mem r.id hx)
  | removeSink r => exact fun x hx => ha (List.mem_cons_of_mem r.id hx)

theorem targets_access (h : Access e th e' th') : th.targets ⊆ th'.targets := by
  cases h with
  | collect k => exact List.subset_append_left _ _
  | _ => exact List.Subset.refl _

/-- Only ids the call is out to remove leave a topic's list, unless its key goes. -/
theorem mem_subscribers_access {topic : String} {entry : UInt64 × σ} (h : Access e th e' th')
    (ha : th.Aimed) (hm : entry ∈ e.subscribers topic) :
    entry ∈ e'.subscribers topic ∨ entry.1 ∈ th.targets ∨
      ∃ r, th.phase = .removeTopic r ∧ r.topic = topic := by
  cases h with
  | pushTopic id topic sink => exact .inl (KeyedLists.mem_listed_push hm)
  | retainTopic r hp =>
    by_cases hid : entry.1 = r.id
    · exact .inr (.inl (hid ▸ ha List.mem_cons_self))
    · exact .inl (KeyedLists.mem_listed_thin hm (by simpa using hid))
  | removeTopic r =>
    by_cases ht : topic = r.topic
    · exact .inr (.inr ⟨r, rfl, ht.symm⟩)
    · left
      change entry ∈ KeyedLists.listed (KeyedLists.drop e.byTopic r.topic) topic
      rw [KeyedLists.listed_drop_of_ne ht]
      exact hm
  | _ => exact .inl hm

theorem mem_held_access {k id : UInt64} (h : Access e th e' th') (ha : th.Aimed)
    (hm : id ∈ e.held k) : id ∈ e'.held k ∨ id ∈ th.targets ∨
      ∃ r, th.phase = .removeSink r ∧ FanoutSink.id r.sink = k := by
  cases h with
  | pushSink id topic sink => exact .inl (KeyedLists.mem_listed_push hm)
  | retainSink r hp =>
    by_cases hid : id = r.id
    · exact .inr (.inl (hid ▸ ha List.mem_cons_self))
    · exact .inl (KeyedLists.mem_listed_thin hm (by simpa using hid))
  | removeSink r =>
    by_cases hk : k = FanoutSink.id r.sink
    · exact .inr (.inr ⟨r, rfl, hk.symm⟩)
    · left
      rw [FanoutEngine.held, KeyedLists.listed_drop_of_ne hk]
      exact hm
  | _ => exact .inl hm

section Solo

open Transition Pool

/-- The accesses of one removal, in one go, are an `unsubscribe`. -/
theorem solo_take {id : UInt64} {topic : String} {sink : σ} (ts rest : List UInt64)
    (taken : List (UInt64 × String)) (h : e.byId id = some (topic, sink)) :
    ∃ inputs, run (solo program) (e, ⟨ts, .removeId (id :: rest) taken⟩) inputs =
      some ((e.unsubscribe id).1, ⟨ts, .removeId rest (taken ++ [(id, topic)])⟩) := by
  have hun : (e.unsubscribe id).1 =
      { e with
        byTopic := KeyedLists.retain e.byTopic topic fun entry => entry.1 != id
        byId := Function.update e.byId id none
        bySink := KeyedLists.retain e.bySink (FanoutSink.id sink) fun sid => sid != id } := by
    simp only [FanoutEngine.unsubscribe, h]
  rw [hun, KeyedLists.retain_eq, KeyedLists.retain_eq]
  by_cases ht : KeyedLists.emptied (KeyedLists.thin e.byTopic topic fun entry => entry.1 != id)
      topic <;>
    by_cases hk : KeyedLists.emptied (KeyedLists.thin e.bySink (FanoutSink.id sink)
      fun sid => sid != id) (FanoutSink.id sink)
  · exact ⟨[(), (), (), (), ()], by simp [run, solo, program, next, goto, h, ht, hk]⟩
  · exact ⟨[(), (), (), ()], by simp [run, solo, program, next, goto, h, ht, hk]⟩
  · exact ⟨[(), (), (), ()], by simp [run, solo, program, next, goto, h, ht, hk]⟩
  · exact ⟨[(), (), ()], by simp [run, solo, program, next, goto, h, ht, hk]⟩

theorem solo_removeId (e : FanoutEngine σ) (ts ids : List UInt64)
    (taken : List (UInt64 × String)) :
    ∃ inputs taken', run (solo program) (e, ⟨ts, .removeId ids taken⟩) inputs =
      some ((e.removeAll ids (taken.map Prod.snd)).1, ⟨ts, .removed taken'⟩) ∧
      taken'.map Prod.snd = (e.removeAll ids (taken.map Prod.snd)).2 := by
  induction ids generalizing e taken with
  | nil => exact ⟨[()], taken, rfl, rfl⟩
  | cons id ids ih =>
    cases h : e.byId id with
    | none =>
      obtain ⟨inputs, taken', hrun, htopics⟩ := ih e taken
      rw [FanoutEngine.removeAll_unknown h]
      refine ⟨() :: inputs, taken', ?_, htopics⟩
      refine run_cons_iff.mpr ⟨(e, ⟨ts, .removeId ids taken⟩), ?_, hrun⟩
      simp [solo, program, next, goto, h]
    | some entry =>
      obtain ⟨topic, sink⟩ := entry
      obtain ⟨first, hfirst⟩ := solo_take ts ids taken h
      obtain ⟨inputs, taken', hrun, htopics⟩ := ih (e.unsubscribe id).1 (taken ++ [(id, topic)])
      rw [FanoutEngine.removeAll_known h]
      rw [List.map_append] at hrun htopics
      exact ⟨first ++ inputs, taken', (run_append hfirst).trans hrun, htopics⟩

theorem removeAll_singleton (e : FanoutEngine σ) (id : UInt64) :
    e.removeAll [id] [] = ((e.unsubscribe id).1, (e.unsubscribe id).2.toList) := by
  cases h : e.byId id with
  | none =>
    rw [FanoutEngine.removeAll_unknown h, FanoutEngine.unsubscribe_unknown h]
    rfl
  | some entry =>
    rw [FanoutEngine.removeAll_known h]
    simp only [FanoutEngine.unsubscribe, h]
    rfl

/-- A call that no other call interrupts does what the engine's call does. -/
theorem solo_exec (e : FanoutEngine σ) (op : FanoutOp σ) :
    ∃ inputs th, run (solo program) (e, start op) inputs = some (e.exec op, th) ∧
      next (e.exec op) th () = none := by
  cases op with
  | subscribe topic intent sink => exact ⟨[(), (), (), ()], _, rfl, rfl⟩
  | unsubscribe id =>
    obtain ⟨inputs, taken, hrun, -⟩ := solo_removeId e [id] [id] []
    rw [List.map_nil, removeAll_singleton] at hrun
    exact ⟨inputs, _, hrun, rfl⟩
  | dropSink k =>
    obtain ⟨inputs, taken, hrun, -⟩ := solo_removeId e (e.held k) (e.held k) []
    exact ⟨() :: inputs, _, run_cons_iff.mpr ⟨_, rfl, hrun⟩, rfl⟩

end Solo

end FanoutThread

end Rifts
