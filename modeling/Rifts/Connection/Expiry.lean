import Rifts.Connection.Server
import Rifts.Session.Offsets

/-! Sweeps of `expire_sessions` next to the connections that use the sessions. -/
namespace Rifts

open Transition

/-- The time since `last_active`, zero if the clock reads less. The difference wraps. -/
def Session.idle (s : Session) (now : Int64) : Duration :=
  .ofMillis (now - s.lastActive.toInt64).toNatClampNeg

/-- What a sweep collects. -/
def Session.expired (s : Session) (timeout : Duration) (now : Int64) : Bool :=
  match s.state with
  | .closed | .draining => true
  | _ => timeout.nanos < (s.idle now).nanos

/-- The entries of the map, which an iteration yields in some order. -/
def SessionStore.entries (st : SessionStore) : List (String × Nat) :=
  ((List.range st.next).map fun r => ((st.heap r).id, r)).filter fun e => st.get e.1 = some e.2

/-- The offsets of each session by topic. -/
abbrev OffsetTracker := String → String → Option Int64

def OffsetTracker.forget (o : OffsetTracker) (sid : String) : OffsetTracker :=
  Function.update o sid fun _ => none

/-- A sweep sees the tracker through its `get`. -/
theorem SessionOffsets.get_forget (t : SessionOffsets) (sid : String) :
    (t.forget sid).get = OffsetTracker.forget t.get sid := by
  funext s topic
  by_cases hs : s = sid
  · subst hs
    simp [SessionOffsets.forget, SessionOffsets.get, OffsetTracker.forget]
  · simp [SessionOffsets.forget, SessionOffsets.get, OffsetTracker.forget, hs]

/-- A call of `expire_sessions`: it goes over the entries under the read lock, and then removes
what it has collected. A removal first forgets the offsets, then takes the entry out. -/
inductive Sweep
  | scanning (entries : List (String × Nat)) (expired : List String)
  | removing (expired : List String) (count : Nat)
  | forgotten (sid : String) (expired : List String) (count : Nat)
  | returned (count : Nat)
  deriving DecidableEq, Repr

namespace Sweep

/-- The entries still to be looked at. -/
def entries : Sweep → List (String × Nat)
  | scanning entries _ => entries
  | _ => []

/-- The ids that were collected and are still to be removed. -/
def pending : Sweep → List String
  | scanning _ expired | removing expired _ => expired
  | forgotten sid expired _ => sid :: expired
  | returned _ => []

/-- Has the read lock. -/
def reads : Sweep → Bool
  | scanning .. => true
  | _ => false

end Sweep

/-- A server with its offsets and the sweeps that were started, and what `now_ms` returns. -/
structure Maintenance where
  server : Server
  offsets : OffsetTracker
  now : Int64
  sweeps : List Sweep

/-- `now_ms` is not negative, or the least number if the clock is before the Unix epoch. -/
def Readable (now : Int64) : Prop := 0 ≤ now ∨ now = Int64.minValue

instance : DecidablePred Readable := fun _ => inferInstanceAs (Decidable (_ ∨ _))

namespace Maintenance

inductive Act
  | connect (i : Nat) (env : Env)
  | advance (i : Nat)
  | frame (i : Nat)
  | finish (i : Nat) (res : Except RiftError Unit)
  | tick (now : Int64)
  | expire (entries : List (String × Nat))
  | sweep (k : Nat)

def locked (m : Maintenance) : Bool := m.sweeps.any Sweep.reads

/-- The id under which the next step of a connection inserts a session. -/
def inserting (m : Maintenance) (i : Nat) : Option String :=
  match m.server.conns i with
  | some ⟨env, .lookup adm⟩ => if adm.hello.sessionId = none then some env.newId else none
  | _ => none

/-- The connection reads the clock now. -/
def stamp (m : Maintenance) (i : Nat) : Server :=
  ⟨m.server.store, Function.update m.server.conns i
    ((m.server.conns i).map fun c => ⟨{ c.env with now := m.now }, c.phase⟩)⟩

/-- `insert` forgets the offsets of a session that it replaces. -/
def offsetsAfter (m : Maintenance) (i : Nat) : OffsetTracker :=
  match m.inserting i with
  | some sid => if (m.server.store.get sid).isSome then m.offsets.forget sid else m.offsets
  | none => m.offsets

end Maintenance

/-- One step of a sweep. The entry is taken out under the write lock. -/
def Sweep.next (timeout : Duration) (m : Maintenance) : Sweep → Option (Maintenance × Sweep)
  | scanning [] expired => some (m, removing expired expired.length)
  | scanning ((sid, r) :: entries) expired =>
    if (m.server.store.heap r).expired timeout m.now then
      some (m, scanning entries (expired ++ [sid]))
    else some (m, scanning entries expired)
  | removing [] count => some (m, returned count)
  | removing (sid :: expired) count =>
    some ({ m with offsets := m.offsets.forget sid }, forgotten sid expired count)
  | forgotten sid expired count =>
    if m.locked then none
    else some ({ m with server := { m.server with store := m.server.store.remove sid } },
      removing expired count)
  | returned _ => none

namespace Maintenance

/-- Inserting a session takes the write lock, all else that a connection does to the store goes
on during a scan. -/
def step (J : SerdeJson) (cfg : ServerConfig) (timeout : Duration) (m : Maintenance) :
    Act → Option Maintenance
  | .connect i env =>
    (Server.step J cfg m.server (.connect i env)).map fun srv => { m with server := srv }
  | .advance i =>
    if (m.inserting i).isSome && m.locked then none
    else (Server.step J cfg (m.stamp i) (.advance i)).map fun srv =>
      { m with server := srv, offsets := m.offsetsAfter i }
  | .frame i =>
    (Server.step J cfg m.server (.frame i m.now)).map fun srv => { m with server := srv }
  | .finish i res =>
    (Server.step J cfg m.server (.finish i res)).map fun srv => { m with server := srv }
  | .tick now => if Readable now then some { m with now := now } else none
  | .expire entries =>
    if entries.Perm m.server.store.entries then
      some { m with sweeps := m.sweeps ++ [.scanning entries []] }
    else none
  | .sweep k =>
    (m.sweeps[k]?).bind fun w => (w.next timeout m).map fun x =>
      { x.1 with sweeps := m.sweeps.set k x.2 }

/-- `remove`. -/
def remove (m : Maintenance) (sid : String) : Maintenance :=
  { m with
    server := ⟨m.server.store.remove sid, m.server.conns⟩
    offsets := m.offsets.forget sid }

/-- What a scan collects when nothing happens meanwhile. -/
def collected (timeout : Duration) (m : Maintenance) (entries : List (String × Nat)) :
    List String :=
  (entries.filter fun e => (m.server.store.heap e.2).expired timeout m.now).map Prod.fst

/-- `expire_sessions` over the entries in the order of an iteration. -/
def expireSessions (timeout : Duration) (m : Maintenance) (entries : List (String × Nat)) :
    Maintenance × Nat :=
  ((collected timeout m entries).foldl remove m, (collected timeout m entries).length)

/-- Active for a live connection, and not idle for longer than the timeout. -/
def InUse (timeout : Duration) (m : Maintenance) (sid : String) : Prop :=
  ∃ r i env adm, m.server.store.get sid = some r ∧ (m.server.store.heap r).state = .active ∧
    m.server.conns i = some ⟨env, .active adm r⟩ ∧
    ((m.server.store.heap r).idle m.now).nanos ≤ timeout.nanos

/-- A step of a sweep leaves every session in use in the store, and its offsets. -/
def Spares (J : SerdeJson) (cfg : ServerConfig) (timeout : Duration) (m : Maintenance) :
    Act → Prop
  | .sweep k => ∀ m', step J cfg timeout m (.sweep k) = some m' → ∀ sid, InUse timeout m sid →
      m'.server.store.get sid = m.server.store.get sid ∧ m'.offsets sid = m.offsets sid
  | _ => True

/-- The session object that a step sets Active or touches. -/
def wakes (m : Maintenance) : Act → Option Nat
  | .advance i =>
    match m.server.conns i with
    | some ⟨_, .setActive _ r _⟩ => some r
    | _ => none
  | .frame i =>
    match m.server.conns i with
    | some ⟨_, .active _ r⟩ => some r
    | _ => none
  | _ => none

/-- No stored session is set Active or touched after a sweep has collected its id and before it
has removed it, and the clock is not set back meanwhile. -/
def unpended (m : Maintenance) : Act → Prop
  | .tick now => (∃ w ∈ m.sweeps, w.pending ≠ []) → 0 ≤ m.now ∧ m.now ≤ now
  | a => ∀ r ∈ m.wakes a, ∀ w ∈ m.sweeps, ∀ sid ∈ w.pending, m.server.store.get sid ≠ some r

instance (m : Maintenance) : DecidablePred m.unpended
  | .tick now => inferInstanceAs (Decidable
      ((∃ w ∈ m.sweeps, w.pending ≠ []) → 0 ≤ m.now ∧ m.now ≤ now))
  | .connect .. | .advance _ | .frame _ | .finish .. | .expire _ | .sweep _ =>
    inferInstanceAs (Decidable (∀ r ∈ m.wakes _, ∀ w ∈ m.sweeps, ∀ sid ∈ w.pending,
      m.server.store.get sid ≠ some r))

end Maintenance

namespace SessionStore

variable {st : SessionStore} {sid : String} {r : Nat}

theorem mem_entries : (sid, r) ∈ st.entries ↔ st.get sid = some r := by
  simp only [entries, List.mem_filter, List.mem_map, List.mem_range, decide_eq_true_eq]
  constructor
  · exact fun h => h.2
  · intro h
    obtain ⟨hlt, hid⟩ := st.bound sid r h
    exact ⟨⟨r, hlt, by rw [hid]⟩, h⟩

end SessionStore

/-- While the clock is not set back, a session's idle time grows. -/
theorem Session.idle_mono {s : Session} {now now' : Int64} (hs : Readable s.lastActive.toInt64)
    (h0 : 0 ≤ now) (h : now ≤ now') : (s.idle now).nanos ≤ (s.idle now').nanos := by
  refine Nat.mul_le_mul_right _ ?_
  simp only [Int64.toNatClampNeg, Int64.toInt_sub, Int.bmod_def]
  rw [Int64.le_iff_toInt_le] at h0 h
  have hzero : (0 : Int64).toInt = 0 := rfl
  have hnow := Int64.toInt_lt now'
  rcases hs with hs | hs
  · rw [Int64.le_iff_toInt_le] at hs
    have hlast := Int64.toInt_lt s.lastActive.toInt64
    omega
  · have hmin : s.lastActive.toInt64.toInt = -2 ^ 63 := by rw [hs, Int64.toInt_minValue]
    omega

/-- Everything a connection can do to the store. It inserts only while nobody has the read lock,
and sets Active or touches only what it wakes. -/
inductive Effect (now : Int64) (locked : Prop) (wakes : Nat → Prop) (st : SessionStore) :
    SessionStore → Prop
  | same : Effect now locked wakes st st
  | insert (id clientId : String) (h : ¬ locked) :
      Effect now locked wakes st (st.insert (.new id clientId now))
  | bumpEpoch (r : Nat) : Effect now locked wakes st (st.bumpEpoch r)
  | setState (r : Nat) (state : SessionState) (h : state = .active → wakes r) :
      Effect now locked wakes st (st.setState r state now)
  | touch (r : Nat) (h : wakes r) : Effect now locked wakes st (st.touch r now)

/-- The session under an id, if it is Active, is idle for longer than the timeout. -/
def Spent (timeout : Duration) (st : SessionStore) (now : Int64) (sid : String) : Prop :=
  ∀ r, st.get sid = some r → (st.heap r).state = .active →
    timeout.nanos < ((st.heap r).idle now).nanos

namespace Effect

variable {now : Int64} {locked : Prop} {wakes : Nat → Prop} {st st' : SessionStore}
  {timeout : Duration} {sid : String}

theorem get_eq (h : Effect now locked wakes st st') (hl : locked) : st'.get = st.get := by
  cases h with
  | insert id clientId hfree => exact absurd hl hfree
  | _ => rfl

theorem stamps (h : Effect now locked wakes st st') (hnow : Readable now)
    (hs : ∀ r, Readable (st.heap r).lastActive.toInt64) (r : Nat) :
    Readable (st'.heap r).lastActive.toInt64 := by
  have hset : ∀ {q : Nat} {s : Session}, Readable s.lastActive.toInt64 →
      Readable (Function.update st.heap q s r).lastActive.toInt64 := by
    intro q s hq
    by_cases hr : r = q
    · rw [hr, Function.update_self]
      exact hq
    · rw [Function.update_of_ne hr]
      exact hs r
  cases h with
  | same => exact hs r
  | insert id clientId => exact hset hnow
  | bumpEpoch q => exact hset (hs q)
  | setState q state => exact hset hnow
  | touch q => exact hset hnow

/-- What is not woken stays as it is, or is not Active. -/
theorem spent (h : Effect now locked wakes st st') (hw : ∀ r, wakes r → st.get sid ≠ some r)
    (hs : Spent timeout st now sid) : Spent timeout st' now sid := by
  intro r hget hactive
  cases h with
  | same => exact hs r hget hactive
  | insert id clientId =>
    by_cases hr : r = st.next
    · subst hr
      simp [Session.new] at hactive
    · have hold : st.get sid = some r := by
        by_cases hid : sid = id
        · subst hid
          simp [SessionStore.get, SessionStore.insert, Session.new, Ne.symm hr] at hget
        · simpa [SessionStore.get, SessionStore.insert, Session.new, hid] using hget
      rw [SessionStore.heap_insert_of_ne hr] at hactive ⊢
      exact hs r hold hactive
  | bumpEpoch q =>
    by_cases hr : r = q
    · subst hr
      rw [SessionStore.heap_bumpEpoch_self] at hactive ⊢
      exact hs r hget hactive
    · rw [SessionStore.heap_bumpEpoch_of_ne hr] at hactive ⊢
      exact hs r hget hactive
  | setState q state hwake =>
    by_cases hr : r = q
    · subst hr
      rw [SessionStore.state_setState_self] at hactive
      exact absurd hget (hw r (hwake hactive))
    · rw [SessionStore.heap_setState_of_ne hr] at hactive ⊢
      exact hs r hget hactive
  | touch q hwake =>
    have hr : r ≠ q := by
      rintro rfl
      exact hw r hwake hget
    simp only [SessionStore.touch, SessionStore.modify, Function.update_of_ne hr] at hactive ⊢
    exact hs r hget hactive

end Effect

/-- An entry that is taken out leaves the other sessions as they were. -/
theorem Spent.remove {timeout : Duration} {st : SessionStore} {now : Int64} {sid sid' : String}
    (h : Spent timeout st now sid) : Spent timeout (st.remove sid') now sid := by
  intro r hget hactive
  refine h r ?_ hactive
  by_cases hs : sid = sid'
  · simp [SessionStore.get, SessionStore.remove, hs] at hget
  · simpa [SessionStore.get, SessionStore.remove, hs] using hget

theorem spent_of_expired {timeout : Duration} {st : SessionStore} {now : Int64} {sid : String}
    {r : Nat} (hget : st.get sid = some r) (h : (st.heap r).expired timeout now = true) :
    Spent timeout st now sid := by
  intro q hq hactive
  obtain rfl : r = q := Option.some.inj (hget.symm.trans hq)
  simpa [Session.expired, hactive] using h

/-- Everything a step of a sweep can do: it looks at an entry or goes on, or it forgets or removes
what it had collected. -/
theorem Sweep.next_cases {timeout : Duration} {m n : Maintenance} {w w' : Sweep}
    (h : w.next timeout m = some (n, w')) :
    (n = m ∧ (∀ e ∈ w'.entries, e ∈ w.entries) ∧ ∀ sid ∈ w'.pending, sid ∈ w.pending ∨
      ∃ r, (sid, r) ∈ w.entries ∧ (m.server.store.heap r).expired timeout m.now = true) ∨
    ∃ sid ∈ w.pending, w'.entries = [] ∧ (∀ sid' ∈ w'.pending, sid' ∈ w.pending) ∧
      (n = { m with offsets := m.offsets.forget sid } ∨ m.locked = false ∧
        n = { m with server := ⟨m.server.store.remove sid, m.server.conns⟩ }) := by
  cases w with
  | scanning entries expired =>
    left
    cases entries with
    | nil =>
      cases h
      exact ⟨rfl, fun e he => he, fun sid hsid => .inl hsid⟩
    | cons e entries =>
      obtain ⟨sid, r⟩ := e
      simp only [next] at h
      split at h
      · next hexpired =>
        cases h
        refine ⟨rfl, fun e he => List.mem_cons_of_mem _ he, fun id hid => ?_⟩
        rcases List.mem_append.mp hid with hold | hnew
        · exact .inl hold
        · rw [List.mem_singleton.mp hnew]
          exact .inr ⟨r, List.mem_cons_self, hexpired⟩
      · cases h
        exact ⟨rfl, fun e he => List.mem_cons_of_mem _ he, fun id hid => .inl hid⟩
  | removing expired count =>
    cases expired with
    | nil =>
      cases h
      exact .inl ⟨rfl, fun e he => he, fun sid hsid => .inl hsid⟩
    | cons sid expired =>
      cases h
      exact .inr ⟨sid, List.mem_cons_self, rfl, fun id hid => hid, .inl rfl⟩
  | forgotten sid expired count =>
    simp only [next] at h
    split at h
    · cases h
    · next hfree =>
      cases h
      exact .inr ⟨sid, List.mem_cons_self, rfl, fun id hid => List.mem_cons_of_mem _ hid,
        .inr ⟨by simpa using hfree, rfl⟩⟩
  | returned count => cases h

namespace Maintenance

variable {J : SerdeJson} {cfg : ServerConfig} {timeout : Duration} {m m' : Maintenance} {a : Act}

theorem run_scanning (m : Maintenance) (entries : List (String × Nat)) (expired : List String) :
    run (step J cfg timeout) { m with sweeps := [.scanning entries expired] }
        (List.replicate (entries.length + 1) (.sweep 0)) =
      some { m with sweeps := [.removing (expired ++ collected timeout m entries)
        (expired ++ collected timeout m entries).length] } := by
  induction entries generalizing expired with
  | nil => simp [run, step, Sweep.next, collected]
  | cons e entries ih =>
    obtain ⟨sid, r⟩ := e
    refine run_cons_iff.mpr ?_
    by_cases hexpired : (m.server.store.heap r).expired timeout m.now = true
    · refine ⟨{ m with sweeps := [.scanning entries (expired ++ [sid])] }, ?_, ?_⟩
      · simp [step, Sweep.next, hexpired]
      · simpa [collected, hexpired] using ih (expired ++ [sid])
    · refine ⟨{ m with sweeps := [.scanning entries expired] }, ?_, ?_⟩
      · simp [step, Sweep.next, hexpired]
      · simpa [collected, hexpired] using ih expired

theorem run_removing (m : Maintenance) (ids : List String) (count : Nat) :
    ∃ n, run (step J cfg timeout) { m with sweeps := [.removing ids count] }
        (List.replicate n (.sweep 0)) =
      some { ids.foldl remove m with sweeps := [.returned count] } := by
  induction ids generalizing m with
  | nil => exact ⟨1, by simp [run, step, Sweep.next]⟩
  | cons sid ids ih =>
    obtain ⟨n, hn⟩ := ih (m.remove sid)
    -- The offsets go first, and the entry with the next step.
    refine ⟨n + 2, run_cons_iff.mpr ⟨{ m with
      offsets := m.offsets.forget sid, sweeps := [.forgotten sid ids count] }, ?_, ?_⟩⟩
    · simp [step, Sweep.next]
    · refine run_cons_iff.mpr ⟨{ m.remove sid with sweeps := [.removing ids count] }, ?_, hn⟩
      simp [step, Sweep.next, locked, Sweep.reads, remove]

/-- A sweep that nobody interrupts does what `expire_sessions` does. -/
theorem run_expireSessions (m : Maintenance) (entries : List (String × Nat)) :
    ∃ n, run (step J cfg timeout) { m with sweeps := [.scanning entries []] }
        (List.replicate n (.sweep 0)) =
      some { (m.expireSessions timeout entries).1 with
        sweeps := [.returned (m.expireSessions timeout entries).2] } := by
  obtain ⟨n, hn⟩ : ∃ n, run (step J cfg timeout) { m with sweeps :=
        [.removing (collected timeout m entries) (collected timeout m entries).length] }
      (List.replicate n (.sweep 0)) = some { (m.expireSessions timeout entries).1 with
        sweeps := [.returned (m.expireSessions timeout entries).2] } := run_removing m _ _
  refine ⟨entries.length + 1 + n, ?_⟩
  rw [List.replicate_add, run_append (run_scanning m entries [])]
  exact hn

theorem effect_advance {i : Nat} {srv : Server}
    (hfree : ¬ ((m.inserting i).isSome && m.locked) = true)
    (h : Server.step J cfg (m.stamp i) (.advance i) = some srv) :
    Effect m.now m.locked (· ∈ m.wakes (.advance i)) m.server.store srv.store := by
  cases hc : m.server.conns i with
  | none => simp [Server.step, stamp, hc] at h
  | some c =>
    obtain ⟨env, p⟩ := c
    have hst : (p.next J cfg { env with now := m.now } m.server.store).1 = srv.store := by
      simp only [Server.step, stamp, hc, Function.update_self, Option.map_some,
        Option.some.injEq] at h
      rw [← h]
      rfl
    rw [← hst]
    rcases Phase.store_next J cfg { env with now := m.now } m.server.store p with hn |
      ⟨adm, rfl, hsid, hn⟩ | ⟨adm, r, rfl, hn⟩ | ⟨adm, r, rfl, hn⟩ | ⟨adm, r, resume, rfl, hn⟩ |
      ⟨adm, r, w, rfl, hn⟩ <;> rw [hn]
    · exact .same
    · refine .insert _ _ fun hlocked => hfree ?_
      simp [inserting, hc, hsid, hlocked]
    · exact .bumpEpoch r
    · exact .setState r .resuming (by simp)
    · exact .setState r .ready (by simp)
    · exact .setState r .active (by simp [wakes, hc])

/-- Everything a step can do, seen from the sweeps. -/
theorem step_cases (h : step J cfg timeout m a = some m') :
    (Effect m.now m.locked (· ∈ m.wakes a) m.server.store m'.server.store ∧ m'.now = m.now ∧
      m'.sweeps = m.sweeps ∧ ∀ now, a ≠ .tick now) ∨
    (∃ now, a = .tick now ∧ Readable now ∧ m' = { m with now := now }) ∨
    (∃ entries, a = .expire entries ∧ (∀ e ∈ entries, m.server.store.get e.1 = some e.2) ∧
      m' = { m with sweeps := m.sweeps ++ [.scanning entries []] }) ∨
    ∃ k w n w', a = .sweep k ∧ w ∈ m.sweeps ∧ w.next timeout m = some (n, w') ∧
      m' = { n with sweeps := m.sweeps.set k w' } := by
  cases a with
  | connect i env =>
    obtain ⟨srv, hsrv, rfl⟩ := Option.map_eq_some_iff.mp h
    simp only [Server.step] at hsrv
    split at hsrv
    · cases hsrv
      exact .inl ⟨.same, rfl, rfl, by simp⟩
    · cases hsrv
  | advance i =>
    simp only [step] at h
    split at h
    · cases h
    · next hfree =>
      obtain ⟨srv, hsrv, rfl⟩ := Option.map_eq_some_iff.mp h
      exact .inl ⟨effect_advance hfree hsrv, rfl, rfl, by simp⟩
  | frame i =>
    obtain ⟨srv, hsrv, rfl⟩ := Option.map_eq_some_iff.mp h
    simp only [Server.step] at hsrv
    split at hsrv
    · next env adm r hc =>
      cases hsrv
      exact .inl ⟨.touch r (by simp [wakes, hc]), rfl, rfl, by simp⟩
    · cases hsrv
  | finish i res =>
    obtain ⟨srv, hsrv, rfl⟩ := Option.map_eq_some_iff.mp h
    simp only [Server.step] at hsrv
    split at hsrv
    · cases hsrv
      exact .inl ⟨.same, rfl, rfl, by simp⟩
    · cases hsrv
  | tick now =>
    simp only [step] at h
    split at h
    · next hnow =>
      cases h
      exact .inr (.inl ⟨now, rfl, hnow, rfl⟩)
    · cases h
  | expire entries =>
    simp only [step] at h
    split at h
    · next hperm =>
      cases h
      exact .inr (.inr (.inl ⟨entries, rfl,
        fun e he => SessionStore.mem_entries.mp (hperm.mem_iff.mp he), rfl⟩))
    · cases h
  | sweep k =>
    obtain ⟨w, hw, hn⟩ := Option.bind_eq_some_iff.mp h
    obtain ⟨⟨n, w'⟩, hnext, rfl⟩ := Option.map_eq_some_iff.mp hn
    exact .inr (.inr (.inr ⟨k, w, n, w', rfl, List.mem_of_getElem? hw, hnext, rfl⟩))

/-- What a sweep has not looked at is as it was, and what it has collected is spent. -/
structure Sound (timeout : Duration) (m : Maintenance) : Prop where
  clock : Readable m.now
  stamps : ∀ r, Readable (m.server.store.heap r).lastActive.toInt64
  current : ∀ w ∈ m.sweeps, ∀ e ∈ w.entries, m.server.store.get e.1 = some e.2
  spent : ∀ w ∈ m.sweeps, ∀ sid ∈ w.pending, Spent timeout m.server.store m.now sid

theorem locked_of_mem_entries {w : Sweep} {e : String × Nat} (hw : w ∈ m.sweeps)
    (he : e ∈ w.entries) : m.locked = true := by
  refine List.any_eq_true.mpr ⟨w, hw, ?_⟩
  cases w with
  | scanning entries expired => rfl
  | _ => cases he

theorem Sound.effect (hs : Sound timeout m)
    (h : Effect m.now m.locked (· ∈ m.wakes a) m.server.store m'.server.store)
    (hnow : m'.now = m.now) (hsweeps : m'.sweeps = m.sweeps)
    (hok : ∀ r ∈ m.wakes a, ∀ w ∈ m.sweeps, ∀ sid ∈ w.pending,
      m.server.store.get sid ≠ some r) : Sound timeout m' where
  clock := hnow ▸ hs.clock
  stamps := h.stamps hs.clock hs.stamps
  current w hw e he := by
    rw [hsweeps] at hw
    rw [h.get_eq (locked_of_mem_entries hw he)]
    exact hs.current w hw e he
  spent w hw sid hsid := by
    rw [hsweeps] at hw
    rw [hnow]
    exact h.spent (fun r hr => hok r hr w hw sid hsid) (hs.spent w hw sid hsid)

theorem Sound.tick {now : Int64} (hs : Sound timeout m) (hnow : Readable now)
    (hok : m.unpended (.tick now)) : Sound timeout { m with now := now } where
  clock := hnow
  stamps := hs.stamps
  current := hs.current
  spent w hw sid hsid r hget hactive := by
    obtain ⟨hzero, hle⟩ := hok ⟨w, hw, List.ne_nil_of_mem hsid⟩
    have hold := hs.spent w hw sid hsid r hget hactive
    exact hold.trans_le (Session.idle_mono (hs.stamps r) hzero hle)

theorem forall_mem_set {P : Sweep → Prop} {ws : List Sweep} {k : Nat} {w : Sweep}
    (h : ∀ v ∈ ws, P v) (hw : P w) : ∀ v ∈ ws.set k w, P v := by
  intro v hv
  rcases List.mem_or_eq_of_mem_set hv with hold | rfl
  · exact h v hold
  · exact hw

theorem Sound.sweep {k : Nat} {w w' : Sweep} {n : Maintenance} (hs : Sound timeout m)
    (hw : w ∈ m.sweeps) (hn : w.next timeout m = some (n, w')) :
    Sound timeout { n with sweeps := m.sweeps.set k w' } := by
  rcases Sweep.next_cases hn with ⟨rfl, hentries, hpending⟩ |
    ⟨sid, hsid, hentries, hpending, rfl | ⟨hfree, rfl⟩⟩
  · refine ⟨hs.clock, hs.stamps, forall_mem_set hs.current fun e he => ?_,
      forall_mem_set hs.spent fun id hid => ?_⟩
    · exact hs.current w hw e (hentries e he)
    · rcases hpending id hid with hmem | ⟨r, hr, hexpired⟩
      · exact hs.spent w hw id hmem
      · exact spent_of_expired (hs.current w hw _ hr) hexpired
  · refine ⟨hs.clock, hs.stamps, forall_mem_set hs.current ?_,
      forall_mem_set hs.spent fun id hid => hs.spent w hw id (hpending id hid)⟩
    simp [hentries]
  · refine ⟨hs.clock, hs.stamps, forall_mem_set (fun v hv e he => ?_) ?_,
      forall_mem_set (fun v hv id hid => (hs.spent v hv id hid).remove)
        fun id hid => (hs.spent w hw id (hpending id hid)).remove⟩
    · -- Nobody has the read lock, so nothing is left to be looked at.
      rw [locked_of_mem_entries hv he] at hfree
      cases hfree
    · simp [hentries]

theorem sound_step (h : step J cfg timeout m a = some m') (hok : m.unpended a)
    (hs : Sound timeout m) : Sound timeout m' := by
  rcases step_cases h with ⟨heffect, hnow, hsweeps, hother⟩ | ⟨now, rfl, hnow, rfl⟩ |
    ⟨entries, rfl, hentries, rfl⟩ | ⟨k, w, n, w', rfl, hw, hn, rfl⟩
  · refine hs.effect heffect hnow hsweeps ?_
    cases a with
    | tick now => exact absurd rfl (hother now)
    | _ => exact hok
  · exact hs.tick hnow hok
  · refine ⟨hs.clock, hs.stamps, List.forall_mem_append.mpr ⟨hs.current, ?_⟩,
      List.forall_mem_append.mpr ⟨hs.spent, ?_⟩⟩
    · simpa [Sweep.entries] using hentries
    · simp [Sweep.pending]
  · exact hs.sweep hw hn

/-- A sweep has collected no session that is in use. -/
theorem not_inUse_of_pending {w : Sweep} {sid : String} (hs : Sound timeout m)
    (hw : w ∈ m.sweeps) (hsid : sid ∈ w.pending) : ¬ InUse timeout m sid := by
  rintro ⟨r, i, env, adm, hget, hactive, -, hidle⟩
  exact absurd (hs.spent w hw sid hsid r hget hactive) (Nat.not_lt.mpr hidle)

theorem spares_of_sound (hs : Sound timeout m) : Spares J cfg timeout m a := by
  cases a with
  | sweep k =>
    intro m' h sid huse
    obtain ⟨w, hw, h⟩ := Option.bind_eq_some_iff.mp h
    obtain ⟨⟨n, w'⟩, hn, rfl⟩ := Option.map_eq_some_iff.mp h
    have hne : ∀ sid' ∈ w.pending, sid ≠ sid' := by
      rintro sid' hmem rfl
      exact not_inUse_of_pending hs (List.mem_of_getElem? hw) hmem huse
    rcases Sweep.next_cases hn with ⟨rfl, -⟩ | ⟨sid', hmem, -, -, rfl | ⟨-, rfl⟩⟩
    · exact ⟨rfl, rfl⟩
    · exact ⟨rfl, Function.update_of_ne (hne sid' hmem) ..⟩
    · exact ⟨Function.update_of_ne (hne sid' hmem) .., rfl⟩
  | _ => trivial

/-- Where no collected session is set Active or touched before it is removed, and the clock is
not set back, no sweep removes a session in use or forgets its offsets. -/
theorem expiry_spares_sessions_in_use (J : SerdeJson) (cfg : ServerConfig) (timeout : Duration)
    (srv : Server) (offsets : OffsetTracker) (now : Int64) (hnow : Readable now)
    (hstamps : ∀ r, Readable (srv.store.heap r).lastActive.toInt64) (acts : List Act)
    (h : Guarded (step J cfg timeout) unpended ⟨srv, offsets, now, []⟩ acts) :
    Guarded (step J cfg timeout) (Spares J cfg timeout) ⟨srv, offsets, now, []⟩ acts := by
  have hsound : Throughout (step J cfg timeout) (Sound timeout) ⟨srv, offsets, now, []⟩ acts :=
    throughout_of_guarded (fun _ _ _ => sound_step) h ⟨hnow, hstamps, by simp, by simp⟩
  exact guarded_of_throughout hsound fun _ _ _ _ => spares_of_sound

/-- The default `idle_timeout`. -/
def fiveMinutes : Duration := .ofMillis 300000

def oneHello : SerdeJson := .reading [helloBody []]

/-- A fresh server, with an offset of the session "s" in the tracker. -/
def fresh : Maintenance :=
  ⟨.initial, fun sid topic => if sid = "s" ∧ topic = "t" then some 5 else none, 0, []⟩

/-- A new connection on a new session, up to the end of its handshake. -/
def establish (i : Nat) (sid : String) : List Act :=
  .connect i (.plain oneHello (helloBody []) "alice" sid) :: List.replicate 6 (.advance i)

/-- Two sessions, one of which is idle for too long, and a whole sweep. -/
def sweepOfTwo : List Act :=
  establish 0 "s" ++ establish 1 "u" ++ [.tick 300001, .frame 1, .expire [("u", 1), ("s", 0)]] ++
    List.replicate 6 (.sweep 0)

theorem sweep_spares_the_other_session :
    Guarded (step oneHello {} fiveMinutes) (Spares oneHello {} fiveMinutes) fresh sweepOfTwo ∧
    ∃ m, run (step oneHello {} fiveMinutes) fresh sweepOfTwo = some m ∧
      m.sweeps = [.returned 1] ∧ m.server.store.get "s" = none ∧
      m.server.store.get "u" = some 1 :=
  ⟨expiry_spares_sessions_in_use oneHello {} fiveMinutes .initial _ 0 (by decide)
    (fun _ => (by decide : Readable 0)) sweepOfTwo (by decide +kernel),
    by decide +kernel⟩

/-- A sweep collects a session that has been idle for too long. Then a frame arrives on its
connection, and only after that its offsets are forgotten and it is removed. -/
theorem touched_session_is_removed :
    ∃ m m₁ m₂, run (step oneHello {} fiveMinutes) fresh (establish 0 "s" ++ [.tick 300001,
        .expire [("s", 0)], .sweep 0, .sweep 0, .frame 0]) = some m ∧
      step oneHello {} fiveMinutes m (.sweep 0) = some m₁ ∧
      step oneHello {} fiveMinutes m₁ (.sweep 0) = some m₂ ∧
      (InUse fiveMinutes m "s" ∧ m.offsets "s" "t" = some 5 ∧ m₁.offsets "s" "t" = none) ∧
      (InUse fiveMinutes m₁ "s" ∧ m₁.server.store.get "s" = some 0 ∧
        m₂.server.store.get "s" = none) ∧
      ¬ Spares oneHello {} fiveMinutes m (.sweep 0) ∧
      ¬ Spares oneHello {} fiveMinutes m₁ (.sweep 0) := by
  obtain ⟨m, m₁, m₂, hrun, h₁, h₂, ⟨huse, hoffset, hforgot⟩, huse₁, hget, hgone⟩ : ∃ m m₁ m₂,
      run (step oneHello {} fiveMinutes) fresh (establish 0 "s" ++ [.tick 300001,
        .expire [("s", 0)], .sweep 0, .sweep 0, .frame 0]) = some m ∧
      step oneHello {} fiveMinutes m (.sweep 0) = some m₁ ∧
      step oneHello {} fiveMinutes m₁ (.sweep 0) = some m₂ ∧
      (InUse fiveMinutes m "s" ∧ m.offsets "s" "t" = some 5 ∧ m₁.offsets "s" "t" = none) ∧
      InUse fiveMinutes m₁ "s" ∧ m₁.server.store.get "s" = some 0 ∧
        m₂.server.store.get "s" = none :=
    ⟨_, _, _, rfl, rfl, rfl,
      ⟨⟨0, 0, _, _, rfl, rfl, rfl, by decide +kernel⟩, by decide +kernel, by decide +kernel⟩,
      ⟨0, 0, _, _, rfl, rfl, rfl, by decide +kernel⟩, by decide +kernel, by decide +kernel⟩
  refine ⟨m, m₁, m₂, hrun, h₁, h₂, ⟨huse, hoffset, hforgot⟩, ⟨huse₁, hget, hgone⟩, ?_, ?_⟩
  · intro h
    have hkept := congrFun (h m₁ h₁ "s" huse).2 "t"
    rw [hoffset, hforgot] at hkept
    cases hkept
  · intro h
    have hkept := (h m₂ h₂ "s" huse₁).1
    rw [hget, hgone] at hkept
    cases hkept

end Maintenance

end Rifts
