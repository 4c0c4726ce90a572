import Rifts.Storage.Dedupe
import Rifts.Transition.Pool

/-! Calls of `SledDedupeStore::check_and_record` that race for a record. -/
namespace Rifts

structure CheckCall where
  now : Int64
  topic : String
  key : String
  window : Nat
  deriving DecidableEq, Repr

namespace CheckCall

def recordKey (c : CheckCall) : Bytes := Encode.dedupeKey c.topic c.key

def expires (c : CheckCall) : Int64 := c.now + Int64.ofNat c.window

def isOn (k : String × String) (c : CheckCall) : Bool := (c.topic, c.key) = k

end CheckCall

/-- Where a call stands in a turn of the loop. -/
inductive CheckPhase
  | read (c : CheckCall)
  | swap (c : CheckCall) (old : Option Bytes)
  | returned (c : CheckCall) (fresh : Bool)
  deriving DecidableEq, Repr

namespace CheckPhase

def call : CheckPhase → CheckCall
  | read c | swap c _ | returned c _ => c

def fresh : CheckPhase → Option Bool
  | returned _ fresh => some fresh
  | _ => none

/-- One access to the tree: a `get`, or a `cas` that sends the call back when it fails. -/
def next (tree : SledTree) (u : CheckPhase) (_ : Unit) : Option (SledTree × CheckPhase) :=
  match u with
  | read c =>
    match SledDedupe.expected c.now (tree.get c.recordKey) with
    | none => some (tree, returned c false)
    | some old => some (tree, swap c old)
  | swap c old =>
    match tree.cas c.recordKey old (BigEndian.ofInt64 c.expires) with
    | some tree => some (tree, returned c true)
    | none => some (tree, read c)
  | returned .. => none

def program : Transition.Program SledTree CheckPhase CheckCall Unit := ⟨read, next⟩

variable {tree tree' : SledTree} {u u' : CheckPhase}

/-- A call that nobody interrupts does what the loop does. -/
theorem solo_checkAndRecord {c : CheckCall} {turns : Nat} {fresh : Bool}
    (h : SledDedupe.checkAndRecord tree c.now c.topic c.key c.window turns = some (tree', fresh)) :
    ∃ inputs, Transition.run (Transition.Pool.solo program) (tree, read c) inputs =
      some (tree', returned c fresh) := by
  induction turns with
  | zero => cases h
  | succ turns ih =>
    simp only [SledDedupe.checkAndRecord] at h
    split at h
    · next he =>
      cases h
      refine ⟨[()], ?_⟩
      simp [Transition.run, Transition.Pool.solo, program, next, CheckCall.recordKey, he]
    · next old he =>
      split at h
      · next hc =>
        cases h
        refine ⟨[(), ()], ?_⟩
        simp [Transition.run, Transition.Pool.solo, program, next, CheckCall.recordKey, he,
          CheckCall.expires, hc]
      · next hc =>
        obtain ⟨inputs, hrun⟩ := ih h
        refine ⟨() :: () :: inputs, ?_⟩
        simpa [Transition.run, Transition.Pool.solo, program, next, CheckCall.recordKey, he,
          CheckCall.expires, hc] using hrun

/-- Everything an access can do. -/
theorem next_cases (h : next tree u () = some (tree', u')) :
    (∃ c, u = read c ∧ SledDedupe.expected c.now (tree.get c.recordKey) = none ∧ tree' = tree ∧
      u' = returned c false) ∨
    (∃ c old, u = read c ∧ SledDedupe.expected c.now (tree.get c.recordKey) = some old ∧
      tree' = tree ∧ u' = swap c old) ∨
    (∃ c old, u = swap c old ∧ tree.get c.recordKey = old ∧
      tree' = tree.put c.recordKey (BigEndian.ofInt64 c.expires) ∧ u' = returned c true) ∨
    ∃ c old, u = swap c old ∧ tree.get c.recordKey ≠ old ∧ tree' = tree ∧ u' = read c := by
  cases u with
  | read c =>
    simp only [next] at h
    split at h
    · next he =>
      cases h
      exact .inl ⟨c, rfl, he, rfl, rfl⟩
    · next old he =>
      cases h
      exact .inr (.inl ⟨c, old, rfl, he, rfl, rfl⟩)
  | swap c old =>
    simp only [next, SledTree.cas] at h
    by_cases he : tree.get c.recordKey = old
    · rw [if_pos he] at h
      cases h
      exact .inr (.inr (.inl ⟨c, old, rfl, he, rfl, rfl⟩))
    · rw [if_neg he] at h
      cases h
      exact .inr (.inr (.inr ⟨c, old, rfl, he, rfl, rfl⟩))
  | returned c fresh => cases h

theorem call_next (h : next tree u () = some (tree', u')) : u'.call = u.call := by
  obtain ⟨c, rfl, -, -, rfl⟩ | ⟨c, old, rfl, -, -, rfl⟩ | ⟨c, old, rfl, -, -, rfl⟩ |
    ⟨c, old, rfl, -, -, rfl⟩ := next_cases h <;> rfl

end CheckPhase

namespace DedupeRace

open Transition Encode CheckPhase

abbrev Calls := Pool SledTree CheckPhase

abbrev Act := Pool.Act CheckCall Unit

def step (p : Calls) (a : Act) : Option Calls := Pool.step program p a

/-- Calls with one window, on topics that keys can tell apart; those on the pair `k`
find a record that is absent or has expired, and their clocks are less than a
window apart. -/
structure Fair (k : String × String) (old : Option Bytes) (window : Nat)
    (calls : List CheckCall) : Prop where
  common : ∀ c ∈ calls, c.window = window
  names : ∀ c ∈ calls, Separable c.topic
  fits : ∀ c ∈ calls, c.isOn k = true → c.now.toInt + window < 2 ^ 63
  length : ∀ v ∈ old, v.length = 8
  expired : ∀ v ∈ old, ∀ c ∈ calls, c.isOn k = true → BigEndian.toInt64 v ≤ c.now
  close : calls.Pairwise fun a b : CheckCall => a.isOn k = true → b.isOn k = true →
    a.now.toInt < b.now.toInt + window ∧ b.now.toInt < a.now.toInt + window

variable {k : String × String} {old : Option Bytes} {window : Nat} {calls : List CheckCall}
  {p p' : Calls} {a : Act} {u v : CheckPhase} {c : CheckCall}

theorem Fair.of_append {more : List CheckCall} (h : Fair k old window (calls ++ more)) :
    Fair k old window calls := by
  have hsub {c : CheckCall} (hc : c ∈ calls) : c ∈ calls ++ more := List.mem_append_left _ hc
  exact ⟨fun c hc => h.common c (hsub hc), fun c hc => h.names c (hsub hc),
    fun c hc => h.fits c (hsub hc), h.length, fun v hv c hc => h.expired v hv c (hsub hc),
    (List.pairwise_append.mp h.close).1⟩

/-- The call is on the pair and returned true. -/
def wins (k : String × String) (u : CheckPhase) : Bool := u.call.isOn k && u.fresh == some true

/-- The call has not returned, and has read the first record if any. -/
def Pending (old : Option Bytes) : CheckPhase → Prop
  | .read _ => True
  | .swap _ seen => seen = old
  | .returned .. => False

/-- Either the first record is still there and no call on the pair has returned, or
one of them has won and its expiry is the record. -/
inductive Contest (k : String × String) (old : Option Bytes) (p : Calls) : Prop
  | undecided (htree : p.shared.get (dedupeKey k.1 k.2) = old)
      (hall : ∀ u ∈ p.threads, u.call.isOn k = true → Pending old u)
  | won (c : CheckCall) (htree : p.shared.get (dedupeKey k.1 k.2) =
        some (BigEndian.ofInt64 c.expires))
      (hwin : p.threads.filter (wins k) = [returned c true])
      (hall : ∀ u ∈ p.threads, u.call.isOn k = true → Pending old u ∨ u.fresh.isSome)

theorem recordKey_of_isOn (h : c.isOn k = true) : c.recordKey = dedupeKey k.1 k.2 := by
  have hk : (c.topic, c.key) = k := of_decide_eq_true h
  rw [← hk]
  rfl

theorem recordKey_ne {k : String × String} (hk : Separable k.1) (hc : Separable c.topic)
    (h : c.isOn k = false) : dedupeKey k.1 k.2 ≠ c.recordKey := by
  intro heq
  rw [CheckCall.recordKey, dedupeKey_inj hk hc] at heq
  have hne : (c.topic, c.key) ≠ k := of_decide_eq_false h
  exact hne (Prod.ext heq.1.symm heq.2.symm)

/-- The first record is one that a call on the pair tries to replace. -/
theorem Fair.expected_old (h : Fair k old window calls) (hc : c ∈ calls) (hon : c.isOn k = true) :
    SledDedupe.expected c.now old = some old := by
  cases old with
  | none => rfl
  | some v =>
    have hlen := h.length v rfl
    have hle := h.expired v rfl c hc hon
    simp [SledDedupe.expected, hlen, Int64.not_lt.mpr hle]

theorem Fair.toInt_expires (h : Fair k old window calls) (hc : c ∈ calls)
    (hon : c.isOn k = true) : c.expires.toInt = c.now.toInt + window := by
  have hfits := h.fits c hc hon
  rw [← h.common c hc] at hfits ⊢
  exact Dedupe.toInt_expiry hfits

/-- The expiry of a winner is still to come for every other call on the pair. -/
theorem Fair.lt_expires (h : Fair k old window (p.threads.map call)) (hu : u ∈ p.threads)
    (hv : v ∈ p.threads) (hne : u ≠ v) (hku : u.call.isOn k = true) (hkv : v.call.isOn k = true) :
    v.call.now < u.call.expires := by
  have hsymm : Std.Symm fun u v : CheckPhase => u.call.isOn k = true → v.call.isOn k = true →
      u.call.now.toInt < v.call.now.toInt + window ∧
        v.call.now.toInt < u.call.now.toInt + window :=
    ⟨fun u v huv hv hu => (huv hu hv).symm⟩
  have hclose := (List.pairwise_map.mp h.close).forall hu hv hne hku hkv
  rw [Int64.lt_iff_toInt_lt, h.toInt_expires (List.mem_map_of_mem hu) hku]
  exact hclose.2

/-- A call that is still to return has not won. -/
theorem wins_of_pending (h : Pending old u) : wins k u = false := by
  cases u with
  | read | swap => simp [wins, CheckPhase.fresh]
  | returned => cases h

theorem filter_wins_eq_nil {us : List CheckPhase}
    (h : ∀ u ∈ us, u.call.isOn k = true → Pending old u) : us.filter (wins k) = [] := by
  rw [List.filter_eq_nil_iff]
  intro u hu hwins
  have hpending := h u hu (Bool.and_eq_true_iff.mp hwins).1
  rw [wins_of_pending hpending] at hwins
  cases hwins

theorem contest_spawn (h : Contest k old p) (c : CheckCall) :
    Contest k old ⟨p.shared, p.threads ++ [.read c]⟩ := by
  have hnew {P : CheckPhase → Prop} (hold : ∀ u ∈ p.threads, u.call.isOn k = true → P u)
      (hc : P (.read c)) : ∀ u ∈ p.threads ++ [.read c], u.call.isOn k = true → P u := by
    intro u hu hon
    rcases List.mem_append.mp hu with hu | hu
    · exact hold u hu hon
    · rw [List.mem_singleton.mp hu]
      exact hc
  cases h with
  | undecided htree hall => exact .undecided htree (hnew hall trivial)
  | won w htree hwin hall =>
    refine .won w htree ?_ (hnew hall (.inl trivial))
    rw [List.filter_append, hwin]
    simp [wins, CheckPhase.fresh]

/-- A call that is not on the pair takes no part. -/
theorem contest_other {pre post : List CheckPhase} {tree : SledTree}
    (hp : p.threads = pre ++ u :: post) (hu : u.call.isOn k = false) (hv : v.call = u.call)
    (htree : tree.get (dedupeKey k.1 k.2) = p.shared.get (dedupeKey k.1 k.2))
    (h : Contest k old p) : Contest k old ⟨tree, pre ++ v :: post⟩ := by
  have hrest {P : CheckPhase → Prop} (hall : ∀ w ∈ p.threads, w.call.isOn k = true → P w) :
      ∀ w ∈ pre ++ v :: post, w.call.isOn k = true → P w := by
    rw [hp, Pool.forall_mem_split] at hall
    refine Pool.forall_mem_split.mpr ⟨fun hon => ?_, hall.2⟩
    rw [hv, hu] at hon
    cases hon
  cases h with
  | undecided hget hall => exact .undecided (htree.trans hget) (hrest hall)
  | won c hget hwin hall =>
    refine .won c (htree.trans hget) ?_ (hrest hall)
    rw [← hwin, hp]
    simp [wins, hu, hv]

/-- A turn of a call on the pair while nobody has won. -/
theorem contest_undecided {pre post : List CheckPhase} {tree : SledTree}
    (hfair : Fair k old window (p.threads.map call)) (hp : p.threads = pre ++ u :: post)
    (hu : u.call.isOn k = true) (hn : next p.shared u () = some (tree, v))
    (hget : p.shared.get (dedupeKey k.1 k.2) = old)
    (hall : ∀ u ∈ p.threads, u.call.isOn k = true → Pending old u) :
    Contest k old ⟨tree, pre ++ v :: post⟩ := by
  have hmem : u ∈ p.threads := hp ▸ Pool.mem_split
  obtain ⟨hself, hrest⟩ := Pool.forall_mem_split.mp (hp ▸ hall)
  obtain ⟨c, rfl, he, rfl, rfl⟩ | ⟨c, seen, rfl, he, rfl, rfl⟩ | ⟨c, seen, rfl, he, rfl, rfl⟩ |
    ⟨c, seen, rfl, he, rfl, rfl⟩ := next_cases hn
  · rw [recordKey_of_isOn (c := c) hu, hget,
      hfair.expected_old (c := c) (List.mem_map_of_mem hmem) hu] at he
    cases he
  · rw [recordKey_of_isOn (c := c) hu, hget,
      hfair.expected_old (c := c) (List.mem_map_of_mem hmem) hu] at he
    cases he
    exact .undecided hget (Pool.forall_mem_split.mpr ⟨fun _ => rfl, hrest⟩)
  · -- the swap succeeds: every other call on the pair is still pending
    refine .won c ?_ ?_ ?_
    · rw [recordKey_of_isOn (c := c) hu]
      exact SortedMap.get_put_self
    · have hwins : wins k (.returned c true) = true := by
        simpa [wins, CheckPhase.call, CheckPhase.fresh] using hu
      rw [List.filter_append, List.filter_cons_of_pos hwins,
        filter_wins_eq_nil fun w hw => hrest w (List.mem_append_left _ hw),
        filter_wins_eq_nil fun w hw => hrest w (List.mem_append_right _ hw)]
      rfl
    · exact Pool.forall_mem_split.mpr
        ⟨fun _ => .inr rfl, fun w hw hon => .inl (hrest w hw hon)⟩
  · have hpending := hself hu
    rw [recordKey_of_isOn (c := c) hu, hget] at he
    exact absurd hpending.symm he

/-- A turn of a call on the pair after the winner's. -/
theorem contest_won {pre post : List CheckPhase} {tree : SledTree}
    (hfair : Fair k old window (p.threads.map call)) (hp : p.threads = pre ++ u :: post)
    (hu : u.call.isOn k = true) (hn : next p.shared u () = some (tree, v))
    (hget : p.shared.get (dedupeKey k.1 k.2) = some (BigEndian.ofInt64 c.expires))
    (hwin : p.threads.filter (wins k) = [returned c true])
    (hall : ∀ u ∈ p.threads, u.call.isOn k = true → Pending old u ∨ u.fresh.isSome) :
    Contest k old ⟨tree, pre ++ v :: post⟩ := by
  have hmem : u ∈ p.threads := hp ▸ Pool.mem_split
  have hwinner : returned c true ∈ p.threads ∧ wins k (returned c true) = true :=
    List.mem_filter.mp (hwin ▸ List.mem_singleton_self _)
  have hon : c.isOn k = true := (Bool.and_eq_true_iff.mp hwinner.2).1
  have hfresh : u.fresh = none := by
    cases u with
    | read | swap => rfl
    | returned => cases hn
  have hne : returned c true ≠ u := by
    rintro rfl
    cases hfresh
  have hlt := hfair.lt_expires hwinner.1 hmem hne hon hu
  -- whatever the call does next, it does not win
  have hdone (htree : tree = p.shared) (hv : Pending old v ∨ v.fresh = some false) :
      Contest k old ⟨tree, pre ++ v :: post⟩ := by
    refine .won c (htree ▸ hget) ?_ ?_
    · have hlose : wins k u = false ∧ wins k v = false := by
        refine ⟨by simp [wins, hfresh], ?_⟩
        rcases hv with hv | hv
        · exact wins_of_pending hv
        · simp [wins, hv]
      rw [← hwin, hp]
      simp [hlose.1, hlose.2]
    · refine Pool.forall_mem_split.mpr ⟨fun _ => ?_, (Pool.forall_mem_split.mp (hp ▸ hall)).2⟩
      rcases hv with hv | hv
      · exact .inl hv
      · exact .inr (by rw [hv]; rfl)
  obtain ⟨d, rfl, he, rfl, rfl⟩ | ⟨d, seen, rfl, he, rfl, rfl⟩ | ⟨d, seen, rfl, he, rfl, rfl⟩ |
    ⟨d, seen, rfl, he, rfl, rfl⟩ := next_cases hn
  · exact hdone rfl (.inr rfl)
  · -- the winner's expiry is still to come
    rw [recordKey_of_isOn (c := d) hu, hget] at he
    simp only [CheckPhase.call] at hlt
    simp [SledDedupe.expected, hlt] at he
  · -- the record is no longer the one the call has read
    have hseen : seen = old := by
      rcases hall _ hmem hu with hpending | hsome
      · exact hpending
      · cases hsome
    rw [recordKey_of_isOn (c := d) hu, hget, hseen] at he
    have hle := hfair.expired _ he.symm d (List.mem_map_of_mem hmem) hu
    rw [BigEndian.toInt64_ofInt64] at hle
    exact absurd hlt (Int64.not_lt.mpr hle)
  · exact hdone rfl (.inl trivial)

theorem step_cases (h : step p a = some p') :
    (∃ c, p' = ⟨p.shared, p.threads ++ [.read c]⟩) ∨
    ∃ pre u post tree v, p.threads = pre ++ u :: post ∧ next p.shared u () = some (tree, v) ∧
      p' = ⟨tree, pre ++ v :: post⟩ := by
  rcases Pool.step_cases h with ⟨c, -, hp'⟩ | ⟨pre, u, post, i, tree, v, -, hp, hn, hp'⟩
  · exact .inl ⟨c, hp'⟩
  · exact .inr ⟨pre, u, post, tree, v, hp, hn, hp'⟩

/-- Calls are only added. -/
theorem calls_step (h : step p a = some p') :
    ∃ more, p'.threads.map call = p.threads.map call ++ more := by
  rcases step_cases h with ⟨c, rfl⟩ | ⟨pre, u, post, tree, v, hp, hn, rfl⟩
  · exact ⟨[c], by simp [CheckPhase.call]⟩
  · exact ⟨[], by simp [hp, call_next hn]⟩

theorem contest_step (hk : Separable k.1) (h : step p a = some p')
    (hfair : Fair k old window (p.threads.map call)) (hc : Contest k old p) :
    Contest k old p' := by
  rcases step_cases h with ⟨c, rfl⟩ | ⟨pre, u, post, tree, v, hp, hn, rfl⟩
  · exact contest_spawn hc c
  · cases hu : u.call.isOn k with
    | false =>
      refine contest_other hp hu (call_next hn) ?_ hc
      have hmem : u ∈ p.threads := hp ▸ Pool.mem_split
      have hne := recordKey_ne hk (hfair.names _ (List.mem_map_of_mem hmem)) hu
      obtain ⟨c, rfl, -, rfl, -⟩ | ⟨c, seen, rfl, -, rfl, -⟩ | ⟨c, seen, rfl, -, rfl, -⟩ |
        ⟨c, seen, rfl, -, rfl, -⟩ := next_cases hn
      · rfl
      · rfl
      · exact SortedMap.get_put_of_ne hne
      · rfl
    | true =>
      cases hc with
      | undecided hget hall => exact contest_undecided hfair hp hu hn hget hall
      | won c hget hwin hall => exact contest_won hfair hp hu hn hget hwin hall

theorem contest_run {tree : SledTree} {acts : List Act} (hk : Separable k.1)
    (h : run step ⟨tree, []⟩ acts = some p)
    (hfair : Fair k (tree.get (dedupeKey k.1 k.2)) window (p.threads.map call)) :
    Contest k (tree.get (dedupeKey k.1 k.2)) p := by
  refine run_invariant (P := fun p : Calls =>
    Fair k (tree.get (dedupeKey k.1 k.2)) window (p.threads.map call) →
      Contest k (tree.get (dedupeKey k.1 k.2)) p) ?_ h ?_ hfair
  · intro p a p' hstep ih hfair
    obtain ⟨more, hmore⟩ := calls_step hstep
    have hfair := Fair.of_append (hmore ▸ hfair)
    exact contest_step hk hstep hfair (ih hfair)
  · intro _
    exact .undecided rfl (by simp)

/-- Whatever calls run at once, if those on one pair are fair to each other and have
all returned, exactly one of them returned true. -/
theorem one_fresh_of_race (tree : SledTree) (acts : List Act) (p : Calls) (k : String × String)
    (window : Nat) (h : run step ⟨tree, []⟩ acts = some p)
    (hfair : Fair k (tree.get (dedupeKey k.1 k.2)) window (p.threads.map call))
    (hcall : ∃ u ∈ p.threads, u.call.isOn k = true)
    (hreturned : ∀ u ∈ p.threads, u.call.isOn k = true → u.fresh.isSome) :
    ∃ pre u post, p.threads.filter (fun u => u.call.isOn k) = pre ++ u :: post ∧
      u.fresh = some true ∧ ∀ v ∈ pre ++ post, v.fresh = some false := by
  obtain ⟨u, hu, hon⟩ := hcall
  have hk : Separable k.1 := by
    have hname : (u.call.topic, u.call.key) = k := of_decide_eq_true hon
    rw [← hname]
    exact hfair.names _ (List.mem_map_of_mem hu)
  cases contest_run hk h hfair with
  | undecided hget hall =>
    have hpending := hall u hu hon
    have hsome := hreturned u hu hon
    cases u with
    | read | swap => cases hsome
    | returned => cases hpending
  | won c hget hwin hall =>
    have hfresh : (p.threads.filter fun u => u.call.isOn k).filter (fun u => u.fresh == some true) =
        [returned c true] := by
      rw [List.filter_filter, ← hwin]
      apply List.filter_congr
      intro v _
      rw [wins, Bool.and_comm]
    obtain ⟨pre, post, hsplit, hpre, hself, hpost⟩ := List.filter_eq_cons_iff.mp hfresh
    refine ⟨pre, _, post, hsplit, rfl, ?_⟩
    intro v hv
    have hlose : ¬ v.fresh = some true := by
      rcases List.mem_append.mp hv with hv | hv
      · simpa using hpre v hv
      · simpa using List.filter_eq_nil_iff.mp hpost v hv
    have hmem : v ∈ p.threads.filter fun u => u.call.isOn k := by
      rw [hsplit]
      exact Pool.forall_mem_split (Q := fun v => v ∈ pre ++ returned c true :: post).mp
        (fun _ h => h) |>.2 v hv
    obtain ⟨hv, hvk⟩ := List.mem_filter.mp hmem
    obtain ⟨b, hb⟩ := Option.isSome_iff_exists.mp (hreturned v hv hvk)
    cases b with
    | true => exact absurd hb hlose
    | false => exact hb

/-- Two calls on a fresh pair run at once, both reading before either swaps. -/
def bothRead (c d : CheckCall) : List Act :=
  [.spawn c, .spawn d, .advance 0 (), .advance 1 (), .advance 0 (), .advance 1 (), .advance 1 ()]

theorem later_swap_is_duplicate :
    ∃ p, run step ⟨.empty, []⟩ (bothRead ⟨5, "t", "m", 10⟩ ⟨0, "t", "m", 10⟩) = some p ∧
      ∃ pre u post, p.threads.filter (fun u => u.call.isOn ("t", "m")) = pre ++ u :: post ∧
        u.fresh = some true ∧ ∀ v ∈ pre ++ post, v.fresh = some false := by
  obtain ⟨p, hrun, hthreads⟩ : ∃ p, run step ⟨.empty, []⟩
      (bothRead ⟨5, "t", "m", 10⟩ ⟨0, "t", "m", 10⟩) = some p ∧
      p.threads = [returned ⟨5, "t", "m", 10⟩ true, returned ⟨0, "t", "m", 10⟩ false] :=
    ⟨_, rfl, by decide⟩
  refine ⟨p, hrun, one_fresh_of_race .empty _ p ("t", "m") 10 hrun ?_ ?_ ?_⟩ <;> rw [hthreads]
  · refine ⟨by decide, ?_, by decide, by decide, by decide, by decide⟩
    intro c hc
    have htopic : c.topic = "t" := by
      simp only [List.map_cons, CheckPhase.call, List.map_nil, List.mem_cons, List.not_mem_nil,
        or_false] at hc
      rcases hc with rfl | rfl <;> rfl
    rw [htopic]
    exact separable_of_validateName rfl
  · decide
  · decide

/-- With a window of 2^63 milliseconds the expiry wraps and both calls on the pair
return true; on topics with a NUL byte two pairs share a key and the one call on the
second pair returns false. -/
theorem race_without_one_winner :
    (∃ p, run step ⟨.empty, []⟩ [.spawn ⟨0, "t", "m", 2 ^ 63⟩, .advance 0 (), .advance 0 (),
        .spawn ⟨0, "t", "m", 2 ^ 63⟩, .advance 1 (), .advance 1 ()] = some p ∧
      (p.threads.filter fun u => u.call.isOn ("t", "m")).map fresh = [some true, some true]) ∧
    ∃ p, run step ⟨.empty, []⟩ [.spawn ⟨0, "a\x00b", "c", 10⟩, .advance 0 (), .advance 0 (),
        .spawn ⟨0, "a", "b\x00c", 10⟩, .advance 1 ()] = some p ∧
      (p.threads.filter fun u => u.call.isOn ("a", "b\x00c")).map fresh = [some false] := by
  exact ⟨⟨_, rfl, by decide⟩, ⟨_, rfl, by decide⟩⟩

end DedupeRace

end Rifts
