import Mathlib.Data.List.Nodup

/-! A fair mutex that hands itself over in the order of the requests. -/
namespace Mutex

/-- What a task that uses the mutex is doing. -/
inductive Stage
  | away | waiting | inside
  deriving DecidableEq, Repr

/-- The tasks that asked for the mutex and have not left, oldest first; the head
holds it. -/
structure Fifo (τ : Type*) where
  line : List τ
  nodup : line.Nodup
  deriving Repr

namespace Fifo

variable {τ : Type*} {m m' : Fifo τ} {x y : τ} {stage stage' : τ → Stage}

def holder (m : Fifo τ) : Option τ := m.line.head?

theorem mem_of_holder (h : m.holder = some x) : x ∈ m.line := List.mem_of_head? h

theorem holder_of_mem (h : x ∈ m.line) : ∃ y, m.holder = some y := by
  obtain ⟨line, hline⟩ := m
  cases line with
  | nil => cases h
  | cons z line => exact ⟨z, rfl⟩

/-- A task alone in line has the mutex. -/
theorem holder_of_alone (hx : x ∈ m.line) (h : ∀ y ∈ m.line, y = x) : m.holder = some x := by
  obtain ⟨y, hy⟩ := holder_of_mem hx
  rw [hy, h y (mem_of_holder hy)]

variable [DecidableEq τ]

instance : DecidableEq (Fifo τ) := fun a b =>
  decidable_of_iff (a.line = b.line)
    ⟨fun h => by cases a; cases b; cases h; rfl, fun h => by rw [h]⟩

def free : Fifo τ := ⟨[], List.nodup_nil⟩

/-- A task asks for the mutex, and has it at once when nobody is in line. -/
def enter (m : Fifo τ) (x : τ) : Fifo τ :=
  if h : x ∈ m.line then m
  else ⟨m.line ++ [x], List.nodup_append.mpr ⟨m.nodup, List.nodup_singleton x,
    fun _ ha _ hb e => h (List.mem_singleton.mp hb ▸ e ▸ ha)⟩⟩

/-- A task releases the mutex, or stops waiting for it. -/
def leave (m : Fifo τ) (x : τ) : Fifo τ := ⟨m.line.erase x, m.nodup.erase x⟩

theorem mem_enter : y ∈ (m.enter x).line ↔ y ∈ m.line ∨ y = x := by
  unfold enter
  split <;> simp_all

theorem mem_leave : y ∈ (m.leave x).line ↔ y ≠ x ∧ y ∈ m.line := m.nodup.mem_erase_iff

/-- Nobody is overtaken by a task that asks later. -/
theorem holder_enter (h : m.holder = some y) : (m.enter x).holder = some y := by
  unfold enter holder at *
  split
  · exact h
  · rw [List.head?_append, h]
    rfl

theorem holder_leave (h : m.holder = some y) (hne : y ≠ x) : (m.leave x).holder = some y := by
  obtain ⟨line, hline⟩ := m
  cases line with
  | nil => cases h
  | cons z line =>
    obtain rfl : z = y := Option.some.inj h
    simp [leave, holder, List.erase_cons_tail, hne]

/-- The line holds exactly the tasks that wait or are inside, and whoever is
inside is at its head. -/
structure Coherent (m : Fifo τ) (stage : τ → Stage) : Prop where
  inLine : ∀ x, x ∈ m.line ↔ stage x ≠ .away
  holds : ∀ x, stage x = .inside → m.holder = some x

/-- A step of a system around the mutex: at most one task changes its stage, and
the mutex changes with it. -/
inductive Move (m : Fifo τ) (stage : τ → Stage) : Fifo τ → (τ → Stage) → Prop
  | stay (after : τ → Stage) (h : ∀ y, after y = stage y) : Move m stage m after
  | enter (x : τ) (after : τ → Stage) (hx : after x = .waiting)
      (h : ∀ y, y ≠ x → after y = stage y) : Move m stage (m.enter x) after
  | acquire (x : τ) (after : τ → Stage) (hw : stage x ≠ .away) (hold : m.holder = some x)
      (hx : after x = .inside) (h : ∀ y, y ≠ x → after y = stage y) : Move m stage m after
  | leave (x : τ) (after : τ → Stage) (hx : after x = .away)
      (h : ∀ y, y ≠ x → after y = stage y) : Move m stage (m.leave x) after

theorem Move.coherent (hm : Move m stage m' stage') (hc : Coherent m stage) :
    Coherent m' stage' := by
  cases hm with
  | stay _ h =>
    obtain rfl : stage' = stage := funext h
    exact hc
  | enter x _ hx h =>
    constructor
    · intro y
      by_cases hyx : y = x
      · subst hyx
        simp [mem_enter, hx]
      · rw [mem_enter, h y hyx, hc.inLine y]
        simp [hyx]
    · intro y hin
      by_cases hyx : y = x
      · subst hyx
        simp [hx] at hin
      · rw [h y hyx] at hin
        exact holder_enter (hc.holds y hin)
  | acquire x _ hw hold hx h =>
    constructor
    · intro y
      by_cases hyx : y = x
      · subst hyx
        simp [hc.inLine, hw, hx]
      · rw [h y hyx, hc.inLine y]
    · intro y hin
      by_cases hyx : y = x
      · rw [hyx, hold]
      · rw [h y hyx] at hin
        exact hc.holds y hin
  | leave x _ hx h =>
    constructor
    · intro y
      by_cases hyx : y = x
      · subst hyx
        simp [mem_leave, hx]
      · rw [mem_leave, h y hyx, hc.inLine y]
        simp [hyx]
    · intro y hin
      by_cases hyx : y = x
      · subst hyx
        simp [hx] at hin
      · rw [h y hyx] at hin
        exact holder_leave (hc.holds y hin) hyx

/-- The holder keeps the mutex until it leaves. -/
theorem Move.holder (hm : Move m stage m' stage') (h : m.holder = some x)
    (hx : stage' x ≠ .away) : m'.holder = some x := by
  cases hm with
  | stay | acquire => exact h
  | enter => exact holder_enter h
  | leave y _ hy =>
    refine holder_leave h ?_
    rintro rfl
    exact hx hy

/-- `y` asked before `x`, and both are still in line. -/
def Ahead (m : Fifo τ) (y x : τ) : Prop := List.Sublist [y, x] m.line

omit [DecidableEq τ] in
theorem mem_of_ahead (h : m.Ahead y x) : y ∈ m.line := h.subset List.mem_cons_self

omit [DecidableEq τ] in
theorem ahead_of_holder (h : m.holder = some y) (hx : x ∈ m.line) (hne : x ≠ y) :
    m.Ahead y x := by
  obtain ⟨line, hline⟩ := m
  cases line with
  | nil => cases h
  | cons z line =>
    obtain rfl : z = y := Option.some.inj h
    have hrest : x ∈ line := (List.mem_cons.mp hx).resolve_left hne
    exact (List.singleton_sublist.mpr hrest).cons_cons z

omit [DecidableEq τ] in
/-- Nobody is ahead of the holder. -/
theorem not_ahead_of_holder (h : m.holder = some x) : ¬ m.Ahead y x := by
  intro hahead
  obtain ⟨line, hline⟩ := m
  cases line with
  | nil => cases h
  | cons z line =>
    obtain rfl : z = x := Option.some.inj h
    have hx : z ∉ line := (List.nodup_cons.mp hline).1
    have hsub : List.Sublist [z] line := by
      cases hahead with
      | cons _ hsub => exact (List.sublist_cons_self y [z]).trans hsub
      | cons_cons _ hsub => exact hsub
    exact hx (List.singleton_sublist.mp hsub)

theorem not_ahead_leave : ¬ (m.leave y).Ahead y x := fun h =>
  (mem_leave.mp (mem_of_ahead h)).1 rfl

/-- Nobody gets ahead of a task that is in line. -/
theorem Move.ahead (hm : Move m stage m' stage') (hx : x ∈ m.line) (h : m'.Ahead y x) :
    m.Ahead y x := by
  cases hm with
  | stay | acquire => exact h
  | leave z => exact h.trans List.erase_sublist
  | enter z =>
    unfold Ahead Fifo.enter at h
    split at h
    · exact h
    · next hz =>
      obtain ⟨l, l', heq, hl, hl'⟩ := List.sublist_append_iff.mp h
      -- the new task is the last in line, and `x` is not it
      cases hl' with
      | cons _ hnil =>
        rw [List.sublist_nil.mp hnil, List.append_nil] at heq
        rwa [Ahead, heq]
      | cons_cons _ hnil =>
        rw [List.sublist_nil.mp hnil] at heq
        have hxz : x = z := by simpa using congrArg List.getLast? heq
        exact absurd (hxz ▸ hx) hz

end Fifo

end Mutex
