import Mathlib.Logic.Basic

/-! Runs of a partial step function, and the rules that carry a property along them. -/
namespace Transition

variable {σ α : Type*} {step : σ → α → Option σ} {s t u : σ} {a : α} {as bs : List α}
  {ok : σ → α → Prop} {P Q : σ → Prop}

/-- Execute a list of actions; the run stops at a disabled one. -/
def run (step : σ → α → Option σ) : σ → List α → Option σ
  | s, [] => some s
  | s, a :: as => (step s a).bind fun t => run step t as

/-- Every action a run takes is admitted by the state it is taken in. -/
def Guarded (step : σ → α → Option σ) (ok : σ → α → Prop) : σ → List α → Prop
  | _, [] => True
  | s, a :: as => ∀ t, step s a = some t → ok s a ∧ Guarded step ok t as

/-- A property of every state a run visits, its endpoints included. -/
def Throughout (step : σ → α → Option σ) (P : σ → Prop) : σ → List α → Prop
  | s, [] => P s
  | s, a :: as => P s ∧ ∀ t, step s a = some t → Throughout step P t as

/-- A guard that can be tested can be tested along a run. -/
instance decidableGuarded [∀ s a, Decidable (ok s a)] :
    ∀ s as, Decidable (Guarded step ok s as)
  | _, [] => .isTrue trivial
  | s, a :: as =>
    match h : step s a with
    | none => .isTrue fun t ht => by simp [h] at ht
    | some t =>
      have : Decidable (Guarded step ok t as) := decidableGuarded t as
      decidable_of_iff (ok s a ∧ Guarded step ok t as)
        ⟨fun hok u hu => by rwa [← Option.some.inj (h.symm.trans hu)], fun hok => hok t h⟩

/-- What can be tested of a state can be tested of the one a run ends in. -/
instance decidableRun [DecidablePred P] : Decidable (∃ t, run step s as = some t ∧ P t) :=
  match run step s as with
  | none => .isFalse (by simp)
  | some t => decidable_of_iff (P t) (by simp)

@[simp] theorem run_nil : run step s [] = some s := rfl

theorem run_cons_iff : run step s (a :: as) = some u ↔
    ∃ t, step s a = some t ∧ run step t as = some u := by
  simp [run, Option.bind_eq_some_iff]

theorem run_append (h : run step s as = some t) : run step s (as ++ bs) = run step t bs := by
  induction as generalizing s with
  | nil =>
    cases h
    rfl
  | cons a as ih =>
    obtain ⟨v, hv, ht⟩ := run_cons_iff.mp h
    simp only [List.cons_append, run, hv, Option.bind_some]
    exact ih ht

theorem guarded_append (h : Guarded step ok s (as ++ bs)) (hr : run step s as = some t) :
    Guarded step ok s as ∧ Guarded step ok t bs := by
  induction as generalizing s with
  | nil =>
    cases hr
    exact ⟨trivial, h⟩
  | cons a as ih =>
    obtain ⟨v, hv, ht⟩ := run_cons_iff.mp hr
    refine ⟨fun w hw => ⟨(h w hw).1, ?_⟩, (ih (h v hv).2 ht).2⟩
    obtain rfl : v = w := Option.some.inj (hv.symm.trans hw)
    exact (ih (h v hv).2 ht).1

/-- A guard on the actions alone can be read off the list. -/
theorem guarded_of_forall_mem {p : α → Prop} (h : ∀ a ∈ as, p a) :
    Guarded step (fun _ a => p a) s as := by
  induction as generalizing s with
  | nil => trivial
  | cons a as ih =>
    intro t _
    exact ⟨h a List.mem_cons_self, ih fun b hb => h b (List.mem_cons_of_mem a hb)⟩

theorem guarded_true : Guarded step (fun _ _ => True) s as :=
  guarded_of_forall_mem (p := fun _ => True) fun _ _ => trivial

theorem guarded_and {ok' : σ → α → Prop} (h : Guarded step ok s as) (h' : Guarded step ok' s as) :
    Guarded step (fun s a => ok s a ∧ ok' s a) s as := by
  induction as generalizing s with
  | nil => trivial
  | cons a as ih =>
    intro t ht
    obtain ⟨hok, hg⟩ := h t ht
    obtain ⟨hok', hg'⟩ := h' t ht
    exact ⟨⟨hok, hok'⟩, ih hg hg'⟩

/-- The invariant rule: what every step keeps holds after every run. -/
theorem run_invariant (hstep : ∀ s a t, step s a = some t → P s → P t)
    (hr : run step s as = some t) (hs : P s) : P t := by
  induction as generalizing s with
  | nil => cases hr; exact hs
  | cons a as ih =>
    obtain ⟨u, hu, ht⟩ := run_cons_iff.mp hr
    exact ih ht (hstep s a u hu hs)

/-- The invariant rule for runs whose actions are all admitted. -/
theorem run_invariant_of_guarded (hstep : ∀ s a t, step s a = some t → ok s a → P s → P t)
    (hg : Guarded step ok s as) (hr : run step s as = some t) (hs : P s) : P t := by
  induction as generalizing s with
  | nil => cases hr; exact hs
  | cons a as ih =>
    obtain ⟨u, hu, ht⟩ := run_cons_iff.mp hr
    obtain ⟨hok, hg⟩ := hg u hu
    exact ih hg ht (hstep s a u hu hok hs)

/-- Actions of the given kind lead to a state with the property. -/
def Leads (step : σ → α → Option σ) (kind : α → Bool) (s : σ) (P : σ → Prop) : Prop :=
  ∃ as t, (∀ a ∈ as, kind a = true) ∧ run step s as = some t ∧ P t

theorem leads_self {kind : α → Bool} (hs : P s) : Leads step kind s P :=
  ⟨[], s, by simp, rfl, hs⟩

theorem Leads.trans {kind : α → Bool} (h : Leads step kind s P)
    (hnext : ∀ t, P t → Leads step kind t Q) : Leads step kind s Q := by
  obtain ⟨as, t, has, hr, ht⟩ := h
  obtain ⟨bs, u, hbs, hr', hu⟩ := hnext t ht
  exact ⟨as ++ bs, u, List.forall_mem_append.mpr ⟨has, hbs⟩, by rw [run_append hr, hr'], hu⟩

theorem Leads.mono {kind : α → Bool} (h : Leads step kind s P) (hPQ : ∀ t, P t → Q t) :
    Leads step kind s Q := by
  obtain ⟨as, t, has, hr, ht⟩ := h
  exact ⟨as, t, has, hr, hPQ t ht⟩

/-- What every step keeps holds wherever the actions lead. -/
theorem Leads.and_invariant {kind : α → Bool} (h : Leads step kind s P)
    (hstep : ∀ s a t, step s a = some t → Q s → Q t) (hs : Q s) :
    Leads step kind s fun t => Q t ∧ P t := by
  obtain ⟨as, t, has, hr, ht⟩ := h
  exact ⟨as, t, has, hr, run_invariant hstep hr hs, ht⟩

/-- An action that is disabled wherever a property holds does not occur in an admitted run that
keeps it. -/
theorem notMem_of_disabled {b : α} (hstep : ∀ s a t, step s a = some t → ok s a → P s → P t)
    (hb : ∀ s, P s → step s b = none) (hg : Guarded step ok s as) (hr : run step s as = some t)
    (hs : P s) : b ∉ as := by
  induction as generalizing s with
  | nil => exact List.not_mem_nil
  | cons a as ih =>
    obtain ⟨u, hu, hr⟩ := run_cons_iff.mp hr
    obtain ⟨hok, hg⟩ := hg u hu
    have hrest := ih hg hr (hstep s a u hu hok hs)
    rintro (_ | ⟨_, hmem⟩)
    · rw [hb s hs] at hu
      cases hu
    · exact hrest hmem

/-- The rule for an action that can happen only once: it leads from one property to another under
which it is disabled. -/
theorem count_le_one [DecidableEq α] {b : α}
    (hfirst : ∀ s a t, step s a = some t → ok s a → P s → P t ∨ Q t)
    (honce : ∀ s t, step s b = some t → P s → Q t)
    (hstep : ∀ s a t, step s a = some t → ok s a → Q s → Q t)
    (hb : ∀ s, Q s → step s b = none) (hg : Guarded step ok s as) (hr : run step s as = some t)
    (hs : P s) : as.count b ≤ 1 := by
  induction as generalizing s with
  | nil => simp
  | cons a as ih =>
    obtain ⟨u, hu, hr⟩ := run_cons_iff.mp hr
    obtain ⟨hok, hg⟩ := hg u hu
    have hnone (hq : Q u) : as.count b = 0 :=
      List.count_eq_zero.mpr (notMem_of_disabled hstep hb hg hr hq)
    by_cases hab : a = b
    · subst hab
      have hrest := hnone (honce s u hu hs)
      rw [List.count_cons_self]
      omega
    · rw [List.count_cons_of_ne hab]
      rcases hfirst s a u hu hok hs with hu' | hq
      · exact ih hg hr hu'
      · rw [hnone hq]
        exact Nat.zero_le 1

theorem throughout_head (h : Throughout step P s as) : P s := by
  cases as with
  | nil => exact h
  | cons => exact h.1

theorem throughout_last (h : Throughout step P s as) (hr : run step s as = some t) : P t := by
  induction as generalizing s with
  | nil =>
    cases hr
    exact h
  | cons a as ih =>
    obtain ⟨u, hu, ht⟩ := run_cons_iff.mp hr
    exact ih (h.2 u hu) ht

/-- What every admitted step keeps holds in every state of a guarded run. -/
theorem throughout_of_guarded (hstep : ∀ s a t, step s a = some t → ok s a → P s → P t)
    (hg : Guarded step ok s as) (hs : P s) : Throughout step P s as := by
  induction as generalizing s with
  | nil => exact hs
  | cons a as ih =>
    refine ⟨hs, ?_⟩
    intro t ht
    obtain ⟨hok, hg⟩ := hg t ht
    exact ih hg (hstep s a t ht hok hs)

theorem throughout_of_invariant (hstep : ∀ s a t, step s a = some t → P s → P t) (hs : P s) :
    Throughout step P s as :=
  throughout_of_guarded (fun s a t h _ => hstep s a t h) guarded_true hs

theorem throughout_mono (h : Throughout step P s as) (hPQ : ∀ s, P s → Q s) :
    Throughout step Q s as := by
  induction as generalizing s with
  | nil => exact hPQ s h
  | cons a as ih => exact ⟨hPQ s h.1, fun t ht => ih (h.2 t ht)⟩

/-- Steps that are admitted wherever a property holds are admitted along a run that
keeps it. -/
theorem guarded_of_throughout (h : Throughout step P s as)
    (hok : ∀ s a t, step s a = some t → P s → ok s a) : Guarded step ok s as := by
  induction as generalizing s with
  | nil => trivial
  | cons a as ih =>
    intro t ht
    exact ⟨hok s a t ht h.1, ih (h.2 t ht)⟩

/-- Admitted steps that keep a property and are fair where it holds make a fair run. -/
theorem guarded_of_guarded {fair : σ → α → Prop}
    (hstep : ∀ s a t, step s a = some t → ok s a → P s → P t ∧ fair s a)
    (hg : Guarded step ok s as) (hs : P s) : Guarded step fair s as := by
  induction as generalizing s with
  | nil => trivial
  | cons a as ih =>
    intro t ht
    obtain ⟨hok, hg⟩ := hg t ht
    obtain ⟨hPt, hfair⟩ := hstep s a t ht hok hs
    exact ⟨hfair, ih hg hPt⟩

/-- The rule for steps that keep a property while a count stays within a bound,
where only some of the actions can add to it. -/
theorem throughout_of_budget {cost : σ → Nat} {adds : α → Bool} {bound : Nat}
    (hcost : ∀ s a t, step s a = some t → cost t = cost s + if adds a then 1 else 0)
    (hstep : ∀ s a t, step s a = some t → cost t ≤ bound → P s → P t) (hs : P s)
    (hb : cost s + as.countP adds ≤ bound) :
    Throughout step (fun s => P s ∧ cost s ≤ bound) s as := by
  induction as generalizing s with
  | nil => exact ⟨hs, hb⟩
  | cons a as ih =>
    refine ⟨⟨hs, by omega⟩, ?_⟩
    intro t ht
    have hct := hcost s a t ht
    rw [List.countP_cons] at hb
    exact ih (hstep s a t ht (by omega) hs) (by omega)

/-- When a guard says exactly which steps keep a property and are fair, the runs
that keep it throughout by fair steps are exactly the guarded ones. -/
theorem throughout_and_guarded_iff {fair : σ → α → Prop}
    (hstep : ∀ s a t, step s a = some t → P s → (P t ∧ fair s a ↔ ok s a)) (hs : P s) :
    Throughout step P s as ∧ Guarded step fair s as ↔ Guarded step ok s as := by
  induction as generalizing s with
  | nil => exact iff_of_true ⟨hs, trivial⟩ trivial
  | cons a as ih =>
    constructor
    · rintro ⟨⟨-, hP⟩, hf⟩ t ht
      obtain ⟨hfair, hf⟩ := hf t ht
      have hPt := throughout_head (hP t ht)
      exact ⟨(hstep s a t ht hs).mp ⟨hPt, hfair⟩, (ih hPt).mp ⟨hP t ht, hf⟩⟩
    · intro hg
      refine ⟨⟨hs, fun t ht => ?_⟩, fun t ht => ?_⟩
      all_goals
        obtain ⟨hok, hg⟩ := hg t ht
        obtain ⟨hPt, hfair⟩ := (hstep s a t ht hs).mpr hok
      · exact ((ih hPt).mpr hg).1
      · exact ⟨hfair, ((ih hPt).mpr hg).2⟩

/-- The rule for a guard that says which steps keep a property, and no more. -/
theorem throughout_iff_guarded (hstep : ∀ s a t, step s a = some t → P s → (P t ↔ ok s a))
    (hs : P s) : Throughout step P s as ↔ Guarded step ok s as := by
  rw [← throughout_and_guarded_iff _ hs]
  · exact (and_iff_left guarded_true).symm
  · intro s a t h hP
    rw [and_iff_left trivial]
    exact hstep s a t h hP

/-- The same rule for runs by fair steps, beside an invariant that those keep. -/
theorem throughout_iff_guarded_of_fair {fair : σ → α → Prop}
    (hQ : ∀ s a t, step s a = some t → fair s a → Q s → Q t)
    (hstep : ∀ s a t, step s a = some t → fair s a → Q s → P s → (P t ↔ ok s a))
    (hf : Guarded step fair s as) (hq : Q s) (hs : P s) :
    Throughout step P s as ↔ Guarded step ok s as := by
  induction as generalizing s with
  | nil => exact iff_of_true hs trivial
  | cons a as ih =>
    constructor
    · rintro ⟨-, hP⟩ t ht
      obtain ⟨hfair, hf⟩ := hf t ht
      have hPt := throughout_head (hP t ht)
      exact ⟨(hstep s a t ht hfair hq hs).mp hPt,
        (ih hf (hQ s a t ht hfair hq) hPt).mp (hP t ht)⟩
    · intro hg
      refine ⟨hs, ?_⟩
      intro t ht
      obtain ⟨hfair, hf⟩ := hf t ht
      obtain ⟨hok, hg⟩ := hg t ht
      exact (ih hf (hQ s a t ht hfair hq) ((hstep s a t ht hfair hq hs).mpr hok)).mpr hg

/-- The same rule beside an invariant that every step keeps. -/
theorem throughout_iff_guarded_of_invariant
    (hQ : ∀ s a t, step s a = some t → Q s → Q t)
    (hstep : ∀ s a t, step s a = some t → Q s → P s → (P t ↔ ok s a)) (hq : Q s) (hs : P s) :
    Throughout step P s as ↔ Guarded step ok s as :=
  throughout_iff_guarded_of_fair (fun s a t h _ => hQ s a t h) (fun s a t h _ => hstep s a t h)
    guarded_true hq hs

end Transition
