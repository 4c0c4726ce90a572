import Rifts.Transition.Pool

/-! Runs of one step function that another can follow, and pools that differ in threads that are
over. -/
namespace Transition

/-- The refinement rule: where every step can be followed by some steps of the other side, so can
every run. -/
theorem exists_run_of_simulation {σ τ α β : Type*} {step : σ → α → Option σ}
    {step' : τ → β → Option τ} {R : σ → τ → Prop} {s s' : σ} {t : τ} {as : List α}
    (hstep : ∀ s a s' t, step s a = some s' → R s t → ∃ bs t', run step' t bs = some t' ∧ R s' t')
    (hr : run step s as = some s') (hR : R s t) : ∃ bs t', run step' t bs = some t' ∧ R s' t' := by
  induction as generalizing s t with
  | nil =>
    cases hr
    exact ⟨[], t, rfl, hR⟩
  | cons a as ih =>
    obtain ⟨u, hu, hrest⟩ := run_cons_iff.mp hr
    obtain ⟨bs, t₁, hrun, hR₁⟩ := hstep s a u t hu hR
    obtain ⟨cs, t', hrun', hR'⟩ := ih hrest hR₁
    exact ⟨bs ++ cs, t', (run_append hrun).trans hrun', hR'⟩

namespace Pool

variable {τ : Type*} {idle : τ → Prop} {t : τ} {ts ts' us us' pre post : List τ}

/-- The second list has the threads of the first, in their order and with idle ones between. -/
inductive Padded (idle : τ → Prop) : List τ → List τ → Prop
  | nil : Padded idle [] []
  | cons (t : τ) {ts ts' : List τ} (h : Padded idle ts ts') : Padded idle (t :: ts) (t :: ts')
  | pad {t : τ} {ts ts' : List τ} (ht : idle t) (h : Padded idle ts ts') : Padded idle ts (t :: ts')

namespace Padded

theorem append (h : Padded idle ts ts') (h' : Padded idle us us') :
    Padded idle (ts ++ us) (ts' ++ us') := by
  induction h with
  | nil => exact h'
  | cons t _ ih => exact .cons t ih
  | pad ht _ ih => exact .pad ht ih

theorem sublist (h : Padded idle ts ts') : ts.Sublist ts' := by
  induction h with
  | nil => exact .slnil
  | cons t _ ih => exact ih.cons_cons t
  | pad _ _ ih => exact ih.cons _

/-- A new thread on both sides. -/
theorem concat (t : τ) (h : Padded idle ts ts') : Padded idle (ts ++ [t]) (ts' ++ [t]) :=
  h.append (.cons t .nil)

/-- A new idle thread on the second side. -/
theorem concat_idle (h : Padded idle ts ts') (ht : idle t) : Padded idle ts (ts' ++ [t]) := by
  have happend := h.append (.pad ht .nil)
  rwa [List.append_nil] at happend

/-- A thread of the first list stands in the second one too. -/
theorem exists_split (h : Padded idle (pre ++ t :: post) ts') : ∃ pre' post',
    ts' = pre' ++ t :: post' ∧ Padded idle pre pre' ∧ Padded idle post post' := by
  generalize hts : pre ++ t :: post = ts at h
  induction h generalizing pre with
  | nil => simp at hts
  | @cons u ts ts' h ih =>
    cases pre with
    | nil =>
      obtain ⟨rfl, rfl⟩ := List.cons.inj hts
      exact ⟨[], ts', rfl, .nil, h⟩
    | cons v pre =>
      obtain ⟨rfl, hrest⟩ := List.cons.inj hts
      obtain ⟨pre', post', rfl, hpre, hpost⟩ := ih hrest
      exact ⟨v :: pre', post', rfl, .cons v hpre, hpost⟩
  | @pad u ts ts' hu h ih =>
    obtain ⟨pre', post', rfl, hpre, hpost⟩ := ih hts
    exact ⟨u :: pre', post', rfl, .pad hu hpre, hpost⟩

end Padded

end Pool

end Transition
