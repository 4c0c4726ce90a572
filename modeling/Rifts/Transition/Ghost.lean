import Rifts.Transition.Pool

/-! Notes taken beside a program: they see its steps and change none of them. -/
namespace Transition

variable {σ τ κ ι γ δ : Type*}

/-- A program with notes: some shared, some of each thread. A step that the program takes is
noted with the state, the thread and the input it started from. -/
def Program.noted (P : Program σ τ κ ι) (own : κ → δ) (note : σ → τ → ι → γ × δ → γ × δ) :
    Program (σ × γ) (τ × δ) κ ι where
  start call := (P.start call, own call)
  next s t input := (P.next s.1 t.1 input).map fun x =>
    ((x.1, (note s.1 t.1 input (s.2, t.2)).1), (x.2, (note s.1 t.1 input (s.2, t.2)).2))

variable {P : Program σ τ κ ι} {own : κ → δ} {note : σ → τ → ι → γ × δ → γ × δ}

theorem Program.noted_next {s s' : σ × γ} {t t' : τ × δ} {input : ι}
    (h : (P.noted own note).next s t input = some (s', t')) :
    P.next s.1 t.1 input = some (s'.1, t'.1) ∧
      (s'.2, t'.2) = note s.1 t.1 input (s.2, t.2) := by
  obtain ⟨⟨s₁, t₁⟩, hn, hx⟩ := Option.map_eq_some_iff.mp h
  cases hx
  exact ⟨hn, rfl⟩

namespace Pool

/-- A pool without its notes. -/
def forget (p : Pool (σ × γ) (τ × δ)) : Pool σ τ := ⟨p.shared.1, p.threads.map Prod.fst⟩

theorem forget_step (p : Pool (σ × γ) (τ × δ)) (a : Act κ ι) :
    (step (P.noted own note) p a).map forget = step P p.forget a := by
  cases a with
  | spawn call => simp [step, forget, Program.noted]
  | advance i input =>
    simp only [step, forget, List.getElem?_map]
    cases p.threads[i]? with
    | none => rfl
    | some t =>
      simp only [Option.map_some, Program.noted, Option.map_map]
      congr 1
      funext x
      simp [forget, List.map_set]

/-- Every run of the program is one with notes, and the other way round. -/
theorem forget_run (p : Pool (σ × γ) (τ × δ)) (as : List (Act κ ι)) :
    (run (step (P.noted own note)) p as).map forget = run (step P) p.forget as := by
  induction as generalizing p with
  | nil => rfl
  | cons a as ih =>
    have hstep : (step (P.noted own note) p a).map forget = step P p.forget a := forget_step p a
    simp only [run]
    rw [← hstep]
    cases step (P.noted own note) p a with
    | none => rfl
    | some q => exact ih q

end Pool

end Transition
