import Rifts.Transition.Run

/-! Services: a state, and calls that each return an answer. -/
namespace Transition

variable {σ τ α β γ : Type*} {serve : σ → α → σ × β} {serve' : τ → α → τ × γ} {s : σ} {t : τ}
  {a : α} {as bs : List α}

/-- The answers to a sequence of calls. -/
def answers (serve : σ → α → σ × β) : σ → List α → List β
  | _, [] => []
  | s, a :: as => (serve s a).2 :: answers serve (serve s a).1 as

/-- The state after a sequence of calls. -/
def after (serve : σ → α → σ × β) (s : σ) (as : List α) : σ :=
  as.foldl (fun s a => (serve s a).1) s

/-- Each call with its answer. -/
def transcript (serve : σ → α → σ × β) (s : σ) (as : List α) : List (α × β) :=
  as.zip (answers serve s as)

@[simp] theorem length_answers (s : σ) (as : List α) :
    (answers serve s as).length = as.length := by
  induction as generalizing s with
  | nil => rfl
  | cons a as ih => simp [answers, ih]

theorem answers_append (s : σ) (as bs : List α) :
    answers serve s (as ++ bs) = answers serve s as ++ answers serve (after serve s as) bs := by
  induction as generalizing s with
  | nil => rfl
  | cons a as ih => simp [answers, after, ih]

theorem after_concat (s : σ) (as : List α) (a : α) :
    after serve s (as ++ [a]) = (serve (after serve s as) a).1 := by
  simp [after]

theorem transcript_concat (s : σ) (as : List α) (a : α) :
    transcript serve s (as ++ [a]) =
      transcript serve s as ++ [(a, (serve (after serve s as) a).2)] := by
  rw [transcript, answers_append, List.zip_append (by simp)]
  rfl

/-- A call in the middle of a sequence is answered in the state before it. -/
theorem answers_middle (s : σ) (as bs : List α) (a : α) :
    (answers serve s (as ++ a :: bs))[as.length]? = some (serve (after serve s as) a).2 := by
  rw [answers_append, List.getElem?_append_right (by simp)]
  simp [answers]

/-- Every call is admitted by the state it is made in. -/
def Admits (serve : σ → α → σ × β) (ok : σ → α → Prop) (s : σ) (as : List α) : Prop :=
  ∀ pre a post, as = pre ++ a :: post → ok (after serve s pre) a

theorem admits_cons {ok : σ → α → Prop} (h : Admits serve ok s (a :: as)) :
    ok s a ∧ Admits serve ok (serve s a).1 as := by
  refine ⟨h [] a as rfl, ?_⟩
  rintro pre b post rfl
  exact h (a :: pre) b post rfl

theorem admits_nil {ok : σ → α → Prop} : Admits serve ok s [] := by
  intro pre a post h
  cases pre <;> cases h

theorem Admits.cons {ok : σ → α → Prop} (ha : ok s a) (h : Admits serve ok (serve s a).1 as) :
    Admits serve ok s (a :: as) := by
  intro pre b post heq
  cases pre with
  | nil =>
    cases heq
    exact ha
  | cons c pre =>
    obtain ⟨rfl, hrest⟩ := List.cons.inj heq
    exact h pre b post hrest

/-- The simulation rule: related states that give related answers to an admitted
call, and stay related, give related answers to a sequence of them. -/
theorem answers_map_of_simulation {R : σ → τ → Prop} {f : β → γ} {ok : σ → α → Prop}
    (hstep : ∀ s t a, R s t → ok s a →
      R (serve s a).1 (serve' t a).1 ∧ (serve' t a).2 = f (serve s a).2)
    (hok : Admits serve ok s as) (hR : R s t) :
    answers serve' t as = (answers serve s as).map f := by
  induction as generalizing s t with
  | nil => rfl
  | cons a as ih =>
    obtain ⟨ha, hok⟩ := admits_cons hok
    obtain ⟨hR', hans⟩ := hstep s t a hR ha
    rw [answers, answers, List.map_cons, hans, ih hok hR']

/-- The simulation rule for services with the same answers. -/
theorem answers_eq_of_simulation {R : σ → τ → Prop} {serve' : τ → α → τ × β} {ok : σ → α → Prop}
    (hstep : ∀ s t a, R s t → ok s a →
      R (serve s a).1 (serve' t a).1 ∧ (serve' t a).2 = (serve s a).2)
    (hok : Admits serve ok s as) (hR : R s t) : answers serve' t as = answers serve s as := by
  have hmap := answers_map_of_simulation (f := id) hstep hok hR
  rwa [List.map_id] at hmap

/-- Related states stay related. -/
theorem after_of_simulation {R : σ → τ → Prop} {ok : σ → α → Prop}
    (hstep : ∀ s t a, R s t → ok s a → R (serve s a).1 (serve' t a).1)
    (hok : Admits serve ok s as) (hR : R s t) : R (after serve s as) (after serve' t as) := by
  induction as generalizing s t with
  | nil => exact hR
  | cons a as ih =>
    obtain ⟨ha, hok⟩ := admits_cons hok
    exact ih hok (hstep s t a hR ha)

/-- The projection rule: one service answers the calls a predicate selects as another
does, and the other calls leave the two related. Then the first answers the selected
calls of a sequence as the second does when only these are made. The relation may
speak of the calls that are still to come. -/
theorem answers_filter_of_simulation {serve' : τ → α → τ × β} {R : List α → σ → τ → Prop}
    {p : α → Bool}
    (hin : ∀ s t a as, p a = true → R (a :: as) s t →
      R as (serve s a).1 (serve' t a).1 ∧ (serve' t a).2 = (serve s a).2)
    (hout : ∀ s t a as, p a = false → R (a :: as) s t → R as (serve s a).1 t)
    (hR : R as s t) :
    ((transcript serve s as).filter fun x => p x.1).map Prod.snd =
      answers serve' t (as.filter p) := by
  induction as generalizing s t with
  | nil => rfl
  | cons a as ih =>
    have hcons : transcript serve s (a :: as) =
        (a, (serve s a).2) :: transcript serve (serve s a).1 as := rfl
    rw [hcons, List.filter_cons, List.filter_cons]
    cases hp : p a with
    | true =>
      obtain ⟨hR', hans⟩ := hin s t a as hp hR
      rw [if_pos rfl, if_pos rfl, List.map_cons, ih hR', answers, hans]
    | false =>
      rw [if_neg Bool.false_ne_true, if_neg Bool.false_ne_true]
      exact ih (hout s t a as hp hR)

theorem map_snd_filter_transcript {p : α → Bool} (h : ∀ a ∈ as, p a = true) :
    ((transcript serve s as).filter fun x => p x.1).map Prod.snd = answers serve s as := by
  have hall : (transcript serve s as).filter (fun x => p x.1) = transcript serve s as :=
    List.filter_eq_self.mpr fun x hx => h x.1 (List.of_mem_zip hx).1
  rw [hall]
  exact List.map_snd_zip (by simp)

/-- The erasure rule: a service that answers the selected calls as another one does
answers them the same whether or not the rest is called. -/
theorem answers_filter_eq {serve' : τ → α → τ × β} {R : List α → σ → τ → Prop} {p : α → Bool}
    (hin : ∀ s t a as, p a = true → R (a :: as) s t →
      R as (serve s a).1 (serve' t a).1 ∧ (serve' t a).2 = (serve s a).2)
    (hout : ∀ s t a as, p a = false → R (a :: as) s t → R as (serve s a).1 t)
    (hR : R as s t) (hR' : R (as.filter p) s t) :
    ((transcript serve s as).filter fun x => p x.1).map Prod.snd =
      answers serve s (as.filter p) := by
  have hselected : ∀ a ∈ as.filter p, p a = true := fun a ha => (List.mem_filter.mp ha).2
  calc ((transcript serve s as).filter fun x => p x.1).map Prod.snd
      = answers serve' t (as.filter p) := answers_filter_of_simulation hin hout hR
    _ = answers serve' t ((as.filter p).filter p) := by rw [List.filter_eq_self.mpr hselected]
    _ = ((transcript serve s (as.filter p)).filter fun x => p x.1).map Prod.snd :=
      (answers_filter_of_simulation hin hout hR').symm
    _ = answers serve s (as.filter p) := map_snd_filter_transcript hselected

/-- What every admitted call keeps holds after a sequence of them. -/
theorem after_invariant {P : σ → Prop} {ok : σ → α → Prop}
    (hstep : ∀ s a, P s → ok s a → P (serve s a).1) (hok : Admits serve ok s as) (hs : P s) :
    P (after serve s as) := by
  induction as generalizing s with
  | nil => exact hs
  | cons a as ih =>
    obtain ⟨ha, hok⟩ := admits_cons hok
    exact ih hok (hstep s a hs ha)

/-- A condition on the calls alone. -/
theorem admits_of_forall {p : α → Prop} (h : ∀ a ∈ as, p a) :
    Admits serve (fun _ a => p a) s as := by
  rintro pre a post rfl
  exact h a (List.mem_append_right _ List.mem_cons_self)

end Transition
