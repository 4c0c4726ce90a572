import Mathlib.Algebra.BigOperators.Group.List.Basic
import Mathlib.Algebra.Order.Monoid.Unbundled.Basic
import Mathlib.Algebra.Order.Group.Multiset
import Rifts.Transition.Run

/-! Threads over a shared state: each is a sequential program cut into atomic
steps, and any thread may take the next step. -/
namespace Transition

/-- A program is started by a call; each step reads and writes the shared state,
and may read one more input, such as a clock. It is over where `next` is `none`. -/
structure Program (σ τ κ ι : Type*) where
  start : κ → τ
  next : σ → τ → ι → Option (σ × τ)

/-- Threads stay in the pool after they are over. -/
structure Pool (σ τ : Type*) where
  shared : σ
  threads : List τ

namespace Pool

inductive Act (κ ι : Type*)
  | spawn (call : κ)
  | advance (i : Nat) (input : ι)
  deriving DecidableEq, Repr

variable {σ τ κ ι : Type*} {P : Program σ τ κ ι} {p p' : Pool σ τ} {a : Act κ ι}
  {as : List (Act κ ι)} {s s' : σ} {t t' u : τ} {pre post : List τ}

def step (P : Program σ τ κ ι) (p : Pool σ τ) : Act κ ι → Option (Pool σ τ)
  | .spawn call => some ⟨p.shared, p.threads ++ [P.start call]⟩
  | .advance i input =>
    match p.threads[i]? with
    | none => none
    | some t => (P.next p.shared t input).map fun x => ⟨x.1, p.threads.set i x.2⟩

/-- Everything an action can do: add a thread, or let one take a step among others
that stay as they are. -/
theorem step_cases (h : step P p a = some p') :
    (∃ call, a = .spawn call ∧ p' = ⟨p.shared, p.threads ++ [P.start call]⟩) ∨
    ∃ pre t post input s t', a = .advance pre.length input ∧ p.threads = pre ++ t :: post ∧
      P.next p.shared t input = some (s, t') ∧ p' = ⟨s, pre ++ t' :: post⟩ := by
  cases a with
  | spawn call => exact .inl ⟨call, rfl, (Option.some.inj h).symm⟩
  | advance i input =>
    right
    simp only [step] at h
    split at h
    · cases h
    · next t ht =>
      obtain ⟨⟨s, t'⟩, hn, hp⟩ := Option.map_eq_some_iff.mp h
      obtain ⟨hlt, hget⟩ := List.getElem?_eq_some_iff.mp ht
      refine ⟨p.threads.take i, t, p.threads.drop (i + 1), input, s, t', ?_, ?_, hn, ?_⟩
      · rw [List.length_take_of_le (by omega)]
      · rw [← hget, List.getElem_cons_drop hlt, List.take_append_drop]
      · rw [← hp, List.set_eq_take_cons_drop _ hlt]

theorem step_advance {input : ι} (hn : P.next s t input = some (s', t')) :
    step P ⟨s, pre ++ t :: post⟩ (.advance pre.length input) = some ⟨s', pre ++ t' :: post⟩ := by
  simp [step, hn]

/-- A thread of the pool after a step: it is new, it took the step, or it was there. -/
theorem thread_step (h : step P p a = some p') (hu : u ∈ p'.threads) :
    u ∈ p.threads ∨ (∃ call, a = .spawn call ∧ u = P.start call ∧ p'.shared = p.shared) ∨
      ∃ pre t post input, a = .advance pre.length input ∧ p.threads = pre ++ t :: post ∧
        P.next p.shared t input = some (p'.shared, u) := by
  rcases step_cases h with ⟨call, rfl, rfl⟩ | ⟨pre, t, post, input, s, t', rfl, ht, hn, rfl⟩
  · rcases List.mem_append.mp hu with hold | hnew
    · exact .inl hold
    · exact .inr (.inl ⟨call, rfl, List.mem_singleton.mp hnew, rfl⟩)
  · rw [ht]
    rcases List.mem_append.mp hu with hpre | hrest
    · exact .inl (List.mem_append_left _ hpre)
    · rcases List.mem_cons.mp hrest with rfl | hpost
      · exact .inr (.inr ⟨pre, t, post, input, rfl, rfl, hn⟩)
      · exact .inl (List.mem_append_right _ (List.mem_cons_of_mem t hpost))

/-- What a thread keeps through its own steps it keeps over a run. -/
theorem thread_run {C : τ → Prop} {i : Nat}
    (hC : ∀ s t input s' t', P.next s t input = some (s', t') → C t → C t')
    (h : run (step P) p as = some p') (ht : ∃ t, p.threads[i]? = some t ∧ C t) :
    ∃ t, p'.threads[i]? = some t ∧ C t := by
  refine run_invariant (P := fun p : Pool σ τ => ∃ t, p.threads[i]? = some t ∧ C t) ?_ h ht
  rintro p a p' hstep ⟨t, ht, hc⟩
  rcases step_cases hstep with ⟨call, rfl, rfl⟩ | ⟨pre, u, post, input, s, u', rfl, hp, hn, rfl⟩
  · have hlt : i < p.threads.length := (List.getElem?_eq_some_iff.mp ht).1
    exact ⟨t, by rw [List.getElem?_append_left hlt, ht], hc⟩
  · rw [hp] at ht
    by_cases hi : i = pre.length
    · subst hi
      rw [List.getElem?_append_right (le_refl _), Nat.sub_self, List.getElem?_cons_zero] at ht
      cases ht
      exact ⟨u', by simp, hC _ _ _ _ _ hn hc⟩
    · refine ⟨t, ?_, hc⟩
      rw [← ht]
      rcases Nat.lt_or_gt_of_ne hi with hlt | hgt
      · rw [List.getElem?_append_left hlt, List.getElem?_append_left hlt]
      · obtain ⟨k, hk⟩ : ∃ k, i - pre.length = k + 1 := ⟨i - pre.length - 1, by omega⟩
        rw [List.getElem?_append_right (by omega), List.getElem?_append_right (by omega), hk,
          List.getElem?_cons_succ, List.getElem?_cons_succ]

/-- A condition on the steps of threads, as one on the actions of a pool. -/
def Allows (ok : σ → τ → ι → Prop) (p : Pool σ τ) : Act κ ι → Prop
  | .spawn _ => True
  | .advance i input => ∀ t ∈ p.threads[i]?, ok p.shared t input

instance {ok : σ → τ → ι → Prop} [∀ s t input, Decidable (ok s t input)] (p : Pool σ τ) :
    DecidablePred (Allows (κ := κ) ok p)
  | .spawn _ => .isTrue trivial
  | .advance i input => inferInstanceAs (Decidable (∀ t ∈ p.threads[i]?, ok p.shared t input))

theorem allows_advance {ok : σ → τ → ι → Prop} {input : ι} (h : p.threads = pre ++ t :: post) :
    Allows (κ := κ) ok p (.advance pre.length input) ↔ ok p.shared t input := by
  simp [Allows, h]

theorem allows_true : Allows (κ := κ) (ι := ι) (fun _ _ _ => True) p a := by
  cases a with
  | spawn => trivial
  | advance => exact fun _ _ => trivial

/-- The invariant rule of pools: what new threads and steps keep, under a condition on the
actions. -/
theorem invariant_step_of_guard {G : Pool σ τ → Act κ ι → Prop} {I : Pool σ τ → Prop}
    (hspawn : ∀ s ts call, G ⟨s, ts⟩ (.spawn call) → I ⟨s, ts⟩ →
      I ⟨s, ts ++ [P.start call]⟩)
    (hnext : ∀ s pre t post input s' t', P.next s t input = some (s', t') →
      G ⟨s, pre ++ t :: post⟩ (.advance pre.length input) →
      I ⟨s, pre ++ t :: post⟩ → I ⟨s', pre ++ t' :: post⟩)
    (h : step P p a = some p') (hg : G p a) (hp : I p) : I p' := by
  rcases step_cases h with ⟨call, rfl, rfl⟩ | ⟨pre, t, post, input, s, t', rfl, ht, hn, rfl⟩
  · exact hspawn p.shared p.threads call hg hp
  · have hpool : p = ⟨p.shared, pre ++ t :: post⟩ := by rw [← ht]
    rw [hpool] at hg hp
    exact hnext _ pre t post input s t' hn hg hp

/-- The rule for a condition on the steps of threads. -/
theorem invariant_step {ok : σ → τ → ι → Prop} {I : Pool σ τ → Prop}
    (hspawn : ∀ s ts call, I ⟨s, ts⟩ → I ⟨s, ts ++ [P.start call]⟩)
    (hnext : ∀ s pre t post input s' t', P.next s t input = some (s', t') → ok s t input →
      I ⟨s, pre ++ t :: post⟩ → I ⟨s', pre ++ t' :: post⟩)
    (h : step P p a = some p') (hok : Allows ok p a) (hp : I p) : I p' := by
  refine invariant_step_of_guard (fun s ts call _ => hspawn s ts call) ?_ h hok hp
  intro s pre t post input s' t' hn hallows
  exact hnext s pre t post input s' t' hn ((allows_advance rfl).mp hallows)

/-- The same without a condition. -/
theorem invariant_step_of_forall {I : Pool σ τ → Prop}
    (hspawn : ∀ s ts call, I ⟨s, ts⟩ → I ⟨s, ts ++ [P.start call]⟩)
    (hnext : ∀ s pre t post input s' t', P.next s t input = some (s', t') →
      I ⟨s, pre ++ t :: post⟩ → I ⟨s', pre ++ t' :: post⟩)
    (h : step P p a = some p') (hp : I p) : I p' :=
  invariant_step hspawn
    (fun s pre t post input s' t' hn _ => hnext s pre t post input s' t' hn) h allows_true hp

/-- The rule for a condition that says exactly which steps keep a property. -/
theorem kept_iff_allows {ok : σ → τ → ι → Prop} {I J : Pool σ τ → Prop}
    (hspawn : ∀ s ts call, I ⟨s, ts⟩ → I ⟨s, ts ++ [P.start call]⟩)
    (hnext : ∀ s pre t post input s' t', P.next s t input = some (s', t') →
      J ⟨s, pre ++ t :: post⟩ → I ⟨s, pre ++ t :: post⟩ →
      (I ⟨s', pre ++ t' :: post⟩ ↔ ok s t input))
    (h : step P p a = some p') (hJ : J p) (hI : I p) : I p' ↔ Allows ok p a := by
  rcases step_cases h with ⟨call, rfl, rfl⟩ | ⟨pre, t, post, input, s, t', rfl, ht, hn, rfl⟩
  · exact iff_of_true (hspawn p.shared p.threads call hI) trivial
  · have hpool : p = ⟨p.shared, pre ++ t :: post⟩ := by rw [← ht]
    rw [allows_advance ht]
    rw [hpool] at hJ hI
    exact hnext _ pre t post input s t' hn hJ hI

theorem mem_split : t ∈ pre ++ t :: post := List.mem_append_right _ List.mem_cons_self

theorem mem_split_of_mem (h : u ∈ pre ++ post) : u ∈ pre ++ t :: post := by
  rcases List.mem_append.mp h with hpre | hpost
  · exact List.mem_append_left _ hpre
  · exact List.mem_append_right _ (List.mem_cons_of_mem t hpost)

theorem mem_split_iff : u ∈ pre ++ t :: post ↔ u = t ∨ u ∈ pre ++ post := by
  simp only [List.mem_append, List.mem_cons]
  exact or_left_comm

theorem exists_mem_split {Q : τ → Prop} :
    (∃ v ∈ pre ++ t :: post, Q v) ↔ Q t ∨ ∃ v ∈ pre ++ post, Q v := by
  simp only [mem_split_iff, or_and_right, exists_or, exists_eq_left]

theorem forall_mem_split {Q : τ → Prop} :
    (∀ v ∈ pre ++ t :: post, Q v) ↔ Q t ∧ ∀ v ∈ pre ++ post, Q v := by
  simp only [mem_split_iff, forall_eq_or_imp]

/-- The rule for a property of the shared state together with one of each thread, where a step
leaves the property of the threads that do not take it. -/
theorem shared_and_each_step {I : σ → Prop} {T : σ → τ → Prop}
    (hspawn : ∀ s call, I s → T s (P.start call))
    (hnext : ∀ s t input s' t', P.next s t input = some (s', t') → I s → T s t →
      I s' ∧ T s' t' ∧ ∀ u, T s u → T s' u)
    (h : step P p a = some p') (hp : I p.shared ∧ ∀ t ∈ p.threads, T p.shared t) :
    I p'.shared ∧ ∀ t ∈ p'.threads, T p'.shared t := by
  obtain ⟨hI, hT⟩ := hp
  rcases step_cases h with ⟨call, rfl, rfl⟩ | ⟨pre, t, post, input, s, t', rfl, ht, hn, rfl⟩
  · refine ⟨hI, fun u hu => ?_⟩
    rcases List.mem_append.mp hu with hold | hnew
    · exact hT u hold
    · rw [List.mem_singleton.mp hnew]
      exact hspawn p.shared call hI
  · rw [ht, forall_mem_split] at hT
    obtain ⟨hI', ht', hothers⟩ := hnext _ _ _ _ _ hn hI hT.1
    exact ⟨hI', forall_mem_split.mpr ⟨ht', fun u hu => hothers u (hT.2 u hu)⟩⟩

/-- A symmetric relation among the threads, with one of them set apart. -/
theorem pairwise_split {R : τ → τ → Prop} (hR : ∀ u v, R u v → R v u) :
    (pre ++ t :: post).Pairwise R ↔ (∀ v ∈ pre ++ post, R t v) ∧ (pre ++ post).Pairwise R := by
  rw [List.perm_middle.pairwise_iff (hR _ _), List.pairwise_cons]

section Apart

variable {β : Type*} {f : τ → Option β} {ts : List τ} {x : β}

/-- Two threads do not have the same mark. -/
def Apart (f : τ → Option β) (t u : τ) : Prop := ∀ x, f t = some x → f u ≠ some x

theorem Apart.symm (h : Apart f t u) : Apart f u t := fun x hu ht => h x ht hu

theorem index_eq_of_apart (h : ts.Pairwise (Apart f)) {i j : Nat} (hi : ts[i]? = some t)
    (hj : ts[j]? = some u) (ht : f t = some x) (hu : f u = some x) : i = j := by
  obtain ⟨hilt, rfl⟩ := List.getElem?_eq_some_iff.mp hi
  obtain ⟨hjlt, rfl⟩ := List.getElem?_eq_some_iff.mp hj
  rw [List.pairwise_iff_getElem] at h
  rcases Nat.lt_trichotomy i j with hlt | heq | hgt
  · exact absurd hu (h i j hilt hjlt hlt x ht)
  · exact heq
  · exact absurd ht (h j i hjlt hilt hgt x hu)

theorem eq_of_apart (h : ts.Pairwise (Apart f)) (ht : t ∈ ts) (hu : u ∈ ts) (hft : f t = some x)
    (hfu : f u = some x) : t = u := by
  obtain ⟨i, hi⟩ := List.getElem?_of_mem ht
  obtain ⟨j, hj⟩ := List.getElem?_of_mem hu
  obtain rfl := index_eq_of_apart h hi hj hft hfu
  exact Option.some.inj (hi.symm.trans hj)

theorem apart_concat (h : ts.Pairwise (Apart f)) (ht : ∀ u ∈ ts, Apart f u t) :
    (ts ++ [t]).Pairwise (Apart f) := by
  rw [List.pairwise_append]
  refine ⟨h, List.pairwise_singleton _ t, ?_⟩
  intro u hu v hv
  rw [List.mem_singleton.mp hv]
  exact ht u hu

theorem apart_split : (pre ++ t :: post).Pairwise (Apart f) ↔
    (∀ u ∈ pre ++ post, Apart f t u) ∧ (pre ++ post).Pairwise (Apart f) :=
  pairwise_split fun _ _ => Apart.symm

/-- A step that keeps the mark of its thread, or gives it one that no other has. -/
theorem apart_next (h : (pre ++ t :: post).Pairwise (Apart f))
    (ht : f t' = f t ∨ ∀ u ∈ pre ++ post, Apart f t' u) :
    (pre ++ t' :: post).Pairwise (Apart f) := by
  obtain ⟨hold, hrest⟩ := apart_split.mp h
  refine apart_split.mpr ⟨?_, hrest⟩
  rcases ht with hkeeps | hnew
  · intro u hu x hx
    exact hold u hu x (hkeeps ▸ hx)
  · exact hnew

end Apart

section Total

variable {M : Type*} [AddCommMonoid M] {f : τ → M}

/-- What the threads have done, taken together. -/
def total (f : τ → M) (ts : List τ) : M := (ts.map f).sum

@[simp] theorem total_nil : total f [] = 0 := rfl

theorem total_split : total f (pre ++ t :: post) = f t + total f (pre ++ post) := by
  simp only [total, List.map_append, List.map_cons, List.sum_append, List.sum_cons]
  exact add_left_comm ..

theorem total_cons {ts : List τ} : total f (t :: ts) = f t + total f ts := List.sum_cons

theorem total_concat : total f (pre ++ [t]) = f t + total f pre := by
  rw [total_split, List.append_nil]

theorem map_total {N : Type*} [AddCommMonoid N] (g : M →+ N) {ts : List τ} :
    g (total f ts) = total (fun t => g (f t)) ts := by
  rw [total, map_list_sum, List.map_map]
  rfl

theorem total_mono [Preorder M] [AddLeftMono M] {f g : τ → M} {ts : List τ}
    (h : ∀ t ∈ ts, f t ≤ g t) : total f ts ≤ total g ts := by
  induction ts with
  | nil => exact le_rfl
  | cons t ts ih =>
    rw [total_cons, total_cons]
    exact add_le_add (h t List.mem_cons_self) (ih fun u hu => h u (List.mem_cons_of_mem t hu))

theorem total_congr {g : τ → M} {ts : List τ} (h : ∀ t ∈ ts, f t = g t) :
    total f ts = total g ts := by
  rw [total, total, List.map_congr_left h]

theorem total_add {g : τ → M} {ts : List τ} :
    total (fun t => f t + g t) ts = total f ts + total g ts := List.sum_map_add

theorem total_eq_zero {f : τ → ℕ} {ts : List τ} (h : total f ts = 0) : ∀ t ∈ ts, f t = 0 := by
  intro t ht
  obtain ⟨pre, post, rfl⟩ := List.append_of_mem ht
  rw [total_split] at h
  omega

theorem mem_total {α : Type*} {f : τ → Multiset α} {ts : List τ} {x : α} :
    x ∈ total f ts ↔ ∃ t ∈ ts, x ∈ f t := by
  induction ts with
  | nil => simp
  | cons t ts ih =>
    rw [total_cons, Multiset.mem_add, ih]
    simp

/-- A shared quantity to which every step adds what it adds to the share of its thread is the
sum of the shares. -/
theorem tally_step {A : Type*} [AddCancelCommMonoid A] {v : σ → A} {share : τ → A}
    (hstart : ∀ call, share (P.start call) = 0)
    (hnext : ∀ s t input s' t', P.next s t input = some (s', t') →
      v s' + share t = v s + share t')
    (h : step P p a = some p') (hp : v p.shared = total share p.threads) :
    v p'.shared = total share p'.threads := by
  rcases step_cases h with ⟨call, rfl, rfl⟩ | ⟨pre, t, post, input, s, t', rfl, ht, hn, rfl⟩
  · rw [total_concat, hstart, zero_add]
    exact hp
  · have hadd := hnext _ _ _ _ _ hn
    rw [hp, ht, total_split, add_assoc, add_comm (share t), add_left_inj] at hadd
    change v s = total share (pre ++ t' :: post)
    rw [hadd, total_split, add_comm]

end Total

/-- One thread on its own. -/
def solo (P : Program σ τ κ ι) (x : σ × τ) (input : ι) : Option (σ × τ) := P.next x.1 x.2 input

/-- The variant rule: a thread on its own that has steps to go, and fewer after each, has none
to go before so many inputs are used up. -/
theorem exists_solo_of_variant {I : τ → Prop} {m : τ → Nat}
    (hmoves : ∀ s t input, I t → 0 < m t →
      ∃ s' t', P.next s t input = some (s', t') ∧ I t' ∧ m t' < m t)
    {inputs : List ι} (ht : I t) (hlen : m t ≤ inputs.length) :
    ∃ used s' t', used <+: inputs ∧ run (solo P) (s, t) used = some (s', t') ∧ I t' ∧
      m t' = 0 := by
  induction inputs generalizing s t with
  | nil => exact ⟨[], s, t, List.nil_prefix, rfl, ht, Nat.le_zero.mp hlen⟩
  | cons input inputs ih =>
    rcases Nat.eq_zero_or_pos (m t) with hzero | hpos
    · exact ⟨[], s, t, List.nil_prefix, rfl, ht, hzero⟩
    · obtain ⟨s₁, t₁, hn, ht₁, hlt⟩ := hmoves s t input ht hpos
      rw [List.length_cons] at hlen
      obtain ⟨used, s', t', hused, hrun, ht'⟩ := ih ht₁ (by omega)
      refine ⟨input :: used, s', t', ?_, run_cons_iff.mpr ⟨(s₁, t₁), hn, hrun⟩, ht'⟩
      exact List.cons_prefix_cons.mpr ⟨rfl, hused⟩

/-- What a thread does on its own it can do in a pool while the others wait. -/
theorem run_of_solo {inputs : List ι} (h : run (solo P) (s, t) inputs = some (s', t')) :
    run (step P) ⟨s, pre ++ t :: post⟩ (inputs.map (Act.advance pre.length)) =
      some ⟨s', pre ++ t' :: post⟩ := by
  induction inputs generalizing s t with
  | nil =>
    cases h
    rfl
  | cons input inputs ih =>
    obtain ⟨⟨s₁, t₁⟩, hn, hrest⟩ := run_cons_iff.mp h
    exact run_cons_iff.mpr ⟨_, step_advance hn, ih hrest⟩

/-- A call that runs to its end while the others wait. -/
theorem run_call (call : κ) (ts : List τ) {inputs : List ι}
    (h : run (solo P) (s, P.start call) inputs = some (s', t')) :
    run (step P) ⟨s, ts⟩ (.spawn call :: inputs.map (Act.advance ts.length)) =
      some ⟨s', ts ++ [t']⟩ :=
  run_cons_iff.mpr ⟨_, rfl, run_of_solo h⟩

end Pool

end Transition
