import Mathlib.Data.Multiset.Range

/-! Numbers handed out in order by a shared counter. -/
namespace Sequence

variable {α : Type*} {f : Nat → α} {next : α} {given : Multiset α}

/-- The values given out so far are the first ones of the sequence `f`, each once,
and `next` comes after them. -/
structure Issued (f : Nat → α) (next : α) (given : Multiset α) : Prop where
  next : next = f given.card
  given : given = (Multiset.range given.card).map f

theorem issued_zero : Issued f (f 0) 0 := ⟨rfl, rfl⟩

theorem Issued.issue (h : Issued f next given) :
    Issued f (f (given.card + 1)) (next ::ₘ given) := by
  constructor
  · rw [Multiset.card_cons]
  · rw [Multiset.card_cons, Multiset.range_succ, Multiset.map_cons, ← h.given, ← h.next]

theorem Issued.nodup (h : Issued f next given)
    (hf : ∀ m n, m < given.card → n < given.card → f m = f n → m = n) : given.Nodup := by
  rw [h.given]
  refine (Multiset.nodup_range _).map_on ?_
  intro m hm n hn
  exact hf m n (Multiset.mem_range.mp hm) (Multiset.mem_range.mp hn)

theorem Issued.mem_iff (h : Issued f next given) {x : α} :
    x ∈ given ↔ ∃ m < given.card, f m = x := by
  have hmem : x ∈ given ↔ x ∈ (Multiset.range given.card).map f := by rw [← h.given]
  rw [hmem]
  simp only [Multiset.mem_map, Multiset.mem_range]

end Sequence
