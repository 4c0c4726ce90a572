import Mathlib.Data.List.Nodup
import Mathlib.Logic.Function.Basic

/-! Lists filed under keys, where a list that runs empty is dropped with its key. -/
namespace KeyedLists

variable {κ α ι : Type*} [DecidableEq κ] {m : κ → Option (List α)} {k k' : κ} {x : α}
  {f : α → ι} {R : κ → α → Prop}

omit [DecidableEq κ] in
def listed (m : κ → Option (List α)) (k : κ) : List α := (m k).getD []

def push (m : κ → Option (List α)) (k : κ) (x : α) : κ → Option (List α) :=
  Function.update m k (some (listed m k ++ [x]))

def retain (m : κ → Option (List α)) (k : κ) (keep : α → Bool) : κ → Option (List α) :=
  Function.update m k (((m k).map (List.filter keep)).filter fun l => !l.isEmpty)

/-- `retain` up to the removal of an emptied key. -/
def thin (m : κ → Option (List α)) (k : κ) (keep : α → Bool) : κ → Option (List α) :=
  Function.update m k ((m k).map (List.filter keep))

omit [DecidableEq κ] in
/-- The key has a list, and it is empty. -/
def emptied (m : κ → Option (List α)) (k : κ) : Bool := (m k).any List.isEmpty

def drop (m : κ → Option (List α)) (k : κ) : κ → Option (List α) := Function.update m k none

@[simp] theorem listed_push_self : listed (push m k x) k = listed m k ++ [x] := by
  simp [listed, push]

@[simp] theorem listed_push_of_ne (h : k' ≠ k) : listed (push m k x) k' = listed m k' := by
  simp [listed, push, Function.update_of_ne h]

@[simp] theorem listed_retain_self {keep : α → Bool} :
    listed (retain m k keep) k = (listed m k).filter keep := by
  cases h : m k with
  | none => simp [listed, retain, h]
  | some l => cases hl : l.filter keep <;> simp [listed, retain, h, hl, Option.filter]

@[simp] theorem listed_retain_of_ne {keep : α → Bool} (h : k' ≠ k) :
    listed (retain m k keep) k' = listed m k' := by
  simp [listed, retain, Function.update_of_ne h]

@[simp] theorem listed_thin_self {keep : α → Bool} :
    listed (thin m k keep) k = (listed m k).filter keep := by
  cases h : m k <;> simp [listed, thin, h]

@[simp] theorem listed_thin_of_ne {keep : α → Bool} (h : k' ≠ k) :
    listed (thin m k keep) k' = listed m k' := by
  simp [listed, thin, Function.update_of_ne h]

@[simp] theorem listed_drop_of_ne (h : k' ≠ k) : listed (drop m k) k' = listed m k' := by
  simp [listed, drop, Function.update_of_ne h]

theorem mem_listed_push {y : α} (h : y ∈ listed m k') : y ∈ listed (push m k x) k' := by
  by_cases hk : k' = k
  · subst hk
    rw [listed_push_self]
    exact List.mem_append_left _ h
  · rwa [listed_push_of_ne hk]

theorem mem_listed_thin {keep : α → Bool} {y : α} (h : y ∈ listed m k') (hy : keep y) :
    y ∈ listed (thin m k keep) k' := by
  by_cases hk : k' = k
  · subst hk
    rw [listed_thin_self]
    exact List.mem_filter.mpr ⟨h, hy⟩
  · rwa [listed_thin_of_ne hk]

/-- In one go, the two steps are `retain`. -/
theorem retain_eq {keep : α → Bool} : retain m k keep =
    if emptied (thin m k keep) k then drop (thin m k keep) k else thin m k keep := by
  cases h : m k with
  | none => simp [retain, thin, emptied, h]
  | some l => cases hl : l.filter keep <;> simp [retain, thin, emptied, drop, h, hl, Option.filter]

/-- A push that is retracted leaves no trace. -/
theorem retain_push {keep : α → Bool} (hne : m k ≠ some []) (hkeep : ∀ y ∈ listed m k, keep y)
    (hx : keep x = false) : retain (push m k x) k keep = m := by
  have hlist : (listed m k ++ [x]).filter keep = listed m k := by
    rw [List.filter_append, List.filter_eq_self.mpr hkeep]
    simp [hx]
  have hback : (some (listed m k)).filter (fun l => !l.isEmpty) = m k := by
    cases h : m k with
    | none => simp [listed, h]
    | some l =>
      have hl : l ≠ [] := fun hnil => hne (hnil ▸ h)
      simp [listed, h, Option.filter, hl]
  funext k'
  by_cases hk : k' = k
  · subst hk
    simp only [retain, push, Function.update_self, Option.map_some, hlist, hback]
  · simp only [retain, push, Function.update_of_ne hk]

/-- The lists hold exactly the elements that `R` files under their keys, each
mark once in a list, and no key has an empty list. -/
structure Filed (m : κ → Option (List α)) (f : α → ι) (R : κ → α → Prop) : Prop where
  mem : ∀ k x, x ∈ listed m k ↔ R k x
  nodup : ∀ k, ((listed m k).map f).Nodup
  nonempty : ∀ k, m k ≠ some []

omit [DecidableEq κ] in
theorem filed_empty : Filed (fun _ => none : κ → Option (List α)) f fun _ _ => False := by
  constructor <;> simp [listed]

omit [DecidableEq κ] in
theorem Filed.congr {R' : κ → α → Prop} (h : Filed m f R) (hR : ∀ k x, R k x ↔ R' k x) :
    Filed m f R' :=
  ⟨fun k x => (h.mem k x).trans (hR k x), h.nodup, h.nonempty⟩

theorem Filed.push (h : Filed m f R) (hnew : ∀ y, R k y → f y ≠ f x) :
    Filed (push m k x) f fun k' y => R k' y ∨ k' = k ∧ y = x := by
  constructor
  · intro k' y
    by_cases hk : k' = k
    · subst hk
      simp [h.mem]
    · simp [hk, h.mem]
  · intro k'
    by_cases hk : k' = k
    · subst hk
      rw [listed_push_self, List.map_append, List.nodup_append]
      refine ⟨h.nodup k', by simp, ?_⟩
      rintro a ha b hb rfl
      obtain ⟨y, hy, rfl⟩ := List.mem_map.mp ha
      exact hnew y ((h.mem k' y).mp hy) (by simpa using hb)
    · rw [listed_push_of_ne hk]
      exact h.nodup k'
  · intro k'
    by_cases hk : k' = k
    · subst hk
      simp [KeyedLists.push]
    · rw [KeyedLists.push, Function.update_of_ne hk]
      exact h.nonempty k'

/-- Dropping a mark from the one list that can have it drops it everywhere. -/
theorem Filed.retain {i : ι} {keep : α → Bool} (h : Filed m f R)
    (hkeep : ∀ y, keep y = true ↔ f y ≠ i) (hone : ∀ k' y, R k' y → f y = i → k' = k) :
    Filed (retain m k keep) f fun k' y => R k' y ∧ f y ≠ i := by
  constructor
  · intro k' y
    by_cases hk : k' = k
    · subst hk
      simp [h.mem, hkeep]
    · rw [listed_retain_of_ne hk, h.mem]
      refine ⟨fun hR => ⟨hR, fun hy => hk (hone k' y hR hy)⟩, And.left⟩
  · intro k'
    by_cases hk : k' = k
    · subst hk
      rw [listed_retain_self]
      exact (h.nodup k').sublist (List.filter_sublist.map f)
    · rw [listed_retain_of_ne hk]
      exact h.nodup k'
  · intro k'
    by_cases hk : k' = k
    · subst hk
      simp [KeyedLists.retain, Option.filter_eq_some_iff]
    · rw [KeyedLists.retain, Function.update_of_ne hk]
      exact h.nonempty k'

omit [DecidableEq κ] in
/-- A mark that is filed is the mark of one element of its list. -/
theorem Filed.filter_mark [DecidableEq ι] (h : Filed m f R) (hx : R k x) :
    (listed m k).filter (fun y => f y = f x) = [x] := by
  have hmem := (h.mem k x).mpr hx
  have hn := h.nodup k
  generalize listed m k = l at hmem hn
  induction l with
  | nil => cases hmem
  | cons y l ih =>
    rw [List.map_cons, List.nodup_cons] at hn
    rcases List.mem_cons.mp hmem with rfl | hmem
    · have hrest : l.filter (fun y => f y = f x) = [] := by
        rw [List.filter_eq_nil_iff]
        intro y hy hf
        exact hn.1 (List.mem_map.mpr ⟨y, hy, by simpa using hf⟩)
      simp [hrest]
    · have hne : ¬ f y = f x := fun hf => hn.1 (List.mem_map.mpr ⟨x, hmem, hf.symm⟩)
      rw [List.filter_cons_of_neg (by simpa using hne)]
      exact ih hmem hn.2

end KeyedLists
