import Mathlib.Algebra.Group.Int.Defs
import Mathlib.Algebra.Group.Nat.Defs
import Mathlib.Data.List.Basic
import Mathlib.Data.Nat.Notation

/-! Ages on a 64-bit clock, whose differences can wrap. -/
namespace ClockWindow

variable {α : Type*} {time : α → Int64} {ms : Nat} {t now last : Int64} {l : List α}

/-- The difference of two readings is a 64-bit integer. -/
def Fits (now t : Int64) : Prop :=
  -2 ^ 63 ≤ now.toInt - t.toInt ∧ now.toInt - t.toInt < 2 ^ 63

instance : Decidable (Fits now t) := inferInstanceAs (Decidable (_ ∧ _))

/-- What is at most `ms` old. -/
def recent (time : α → Int64) (ms : Nat) (now : Int64) (l : List α) : List α :=
  l.filter fun x => now.toInt - (time x).toInt ≤ ms

theorem toInt_sub (h : Fits now t) : (now - t).toInt = now.toInt - t.toInt := by
  obtain ⟨hlow, hhigh⟩ := h
  rw [Int64.toInt_sub, Int.bmod_def]
  omega

theorem toInt_ofNat (hms : ms < 2 ^ 63) : (Int64.ofNat ms).toInt = ms :=
  Int64.toInt_ofNat_of_lt hms

/-- Where nothing wraps, the test on machine integers is the test on integers. -/
theorem sub_le_iff (hms : ms < 2 ^ 63) (h : Fits now t) :
    now - t ≤ Int64.ofNat ms ↔ now.toInt - t.toInt ≤ ms := by
  rw [Int64.le_iff_toInt_le, toInt_sub h, toInt_ofNat hms]

/-- A difference that wraps is negative and passes for an age of no time at all. -/
theorem sub_le_of_not_fits (hms : ms < 2 ^ 63) (hle : t ≤ now) (h : ¬ Fits now t) :
    now - t ≤ Int64.ofNat ms := by
  have hle := Int64.le_iff_toInt_le.mp hle
  have hnow := now.toInt_lt
  have ht := t.le_toInt
  have hwrap : 2 ^ 63 ≤ now.toInt - t.toInt := by
    unfold Fits at h
    omega
  rw [Int64.le_iff_toInt_le, toInt_ofNat hms, Int64.toInt_sub, Int.bmod_def]
  omega

theorem fits_of_nonneg (hnow : 0 ≤ now) (ht : 0 ≤ t) : Fits now t := by
  have hnow := Int64.le_iff_toInt_le.mp hnow
  have ht := Int64.le_iff_toInt_le.mp ht
  have hnow' := now.toInt_lt
  have ht' := t.toInt_lt
  simp only [Int64.toInt_zero] at hnow ht
  unfold Fits
  omega

theorem fits_self : Fits now now := by
  unfold Fits
  omega

theorem recent_append {l' : List α} :
    recent time ms now (l ++ l') = recent time ms now l ++ recent time ms now l' :=
  List.filter_append ..

/-- What was dropped earlier is not missed later. -/
theorem recent_recent (h : last ≤ now) :
    recent time ms now (recent time ms last l) = recent time ms now l := by
  have h := Int64.le_iff_toInt_le.mp h
  rw [recent, recent, List.filter_filter, recent]
  apply List.filter_congr
  intro x _
  rw [← Bool.decide_and, decide_eq_decide]
  omega

/-- The test on machine integers leaves what is recent, where nothing wraps. -/
theorem filter_eq_recent (hms : ms < 2 ^ 63) (h : ∀ x ∈ l, Fits now (time x)) :
    l.filter (fun x => now - time x ≤ Int64.ofNat ms) = recent time ms now l := by
  apply List.filter_congr
  intro x hx
  rw [decide_eq_decide]
  exact sub_le_iff hms (h x hx)

end ClockWindow
