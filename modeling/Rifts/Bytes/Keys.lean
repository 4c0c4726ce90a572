import Mathlib.Data.List.Lex
import Mathlib.Data.List.TakeWhile
import Mathlib.Tactic.Positivity

/-! Byte strings as keys: their order, parts that end at a separator, and numerals
that sort like the numbers they stand for. -/

instance Keys.byteOrder : LinearOrder UInt8 where
  le_refl := UInt8.le_refl
  le_trans _ _ _ := UInt8.le_trans
  lt_iff_le_not_ge _ _ := by
    rw [UInt8.not_le]
    exact ⟨fun h => ⟨UInt8.le_of_lt h, h⟩, fun h => h.2⟩
  le_antisymm _ _ := UInt8.le_antisymm
  le_total := UInt8.le_total
  toDecidableLE := inferInstance
  toDecidableEq := inferInstance
  toDecidableLT := inferInstance

namespace Keys

section Separator

variable {α : Type*} [DecidableEq α] {sep : α} {a b x y : List α}

theorem takeWhile_append_sep (ha : sep ∉ a) : (a ++ sep :: x).takeWhile (· ≠ sep) = a := by
  have hall : ∀ c ∈ a, decide (c ≠ sep) = true := by
    rintro c hc
    have hne : c ≠ sep := by
      rintro rfl
      exact ha hc
    simpa using hne
  rw [List.takeWhile_append_of_pos hall]
  simp

/-- A part without the separator can be read back. -/
theorem append_sep_inj (ha : sep ∉ a) (hb : sep ∉ b) :
    a ++ sep :: x = b ++ sep :: y ↔ a = b ∧ x = y := by
  constructor
  · intro h
    have hab : a = b := by
      rw [← takeWhile_append_sep ha (x := x), h, takeWhile_append_sep hb]
    subst hab
    exact ⟨rfl, (List.cons.inj (List.append_cancel_left h)).2⟩
  · rintro ⟨rfl, rfl⟩
    rfl

omit [DecidableEq α] in
/-- Two parts that are joined by a separator, whatever they contain: the same text is
cut at the same place, or at another separator of it. -/
theorem append_sep_eq_iff : a ++ sep :: x = b ++ sep :: y ↔ a = b ∧ x = y ∨
    (∃ s, b = a ++ sep :: s ∧ x = s ++ sep :: y) ∨ ∃ s, a = b ++ sep :: s ∧ y = s ++ sep :: x := by
  constructor
  · intro h
    rcases List.append_eq_append_iff.mp h with ⟨c, hb, hx⟩ | ⟨c, ha, hy⟩
    · rcases List.cons_eq_append_iff.mp hx with ⟨rfl, hcut⟩ | ⟨s, rfl, hcut⟩
      · exact .inl ⟨by rw [hb, List.append_nil], (List.cons.inj hcut).2.symm⟩
      · exact .inr (.inl ⟨s, hb, hcut⟩)
    · rcases List.cons_eq_append_iff.mp hy with ⟨rfl, hcut⟩ | ⟨s, rfl, hcut⟩
      · exact .inl ⟨by rw [ha, List.append_nil], (List.cons.inj hcut).2⟩
      · exact .inr (.inr ⟨s, ha, hcut⟩)
  · rintro (⟨rfl, rfl⟩ | ⟨s, rfl, rfl⟩ | ⟨s, rfl, rfl⟩) <;> simp

/-- Only the keys that start with the same part start with it and a separator. -/
theorem sep_prefix_iff (ha : sep ∉ a) (hb : sep ∉ b) :
    a ++ [sep] <+: b ++ sep :: y ↔ a = b := by
  constructor
  · rintro ⟨x, hx⟩
    rw [List.append_assoc, List.singleton_append, append_sep_inj ha hb] at hx
    exact hx.1
  · rintro rfl
    exact ⟨y, by simp⟩

end Separator

theorem append_lt_append_iff {α : Type*} [LinearOrder α] {a x y : List α} :
    a ++ x < a ++ y ↔ x < y := by
  induction a with
  | nil => rfl
  | cons c a ih =>
    rw [List.cons_append, List.cons_append, List.cons_lt_cons_iff, ih]
    simp

/-- A key with one more element comes after the key, and before all greater keys of its length. -/
theorem lt_concat_iff_le {α : Type*} [LinearOrder α] {a b : List α} {c : α}
    (h : a.length = b.length) : a < b ++ [c] ↔ a ≤ b := by
  induction a generalizing b with
  | nil =>
    obtain rfl := List.length_eq_zero_iff.mp h.symm
    simp
  | cons x a ih =>
    cases b with
    | nil => cases h
    | cons y b =>
      have hlen : a.length = b.length := Nat.succ.inj h
      rw [List.cons_append, List.cons_lt_cons_iff, ih hlen, le_iff_lt_or_eq, le_iff_lt_or_eq,
        List.cons_lt_cons_iff, List.cons.injEq, and_or_left, or_assoc]

/-- The text of a digit. -/
def digit (n : ℕ) : UInt8 := UInt8.ofNat (48 + n)

/-- The `w` low-order decimal digits of a number as text, most significant first. -/
def decimal : ℕ → ℕ → List UInt8
  | 0, _ => []
  | w + 1, n => digit (n / 10 ^ w % 10) :: decimal w n

theorem length_decimal (w n : ℕ) : (decimal w n).length = w := by
  induction w with
  | zero => rfl
  | succ w ih => rw [decimal, List.length_cons, ih]

theorem toNat_digit {n : ℕ} (h : n < 10) : (digit n).toNat = 48 + n := by
  rw [digit, UInt8.toNat_ofNat']
  omega

/-- The digits below a place do not depend on what is above it. -/
theorem decimal_mod {w v : ℕ} (h : w ≤ v) (n : ℕ) : decimal w (n % 10 ^ v) = decimal w n := by
  induction w with
  | zero => rfl
  | succ w ih =>
    obtain ⟨c, hc⟩ : ∃ c, 10 ^ v = 10 ^ w * (10 * c) :=
      ⟨10 ^ (v - (w + 1)), by rw [← mul_assoc, ← pow_succ, ← pow_add, Nat.add_sub_cancel' h]⟩
    have hdigit : n % 10 ^ v / 10 ^ w % 10 = n / 10 ^ w % 10 := by
      rw [hc, Nat.mod_mul_right_div_self, Nat.mod_mul_right_mod]
    rw [decimal, decimal, hdigit, ih (by omega)]

/-- Numbers compare by their leading part, then by the rest. -/
theorem lt_iff_div_mod {d m n : ℕ} :
    m < n ↔ m / d < n / d ∨ m / d = n / d ∧ m % d < n % d := by
  have hm := Nat.div_add_mod m d
  have hn := Nat.div_add_mod n d
  constructor
  · intro h
    obtain hlt | heq := lt_or_eq_of_le (Nat.div_le_div_right (c := d) h.le)
    · exact .inl hlt
    · rw [heq] at hm
      exact .inr ⟨heq, by omega⟩
  · rintro (h | ⟨heq, h⟩)
    · exact Nat.lt_of_div_lt_div h
    · rw [heq] at hm
      omega

/-- Numerals of one width sort like the numbers. -/
theorem decimal_lt_iff {w m n : ℕ} (hm : m < 10 ^ w) (hn : n < 10 ^ w) :
    decimal w m < decimal w n ↔ m < n := by
  induction w generalizing m n with
  | zero =>
    obtain rfl : m = n := by
      rw [pow_zero] at hm hn
      omega
    simp
  | succ w ih =>
    have hpos : 0 < 10 ^ w := by positivity
    rw [pow_succ] at hm hn
    have hqm : m / 10 ^ w < 10 := Nat.div_lt_of_lt_mul hm
    have hqn : n / 10 ^ w < 10 := Nat.div_lt_of_lt_mul hn
    have hrest : decimal w m < decimal w n ↔ m % 10 ^ w < n % 10 ^ w := by
      rw [← decimal_mod le_rfl m, ← decimal_mod le_rfl n]
      exact ih (Nat.mod_lt _ hpos) (Nat.mod_lt _ hpos)
    have hlt : digit (m / 10 ^ w) < digit (n / 10 ^ w) ↔ m / 10 ^ w < n / 10 ^ w := by
      rw [UInt8.lt_iff_toNat_lt, toNat_digit hqm, toNat_digit hqn]
      omega
    have heq : digit (m / 10 ^ w) = digit (n / 10 ^ w) ↔ m / 10 ^ w = n / 10 ^ w := by
      rw [← UInt8.toNat_inj, toNat_digit hqm, toNat_digit hqn]
      omega
    rw [decimal, decimal, Nat.mod_eq_of_lt hqm, Nat.mod_eq_of_lt hqn, List.cons_lt_cons_iff, hlt,
      heq, hrest, ← lt_iff_div_mod]

theorem decimal_inj {w m n : ℕ} (hm : m < 10 ^ w) (hn : n < 10 ^ w)
    (h : decimal w m = decimal w n) : m = n := by
  have hmn := decimal_lt_iff hm hn
  have hnm := decimal_lt_iff hn hm
  rw [h] at hmn hnm
  simp only [lt_self_iff_false, false_iff, not_lt] at hmn hnm
  omega

end Keys
