import Mathlib.Data.List.Basic
import Mathlib.Tactic.IntervalCases

/-! Numbers and bytes written out as text, and read back. -/

namespace Text

/-- One or more decimal digits. -/
def parseNat (cs : List Char) : Option Nat :=
  if cs ≠ [] ∧ cs.all Char.isDigit then some (Nat.ofDigitChars 10 cs 0) else none

/-- Whether a number is negative, and what comes after its sign. -/
def splitSign : List Char → Bool × List Char
  | '-' :: cs => (true, cs)
  | '+' :: cs => (false, cs)
  | cs => (false, cs)

/-- `str::parse::<i64>`: a sign is optional, and the number has to fit. -/
def parseInt64 (s : String) : Option Int64 :=
  let (negative, cs) := splitSign s.toList
  (parseNat cs).bind fun n =>
    if negative then if n ≤ 2 ^ 63 then some (Int64.ofInt (-n)) else none
    else if n < 2 ^ 63 then some (Int64.ofInt n) else none

theorem parseNat_toDigits (n : Nat) : parseNat (Nat.toDigits 10 n) = some n := by
  have hdigits : (Nat.toDigits 10 n).all Char.isDigit = true := by
    rw [List.all_eq_true]
    intro c hc
    exact Nat.isDigit_of_mem_toDigits (by omega) (by omega) hc
  rw [parseNat, if_pos ⟨Nat.toDigits_ne_nil, hdigits⟩, Nat.ofDigitChars_ten_toDigits]

theorem splitSign_toDigits (n : Nat) :
    splitSign (Nat.toDigits 10 n) = (false, Nat.toDigits 10 n) := by
  have hdigits (c : Char) (hc : c ∈ Nat.toDigits 10 n) : c.isDigit :=
    Nat.isDigit_of_mem_toDigits (by omega) (by omega) hc
  unfold splitSign
  split
  · next h => exact absurd (hdigits '-' (h ▸ List.mem_cons_self)) (by decide)
  · next h => exact absurd (hdigits '+' (h ▸ List.mem_cons_self)) (by decide)
  · rfl

theorem parseInt64_of_bounds {z : Int} (hlo : -2 ^ 63 ≤ z) (hhi : z < 2 ^ 63) :
    parseInt64 (toString z) = some (Int64.ofInt z) := by
  rw [Int.toString_eq_repr, Int.repr_eq_if]
  by_cases hz : 0 ≤ z
  · have hfits : z.toNat < 2 ^ 63 := by omega
    simp only [if_pos hz, parseInt64, Nat.toList_repr, splitSign_toDigits, parseNat_toDigits,
      Option.bind_some, Bool.false_eq_true, if_false, hfits, if_true, Int.toNat_of_nonneg hz]
  · have hlist : ("-" ++ (-z).toNat.repr).toList = '-' :: Nat.toDigits 10 (-z).toNat := by
      rw [String.toList_append, Nat.toList_repr]
      rfl
    have hfits : (-z).toNat ≤ 2 ^ 63 := by omega
    have habs : -((-z).toNat : Int) = z := by omega
    simp only [if_neg hz, parseInt64, hlist, splitSign, parseNat_toDigits, Option.bind_some,
      if_true, hfits, habs]

/-- A number is read back from what `toString` writes. -/
theorem parseInt64_toString (n : Int64) : parseInt64 (toString n.toInt) = some n := by
  rw [parseInt64_of_bounds n.le_toInt n.toInt_lt, Int64.ofInt_toInt]

def hexByte (b : UInt8) : List Char := [Nat.digitChar (b.toNat / 16), Nat.digitChar (b.toNat % 16)]

/-- Two digits a byte. -/
def hexEncode (bs : List UInt8) : String := String.ofList (bs.flatMap hexByte)

def hexDigit (c : Char) : Option Nat :=
  if '0' ≤ c ∧ c ≤ '9' then some (c.toNat - 48)
  else if 'a' ≤ c ∧ c ≤ 'f' then some (c.toNat - 87)
  else if 'A' ≤ c ∧ c ≤ 'F' then some (c.toNat - 55)
  else none

/-- `u8::from_str_radix` on two characters; the first may be a plus sign. -/
def hexPair (a b : Char) : Option UInt8 :=
  if a = '+' then (hexDigit b).map UInt8.ofNat
  else (hexDigit a).bind fun x => (hexDigit b).map fun y => UInt8.ofNat (16 * x + y)

def hexBytes : List Char → List UInt8
  | a :: b :: cs => (hexPair a b).toList ++ hexBytes cs
  | _ => []

/-- Pairs that are not a number are left out, as is a single character at the end. -/
def hexDecode (s : String) : List UInt8 := hexBytes s.toList

theorem hexDigit_digitChar {n : Nat} (h : n < 16) : hexDigit (Nat.digitChar n) = some n := by
  interval_cases n <;> rfl

theorem hexPair_hexByte (b : UInt8) : hexPair (Nat.digitChar (b.toNat / 16))
    (Nat.digitChar (b.toNat % 16)) = some b := by
  have hb := b.toNat_lt
  have hplus {n : Nat} (hn : n < 16) : Nat.digitChar n ≠ '+' := by
    interval_cases n <;> decide
  have hsum : 16 * (b.toNat / 16) + b.toNat % 16 = b.toNat := Nat.div_add_mod _ _
  rw [hexPair, if_neg (hplus (by omega)), hexDigit_digitChar (by omega),
    hexDigit_digitChar (by omega), Option.bind_some, Option.map_some, hsum, UInt8.ofNat_toNat]

theorem hexDecode_hexEncode (bs : List UInt8) : hexDecode (hexEncode bs) = bs := by
  rw [hexDecode, hexEncode, String.toList_ofList]
  induction bs with
  | nil => rfl
  | cons b bs ih =>
    simp only [List.flatMap_cons, hexByte, List.cons_append, List.nil_append, hexBytes,
      hexPair_hexByte, Option.toList_some] at ih ⊢
    rw [ih]

end Text
