import Mathlib.Data.Nat.ModEq
import Mathlib.Tactic.Ring

/-! Fixed-width big-endian numerals over bytes. -/
namespace BigEndian

/-- The `w` low-order base-256 digits of a number, most significant first. -/
def toBytes : ℕ → ℕ → List UInt8
  | 0, _ => []
  | w + 1, n => UInt8.ofNat (n / 256 ^ w) :: toBytes w n

/-- Read a byte string as one base-256 numeral. -/
def ofBytes : List UInt8 → ℕ
  | [] => 0
  | b :: bs => b.toNat * 256 ^ bs.length + ofBytes bs

@[simp] theorem length_toBytes (w n : ℕ) : (toBytes w n).length = w := by
  induction w with
  | zero => rfl
  | succ w ih => simp [toBytes, ih]

theorem ofBytes_toBytes (w n : ℕ) : ofBytes (toBytes w n) = n % 256 ^ w := by
  induction w with
  | zero => simp [toBytes, ofBytes, Nat.mod_one]
  | succ w ih =>
    have hd : (UInt8.ofNat (n / 256 ^ w)).toNat = n / 256 ^ w % 256 := by simp
    rw [toBytes, ofBytes, length_toBytes, ih, hd, pow_succ, Nat.mod_mul]
    ring

/-- Only the low-order digits are written. -/
theorem toBytes_congr {w m n : ℕ} (h : m % 256 ^ w = n % 256 ^ w) : toBytes w m = toBytes w n := by
  induction w with
  | zero => rfl
  | succ w ih =>
    rw [pow_succ] at h
    have hhead : m / 256 ^ w % 256 = n / 256 ^ w % 256 := by
      rw [← Nat.mod_mul_right_div_self, h, Nat.mod_mul_right_div_self]
    have htail : m % 256 ^ w = n % 256 ^ w := by
      rw [← Nat.mod_mul_right_mod m, h, Nat.mod_mul_right_mod]
    have hbyte : UInt8.ofNat (m / 256 ^ w) = UInt8.ofNat (n / 256 ^ w) :=
      UInt8.toNat_inj.mp (by simpa using hhead)
    rw [toBytes, toBytes, ih htail, hbyte]

theorem ofBytes_lt (bs : List UInt8) : ofBytes bs < 256 ^ bs.length := by
  induction bs with
  | nil => simp [ofBytes]
  | cons b bs ih =>
    have hb : b.toNat + 1 ≤ 256 := b.toNat_lt
    calc b.toNat * 256 ^ bs.length + ofBytes bs
        < b.toNat * 256 ^ bs.length + 256 ^ bs.length := Nat.add_lt_add_left ih _
      _ = (b.toNat + 1) * 256 ^ bs.length := by ring
      _ ≤ 256 * 256 ^ bs.length := Nat.mul_le_mul_right _ hb
      _ = 256 ^ (b :: bs).length := by rw [List.length_cons, pow_succ']

theorem toBytes_ofBytes (bs : List UInt8) : toBytes bs.length (ofBytes bs) = bs := by
  induction bs with
  | nil => rfl
  | cons b bs ih =>
    have hpos : 0 < 256 ^ bs.length := Nat.pow_pos (by decide)
    have hhead : (b.toNat * 256 ^ bs.length + ofBytes bs) / 256 ^ bs.length = b.toNat := by
      rw [add_comm, Nat.add_mul_div_right _ _ hpos, Nat.div_eq_of_lt (ofBytes_lt bs), zero_add]
    have htail : toBytes bs.length (b.toNat * 256 ^ bs.length + ofBytes bs) = bs :=
      (toBytes_congr (Nat.mul_add_mod_self_right ..)).trans ih
    rw [List.length_cons, toBytes, ofBytes, hhead, htail, UInt8.ofNat_toNat]

/-- The `n` bytes of a buffer from position `i` on. -/
def slice (buf : List UInt8) (i n : ℕ) : List UInt8 := (buf.drop i).take n

theorem slice_append {l₁ l₂ l₃ : List UInt8} {i n : ℕ} (hi : l₁.length = i)
    (hn : l₂.length = n) : slice (l₁ ++ (l₂ ++ l₃)) i n = l₂ := by
  subst hi hn
  simp [slice]

theorem ofBytes_slice_append {l₁ l₃ : List UInt8} {i w n : ℕ} (hi : l₁.length = i) :
    ofBytes (slice (l₁ ++ (toBytes w n ++ l₃)) i w) = n % 256 ^ w := by
  rw [slice_append hi (length_toBytes w n), ofBytes_toBytes]

theorem length_slice {buf : List UInt8} {i n : ℕ} (h : i + n ≤ buf.length) :
    (slice buf i n).length = n := by
  rw [slice, List.length_take, List.length_drop]
  omega

theorem slice_append_slice (buf : List UInt8) (i m n : ℕ) :
    slice buf i m ++ slice buf (i + m) n = slice buf i (m + n) := by
  rw [slice, slice, slice, ← List.drop_drop, List.take_add]

theorem ofBytes_slice_lt {buf : List UInt8} {i n : ℕ} (h : i + n ≤ buf.length) :
    ofBytes (slice buf i n) < 256 ^ n := by
  have hlt := ofBytes_lt (slice buf i n)
  rwa [length_slice h] at hlt

theorem toBytes_ofBytes_slice {buf : List UInt8} {i n : ℕ} (h : i + n ≤ buf.length) :
    toBytes n (ofBytes (slice buf i n)) = slice buf i n := by
  have hto := toBytes_ofBytes (slice buf i n)
  rwa [length_slice h] at hto

/-- The eight bytes of a signed 64-bit number. -/
def ofInt64 (v : Int64) : List UInt8 := toBytes 8 v.toUInt64.toNat

/-- The signed number in the first eight bytes. -/
def toInt64 (bs : List UInt8) : Int64 := (UInt64.ofNat (ofBytes (bs.take 8))).toInt64

@[simp] theorem length_ofInt64 (v : Int64) : (ofInt64 v).length = 8 := length_toBytes ..

@[simp] theorem toInt64_append (v : Int64) (rest : List UInt8) :
    toInt64 (ofInt64 v ++ rest) = v := by
  have hlt : v.toUInt64.toNat < 256 ^ 8 := v.toUInt64.toNat_lt
  have htake : (ofInt64 v ++ rest).take 8 = toBytes 8 v.toUInt64.toNat :=
    List.take_left' (length_ofInt64 v)
  rw [toInt64, htake, ofBytes_toBytes, Nat.mod_eq_of_lt hlt, UInt64.ofNat_toNat]
  exact Int64.toInt64_toUInt64 v

@[simp] theorem toInt64_ofInt64 (v : Int64) : toInt64 (ofInt64 v) = v := by
  rw [← List.append_nil (ofInt64 v), toInt64_append]

end BigEndian
