import Mathlib.Data.List.Basic

/-! Values as bytes that can be read back: UTF-8 texts, and records of fields. -/

namespace Utf8

def encode (s : String) : List UInt8 := s.toList.flatMap String.utf8EncodeChar

/-- `std::str::from_utf8`. -/
def decode (bs : List UInt8) : Option String :=
  bs.toByteArray.utf8Decode?.map fun cs => String.ofList cs.toList

@[simp] theorem decode_encode (s : String) : decode (encode s) = some s := by
  have hbytes : (encode s).toByteArray = s.toList.utf8Encode := rfl
  rw [decode, hbytes, List.utf8Decode?_utf8Encode]
  simp

theorem encode_inj {s t : String} : encode s = encode t ↔ s = t := by
  constructor
  · intro h
    have hs := decode_encode s
    rw [h, decode_encode] at hs
    exact (Option.some.inj hs).symm
  · rintro rfl
    rfl

/-- A character takes at most four bytes. -/
theorem length_encode_le (s : String) : (encode s).length ≤ 4 * s.toList.length := by
  unfold encode
  induction s.toList with
  | nil => exact Nat.zero_le _
  | cons c cs ih =>
    have hchar := Char.utf8Size_le_four c
    rw [List.flatMap_cons, List.length_append, String.length_utf8EncodeChar, List.length_cons]
    omega

/-- A byte of zero stands for the character zero only. -/
theorem zero_mem_encode {s : String} (h : 0 ∈ encode s) : '\x00' ∈ s.toList := by
  obtain ⟨c, hc, hb⟩ := List.mem_flatMap.mp h
  have hzero : c.val.toNat = 0 := by
    rw [String.utf8EncodeChar.eq_1] at hb
    have hnat {n : ℕ} (hn : (0 : UInt8) = UInt8.ofNat n) : n % 256 = 0 := by
      have := congrArg UInt8.toNat hn
      rw [UInt8.toNat_ofNat'] at this
      exact this.symm
    repeat' split at hb
    all_goals
      simp only [List.mem_cons, List.not_mem_nil, or_false] at hb
    · have := hnat hb
      omega
    · rcases hb with hb | hb <;> have := hnat hb <;> omega
    · rcases hb with hb | hb | hb <;> have := hnat hb <;> omega
    · rcases hb with hb | hb | hb | hb <;> have := hnat hb <;> omega
  have hchar : c = '\x00' := by
    apply Char.ext
    exact UInt32.toNat_inj.mp hzero
  exact hchar ▸ hc

/-- A decoder that always returns a text, and the right one for UTF-8. -/
structure Lossy where
  decode : List UInt8 → String
  decode_encode : ∀ s, decode (encode s) = s

/-- Anything that is not UTF-8 becomes a replacement character. -/
def Lossy.replacing : Lossy where
  decode bs := (Utf8.decode bs).getD "�"
  decode_encode s := by simp

end Utf8

/-- A way to write values that reads back what it wrote. -/
structure Codec (α : Type*) where
  encode : α → List UInt8
  decode : List UInt8 → Option α
  decode_encode : ∀ a, decode (encode a) = some a

namespace Codec

variable {α : Type*}

theorem encode_inj (C : Codec α) {a b : α} : C.encode a = C.encode b ↔ a = b := by
  constructor
  · intro h
    have ha := C.decode_encode a
    rw [h, C.decode_encode] at ha
    exact (Option.some.inj ha).symm
  · rintro rfl
    rfl

/-- Fields one after the other: each byte after a 1, and a 0 at the end of a field. -/
def frame : List (List UInt8) → List UInt8
  | [] => []
  | f :: fs => (f.flatMap fun b => [1, b]) ++ 0 :: frame fs

def unframe : List UInt8 → List UInt8 → Option (List (List UInt8))
  | [], [] => some []
  | _ :: _, [] => none
  | f, 0 :: bs => (unframe [] bs).map (f :: ·)
  | f, 1 :: b :: bs => unframe (f ++ [b]) bs
  | _, _ => none

theorem unframe_frame (fs : List (List UInt8)) : unframe [] (frame fs) = some fs := by
  induction fs with
  | nil => rfl
  | cons f fs ih =>
    have hfield (pre f : List UInt8) :
        unframe pre ((f.flatMap fun b => [1, b]) ++ 0 :: frame fs) = some ((pre ++ f) :: fs) := by
      induction f generalizing pre with
      | nil => simp [unframe, ih]
      | cons b f ihf => simp [unframe, ihf]
    exact hfield [] f

/-- A codec from a way to cut values into fields. -/
def ofFields (toFields : α → List (List UInt8)) (ofFields : List (List UInt8) → Option α)
    (h : ∀ a, ofFields (toFields a) = some a) : Codec α where
  encode a := frame (toFields a)
  decode bs := (unframe [] bs).bind ofFields
  decode_encode a := by simp [unframe_frame, h]

/-- An optional field: an absent one is empty, and a present one starts with a 1. -/
def optional (f : α → List UInt8) : Option α → List UInt8
  | none => []
  | some a => 1 :: f a

def unoptional (g : List UInt8 → Option α) : List UInt8 → Option (Option α)
  | [] => some none
  | _ :: bs => (g bs).map some

@[simp] theorem unoptional_optional {f : α → List UInt8} {g : List UInt8 → Option α}
    (h : ∀ a, g (f a) = some a) (o : Option α) : unoptional g (optional f o) = some o := by
  cases o with
  | none => rfl
  | some a => simp [optional, unoptional, h]

end Codec
