import Rifts.Bytes.Codec
import Rifts.Core.Frame

/-! JSON values as `serde_json::Value` holds them, and its accessors. The text
format itself belongs to `serde_json` and is a parameter. -/
namespace Rifts

/-- `serde_json::Number`: floats are kept as their bits, which no modelled code reads. -/
inductive Number
  | posInt (n : UInt64)
  | negInt (i : Int64)
  | float (bits : UInt64)
  deriving DecidableEq, Repr

inductive Json
  | null
  | bool (b : Bool)
  | number (n : Number)
  | string (s : String)
  | array (xs : List Json)
  | object (fields : List (String × Json))
  deriving Repr

namespace Json

def get (v : Json) (key : String) : Option Json :=
  match v with
  | .object fields => fields.lookup key
  | _ => none

def asStr : Json → Option String
  | .string s => some s
  | _ => none

def asU64 : Json → Option UInt64
  | .number (.posInt n) => some n
  | _ => none

def asI64 : Json → Option Int64
  | .number (.posInt n) => if n.toNat < 2 ^ 63 then some (Int64.ofNat n.toNat) else none
  | .number (.negInt i) => some i
  | _ => none

def asArray : Json → Option (List Json)
  | .array xs => some xs
  | _ => none

def asObject : Json → Option (List (String × Json))
  | .object fields => some fields
  | _ => none

/-- The `json!` rendering of an optional string. -/
def ofOptStr : Option String → Json
  | some s => .string s
  | none => .null

/-- The `json!` rendering of an optional `u32`. -/
def ofOptU32 : Option UInt32 → Json
  | some n => .number (.posInt n.toUInt64)
  | none => .null

/-- The `json!` rendering of an `i64`. -/
def ofI64 (i : Int64) : Json :=
  if 0 ≤ i.toInt then .number (.posInt (UInt64.ofNat i.toInt.toNat)) else .number (.negInt i)

theorem asI64_ofI64 (i : Int64) : (ofI64 i).asI64 = some i := by
  rw [ofI64]
  split
  · next hpos =>
    have hlt : i.toInt.toNat < 2 ^ 63 := by
      have hmax := i.toInt_lt
      omega
    have hto : (UInt64.ofNat i.toInt.toNat).toNat = i.toInt.toNat :=
      UInt64.toNat_ofNat_of_lt' (Nat.lt_trans hlt (by decide))
    rw [asI64, hto, if_pos hlt, Option.some.injEq]
    apply Int64.toInt_inj.mp
    rw [Int64.toInt_ofNat_of_lt hlt]
    omega
  · rfl

theorem asStr_ofOptStr (o : Option String) : (ofOptStr o).asStr = o := by
  cases o <;> rfl

/-- The digit of a `\\u` escape. -/
def hexDigit (n : Nat) : Char := if n < 10 then Char.ofNat (48 + n) else Char.ofNat (87 + n)

def escape (c : Char) : List Char :=
  if c = '"' then ['\\', '"']
  else if c = '\\' then ['\\', '\\']
  else if c = '\n' then ['\\', 'n']
  else if c = '\t' then ['\\', 't']
  else if c = '\r' then ['\\', 'r']
  else if c = '\x08' then ['\\', 'b']
  else if c = '\x0c' then ['\\', 'f']
  else if c.toNat < 32 then ['\\', 'u', '0', '0', hexDigit (c.toNat / 16), hexDigit (c.toNat % 16)]
  else [c]

def quote (s : String) : List Char := '"' :: (s.toList.flatMap escape ++ ['"'])

mutual

/-- The compact text of a value without floats, for instances of `SerdeJson` that
run; nothing rests on it for any other. -/
def compact : Json → List Char
  | .null => "null".toList
  | .bool b => (toString b).toList
  | .number (.posInt n) => (toString n.toNat).toList
  | .number (.negInt i) => (toString i.toInt).toList
  | .number (.float _) => "null".toList
  | .string s => quote s
  | .array xs => '[' :: (compactItems xs ++ [']'])
  | .object fields => '{' :: (compactFields fields ++ ['}'])

def compactItems : List Json → List Char
  | [] => []
  | [x] => compact x
  | x :: xs => compact x ++ ',' :: compactItems xs

def compactFields : List (String × Json) → List Char
  | [] => []
  | [(k, v)] => quote k ++ ':' :: compact v
  | (k, v) :: fields => quote k ++ ':' :: compact v ++ ',' :: compactFields fields

end

def text (v : Json) : Bytes := (String.ofList v.compact).toUTF8.data.toList

theorem text_eq_encode (v : Json) : v.text = Utf8.encode (String.ofList v.compact) := by
  simp [text, Utf8.encode, List.utf8Encode]

theorem text_inj {v w : Json} : v.text = w.text ↔ v.compact = w.compact := by
  rw [text_eq_encode, text_eq_encode, Utf8.encode_inj, String.ofList_inj]

end Json

/-- The two entry points of `serde_json` the code goes through. -/
structure SerdeJson where
  toVec : Json → Bytes
  fromSlice : Bytes → Except String Json

/-- A `serde_json` that prints every value and reads back the texts of some. -/
def SerdeJson.reading (values : List Json) : SerdeJson where
  toVec v := v.text
  fromSlice b :=
    match values.find? fun v => v.text == b with
    | some v => .ok v
    | none => .error "expected value at line 1 column 1"

theorem SerdeJson.length_toVec_reading_le (values : List Json) (v : Json) :
    ((reading values).toVec v).length ≤ 4 * v.compact.length := by
  have hlen := Utf8.length_encode_le (String.ofList v.compact)
  rwa [String.toList_ofList, ← Json.text_eq_encode] at hlen

/-- Where no two texts are the same, every one of them is read back. -/
theorem SerdeJson.fromSlice_reading_of_mem {values : List Json} {v : Json}
    (h : (values.map Json.compact).Nodup) (hv : v ∈ values) :
    (reading values).fromSlice v.text = .ok v := by
  have hfound : (values.find? fun w => w.text == v.text).isSome :=
    List.find?_isSome.mpr ⟨v, hv, by simp⟩
  obtain ⟨w, hw⟩ := Option.isSome_iff_exists.mp hfound
  have htext : w.text = v.text := by simpa using List.find?_some hw
  have heq : w = v :=
    List.inj_on_of_nodup_map h (List.mem_of_find?_eq_some hw) hv (Json.text_inj.mp htext)
  simp only [reading, hw, heq]

theorem SerdeJson.fromSlice_reading (v : Json) : (reading [v]).fromSlice v.text = .ok v := by
  simp [reading]

end Rifts
