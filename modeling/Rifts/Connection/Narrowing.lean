import Rifts.Connection.Handshake
import Rifts.Core.TextFrame

/-! Unsigned numbers of a JSON object against the fields that are decoded from them. -/
namespace Rifts

namespace Json

/-- The unsigned integer that an object gives under a key. -/
def unsigned (v : Json) (key : String) : Option UInt64 := (v.get key).bind asU64

/-- A decoded field holds the number that the object gives for it, if it gives one. -/
def Kept (v : Json) (key : String) (field : Option Nat) : Prop :=
  ∀ n, v.unsigned key = some n → field = some n.toNat

/-- The number that the object gives, if any, is below a bound. -/
def Below (v : Json) (key : String) (bound : Nat) : Prop :=
  ∀ n, v.unsigned key = some n → n.toNat < bound

variable {v : Json} {key : String} {bound : Nat}

/-- A field that is the rest of the number is the number when there is nothing to cut. -/
theorem kept_iff_below (cut : UInt64 → Nat) (hbound : 0 < bound)
    (hcut : ∀ n, cut n = n.toNat % bound) :
    v.Kept key ((v.unsigned key).map cut) ↔ v.Below key bound := by
  refine forall₂_congr ?_
  intro n hn
  rw [hn, Option.map_some, Option.some.injEq, hcut]
  constructor
  · intro h
    rw [← h]
    exact Nat.mod_lt _ hbound
  · exact Nat.mod_eq_of_lt

theorem kept_toUInt32_iff :
    v.Kept key (((v.unsigned key).map UInt64.toUInt32).map UInt32.toNat) ↔
      v.Below key (2 ^ 32) := by
  rw [Option.map_map]
  exact kept_iff_below _ (by decide) fun n => UInt64.toNat_toUInt32 n

theorem kept_congr {x y : Option Nat} (h : ∀ n, v.unsigned key = some n → x = y) :
    v.Kept key x ↔ v.Kept key y := by
  refine forall₂_congr ?_
  intro n hn
  rw [h n hn]

end Json

section Decode

variable {J : SerdeJson} {buf : Bytes} {v : Json} (hv : J.fromSlice buf = .ok v)
  (hobj : v.asObject.isSome = true)
include hv hobj

theorem decodeTextFrame_eq :
    decodeTextFrame J buf = (textFrameType v).map (frameOfEnvelope J v) := by
  obtain ⟨fields, hfields⟩ := Option.isSome_iff_exists.mp hobj
  simp only [decodeTextFrame, hv, hfields]

/-- What holds of the frame of an object whose type is known. -/
theorem forall_decodeTextFrame_iff {P : Frame → Prop} :
    (∀ f, decodeTextFrame J buf = .ok f → P f) ↔
      ∀ t, textFrameType v = .ok t → P (frameOfEnvelope J v t) := by
  rw [decodeTextFrame_eq hv hobj]
  cases textFrameType v with
  | error e => simp [Except.map]
  | ok t => simp [Except.map]

/-- What holds of the version and the epoch of a hello whose version is in range. -/
theorem forall_decodeHelloPayload_iff {P : UInt16 → Option UInt32 → Prop} :
    (∀ hello token, decodeHelloPayload J (some buf) = .ok (hello, token) →
        P hello.version hello.epoch) ↔
      ∀ n, helloVersion v = .ok n → P n ((v.unsigned "epoch").map UInt64.toUInt32) := by
  obtain ⟨fields, hfields⟩ := Option.isSome_iff_exists.mp hobj
  simp only [decodeHelloPayload, hv, hfields]
  cases helloVersion v with
  | error e =>
    constructor
    · rintro - n ⟨⟩
    · rintro - hello token ⟨⟩
  | ok n =>
    constructor
    · rintro h _ ⟨⟩
      exact h _ _ rfl
    · rintro h hello token ⟨⟩
      exact h n rfl

end Decode

/-- Versions that do not fit are refused. -/
theorem helloVersion_cases (v : Json) :
    (¬ v.Below "version" (2 ^ 16) ∧ ∃ e, helloVersion v = .error e) ∨
      v.Below "version" (2 ^ 16) ∧
        ∃ n, helloVersion v = .ok n ∧ v.Kept "version" (some n.toNat) := by
  unfold helloVersion
  split
  · next n hn =>
    change v.unsigned "version" = some n at hn
    split
    · next hle =>
      have hlt : n.toNat < 2 ^ 16 := Nat.lt_succ_of_le (UInt64.le_iff_toNat_le.mp hle)
      refine .inr ⟨?_, _, rfl, ?_⟩ <;> intro k hk <;>
        obtain rfl := Option.some.inj (hn.symm.trans hk)
      · exact hlt
      · rw [UInt64.toNat_toUInt16, Nat.mod_eq_of_lt hlt]
    · next hgt =>
      refine .inl ⟨?_, _, rfl⟩
      intro hbelow
      have hlt := hbelow n hn
      rw [UInt64.le_iff_toNat_le] at hgt
      exact hgt (Nat.le_of_lt_succ hlt)
  · next hnone =>
    change v.unsigned "version" = none at hnone
    refine .inr ⟨?_, _, rfl, ?_⟩ <;> intro k hk <;> rw [hnone] at hk <;> cases hk

theorem flags_kept_iff (J : SerdeJson) (v : Json) (t : FrameType) :
    v.Kept "flags" (some (frameOfEnvelope J v t).flags.bits.toNat) ↔ v.Below "flags" (2 ^ 16) := by
  rw [← Json.kept_iff_below (fun n => n.toUInt16.toNat) (by decide)
    fun n => UInt64.toNat_toUInt16 n]
  refine Json.kept_congr ?_
  intro n hn
  change (v.get "flags").bind Json.asU64 = some n at hn
  simp [frameOfEnvelope, Json.unsigned, hn]

theorem ttlMs_kept_iff (J : SerdeJson) (v : Json) (t : FrameType) :
    v.Kept "ttl_ms" ((frameOfEnvelope J v t).ttlMs.map UInt32.toNat) ↔
      v.Below "ttl_ms" (2 ^ 32) := Json.kept_toUInt32_iff

/-- A hello whose version is accepted keeps it, and then it depends on the epoch. -/
theorem hello_kept_iff (v : Json) :
    (∀ n, helloVersion v = .ok n → v.Kept "version" (some n.toNat) ∧
        v.Kept "epoch" (((v.unsigned "epoch").map UInt64.toUInt32).map UInt32.toNat)) ↔
      (v.Below "version" (2 ^ 16) → v.Below "epoch" (2 ^ 32)) := by
  rw [Json.kept_toUInt32_iff]
  rcases helloVersion_cases v with ⟨hbig, e, he⟩ | ⟨hfits, n, hn, hkept⟩
  · refine iff_of_true ?_ fun h => absurd h hbig
    intro n hn
    rw [he] at hn
    cases hn
  · constructor
    · intro h _
      exact (h n hn).2
    · intro h m hm
      obtain rfl := Except.ok.inj (hn.symm.trans hm)
      exact ⟨hkept, h hfits⟩

/-- Which numbers survive, for every object. The flags and the TTL of a text frame do unless they
are out of range; its version is not read and is always that of the protocol. The version of a
hello is checked, and its epoch survives unless it is out of range. -/
theorem numbers_kept_iff (J : SerdeJson) (buf : Bytes) (v : Json) (hv : J.fromSlice buf = .ok v)
    (hobj : v.asObject.isSome = true) :
    ((∀ f, decodeTextFrame J buf = .ok f →
        v.Kept "flags" (some f.flags.bits.toNat) ∧
          v.Kept "ttl_ms" (f.ttlMs.map UInt32.toNat)) ↔
      ∀ t, textFrameType v = .ok t →
        v.Below "flags" (2 ^ 16) ∧ v.Below "ttl_ms" (2 ^ 32)) ∧
    ((∀ f, decodeTextFrame J buf = .ok f → v.Kept "version" (some f.version.toNat)) ↔
      ∀ t, textFrameType v = .ok t → ∀ n, v.unsigned "version" = some n → n = 0x0100) ∧
    ((∀ hello token, decodeHelloPayload J (some buf) = .ok (hello, token) →
        v.Kept "version" (some hello.version.toNat) ∧
          v.Kept "epoch" (hello.epoch.map UInt32.toNat)) ↔
      (v.Below "version" (2 ^ 16) → v.Below "epoch" (2 ^ 32))) := by
  refine ⟨?_, ?_, ?_⟩
  · rw [forall_decodeTextFrame_iff hv hobj]
    refine forall₂_congr fun t _ => and_congr (flags_kept_iff J v t) (ttlMs_kept_iff J v t)
  · rw [forall_decodeTextFrame_iff hv hobj]
    refine forall₂_congr fun t _ => forall₂_congr fun n _ => ?_
    change some 0x0100 = some n.toNat ↔ _
    rw [Option.some.injEq, eq_comm, ← UInt64.toNat_inj]
    rfl
  · rw [forall_decodeHelloPayload_iff hv hobj (P := fun version epoch =>
      v.Kept "version" (some version.toNat) ∧ v.Kept "epoch" (epoch.map UInt32.toNat))]
    exact hello_kept_iff v

/-- An object that is a text frame and a hello. -/
def numbered (flags ttlMs version epoch : UInt64) : Json :=
  .object [("flags", .number (.posInt flags)), ("ttl_ms", .number (.posInt ttlMs)),
    ("version", .number (.posInt version)), ("epoch", .number (.posInt epoch))]

theorem small_numbers_kept :
    (∀ f, decodeTextFrame (.reading [numbered 16 5000 256 2])
        (numbered 16 5000 256 2).text = .ok f →
      (numbered 16 5000 256 2).Kept "flags" (some f.flags.bits.toNat) ∧
        (numbered 16 5000 256 2).Kept "ttl_ms" (f.ttlMs.map UInt32.toNat)) ∧
    ∀ hello token, decodeHelloPayload (.reading [numbered 16 5000 256 2])
        (some (numbered 16 5000 256 2).text) = .ok (hello, token) →
      (numbered 16 5000 256 2).Kept "version" (some hello.version.toNat) ∧
        (numbered 16 5000 256 2).Kept "epoch" (hello.epoch.map UInt32.toNat) := by
  obtain ⟨htext, -, hhello⟩ := numbers_kept_iff (.reading [numbered 16 5000 256 2])
    (numbered 16 5000 256 2).text (numbered 16 5000 256 2) (SerdeJson.fromSlice_reading _) rfl
  refine ⟨htext.mpr ?_, hhello.mpr ?_⟩
  · rintro _ -
    constructor <;> rintro _ ⟨⟩ <;> decide
  · rintro - _ ⟨⟩
    decide

/-- Flags and a TTL just out of range become zero, and the epoch after the last becomes one. -/
theorem numbers_wrap :
    (∃ f, decodeTextFrame (.reading [numbered 65536 4294967296 256 4294967297])
        (numbered 65536 4294967296 256 4294967297).text = .ok f ∧
      f.flags.bits = 0 ∧ f.ttlMs = some 0) ∧
    ∃ hello token, decodeHelloPayload (.reading [numbered 65536 4294967296 256 4294967297])
        (some (numbered 65536 4294967296 256 4294967297).text) = .ok (hello, token) ∧
      hello.epoch = some 1 := by
  constructor
  · refine ⟨_, decodeTextFrame_eq (SerdeJson.fromSlice_reading _) rfl, ?_, ?_⟩ <;> rfl
  · simp only [decodeHelloPayload, SerdeJson.fromSlice_reading]
    exact ⟨_, _, rfl, rfl⟩

end Rifts
