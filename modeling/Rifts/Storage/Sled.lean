import Rifts.Bytes.BigEndian
import Rifts.Bytes.Codec
import Rifts.Bytes.Keys
import Rifts.Core.Topic
import Rifts.Data.SortedMap

/-! The sled engine, and the keys the stores keep their records under. -/
namespace Rifts

/-- A sled tree whose operations do not fail. -/
abbrev SledTree := SortedMap Bytes Bytes

namespace SledTree

def scanPrefix (tree : SledTree) (start : Bytes) : List (Bytes × Bytes) :=
  tree.scan start.isPrefixOf

/-- `compare_and_swap`: there is no new tree when the value is not the expected one. -/
def cas (tree : SledTree) (key : Bytes) (expected : Option Bytes) (value : Bytes) :
    Option SledTree :=
  if tree.get key = expected then some (tree.put key value) else none

/-- Every key found under a prefix is deleted. -/
def deletePrefix (tree : SledTree) (start : Bytes) : SledTree :=
  ((tree.scanPrefix start).map Prod.fst).foldl SortedMap.delete tree

theorem deletePrefix_eq {tree : SledTree} {start : Bytes} :
    tree.deletePrefix start = tree.filter fun x => !start.isPrefixOf x.1 := by
  have hall := SortedMap.foldl_delete_scan (m := tree) (p := start.isPrefixOf) (q := fun _ => true)
  simpa [deletePrefix, scanPrefix] using hall

end SledTree

namespace Encode

def sep : UInt8 := 0

/-- The topic, the separator, and what tells the records of the topic apart. -/
def topicKey (topic : String) (rest : Bytes) : Bytes := Utf8.encode topic ++ sep :: rest

def offsetKey (topic : String) : Bytes := topicKey topic (Utf8.encode "head")

def offsetPrefix (topic : String) : Bytes := topicKey topic []

/-- `{offset:020}`: the sign counts as one of the twenty characters. -/
def paddedOffset (offset : Int64) : Bytes :=
  if 0 ≤ offset.toInt then Keys.decimal 20 offset.toInt.toNat
  else 45 :: Keys.decimal 19 (-offset.toInt).toNat

def logKey (topic : String) (offset : Int64) : Bytes := topicKey topic (paddedOffset offset)

def logPrefix (topic : String) : Bytes := topicKey topic []

/-- The first key of a range, inclusive. -/
def logRangeStart (topic : String) (first : Int64) : Bytes := logKey topic first

/-- The end of a range, exclusive: one byte past the key of its last offset. -/
def logRangeEnd (topic : String) (last : Int64) : Bytes := logKey topic last ++ [0xFF]

def dedupeKey (topic messageId : String) : Bytes := topicKey topic (Utf8.encode messageId ++ [sep])

def dedupePrefix (topic : String) : Bytes := topicKey topic []

def snapshotKey (topic snapshotId : String) : Bytes := topicKey topic (Utf8.encode snapshotId)

def snapshotPrefix (topic : String) : Bytes := topicKey topic []

/-- The separator does not occur in the topic. -/
def Separable (topic : String) : Prop := sep ∉ Utf8.encode topic

theorem separable_of_not_mem {topic : String} (h : '\x00' ∉ topic.toList) : Separable topic :=
  fun hmem => h (Utf8.zero_mem_encode hmem)

theorem separable_of_validateName {name : String} (h : validateName name = .ok ()) :
    Separable name := by
  refine separable_of_not_mem fun hnul => ?_
  have hcontrol : name.toList.any isControl = true := List.any_eq_true.mpr ⟨_, hnul, by decide⟩
  unfold validateName at h
  simp only [hcontrol, if_true] at h
  repeat' split at h
  all_goals cases h

variable {t u : String} {x y : Bytes} {a b : Int64}

theorem topicKey_inj (ht : Separable t) (hu : Separable u) :
    topicKey t x = topicKey u y ↔ t = u ∧ x = y := by
  rw [topicKey, topicKey, Keys.append_sep_inj ht hu, Utf8.encode_inj]

/-- The records of a topic are the ones under its prefix. -/
theorem isPrefixOf_topicKey (ht : Separable t) (hu : Separable u) :
    (topicKey t []).isPrefixOf (topicKey u x) = true ↔ t = u := by
  rw [List.isPrefixOf_iff_prefix, topicKey, topicKey, Keys.sep_prefix_iff ht hu, Utf8.encode_inj]

theorem isPrefixOf_topicKey_self : (topicKey t []).isPrefixOf (topicKey t x) = true := by
  rw [List.isPrefixOf_iff_prefix]
  exact ⟨x, by simp [topicKey]⟩

theorem isPrefixOf_topicKey_of_ne (ht : Separable t) (hu : Separable u) (h : t ≠ u) :
    (topicKey t []).isPrefixOf (topicKey u x) = false := by
  rw [← Bool.not_eq_true]
  exact fun hp => h ((isPrefixOf_topicKey ht hu).mp hp)

/-- A key under the prefix of a topic is not under that of another. -/
theorem isPrefixOf_of_ne {k : Bytes} (ht : Separable t) (hu : Separable u) (h : t ≠ u)
    (hk : (topicKey u []).isPrefixOf k = true) : (topicKey t []).isPrefixOf k = false := by
  obtain ⟨rest, rfl⟩ := List.isPrefixOf_iff_prefix.mp hk
  have hkey : topicKey u [] ++ rest = topicKey u rest := by simp [topicKey]
  rw [hkey]
  exact isPrefixOf_topicKey_of_ne ht hu h

theorem dedupeKey_inj {m n : String} (ht : Separable t) (hu : Separable u) :
    dedupeKey t m = dedupeKey u n ↔ t = u ∧ m = n := by
  rw [dedupeKey, dedupeKey, topicKey_inj ht hu, List.append_left_inj, Utf8.encode_inj]

/-- Offsets that are not negative sort like their keys. -/
theorem logKey_lt_iff (ha : 0 ≤ a.toInt) (hb : 0 ≤ b.toInt) :
    logKey t a < logKey t b ↔ a.toInt < b.toInt := by
  have hbound {o : Int64} : o.toInt.toNat < 10 ^ 20 := by
    have := o.toInt_lt
    omega
  rw [logKey, logKey, topicKey, topicKey, Keys.append_lt_append_iff, List.cons_lt_cons_iff,
    paddedOffset, if_pos ha, paddedOffset, if_pos hb, Keys.decimal_lt_iff hbound hbound]
  simp only [lt_self_iff_false, true_and, false_or]
  omega

theorem logKey_le_iff (ha : 0 ≤ a.toInt) (hb : 0 ≤ b.toInt) :
    logKey t a ≤ logKey t b ↔ a.toInt ≤ b.toInt := by
  rw [← not_lt, logKey_lt_iff hb ha, Int.not_lt]

theorem length_paddedOffset (a : Int64) : (paddedOffset a).length = 20 := by
  unfold paddedOffset
  split
  · exact Keys.length_decimal 20 _
  · rw [List.length_cons, Keys.length_decimal]

/-- All keys of a topic's log have one length, whatever the sign of the offset. -/
theorem length_logKey (t : String) (a : Int64) :
    (logKey t a).length = (Utf8.encode t).length + 21 := by
  rw [logKey, topicKey, List.length_append, List.length_cons, length_paddedOffset]

/-- The end of a range comes after its last key, and before the next. -/
theorem lt_logRangeEnd_iff : logKey t a < logRangeEnd t b ↔ logKey t a ≤ logKey t b :=
  Keys.lt_concat_iff_le (by rw [length_logKey, length_logKey])

/-- Keys of offsets that are not negative sort like the offsets, and a range of keys holds the
offsets from its first to its last. -/
theorem log_keys_sort_like_offsets (topic : String) :
    (∀ a b : Int64, 0 ≤ a → 0 ≤ b → (logKey topic a < logKey topic b ↔ a < b)) ∧
    ∀ first last o : Int64, 0 ≤ first → 0 ≤ last → 0 ≤ o →
      (logRangeStart topic first ≤ logKey topic o ∧ logKey topic o < logRangeEnd topic last ↔
        first ≤ o ∧ o ≤ last) := by
  have hnonneg {x : Int64} (h : 0 ≤ x) : 0 ≤ x.toInt := Int64.le_iff_toInt_le.mp h
  constructor
  · intro a b ha hb
    rw [logKey_lt_iff (hnonneg ha) (hnonneg hb), Int64.lt_iff_toInt_lt]
  · intro first last o hfirst hlast ho
    rw [logRangeStart, lt_logRangeEnd_iff, logKey_le_iff (hnonneg hfirst) (hnonneg ho),
      logKey_le_iff (hnonneg ho) (hnonneg hlast), Int64.le_iff_toInt_le, Int64.le_iff_toInt_le]

/-- Ten comes after nine, also as a key, and the range of both ends before eleven. -/
theorem ninth_before_tenth :
    logKey "t" 9 < logKey "t" 10 ∧ logRangeStart "t" 9 ≤ logKey "t" 10 ∧
      logKey "t" 10 < logRangeEnd "t" 10 ∧ ¬ logKey "t" 11 < logRangeEnd "t" 10 := by
  obtain ⟨horder, hrange⟩ := log_keys_sort_like_offsets "t"
  have hten := (hrange 9 10 10 (by decide) (by decide) (by decide)).mpr (by decide)
  refine ⟨(horder 9 10 (by decide) (by decide)).mpr (by decide), hten.1, hten.2, ?_⟩
  intro hlt
  have hstart : logRangeStart "t" 11 ≤ logKey "t" 11 := le_rfl
  have heleven := (hrange 11 10 11 (by decide) (by decide) (by decide)).mp ⟨hstart, hlt⟩
  exact absurd heleven.2 (by decide)

/-- A sign is not a digit, so offsets of either sign have different texts. -/
theorem paddedOffset_inj (h : paddedOffset a = paddedOffset b) : a = b := by
  have hsign {m : ℕ} {ds : Bytes} : Keys.decimal 20 m ≠ 45 :: ds := by
    intro h
    have hdigit : Keys.digit (m / 10 ^ 19 % 10) = 45 := (List.cons.inj h).1
    have hval := congrArg UInt8.toNat hdigit
    rw [Keys.toNat_digit (Nat.mod_lt _ (by decide))] at hval
    have : (45 : UInt8).toNat = 45 := rfl
    omega
  have ha := a.toInt_lt
  have ha' := a.le_toInt
  have hb := b.toInt_lt
  have hb' := b.le_toInt
  apply Int64.toInt_inj.mp
  unfold paddedOffset at h
  split at h <;> split at h
  · have := Keys.decimal_inj (by omega) (by omega) h
    omega
  · exact absurd h hsign
  · exact absurd h.symm hsign
  · have := Keys.decimal_inj (by omega) (by omega) (List.cons.inj h).2
    omega

theorem paddedOffset_eq_iff : paddedOffset a = paddedOffset b ↔ a = b :=
  ⟨paddedOffset_inj, congrArg paddedOffset⟩

theorem logKey_inj : logKey t a = logKey t b ↔ a = b := by
  rw [logKey, logKey, topicKey, topicKey, List.append_right_inj, List.cons.injEq,
    and_iff_right rfl, paddedOffset_eq_iff]

/-- The keys of two topics are told apart by their topics, and those of one topic by what comes
after it, whatever ids contain. -/
theorem keys_isolate (t u : String) (ht : '\x00' ∉ t.toList) (hu : '\x00' ∉ u.toList)
    (a b : Int64) (m n : String) :
    ((offsetPrefix t).isPrefixOf (offsetKey u) = true ↔ t = u) ∧
    ((logPrefix t).isPrefixOf (logKey u a) = true ↔ t = u) ∧
    ((dedupePrefix t).isPrefixOf (dedupeKey u m) = true ↔ t = u) ∧
    ((snapshotPrefix t).isPrefixOf (snapshotKey u m) = true ↔ t = u) ∧
    (offsetKey t = offsetKey u ↔ t = u) ∧
    (logKey t a = logKey u b ↔ t = u ∧ a = b) ∧
    (dedupeKey t m = dedupeKey u n ↔ t = u ∧ m = n) ∧
    (snapshotKey t m = snapshotKey u n ↔ t = u ∧ m = n) := by
  have ht := separable_of_not_mem ht
  have hu := separable_of_not_mem hu
  refine ⟨isPrefixOf_topicKey ht hu, isPrefixOf_topicKey ht hu, isPrefixOf_topicKey ht hu,
    isPrefixOf_topicKey ht hu, ?_, ?_, dedupeKey_inj ht hu, ?_⟩
  · rw [offsetKey, offsetKey, topicKey_inj ht hu, and_iff_left rfl]
  · rw [logKey, logKey, topicKey_inj ht hu, paddedOffset_eq_iff]
  · rw [snapshotKey, snapshotKey, topicKey_inj ht hu, Utf8.encode_inj]

theorem keys_of_nested_topics :
    (logPrefix "a").isPrefixOf (logKey "ab" (-1)) = false ∧
      dedupeKey "a" "\x00" ≠ dedupeKey "a" "" := by
  obtain ⟨-, hlog, -⟩ := keys_isolate "a" "ab" (by decide) (by decide) (-1) 0 "\x00" ""
  obtain ⟨-, -, -, -, -, -, hsame, -⟩ :=
    keys_isolate "a" "a" (by decide) (by decide) (-1) 0 "\x00" ""
  refine ⟨?_, fun h => absurd (hsame.mp h).2 (by decide)⟩
  rw [← Bool.not_eq_true, hlog]
  decide

end Encode

end Rifts
