import Rifts.Core.FrameCodec

/-! The byte strings that `decode_binary_frame` accepts, and what they decode to. -/
namespace Rifts

open BigEndian

/-- The payload length that a header declares. -/
def declaredLen (buf : Bytes) : Nat := ofBytes (slice buf 20 4)

/-- A whole header with known tags, and a payload that is there and not too long. Bytes
after the payload are allowed. -/
structure Accepted (buf : Bytes) (max : Nat) : Prop where
  header : 24 ≤ buf.length
  frameType : (FrameType.fromTag (buf.getD 0 0)).isSome
  codec : (EncodingFormat.fromTag (buf.getD 1 0)).isSome
  fits : declaredLen buf ≤ max
  whole : declaredLen buf ≤ buf.length - 24

/-- The frame in a byte string, once its tags are read. -/
def frameIn (buf : Bytes) (frameType : FrameType) (codec : EncodingFormat) : Frame :=
  { version := 0x0100
    frameId := UInt64.ofNat (ofBytes (slice buf 4 8))
    frameType := frameType
    flags := ⟨UInt16.ofNat (ofBytes (slice buf 2 2))⟩
    codec := codec
    timestamp := (UInt64.ofNat (ofBytes (slice buf 12 8))).toInt64
    payload := some (slice buf 24 (declaredLen buf)) }

variable {f g : Frame} {buf : Bytes} {max : Nat} {frameType : FrameType} {codec : EncodingFormat}

theorem FrameType.tag_of_fromTag {tag : UInt8} (h : FrameType.fromTag tag = some frameType) :
    frameType.tag = tag := by
  unfold FrameType.fromTag at h
  split_ifs at h <;> cases h <;> exact Eq.symm ‹_›

theorem EncodingFormat.tag_of_fromTag {tag : UInt8} (h : EncodingFormat.fromTag tag = some codec) :
    codec.tag = tag := by
  unfold EncodingFormat.fromTag at h
  split_ifs at h <;> cases h <;> exact Eq.symm ‹_›

theorem decodeBinaryFrame_eq_ok_iff : decodeBinaryFrame buf max = .ok g ↔
    Accepted buf max ∧ ∃ frameType codec, FrameType.fromTag (buf.getD 0 0) = some frameType ∧
      EncodingFormat.fromTag (buf.getD 1 0) = some codec ∧ g = frameIn buf frameType codec := by
  constructor
  · intro h
    unfold decodeBinaryFrame at h
    split at h
    · cases h
    · next hheader =>
      split at h
      · cases h
      · next frameType htype =>
        split at h
        · cases h
        · next codec hcodec =>
          dsimp only at h
          split at h
          · cases h
          · next hfits =>
            split at h
            · cases h
            · next hwhole =>
              cases h
              refine ⟨⟨by omega, ?_, ?_, by rw [declaredLen]; omega, by rw [declaredLen]; omega⟩,
                frameType, codec, htype, hcodec, rfl⟩
              · rw [htype, Option.isSome_some]
              · rw [hcodec, Option.isSome_some]
  · rintro ⟨h, frameType, codec, htype, hcodec, rfl⟩
    have hfits := h.fits
    have hwhole := h.whole
    have hheader := h.header
    rw [declaredLen] at hfits hwhole
    rw [decodeBinaryFrame, if_neg (by omega), htype, hcodec]
    dsimp only
    rw [if_neg (by omega), if_neg (by omega)]
    rfl

theorem exists_decode_iff : (∃ g, decodeBinaryFrame buf max = .ok g) ↔ Accepted buf max := by
  constructor
  · rintro ⟨g, hg⟩
    exact (decodeBinaryFrame_eq_ok_iff.mp hg).1
  · intro h
    obtain ⟨frameType, htype⟩ := Option.isSome_iff_exists.mp h.frameType
    obtain ⟨codec, hcodec⟩ := Option.isSome_iff_exists.mp h.codec
    exact ⟨_, decodeBinaryFrame_eq_ok_iff.mpr ⟨h, frameType, codec, htype, hcodec, rfl⟩⟩

/-- The two tags are the first two bytes. -/
theorem tags_eq_slice (hlen : 24 ≤ buf.length)
    (htype : FrameType.fromTag (buf.getD 0 0) = some frameType)
    (hcodec : EncodingFormat.fromTag (buf.getD 1 0) = some codec) :
    [frameType.tag, codec.tag] = slice buf 0 2 := by
  rw [FrameType.tag_of_fromTag htype, EncodingFormat.tag_of_fromTag hcodec]
  match buf, hlen with
  | _ :: _ :: _, _ => rfl

/-- The header written for the frame in a byte string is that string's header. -/
theorem encodeHeader_frameIn (hlen : 24 ≤ buf.length)
    (htype : FrameType.fromTag (buf.getD 0 0) = some frameType)
    (hcodec : EncodingFormat.fromTag (buf.getD 1 0) = some codec) :
    encodeHeader (frameIn buf frameType codec) (declaredLen buf) = slice buf 0 24 := by
  have hflags : (UInt16.ofNat (ofBytes (slice buf 2 2))).toNat = ofBytes (slice buf 2 2) :=
    UInt16.toNat_ofNat_of_lt' (ofBytes_slice_lt (n := 2) (by omega))
  have hid : (UInt64.ofNat (ofBytes (slice buf 4 8))).toNat = ofBytes (slice buf 4 8) :=
    UInt64.toNat_ofNat_of_lt' (ofBytes_slice_lt (n := 8) (by omega))
  have hclock : (UInt64.ofNat (ofBytes (slice buf 12 8))).toInt64.toUInt64.toNat =
      ofBytes (slice buf 12 8) := by
    rw [UInt64.toUInt64_toInt64]
    exact UInt64.toNat_ofNat_of_lt' (ofBytes_slice_lt (n := 8) (by omega))
  have htags := tags_eq_slice hlen htype hcodec
  simp only [encodeHeader, frameIn, declaredLen]
  rw [hflags, hid, hclock, toBytes_ofBytes_slice (by omega), toBytes_ofBytes_slice (by omega),
    toBytes_ofBytes_slice (by omega), toBytes_ofBytes_slice (by omega), htags,
    slice_append_slice buf 12 8, slice_append_slice buf 4 8, slice_append_slice buf 2 2,
    slice_append_slice buf 0 2]

/-- Writing back what was decoded gives the bytes that were read. -/
theorem encodeFrame_of_decode (h : decodeBinaryFrame buf max = .ok g) :
    encodeFrame g = buf.take (24 + declaredLen buf) := by
  obtain ⟨hacc, frameType, codec, htype, hcodec, rfl⟩ := decodeBinaryFrame_eq_ok_iff.mp h
  have hheader := hacc.header
  have hwhole := hacc.whole
  have hlen : (slice buf 24 (declaredLen buf)).length = declaredLen buf :=
    length_slice (by omega)
  have hpayload : (frameIn buf frameType codec).payload.getD [] =
      slice buf 24 (declaredLen buf) := rfl
  rw [encodeFrame, hpayload, hlen, encodeHeader_frameIn hheader htype hcodec,
    slice_append_slice buf 0 24]
  rfl

/-- The binary format in both directions: what is written is read back up to the fields the
header has no room for; exactly the well-formed byte strings are read; and what is read is
written back as the bytes it was read from. -/
theorem binary_format_is_exact :
    (∀ (f : Frame) (max : Nat), (f.payload.getD []).length ≤ max →
      (f.payload.getD []).length < 2 ^ 32 →
      ∃ g, decodeBinaryFrame (encodeFrame f) max = .ok g ∧ g.frameType = f.frameType ∧
        g.codec = f.codec ∧ g.flags = f.flags ∧ g.frameId = f.frameId ∧
        g.timestamp = f.timestamp ∧ g.payload = some (f.payload.getD [])) ∧
    (∀ (buf : Bytes) (max : Nat),
      (∃ g, decodeBinaryFrame buf max = .ok g) ↔ Accepted buf max) ∧
    ∀ (buf : Bytes) (max : Nat) (g : Frame), decodeBinaryFrame buf max = .ok g →
      encodeFrame g = buf.take (24 + declaredLen buf) := by
  refine ⟨fun f max hmax h32 => ?_, fun _ _ => exists_decode_iff,
    fun _ _ _ => encodeFrame_of_decode⟩
  exact ⟨f.overWire (f.payload.getD []), decode_encode_of_lt hmax h32, rfl, rfl, rfl, rfl, rfl, rfl⟩

/-- An empty control frame with a stray byte behind it. -/
def strayByte : Bytes :=
  [67, 74, 0, 0, 0, 0, 0, 0, 0, 0, 0, 7, 0, 0, 0, 0, 0, 0, 0, 0, 0, 0, 0, 0, 255]

theorem stray_byte_is_ignored :
    (∃ g, decodeBinaryFrame (encodeFrame { frameId := 7 }) 0 = .ok g ∧ g.frameId = 7 ∧
      g.payload = some []) ∧
    (∃ g, decodeBinaryFrame strayByte 0 = .ok g ∧ encodeFrame g = strayByte.take 24) ∧
    ¬ ∃ g, decodeBinaryFrame (strayByte.take 23) 0 = .ok g := by
  obtain ⟨hround, haccepted, hback⟩ := binary_format_is_exact
  refine ⟨?_, ?_, ?_⟩
  · obtain ⟨g, hg, -, -, -, hid, -, hpayload⟩ := hround { frameId := 7 } 0 (by decide) (by decide)
    exact ⟨g, hg, hid, hpayload⟩
  · obtain ⟨g, hg⟩ := (haccepted strayByte 0).mpr
      ⟨by decide, by decide, by decide, by decide, by decide⟩
    exact ⟨g, hg, hback strayByte 0 g hg⟩
  · rw [haccepted]
    intro h
    exact absurd h.header (by decide)

end Rifts
